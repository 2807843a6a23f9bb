import Kpmx.Wireplumber.Objects

/-!
# The properties of a node

PipeWire writes the numbers among a node's properties in decimal: ids of 32 bits, serials of 64 bits.
`fill_node` reads them with `std::stoi` into an `int`.

* `stoi_toString` : what `stoi` does with a decimal number;
* `readsEveryProperty_iff` : the dictionaries that `fill_node` reads as it should.
-/

namespace Kpmx

/-! ## Decimal numbers -/

theorem foldl_digitValue (digits : List Char) (n : Nat) :
    digits.foldl (fun (n : Int) d => 10 * n + digitValue d) n = (Nat.ofDigitChars 10 digits n : Nat) := by
  induction digits generalizing n with
  | nil => rfl
  | cons d digits ih =>
    rw [List.foldl_cons, Nat.ofDigitChars_cons, ← ih]
    rfl

theorem not_isSpace_of_isDigit {c : Char} (h : c.isDigit = true) : isSpace c = false := by
  have hdigit : 48 ≤ c.toNat ∧ c.toNat ≤ 57 := Char.isDigit_iff_toNat.mp h
  have hspace : c ≠ ' ' := by
    rintro rfl
    exact absurd hdigit (by decide)
  unfold isSpace
  rw [decide_eq_false hspace, Bool.false_or, Bool.and_eq_false_iff]
  exact .inr (decide_eq_false (by omega))

/-- A text of digits alone has neither blanks nor a sign. -/
theorem stoi_of_digits {s : String} (hne : s.toList ≠ [])
    (hdigits : ∀ c ∈ s.toList, c.isDigit = true) :
    stoi s = if Nat.ofDigitChars 10 s.toList 0 ≤ 2147483647 then
      .ok (Int32.ofInt (Nat.ofDigitChars 10 s.toList 0 : Nat)) else .error .outOfRange := by
  unfold stoi
  cases hs : s.toList with
  | nil => exact absurd hs hne
  | cons c rest =>
    rw [hs] at hdigits
    have hc := hdigits c (List.mem_cons_self ..)
    have hdrop : (c :: rest).dropWhile isSpace = c :: rest := by
      rw [List.dropWhile_cons, not_isSpace_of_isDigit hc]
      rfl
    have htake : (c :: rest).takeWhile Char.isDigit = c :: rest :=
      List.takeWhile_eq_self_iff.mpr hdigits
    have hminus : c ≠ '-' := by
      rintro rfl
      exact absurd hc (by decide)
    have hplus : c ≠ '+' := by
      rintro rfl
      exact absurd hc (by decide)
    have hnumber := foldl_digitValue (c :: rest) 0
    simp only [hdrop]
    split
    · next h => exact absurd (List.cons.inj h).1 hminus
    · next h => exact absurd (List.cons.inj h).1 hplus
    · rw [htake, if_neg (List.cons_ne_nil _ _), if_neg Bool.false_ne_true]
      rw [show ((0 : Nat) : Int) = 0 from rfl] at hnumber
      rw [hnumber]
      by_cases hle : Nat.ofDigitChars 10 (c :: rest) 0 ≤ 2147483647
      · rw [if_pos hle, if_pos (by omega)]
      · rw [if_neg hle, if_neg (by omega)]

theorem stoi_toString (n : Nat) :
    stoi (toString n) = if n ≤ 2147483647 then .ok (Int32.ofInt n) else .error .outOfRange := by
  have hlist : (toString n).toList = Nat.toDigits 10 n := by
    rw [Nat.toString_eq_repr, Nat.toList_repr]
  rw [stoi_of_digits, hlist, Nat.ofDigitChars_ten_toDigits]
  · rw [hlist]
    exact Nat.toDigits_ne_nil
  · rw [hlist]
    intro c hc
    exact Nat.isDigit_of_mem_toDigits (by decide) (by decide) hc

theorem ofInt_injective {n m : Nat} (hn : n ≤ 2147483647) (hm : m ≤ 2147483647)
    (h : Int32.ofInt n = Int32.ofInt m) : n = m := by
  have hint := congrArg Int32.toInt h
  rw [Int32.toInt_ofInt_of_le (by omega) (by omega), Int32.toInt_ofInt_of_le (by omega) (by omega)] at hint
  omega

/-! ## The dictionaries -/

/-- What PipeWire publishes: an id has 32 bits and a serial 64, both in decimal. -/
structure Published (properties : PwKey → Option String) : Prop where
  objectId : ∀ s, properties .objectId = some s → ∃ n < 4294967296, s = toString n
  objectSerial : ∀ s, properties .objectSerial = some s → ∃ n < 18446744073709551616, s = toString n
  deviceId : ∀ s, properties .deviceId = some s → ∃ n < 4294967296, s = toString n

/-- The node shows the dictionary: a number for every number that is there, the texts as they are. -/
structure Shows (properties : PwKey → Option String) (node : WireplumberNode) : Prop where
  id : node.id.isSome = (properties .objectId).isSome
  objectSerial : node.objectSerial.isSome = (properties .objectSerial).isSome
  deviceId : node.deviceId.isSome = (properties .deviceId).isSome
  name : node.name = properties .nodeName
  description : node.description = properties .nodeDescription
  targetObject : node.targetObject = properties .targetObject
  mediaRole : node.mediaRole = properties .mediaRole
  mediaClass : node.mediaClass = properties .mediaClass
  mediaCategory : node.mediaCategory = properties .mediaCategory
  mediaType : node.mediaType = properties .mediaType
  linkGroup : node.linkGroup = properties .nodeLinkGroup

/-- `fill_node` completes with a node that shows the dictionary, and no other published serial is
filled in as the same number. -/
def ReadsEveryProperty (properties : PwKey → Option String) : Prop :=
  ∃ node, (WpObject.node properties).fillNode = .ok node ∧ Shows properties node ∧
    ∀ other node', Published other → (WpObject.node other).fillNode = .ok node' →
      ∀ serial, node.objectSerial = some serial → node'.objectSerial = some serial →
        other .objectSerial = properties .objectSerial

/-- The numbers that are there fit in an `int`. -/
def NumbersFit (properties : PwKey → Option String) : Prop :=
  ∀ n : Nat, (properties .objectId = some (toString n) ∨ properties .objectSerial = some (toString n) ∨
    properties .deviceId = some (toString n)) → n ≤ 2147483647

/-! ## What is read -/

section Properties

variable {properties : PwKey → Option String}

theorem getNumber_toString {key : PwKey} {n : Nat} (h : properties key = some (toString n)) :
    (WpObject.node properties).getNumber key =
      if n ≤ 2147483647 then .ok (some (Int32.ofInt n)) else .error .outOfRange := by
  have hproperty : (WpObject.node properties).getProperty key = some (toString n) := h
  unfold WpObject.getNumber
  rw [hproperty]
  show (stoi (toString n)).map some = _
  rw [stoi_toString]
  split <;> rfl

theorem le_of_getNumber {key : PwKey} {n : Nat} {number : Option Int32}
    (h : properties key = some (toString n))
    (hread : (WpObject.node properties).getNumber key = .ok number) :
    n ≤ 2147483647 ∧ number = some (Int32.ofInt n) := by
  rw [getNumber_toString h] at hread
  split at hread
  · next hle => exact ⟨hle, (Except.ok.inj hread).symm⟩
  · cases hread

theorem exists_getNumber (key : PwKey)
    (hdecimal : ∀ s, properties key = some s → ∃ n : Nat, s = toString n)
    (hfit : ∀ n : Nat, properties key = some (toString n) → n ≤ 2147483647) :
    ∃ number, (WpObject.node properties).getNumber key = .ok number := by
  cases hkey : properties key with
  | none =>
    have hproperty : (WpObject.node properties).getProperty key = none := hkey
    exact ⟨none, by rw [WpObject.getNumber, hproperty]⟩
  | some s =>
    obtain ⟨n, rfl⟩ := hdecimal s hkey
    exact ⟨some (Int32.ofInt n), by rw [getNumber_toString hkey, if_pos (hfit n hkey)]⟩

theorem shows_of_fillNode {node : WireplumberNode}
    (h : (WpObject.node properties).fillNode = .ok node) : Shows properties node := by
  obtain ⟨id, objectSerial, deviceId, hid, hserial, hdevice, rfl⟩ := WpObject.exists_of_fillNode h
  exact ⟨WpObject.getNumber_isSome hid, WpObject.getNumber_isSome hserial,
    WpObject.getNumber_isSome hdevice, rfl, rfl, rfl, rfl, rfl, rfl, rfl, rfl⟩

theorem objectSerial_eq_of_fillNode {other : PwKey → Option String} {node node' : WireplumberNode}
    {serial : Int32} (hpublished : Published properties) (hother : Published other)
    (hfill : (WpObject.node properties).fillNode = .ok node)
    (hfill' : (WpObject.node other).fillNode = .ok node') (hserial : node.objectSerial = some serial)
    (hserial' : node'.objectSerial = some serial) : other .objectSerial = properties .objectSerial := by
  have hsome := (shows_of_fillNode hfill).objectSerial
  have hsome' := (shows_of_fillNode hfill').objectSerial
  rw [hserial, Option.isSome_some, eq_comm, Option.isSome_iff_exists] at hsome
  rw [hserial', Option.isSome_some, eq_comm, Option.isSome_iff_exists] at hsome'
  obtain ⟨s, hs⟩ := hsome
  obtain ⟨s', hs'⟩ := hsome'
  obtain ⟨n, -, rfl⟩ := hpublished.objectSerial s hs
  obtain ⟨m, -, rfl⟩ := hother.objectSerial s' hs'
  obtain ⟨_, objectSerial, _, _, hread, _, rfl⟩ := WpObject.exists_of_fillNode hfill
  obtain ⟨_, objectSerial', _, _, hread', _, rfl⟩ := WpObject.exists_of_fillNode hfill'
  obtain ⟨hn, rfl⟩ := le_of_getNumber hs hread
  obtain ⟨hm, rfl⟩ := le_of_getNumber hs' hread'
  have hvalue : Int32.ofInt n = Int32.ofInt m :=
    Option.some.inj (hserial.trans hserial'.symm)
  rw [hs, hs', ofInt_injective hn hm hvalue]

theorem numbersFit_of_fillNode {node : WireplumberNode}
    (h : (WpObject.node properties).fillNode = .ok node) : NumbersFit properties := by
  obtain ⟨id, objectSerial, deviceId, hid, hserial, hdevice, -⟩ := WpObject.exists_of_fillNode h
  intro n hn
  rcases hn with hn | hn | hn
  · exact (le_of_getNumber hn hid).1
  · exact (le_of_getNumber hn hserial).1
  · exact (le_of_getNumber hn hdevice).1

theorem exists_fillNode (hpublished : Published properties) (hfit : NumbersFit properties) :
    ∃ node, (WpObject.node properties).fillNode = .ok node := by
  obtain ⟨id, hid⟩ := exists_getNumber .objectId
    (fun s hs => (hpublished.objectId s hs).imp fun _ => And.right) (fun n hn => hfit n (.inl hn))
  obtain ⟨objectSerial, hserial⟩ := exists_getNumber .objectSerial
    (fun s hs => (hpublished.objectSerial s hs).imp fun _ => And.right)
    (fun n hn => hfit n (.inr (.inl hn)))
  obtain ⟨deviceId, hdevice⟩ := exists_getNumber .deviceId
    (fun s hs => (hpublished.deviceId s hs).imp fun _ => And.right)
    (fun n hn => hfit n (.inr (.inr hn)))
  unfold WpObject.fillNode
  rw [hid, hserial, hdevice]
  exact ⟨_, rfl⟩

/-- **`fill_node` reads a published dictionary** exactly when the numbers that are there fit in an
`int`; the first that does not is an exception. -/
theorem readsEveryProperty_iff (hpublished : Published properties) :
    ReadsEveryProperty properties ↔ NumbersFit properties := by
  constructor
  · rintro ⟨node, hfill, -, -⟩
    exact numbersFit_of_fillNode hfill
  · intro hfit
    obtain ⟨node, hfill⟩ := exists_fillNode hpublished hfit
    refine ⟨node, hfill, shows_of_fillNode hfill, ?_⟩
    intro other node' hother hfill' serial hserial hserial'
    exact objectSerial_eq_of_fillNode hpublished hother hfill hfill' hserial hserial'

end Properties

/-- A node with an id, a serial and a name. -/
def nodeProperties (serial : Nat) : PwKey → Option String
  | .objectId => some (toString 57)
  | .objectSerial => some (toString serial)
  | .nodeName => some "pmx-input-00-a-input"
  | _ => none

theorem published_nodeProperties {serial : Nat} (h : serial < 18446744073709551616) :
    Published (nodeProperties serial) where
  objectId := fun _ hs => ⟨57, by decide, (Option.some.inj hs).symm⟩
  objectSerial := fun _ hs => ⟨serial, h, (Option.some.inj hs).symm⟩
  deviceId := fun _ hs => nomatch hs

theorem readsEveryProperty_iff_of_serial_58 :
    ReadsEveryProperty (nodeProperties 58) ↔ NumbersFit (nodeProperties 58) :=
  readsEveryProperty_iff (published_nodeProperties (by decide))

/-- The first serial past the `int`s. -/
theorem not_readsEveryProperty_past_int :
    Published (nodeProperties 2147483648) ∧ ¬ ReadsEveryProperty (nodeProperties 2147483648) := by
  refine ⟨published_nodeProperties (by decide), ?_⟩
  rintro ⟨node, hfill, -⟩
  have hle : 2147483648 ≤ 2147483647 := numbersFit_of_fillNode hfill 2147483648 (.inr (.inl rfl))
  exact absurd hle (by decide)

end Kpmx
