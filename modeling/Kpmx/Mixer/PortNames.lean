import Mathlib.Data.Int.Notation

/-!
# The names of the mixer's nodes

`parse_pmx_input_name` and `parse_pmx_group_name` are one parser at two beginnings. A `std::string` is
a string whose characters stand for its bytes; `char` is signed.

* `parsePmxName_eq_some_iff` : the parser accepts the names of one exact form.
-/

namespace Kpmx

def startsWith (name start : String) : Bool := start.toList.isPrefixOf name.toList

def endsWith (name ending : String) : Bool := ending.toList.isSuffixOf name.toList

/-- The value of a `char`. -/
def charValue (c : Char) : Int := if c.toNat < 128 then c.toNat else c.toNat - 256

/-- `layer_char - 'a'`. -/
def layerIndex (c : Char) : Int := charValue c - charValue 'a'

/-- The value of a decimal digit. -/
def digitValue (c : Char) : Nat := c.toNat - '0'.toNat

/-- The name is `start`, two digits, a dash, a lower-case letter and `-input`: the number and the
letter. -/
def parsePmxName (start name : String) : Option (Nat × Char) :=
  if ¬ startsWith name start then none
  else if ¬ endsWith name "-input" then none
  else if name.length ≠ start.length + 4 + "-input".length then none
  else
    match name.toList.drop start.length with
    | d0 :: d1 :: dash :: layer :: _ =>
      if ¬ (d0.isDigit ∧ d1.isDigit) then none
      else if dash ≠ '-' then none
      else if layer < 'a' ∨ layer > 'z' then none
      else some (digitValue d0 * 10 + digitValue d1, layer)
    | _ => none

def parsePmxInputName (name : String) : Option (Nat × Char) := parsePmxName "pmx-input-" name

def parsePmxGroupName (name : String) : Option (Nat × Char) := parsePmxName "pmx-group-" name

/-! ## Decimal digits -/

theorem digitValue_lt {d : Char} (h : d.isDigit = true) : digitValue d < 10 := by
  have hdigit : 48 ≤ d.toNat ∧ d.toNat ≤ 57 := Char.isDigit_iff_toNat.mp h
  show d.toNat - 48 < 10
  omega

theorem digitChar_digitValue {d : Char} (h : d.isDigit = true) : (digitValue d).digitChar = d := by
  have hdigit : 48 ≤ d.toNat ∧ d.toNat ≤ 57 := Char.isDigit_iff_toNat.mp h
  apply Char.toNat_inj.mp
  rw [Nat.toNat_digitChar_of_lt_ten (digitValue_lt h)]
  show 48 + (d.toNat - 48) = d.toNat
  omega

theorem digitValue_digitChar {n : Nat} (h : n < 10) : digitValue n.digitChar = n := by
  unfold digitValue
  rw [Nat.toNat_digitChar_of_lt_ten h]
  show 48 + n - 48 = n
  omega

theorem isDigit_digitChar {n : Nat} (h : n < 10) : n.digitChar.isDigit = true := by
  rw [Nat.isDigit_digitChar, decide_eq_true h]

/-! ## The names the parser accepts -/

theorem exists_middle {α : Type} {start ending l : List α} {n : Nat} (hstart : start <+: l)
    (hending : ending <:+ l) (hlength : l.length = start.length + n + ending.length) :
    ∃ middle, middle.length = n ∧ l = start ++ middle ++ ending := by
  obtain ⟨rest, rfl⟩ := hstart
  rw [List.length_append] at hlength
  have hrest : ending <:+ rest :=
    List.suffix_of_suffix_length_le hending (List.suffix_append start rest) (by omega)
  obtain ⟨middle, rfl⟩ := hrest
  rw [List.length_append] at hlength
  exact ⟨middle, by omega, (List.append_assoc ..).symm⟩

def IsLower (c : Char) : Prop := 'a' ≤ c ∧ c ≤ 'z'

instance (c : Char) : Decidable (IsLower c) := inferInstanceAs (Decidable (_ ∧ _))

theorem not_isLower_iff {c : Char} : (c < 'a' ∨ c > 'z') ↔ ¬ IsLower c := by
  simp only [IsLower, not_and, Char.not_le, gt_iff_lt]
  constructor
  · rintro (h | h) ha
    · exact absurd ha (Char.not_le.mpr h)
    · exact h
  · intro h
    by_cases ha : 'a' ≤ c
    · exact .inr (h ha)
    · exact .inl (Char.not_le.mp ha)

/-- **The names that the parser accepts**: the beginning, two digits, a dash, a lower-case letter and
the ending. -/
theorem parsePmxName_eq_some_iff {start name : String} {i : Nat} {c : Char} :
    parsePmxName start name = some (i, c) ↔ IsLower c ∧ ∃ d0 d1 : Char,
      (d0.isDigit = true ∧ d1.isDigit = true) ∧ i = digitValue d0 * 10 + digitValue d1 ∧
        name.toList = start.toList ++ [d0, d1, '-', c] ++ "-input".toList := by
  unfold parsePmxName
  constructor
  · intro h
    split at h
    · cases h
    next hstart =>
    split at h
    · cases h
    next hending =>
    split at h
    · cases h
    next hlength =>
    have hprefix : start.toList <+: name.toList := by
      rw [← List.isPrefixOf_iff_prefix]
      exact Decidable.not_not.mp hstart
    have hsuffix : "-input".toList <:+ name.toList := by
      rw [← List.isSuffixOf_iff_suffix]
      exact Decidable.not_not.mp hending
    obtain ⟨middle, hmiddle, hname⟩ := exists_middle (n := 4) hprefix hsuffix
      (by simpa only [String.length_toList] using Decidable.not_not.mp hlength)
    rw [hname, List.append_assoc, List.drop_left' String.length_toList] at h
    match middle, hmiddle with
    | [d0, d1, dash, layer], _ =>
      simp only [List.cons_append, List.nil_append] at h
      split at h
      · cases h
      next hdigits =>
      split at h
      · cases h
      next hdash =>
      split at h
      · cases h
      next hlower =>
      obtain ⟨rfl, rfl⟩ := Prod.mk.inj (Option.some.inj h)
      obtain rfl := Decidable.not_not.mp hdash
      rw [not_isLower_iff, Decidable.not_not] at hlower
      exact ⟨hlower, d0, d1, Decidable.not_not.mp hdigits, rfl, hname⟩
  · rintro ⟨hlower, d0, d1, hdigits, rfl, hname⟩
    have hstart : startsWith name start = true := by
      rw [startsWith, List.isPrefixOf_iff_prefix, hname, List.append_assoc]
      exact List.prefix_append _ _
    have hending : endsWith name "-input" = true := by
      rw [endsWith, List.isSuffixOf_iff_suffix, hname]
      exact List.suffix_append _ _
    have hlength : name.length = start.length + 4 + "-input".length := by
      simp only [← String.length_toList, hname, List.length_append, List.length_cons, List.length_nil]
    rw [if_neg (not_not_intro hstart), if_neg (not_not_intro hending),
      if_neg (not_not_intro hlength), hname, List.append_assoc, List.drop_left' String.length_toList]
    simp only [List.cons_append, List.nil_append]
    rw [if_neg (not_not_intro hdigits), if_neg (not_not_intro rfl),
      if_neg (fun h => not_isLower_iff.mp h hlower)]

/-- The letter that `initial_channel_update` reads from the name of a layer's node. -/
def layerChar (name : String) : Char := name.toList.getD 10 '\x00'

end Kpmx
