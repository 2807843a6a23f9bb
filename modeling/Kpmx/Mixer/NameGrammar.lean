import Kpmx.Mixer.PortNames

/-!
# The grammar of the mixer's names

The parsers of the input and the group names, character by character as they read them, and the names
that they accept.

* `readPmxName_eq` : no character past the end of a name is read;
* `parsers_accept_grammar` : the two parsers accept exactly their grammars, which have no name in common.
-/

namespace Kpmx

/-- `parse_pmx_input_name` and `parse_pmx_group_name` with their reads of the characters: `none` where
one of them reads past the end of the name. -/
def readPmxName (start name : String) : Option (Option (Nat × Char)) :=
  if ¬ startsWith name start then some none
  else if ¬ endsWith name "-input" then some none
  else
    let posDigits := start.length
    let posDash := posDigits + 2
    let posChar := posDash + 1
    let posSuffix := posChar + 1
    if name.length ≠ posSuffix + "-input".length then some none
    else
      name.toList[posDigits]?.bind fun d0 =>
      name.toList[posDigits + 1]?.bind fun d1 =>
      if ¬ (d0.isDigit ∧ d1.isDigit) then some none
      else
        name.toList[posDash]?.bind fun dash =>
        if dash ≠ '-' then some none
        else
          name.toList[posChar]?.bind fun layer =>
          if layer < 'a' ∨ layer > 'z' then some none
          else some (some (digitValue d0 * 10 + digitValue d1, layer))

def readPmxInputName (name : String) : Option (Option (Nat × Char)) := readPmxName "pmx-input-" name

def readPmxGroupName (name : String) : Option (Option (Nat × Char)) := readPmxName "pmx-group-" name

/-- The length test comes before the first read, so every read finds its character. -/
theorem readPmxName_eq (start name : String) :
    readPmxName start name = some (parsePmxName start name) := by
  unfold readPmxName parsePmxName
  by_cases hstart : ¬ startsWith name start
  · rw [if_pos hstart, if_pos hstart]
  rw [if_neg hstart, if_neg hstart]
  by_cases hending : ¬ endsWith name "-input"
  · rw [if_pos hending, if_pos hending]
  rw [if_neg hending, if_neg hending]
  by_cases hlength : name.length ≠ start.length + 4 + "-input".length
  · rw [if_pos hlength, if_pos hlength]
  rw [if_neg hlength, if_neg hlength]
  have hdrop : (name.toList.drop start.length).length = 10 := by
    rw [List.length_drop, String.length_toList, Decidable.not_not.mp hlength]
    show start.length + 4 + 6 - start.length = 10
    omega
  have hread : ∀ i, name.toList[start.length + i]? = (name.toList.drop start.length)[i]? := by
    intro i
    rw [List.getElem?_drop]
  have h0 := hread 0
  rw [Nat.add_zero] at h0
  rw [h0, hread 1, hread 2, hread 3]
  match name.toList.drop start.length, hdrop with
  | d0 :: d1 :: dash :: layer :: rest, _ =>
    simp only [List.getElem?_cons_zero, List.getElem?_cons_succ, Option.bind_some]
    split
    · rfl
    split
    · rfl
    split <;> rfl

/-! ## The grammar -/

/-- The name is `start`, two decimal digits denoting `n`, a dash, the lower-case letter `c` and `-input`. -/
def PmxName (start name : String) (n : Nat) (c : Char) : Prop :=
  n < 100 ∧ IsLower c ∧
    name.toList =
      start.toList ++ [(n / 10).digitChar, (n % 10).digitChar, '-', c] ++ "-input".toList

theorem parsePmxName_eq_some_iff_pmxName {start name : String} {n : Nat} {c : Char} :
    parsePmxName start name = some (n, c) ↔ PmxName start name n c := by
  rw [parsePmxName_eq_some_iff]
  constructor
  · rintro ⟨hlower, d0, d1, ⟨h0, h1⟩, rfl, hname⟩
    have hlt0 := digitValue_lt h0
    have hlt1 := digitValue_lt h1
    refine ⟨by omega, hlower, ?_⟩
    rw [hname, show (digitValue d0 * 10 + digitValue d1) / 10 = digitValue d0 by omega,
      show (digitValue d0 * 10 + digitValue d1) % 10 = digitValue d1 by omega,
      digitChar_digitValue h0, digitChar_digitValue h1]
  · rintro ⟨hn, hlower, hname⟩
    refine ⟨hlower, (n / 10).digitChar, (n % 10).digitChar,
      ⟨isDigit_digitChar (by omega), isDigit_digitChar (by omega)⟩, ?_, hname⟩
    rw [digitValue_digitChar (by omega), digitValue_digitChar (by omega)]
    omega

theorem readPmxName_spec (start name : String) :
    (∀ n c, readPmxName start name = some (some (n, c)) ↔ PmxName start name n c) ∧
      (readPmxName start name = some none ↔ ¬ ∃ n c, PmxName start name n c) := by
  rw [readPmxName_eq]
  simp only [Option.some.injEq, ← parsePmxName_eq_some_iff_pmxName, true_and, implies_true]
  rw [Option.eq_none_iff_forall_ne_some]
  constructor
  · rintro h ⟨n, c, heq⟩
    exact h (n, c) heq
  · rintro h ⟨n, c⟩ heq
    exact h ⟨n, c, heq⟩

/-- The two beginnings differ within their first five characters. -/
theorem not_pmxName_both {name : String} {i j : Nat} {c d : Char}
    (hinput : PmxName "pmx-input-" name i c) : ¬ PmxName "pmx-group-" name j d := by
  intro hgroup
  have h := hinput.2.2.symm.trans hgroup.2.2
  have hfifth : some 'i' = some 'g' := congrArg (fun l => l[4]?) h
  exact absurd hfifth (by decide)

/-- **The parsers accept exactly their grammars**: neither reads past the end of any name, each returns
the number and the letter of a name of its grammar and nothing for any other name, and no name is
accepted by both. -/
theorem parsers_accept_grammar (name : String) :
    (readPmxInputName name ≠ none ∧ readPmxGroupName name ≠ none) ∧
    ((∀ n c, readPmxInputName name = some (some (n, c)) ↔ PmxName "pmx-input-" name n c) ∧
      (readPmxInputName name = some none ↔ ¬ ∃ n c, PmxName "pmx-input-" name n c)) ∧
    ((∀ n c, readPmxGroupName name = some (some (n, c)) ↔ PmxName "pmx-group-" name n c) ∧
      (readPmxGroupName name = some none ↔ ¬ ∃ n c, PmxName "pmx-group-" name n c)) ∧
    ¬ ((∃ i c, readPmxInputName name = some (some (i, c))) ∧
      ∃ j d, readPmxGroupName name = some (some (j, d))) := by
  have hinput := readPmxName_spec "pmx-input-" name
  have hgroup := readPmxName_spec "pmx-group-" name
  refine ⟨⟨?_, ?_⟩, hinput, hgroup, ?_⟩
  · rw [readPmxInputName, readPmxName_eq]
    exact Option.some_ne_none _
  · rw [readPmxGroupName, readPmxName_eq]
    exact Option.some_ne_none _
  · rintro ⟨⟨i, c, hi⟩, j, d, hj⟩
    exact not_pmxName_both ((hinput.1 i c).mp hi) ((hgroup.1 j d).mp hj)

end Kpmx
