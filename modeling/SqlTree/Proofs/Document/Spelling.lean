import Mathlib
import SqlTree.Node.Rules
import SqlTree.Proofs.Node.Checks

/-!
# Kept spellings

Operators and names of functions are accepted in more spellings than are kept. What is kept is in
upper case, and it is accepted and kept as it is: normalizing once more changes nothing.

## Main definitions

* `SameLetter`: two characters are the same up to the case of an ASCII letter.

## Main results

* `sameLetters_iff`: what it means that texts agree up to the case of ASCII letters.
* `normalizeOperator_of_upper`, `mem_of_normalizeOperator`: the kept binary operators are those that
  the dialect lists, and an operator is accepted in any case.
* `normalizeMathOperator_of_mem`, `mem_of_normalizeMathOperator`: likewise for arithmetic.
* `normalizeFunctionName_of_upper`, `normalizeFunctionName_idem`: a name of a function in upper case
  is kept, and what is kept is in upper case.
-/

namespace SqlTree

/-! ### Upper case -/

/-- A text without lower-case letters is its own upper-case spelling. -/
theorem toUpper_eq_self {s : String} (h : ∀ c ∈ s.toList, c.isLower = false) : s.toUpper = s := by
  have hmap : s.toList.map Char.toUpper = s.toList := by
    rw [List.map_congr_left fun c hc =>
      Char.toUpper_eq_of_not_isLower (Bool.eq_false_iff.mp (h c hc)), List.map_id']
  rw [String.toUpper, String.map_eq_internal, hmap, String.ofList_toList]

theorem toUpper_toUpper (s : String) : s.toUpper.toUpper = s.toUpper := by
  refine toUpper_eq_self fun c hc => ?_
  rw [String.toUpper, String.toList_map] at hc
  obtain ⟨c, -, rfl⟩ := List.mem_map.mp hc
  exact c.isLower_toUpper_eq_false

/-! ### Upper and lower case -/

/-- Two characters are the same, or the upper and the lower case of one ASCII letter. -/
def SameLetter (a b : Char) : Prop :=
  a = b ∨ (a.isUpper = true ∧ b.toNat = a.toNat + 32) ∨ (b.isUpper = true ∧ a.toNat = b.toNat + 32)

theorem isLower_iff {c : Char} : c.isLower = true ↔ 97 ≤ c.toNat ∧ c.toNat ≤ 122 := by
  rw [Char.isLower, Bool.and_eq_true, decide_eq_true_iff, decide_eq_true_iff]
  exact .rfl

theorem isUpper_iff {c : Char} : c.isUpper = true ↔ 65 ≤ c.toNat ∧ c.toNat ≤ 90 := by
  rw [Char.isUpper, decide_eq_true_iff]
  exact .rfl

theorem toNat_toUpper (c : Char) :
    c.toUpper.toNat = if 97 ≤ c.toNat ∧ c.toNat ≤ 122 then c.toNat - 32 else c.toNat := by
  split
  · next h =>
    rw [Char.toUpper_eq_of_isLower (isLower_iff.mpr h), Char.toNat_ofNat, if_pos]
    exact .inl (by omega)
  · next h => rw [Char.toUpper_eq_of_not_isLower (mt isLower_iff.mp h)]

theorem toUpper_eq_iff {a b : Char} : a.toUpper = b.toUpper ↔ SameLetter a b := by
  have heq (x y : Char) : x = y ↔ x.toNat = y.toNat := Char.toNat_inj.symm
  rw [SameLetter, heq, heq, toNat_toUpper, toNat_toUpper, isUpper_iff, isUpper_iff]
  split <;> split <;> omega

/-- Texts agree up to the case of ASCII letters if their characters do so one by one. -/
theorem sameLetters_iff {a b : String} :
    sameLetters a b = true ↔ List.Forall₂ SameLetter a.toList b.toList := by
  have hupper : a.toUpper = b.toUpper ↔ a.toList.map Char.toUpper = b.toList.map Char.toUpper := by
    rw [← String.toList_inj, String.toUpper, String.toUpper, String.toList_map, String.toList_map]
  rw [sameLetters, beq_iff_eq, hupper, ← List.forall₂_eq_eq_eq, List.forall₂_map_left_iff,
    List.forall₂_map_right_iff]
  simp only [toUpper_eq_iff]

/-! ### Operators -/

variable {d : Dialect} {operator kept : String}

theorem toUpper_of_mem_operators (h : operator ∈ d.operators) : operator.toUpper = operator := by
  have hupper : ∀ op ∈ d.operators, op.toUpper = op := by
    cases d <;> decide +kernel
  exact hupper operator h

/-- An operator is accepted if the dialect lists its upper-case spelling, and that is kept. -/
theorem normalizeOperator_of_upper (h : operator.toUpper ∈ d.operators) :
    normalizeOperator d operator = .ok operator.toUpper := by
  have hsupports : d.supports operator = true := by
    refine List.any_eq_true.mpr ⟨operator.toUpper, h, ?_⟩
    rw [sameLetters, toUpper_toUpper]
    exact beq_self_eq_true _
  rw [normalizeOperator, if_pos hsupports]

theorem normalizeOperator_of_mem (h : operator ∈ d.operators) :
    normalizeOperator d operator = .ok operator := by
  have hupper := toUpper_of_mem_operators h
  rw [normalizeOperator_of_upper (hupper.symm ▸ h), hupper]

theorem mem_of_normalizeOperator (h : normalizeOperator d operator = .ok kept) :
    kept ∈ d.operators := by
  rw [normalizeOperator] at h
  split at h
  · next hs =>
    obtain ⟨op, hop, heq⟩ := List.any_eq_true.mp hs
    have hkept : op = operator.toUpper := by
      rw [← toUpper_of_mem_operators hop]
      exact beq_iff_eq.mp heq
    rw [← Except.ok.inj h, ← hkept]
    exact hop
  · exact absurd h nofun

theorem normalizeMathOperator_of_mem (h : operator ∈ mathOperators) :
    normalizeMathOperator operator = .ok operator := by
  have hkept : ∀ op ∈ mathOperators,
      (mathOperators.find? fun op' => sameLetters op' op) = some op := by
    decide +kernel
  rw [normalizeMathOperator, hkept operator h]

theorem mem_of_normalizeMathOperator (h : normalizeMathOperator operator = .ok kept) :
    kept ∈ mathOperators := by
  rw [normalizeMathOperator] at h
  split at h
  · next op hop =>
    rw [← Except.ok.inj h]
    exact List.mem_of_find?_eq_some hop
  · exact absurd h nofun

theorem GroupOperator.parse_text (operator : GroupOperator) :
    GroupOperator.parse operator.text = .ok operator := by
  have h : GroupOperator.ofAnyCase? operator.text = some operator := by
    cases operator <;> decide +kernel
  rw [GroupOperator.parse, h]

theorem JoinOperator.parse_text (operator : JoinOperator) :
    JoinOperator.parse operator.text = .ok operator := by
  have h : JoinOperator.ofAnyCase? operator.text = some operator := by
    cases operator <;> decide +kernel
  rw [JoinOperator.parse, h]

theorem SortDirection.parse_text (direction : SortDirection) :
    SortDirection.parse direction.text = .ok direction := by
  have h : SortDirection.ofAnyCase? direction.text = some direction := by
    cases direction <;> decide +kernel
  rw [SortDirection.parse, h]

/-! ### Names of functions -/

theorem normalizeFunctionName_of_upper {name : String} (hn : name ≠ "")
    (h : name.toUpper = name) : normalizeFunctionName name = .ok name := by
  rw [normalizeFunctionName, requireText_eq_ok.mpr hn, ok_bind, h]
  rfl

theorem normalizeFunctionName_idem {name : String} (h : normalizeFunctionName name = .ok kept) :
    normalizeFunctionName kept = .ok kept := by
  obtain ⟨hn, heq⟩ := seq_eq_ok.mp h
  obtain rfl := Except.ok.inj heq
  refine normalizeFunctionName_of_upper (fun he => ?_) (toUpper_toUpper name)
  exact requireText_eq_ok.mp hn (String.map_eq_empty.mp he)

end SqlTree
