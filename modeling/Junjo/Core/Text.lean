import Mathlib

/-!
# Texts as UTF-16 code units

Both implementations of the permission model compare, measure and cut strings by UTF-16 code
unit, so a text is the list of its code units and `<` is the lexicographic order on them.
-/

namespace Junjo

/-- A UTF-16 code unit. -/
abbrev CodeUnit := Fin 65536

instance neZeroCodeUnit : NeZero 65536 := ⟨by decide⟩

instance lawfulBEqCodeUnit : LawfulBEq CodeUnit := inferInstance

/-- A string as both runtimes hold it: any sequence of code units, unpaired surrogates included. -/
abbrev Text := List CodeUnit

instance lawfulBEqText : LawfulBEq Text := inferInstance

instance lawfulBEqTextPair : LawfulBEq (Text × Text) := inferInstance

/-- The text of an ASCII literal. -/
def text (s : String) : Text := s.toList.map fun c => Fin.ofNat 65536 c.toNat

/-- `.` -/
def dot : CodeUnit := 46

/-- `*` -/
def star : CodeUnit := 42

/-! ### The ASCII fold -/

/-- Fold `A-Z` to `a-z` and nothing else. -/
def lowerUnit (c : CodeUnit) : CodeUnit := if 65 ≤ c ∧ c ≤ 90 then c + 32 else c

/-- The ASCII-only lowercase fold of permission keys and context values. -/
def asciiLower (s : Text) : Text := s.map lowerUnit

lemma lowerUnit_val (c : CodeUnit) :
    (lowerUnit c).val = if 65 ≤ c.val ∧ c.val ≤ 90 then c.val + 32 else c.val := by
  have h : (65 ≤ c ∧ c ≤ 90) ↔ (65 ≤ c.val ∧ c.val ≤ 90) := Iff.rfl
  unfold lowerUnit
  simp only [h]
  split_ifs with hc
  · rw [Fin.val_add]
    change (c.val + 32) % 65536 = c.val + 32
    omega
  · rfl

lemma lowerUnit_idem (c : CodeUnit) : lowerUnit (lowerUnit c) = lowerUnit c := by
  apply Fin.ext
  rw [lowerUnit_val, lowerUnit_val]
  split_ifs <;> omega

@[simp] lemma lowerUnit_eq_dot (c : CodeUnit) : lowerUnit c = dot ↔ c = dot := by
  rw [Fin.ext_iff, Fin.ext_iff, lowerUnit_val]
  change _ = 46 ↔ c.val = 46
  split_ifs <;> omega

@[simp] lemma lowerUnit_eq_star (c : CodeUnit) : lowerUnit c = star ↔ c = star := by
  rw [Fin.ext_iff, Fin.ext_iff, lowerUnit_val]
  change _ = 42 ↔ c.val = 42
  split_ifs <;> omega

@[simp] lemma asciiLower_idem (s : Text) : asciiLower (asciiLower s) = asciiLower s := by
  simp [asciiLower, lowerUnit_idem]

@[simp] lemma length_asciiLower (s : Text) : (asciiLower s).length = s.length := by
  simp [asciiLower]

@[simp] lemma star_mem_asciiLower (s : Text) : star ∈ asciiLower s ↔ star ∈ s := by
  simp [asciiLower]

end Junjo
