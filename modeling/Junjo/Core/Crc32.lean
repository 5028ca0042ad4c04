import Mathlib

/-!
# CRC32

The cyclic redundancy check with the reflected polynomial `0xEDB88320`. A message in which one byte
was changed has another checksum.
-/

namespace Junjo.Crc32

def polynomial : BitVec 32 := 0xEDB88320

/-- The register after one bit. -/
def shift (r : BitVec 32) : BitVec 32 :=
  if r.getLsbD 0 then (r >>> 1) ^^^ polynomial else r >>> 1

def update (r : BitVec 32) (b : BitVec 8) : BitVec 32 := shift^[8] (r ^^^ b.setWidth 32)

def crc32 (bytes : List (BitVec 8)) : BitVec 32 := ~~~(bytes.foldl update 0xFFFFFFFF)

example : crc32 [97] = 0xE8B7BE43 := by decide

/-- The top bit of the register says which bit left it. -/
lemma shift_top (r : BitVec 32) : (shift r).getLsbD 31 = r.getLsbD 0 := by
  unfold shift
  split_ifs with h
  · simp [polynomial]
    simpa using h
  · simpa using h

lemma shift_injective : Function.Injective shift := by
  intro r r' h
  have hlow : r.getLsbD 0 = r'.getLsbD 0 := by rw [← shift_top, h, shift_top]
  have hhigh : r >>> 1 = r' >>> 1 := by
    unfold shift at h
    rw [hlow] at h
    split_ifs at h
    · exact (BitVec.xor_left_inj _).mp h
    · exact h
  apply BitVec.eq_of_getLsbD_eq
  intro i hi
  cases i with
  | zero => exact hlow
  | succ i =>
    have hbit := congrArg (fun r => r.getLsbD i) hhigh
    simpa [Nat.add_comm] using hbit

lemma update_injective_left (b : BitVec 8) : Function.Injective fun r => update r b := by
  intro r r' h
  exact (BitVec.xor_left_inj _).mp (shift_injective.iterate 8 h)

lemma update_injective_right (r : BitVec 32) : Function.Injective (update r) := by
  intro b b' h
  have hwide := (BitVec.xor_right_inj _).mp (shift_injective.iterate 8 h)
  apply BitVec.eq_of_toNat_eq
  have hnat := congrArg BitVec.toNat hwide
  rw [BitVec.toNat_setWidth, BitVec.toNat_setWidth] at hnat
  have hb := b.isLt
  have hb' := b'.isLt
  omega

lemma foldl_update_injective (bytes : List (BitVec 8)) :
    Function.Injective fun r => bytes.foldl update r := by
  induction bytes with
  | nil => exact Function.injective_id
  | cons b bytes ih => exact ih.comp (update_injective_left b)

/-- A changed byte changes the checksum. -/
theorem crc32_ne {x y : BitVec 8} (h : x ≠ y) (a b : List (BitVec 8)) :
    crc32 (a ++ x :: b) ≠ crc32 (a ++ y :: b) := by
  intro heq
  rw [crc32, crc32, BitVec.not_inj, List.foldl_append, List.foldl_append, List.foldl_cons,
    List.foldl_cons] at heq
  exact h (update_injective_right _ (foldl_update_injective b heq))

end Junjo.Crc32
