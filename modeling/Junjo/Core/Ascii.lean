import Junjo.Core.JsonText
import Junjo.Core.Utf8

/-!
# Texts of ASCII characters

Each code unit of an ASCII text is one byte of its encoding.
-/

namespace Junjo.Utf8

/-- A text of ASCII characters. -/
def IsAscii (t : Text) : Prop := ∀ u ∈ t, u.val < 128

/-- The bytes of an ASCII text. -/
def asciiBytes (t : Text) : List Byte := t.map fun u => BitVec.ofNat 8 u.val

variable {s t : Text}

lemma isAscii_nil : IsAscii [] := fun _ hu => absurd hu List.not_mem_nil

lemma IsAscii.append (hs : IsAscii s) (ht : IsAscii t) : IsAscii (s ++ t) :=
  List.forall_mem_append.mpr ⟨hs, ht⟩

lemma isAscii_append : IsAscii (s ++ t) ↔ IsAscii s ∧ IsAscii t := List.forall_mem_append

lemma isAscii_text {s : String} (h : (s.toList.all fun c => c.toNat < 128) = true) :
    IsAscii (text s) := by
  intro u hu
  obtain ⟨c, hc, rfl⟩ := List.mem_map.mp hu
  have hlt := of_decide_eq_true (List.all_eq_true.mp h c hc)
  rw [ofNat_val (by omega)]
  exact hlt

lemma asciiBytes_append (s t : Text) : asciiBytes (s ++ t) = asciiBytes s ++ asciiBytes t :=
  List.map_append

lemma encodeText_cons_ascii {u : CodeUnit} (hu : u.val < 128) (t : Text) :
    encodeText (u :: t) = BitVec.ofNat 8 u.val :: encodeText t := by
  have hchar : (Char.ofNat u.val).toNat = u.val := Json.toNat_ofNat (by omega)
  have hbyte : encodeChar (Char.ofNat u.val) = [BitVec.ofNat 8 u.val] := by
    rw [encodeChar_eq, hchar, if_pos (by omega)]
    rfl
  have hscalars : scalars (u :: t) = Char.ofNat u.val :: scalars t := by
    cases t with
    | nil =>
      rw [scalars.eq_2, if_neg (by omega)]
      rfl
    | cons v t => rw [scalars, if_neg (by omega), if_neg (by omega)]
  rw [encodeText, hscalars, encode, List.flatMap_cons, hbyte]
  rfl

lemma encodeText_append_ascii (hs : IsAscii s) (t : Text) :
    encodeText (s ++ t) = asciiBytes s ++ encodeText t := by
  induction s with
  | nil => rfl
  | cons u s ih =>
    obtain ⟨hu, hs⟩ := List.forall_mem_cons.mp hs
    rw [List.cons_append, encodeText_cons_ascii hu, ih hs]
    rfl

lemma encodeText_ascii (ht : IsAscii t) : encodeText t = asciiBytes t := by
  have h := encodeText_append_ascii ht []
  rwa [List.append_nil, show encodeText [] = [] from rfl, List.append_nil] at h

/-- Characters end before an ASCII one begins. -/
lemma scalars_append_cons (s : Text) {u : CodeUnit} (hu : u.val < 128) (t : Text) :
    scalars (s ++ u :: t) = scalars s ++ scalars (u :: t) := by
  fun_induction scalars s with
  | case1 => rfl
  | case2 c =>
    rw [List.singleton_append, scalars, if_neg (by omega)]
    rfl
  | case3 c d rest hpair ih =>
    rw [List.cons_append, List.cons_append, scalars, if_pos hpair, ih]
    rfl
  | case4 c d rest hpair ih =>
    rw [List.cons_append, List.cons_append, scalars, if_neg hpair, List.cons_append, ← ih]
    rfl

lemma encodeText_append_cons (s : Text) {u : CodeUnit} (hu : u.val < 128) (t : Text) :
    encodeText (s ++ u :: t) = encodeText s ++ encodeText (u :: t) := by
  rw [encodeText, scalars_append_cons s hu, encode, List.flatMap_append]
  rfl

lemma scalars_cons (u : CodeUnit) (s : Text) : ∃ c rest, scalars (u :: s) = c :: rest ∧
    (128 ≤ u.val → 128 ≤ c.toNat) := by
  have hreplace : 128 ≤ replacement.toNat := by decide
  have hunit : ¬(0xD800 ≤ u.val ∧ u.val ≤ 0xDFFF) → (Char.ofNat u.val).toNat = u.val := by
    intro h
    have hlt := u.isLt
    apply Json.toNat_ofNat
    unfold Nat.isValidChar
    omega
  cases s with
  | nil =>
    refine ⟨_, _, rfl, fun hu => ?_⟩
    split_ifs with h
    · exact hreplace
    · rwa [hunit h]
  | cons v s =>
    rw [scalars]
    split_ifs with hpair h
    · refine ⟨_, _, rfl, fun _ => ?_⟩
      rw [Json.toNat_ofNat (by unfold Nat.isValidChar; omega)]
      omega
    · exact ⟨_, _, rfl, fun _ => hreplace⟩
    · exact ⟨_, _, rfl, fun hu => by rwa [hunit h]⟩

/-- The first byte of a character that is not ASCII. -/
lemma encodeChar_cons {c : Char} (hc : 128 ≤ c.toNat) :
    ∃ b rest, encodeChar c = b :: rest ∧ 128 ≤ b.toNat := by
  rw [encodeChar_eq, if_neg (by omega)]
  split_ifs
  all_goals
    refine ⟨_, _, rfl, ?_⟩
    rw [toNat_byte (by omega)]
    omega

/-- A text has no bytes only if it is empty. -/
lemma encodeText_ne_nil (ht : t ≠ []) : encodeText t ≠ [] := by
  cases t with
  | nil => exact absurd rfl ht
  | cons u t =>
    obtain ⟨c, rest, hscalars, -⟩ := scalars_cons u t
    rw [encodeText, hscalars, encode, List.flatMap_cons]
    intro h
    have hchar := (List.append_eq_nil_iff.mp h).1
    rw [encodeChar_eq] at hchar
    split_ifs at hchar

/-- The bytes of an ASCII text are those of no other. -/
lemma encodeText_eq_asciiBytes_iff (ht : IsAscii t) : encodeText s = asciiBytes t ↔ s = t := by
  refine ⟨fun h => ?_, fun h => by rw [h, encodeText_ascii ht]⟩
  induction s generalizing t with
  | nil =>
    cases t with
    | nil => rfl
    | cons v t => cases h
  | cons u s ih =>
    cases t with
    | nil => exact absurd h (encodeText_ne_nil (List.cons_ne_nil u s))
    | cons v t =>
      obtain ⟨hv, ht⟩ := List.forall_mem_cons.mp ht
      rcases Nat.lt_or_ge u.val 128 with hu | hu
      · rw [encodeText_cons_ascii hu] at h
        obtain ⟨hhead, htail⟩ := List.cons.inj h
        have hnat := congrArg BitVec.toNat hhead
        rw [BitVec.toNat_ofNat, BitVec.toNat_ofNat, Nat.mod_eq_of_lt (by omega),
          Nat.mod_eq_of_lt (by omega)] at hnat
        rw [Fin.ext hnat, ih ht htail]
      · obtain ⟨c, rest, hscalars, hc⟩ := scalars_cons u s
        obtain ⟨b, bytes, hbytes, hb⟩ := encodeChar_cons (hc hu)
        rw [encodeText, hscalars, encode, List.flatMap_cons, hbytes] at h
        have hnat := congrArg BitVec.toNat (List.cons.inj h).1
        rw [BitVec.toNat_ofNat, Nat.mod_eq_of_lt (by omega)] at hnat
        omega

end Junjo.Utf8
