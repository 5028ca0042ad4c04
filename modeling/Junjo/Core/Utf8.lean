import Junjo.Core.Text

/-!
# UTF-8 and UTF-16

Characters are Unicode scalar values. `Decoder` reads UTF-8 a byte at a time, as the decoder of the
Encoding Standard does, with U+FFFD for what is not well formed, and `TextDecoder` leaves out a byte
order mark at the start of the stream.
-/

namespace Junjo.Utf8

abbrev Byte := BitVec 8

def encodeChar (c : Char) : List Byte := (String.utf8EncodeChar c).map UInt8.toBitVec

def encode (chars : List Char) : List Byte := chars.flatMap encodeChar

/-- The code units of a character: one, or a surrogate pair. -/
def utf16Char (c : Char) : Text :=
  if c.toNat < 0x10000 then [Fin.ofNat 65536 c.toNat]
  else [Fin.ofNat 65536 (0xD800 + (c.toNat - 0x10000) / 1024),
    Fin.ofNat 65536 (0xDC00 + (c.toNat - 0x10000) % 1024)]

def utf16 (chars : List Char) : Text := chars.flatMap utf16Char

/-- U+FFFD -/
def replacement : Char := '\uFFFD'

/-- U+FEFF -/
def byteOrderMark : Char := '\uFEFF'

/-- The characters of a text, with U+FFFD for an unpaired surrogate. -/
def scalars : Text → List Char
  | [] => []
  | [c] => [if 0xD800 ≤ c.val ∧ c.val ≤ 0xDFFF then replacement else Char.ofNat c.val]
  | c :: d :: rest =>
    if 0xD800 ≤ c.val ∧ c.val ≤ 0xDBFF ∧ 0xDC00 ≤ d.val ∧ d.val ≤ 0xDFFF then
      Char.ofNat (0x10000 + (c.val - 0xD800) * 1024 + (d.val - 0xDC00)) :: scalars rest
    else
      (if 0xD800 ≤ c.val ∧ c.val ≤ 0xDFFF then replacement else Char.ofNat c.val)
        :: scalars (d :: rest)

/-- `new TextEncoder().encode` -/
def encodeText (t : Text) : List Byte := encode (scalars t)

/-! ### Decoding -/

/-- The decoder inside a character: how many bytes follow its first one, how many of them it has
seen, the bits so far, and the bounds of the next byte. -/
structure Decoder where
  needed : ℕ := 0
  seen : ℕ := 0
  codePoint : ℕ := 0
  lower : ℕ := 0x80
  upper : ℕ := 0xBF
deriving DecidableEq

namespace Decoder

/-- The first byte of a character. -/
def first (b : ℕ) : Decoder × List Char :=
  if b ≤ 0x7F then ({}, [Char.ofNat b])
  else if 0xC2 ≤ b ∧ b ≤ 0xDF then ({ needed := 1, codePoint := b % 32 }, [])
  else if 0xE0 ≤ b ∧ b ≤ 0xEF then
    ({ needed := 2, codePoint := b % 16, lower := if b = 0xE0 then 0xA0 else 0x80,
       upper := if b = 0xED then 0x9F else 0xBF }, [])
  else if 0xF0 ≤ b ∧ b ≤ 0xF4 then
    ({ needed := 3, codePoint := b % 8, lower := if b = 0xF0 then 0x90 else 0x80,
       upper := if b = 0xF4 then 0x8F else 0xBF }, [])
  else ({}, [replacement])

/-- One byte. One that cannot follow is read again as a first byte. -/
def next (d : Decoder) (b : Byte) : Decoder × List Char :=
  if d.needed = 0 then first b.toNat
  else if b.toNat < d.lower ∨ d.upper < b.toNat then
    ((first b.toNat).1, replacement :: (first b.toNat).2)
  else if d.seen + 1 = d.needed then ({}, [Char.ofNat (d.codePoint * 64 + b.toNat % 64)])
  else ({ needed := d.needed, seen := d.seen + 1, codePoint := d.codePoint * 64 + b.toNat % 64 }, [])

def run : Decoder → List Byte → Decoder × List Char
  | d, [] => (d, [])
  | d, b :: bytes =>
    let r := d.next b
    let rest := run r.1 bytes
    (rest.1, r.2 ++ rest.2)

/-- What the end of the stream adds. -/
def flush (d : Decoder) : List Char := if d.needed = 0 then [] else [replacement]

lemma run_append (d : Decoder) (a b : List Byte) :
    d.run (a ++ b) = (((d.run a).1.run b).1, (d.run a).2 ++ ((d.run a).1.run b).2) := by
  induction a generalizing d with
  | nil => rfl
  | cons x a ih =>
    rw [List.cons_append, run, ih]
    simp [run]

end Decoder

lemma val_bounds (c : Char) : c.toNat < 0xD800 ∨ 0xDFFF < c.toNat ∧ c.toNat < 0x110000 := c.valid

/-- A byte by its number. -/
def byte (n : ℕ) : Byte := (UInt8.ofNat n).toBitVec

lemma toNat_byte {n : ℕ} (h : n < 256) : (byte n).toNat = n := by
  rw [byte, UInt8.toNat_toBitVec, UInt8.toNat_ofNat', Nat.mod_eq_of_lt h]

/-- The bytes of a character, by their number. -/
lemma encodeChar_eq (c : Char) :
    encodeChar c =
      if c.toNat ≤ 0x7F then [byte c.toNat]
      else if c.toNat ≤ 0x7FF then
        [byte (c.toNat / 64 % 0x20 + 0xC0), byte (c.toNat % 0x40 + 0x80)]
      else if c.toNat ≤ 0xFFFF then
        [byte (c.toNat / 4096 % 0x10 + 0xE0), byte (c.toNat / 64 % 0x40 + 0x80),
          byte (c.toNat % 0x40 + 0x80)]
      else
        [byte (c.toNat / 262144 % 0x08 + 0xF0), byte (c.toNat / 4096 % 0x40 + 0x80),
          byte (c.toNat / 64 % 0x40 + 0x80), byte (c.toNat % 0x40 + 0x80)] := by
  unfold encodeChar String.utf8EncodeChar
  change List.map _ (if c.toNat ≤ _ then _ else if c.toNat ≤ _ then _ else
    if c.toNat ≤ _ then _ else _) = _
  split_ifs <;> rfl

/-- The last byte of a character. -/
lemma next_last {d : Decoder} {n : ℕ} (h : d.seen + 1 = d.needed) (hn : n < 256)
    (hlower : d.lower ≤ n) (hupper : n ≤ d.upper) :
    d.next (byte n) = ({}, [Char.ofNat (d.codePoint * 64 + n % 64)]) := by
  rw [Decoder.next, if_neg (by omega), toNat_byte hn, if_neg (by omega), if_pos h]

/-- A byte between the first and the last. -/
lemma next_inner {d : Decoder} {n : ℕ} (h : d.seen + 1 < d.needed) (hn : n < 256)
    (hlower : d.lower ≤ n) (hupper : n ≤ d.upper) :
    d.next (byte n)
      = ({ needed := d.needed, seen := d.seen + 1, codePoint := d.codePoint * 64 + n % 64 }, []) := by
  rw [Decoder.next, if_neg (by omega), toNat_byte hn, if_neg (by omega), if_neg (by omega)]

/-- A character is read back from its bytes. -/
lemma run_encodeChar (c : Char) : Decoder.run {} (encodeChar c) = ({}, [c]) := by
  have hbounds := val_bounds c
  have hchar : Char.ofNat c.toNat = c := Char.ofNat_toNat c
  have hfirst : ∀ n < 256, Decoder.next {} (byte n) = Decoder.first n := by
    intro n hn
    rw [Decoder.next, if_pos rfl, toNat_byte hn]
  rw [encodeChar_eq]
  generalize c.toNat = v at hbounds hchar
  split_ifs with hone htwo hthree
  · rw [Decoder.run, hfirst v (by omega), Decoder.first, if_pos hone, hchar]
    rfl
  · rw [Decoder.run, hfirst _ (by omega), Decoder.first, if_neg (by omega), if_pos (by omega),
      Decoder.run, next_last rfl (by omega) (by dsimp only; omega) (by dsimp only; omega)]
    have hv : (v / 64 % 0x20 + 0xC0) % 32 * 64 + (v % 0x40 + 0x80) % 64 = v := by omega
    simp only [hv, hchar, Decoder.run, List.append_nil, List.nil_append]
  · have hlower : (if v / 4096 % 0x10 + 0xE0 = 0xE0 then 0xA0 else 0x80)
        ≤ v / 64 % 0x40 + 0x80 := by
      split_ifs <;> omega
    have hupper : v / 64 % 0x40 + 0x80
        ≤ if v / 4096 % 0x10 + 0xE0 = 0xED then 0x9F else 0xBF := by
      split_ifs <;> omega
    rw [Decoder.run, hfirst _ (by omega), Decoder.first, if_neg (by omega), if_neg (by omega),
      if_pos (by omega), Decoder.run, next_inner (Nat.lt_succ_self 1) (by omega) hlower hupper,
      Decoder.run, next_last rfl (by omega) (by dsimp only; omega) (by dsimp only; omega)]
    have hv : ((v / 4096 % 0x10 + 0xE0) % 16 * 64 + (v / 64 % 0x40 + 0x80) % 64) * 64
        + (v % 0x40 + 0x80) % 64 = v := by omega
    simp only [hv, hchar, Decoder.run, List.append_nil, List.nil_append]
  · have hlower : (if v / 262144 % 0x08 + 0xF0 = 0xF0 then 0x90 else 0x80)
        ≤ v / 4096 % 0x40 + 0x80 := by
      split_ifs <;> omega
    have hupper : v / 4096 % 0x40 + 0x80
        ≤ if v / 262144 % 0x08 + 0xF0 = 0xF4 then 0x8F else 0xBF := by
      split_ifs <;> omega
    rw [Decoder.run, hfirst _ (by omega), Decoder.first, if_neg (by omega), if_neg (by omega),
      if_neg (by omega), if_pos (by omega), Decoder.run,
      next_inner (show 1 < 3 by omega) (by omega) hlower hupper, Decoder.run,
      next_inner (Nat.lt_succ_self 2) (by omega) (by dsimp only; omega) (by dsimp only; omega),
      Decoder.run, next_last rfl (by omega) (by dsimp only; omega) (by dsimp only; omega)]
    have hv : (((v / 262144 % 0x08 + 0xF0) % 8 * 64 + (v / 4096 % 0x40 + 0x80) % 64) * 64
        + (v / 64 % 0x40 + 0x80) % 64) * 64 + (v % 0x40 + 0x80) % 64 = v := by omega
    simp only [hv, hchar, Decoder.run, List.append_nil, List.nil_append]

/-- UTF-8 is read back, and the decoder is between characters after it. -/
lemma run_encode (chars : List Char) : Decoder.run {} (encode chars) = ({}, chars) := by
  induction chars with
  | nil => rfl
  | cons c chars ih =>
    have hcons : encode (c :: chars) = encodeChar c ++ encode chars := rfl
    rw [hcons, Decoder.run_append, run_encodeChar, ih]
    rfl

/-- A step that gives no character leaves the decoder inside one. -/
lemma needed_of_next {d : Decoder} {b : Byte} (h : (d.next b).2 = []) : (d.next b).1.needed ≠ 0 := by
  have hfirst : ∀ n, (Decoder.first n).2 = [] → (Decoder.first n).1.needed ≠ 0 := by
    intro n
    unfold Decoder.first
    split_ifs <;> simp
  unfold Decoder.next at h ⊢
  split_ifs at h ⊢ with hneeded hrange hlast
  · exact hfirst _ h
  · exact hneeded

lemma needed_of_run {d : Decoder} {bytes : List Byte} (hne : bytes ≠ []) (h : (d.run bytes).2 = []) :
    (d.run bytes).1.needed ≠ 0 := by
  induction bytes generalizing d with
  | nil => exact absurd rfl hne
  | cons b bytes ih =>
    rw [Decoder.run] at h ⊢
    dsimp only at h ⊢
    obtain ⟨hnext, hrest⟩ := List.append_eq_nil_iff.mp h
    cases bytes with
    | nil => exact needed_of_next hnext
    | cons b' bytes => exact ih (List.cons_ne_nil _ _) hrest

/-- The start of a character gives nothing, and the decoder waits for the rest. -/
lemma run_partial {c : Char} {a b : List Byte} (h : a ++ b = encodeChar c) (ha : a ≠ []) (hb : b ≠ []) :
    (Decoder.run {} a).2 = [] ∧ (Decoder.run {} a).1.needed ≠ 0 := by
  have hrun := run_encodeChar c
  rw [← h, Decoder.run_append, Prod.mk.injEq] at hrun
  obtain ⟨hstate, hout⟩ := hrun
  have hnil : (Decoder.run {} a).2 = [] := by
    by_contra hne
    have hrest : ((Decoder.run {} a).1.run b).2 = [] := by
      rcases List.append_eq_singleton_iff.mp hout with ⟨hnil, -⟩ | ⟨-, hnil⟩
      · exact absurd hnil hne
      · exact hnil
    have hneeded := needed_of_run hb hrest
    rw [hstate] at hneeded
    exact hneeded rfl
  exact ⟨hnil, needed_of_run ha hnil⟩

/-- The start of a text: the characters it holds whole, and perhaps the start of one more. -/
lemma run_start {chars : List Char} {bytes rest : List Byte} (h : bytes ++ rest = encode chars) :
    ∃ front back, chars = front ++ back ∧ (Decoder.run {} bytes).2 = front ∧
      (((Decoder.run {} bytes).1.needed = 0 ∧ bytes = encode front) ∨
        ((Decoder.run {} bytes).1.needed ≠ 0 ∧ ∃ c tail a, back = c :: tail ∧
          bytes = encode front ++ a ∧ a ≠ [] ∧ a.length < (encodeChar c).length)) := by
  induction chars generalizing bytes with
  | nil =>
    obtain ⟨rfl, -⟩ := List.append_eq_nil_iff.mp h
    exact ⟨[], [], rfl, rfl, Or.inl ⟨rfl, rfl⟩⟩
  | cons c chars ih =>
    have hcons : encode (c :: chars) = encodeChar c ++ encode chars := rfl
    rw [hcons] at h
    rcases List.append_eq_append_iff.mp h with ⟨b, hchar, -⟩ | ⟨a, rfl, hrest⟩
    · by_cases hbytes : bytes = []
      · subst hbytes
        exact ⟨[], c :: chars, rfl, rfl, Or.inl ⟨rfl, rfl⟩⟩
      · by_cases hb : b = []
        · subst hb
          rw [List.append_nil] at hchar
          rw [← hchar, run_encodeChar]
          exact ⟨[c], chars, rfl, rfl, Or.inl ⟨rfl, by simp [encode]⟩⟩
        · obtain ⟨hnil, hneeded⟩ := run_partial hchar.symm hbytes hb
          refine ⟨[], c :: chars, rfl, hnil, Or.inr ⟨hneeded, c, chars, bytes, rfl, rfl, hbytes, ?_⟩⟩
          rw [hchar, List.length_append]
          have := List.length_pos_iff.mpr hb
          omega
    · obtain ⟨front, back, rfl, hout, hend⟩ := ih hrest.symm
      rw [Decoder.run_append, run_encodeChar]
      refine ⟨c :: front, back, rfl, by rw [hout]; rfl, ?_⟩
      have hfront : encode (c :: front) = encodeChar c ++ encode front := rfl
      rcases hend with ⟨hneeded, rfl⟩ | ⟨hneeded, d, tail, b, rfl, rfl, hb, hlength⟩
      · exact Or.inl ⟨hneeded, hfront.symm⟩
      · exact Or.inr ⟨hneeded, d, tail, b, rfl, by rw [hfront, List.append_assoc], hb, hlength⟩

lemma encode_injective : Function.Injective encode := by
  intro a b h
  have ha := run_encode a
  rw [h, run_encode] at ha
  exact (congrArg Prod.snd ha).symm

/-! ### Texts -/

lemma ofNat_val {n : ℕ} (h : n < 65536) : (Fin.ofNat 65536 n).val = n := Nat.mod_eq_of_lt h

/-- The characters of a text that no character was split in. -/
lemma scalars_utf16Char_append (c : Char) (t : Text) :
    scalars (utf16Char c ++ t) = c :: scalars t := by
  have hbounds := val_bounds c
  have hchar : Char.ofNat c.toNat = c := Char.ofNat_toNat c
  unfold utf16Char
  generalize c.toNat = v at hbounds hchar
  split_ifs with hplane
  · have hval := ofNat_val hplane
    cases t with
    | nil =>
      simp only [List.append_nil, scalars, hval]
      rw [if_neg (by omega), hchar]
    | cons d t =>
      rw [List.singleton_append, scalars, hval, if_neg (by omega), if_neg (by omega), hchar]
  · have hhigh : (Fin.ofNat 65536 (0xD800 + (v - 0x10000) / 1024)).val
        = 0xD800 + (v - 0x10000) / 1024 := ofNat_val (by omega)
    have hlow : (Fin.ofNat 65536 (0xDC00 + (v - 0x10000) % 1024)).val
        = 0xDC00 + (v - 0x10000) % 1024 := ofNat_val (by omega)
    rw [List.cons_append, List.singleton_append, scalars, hhigh, hlow, if_pos (by omega)]
    have hv : 0x10000 + (0xD800 + (v - 0x10000) / 1024 - 0xD800) * 1024
        + (0xDC00 + (v - 0x10000) % 1024 - 0xDC00) = v := by omega
    rw [hv, hchar]

lemma scalars_utf16 (chars : List Char) : scalars (utf16 chars) = chars := by
  induction chars with
  | nil => rfl
  | cons c chars ih =>
    have hcons : utf16 (c :: chars) = utf16Char c ++ utf16 chars := rfl
    rw [hcons, scalars_utf16Char_append, ih]

lemma utf16_injective : Function.Injective utf16 := by
  intro a b h
  rw [← scalars_utf16 a, h, scalars_utf16]

lemma encodeText_utf16 (chars : List Char) : encodeText (utf16 chars) = encode chars := by
  rw [encodeText, scalars_utf16]

/-- A text that begins with an ASCII unit begins with an ASCII character, which is one byte. -/
lemma length_encodeChar_of_utf16 {c : Char} {chars : List Char} {u : CodeUnit} {t : Text}
    (h : utf16 (c :: chars) = u :: t) (hu : u.val < 0x80) : (encodeChar c).length = 1 := by
  have hbounds := val_bounds c
  have hcons : utf16 (c :: chars) = utf16Char c ++ utf16 chars := rfl
  have hc : c.toNat ≤ 0x7F := by
    rw [hcons, utf16Char] at h
    split_ifs at h with hsmall
    · rw [List.singleton_append, List.cons_eq_cons] at h
      rw [← h.1, ofNat_val (by omega)] at hu
      omega
    · rw [List.cons_append, List.cons_eq_cons] at h
      rw [← h.1, ofNat_val (by omega)] at hu
      omega
  rw [encodeChar_eq, if_pos hc]
  rfl

/-! ### Streams -/

/-- A `TextDecoder` between two reads. -/
structure TextDecoder where
  decoder : Decoder := {}
  bomSeen : Bool := false
deriving DecidableEq

/-- A byte order mark at the start of the stream is left out. -/
def dropMark : List Char → List Char
  | [] => []
  | c :: chars => if c = byteOrderMark then chars else c :: chars

/-- `decode(bytes, { stream: true })` -/
def TextDecoder.decodeStream (t : TextDecoder) (bytes : List Byte) : TextDecoder × Text :=
  let r := t.decoder.run bytes
  ({ decoder := r.1, bomSeen := t.bomSeen || !r.2.isEmpty },
    utf16 (if t.bomSeen then r.2 else dropMark r.2))

/-- `decode()` at the end of the stream. -/
def TextDecoder.decodeEnd (t : TextDecoder) : Text := utf16 t.decoder.flush

/-- `new TextDecoder().decode` -/
def decodeText (bytes : List Byte) : Text :=
  let r := ({} : TextDecoder).decodeStream bytes
  r.2 ++ r.1.decodeEnd

/-- The decoder after some reads, and the text of each. -/
def TextDecoder.decodeReads : TextDecoder → List (List Byte) → TextDecoder × List Text
  | t, [] => (t, [])
  | t, bytes :: reads =>
    let r := t.decodeStream bytes
    let rest := decodeReads r.1 reads
    (rest.1, r.2 :: rest.2)

lemma dropMark_append {a b : List Char} (h : a ≠ []) : dropMark (a ++ b) = dropMark a ++ b := by
  cases a with
  | nil => exact absurd rfl h
  | cons c a =>
    rw [List.cons_append, dropMark, dropMark]
    split_ifs <;> rfl

lemma decodeStream_append (t : TextDecoder) (a b : List Byte) :
    t.decodeStream (a ++ b) = (((t.decodeStream a).1.decodeStream b).1,
      (t.decodeStream a).2 ++ ((t.decodeStream a).1.decodeStream b).2) := by
  unfold TextDecoder.decodeStream
  dsimp only
  rw [Decoder.run_append]
  dsimp only
  generalize t.decoder.run a = r
  obtain ⟨d, first⟩ := r
  dsimp only
  generalize d.run b = second
  refine Prod.ext ?_ ?_
  · cases first <;> simp
  · dsimp only
    by_cases hseen : t.bomSeen
    · simp [hseen, utf16]
    · cases first with
      | nil => simp [hseen, dropMark, utf16]
      | cons c first =>
        rw [if_neg hseen, if_neg hseen, dropMark_append (by simp)]
        simp [utf16]

/-- The texts of the reads make up the text of all bytes. -/
lemma decodeReads_flatten (t : TextDecoder) (reads : List (List Byte)) :
    (t.decodeReads reads).2.flatten = (t.decodeStream reads.flatten).2 := by
  induction reads generalizing t with
  | nil =>
    unfold TextDecoder.decodeReads TextDecoder.decodeStream
    simp [Decoder.run, dropMark, utf16]
  | cons bytes reads ih =>
    rw [TextDecoder.decodeReads, List.flatten_cons, List.flatten_cons, decodeStream_append, ih]

/-- The decoder after some reads is the one after all their bytes. -/
lemma decodeReads_state (t : TextDecoder) (reads : List (List Byte)) :
    (t.decodeReads reads).1 = (t.decodeStream reads.flatten).1 := by
  induction reads generalizing t with
  | nil =>
    unfold TextDecoder.decodeReads TextDecoder.decodeStream
    simp [Decoder.run]
  | cons bytes reads ih =>
    rw [TextDecoder.decodeReads, List.flatten_cons, decodeStream_append, ih]

lemma decodeReads_length (t : TextDecoder) (reads : List (List Byte)) :
    (t.decodeReads reads).2.length = reads.length := by
  induction reads generalizing t with
  | nil => rfl
  | cons bytes reads ih => rw [TextDecoder.decodeReads, List.length_cons, List.length_cons, ih]

/-- The first reads give the first texts. -/
lemma decodeReads_take (t : TextDecoder) (reads : List (List Byte)) (n : ℕ) :
    (t.decodeReads (reads.take n)).2 = (t.decodeReads reads).2.take n := by
  induction reads generalizing t n with
  | nil => simp [TextDecoder.decodeReads]
  | cons bytes reads ih =>
    cases n with
    | zero => rfl
    | succ n =>
      rw [List.take_succ_cons, TextDecoder.decodeReads, TextDecoder.decodeReads, ih,
        List.take_succ_cons]

lemma dropMark_of_head {chars : List Char} (h : chars.head? ≠ some byteOrderMark) :
    dropMark chars = chars := by
  cases chars with
  | nil => rfl
  | cons c chars =>
    rw [dropMark, if_neg]
    rintro rfl
    exact h rfl

lemma decodeStream_encode (chars : List Char) :
    ({} : TextDecoder).decodeStream (encode chars)
      = ({ bomSeen := !chars.isEmpty }, utf16 (dropMark chars)) := by
  unfold TextDecoder.decodeStream
  dsimp only
  rw [run_encode]
  simp

lemma decodeText_encode (chars : List Char) :
    decodeText (encode chars) = utf16 (dropMark chars) := by
  unfold decodeText
  rw [decodeStream_encode]
  simp [TextDecoder.decodeEnd, Decoder.flush, utf16]

/-- What a decoder gives are characters. -/
lemma decodeText_eq_utf16 (bytes : List Byte) : ∃ chars, decodeText bytes = utf16 chars := by
  unfold decodeText TextDecoder.decodeStream TextDecoder.decodeEnd
  exact ⟨_, List.flatMap_append.symm⟩

/-- The bytes of the decoded text are those that were decoded exactly when these were well formed
and did not begin with a byte order mark. -/
lemma encodeText_decodeText (bytes : List Byte) :
    encodeText (decodeText bytes) = bytes
      ↔ ∃ chars, bytes = encode chars ∧ chars.head? ≠ some byteOrderMark := by
  constructor
  · intro h
    obtain ⟨chars, hchars⟩ := decodeText_eq_utf16 bytes
    rw [hchars, encodeText_utf16] at h
    refine ⟨chars, h.symm, fun hhead => ?_⟩
    rw [← h, decodeText_encode] at hchars
    have hdrop := utf16_injective hchars
    cases chars with
    | nil => cases hhead
    | cons c chars =>
      obtain rfl : c = byteOrderMark := by simpa using hhead
      rw [dropMark, if_pos rfl] at hdrop
      have hlength := congrArg List.length hdrop
      rw [List.length_cons] at hlength
      omega
  · rintro ⟨chars, rfl, hhead⟩
    rw [decodeText_encode, dropMark_of_head hhead, encodeText_utf16]

end Junjo.Utf8
