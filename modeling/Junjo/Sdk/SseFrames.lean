import Junjo.Core.Utf8
import Junjo.Core.Framing

/-!
# Frames of an event stream

The framing rules of the TypeScript and the C++ client are the same over code units and over bytes:
a frame ends at a blank line, and its `event`, `data` and `id` lines are read. They are stated once,
over any encoding of ASCII, and the rules over an encoded stream are those over its characters.
-/

namespace Junjo.Sse

variable {α : Type*}

/-! ### Rules -/

section Rules

variable [DecidableEq α] (ascii : ℕ → α)

/-- `\r?\n` at the start, and what follows it. -/
def lineEnd : List α → Option (List α)
  | [] => none
  | c :: s =>
    if c = ascii 10 then some s
    else if c = ascii 13 then
      match s with
      | [] => none
      | d :: s => if d = ascii 10 then some s else none
    else none

/-- `\r?\n\r?\n` at the start, and what follows it. -/
def delimiter (s : List α) : Option (List α) := (lineEnd ascii s).bind (lineEnd ascii)

/-- The block before the leftmost delimiter, and what follows the delimiter. -/
def cutFrame : List α → Option (List α × List α)
  | [] => none
  | c :: s =>
    match delimiter ascii (c :: s) with
    | some rest => some ([], rest)
    | none => (cutFrame s).map fun p => (c :: p.1, p.2)

/-- A frame. A field is missing when no line of the block gave it. -/
structure Frame (α : Type*) where
  event : Option (List α) := none
  data : Option (List α) := none
  id : Option (List α) := none
deriving DecidableEq

/-- The symbols of an ASCII text. -/
def symbols (t : List Char) : List α := t.map fun c => ascii c.toNat

def eventPrefix : List Char := ['e', 'v', 'e', 'n', 't', ':', ' ']

def dataPrefix : List Char := ['d', 'a', 't', 'a', ':', ' ']

def idPrefix : List Char := ['i', 'd', ':', ' ']

/-- A line without one trailing `\r`. -/
def stripReturn (rawLine : List α) : List α :=
  if rawLine.getLast? = some (ascii 13) then rawLine.dropLast else rawLine

/-- One line of a block: what it sets, and whether the block holds more than comments. -/
def readField (r : Frame α × Bool) (line : List α) : Frame α × Bool :=
  if line.head? = some (ascii 58) ∨ line = [] then r
  else
    match (symbols ascii eventPrefix).isPrefixOf? line with
    | some value => ({ r.1 with event := some value }, true)
    | none =>
      match (symbols ascii dataPrefix).isPrefixOf? line with
      | some value =>
        ({ r.1 with data := some (match r.1.data with
            | none => value
            | some data => data ++ ascii 10 :: value) }, true)
      | none =>
        match (symbols ascii idPrefix).isPrefixOf? line with
        | some value => ({ r.1 with id := some value }, true)
        | none => (r.1, true)

/-- The frame of a block, unless it only holds comments. -/
def parseBlock (block : List α) : Option (Frame α) :=
  let r := (block.splitOn (ascii 10)).foldl (fun r rawLine => readField ascii r (stripReturn ascii rawLine))
    ({}, false)
  if r.2 then some r.1 else none

/-- The frames of a whole stream. What follows the last delimiter is no frame. -/
def framesOf (stream : List α) : List (Frame α) :=
  (Framing.drain (cutFrame ascii) stream).1.filterMap (parseBlock ascii)

/-! ### Cuts -/

variable {ascii} {s rest : List α}

lemma lineEnd_append (t : List α) (h : lineEnd ascii s = some rest) :
    lineEnd ascii (s ++ t) = some (rest ++ t) := by
  unfold lineEnd at h ⊢
  cases s with
  | nil => cases h
  | cons c s =>
    dsimp only [List.cons_append] at h ⊢
    split_ifs at h ⊢
    · cases h
      rfl
    · cases s with
      | nil => cases h
      | cons d s =>
        dsimp only [List.cons_append] at h ⊢
        split_ifs at h ⊢
        cases h
        rfl

lemma lineEnd_shorter (h : lineEnd ascii s = some rest) : rest.length < s.length := by
  unfold lineEnd at h
  cases s with
  | nil => cases h
  | cons c s =>
    dsimp only at h
    split_ifs at h
    · cases h
      simp
    · cases s with
      | nil => cases h
      | cons d s =>
        dsimp only at h
        split_ifs at h
        cases h
        simp only [List.length_cons]
        omega

lemma delimiter_append (t : List α) (h : delimiter ascii s = some rest) :
    delimiter ascii (s ++ t) = some (rest ++ t) := by
  obtain ⟨mid, hmid, hrest⟩ := Option.bind_eq_some_iff.mp h
  rw [delimiter, lineEnd_append t hmid]
  exact lineEnd_append t hrest

lemma delimiter_shorter (h : delimiter ascii s = some rest) : rest.length < s.length := by
  obtain ⟨mid, hmid, hrest⟩ := Option.bind_eq_some_iff.mp h
  exact (lineEnd_shorter hrest).trans (lineEnd_shorter hmid)

/-- Where more input completes a line ending, at most its `\r` was there. -/
lemma lineEnd_eq_none_of_append {t : List α} (h : lineEnd ascii (s ++ t) = some rest)
    (hnone : lineEnd ascii s = none) : s = [] ∨ s = [ascii 13] := by
  unfold lineEnd at h hnone
  cases s with
  | nil => exact Or.inl rfl
  | cons c s =>
    dsimp only [List.cons_append] at h hnone
    split_ifs at h hnone with hlf hcr
    subst hcr
    cases s with
    | nil => exact Or.inr rfl
    | cons d s =>
      dsimp only [List.cons_append] at h hnone
      split_ifs at h hnone

section Stable

variable (hne : ascii 13 ≠ ascii 10)
include hne

/-- A delimiter that more input completes begins at most three symbols before the end. -/
lemma delimiter_of_append {c : α} {t : List α} {p : List α × List α}
    (h : delimiter ascii (c :: s ++ t) = some rest) (hcut : cutFrame ascii s = some p) :
    ∃ rest, delimiter ascii (c :: s) = some rest := by
  have hshort : ∀ s : List α, s = [] ∨ s = [ascii 13] ∨ s = [ascii 10] ∨ s = [ascii 10, ascii 13] →
      cutFrame ascii s = none := by
    rintro s (rfl | rfl | rfl | rfl) <;> simp [cutFrame, delimiter, lineEnd, hne]
  obtain ⟨mid, hmid, hrest⟩ := Option.bind_eq_some_iff.mp h
  cases hfirst : lineEnd ascii (c :: s) with
  | none =>
    rcases lineEnd_eq_none_of_append hmid hfirst with hs | hs
    · cases hs
    · obtain ⟨-, rfl⟩ := List.cons_eq_cons.mp hs
      rw [hshort [] (Or.inl rfl)] at hcut
      cases hcut
  | some mid' =>
    rw [lineEnd_append t hfirst] at hmid
    cases hmid
    cases hsecond : lineEnd ascii mid' with
    | some rest' => exact ⟨rest', by rw [delimiter, hfirst, Option.bind_some, hsecond]⟩
    | none =>
      have hmid' := lineEnd_eq_none_of_append hrest hsecond
      have hs : s = mid' ∨ s = ascii 10 :: mid' := by
        unfold lineEnd at hfirst
        dsimp only at hfirst
        split_ifs at hfirst
        · cases hfirst
          exact Or.inl rfl
        · cases s with
          | nil => cases hfirst
          | cons d s =>
            dsimp only at hfirst
            split_ifs at hfirst with hd
            cases hfirst
            exact Or.inr (by rw [hd])
      have hnone : cutFrame ascii s = none := by
        apply hshort
        rcases hs with rfl | rfl <;> rcases hmid' with rfl | rfl <;> simp
      rw [hnone] at hcut
      cases hcut

lemma stable_cutFrame : Framing.Stable (cutFrame ascii) where
  append := by
    intro s block rest t h
    induction s generalizing block with
    | nil => cases h
    | cons c s ih =>
      rw [List.cons_append, cutFrame]
      rw [cutFrame] at h
      cases hdelim : delimiter ascii (c :: s) with
      | some r =>
        rw [hdelim] at h
        cases h
        rw [← List.cons_append, delimiter_append t hdelim]
      | none =>
        rw [hdelim] at h
        obtain ⟨p, hp, heq⟩ := Option.map_eq_some_iff.mp h
        cases heq
        cases hmore : delimiter ascii (c :: (s ++ t)) with
        | some r =>
          obtain ⟨r', hr'⟩ := delimiter_of_append hne hmore hp
          rw [hdelim] at hr'
          cases hr'
        | none =>
          dsimp only
          rw [ih hp]
          rfl
  shorter := by
    intro s block rest h
    induction s generalizing block with
    | nil => cases h
    | cons c s ih =>
      rw [cutFrame] at h
      cases hdelim : delimiter ascii (c :: s) with
      | some r =>
        rw [hdelim] at h
        cases h
        exact delimiter_shorter hdelim
      | none =>
        rw [hdelim] at h
        obtain ⟨p, hp, heq⟩ := Option.map_eq_some_iff.mp h
        cases heq
        exact (ih hp).trans (Nat.lt_succ_self _)

end Stable

/-- Without a delimiter in front, the first symbol belongs to the block. -/
lemma cutFrame_cons_of_none {c : α} (h : delimiter ascii (c :: s) = none) :
    cutFrame ascii (c :: s) = (cutFrame ascii s).map fun p => (c :: p.1, p.2) := by
  rw [cutFrame, h]

end Rules

/-! ### Encodings -/

/-- An encoding of characters that keeps ASCII characters as single symbols of their own. -/
structure Encoding (α : Type*) where
  ascii : ℕ → α
  enc : Char → List α
  ascii_inj : ∀ {m n}, m < 128 → n < 128 → ascii m = ascii n → m = n
  enc_ascii : ∀ {c}, c.toNat < 128 → enc c = [ascii c.toNat]
  enc_ne_nil : ∀ c, enc c ≠ []
  enc_other : ∀ {c b n}, 128 ≤ c.toNat → b ∈ enc c → n < 128 → b ≠ ascii n

/-- Characters as they are. -/
def characters : Encoding Char where
  ascii := Char.ofNat
  enc c := [c]
  ascii_inj := by
    intro m n hm hn h
    have h' := congrArg Char.toNat h
    rwa [Char.toNat_ofNat, Char.toNat_ofNat, if_pos (Or.inl (by omega)),
      if_pos (Or.inl (by omega))] at h'
  enc_ascii := by
    intro c _
    rw [Char.ofNat_toNat]
  enc_ne_nil := by simp
  enc_other := by
    rintro c b n hc hb hn rfl
    rw [List.mem_singleton] at hb
    rw [← hb, Char.toNat_ofNat, if_pos (Or.inl (by omega))] at hc
    omega

namespace Encoding

variable (e : Encoding α)

/-- The encoding of a text. -/
def text (s : List Char) : List α := s.flatMap e.enc

@[simp] lemma text_nil : e.text [] = [] := rfl

@[simp] lemma text_cons (c : Char) (s : List Char) : e.text (c :: s) = e.enc c ++ e.text s := rfl

@[simp] lemma text_append (s t : List Char) : e.text (s ++ t) = e.text s ++ e.text t :=
  List.flatMap_append

lemma text_eq_nil {s : List Char} : e.text s = [] ↔ s = [] := by
  cases s with
  | nil => simp
  | cons c s => simp [e.enc_ne_nil]

/-- The fields of a frame, encoded. -/
def frame (f : Frame Char) : Frame α :=
  { event := f.event.map e.text, data := f.data.map e.text, id := f.id.map e.text }

variable {e}

lemma eq_ofNat_iff {c : Char} {n : ℕ} (hn : n < 128) : c = characters.ascii n ↔ c.toNat = n := by
  constructor
  · rintro rfl
    exact (Char.toNat_ofNat n).trans (if_pos (Or.inl (by omega)))
  · rintro rfl
    exact (Char.ofNat_toNat c).symm

/-- The first symbol of a character is an ASCII one exactly when the character is, and then it is the
only one. -/
lemma enc_eq_cons {c : Char} {b : α} {bs : List α} (h : e.enc c = b :: bs) {n : ℕ} (hn : n < 128) :
    (b = e.ascii n ↔ c = characters.ascii n) ∧ (c = characters.ascii n → bs = []) := by
  rw [eq_ofNat_iff hn]
  rcases Nat.lt_or_ge c.toNat 128 with hc | hc
  · rw [e.enc_ascii hc] at h
    cases h
    refine ⟨⟨e.ascii_inj hc hn, fun h => h ▸ rfl⟩, fun _ => rfl⟩
  · have hb : b ≠ e.ascii n := e.enc_other hc (by rw [h]; exact List.mem_cons_self) hn
    refine ⟨⟨fun h => absurd h hb, fun h => by omega⟩, fun h => by omega⟩

/-- The symbols of a character that is not ASCII are not ASCII. -/
lemma ne_ascii_of_mem_enc {c : Char} {b : α} {n : ℕ} (hn : n < 128) (hc : c ≠ characters.ascii n)
    (hb : b ∈ e.enc c) : b ≠ e.ascii n := by
  rw [Ne, eq_ofNat_iff hn] at hc
  rcases Nat.lt_or_ge c.toNat 128 with h | h
  · rw [e.enc_ascii h, List.mem_singleton] at hb
    rintro heq
    exact hc (e.ascii_inj h hn (hb.symm.trans heq))
  · exact e.enc_other h hb hn

variable [DecidableEq α]

lemma lineEnd_text (s : List Char) :
    lineEnd e.ascii (e.text s) = (lineEnd characters.ascii s).map e.text := by
  cases s with
  | nil => rfl
  | cons c s =>
    obtain ⟨b, bs, henc⟩ := List.exists_cons_of_ne_nil (e.enc_ne_nil c)
    obtain ⟨hlf, hlf'⟩ := enc_eq_cons henc (show 10 < 128 by omega)
    obtain ⟨hcr, hcr'⟩ := enc_eq_cons henc (show 13 < 128 by omega)
    rw [text_cons, henc, List.cons_append]
    unfold lineEnd
    dsimp only
    by_cases h10 : c = characters.ascii 10
    · rw [if_pos (hlf.mpr h10), if_pos h10, hlf' h10]
      rfl
    rw [if_neg (mt hlf.mp h10), if_neg h10]
    by_cases h13 : c = characters.ascii 13
    · rw [if_pos (hcr.mpr h13), if_pos h13, hcr' h13, List.nil_append]
      cases s with
      | nil => rfl
      | cons d s =>
        obtain ⟨b', bs', henc'⟩ := List.exists_cons_of_ne_nil (e.enc_ne_nil d)
        obtain ⟨hlf₂, hlf₂'⟩ := enc_eq_cons henc' (show 10 < 128 by omega)
        rw [text_cons, henc', List.cons_append]
        dsimp only
        by_cases h10' : d = characters.ascii 10
        · rw [if_pos (hlf₂.mpr h10'), if_pos h10', hlf₂' h10']
          rfl
        · rw [if_neg (mt hlf₂.mp h10'), if_neg h10']
          rfl
    · rw [if_neg (mt hcr.mp h13), if_neg h13]
      rfl

lemma delimiter_text (s : List Char) :
    delimiter e.ascii (e.text s) = (delimiter characters.ascii s).map e.text := by
  unfold delimiter
  rw [lineEnd_text]
  cases lineEnd characters.ascii s with
  | none => rfl
  | some mid => exact lineEnd_text mid

/-- The symbols of a character that begins no delimiter are passed over. -/
lemma cutFrame_enc_append {c : Char} (t : List α)
    (h : c ≠ characters.ascii 10 ∧ c ≠ characters.ascii 13) :
    cutFrame e.ascii (e.enc c ++ t) = (cutFrame e.ascii t).map fun p => (e.enc c ++ p.1, p.2) := by
  have hne : ∀ b ∈ e.enc c, b ≠ e.ascii 10 ∧ b ≠ e.ascii 13 := fun b hb =>
    ⟨ne_ascii_of_mem_enc (by omega) h.1 hb, ne_ascii_of_mem_enc (by omega) h.2 hb⟩
  generalize e.enc c = bs at hne
  induction bs with
  | nil => simp
  | cons b bs ih =>
    obtain ⟨hlf, hcr⟩ := hne b List.mem_cons_self
    have hnone : delimiter e.ascii (b :: (bs ++ t)) = none := by
      simp [delimiter, lineEnd, hlf, hcr]
    rw [List.cons_append, cutFrame_cons_of_none hnone,
      ih fun b' hb' => hne b' (List.mem_cons_of_mem _ hb'), Option.map_map]
    rfl

lemma cutFrame_text (s : List Char) :
    cutFrame e.ascii (e.text s)
      = (cutFrame characters.ascii s).map fun p => (e.text p.1, e.text p.2) := by
  induction s with
  | nil => rfl
  | cons c s ih =>
    have hdelim := delimiter_text (e := e) (c :: s)
    cases hcut : delimiter characters.ascii (c :: s) with
    | some rest =>
      rw [hcut] at hdelim
      obtain ⟨b, bs, henc⟩ := List.exists_cons_of_ne_nil (e.enc_ne_nil c)
      rw [text_cons, henc, List.cons_append] at hdelim ⊢
      rw [cutFrame, cutFrame, hdelim, hcut]
      rfl
    | none =>
      rw [hcut] at hdelim
      rw [cutFrame_cons_of_none hcut, Option.map_map]
      by_cases hc : c ≠ characters.ascii 10 ∧ c ≠ characters.ascii 13
      · rw [text_cons, cutFrame_enc_append _ hc, ih, Option.map_map]
        rfl
      · have hsingle : ∃ b, e.enc c = [b] := by
          obtain ⟨b, bs, henc⟩ := List.exists_cons_of_ne_nil (e.enc_ne_nil c)
          have hbs : bs = [] := by
            by_cases h10 : c = characters.ascii 10
            · exact (enc_eq_cons henc (show 10 < 128 by omega)).2 h10
            · exact (enc_eq_cons henc (show 13 < 128 by omega)).2 (by tauto)
          exact ⟨b, by rw [henc, hbs]⟩
        obtain ⟨b, henc⟩ := hsingle
        rw [text_cons, henc, List.singleton_append] at hdelim ⊢
        rw [cutFrame_cons_of_none hdelim, ih, Option.map_map]
        cases cutFrame characters.ascii s with
        | none => rfl
        | some p => simp [henc]

lemma stable (e : Encoding α) : Framing.Stable (cutFrame e.ascii) :=
  stable_cutFrame fun h => absurd (e.ascii_inj (by omega) (by omega) h) (by omega)

lemma drain_text (s : List Char) :
    Framing.drain (cutFrame e.ascii) (e.text s)
      = ((Framing.drain (cutFrame characters.ascii) s).1.map e.text,
        e.text (Framing.drain (cutFrame characters.ascii) s).2) := by
  induction s using Framing.drain_induction (stable characters) with
  | hnone s hcut =>
    have htext := cutFrame_text (e := e) s
    rw [hcut] at htext
    rw [Framing.drain_of_none hcut, Framing.drain_of_none htext]
    rfl
  | hsome s x rest hcut ih =>
    have htext := cutFrame_text (e := e) s
    rw [hcut] at htext
    rw [Framing.drain_of_some (stable characters) hcut, Framing.drain_of_some (stable e) htext, ih]
    rfl

lemma splitOn_cons {β : Type*} [DecidableEq β] (x c : β) (s : List β) :
    (c :: s).splitOn x
      = if c = x then [] :: s.splitOn x else (s.splitOn x).modifyHead (c :: ·) := by
  unfold List.splitOn
  rw [List.splitOnP_cons_eq_if_modifyHead]
  simp

lemma splitOn_text (s : List Char) :
    (e.text s).splitOn (e.ascii 10) = (s.splitOn (characters.ascii 10)).map e.text := by
  induction s with
  | nil => rfl
  | cons c s ih =>
    rw [text_cons, splitOn_cons]
    split_ifs with hc
    · have henc : e.enc c = [e.ascii 10] := by
        rw [hc]
        exact e.enc_ascii (by decide)
      rw [henc, List.singleton_append, splitOn_cons, if_pos rfl, ih]
      rfl
    · have hne : ∀ b ∈ e.enc c, b ≠ e.ascii 10 := fun b hb =>
        ne_ascii_of_mem_enc (by omega) hc hb
      have hpass : ∀ bs : List α, (∀ b ∈ bs, b ≠ e.ascii 10) →
          (bs ++ e.text s).splitOn (e.ascii 10)
            = ((e.text s).splitOn (e.ascii 10)).modifyHead (bs ++ ·) := by
        intro bs hbs
        induction bs with
        | nil => exact (congrFun List.modifyHead_id _).symm
        | cons b bs ihb =>
          rw [List.cons_append, splitOn_cons, if_neg (hbs b List.mem_cons_self),
            ihb fun b' hb' => hbs b' (List.mem_cons_of_mem _ hb'), List.modifyHead_modifyHead]
          rfl
      rw [hpass _ hne, ih]
      cases s.splitOn (characters.ascii 10) <;> simp

lemma stripReturn_text (line : List Char) :
    stripReturn e.ascii (e.text line) = e.text (stripReturn characters.ascii line) := by
  unfold stripReturn
  induction line using List.reverseRecOn with
  | nil => rfl
  | append_singleton line c _ =>
    rw [text_append, text_cons, text_nil, List.append_nil, List.getLast?_concat]
    by_cases hc : c = characters.ascii 13
    · have henc : e.enc c = [e.ascii 13] := by
        rw [hc]
        exact e.enc_ascii (by decide)
      rw [henc, List.getLast?_concat, if_pos rfl, if_pos (congrArg some hc), List.dropLast_concat,
        List.dropLast_concat]
    · have hlast : (e.text line ++ e.enc c).getLast? ≠ some (e.ascii 13) := by
        rw [List.getLast?_append_of_ne_nil _ (e.enc_ne_nil c)]
        intro h
        exact ne_ascii_of_mem_enc (by omega) hc (List.mem_of_getLast? h) rfl
      have hlast' : some c ≠ some (characters.ascii 13) := fun h => hc (Option.some.inj h)
      rw [if_neg hlast, if_neg hlast']
      simp

lemma isPrefixOf_text {p : List Char} (hp : ∀ c ∈ p, c.toNat < 128) (s : List Char) :
    (symbols e.ascii p).isPrefixOf? (e.text s)
      = ((symbols characters.ascii p).isPrefixOf? s).map e.text := by
  induction p generalizing s with
  | nil => rfl
  | cons c p ih =>
    have hc := hp c List.mem_cons_self
    cases s with
    | nil => rfl
    | cons d s =>
      obtain ⟨b, bs, henc⟩ := List.exists_cons_of_ne_nil (e.enc_ne_nil d)
      obtain ⟨hd, hd'⟩ := enc_eq_cons henc hc
      rw [text_cons, henc, List.cons_append]
      unfold symbols
      rw [List.map_cons, List.map_cons, List.isPrefixOf?, List.isPrefixOf?]
      by_cases h : d = characters.ascii c.toNat
      · rw [if_pos (beq_iff_eq.mpr (hd.mpr h).symm), if_pos (beq_iff_eq.mpr h.symm), hd' h,
          List.nil_append]
        exact ih (fun c' hc' => hp c' (List.mem_cons_of_mem _ hc')) s
      · rw [if_neg fun hb => h (hd.mp (beq_iff_eq.mp hb).symm), if_neg fun hb => h (beq_iff_eq.mp hb).symm]
        rfl

lemma readField_text (r : Frame Char × Bool) (line : List Char) :
    readField e.ascii (e.frame r.1, r.2) (e.text line)
      = (e.frame (readField characters.ascii r line).1, (readField characters.ascii r line).2) := by
  have hskip : (e.text line).head? = some (e.ascii 58) ∨ e.text line = []
      ↔ line.head? = some (characters.ascii 58) ∨ line = [] := by
    rw [text_eq_nil]
    refine or_congr_left ?_
    cases line with
    | nil => simp
    | cons c line =>
      obtain ⟨b, bs, henc⟩ := List.exists_cons_of_ne_nil (e.enc_ne_nil c)
      rw [text_cons, henc, List.cons_append, List.head?_cons, List.head?_cons, Option.some_inj,
        Option.some_inj]
      exact (enc_eq_cons henc (by omega)).1
  have hevent : ∀ c ∈ eventPrefix, c.toNat < 128 := by simp [eventPrefix]
  have hdata : ∀ c ∈ dataPrefix, c.toNat < 128 := by simp [dataPrefix]
  have hid : ∀ c ∈ idPrefix, c.toNat < 128 := by simp [idPrefix]
  unfold readField
  rw [isPrefixOf_text hevent, isPrefixOf_text hdata, isPrefixOf_text hid]
  by_cases h : line.head? = some (characters.ascii 58) ∨ line = []
  · rw [if_pos (hskip.mpr h), if_pos h]
  · rw [if_neg (mt hskip.mp h), if_neg h]
    cases (symbols characters.ascii eventPrefix).isPrefixOf? line with
    | some value => rfl
    | none =>
      cases (symbols characters.ascii dataPrefix).isPrefixOf? line with
      | some value =>
        obtain ⟨⟨event, data, id⟩, saw⟩ := r
        cases data with
        | none => rfl
        | some data =>
          have hjoin : e.text (data ++ characters.ascii 10 :: value)
              = e.text data ++ e.ascii 10 :: e.text value := by
            rw [text_append, text_cons, e.enc_ascii (by decide)]
            rfl
          simp [frame, hjoin]
      | none =>
        cases (symbols characters.ascii idPrefix).isPrefixOf? line with
        | some value => rfl
        | none => rfl

lemma parseBlock_text (block : List Char) :
    parseBlock e.ascii (e.text block) = (parseBlock characters.ascii block).map e.frame := by
  have hfold : ∀ (lines : List (List Char)) (r : Frame Char × Bool),
      (lines.map e.text).foldl (fun r l => readField e.ascii r (stripReturn e.ascii l))
          (e.frame r.1, r.2)
        = (e.frame (lines.foldl
            (fun r l => readField characters.ascii r (stripReturn characters.ascii l)) r).1,
          (lines.foldl
            (fun r l => readField characters.ascii r (stripReturn characters.ascii l)) r).2) := by
    intro lines
    induction lines with
    | nil => intro r; rfl
    | cons line lines ih =>
      intro r
      rw [List.map_cons, List.foldl_cons, List.foldl_cons, stripReturn_text, readField_text, ih]
  have hall := hfold (block.splitOn (characters.ascii 10)) ({}, false)
  unfold parseBlock
  rw [splitOn_text]
  dsimp only at hall ⊢
  rw [show ({} : Frame α) = e.frame {} from rfl, hall]
  dsimp only
  split_ifs <;> rfl

/-- The frames of an encoded stream are those of its characters. -/
lemma framesOf_text (s : List Char) :
    framesOf e.ascii (e.text s) = (framesOf characters.ascii s).map e.frame := by
  unfold framesOf
  rw [drain_text, List.filterMap_map, List.map_filterMap]
  exact List.filterMap_congr fun block _ => parseBlock_text block

end Encoding

/-! ### Code units and bytes -/

open Utf8 (Byte)

lemma ofNat_ne_of_mem_utf16Char {c : Char} {b : CodeUnit} {n : ℕ} (hc : 128 ≤ c.toNat)
    (hb : b ∈ Utf8.utf16Char c) (hn : n < 128) : b ≠ Fin.ofNat 65536 n := by
  have hbounds := Utf8.val_bounds c
  have hval : (Fin.ofNat 65536 n).val = n := Utf8.ofNat_val (by omega)
  rintro rfl
  unfold Utf8.utf16Char at hb
  split_ifs at hb with hplane
  · rw [List.mem_singleton] at hb
    have h := congrArg Fin.val hb
    rw [hval, Utf8.ofNat_val hplane] at h
    omega
  · rw [List.mem_cons, List.mem_singleton] at hb
    rcases hb with hb | hb <;>
    · have h := congrArg Fin.val hb
      rw [hval, Utf8.ofNat_val (by omega)] at h
      omega

lemma ofNat_inj_ascii {m n : ℕ} (hm : m < 128) (hn : n < 128)
    (h : Fin.ofNat 65536 m = Fin.ofNat 65536 n) : m = n := by
  have h' := congrArg Fin.val h
  rwa [Utf8.ofNat_val (by omega), Utf8.ofNat_val (by omega)] at h'

lemma utf16Char_ascii {c : Char} (hc : c.toNat < 128) :
    Utf8.utf16Char c = [Fin.ofNat 65536 c.toNat] := by
  rw [Utf8.utf16Char, if_pos (by omega)]

lemma utf16Char_ne_nil (c : Char) : Utf8.utf16Char c ≠ [] := by
  unfold Utf8.utf16Char
  split_ifs <;> simp

/-- Code units. -/
def codeUnits : Encoding CodeUnit where
  ascii n := Fin.ofNat 65536 n
  enc := Utf8.utf16Char
  ascii_inj := @ofNat_inj_ascii
  enc_ascii := @utf16Char_ascii
  enc_ne_nil := utf16Char_ne_nil
  enc_other := @ofNat_ne_of_mem_utf16Char

lemma ofNat_ne_of_mem_encodeChar {c : Char} {b : Byte} {n : ℕ} (hc : 128 ≤ c.toNat)
    (hb : b ∈ Utf8.encodeChar c) (hn : n < 128) : b ≠ BitVec.ofNat 8 n := by
  have hbyte : ∀ m, m < 256 → 128 ≤ m → Utf8.byte m ≠ BitVec.ofNat 8 n := by
    intro m hm hge h
    have h' := congrArg BitVec.toNat h
    rw [Utf8.toNat_byte hm, BitVec.toNat_ofNat] at h'
    omega
  rw [Utf8.encodeChar_eq] at hb
  split_ifs at hb
  · omega
  all_goals
    simp only [List.mem_cons, List.not_mem_nil, or_false] at hb
    rcases hb with rfl | hb
    · exact hbyte _ (by omega) (by omega)
  · subst hb
    exact hbyte _ (by omega) (by omega)
  · rcases hb with rfl | rfl <;> exact hbyte _ (by omega) (by omega)
  · rcases hb with rfl | rfl | rfl <;> exact hbyte _ (by omega) (by omega)

/-- Bytes of UTF-8. -/
def bytes : Encoding Byte where
  ascii n := BitVec.ofNat 8 n
  enc := Utf8.encodeChar
  ascii_inj := by
    intro m n hm hn h
    have h' := congrArg BitVec.toNat h
    rw [BitVec.toNat_ofNat, BitVec.toNat_ofNat] at h'
    omega
  enc_ascii := by
    intro c hc
    rw [Utf8.encodeChar_eq, if_pos (by omega)]
    rfl
  enc_ne_nil := by
    intro c
    rw [Utf8.encodeChar_eq]
    split_ifs <;> simp
  enc_other := ofNat_ne_of_mem_encodeChar

end Junjo.Sse
