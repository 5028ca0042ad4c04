import Junjo.Sdk.SseReader
import Junjo.Cpp.SseParser

/-!
# The three event stream readers agree

The TypeScript reader and the C++ parser give the frames of the whole stream, however it arrives. They
are the same frames unless the stream begins with a byte order mark, which only the first leaves out.
The Java reader gives the same frames of what the server writes.
-/

namespace Junjo.Sse

open Utf8 (Byte)

/-! ### What the server writes -/

namespace SseReader

variable {maxFrameBytes : ℕ}

/-- The frames of a written stream are those of the blocks that set a field. -/
lemma framesUpTo_blocks {blocks : List Block} (hwell : ∀ b ∈ blocks, b.WellFormed)
    (hcap : ∀ b ∈ blocks, b.lineBytes ≤ maxFrameBytes) {fuel : ℕ} {r : SseReader}
    (hbefore : r.Before (Utf8.encode (streamChars blocks))) (hfuel : r.remaining.length < fuel) :
    framesUpTo maxFrameBytes fuel r
      = (((blocks.map Block.frame).filter Frame.hasField).map codeUnits.frame, false) := by
  induction fuel generalizing blocks r with
  | zero => omega
  | succ fuel ih =>
    have hnext := frameFrom_blocks hwell hcap (r := { r with frameBytes := 0 }) hbefore rfl
      (Nat.lt_succ_self r.remaining.length)
    rcases hnext with ⟨hended, hnone⟩ | ⟨skipped, b, rest, r', rfl, hskip, hb, hframe, hafter, hlt⟩
    · have hfilter : (blocks.map Block.frame).filter Frame.hasField = [] := by
        rw [List.filter_eq_nil_iff]
        intro f hf
        obtain ⟨b, hb, rfl⟩ := List.mem_map.mp hf
        rw [hnone b hb]
        exact Bool.false_ne_true
      have hres : r.next maxFrameBytes = .ended := hended
      rw [framesUpTo, hres, hfilter]
      rfl
    · have hfilter : ((skipped ++ b :: rest).map Block.frame).filter Frame.hasField
          = b.frame :: (rest.map Block.frame).filter Frame.hasField := by
        have hnil : (skipped.map Block.frame).filter Frame.hasField = [] := by
          rw [List.filter_eq_nil_iff]
          intro f hf
          obtain ⟨b', hb', rfl⟩ := List.mem_map.mp hf
          rw [hskip b' hb']
          exact Bool.false_ne_true
        rw [List.map_append, List.filter_append, hnil, List.map_cons, List.filter_cons_of_pos hb,
          List.nil_append]
      have hrest : framesUpTo maxFrameBytes fuel r'
          = (((rest.map Block.frame).filter Frame.hasField).map codeUnits.frame, false) :=
        ih (fun b' hb' => hwell b' (List.mem_append_right _ (List.mem_cons_of_mem _ hb')))
        (fun b' hb' => hcap b' (List.mem_append_right _ (List.mem_cons_of_mem _ hb'))) hafter
        (by
          have hr : (SseReader.mk r.buf r.reads r.pendingCr 0).remaining.length
              = r.remaining.length := rfl
          omega)
      have hres : r.next maxFrameBytes = .frame (codeUnits.frame b.frame) r' := hframe
      rw [framesUpTo, hres, hfilter]
      dsimp only
      rw [hrest]
      rfl

end SseReader

/-- The text of a block up to its blank line. -/
def blockText : List (ServerLine × Bool) → List Char
  | [] => []
  | [l] => l.1.content
  | l :: l' :: lines => l.1.content ++ endingChars l.2 ++ blockText (l' :: lines)

lemma cutFrame_plain_append {s : List Char} (h : ∀ c ∈ s, c ≠ '\n' ∧ c ≠ '\r') (t : List Char) :
    cutFrame characters.ascii (s ++ t)
      = (cutFrame characters.ascii t).map fun p => (s ++ p.1, p.2) := by
  induction s with
  | nil => simp
  | cons c s ih =>
    have hcut := Encoding.cutFrame_enc_append (e := characters) (s ++ t) (h c List.mem_cons_self)
    rw [List.cons_append]
    refine hcut.trans ?_
    rw [ih fun c' hc' => h c' (List.mem_cons_of_mem _ hc'), Option.map_map]
    rfl

lemma cutFrame_endings (b b' : Bool) (rest : List Char) :
    cutFrame characters.ascii (endingChars b ++ (endingChars b' ++ rest)) = some ([], rest) := by
  cases b <;> cases b' <;> rfl

/-- A line ending before a line ends no block. -/
lemma cutFrame_ending_append (b : Bool) {c : Char} (h : c ≠ '\n' ∧ c ≠ '\r') (t : List Char) :
    cutFrame characters.ascii (endingChars b ++ c :: t)
      = (cutFrame characters.ascii (c :: t)).map fun p => (endingChars b ++ p.1, p.2) := by
  have hnone : lineEnd characters.ascii (c :: t) = none := by
    unfold lineEnd
    dsimp only
    exact (if_neg (show ¬c = characters.ascii 10 from h.1)).trans
      (if_neg (show ¬c = characters.ascii 13 from h.2))
  have hlf : delimiter characters.ascii ('\n' :: c :: t) = none := hnone
  cases b with
  | false => exact cutFrame_cons_of_none hlf
  | true =>
    have hcr : delimiter characters.ascii ('\r' :: '\n' :: c :: t) = none := hnone
    refine (cutFrame_cons_of_none hcr).trans ?_
    rw [cutFrame_cons_of_none hlf, Option.map_map]
    rfl

lemma cutFrame_block {b : Block} (h : b.WellFormed) (rest : List Char) :
    cutFrame characters.ascii (b.chars ++ rest) = some (blockText b.lines, rest) := by
  obtain ⟨lines, crlf⟩ := b
  obtain ⟨hne, hlines⟩ := h
  unfold Block.chars
  dsimp only at hne hlines ⊢
  induction lines with
  | nil => exact absurd rfl hne
  | cons l lines ih =>
    have hl := hlines l List.mem_cons_self
    rw [List.flatMap_cons, List.append_assoc, List.append_assoc, List.append_assoc,
      cutFrame_plain_append hl.oneLine]
    cases lines with
    | nil =>
      rw [List.flatMap_nil, List.nil_append, cutFrame_endings]
      simp [blockText]
    | cons l' lines =>
      have hl' := hlines l' (List.mem_cons_of_mem _ List.mem_cons_self)
      have hrest := ih (by simp) fun l hl => hlines l (List.mem_cons_of_mem _ hl)
      obtain ⟨c, s, hcs⟩ := List.exists_cons_of_ne_nil l'.1.content_ne_nil
      have hc := hl'.oneLine c (by rw [hcs]; exact List.mem_cons_self)
      rw [List.append_assoc] at hrest
      have hhead : ∃ t, (l' :: lines).flatMap (fun l => l.1.content ++ endingChars l.2)
          ++ (endingChars crlf ++ rest) = c :: t :=
        ⟨_, by rw [List.flatMap_cons, hcs, List.cons_append, List.cons_append, List.cons_append]⟩
      obtain ⟨t, ht⟩ := hhead
      rw [ht] at hrest ⊢
      rw [cutFrame_ending_append l.2 hc, hrest]
      simp [blockText]

lemma stripReturn_content {s : List Char} (h : ∀ c ∈ s, c ≠ '\n' ∧ c ≠ '\r') (crlf : Bool) :
    stripReturn characters.ascii (s ++ if crlf then ['\r'] else []) = s := by
  unfold stripReturn
  have hcr : characters.ascii 13 = '\r' := rfl
  cases crlf with
  | true =>
    rw [if_pos rfl, List.getLast?_concat, if_pos (by rw [hcr]), List.dropLast_concat]
  | false =>
    rw [if_neg Bool.false_ne_true, List.append_nil, if_neg]
    rw [hcr]
    intro hlast
    exact (h '\r' (List.mem_of_getLast? hlast)).2 rfl

/-- The lines of a block are those it was written from. -/
lemma lines_blockText {lines : List (ServerLine × Bool)} (hne : lines ≠ [])
    (hlines : ∀ l ∈ lines, l.1.WellFormed) :
    ((blockText lines).splitOn (characters.ascii 10)).map (stripReturn characters.ascii)
      = lines.map fun l => l.1.content := by
  have hplain : ∀ {s : List Char}, (∀ c ∈ s, c ≠ '\n' ∧ c ≠ '\r') → characters.ascii 10 ∉ s :=
    fun h hmem => (h _ hmem).1 rfl
  induction lines with
  | nil => exact absurd rfl hne
  | cons l lines ih =>
    have hl := (hlines l List.mem_cons_self).oneLine
    cases lines with
    | nil =>
      have hstrip := stripReturn_content hl false
      rw [if_neg Bool.false_ne_true, List.append_nil] at hstrip
      rw [blockText, List.splitOn_eq_singleton (hplain hl)]
      simp [hstrip]
    | cons l' lines =>
      have hrest := ih (by simp) fun l hl => hlines l (List.mem_cons_of_mem _ hl)
      have hending : l.1.content ++ endingChars l.2 ++ blockText (l' :: lines)
          = (l.1.content ++ if l.2 then ['\r'] else [])
            ++ characters.ascii 10 :: blockText (l' :: lines) := by
        cases l.2 <;> simp [endingChars] <;> rfl
      have hraw : characters.ascii 10 ∉ l.1.content ++ (if l.2 then ['\r'] else []) := by
        rw [List.mem_append, not_or]
        refine ⟨hplain hl, ?_⟩
        cases l.2 <;> decide
      rw [blockText, hending, List.splitOn_append_cons_self, List.splitOn_eq_singleton hraw,
        List.singleton_append, List.map_cons, stripReturn_content hl, List.map_cons, hrest]

lemma parseBlock_blockText {lines : List (ServerLine × Bool)} (hne : lines ≠ [])
    (hlines : ∀ l ∈ lines, l.1.WellFormed) :
    parseBlock characters.ascii (blockText lines)
      = if lines.any fun l => !l.1.isComment then
          some (lines.foldl (fun f l => l.1.set f) {})
        else none := by
  have hfold : ∀ (lines : List (ServerLine × Bool)) (r : Frame Char × Bool),
      (lines.map fun l => l.1.content).foldl (readField characters.ascii) r
        = (lines.foldl (fun f l => l.1.set f) r.1, r.2 || lines.any fun l => !l.1.isComment) := by
    intro lines
    induction lines with
    | nil => intro r; simp
    | cons l lines ih =>
      intro r
      rw [List.map_cons, List.foldl_cons, readField_content, ih]
      simp [Bool.or_assoc]
  unfold parseBlock
  rw [← List.foldl_map, lines_blockText hne hlines, hfold, Bool.false_or]

/-- The frames of a written stream. -/
lemma framesOf_streamChars {blocks : List Block} (hwell : ∀ b ∈ blocks, b.WellFormed) :
    framesOf characters.ascii (streamChars blocks)
      = blocks.filterMap fun b =>
          if b.lines.any fun l => !l.1.isComment then some b.frame else none := by
  unfold framesOf
  induction blocks with
  | nil => rfl
  | cons b blocks ih =>
    have hb := hwell b List.mem_cons_self
    rw [streamChars, List.flatMap_cons,
      Framing.drain_of_some (Encoding.stable characters) (cutFrame_block hb _),
      List.filterMap_cons, List.filterMap_cons, parseBlock_blockText hb.ne_nil hb.lines]
    have hrest := ih fun b hb => hwell b (List.mem_cons_of_mem _ hb)
    rw [streamChars] at hrest
    rw [hrest]
    rfl

/-- Comments set no field. -/
lemma hasField_of_comments {lines : List (ServerLine × Bool)}
    (h : (lines.any fun l => !l.1.isComment) = false) (f : Frame Char) :
    lines.foldl (fun f l => l.1.set f) f = f := by
  induction lines generalizing f with
  | nil => rfl
  | cons l lines ih =>
    rw [List.any_cons, Bool.or_eq_false_iff] at h
    have hset : l.1.set f = f := by
      cases hl : l.1 with
      | comment t => rfl
      | _ =>
        rw [hl] at h
        cases h.1
    rw [List.foldl_cons, hset, ih h.2]

lemma filter_framesOf_streamChars {blocks : List Block} (hwell : ∀ b ∈ blocks, b.WellFormed) :
    (framesOf characters.ascii (streamChars blocks)).filter Frame.hasField
      = (blocks.map Block.frame).filter Frame.hasField := by
  rw [framesOf_streamChars hwell]
  clear hwell
  induction blocks with
  | nil => rfl
  | cons b blocks ih =>
    rw [List.filterMap_cons, List.map_cons]
    cases hany : b.lines.any fun l => !l.1.isComment with
    | true =>
      rw [if_pos rfl]
      dsimp only
      rw [List.filter_cons, List.filter_cons, ih]
    | false =>
      have hfield : b.frame.hasField = false := by
        rw [Block.frame, hasField_of_comments hany]
        rfl
      rw [if_neg Bool.false_ne_true, List.filter_cons, hfield, if_neg Bool.false_ne_true]
      exact ih

/-! ### A byte order mark in front -/

/-- Empty lines and comments. -/
def Skipped (line : List Char) : Prop := line.head? = some ':' ∨ line = []

instance decidableSkipped (line : List Char) : Decidable (Skipped line) :=
  inferInstanceAs (Decidable (_ ∨ _))

/-- The lines of a block, without `\r` at their ends. -/
def blockLines (block : List Char) : List (List Char) :=
  (block.splitOn '\n').map (stripReturn characters.ascii)

/-- What a block loses when a byte order mark stands in front of its first line is made up for by
its other lines. -/
structure MarkHarmless (first : List Char) (lines : List (List Char)) : Prop where
  content : ∃ l ∈ first :: lines, ¬Skipped l
  event : eventPrefix <+: first → ∃ l ∈ lines, eventPrefix <+: l
  data : ¬dataPrefix <+: first
  id : idPrefix <+: first → ∃ l ∈ lines, idPrefix <+: l

/-- The `data` of a frame with one more line. -/
def joinData (data value : Option (List Char)) : Option (List Char) :=
  match value with
  | none => data
  | some value => some (match data with
    | none => value
    | some data => data ++ '\n' :: value)

lemma readField_eq (r : Frame Char × Bool) (line : List Char) :
    readField characters.ascii r line =
      ({ event := (eventPrefix.isPrefixOf? line).or r.1.event
         data := joinData r.1.data (dataPrefix.isPrefixOf? line)
         id := (idPrefix.isPrefixOf? line).or r.1.id }, r.2 || !decide (Skipped line)) := by
  unfold readField
  rw [symbols_characters, symbols_characters, symbols_characters]
  by_cases hskip : Skipped line
  · have hnone : ∀ c p, c ≠ ':' → (c :: p).isPrefixOf? line = none := by
      intro c p hc
      rcases hskip with h | rfl
      · cases line with
        | nil => cases h
        | cons d line =>
          rw [List.head?_cons, Option.some_inj] at h
          rw [List.isPrefixOf?, if_neg]
          rw [h, beq_iff_eq]
          exact hc
      · rfl
    have hif : line.head? = some (characters.ascii 58) ∨ line = [] := hskip
    rw [if_pos hif, eventPrefix, dataPrefix, idPrefix, hnone _ _ (by decide), hnone _ _ (by decide),
      hnone _ _ (by decide)]
    simp [joinData, hskip]
  · have hif : ¬(line.head? = some (characters.ascii 58) ∨ line = []) := hskip
    rw [if_neg hif]
    cases hevent : eventPrefix.isPrefixOf? line with
    | some value =>
      obtain rfl := List.isPrefixOf?_eq_some_iff_append_eq.mp hevent
      have hdata : dataPrefix.isPrefixOf? (eventPrefix ++ value) = none := rfl
      have hid : idPrefix.isPrefixOf? (eventPrefix ++ value) = none := rfl
      rw [hdata, hid]
      simp [joinData, hskip]
    | none =>
      cases hdata : dataPrefix.isPrefixOf? line with
      | some value =>
        obtain rfl := List.isPrefixOf?_eq_some_iff_append_eq.mp hdata
        have hid : idPrefix.isPrefixOf? (dataPrefix ++ value) = none := rfl
        rw [hid]
        simp only [joinData, hskip, Option.none_or, decide_false, Bool.not_false, Bool.or_true]
        cases r.1.data <;> rfl
      | none =>
        cases hid : idPrefix.isPrefixOf? line with
        | some value => simp [joinData, hskip]
        | none => simp [joinData, hskip]

/-- The fields after some lines, each by itself. -/
lemma foldl_readField (lines : List (List Char)) (r : Frame Char × Bool) :
    lines.foldl (readField characters.ascii) r =
      ({ event := lines.foldl (fun v l => (eventPrefix.isPrefixOf? l).or v) r.1.event
         data := lines.foldl (fun v l => joinData v (dataPrefix.isPrefixOf? l)) r.1.data
         id := lines.foldl (fun v l => (idPrefix.isPrefixOf? l).or v) r.1.id },
        r.2 || lines.any fun l => !decide (Skipped l)) := by
  induction lines generalizing r with
  | nil => simp
  | cons l lines ih =>
    rw [List.foldl_cons, readField_eq, ih]
    simp [Bool.or_assoc]

lemma foldl_or (p : List Char) (lines : List (List Char)) (v : Option (List Char)) :
    lines.foldl (fun v l => (p.isPrefixOf? l).or v) v
      = (lines.foldl (fun v l => (p.isPrefixOf? l).or v) none).or v := by
  induction lines generalizing v with
  | nil => rfl
  | cons l lines ih =>
    rw [List.foldl_cons, List.foldl_cons, ih, ih ((p.isPrefixOf? l).or none), Option.or_none,
      Option.or_assoc]

lemma isPrefixOf_eq_none {p line : List Char} : p.isPrefixOf? line = none ↔ ¬p <+: line := by
  cases h : p.isPrefixOf? line with
  | none =>
    simp only [true_iff]
    rintro ⟨rest, rfl⟩
    rw [isPrefixOf_append] at h
    cases h
  | some rest => simpa using ⟨rest, List.isPrefixOf?_eq_some_iff_append_eq.mp h⟩

lemma foldl_or_eq_none {p : List Char} {lines : List (List Char)} :
    lines.foldl (fun v l => (p.isPrefixOf? l).or v) none = none ↔ ∀ l ∈ lines, ¬p <+: l := by
  induction lines with
  | nil => simp
  | cons l lines ih =>
    rw [List.foldl_cons, foldl_or, Option.or_none, Option.or_eq_none_iff, ih, isPrefixOf_eq_none,
      List.forall_mem_cons, and_comm]

/-- The field of a first line is not missed exactly when a later line gives it, or it gave none. -/
lemma foldl_or_eq_iff {p first : List Char} {lines : List (List Char)} :
    lines.foldl (fun v l => (p.isPrefixOf? l).or v) none
        = lines.foldl (fun v l => (p.isPrefixOf? l).or v) (p.isPrefixOf? first)
      ↔ (p <+: first → ∃ l ∈ lines, p <+: l) := by
  rw [foldl_or p lines (p.isPrefixOf? first)]
  cases hlines : lines.foldl (fun v l => (p.isPrefixOf? l).or v) none with
  | none =>
    have hnone := foldl_or_eq_none.mp hlines
    rw [Option.none_or, eq_comm, isPrefixOf_eq_none]
    constructor
    · intro h hfirst
      exact absurd hfirst h
    · intro h hfirst
      obtain ⟨l, hl, hp⟩ := h hfirst
      exact hnone l hl hp
  | some v =>
    rw [Option.some_or]
    simp only [true_iff]
    intro _
    by_contra hno
    rw [foldl_or_eq_none.mpr fun l hl hp => hno ⟨l, hl, hp⟩] at hlines
    cases hlines

def dataSize : Option (List Char) → ℕ
  | none => 0
  | some data => data.length + 1

lemma dataSize_joinData (data value : Option (List Char)) :
    dataSize (joinData data value) = dataSize data + dataSize value := by
  cases value with
  | none => rfl
  | some value =>
    cases data with
    | none => simp [joinData, dataSize]
    | some data =>
      simp only [joinData, dataSize, List.length_append, List.length_cons]
      omega

lemma dataSize_foldl (lines : List (List Char)) (v : Option (List Char)) :
    dataSize (lines.foldl (fun v l => joinData v (dataPrefix.isPrefixOf? l)) v)
      = dataSize v + (lines.map fun l => dataSize (dataPrefix.isPrefixOf? l)).sum := by
  induction lines generalizing v with
  | nil => simp
  | cons l lines ih =>
    rw [List.foldl_cons, ih, dataSize_joinData, List.map_cons, List.sum_cons, Nat.add_assoc]

/-- A `data` line is never made up for. -/
lemma foldl_joinData_eq_iff {first : List Char} {lines : List (List Char)} :
    lines.foldl (fun v l => joinData v (dataPrefix.isPrefixOf? l)) none
        = lines.foldl (fun v l => joinData v (dataPrefix.isPrefixOf? l))
          (joinData none (dataPrefix.isPrefixOf? first))
      ↔ ¬dataPrefix <+: first := by
  rw [← isPrefixOf_eq_none]
  constructor
  · intro h
    have hsize := congrArg dataSize h
    rw [dataSize_foldl, dataSize_foldl, dataSize_joinData] at hsize
    cases hfirst : dataPrefix.isPrefixOf? first with
    | none => rfl
    | some value =>
      rw [hfirst] at hsize
      simp only [dataSize] at hsize
      omega
  · intro h
    rw [h]
    rfl

lemma blockLines_ne_nil (block : List Char) : blockLines block ≠ [] := by
  unfold blockLines
  rw [Ne, List.map_eq_nil_iff]
  exact List.splitOn_ne_nil _ _

lemma parseBlock_eq (block : List Char) :
    parseBlock characters.ascii block =
      let r := (blockLines block).foldl (readField characters.ascii) ({}, false)
      if r.2 then some r.1 else none := by
  unfold parseBlock blockLines
  rw [List.foldl_map]
  rfl

lemma stripReturn_mark (line : List Char) :
    stripReturn characters.ascii (Utf8.byteOrderMark :: line)
      = Utf8.byteOrderMark :: stripReturn characters.ascii line := by
  unfold stripReturn
  cases line with
  | nil => rfl
  | cons c line =>
    rw [List.getLast?_cons_cons]
    split_ifs <;> rfl

/-- A byte order mark in front goes to the first line. -/
lemma blockLines_mark {block first : List Char} {lines : List (List Char)}
    (h : blockLines block = first :: lines) :
    blockLines (Utf8.byteOrderMark :: block) = (Utf8.byteOrderMark :: first) :: lines := by
  unfold blockLines at h ⊢
  have hne : Utf8.byteOrderMark ≠ '\n' := by decide
  rw [Encoding.splitOn_cons, if_neg hne]
  cases hsplit : block.splitOn '\n' with
  | nil => exact absurd hsplit (List.splitOn_ne_nil _ _)
  | cons raw raws =>
    rw [hsplit, List.map_cons] at h
    obtain ⟨rfl, rfl⟩ := List.cons_eq_cons.mp h
    rw [List.modifyHead_cons, List.map_cons, stripReturn_mark]

/-- The frame of a block does not change with a byte order mark in front exactly when the mark is
harmless. -/
lemma parseBlock_mark_iff {block first : List Char} {lines : List (List Char)}
    (h : blockLines block = first :: lines) :
    parseBlock characters.ascii (Utf8.byteOrderMark :: block) = parseBlock characters.ascii block
      ↔ MarkHarmless first lines := by
  have hmark : ¬Skipped (Utf8.byteOrderMark :: first) := by
    rintro (h | h)
    · exact absurd (Option.some.inj h) (by decide)
    · cases h
  have hfirst : readField characters.ascii ({}, false) (Utf8.byteOrderMark :: first)
      = ({}, true) := by
    rw [readField_eq]
    simp only [hmark, decide_false, Bool.not_false, Bool.or_true]
    rfl
  rw [parseBlock_eq, parseBlock_eq, blockLines_mark h, h]
  dsimp only
  rw [List.foldl_cons, List.foldl_cons, hfirst, foldl_readField, foldl_readField lines
    (readField characters.ascii ({}, false) first), readField_eq]
  dsimp only
  rw [Bool.true_or, if_pos rfl, Option.or_none, Option.or_none]
  constructor
  · intro heq
    split_ifs at heq with hsaw
    rw [Option.some_inj, Frame.mk.injEq] at heq
    refine ⟨?_, foldl_or_eq_iff.mp heq.1, foldl_joinData_eq_iff.mp heq.2.1,
      foldl_or_eq_iff.mp heq.2.2⟩
    rw [Bool.false_or, Bool.or_eq_true, List.any_eq_true] at hsaw
    rcases hsaw with hsaw | ⟨l, hl, hsaw⟩
    · exact ⟨first, List.mem_cons_self, by simpa using hsaw⟩
    · exact ⟨l, List.mem_cons_of_mem _ hl, by simpa using hsaw⟩
  · rintro ⟨⟨l, hl, hsaw⟩, hevent, hdata, hid⟩
    have hany : (false || !decide (Skipped first) || lines.any fun l => !decide (Skipped l)) = true := by
      rw [Bool.false_or, Bool.or_eq_true, List.any_eq_true]
      rcases List.mem_cons.mp hl with rfl | hl
      · exact Or.inl (by simpa using hsaw)
      · exact Or.inr ⟨l, hl, by simpa using hsaw⟩
    rw [if_pos hany, Option.some_inj, Frame.mk.injEq]
    exact ⟨foldl_or_eq_iff.mpr hevent, foldl_joinData_eq_iff.mpr hdata, foldl_or_eq_iff.mpr hid⟩

/-- A byte order mark in front of these characters changes no frame. -/
def MarkUnnoticed (chars : List Char) : Prop :=
  ∀ block rest, cutFrame characters.ascii chars = some (block, rest) →
    ∀ first lines, blockLines block = first :: lines → MarkHarmless first lines

lemma framesOf_mark_iff (chars : List Char) :
    framesOf characters.ascii (Utf8.byteOrderMark :: chars) = framesOf characters.ascii chars
      ↔ MarkUnnoticed chars := by
  have hplain : ∀ c ∈ [Utf8.byteOrderMark], c ≠ '\n' ∧ c ≠ '\r' := by
    intro c hc
    rw [List.mem_singleton] at hc
    subst hc
    exact ⟨by decide, by decide⟩
  have hcut := cutFrame_plain_append hplain chars
  rw [List.singleton_append] at hcut
  unfold framesOf MarkUnnoticed
  cases hfirst : cutFrame characters.ascii chars with
  | none =>
    rw [hfirst] at hcut
    rw [Framing.drain_of_none hfirst, Framing.drain_of_none hcut]
    simp
  | some p =>
    obtain ⟨block, rest⟩ := p
    rw [hfirst] at hcut
    rw [Framing.drain_of_some (Encoding.stable characters) hfirst,
      Framing.drain_of_some (Encoding.stable characters) hcut]
    have hlist : ∀ (a b : Option (Frame Char)) (l : List (Frame Char)),
        a.toList ++ l = b.toList ++ l ↔ a = b := by
      intro a b l
      rw [List.append_left_inj]
      cases a <;> cases b <;> simp
    have hcons : ∀ b : List Char, (b :: (Framing.drain (cutFrame characters.ascii) rest).1).filterMap
        (parseBlock characters.ascii) = (parseBlock characters.ascii b).toList
          ++ (Framing.drain (cutFrame characters.ascii) rest).1.filterMap
            (parseBlock characters.ascii) := by
      intro b
      cases hparse : parseBlock characters.ascii b <;> simp [hparse]
    dsimp only
    rw [hcons, hcons, hlist]
    obtain ⟨first, lines, hlines⟩ := List.exists_cons_of_ne_nil (blockLines_ne_nil block)
    rw [List.singleton_append, parseBlock_mark_iff hlines]
    constructor
    · rintro h b r hbr f l hfl
      obtain ⟨rfl, rfl⟩ := Prod.mk.inj (Option.some.inj hbr)
      rw [hlines] at hfl
      obtain ⟨rfl, rfl⟩ := List.cons_eq_cons.mp hfl
      exact h
    · intro h
      exact h block rest rfl first lines hlines

/-! ### Agreement -/

/-- A frame with its fields in UTF-8. -/
def encodeFrame (f : ParsedSSEFrame) : Frame Byte :=
  { event := f.event.map Utf8.encodeText, data := f.data.map Utf8.encodeText,
    id := f.id.map Utf8.encodeText }

/-- The text of the bytes that have arrived. -/
def streamText (arrived : List Byte) : Text := (({} : Utf8.TextDecoder).decodeStream arrived).2

lemma encodeFrame_frame (f : Frame Char) : encodeFrame (codeUnits.frame f) = bytes.frame f := by
  have htext : ∀ t : List Char, Utf8.encodeText (codeUnits.text t) = bytes.text t :=
    Utf8.encodeText_utf16
  obtain ⟨event, data, id⟩ := f
  cases event <;> cases data <;> cases id <;> simp [encodeFrame, Encoding.frame, htext]

lemma bytes_frame_injective : Function.Injective bytes.frame := by
  intro f g h
  obtain ⟨event, data, id⟩ := f
  obtain ⟨event', data', id'⟩ := g
  rw [Encoding.frame, Encoding.frame, Frame.mk.injEq] at h
  have hinj : Function.Injective (Option.map bytes.text) :=
    Option.map_injective Utf8.encode_injective
  rw [Frame.mk.injEq]
  exact ⟨hinj h.1, hinj h.2.1, hinj h.2.2⟩

/-- The frames of the text, in UTF-8, are those of the characters without a byte order mark. -/
lemma encode_framesOf_streamText (chars : List Char) :
    (framesOf codeUnits.ascii (streamText (Utf8.encode chars))).map encodeFrame
      = (framesOf characters.ascii (Utf8.dropMark chars)).map bytes.frame := by
  have htext : streamText (Utf8.encode chars) = codeUnits.text (Utf8.dropMark chars) := by
    rw [streamText, Utf8.decodeStream_encode]
    rfl
  rw [htext, Encoding.framesOf_text, List.map_map]
  exact List.map_congr_left fun f _ => encodeFrame_frame f

lemma framesOf_encode (chars : List Char) :
    framesOf bytes.ascii (Utf8.encode chars)
      = (framesOf characters.ascii chars).map bytes.frame :=
  Encoding.framesOf_text chars

/-- The frames of the bytes and those of the text are the same unless a byte order mark is noticed. -/
lemma framesOf_agree_iff (chars : List Char) :
    framesOf bytes.ascii (Utf8.encode chars)
        = (framesOf codeUnits.ascii (streamText (Utf8.encode chars))).map encodeFrame
      ↔ ∀ rest, chars = Utf8.byteOrderMark :: rest → MarkUnnoticed rest := by
  rw [encode_framesOf_streamText, framesOf_encode,
    (List.map_injective_iff.mpr bytes_frame_injective).eq_iff]
  cases chars with
  | nil => simp [Utf8.dropMark]
  | cons c chars =>
    rw [Utf8.dropMark]
    split_ifs with hc
    · rw [hc, framesOf_mark_iff]
      constructor
      · rintro h rest heq
        obtain ⟨-, rfl⟩ := List.cons_eq_cons.mp heq
        exact h
      · intro h
        exact h chars rfl
    · simp only [true_iff]
      rintro rest heq
      exact absurd (List.cons_eq_cons.mp heq).1 hc

lemma textsOf_flatten (reads : List (List Byte)) :
    (textsOf reads).flatten = streamText reads.flatten :=
  Utf8.decodeReads_flatten _ _

lemma hasField_frame {α : Type*} (e : Encoding α) (f : Frame Char) :
    (e.frame f).hasField = f.hasField := by
  simp [Frame.hasField, Encoding.frame]

/-- What the server writes does not begin with a byte order mark. -/
lemma dropMark_streamChars {blocks : List Block} (hwell : ∀ b ∈ blocks, b.WellFormed) :
    Utf8.dropMark (streamChars blocks) = streamChars blocks := by
  cases blocks with
  | nil => rfl
  | cons b blocks =>
    obtain ⟨⟨line, crlf⟩, lines, hlines⟩ :=
      List.exists_cons_of_ne_nil (hwell b List.mem_cons_self).ne_nil
    obtain ⟨c, t, hcontent, hc⟩ : ∃ c t, line.content = c :: t ∧ c ≠ Utf8.byteOrderMark := by
      cases line <;> exact ⟨_, _, rfl, by decide⟩
    have hchars : ∃ t, streamChars (b :: blocks) = c :: t := by
      rw [streamChars, List.flatMap_cons, Block.chars, hlines, List.flatMap_cons, hcontent]
      exact ⟨_, rfl⟩
    obtain ⟨t, ht⟩ := hchars
    rw [ht, Utf8.dropMark, if_neg hc]

/-- The frames the C++ parser gives for some reads. -/
def cppFrames (reads : List (List Byte)) : List (Frame Byte) :=
  (({} : Cpp.SseParser).feedAll reads).2

/-- The frames the TypeScript reader delivers to a consumer that does not close. -/
def tsFrames (reads : List (List Byte)) : List ParsedSSEFrame :=
  (readSSEFrames (fun _ => false) reads).frames

/-- After each read the buffers of both readers hold no more than their caps. -/
def WithinCaps (reads : List (List Byte)) : Prop :=
  ∀ k < reads.length, (heldText reads k).length ≤ maxSseBufferChars ∧
    (Cpp.SseParser.heldBytes reads k).length ≤ Cpp.kMaxBufferBytes

/-- Each of the two readers gives the frames of the whole stream however it is cut into reads, and
overflows at the first read after which its buffer holds more than its cap. Their frames are the same
exactly when the stream does not begin with a byte order mark, or its first frame does not notice it.
The Java reader gives the frames with a field of what the server writes, and there all three agree. -/
theorem sseReaders_agree_iff (reads : List (List Byte)) :
    (((∀ k < reads.length, (heldText reads k).length ≤ maxSseBufferChars) →
        readSSEFrames (fun _ => false) reads
          = { frames := framesOf codeUnits.ascii (streamText reads.flatten), ending := .ended,
              unread := [] }) ∧
      (∀ k < reads.length, (∀ j < k, (heldText reads j).length ≤ maxSseBufferChars) →
        maxSseBufferChars < (heldText reads k).length →
        readSSEFrames (fun _ => false) reads
          = { frames := framesOf codeUnits.ascii (streamText (reads.take k).flatten),
              ending := .overflow, unread := reads.drop (k + 1) }) ∧
      ((∀ k < reads.length, (Cpp.SseParser.heldBytes reads k).length ≤ Cpp.kMaxBufferBytes) →
        ({} : Cpp.SseParser).feedAll reads
          = (List.replicate reads.length .ok, framesOf bytes.ascii reads.flatten)) ∧
      (∀ k < reads.length,
        (∀ j < k, (Cpp.SseParser.heldBytes reads j).length ≤ Cpp.kMaxBufferBytes) →
        Cpp.kMaxBufferBytes < (Cpp.SseParser.heldBytes reads k).length →
        ({} : Cpp.SseParser).feedAll reads
          = (List.replicate k .ok ++ List.replicate (reads.length - k) .overflow,
            framesOf bytes.ascii (reads.take k).flatten))) ∧
    (∀ chars : List Char, reads.flatten = Utf8.encode chars →
      WithinCaps reads →
      (cppFrames reads = (tsFrames reads).map encodeFrame
        ↔ ∀ rest, chars = Utf8.byteOrderMark :: rest → MarkUnnoticed rest)) ∧
    ∀ (blocks : List Block) (maxFrameBytes : ℕ),
      (∀ b ∈ blocks, b.WellFormed) → (∀ b ∈ blocks, b.lineBytes ≤ maxFrameBytes) →
      reads.flatten = Utf8.encode (streamChars blocks) →
      SseReader.readFrames maxFrameBytes reads
          = ((framesOf codeUnits.ascii (streamText reads.flatten)).filter Frame.hasField, false) ∧
        (WithinCaps reads →
          cppFrames reads = (tsFrames reads).map encodeFrame ∧
          (SseReader.readFrames maxFrameBytes reads).1
            = (tsFrames reads).filter Frame.hasField) := by
  have hts : (∀ k < reads.length, (heldText reads k).length ≤ maxSseBufferChars) →
      readSSEFrames (fun _ => false) reads
        = { frames := framesOf codeUnits.ascii (streamText reads.flatten), ending := .ended,
            unread := [] } := by
    intro hcap
    rw [readSSEFrames_within hcap, textsOf_flatten]
  have hagree : ∀ chars : List Char,
      reads.flatten = Utf8.encode chars → WithinCaps reads →
      (cppFrames reads = (tsFrames reads).map encodeFrame
        ↔ ∀ rest, chars = Utf8.byteOrderMark :: rest → MarkUnnoticed rest) := by
    intro chars hreads hcaps
    rw [cppFrames, tsFrames, hts fun k hk => (hcaps k hk).1,
      Cpp.SseParser.feedAll_within fun k hk => (hcaps k hk).2, hreads]
    exact framesOf_agree_iff chars
  refine ⟨⟨hts, fun k hk hcap hover => ?_, Cpp.SseParser.feedAll_within,
    fun k hk hcap hover => Cpp.SseParser.feedAll_over hk hcap hover⟩, hagree, ?_⟩
  · rw [readSSEFrames_over hk hcap hover, textsOf_flatten]
  · intro blocks maxFrameBytes hwell hcap hreads
    have htext : streamText reads.flatten = codeUnits.text (streamChars blocks) := by
      rw [hreads, streamText, Utf8.decodeStream_encode, dropMark_streamChars hwell]
      rfl
    have hstart : SseReader.Before { reads } (Utf8.encode (streamChars blocks)) :=
      Or.inl ⟨rfl, hreads⟩
    have hjava : SseReader.readFrames maxFrameBytes reads
        = ((framesOf codeUnits.ascii (streamText reads.flatten)).filter Frame.hasField, false) := by
      have hframes := SseReader.framesUpTo_blocks hwell hcap hstart
        (show reads.flatten.length < reads.flatten.length + 1 from Nat.lt_succ_self _)
      rw [SseReader.readFrames, hframes, htext, Encoding.framesOf_text,
        ← filter_framesOf_streamChars hwell, List.filter_map]
      have hfield : Frame.hasField ∘ codeUnits.frame = Frame.hasField :=
        funext (hasField_frame codeUnits)
      rw [hfield]
    refine ⟨hjava, fun hcaps => ⟨(hagree _ hreads hcaps).mpr ?_, ?_⟩⟩
    · rintro rest heq
      have hdrop := dropMark_streamChars hwell
      rw [heq, Utf8.dropMark, if_pos rfl] at hdrop
      have hlength := congrArg List.length hdrop
      rw [List.length_cons] at hlength
      omega
    · rw [hjava, tsFrames, hts fun k hk => (hcaps k hk).1]

/-- A frame with an id, in two reads that cut its delimiter. -/
def cutReads : List (List Byte) := [Utf8.encode ['i', 'd', ':', ' ', '7', '\n'], Utf8.encode ['\n']]

def cutBlock : Block := { lines := [(.id ['7'], false)], crlf := false }

lemma wellFormed_cutBlock : ∀ b ∈ [cutBlock], b.WellFormed := by
  intro b hb
  rw [List.mem_singleton] at hb
  subst hb
  refine ⟨by decide, fun l hl => ?_⟩
  obtain rfl := List.mem_singleton.mp hl
  refine ⟨by simp [ServerLine.content, idPrefix], ?_⟩
  rintro value heq
  cases heq
  simp

theorem sseReaders_agree_cutReads :
    readSSEFrames (fun _ => false) cutReads
        = { frames := framesOf codeUnits.ascii (streamText cutReads.flatten), ending := .ended,
            unread := [] } ∧
      cppFrames cutReads = (tsFrames cutReads).map encodeFrame ∧
      (SseReader.readFrames 5 cutReads).1 = (tsFrames cutReads).filter Frame.hasField := by
  have hcaps : WithinCaps cutReads := by unfold WithinCaps; decide
  exact ⟨(sseReaders_agree_iff cutReads).1.1 fun k hk => (hcaps k hk).1,
    ((sseReaders_agree_iff cutReads).2.1 ['i', 'd', ':', ' ', '7', '\n', '\n'] (by decide)
      hcaps).mpr (by rintro rest heq; exact absurd (List.cons_eq_cons.mp heq).1 (by decide)),
    (((sseReaders_agree_iff cutReads).2.2 [cutBlock] 5 wellFormed_cutBlock (by decide)
      (by decide)).2 hcaps).2⟩

/-- A frame after a byte order mark. -/
def markedReads : List (List Byte) :=
  [Utf8.encode ['\uFEFF', 'd', 'a', 't', 'a', ':', ' ', 'x', '\n', '\n']]

theorem byteOrderMark_noticed :
    (∃ chars, markedReads.flatten = Utf8.encode chars) ∧ WithinCaps markedReads ∧
      cppFrames markedReads ≠ (tsFrames markedReads).map encodeFrame := by
  refine ⟨⟨['\uFEFF', 'd', 'a', 't', 'a', ':', ' ', 'x', '\n', '\n'], by decide⟩, ?_, ?_⟩
  · unfold WithinCaps
    decide
  · decide

end Junjo.Sse
