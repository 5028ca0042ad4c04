import Junjo.Core.Encode
import Junjo.Sdk.SseStream

/-!
# The event stream reader of the Java SDK

The reader takes bytes from a blocking stream one by one. A line ends in LF, CRLF or a lone CR: after
a CR, a following LF is skipped.
-/

namespace Junjo.Sse

open Utf8 (Byte)

/-- The reader: the bytes of the last read that are not taken yet, and what further reads give. -/
structure SseReader where
  buf : List Byte := []
  reads : List (List Byte)
  pendingCr : Bool := false
  frameBytes : ℕ := 0

/-- `line.toString(StandardCharsets.UTF_8)` -/
def javaString (bytes : List Byte) : Text :=
  let r := Utf8.Decoder.run {} bytes
  Utf8.utf16 (r.2 ++ r.1.flush)

/-- The next byte, from the buffer or from the next read that gives one. -/
def takeByte : List Byte → List (List Byte) → Option (Byte × List Byte × List (List Byte))
  | b :: buf, reads => some (b, buf, reads)
  | [], [] => none
  | [], chunk :: reads => takeByte chunk reads

inductive LineResult
  | line (bytes : List Byte) (r : SseReader)
  | ended
  | tooLong

inductive FrameResult
  | frame (f : Frame CodeUnit) (r : SseReader)
  | ended
  | tooLong

namespace SseReader

/-- What is left of the stream. -/
def remaining (r : SseReader) : List Byte := r.buf ++ r.reads.flatten

section

variable (maxFrameBytes : ℕ)

/-- The loop of `readLine` with the bytes of the line so far. `fuel` bounds its rounds. -/
def lineFrom : ℕ → SseReader → List Byte → LineResult
  | 0, _, _ => .ended
  | fuel + 1, r, line =>
    match takeByte r.buf r.reads with
    | none => .ended
    | some (b, buf, reads) =>
      if r.pendingCr ∧ b = 0x0A then lineFrom fuel { r with buf, reads, pendingCr := false } line
      else if b = 0x0A then .line line { r with buf, reads, pendingCr := false }
      else if b = 0x0D then .line line { r with buf, reads, pendingCr := true }
      else if maxFrameBytes < r.frameBytes + 1 then .tooLong
      else
        lineFrom fuel { buf, reads, pendingCr := false, frameBytes := r.frameBytes + 1 } (line ++ [b])

def readLine (r : SseReader) : LineResult := lineFrom maxFrameBytes (r.remaining.length + 1) r []

/-- What a line sets in the frame, and whether the frame has a field. -/
def setField (f : Frame CodeUnit × Bool) (line : Text) : Frame CodeUnit × Bool :=
  let field := line.takeWhile (· ≠ colon)
  let value := (line.dropWhile (· ≠ colon)).drop 1
  let value := if value.head? = some 32 then value.drop 1 else value
  if field = text "event" then ({ f.1 with event := some value }, true)
  else if field = text "data" then
    ({ f.1 with data := some (match f.1.data with
        | none => value
        | some data => data ++ 10 :: value) }, true)
  else if field = text "id" then
    -- An id that contains NUL is ignored.
    if 0 ∈ value then f else ({ f.1 with id := some value }, true)
  else f

/-- The loop of `next`. `fuel` bounds the lines it reads. -/
def frameFrom : ℕ → SseReader → Frame CodeUnit × Bool → FrameResult
  | 0, _, _ => .ended
  | fuel + 1, r, f =>
    match r.readLine maxFrameBytes with
    | .ended => .ended
    | .tooLong => .tooLong
    | .line bytes r =>
      let line := javaString bytes
      if line = [] then
        if f.2 then .frame f.1 r else frameFrom fuel { r with frameBytes := 0 } f
      else if line.head? = some colon then frameFrom fuel r f
      else frameFrom fuel r (setField f line)

def next (r : SseReader) : FrameResult :=
  frameFrom maxFrameBytes (r.remaining.length + 1) { r with frameBytes := 0 } ({}, false)

/-- The frames of the calls up to the end of the stream, and whether the cap ended them. `fuel`
bounds the calls. -/
def framesUpTo : ℕ → SseReader → List (Frame CodeUnit) × Bool
  | 0, _ => ([], false)
  | fuel + 1, r =>
    match r.next maxFrameBytes with
    | .ended => ([], false)
    | .tooLong => ([], true)
    | .frame f r =>
      let rest := framesUpTo fuel r
      (f :: rest.1, rest.2)

/-- All frames of a body that arrives in some reads. -/
def readFrames (reads : List (List Byte)) : List (Frame CodeUnit) × Bool :=
  framesUpTo maxFrameBytes (reads.flatten.length + 1) { reads }

end

/-! ### Lines -/

lemma takeByte_nil {buf : List Byte} {reads : List (List Byte)} (h : buf ++ reads.flatten = []) :
    takeByte buf reads = none := by
  induction reads generalizing buf with
  | nil =>
    cases buf with
    | nil => rfl
    | cons b buf => cases h
  | cons chunk reads ih =>
    cases buf with
    | nil => exact ih h
    | cons b buf => cases h

lemma takeByte_cons {b : Byte} {rest buf : List Byte} {reads : List (List Byte)}
    (h : buf ++ reads.flatten = b :: rest) :
    ∃ buf' reads', takeByte buf reads = some (b, buf', reads') ∧ buf' ++ reads'.flatten = rest := by
  induction reads generalizing buf with
  | nil =>
    cases buf with
    | nil => cases h
    | cons b' buf =>
      cases h
      exact ⟨buf, [], rfl, rfl⟩
  | cons chunk reads ih =>
    cases buf with
    | nil => exact ih h
    | cons b' buf =>
      cases h
      exact ⟨buf, chunk :: reads, rfl, rfl⟩

/-- The reader stands before `rest`: at most a pending LF comes first. -/
def Before (r : SseReader) (rest : List Byte) : Prop :=
  r.pendingCr = false ∧ r.remaining = rest ∨ r.pendingCr = true ∧ r.remaining = 0x0A :: rest

/-- The bytes of a line ending. -/
def lineEnding (crlf : Bool) : List Byte := if crlf then [0x0D, 0x0A] else [0x0A]

section

variable {maxFrameBytes : ℕ}

/-- A line is read up to its ending, whatever reads it arrives in. -/
lemma lineFrom_spec {fuel : ℕ} {r : SseReader} {acc line rest : List Byte} {crlf : Bool}
    (hcontent : ∀ b ∈ line, b ≠ 0x0A ∧ b ≠ 0x0D) (hpending : r.pendingCr = false)
    (hremaining : r.remaining = line ++ lineEnding crlf ++ rest)
    (hcap : r.frameBytes + line.length ≤ maxFrameBytes) (hfuel : line.length < fuel) :
    ∃ r', lineFrom maxFrameBytes fuel r acc = .line (acc ++ line) r' ∧ Before r' rest ∧
      r'.frameBytes = r.frameBytes + line.length ∧ r'.remaining.length < r.remaining.length := by
  induction line generalizing fuel r acc with
  | nil =>
    obtain ⟨fuel, rfl⟩ : ∃ n, fuel = n + 1 := ⟨fuel - 1, by omega⟩
    rw [lineFrom, hremaining]
    cases crlf with
    | true =>
      obtain ⟨buf, reads, htake, hrest⟩ := takeByte_cons (b := 0x0D) hremaining
      refine ⟨{ r with buf, reads, pendingCr := true }, ?_, Or.inr ⟨rfl, hrest⟩, rfl, ?_⟩
      · rw [htake, hpending]
        simp
      · rw [remaining, hrest]
        exact Nat.lt_succ_self _
    | false =>
      obtain ⟨buf, reads, htake, hrest⟩ := takeByte_cons (b := 0x0A) hremaining
      refine ⟨{ r with buf, reads, pendingCr := false }, ?_, Or.inl ⟨rfl, hrest⟩, rfl, ?_⟩
      · rw [htake, hpending]
        simp
      · rw [remaining, hrest]
        exact Nat.lt_succ_self _
  | cons b line ih =>
    obtain ⟨fuel, rfl⟩ : ∃ n, fuel = n + 1 := ⟨fuel - 1, by omega⟩
    obtain ⟨hlf, hcr⟩ := hcontent b List.mem_cons_self
    obtain ⟨buf, reads, htake, hrest⟩ := takeByte_cons (b := b) hremaining
    rw [List.length_cons] at hcap hfuel
    obtain ⟨r', hline, hbefore, hbytes, hshorter⟩ := ih
      (r := { buf, reads, pendingCr := false, frameBytes := r.frameBytes + 1 })
      (fun b' hb' => hcontent b' (List.mem_cons_of_mem _ hb')) rfl hrest
      (by dsimp only; omega) (Nat.lt_of_succ_lt_succ hfuel)
    refine ⟨r', ?_, hbefore, ?_, ?_⟩
    · rw [lineFrom, htake]
      dsimp only
      rw [if_neg fun h => hlf h.2, if_neg hlf, if_neg hcr, if_neg (by omega), hline,
        List.append_assoc, List.singleton_append]
    · rw [hbytes, List.length_cons]
      dsimp only
      omega
    · refine hshorter.trans ?_
      rw [hremaining, remaining, hrest]
      exact Nat.lt_succ_self _

lemma readLine_spec {r : SseReader} {line rest : List Byte} {crlf : Bool}
    (hcontent : ∀ b ∈ line, b ≠ 0x0A ∧ b ≠ 0x0D)
    (hbefore : r.Before (line ++ lineEnding crlf ++ rest))
    (hcap : r.frameBytes + line.length ≤ maxFrameBytes) :
    ∃ r', r.readLine maxFrameBytes = .line line r' ∧ Before r' rest ∧
      r'.frameBytes = r.frameBytes + line.length ∧ r'.remaining.length < r.remaining.length := by
  rcases hbefore with ⟨hpending, hremaining⟩ | ⟨hpending, hremaining⟩
  · apply lineFrom_spec hcontent hpending hremaining hcap
    rw [hremaining]
    simp only [List.length_append]
    omega
  · obtain ⟨buf, reads, htake, hrest⟩ := takeByte_cons hremaining
    have hskip : r.readLine maxFrameBytes
        = lineFrom maxFrameBytes r.remaining.length { r with buf, reads, pendingCr := false } [] := by
      rw [readLine, lineFrom, htake]
      dsimp only
      rw [if_pos ⟨hpending, rfl⟩]
    have hfuel : line.length < r.remaining.length := by
      rw [hremaining]
      simp only [List.length_append, List.length_cons]
      omega
    obtain ⟨r', hline, hafter, hbytes, hshorter⟩ := lineFrom_spec
      (r := { r with buf, reads, pendingCr := false }) hcontent rfl hrest hcap hfuel
    refine ⟨r', hskip.trans hline, hafter, hbytes, hshorter.trans ?_⟩
    rw [hremaining, remaining, hrest]
    exact Nat.lt_succ_self _

/-- At the end of the stream there is no line. -/
lemma readLine_end {r : SseReader} (hbefore : r.Before []) :
    r.readLine maxFrameBytes = .ended := by
  rcases hbefore with ⟨-, hremaining⟩ | ⟨hpending, hremaining⟩
  · rw [readLine, lineFrom, takeByte_nil hremaining]
  · obtain ⟨buf, reads, htake, hrest⟩ := takeByte_cons hremaining
    rw [readLine, hremaining, List.length_singleton, lineFrom, htake]
    dsimp only
    rw [if_pos ⟨hpending, rfl⟩, lineFrom, takeByte_nil hrest]

end

end SseReader

/-! ### What the server writes -/

/-- A line of a frame, a heartbeat or a comment. -/
inductive ServerLine
  | comment (t : List Char)
  | event (value : List Char)
  | data (value : List Char)
  | id (value : List Char)
  | retry (value : List Char)

namespace ServerLine

def retryPrefix : List Char := ['r', 'e', 't', 'r', 'y', ':', ' ']

def content : ServerLine → List Char
  | comment t => ':' :: t
  | event value => eventPrefix ++ value
  | data value => dataPrefix ++ value
  | id value => idPrefix ++ value
  | retry value => retryPrefix ++ value

/-- Lines hold no line breaks, and ids no NUL. -/
structure WellFormed (line : ServerLine) : Prop where
  oneLine : ∀ c ∈ line.content, c ≠ '\n' ∧ c ≠ '\r'
  noNul : ∀ value, line = id value → Char.ofNat 0 ∉ value

lemma content_ne_nil (line : ServerLine) : line.content ≠ [] := by
  cases line <;> simp [content, eventPrefix, dataPrefix, idPrefix, retryPrefix]

/-- What a line sets in a frame. -/
def set (f : Frame Char) : ServerLine → Frame Char
  | comment _ => f
  | event value => { f with event := some value }
  | data value => { f with data := some (match f.data with
      | none => value
      | some joined => joined ++ '\n' :: value) }
  | id value => { f with id := some value }
  | retry _ => f

def isComment : ServerLine → Bool
  | comment _ => true
  | _ => false

end ServerLine

def Frame.hasField {α : Type*} (f : Frame α) : Bool := f.event.isSome || f.data.isSome || f.id.isSome

lemma isPrefixOf_append {α : Type*} [DecidableEq α] (p s : List α) :
    p.isPrefixOf? (p ++ s) = some s := by
  induction p with
  | nil => cases s <;> rfl
  | cons c p ih =>
    rw [List.cons_append, List.isPrefixOf?, if_pos (beq_self_eq_true c), ih]

lemma symbols_characters (t : List Char) : symbols characters.ascii t = t := by
  unfold symbols characters
  simp

lemma readField_content (r : Frame Char × Bool) (line : ServerLine) :
    readField characters.ascii r line.content
      = (line.set r.1, r.2 || !line.isComment) := by
  unfold readField
  rw [symbols_characters, symbols_characters, symbols_characters]
  have hcolon : characters.ascii 58 = ':' := rfl
  cases line with
  | comment t =>
    have hhead : (ServerLine.comment t).content.head? = some (characters.ascii 58) := rfl
    rw [if_pos (Or.inl hhead)]
    simp [ServerLine.set, ServerLine.isComment]
  | event value =>
    rw [if_neg (by simp [ServerLine.content, eventPrefix, hcolon])]
    rw [ServerLine.content, isPrefixOf_append]
    simp [ServerLine.set, ServerLine.isComment]
  | data value =>
    have hevent : eventPrefix.isPrefixOf? (dataPrefix ++ value) = none := rfl
    rw [if_neg (by simp [ServerLine.content, dataPrefix, hcolon])]
    rw [ServerLine.content, hevent, isPrefixOf_append]
    simp only [ServerLine.set, ServerLine.isComment, Bool.not_false, Bool.or_true, Prod.mk.injEq,
      Frame.mk.injEq, and_true, true_and, Option.some.injEq]
    cases r.1.data with
    | none => rfl
    | some joined => rfl
  | id value =>
    have hevent : eventPrefix.isPrefixOf? (idPrefix ++ value) = none := rfl
    have hdata : dataPrefix.isPrefixOf? (idPrefix ++ value) = none := rfl
    rw [if_neg (by simp [ServerLine.content, idPrefix, hcolon])]
    rw [ServerLine.content, hevent, hdata, isPrefixOf_append]
    simp [ServerLine.set, ServerLine.isComment]
  | retry value =>
    have hevent : eventPrefix.isPrefixOf? (ServerLine.retryPrefix ++ value) = none := rfl
    have hdata : dataPrefix.isPrefixOf? (ServerLine.retryPrefix ++ value) = none := rfl
    have hid : idPrefix.isPrefixOf? (ServerLine.retryPrefix ++ value) = none := rfl
    rw [if_neg (by simp [ServerLine.content, ServerLine.retryPrefix, hcolon])]
    rw [ServerLine.content, hevent, hdata, hid]
    simp [ServerLine.set, ServerLine.isComment]

/-- The reader splits a line at its first colon and leaves out one space. -/
lemma setField_colon (f : Frame CodeUnit × Bool) {field value : Text} (h : colon ∉ field) :
    SseReader.setField f (field ++ colon :: 32 :: value) =
      if field = text "event" then ({ f.1 with event := some value }, true)
      else if field = text "data" then
        ({ f.1 with data := some (match f.1.data with
            | none => value
            | some data => data ++ 10 :: value) }, true)
      else if field = text "id" then
        if 0 ∈ value then f else ({ f.1 with id := some value }, true)
      else f := by
  have hp : ∀ c ∈ field, decide (c ≠ colon) = true := by
    intro c hc
    rw [decide_eq_true_iff]
    rintro rfl
    exact h hc
  have htake : (field ++ colon :: 32 :: value).takeWhile (· ≠ colon) = field := by
    rw [List.takeWhile_append_of_pos hp]
    simp
  have hdrop : (field ++ colon :: 32 :: value).dropWhile (· ≠ colon) = colon :: 32 :: value := by
    rw [List.dropWhile_append_of_pos hp]
    simp
  unfold SseReader.setField
  rw [htake, hdrop]
  rfl

lemma setField_content {f : Frame Char} {line : ServerLine} (h : line.WellFormed)
    (hcomment : line.isComment = false) :
    SseReader.setField (codeUnits.frame f, f.hasField) (codeUnits.text line.content)
      = (codeUnits.frame (line.set f), (line.set f).hasField) := by
  cases line with
  | comment t => cases hcomment
  | event value =>
    have hsplit : codeUnits.text (ServerLine.event value).content
        = text "event" ++ colon :: 32 :: codeUnits.text value := rfl
    rw [hsplit, setField_colon _ (by decide), if_pos rfl]
    rfl
  | data value =>
    have hsplit : codeUnits.text (ServerLine.data value).content
        = text "data" ++ colon :: 32 :: codeUnits.text value := rfl
    rw [hsplit, setField_colon _ (by decide), if_neg (by decide), if_pos rfl]
    obtain ⟨event, data, id⟩ := f
    cases data with
    | none => simp [ServerLine.set, Frame.hasField, Encoding.frame]
    | some data =>
      have hjoin : codeUnits.text (data ++ '\n' :: value)
          = codeUnits.text data ++ 10 :: codeUnits.text value := by
        rw [Encoding.text_append]
        rfl
      simp [ServerLine.set, Frame.hasField, Encoding.frame, hjoin]
  | id value =>
    have hsplit : codeUnits.text (ServerLine.id value).content
        = text "id" ++ colon :: 32 :: codeUnits.text value := rfl
    have hnul : (0 : CodeUnit) ∉ codeUnits.text value := by
      intro hmem
      obtain ⟨c, hc, hunit⟩ := List.mem_flatMap.mp hmem
      have hc0 : c ≠ characters.ascii 0 := by
        rintro rfl
        exact h.noNul value rfl hc
      exact Encoding.ne_ascii_of_mem_enc (e := codeUnits) (by omega) hc0 hunit rfl
    rw [hsplit, setField_colon _ (by decide), if_neg (by decide), if_neg (by decide), if_pos rfl,
      if_neg hnul]
    simp [ServerLine.set, Frame.hasField, Encoding.frame]
  | retry value =>
    have hsplit : codeUnits.text (ServerLine.retry value).content
        = text "retry" ++ colon :: 32 :: codeUnits.text value := rfl
    rw [hsplit, setField_colon _ (by decide), if_neg (by decide), if_neg (by decide),
      if_neg (by decide)]
    rfl

def endingChars (crlf : Bool) : List Char := if crlf then ['\r', '\n'] else ['\n']

/-- What the server writes at once: some lines and a blank one, each with its line ending. -/
structure Block where
  lines : List (ServerLine × Bool)
  crlf : Bool

namespace Block

def chars (b : Block) : List Char :=
  b.lines.flatMap (fun l => l.1.content ++ endingChars l.2) ++ endingChars b.crlf

structure WellFormed (b : Block) : Prop where
  ne_nil : b.lines ≠ []
  lines : ∀ l ∈ b.lines, l.1.WellFormed

/-- What the lines set. -/
def frame (b : Block) : Frame Char := b.lines.foldl (fun f l => l.1.set f) {}

/-- The bytes of the lines without their endings. -/
def lineBytes (b : Block) : ℕ := (b.lines.map fun l => (Utf8.encode l.1.content).length).sum

end Block

def streamChars (blocks : List Block) : List Char := blocks.flatMap Block.chars

/-! ### Reading it back -/

namespace SseReader

lemma javaString_encode (chars : List Char) :
    javaString (Utf8.encode chars) = codeUnits.text chars := by
  unfold javaString
  rw [Utf8.run_encode]
  exact congrArg Utf8.utf16 (List.append_nil chars)

lemma encode_append (s t : List Char) : Utf8.encode (s ++ t) = Utf8.encode s ++ Utf8.encode t :=
  List.flatMap_append

lemma encode_ending (crlf : Bool) : Utf8.encode (endingChars crlf) = lineEnding crlf := by
  cases crlf <;> decide

/-- The bytes of a character that breaks no line break none. -/
lemma encode_plain {chars : List Char} (h : ∀ c ∈ chars, c ≠ '\n' ∧ c ≠ '\r') :
    ∀ b ∈ Utf8.encode chars, b ≠ 0x0A ∧ b ≠ 0x0D := by
  intro b hb
  obtain ⟨c, hc, hbyte⟩ := List.mem_flatMap.mp hb
  obtain ⟨hlf, hcr⟩ := h c hc
  exact ⟨Encoding.ne_ascii_of_mem_enc (e := bytes) (n := 10) (by omega) hlf hbyte,
    Encoding.ne_ascii_of_mem_enc (e := bytes) (n := 13) (by omega) hcr hbyte⟩

variable {maxFrameBytes : ℕ}

/-- The lines of a block, one after the other. -/
lemma frameFrom_lines {lines : List (ServerLine × Bool)} (hwell : ∀ l ∈ lines, l.1.WellFormed)
    {fuel : ℕ} {r : SseReader} {f : Frame Char} {rest : List Byte}
    (hbefore : r.Before
      (Utf8.encode (lines.flatMap fun l => l.1.content ++ endingChars l.2) ++ rest))
    (hcap : r.frameBytes + (lines.map fun l => (Utf8.encode l.1.content).length).sum
      ≤ maxFrameBytes)
    (hfuel : r.remaining.length < fuel) :
    ∃ fuel' r', frameFrom maxFrameBytes fuel r (codeUnits.frame f, f.hasField)
        = frameFrom maxFrameBytes fuel' r'
          (codeUnits.frame (lines.foldl (fun f l => l.1.set f) f),
            (lines.foldl (fun f l => l.1.set f) f).hasField) ∧
      r'.Before rest ∧ r'.frameBytes ≤ maxFrameBytes ∧
      r'.remaining.length < fuel' ∧ r'.remaining.length ≤ r.remaining.length := by
  induction lines generalizing fuel r f with
  | nil => exact ⟨fuel, r, rfl, hbefore, hcap, hfuel, le_rfl⟩
  | cons l lines ih =>
    obtain ⟨line, crlf⟩ := l
    have hline := hwell _ List.mem_cons_self
    rw [List.flatMap_cons, encode_append, encode_append, encode_ending, List.append_assoc] at hbefore
    rw [List.map_cons, List.sum_cons] at hcap
    have hfits : r.frameBytes + (Utf8.encode line.content).length ≤ maxFrameBytes := by
      dsimp only at hcap
      omega
    obtain ⟨r₁, hread, hafter, hbytes, hshorter⟩ :=
      readLine_spec (encode_plain hline.oneLine) hbefore hfits
    obtain ⟨fuel, rfl⟩ : ∃ n, fuel = n + 1 := ⟨fuel - 1, by omega⟩
    have hcap' : r₁.frameBytes + (lines.map fun l => (Utf8.encode l.1.content).length).sum
        ≤ maxFrameBytes := by
      rw [hbytes]
      exact (Nat.add_assoc _ _ _).trans_le hcap
    obtain ⟨fuel', r', hrun, hrest⟩ := ih (fun l hl => hwell l (List.mem_cons_of_mem _ hl))
      (f := line.set f) hafter hcap' (show r₁.remaining.length < fuel by omega)
    refine ⟨fuel', r', ?_, hrest.1, hrest.2.1, hrest.2.2.1, hrest.2.2.2.trans hshorter.le⟩
    rw [List.foldl_cons, ← hrun, frameFrom, hread]
    dsimp only
    rw [javaString_encode, if_neg (mt (Encoding.text_eq_nil codeUnits).mp line.content_ne_nil)]
    cases hcomment : line.isComment with
    | true =>
      cases line with
      | comment t => rfl
      | _ => cases hcomment
    | false =>
      have hhead : (codeUnits.text line.content).head? ≠ some colon := by
        cases line with
        | comment t => cases hcomment
        | _ => exact ne_of_beq_false rfl
      rw [if_neg hhead, setField_content hline hcomment]

lemma eq_empty_of_hasField {f : Frame Char} (h : f.hasField = false) : f = {} := by
  obtain ⟨event, data, id⟩ := f
  cases event <;> cases data <;> cases id <;> first | rfl | cases h

/-- The next frame is that of the first block that sets a field. -/
lemma frameFrom_blocks {blocks : List Block} (hwell : ∀ b ∈ blocks, b.WellFormed)
    (hcap : ∀ b ∈ blocks, b.lineBytes ≤ maxFrameBytes) {fuel : ℕ} {r : SseReader}
    (hbefore : r.Before (Utf8.encode (streamChars blocks))) (hbytes : r.frameBytes = 0)
    (hfuel : r.remaining.length < fuel) :
    (frameFrom maxFrameBytes fuel r ({}, false) = .ended ∧
        ∀ b ∈ blocks, b.frame.hasField = false) ∨
      ∃ skipped b rest r', blocks = skipped ++ b :: rest ∧
        (∀ b ∈ skipped, b.frame.hasField = false) ∧ b.frame.hasField = true ∧
        frameFrom maxFrameBytes fuel r ({}, false) = .frame (codeUnits.frame b.frame) r' ∧
        r'.Before (Utf8.encode (streamChars rest)) ∧
        r'.remaining.length < r.remaining.length := by
  induction blocks generalizing fuel r with
  | nil =>
    obtain ⟨fuel, rfl⟩ : ∃ n, fuel = n + 1 := ⟨fuel - 1, by omega⟩
    refine Or.inl ⟨?_, fun b hb => absurd hb List.not_mem_nil⟩
    rw [frameFrom, readLine_end hbefore]
  | cons b blocks ih =>
    have hb := hwell b List.mem_cons_self
    have hbcap := hcap b List.mem_cons_self
    have hsplit : Utf8.encode (streamChars (b :: blocks))
        = Utf8.encode (b.lines.flatMap fun l => l.1.content ++ endingChars l.2)
          ++ (lineEnding b.crlf ++ Utf8.encode (streamChars blocks)) := by
      rw [streamChars, List.flatMap_cons, encode_append, Block.chars, encode_append, encode_ending,
        List.append_assoc]
      rfl
    rw [hsplit] at hbefore
    have hfits : r.frameBytes + (b.lines.map fun l => (Utf8.encode l.1.content).length).sum
        ≤ maxFrameBytes := by
      rwa [hbytes, Nat.zero_add]
    obtain ⟨fuel', r₁, hrun, hafter, hbytes₁, hfuel', hle⟩ :=
      frameFrom_lines hb.lines (f := {}) hbefore hfits hfuel
    obtain ⟨fuel', rfl⟩ : ∃ n, fuel' = n + 1 := ⟨fuel' - 1, by omega⟩
    have hblankLine : r₁.Before ([] ++ lineEnding b.crlf ++ Utf8.encode (streamChars blocks)) :=
      hafter
    obtain ⟨r₂, hread, hafter₂, -, hshorter⟩ :=
      readLine_spec (fun b hb => absurd hb List.not_mem_nil) hblankLine hbytes₁
    have hblank : frameFrom maxFrameBytes fuel r ({}, false)
        = if b.frame.hasField then .frame (codeUnits.frame b.frame) r₂
          else frameFrom maxFrameBytes fuel' { r₂ with frameBytes := 0 }
            (codeUnits.frame b.frame, b.frame.hasField) := by
      refine hrun.trans ?_
      rw [frameFrom, hread]
      rfl
    cases hfield : b.frame.hasField with
    | true =>
      refine Or.inr ⟨[], b, blocks, r₂, rfl, fun b hb => absurd hb List.not_mem_nil, hfield, ?_,
        hafter₂, by omega⟩
      rw [hblank, if_pos hfield]
    | false =>
      rw [hblank, hfield, if_neg Bool.false_ne_true, eq_empty_of_hasField hfield]
      have hnext := ih (fun b hb => hwell b (List.mem_cons_of_mem _ hb))
        (fun b hb => hcap b (List.mem_cons_of_mem _ hb))
        (r := { r₂ with frameBytes := 0 }) hafter₂ rfl (show r₂.remaining.length < fuel' by omega)
      rcases hnext with ⟨hended, hnone⟩ | ⟨skipped, b', rest, r', rfl, hskip, hb', hframe, hbefore', hlt⟩
      · refine Or.inl ⟨hended, ?_⟩
        rintro b' (_ | ⟨_, hb'⟩)
        · exact hfield
        · exact hnone b' hb'
      · refine Or.inr ⟨b :: skipped, b', rest, r', rfl, ?_, hb', hframe, hbefore', ?_⟩
        · rintro b'' (_ | ⟨_, hb''⟩)
          · exact hfield
          · exact hskip b'' hb''
        · have hr₂ : (SseReader.mk r₂.buf r₂.reads r₂.pendingCr 0).remaining.length
              = r₂.remaining.length := rfl
          omega

end SseReader

end Junjo.Sse
