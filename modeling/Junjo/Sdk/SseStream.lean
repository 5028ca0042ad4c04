import Junjo.Core.Callbacks
import Junjo.Sdk.SseFrames

/-!
# The event stream reader of the TypeScript SDK

The text of each read is appended to a buffer, and every complete frame of the buffer is delivered.
-/

namespace Junjo.Sse

open Utf8 (Byte TextDecoder)

/-- The cap on what the buffer holds, in code units. -/
def maxSseBufferChars : ℕ := 1024 * 1024

abbrev ParsedSSEFrame := Frame CodeUnit

def parseSSEFrame (block : Text) : Option ParsedSSEFrame := parseBlock codeUnits.ascii block

/-- How reading ended: the server ended the body, the consumer closed, or a frame passed the cap. -/
inductive StreamEnd
  | ended
  | closed
  | overflow
deriving DecidableEq

/-- The frames handed over, how reading ended, and the reads that were not made. -/
structure StreamRun where
  frames : List ParsedSSEFrame
  ending : StreamEnd
  unread : List (List Byte)
deriving DecidableEq

section

variable (isClosed : List ParsedSSEFrame → Bool)

/-- The loop over the complete frames of the buffer. The consumer may close at any frame. `fuel`
bounds their number. -/
def deliverFrames : ℕ → Text → List ParsedSSEFrame → Text × List ParsedSSEFrame × Bool
  | 0, buffer, frames => (buffer, frames, false)
  | fuel + 1, buffer, frames =>
    match cutFrame codeUnits.ascii buffer with
    | none => (buffer, frames, false)
    | some (block, rest) =>
      let frames := frames ++ (parseSSEFrame block).toList
      if isClosed frames then (rest, frames, true) else deliverFrames fuel rest frames

def readFrom : List (List Byte) → TextDecoder → Text → List ParsedSSEFrame → StreamRun
  | reads, decoder, buffer, frames =>
    if isClosed frames then { frames, ending := .closed, unread := reads }
    else
      match reads with
      | [] => { frames, ending := .ended, unread := [] }
      | value :: reads =>
        let r := decoder.decodeStream value
        let buffer := buffer ++ r.2
        if maxSseBufferChars < buffer.length then { frames, ending := .overflow, unread := reads }
        else
          let d := deliverFrames isClosed buffer.length buffer frames
          if d.2.2 then { frames := d.2.1, ending := .closed, unread := reads }
          else readFrom reads r.1 d.1 d.2.1

/-- `readSSEFrames` over the reads of a body. -/
def readSSEFrames (reads : List (List Byte)) : StreamRun := readFrom isClosed reads {} [] []

end

/-! ### A consumer that does not close -/

/-- The texts of the reads of a body. -/
def textsOf (reads : List (List Byte)) : List Text := (({} : TextDecoder).decodeReads reads).2

lemma deliverFrames_open (fuel : ℕ) (buffer : Text) (frames : List ParsedSSEFrame) :
    deliverFrames (fun _ => false) fuel buffer frames
      = ((Framing.drainUpTo (cutFrame codeUnits.ascii) fuel buffer).2,
        frames ++ (Framing.drainUpTo (cutFrame codeUnits.ascii) fuel buffer).1.filterMap parseSSEFrame,
        false) := by
  induction fuel generalizing buffer frames with
  | zero => simp [deliverFrames, Framing.drainUpTo]
  | succ fuel ih =>
    rw [deliverFrames, Framing.drainUpTo]
    cases hcut : cutFrame codeUnits.ascii buffer with
    | none => simp
    | some p =>
      dsimp only
      rw [if_neg Bool.false_ne_true, ih]
      cases hparse : parseSSEFrame p.1 <;> simp [hparse]

lemma readFrom_open (reads : List (List Byte)) (decoder : TextDecoder) (buffer : Text)
    (frames : List ParsedSSEFrame) :
    readFrom (fun _ => false) reads decoder buffer frames =
      let r := Framing.readAll (cutFrame codeUnits.ascii) maxSseBufferChars buffer
        (decoder.decodeReads reads).2
      { frames := frames ++ r.1.filterMap parseSSEFrame
        ending := if r.2.isSome then .overflow else .ended
        unread := match r.2 with
          | none => []
          | some k => reads.drop (k + 1) } := by
  induction reads generalizing decoder buffer frames with
  | nil => simp [readFrom, TextDecoder.decodeReads, Framing.readAll]
  | cons value reads ih =>
    rw [readFrom, TextDecoder.decodeReads, Framing.readAll]
    dsimp only
    rw [if_neg Bool.false_ne_true]
    by_cases hcap : maxSseBufferChars < (buffer ++ (decoder.decodeStream value).2).length
    · rw [if_pos hcap, if_pos hcap]
      simp
    · rw [if_neg hcap, if_neg hcap, deliverFrames_open]
      dsimp only
      rw [if_neg Bool.false_ne_true, ih]
      dsimp only
      rw [Framing.drain]
      cases (Framing.readAll (cutFrame codeUnits.ascii) maxSseBufferChars
        (Framing.drainUpTo (cutFrame codeUnits.ascii)
          (buffer ++ (decoder.decodeStream value).2).length
          (buffer ++ (decoder.decodeStream value).2)).2
        ((decoder.decodeStream value).1.decodeReads reads).2).2 with
      | none => simp
      | some k => simp

/-- What the buffer holds after a read, before its frames are delivered. -/
def heldText (reads : List (List Byte)) (k : ℕ) : Text :=
  Framing.held (cutFrame codeUnits.ascii) [] (textsOf reads) k

/-- Reads that stay within the cap give the frames of the whole text. -/
lemma readSSEFrames_within {reads : List (List Byte)}
    (hcap : ∀ k < reads.length, (heldText reads k).length ≤ maxSseBufferChars) :
    readSSEFrames (fun _ => false) reads
      = { frames := framesOf codeUnits.ascii (textsOf reads).flatten, ending := .ended,
          unread := [] } := by
  rw [readSSEFrames, readFrom_open]
  have hall : Framing.readAll (cutFrame codeUnits.ascii) maxSseBufferChars []
      (({} : TextDecoder).decodeReads reads).2
      = ((Framing.drain (cutFrame codeUnits.ascii) ([] ++ (textsOf reads).flatten)).1, none) :=
    Framing.readAll_within (Encoding.stable codeUnits) rfl (by rwa [Utf8.decodeReads_length])
  dsimp only
  rw [hall]
  rfl

/-- The first read after which the buffer holds more than the cap ends the reading with the frames
of the reads before it. -/
lemma readSSEFrames_over {reads : List (List Byte)} {k : ℕ} (hk : k < reads.length)
    (hcap : ∀ j < k, (heldText reads j).length ≤ maxSseBufferChars)
    (hover : maxSseBufferChars < (heldText reads k).length) :
    readSSEFrames (fun _ => false) reads
      = { frames := framesOf codeUnits.ascii (textsOf (reads.take k)).flatten, ending := .overflow,
          unread := reads.drop (k + 1) } := by
  rw [readSSEFrames, readFrom_open]
  have hall : Framing.readAll (cutFrame codeUnits.ascii) maxSseBufferChars []
      (({} : TextDecoder).decodeReads reads).2
      = ((Framing.drain (cutFrame codeUnits.ascii) ([] ++ ((textsOf reads).take k).flatten)).1,
        some k) :=
    Framing.readAll_over (Encoding.stable codeUnits) rfl (by rwa [Utf8.decodeReads_length]) hcap
      hover
  dsimp only
  rw [hall, textsOf, textsOf, Utf8.decodeReads_take]
  rfl

/-! ### A consumer that closes -/

section

open Callbacks (takeUpTo takeUpTo_append takeUpTo_of_closed)

variable {isClosed : List ParsedSSEFrame → Bool}

lemma takeUpTo_toList {frames : List ParsedSSEFrame} (h : isClosed frames = false)
    (f : Option ParsedSSEFrame) : takeUpTo isClosed frames f.toList = frames ++ f.toList := by
  cases f with
  | none => simp [takeUpTo]
  | some f => simp [takeUpTo, h]

lemma deliverFrames_closing (fuel : ℕ) (buffer : Text) {frames : List ParsedSSEFrame}
    (hopen : isClosed frames = false) :
    (deliverFrames isClosed fuel buffer frames).2
        = (takeUpTo isClosed frames
            ((Framing.drainUpTo (cutFrame codeUnits.ascii) fuel buffer).1.filterMap parseSSEFrame),
          isClosed (takeUpTo isClosed frames
            ((Framing.drainUpTo (cutFrame codeUnits.ascii) fuel buffer).1.filterMap parseSSEFrame))) ∧
      (isClosed (takeUpTo isClosed frames
          ((Framing.drainUpTo (cutFrame codeUnits.ascii) fuel buffer).1.filterMap parseSSEFrame))
          = false →
        (deliverFrames isClosed fuel buffer frames).1
          = (Framing.drainUpTo (cutFrame codeUnits.ascii) fuel buffer).2) := by
  induction fuel generalizing buffer frames with
  | zero => simp [deliverFrames, Framing.drainUpTo, takeUpTo, hopen]
  | succ fuel ih =>
    rw [deliverFrames, Framing.drainUpTo]
    cases hcut : cutFrame codeUnits.ascii buffer with
    | none => simp [takeUpTo, hopen]
    | some p =>
      have hcons : ∀ blocks : List Text, (p.1 :: blocks).filterMap parseSSEFrame
          = (parseSSEFrame p.1).toList ++ blocks.filterMap parseSSEFrame := by
        intro blocks
        cases hparse : parseSSEFrame p.1 <;> simp [hparse]
      dsimp only
      rw [hcons, takeUpTo_append, takeUpTo_toList hopen]
      split_ifs with hclosed
      · rw [takeUpTo_of_closed hclosed]
        simp [hclosed]
      · exact ih _ (Bool.not_eq_true _ ▸ hclosed)

/-- Reads under the cap, up to the frame at which the consumer closes. -/
lemma readFrom_closing (reads : List (List Byte)) (decoder : TextDecoder) (buffer : Text)
    (frames : List ParsedSSEFrame)
    (hwithin : (Framing.readAll (cutFrame codeUnits.ascii) maxSseBufferChars buffer
      (decoder.decodeReads reads).2).2 = none) :
    (readFrom isClosed reads decoder buffer frames).frames
        = takeUpTo isClosed frames ((Framing.readAll (cutFrame codeUnits.ascii) maxSseBufferChars
            buffer (decoder.decodeReads reads).2).1.filterMap parseSSEFrame) ∧
      (readFrom isClosed reads decoder buffer frames).ending
        = if isClosed (takeUpTo isClosed frames ((Framing.readAll (cutFrame codeUnits.ascii)
            maxSseBufferChars buffer (decoder.decodeReads reads).2).1.filterMap parseSSEFrame))
          then .closed else .ended := by
  induction reads generalizing decoder buffer frames with
  | nil =>
    rw [TextDecoder.decodeReads, Framing.readAll, readFrom]
    dsimp only
    rw [List.filterMap_nil, takeUpTo]
    split_ifs <;> exact ⟨rfl, rfl⟩
  | cons value reads ih =>
    rw [TextDecoder.decodeReads, Framing.readAll] at hwithin ⊢
    dsimp only at hwithin ⊢
    by_cases hcap : maxSseBufferChars < (buffer ++ (decoder.decodeStream value).2).length
    · rw [if_pos hcap] at hwithin
      cases hwithin
    · rw [if_neg hcap] at hwithin ⊢
      dsimp only at hwithin ⊢
      rw [Framing.drain] at hwithin ⊢
      rw [readFrom]
      by_cases hclosed : isClosed frames = true
      · rw [if_pos hclosed, takeUpTo_of_closed hclosed, if_pos hclosed]
        exact ⟨rfl, rfl⟩
      · obtain ⟨hdelivered, hrest⟩ := deliverFrames_closing
          (buffer ++ (decoder.decodeStream value).2).length
          (buffer ++ (decoder.decodeStream value).2) (Bool.not_eq_true _ ▸ hclosed)
        rw [if_neg hclosed]
        dsimp only
        rw [if_neg hcap, hdelivered, List.filterMap_append, takeUpTo_append]
        dsimp only
        cases hstop : isClosed (takeUpTo isClosed frames
          ((Framing.drainUpTo (cutFrame codeUnits.ascii)
            (buffer ++ (decoder.decodeStream value).2).length
            (buffer ++ (decoder.decodeStream value).2)).1.filterMap parseSSEFrame)) with
        | true =>
          rw [if_pos rfl, takeUpTo_of_closed hstop, hstop]
          exact ⟨rfl, rfl⟩
        | false =>
          rw [hrest hstop, if_neg Bool.false_ne_true]
          exact ih _ _ _ (Option.map_eq_none_iff.mp hwithin)

/-- Reads that stay within the cap give the frames of the whole text, up to the one at which the
consumer closes. -/
lemma readSSEFrames_closing (isClosed : List ParsedSSEFrame → Bool) {reads : List (List Byte)}
    (hcap : ∀ k < reads.length, (heldText reads k).length ≤ maxSseBufferChars) :
    (readSSEFrames isClosed reads).frames
        = takeUpTo isClosed [] (framesOf codeUnits.ascii (textsOf reads).flatten) ∧
      (readSSEFrames isClosed reads).ending
        = if isClosed (takeUpTo isClosed [] (framesOf codeUnits.ascii (textsOf reads).flatten))
          then .closed else .ended := by
  have hall : Framing.readAll (cutFrame codeUnits.ascii) maxSseBufferChars []
      (({} : TextDecoder).decodeReads reads).2
      = ((Framing.drain (cutFrame codeUnits.ascii) ([] ++ (textsOf reads).flatten)).1, none) :=
    Framing.readAll_within (Encoding.stable codeUnits) rfl (by rwa [Utf8.decodeReads_length])
  have hread : _ ∧ (readFrom isClosed reads {} [] []).ending = _ :=
    readFrom_closing reads {} [] [] (by rw [hall])
  rw [hall] at hread
  exact hread

end

end Junjo.Sse
