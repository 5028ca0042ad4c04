import Junjo.Sdk.SseFrames

/-!
# The event stream parser of the C++ SDK

The parser keeps a buffer of bytes and the position from which it still has to look for a delimiter.
-/

namespace Junjo.Cpp

open Utf8 (Byte)
open Sse (bytes)

abbrev SseFrame := Sse.Frame Byte

def kMaxBufferBytes : ℕ := 1024 * 1024

def isCr (buffer : List Byte) (i : ℕ) : Bool := buffer[i]? == some 0x0D

def isLf (buffer : List Byte) (i : ℕ) : Bool := buffer[i]? == some 0x0A

/-- The end of a delimiter that begins at `i`, or zero. -/
def matchDelimiterAt (buffer : List Byte) (i : ℕ) : ℕ :=
  let second := fun j =>
    if isCr buffer j && isLf buffer (j + 1) then j + 2
    else if isLf buffer j then j + 1
    else 0
  if isCr buffer i then if isLf buffer (i + 1) then second (i + 2) else 0
  else if isLf buffer i then second (i + 1)
  else 0

def parseSseFrame (block : List Byte) : Option SseFrame := Sse.parseBlock bytes.ascii block

/-! ### The parser -/

inductive FeedStatus
  | ok
  | overflow
deriving DecidableEq

structure SseParser where
  buffer : List Byte := []
  scanFrom : ℕ := 0
  overflowed : Bool := false
deriving DecidableEq

namespace SseParser

/-- The loop over the buffer from a position: the buffer that is left and its frames. `fuel` bounds
its rounds. -/
def extract : ℕ → List Byte → ℕ → List Byte × List SseFrame
  | 0, buffer, _ => (buffer, [])
  | fuel + 1, buffer, search =>
    if search < buffer.length then
      let stop := matchDelimiterAt buffer search
      if stop = 0 then extract fuel buffer (search + 1)
      else
        let r := extract fuel (buffer.drop stop) 0
        (r.1, (parseSseFrame (buffer.take search)).toList ++ r.2)
    else (buffer, [])

/-- One call of `feed`: the parser after it, its status and the frames it appends. -/
def feed (p : SseParser) (chunk : List Byte) : SseParser × FeedStatus × List SseFrame :=
  if p.overflowed then (p, .overflow, [])
  else
    let buffer := p.buffer ++ chunk
    if kMaxBufferBytes < buffer.length then
      ({ buffer := [], scanFrom := p.scanFrom, overflowed := true }, .overflow, [])
    else
      let r := extract ((buffer.length + 1) * (buffer.length + 1)) buffer p.scanFrom
      ({ buffer := r.1, scanFrom := if 3 ≤ r.1.length then r.1.length - 3 else 0,
         overflowed := false }, .ok, r.2)

/-- The statuses of some calls, one after the other, and all their frames. -/
def feedAll : SseParser → List (List Byte) → List FeedStatus × List SseFrame
  | _, [] => ([], [])
  | p, chunk :: chunks =>
    let r := p.feed chunk
    let rest := feedAll r.1 chunks
    (r.2.1 :: rest.1, r.2.2 ++ rest.2)

end SseParser

/-! ### Delimiters -/

lemma lineEnd_drop (buffer : List Byte) (j : ℕ) :
    Sse.lineEnd bytes.ascii (buffer.drop j) =
      if isCr buffer j && isLf buffer (j + 1) then some (buffer.drop (j + 2))
      else if isLf buffer j then some (buffer.drop (j + 1))
      else none := by
  have hget : ∀ i, buffer[j + i]? = (buffer.drop j)[i]? := fun i => List.getElem?_drop.symm
  have hdrop : ∀ i, buffer.drop (j + i) = (buffer.drop j).drop i := fun i => List.drop_drop.symm
  have h₀ := hget 0
  have hcrlf : (0x0D : Byte) ≠ bytes.ascii 10 := by decide
  rw [Nat.add_zero] at h₀
  unfold isCr isLf
  rw [hget 1, hdrop 1, hdrop 2, h₀]
  cases buffer.drop j with
  | nil => rfl
  | cons c s =>
    unfold Sse.lineEnd
    dsimp only
    by_cases hlf : c = bytes.ascii 10
    · subst hlf
      rfl
    by_cases hcr : c = bytes.ascii 13
    · subst hcr
      cases s with
      | nil => rfl
      | cons d s =>
        by_cases hd : d = bytes.ascii 10
        · subst hd
          rfl
        · have hd' : d ≠ 10#8 := hd
          simp [hd, hd', show bytes.ascii 13 ≠ bytes.ascii 10 by decide,
            show bytes.ascii 13 ≠ 10#8 by decide]
    · have hlf' : c ≠ 10#8 := hlf
      have hcr' : c ≠ 13#8 := hcr
      simp [hlf, hcr, hlf', hcr']

/-- The parser finds the delimiters of the framing rules. -/
lemma matchDelimiterAt_eq (buffer : List Byte) (i : ℕ) :
    Sse.delimiter bytes.ascii (buffer.drop i) =
      if matchDelimiterAt buffer i = 0 then none
      else some (buffer.drop (matchDelimiterAt buffer i)) := by
  have hfirst : isCr buffer i = true → isLf buffer i = false := by
    unfold isCr isLf
    intro h
    rw [beq_iff_eq.mp h]
    decide
  unfold Sse.delimiter matchDelimiterAt
  rw [lineEnd_drop]
  dsimp only
  cases hcr : isCr buffer i with
  | true =>
    rw [hfirst hcr]
    cases isLf buffer (i + 1) with
    | true =>
      simp only [Bool.and_self, if_true, Option.bind_some, lineEnd_drop]
      split_ifs <;> first | rfl | omega
    | false => simp
  | false =>
    cases isLf buffer i with
    | true =>
      simp only [Bool.false_and, Bool.false_eq_true, if_false, if_true, Option.bind_some,
        lineEnd_drop]
      split_ifs <;> first | rfl | omega
    | false => simp

/-! ### Scans -/

/-- Where no earlier position holds a delimiter, a position that does ends the first block. -/
lemma cutFrame_of_first {buffer rest : List Byte} {i : ℕ}
    (hnone : ∀ j < i, Sse.delimiter bytes.ascii (buffer.drop j) = none)
    (h : Sse.delimiter bytes.ascii (buffer.drop i) = some rest) :
    Sse.cutFrame bytes.ascii buffer = some (buffer.take i, rest) := by
  induction i generalizing buffer with
  | zero =>
    cases buffer with
    | nil => cases h
    | cons c s =>
      rw [List.drop_zero] at h
      rw [Sse.cutFrame, h]
      rfl
  | succ i ih =>
    cases buffer with
    | nil =>
      rw [List.drop_nil] at h
      cases h
    | cons c s =>
      rw [Sse.cutFrame_cons_of_none (hnone 0 (Nat.succ_pos i)),
        ih (fun j hj => hnone (j + 1) (Nat.succ_lt_succ hj)) h]
      rfl

lemma cutFrame_of_none {buffer : List Byte}
    (hnone : ∀ j < buffer.length, Sse.delimiter bytes.ascii (buffer.drop j) = none) :
    Sse.cutFrame bytes.ascii buffer = none := by
  induction buffer with
  | nil => rfl
  | cons c s ih =>
    rw [Sse.cutFrame_cons_of_none (hnone 0 (Nat.succ_pos _)),
      ih fun j hj => hnone (j + 1) (Nat.succ_lt_succ hj)]
    rfl

lemma delimiter_drop_of_none {buffer : List Byte} (h : Sse.cutFrame bytes.ascii buffer = none)
    (j : ℕ) : Sse.delimiter bytes.ascii (buffer.drop j) = none := by
  induction buffer generalizing j with
  | nil => rw [List.drop_nil]; rfl
  | cons c s ih =>
    rw [Sse.cutFrame] at h
    cases hdelim : Sse.delimiter bytes.ascii (c :: s) with
    | some rest =>
      rw [hdelim] at h
      cases h
    | none =>
      rw [hdelim] at h
      cases j with
      | zero => exact hdelim
      | succ j => exact ih (Option.map_eq_none_iff.mp h) j

/-- With enough rounds, the loop takes off the frames of the buffer. -/
lemma extract_eq {fuel search : ℕ} {buffer : List Byte}
    (hfuel : (buffer.length + 1) * buffer.length + (buffer.length - search) < fuel)
    (hnone : ∀ j < search, Sse.delimiter bytes.ascii (buffer.drop j) = none) :
    SseParser.extract fuel buffer search
      = ((Framing.drain (Sse.cutFrame bytes.ascii) buffer).2,
        (Framing.drain (Sse.cutFrame bytes.ascii) buffer).1.filterMap parseSseFrame) := by
  induction fuel generalizing search buffer with
  | zero => omega
  | succ fuel ih =>
    rw [SseParser.extract]
    dsimp only
    have hmatch := matchDelimiterAt_eq buffer search
    split_ifs with hsearch hstop
    · rw [if_pos hstop] at hmatch
      apply ih (by omega)
      intro j hj
      rcases Nat.lt_succ_iff_lt_or_eq.mp hj with hj | rfl
      · exact hnone j hj
      · exact hmatch
    · rw [if_neg hstop] at hmatch
      have hcut := cutFrame_of_first hnone hmatch
      have hshorter := (Sse.Encoding.stable bytes).shorter hcut
      have hrounds : ((buffer.drop (matchDelimiterAt buffer search)).length + 1)
          * (buffer.drop (matchDelimiterAt buffer search)).length
          + ((buffer.drop (matchDelimiterAt buffer search)).length - 0) < fuel := by
        generalize (buffer.drop (matchDelimiterAt buffer search)).length = m at hshorter
        have hsquare : (m + 1) * (m + 1) ≤ buffer.length * buffer.length :=
          Nat.mul_le_mul hshorter hshorter
        have hone : 1 ≤ buffer.length - search := by omega
        rw [Nat.sub_zero]
        nlinarith
      rw [ih hrounds (fun j hj => absurd hj (Nat.not_lt_zero j)),
        Framing.drain_of_some (Sse.Encoding.stable bytes) hcut]
      cases hparse : parseSseFrame (buffer.take search) <;> simp [hparse]
    · have hcut : Sse.cutFrame bytes.ascii buffer = none :=
        cutFrame_of_none fun j hj => hnone j (by omega)
      rw [Framing.drain_of_none hcut]
      rfl

/-! ### Calls -/

namespace SseParser

/-- What a parser that has not overflowed keeps: a buffer without a delimiter, and a position before
which none can begin, whatever follows. -/
structure Ready (p : SseParser) : Prop where
  notOverflowed : p.overflowed = false
  drained : Sse.cutFrame bytes.ascii p.buffer = none
  scanned : ∀ chunk, ∀ j < p.scanFrom,
    Sse.delimiter bytes.ascii ((p.buffer ++ chunk).drop j) = none

lemma ready_new : Ready {} :=
  ⟨rfl, rfl, fun _ j hj => absurd hj (Nat.not_lt_zero j)⟩

/-- A delimiter is at most four bytes long. -/
lemma delimiter_append_of_four {s t : List Byte} (hlength : 4 ≤ s.length)
    (h : Sse.delimiter bytes.ascii s = none) : Sse.delimiter bytes.ascii (s ++ t) = none := by
  cases hmore : Sse.delimiter bytes.ascii (s ++ t) with
  | none => rfl
  | some rest =>
    obtain ⟨mid, hmid, hrest⟩ := Option.bind_eq_some_iff.mp hmore
    cases hfirst : Sse.lineEnd bytes.ascii s with
    | none =>
      rcases Sse.lineEnd_eq_none_of_append hmid hfirst with rfl | rfl <;> simp at hlength
    | some mid' =>
      rw [Sse.lineEnd_append t hfirst] at hmid
      cases hmid
      have hlong : s.length ≤ mid'.length + 2 := by
        unfold Sse.lineEnd at hfirst
        cases s with
        | nil => cases hfirst
        | cons c s =>
          dsimp only at hfirst
          split_ifs at hfirst
          · cases hfirst
            simp
          · cases s with
            | nil => cases hfirst
            | cons d s =>
              dsimp only at hfirst
              split_ifs at hfirst
              cases hfirst
              simp
      cases hsecond : Sse.lineEnd bytes.ascii mid' with
      | some rest' =>
        rw [Sse.delimiter, hfirst, Option.bind_some, hsecond] at h
        cases h
      | none =>
        rcases Sse.lineEnd_eq_none_of_append hrest hsecond with rfl | rfl <;>
          simp only [List.length_nil, List.length_singleton] at hlong <;> omega

variable {p : SseParser} {chunk : List Byte}

/-- A call that stays within the cap appends the frames of the buffer and the chunk. -/
lemma Ready.feed (h : Ready p) (hcap : (p.buffer ++ chunk).length ≤ kMaxBufferBytes) :
    ∃ p', p.feed chunk = (p', .ok,
        (Framing.drain (Sse.cutFrame bytes.ascii) (p.buffer ++ chunk)).1.filterMap parseSseFrame) ∧
      Ready p' ∧ p'.buffer = (Framing.drain (Sse.cutFrame bytes.ascii) (p.buffer ++ chunk)).2 := by
  have hfuel : ((p.buffer ++ chunk).length + 1) * (p.buffer ++ chunk).length
      + ((p.buffer ++ chunk).length - p.scanFrom)
      < ((p.buffer ++ chunk).length + 1) * ((p.buffer ++ chunk).length + 1) := by
    rw [Nat.mul_succ]
    omega
  have hextract := extract_eq hfuel (h.scanned chunk)
  have hdrained := Framing.cut_drain (Sse.Encoding.stable bytes) (p.buffer ++ chunk)
  rw [SseParser.feed, if_neg (by rw [h.notOverflowed]; exact Bool.false_ne_true)]
  dsimp only
  rw [if_neg (not_lt.mpr hcap), hextract]
  refine ⟨_, rfl, ⟨rfl, hdrained, fun more j hj => ?_⟩, rfl⟩
  dsimp only at hj ⊢
  have hj' : j + 3 < (Framing.drain (Sse.cutFrame bytes.ascii) (p.buffer ++ chunk)).2.length := by
    split_ifs at hj <;> omega
  rw [List.drop_append_of_le_length (by omega)]
  apply delimiter_append_of_four
  · rw [List.length_drop]
    omega
  · exact delimiter_drop_of_none hdrained j

lemma feed_overflowed (h : p.overflowed = true) (chunk : List Byte) :
    p.feed chunk = (p, .overflow, []) := by
  rw [SseParser.feed, if_pos h]

lemma feedAll_overflowed (h : p.overflowed = true) (chunks : List (List Byte)) :
    p.feedAll chunks = (List.replicate chunks.length .overflow, []) := by
  induction chunks with
  | nil => rfl
  | cons chunk chunks ih =>
    rw [feedAll, feed_overflowed h, ih]
    rfl

/-- The calls of a stream, by its reads under the cap. -/
lemma Ready.feedAll (h : Ready p) (chunks : List (List Byte)) :
    p.feedAll chunks =
      let r := Framing.readAll (Sse.cutFrame bytes.ascii) kMaxBufferBytes p.buffer chunks
      (match r.2 with
        | none => List.replicate chunks.length .ok
        | some k => List.replicate k .ok ++ List.replicate (chunks.length - k) .overflow,
      r.1.filterMap parseSseFrame) := by
  induction chunks generalizing p with
  | nil => rfl
  | cons chunk chunks ih =>
    rw [SseParser.feedAll, Framing.readAll]
    dsimp only
    by_cases hcap : kMaxBufferBytes < (p.buffer ++ chunk).length
    · rw [if_pos hcap, SseParser.feed, if_neg (by rw [h.notOverflowed]; exact Bool.false_ne_true)]
      dsimp only
      rw [if_pos hcap, feedAll_overflowed rfl]
      rfl
    · obtain ⟨p', hfeed, hready, hbuffer⟩ := h.feed (not_lt.mp hcap)
      rw [if_neg hcap, hfeed]
      dsimp only
      rw [ih hready, hbuffer, List.filterMap_append]
      dsimp only
      refine Prod.ext ?_ rfl
      dsimp only
      cases (Framing.readAll (Sse.cutFrame bytes.ascii) kMaxBufferBytes
        (Framing.drain (Sse.cutFrame bytes.ascii) (p.buffer ++ chunk)).2 chunks).2 with
      | none => rfl
      | some k => simp [List.replicate_succ]

/-- What the buffer holds after a call's bytes are appended. -/
def heldBytes (chunks : List (List Byte)) (k : ℕ) : List Byte :=
  Framing.held (Sse.cutFrame bytes.ascii) [] chunks k

/-- Calls that stay within the cap give the frames of the whole stream. -/
lemma feedAll_within {chunks : List (List Byte)}
    (hcap : ∀ k < chunks.length, (heldBytes chunks k).length ≤ kMaxBufferBytes) :
    ({} : SseParser).feedAll chunks
      = (List.replicate chunks.length .ok, Sse.framesOf bytes.ascii chunks.flatten) := by
  have hall : Framing.readAll (Sse.cutFrame bytes.ascii) kMaxBufferBytes [] chunks
      = ((Framing.drain (Sse.cutFrame bytes.ascii) ([] ++ chunks.flatten)).1, none) :=
    Framing.readAll_within (Sse.Encoding.stable bytes) rfl hcap
  rw [ready_new.feedAll]
  dsimp only
  rw [hall]
  rfl

/-- The first call after whose bytes the buffer holds more than the cap overflows, and so do the
calls after it. -/
lemma feedAll_over {chunks : List (List Byte)} {k : ℕ} (hk : k < chunks.length)
    (hcap : ∀ j < k, (heldBytes chunks j).length ≤ kMaxBufferBytes)
    (hover : kMaxBufferBytes < (heldBytes chunks k).length) :
    ({} : SseParser).feedAll chunks
      = (List.replicate k .ok ++ List.replicate (chunks.length - k) .overflow,
        Sse.framesOf bytes.ascii (chunks.take k).flatten) := by
  have hall : Framing.readAll (Sse.cutFrame bytes.ascii) kMaxBufferBytes [] chunks
      = ((Framing.drain (Sse.cutFrame bytes.ascii) ([] ++ (chunks.take k).flatten)).1, some k) :=
    Framing.readAll_over (Sse.Encoding.stable bytes) rfl hk hcap hover
  rw [ready_new.feedAll]
  dsimp only
  rw [hall]
  rfl

end SseParser

end Junjo.Cpp
