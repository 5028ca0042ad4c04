import Junjo.Core.IsoParse
import Junjo.Cpp.Subscription
import Junjo.Sdk.EventDecodeCorrect
import Junjo.Sdk.Subscribe

/-!
# Subscriptions to a group's events in two SDKs

Both SDKs hand over the events of the stream up to the one at which the callback closes the
subscription or throws, and report its end alike. The C++ SDK leaves out events whose types it does
not know, so the two agree exactly when no such event comes before that.
-/

namespace Junjo.Sse

open Utf8 (Byte)

/-! ### Streams that end anywhere -/

variable {α : Type*} [DecidableEq α] {blocks : List Block} {b : Block}

/-- Every block of a written stream is cut off. -/
lemma drain_streamChars (hwell : ∀ b ∈ blocks, b.WellFormed) :
    (Framing.drain (cutFrame characters.ascii) (streamChars blocks)).2 = [] := by
  induction blocks with
  | nil => rfl
  | cons b blocks ih =>
    have hcut := cutFrame_block (hwell b List.mem_cons_self) (streamChars blocks)
    have hcons : streamChars (b :: blocks) = b.chars ++ streamChars blocks := rfl
    rw [hcons, Framing.drain_of_some (Encoding.stable characters) hcut]
    exact ih fun b hb => hwell b (List.mem_cons_of_mem _ hb)

/-- The start of a block holds no frame. -/
lemma cutFrame_part (e : Encoding α) (hb : b.WellFormed) {part rest : List α} (hrest : rest ≠ [])
    (h : part ++ rest = e.text b.chars) : cutFrame e.ascii part = none := by
  cases hcut : cutFrame e.ascii part with
  | none => rfl
  | some p =>
    have hwhole := (Encoding.stable e).append rest hcut
    have hblock := cutFrame_block hb []
    rw [List.append_nil] at hblock
    rw [h, Encoding.cutFrame_text, hblock] at hwhole
    obtain ⟨-, hnil⟩ := Prod.mk.inj (Option.some.inj hwhole)
    exact absurd (List.append_eq_nil_iff.mp hnil.symm).2 hrest

/-- The frames of a written stream and the start of one more block. -/
lemma framesOf_part (e : Encoding α) (hwell : ∀ b ∈ blocks, b.WellFormed) (hb : b.WellFormed)
    {part rest : List α} (hrest : rest ≠ []) (h : part ++ rest = e.text b.chars) :
    framesOf e.ascii (e.text (streamChars blocks) ++ part)
      = (framesOf characters.ascii (streamChars blocks)).map e.frame := by
  rw [← Encoding.framesOf_text, framesOf, framesOf,
    Framing.drain_append (Encoding.stable e) (e.text (streamChars blocks)) part,
    Encoding.drain_text, drain_streamChars hwell, Encoding.text_nil, List.nil_append,
    Framing.drain_of_none (cutFrame_part e hb hrest h), List.append_nil]

/-- The text that has arrived of a written stream and the start of one more block. -/
lemma streamText_part (hwell : ∀ b ∈ blocks, b.WellFormed) (hb : b.WellFormed) {part rest : List Byte}
    (hrest : rest ≠ []) (h : part ++ rest = Utf8.encode b.chars) :
    ∃ front back, back ≠ [] ∧ front ++ back = b.chars ∧
      streamText (Utf8.encode (streamChars blocks) ++ part)
        = codeUnits.text (streamChars blocks) ++ codeUnits.text front := by
  obtain ⟨front, back, hchars, hrun, hend⟩ := Utf8.run_start h
  have hback : back ≠ [] := by
    rintro rfl
    rcases hend with ⟨-, hpart⟩ | ⟨-, c, tail, -, hcons, -⟩
    · rw [List.append_nil] at hchars
      rw [hchars, hpart] at h
      exact hrest (List.append_cancel_left (h.trans (List.append_nil _).symm))
    · cases hcons
  refine ⟨front, back, hback, hchars.symm, ?_⟩
  have hmark : Utf8.dropMark front = front := by
    have hone : Utf8.dropMark (streamChars [b]) = streamChars [b] :=
      dropMark_streamChars fun b' hb' => by rwa [List.mem_singleton.mp hb']
    rw [streamChars, List.flatMap_singleton, hchars] at hone
    cases front with
    | nil => rfl
    | cons c front =>
      rw [Utf8.dropMark_append (List.cons_ne_nil c front)] at hone
      exact List.append_cancel_right hone
  rw [streamText, Utf8.decodeStream_append, Utf8.decodeStream_encode, dropMark_streamChars hwell]
  dsimp only
  rw [Utf8.TextDecoder.decodeStream]
  dsimp only
  rw [hrun, hmark, ite_self]
  rfl

end Junjo.Sse

namespace Junjo.Events

open Callbacks (Ending Reaction goesOn handOver)
open Sse (bytes codeUnits)
open Utf8 (Byte)

/-! ### What both SDKs see -/

/-- An event by its type and id. -/
structure EventName where
  type : Text
  id : Option JsonValue

def GroupEvent.name (e : GroupEvent) : EventName :=
  { type := text e.body.type.name, id := some (.str (Utf8.utf16 e.id)) }

def sdkName (event : Sdk.JunjoEvent) : EventName :=
  { type := text event.type.name, id := event.id }

def cppName (event : Cpp.SseEvent) : EventName :=
  { type := Utf8.decodeText event.eventType, id := some (.str (Utf8.decodeText event.eventId)) }

/-- A C++ SDK knows the type of an event. -/
def isKnown (name : EventName) : Bool := Cpp.isKnownEventType name.type

/-- What has arrived of a stream when it ends: some items, and perhaps the start of one more. -/
def Arrives (items : List StreamItem) (arrived : List Byte) : Prop :=
  ∃ (next : StreamItem) (part rest : List Byte), rest ≠ [] ∧
    part ++ rest = Utf8.encode next.block.chars ∧
    arrived = Utf8.encode (Sse.streamChars (items.map StreamItem.block)) ++ part

/-- The calls of `onError` and `onClose` by how the handing over ended. -/
def noticesOf : Ending → List Sdk.Notice
  | .atEnd => [.close]
  | .closed => []
  | .failed => [.error]

lemma noticesOf_injective : Function.Injective noticesOf := by
  intro a b h
  cases a <;> cases b <;> first | rfl | cases h

variable {items : List StreamItem}

lemma wellFormed_blocks (items : List StreamItem) :
    ∀ b ∈ items.map StreamItem.block, b.WellFormed := by
  intro b hb
  obtain ⟨item, -, rfl⟩ := List.mem_map.mp hb
  exact item.wellFormed_block

/-- The frames of the text that has arrived. -/
lemma framesOf_texts {reads : List (List Byte)} (h : Arrives items reads.flatten) :
    Sse.framesOf codeUnits.ascii (Sse.textsOf reads).flatten
      = (eventsOf items).map fun e => codeUnits.frame (StreamItem.frame e) := by
  obtain ⟨next, part, rest, hrest, hpart, harrived⟩ := h
  obtain ⟨front, back, hback, hchars, htext⟩ := Sse.streamText_part (wellFormed_blocks items)
    next.wellFormed_block hrest hpart
  have hunits : codeUnits.text front ++ codeUnits.text back = codeUnits.text next.block.chars := by
    rw [← Sse.Encoding.text_append, hchars]
  rw [Sse.textsOf_flatten, harrived, htext,
    Sse.framesOf_part codeUnits (wellFormed_blocks items) next.wellFormed_block
      (mt (Sse.Encoding.text_eq_nil codeUnits).mp hback) hunits,
    StreamItem.framesOf_items, List.map_map]
  rfl

/-- The frames of the bytes that have arrived. -/
lemma framesOf_bytes {arrived : List Byte} (h : Arrives items arrived) :
    Sse.framesOf bytes.ascii arrived
      = (eventsOf items).map fun e => bytes.frame (StreamItem.frame e) := by
  obtain ⟨next, part, rest, hrest, hpart, rfl⟩ := h
  have hframes := Sse.framesOf_part bytes (wellFormed_blocks items) next.wellFormed_block hrest hpart
  rw [StreamItem.framesOf_items, List.map_map] at hframes
  exact hframes

/-! ### The TypeScript SDK -/

section

variable {dateOf : Option JsonValue → Option IsoDate.Instant}

open Sdk (Subscription)

/-- A handler that reacts to the names of the events. -/
abbrev sdkHandler (react : List EventName → Reaction) (events : List Sdk.JunjoEvent) : Reaction :=
  react (events.map sdkName)

lemma onFrame_event (hdate : Sdk.ReadsDates dateOf) (handler : List Sdk.JunjoEvent → Reaction)
    (s : Subscription) (e : GroupEvent) :
    ∃ event, sdkName event = e.name ∧
      Subscription.onFrame dateOf handler s (codeUnits.frame (StreamItem.frame e))
        = s.handle handler event := by
  obtain ⟨event, hdecode, htype, hid⟩ := Sdk.decodeEventData_event hdate e
  refine ⟨event, by rw [sdkName, htype, hid, GroupEvent.name], ?_⟩
  have hdata : (codeUnits.frame (StreamItem.frame e)).data = some (Json.stringify e.json) :=
    congrArg some e.data_spec.1
  rw [Subscription.onFrame, hdata]
  dsimp only
  rw [hdecode]

lemma handle_of_closes {handler : List Sdk.JunjoEvent → Reaction} {s : Subscription}
    {event : Sdk.JunjoEvent} (h : (handler (s.handed ++ [event])).closes = true) :
    s.handle handler event = { s with handed := s.handed ++ [event], closed := true } := by
  simp [Subscription.handle, Subscription.close, Subscription.reportError, h]

lemma handle_of_throws {handler : List Sdk.JunjoEvent → Reaction} {s : Subscription}
    {event : Sdk.JunjoEvent} (hopen : s.closed = false)
    (hcloses : (handler (s.handed ++ [event])).closes = false)
    (hthrows : (handler (s.handed ++ [event])).throws = true) :
    s.handle handler event
      = { handed := s.handed ++ [event], closed := true, notices := s.notices ++ [.error] } := by
  simp [Subscription.handle, Subscription.close, Subscription.reportError, hopen, hcloses, hthrows]

lemma handle_of_goesOn {handler : List Sdk.JunjoEvent → Reaction} {s : Subscription}
    {event : Sdk.JunjoEvent} (hcloses : (handler (s.handed ++ [event])).closes = false)
    (hthrows : (handler (s.handed ++ [event])).throws = false) :
    s.handle handler event = { s with handed := s.handed ++ [event] } := by
  simp [Subscription.handle, hcloses, hthrows]

/-- The frames of some events, up to the one at which the subscription is closed. -/
lemma steps_spec (react : List EventName → Reaction) (hdate : Sdk.ReadsDates dateOf) {s : Subscription} (hopen : s.closed = false)
    (events : List GroupEvent) :
    let s' := Callbacks.stepsUpTo Subscription.closed
      (Subscription.onFrame dateOf (sdkHandler react)) s
      (events.map fun e => codeUnits.frame (StreamItem.frame e))
    let r := handOver react (s.handed.map sdkName) (events.map GroupEvent.name)
    s'.handed.map sdkName = r.1 ∧
      (s'.finish (if s'.closed then .closed else .ended)).notices = s.notices ++ noticesOf r.2 := by
  induction events generalizing s with
  | nil =>
    simp [Callbacks.stepsUpTo, handOver, hopen, Subscription.finish, Subscription.close, noticesOf]
  | cons e events ih =>
    obtain ⟨event, hname, hframe⟩ := onFrame_event hdate (sdkHandler react) s e
    have hreact : sdkHandler react (s.handed ++ [event])
        = react (s.handed.map sdkName ++ [e.name]) := by
      rw [sdkHandler, List.map_append, List.map_singleton, hname]
    have hhanded : (s.handed ++ [event]).map sdkName = s.handed.map sdkName ++ [e.name] := by
      rw [List.map_append, List.map_singleton, hname]
    rw [List.map_cons, List.map_cons, Callbacks.stepsUpTo, hopen, if_neg Bool.false_ne_true, hframe,
      handOver]
    cases hcloses : (react (s.handed.map sdkName ++ [e.name])).closes with
    | true =>
      rw [handle_of_closes (hreact ▸ hcloses), Callbacks.stepsUpTo_of_closed rfl]
      exact ⟨hhanded, by simp [Subscription.finish, Subscription.close, noticesOf]⟩
    | false =>
      cases hthrows : (react (s.handed.map sdkName ++ [e.name])).throws with
      | true =>
        rw [handle_of_throws hopen (hreact ▸ hcloses) (hreact ▸ hthrows),
          Callbacks.stepsUpTo_of_closed rfl]
        exact ⟨hhanded, by simp [Subscription.finish, Subscription.close, noticesOf]⟩
      | false =>
        rw [handle_of_goesOn (hreact ▸ hcloses) (hreact ▸ hthrows), ← hhanded]
        exact ih (s := { s with handed := s.handed ++ [event] }) hopen

@[simp] lemma handed_finish (s : Subscription) (ending : Sse.StreamEnd) :
    (s.finish ending).handed = s.handed := by
  cases ending <;> simp only [Subscription.finish, Subscription.reportError] <;> split_ifs <;> rfl

/-- A subscription of the TypeScript SDK hands over the events of the stream. -/
lemma subscribe_spec (react : List EventName → Reaction) (hdate : Sdk.ReadsDates dateOf) {reads : List (List Byte)}
    (harrives : Arrives items reads.flatten) (hcaps : Sse.WithinCaps reads) :
    let r := handOver react [] ((eventsOf items).map GroupEvent.name)
    (Sdk.subscribe dateOf (sdkHandler react) reads).handed.map sdkName = r.1 ∧
      (Sdk.subscribe dateOf (sdkHandler react) reads).notices = noticesOf r.2 := by
  obtain ⟨hframes, hending⟩ := Sse.readSSEFrames_closing
    (fun frames => (frames.foldl (Subscription.onFrame dateOf (sdkHandler react)) {}).closed)
    fun k hk => (hcaps k hk).1
  rw [framesOf_texts harrives] at hframes hending
  obtain ⟨hhanded, hnotices⟩ := steps_spec react hdate (s := {}) rfl (eventsOf items)
  have hsteps : ∀ frames, (Callbacks.takeUpTo
        (fun frames => (frames.foldl (Subscription.onFrame dateOf (sdkHandler react)) {}).closed) []
        frames).foldl (Subscription.onFrame dateOf (sdkHandler react)) {}
      = Callbacks.stepsUpTo Subscription.closed
          (Subscription.onFrame dateOf (sdkHandler react)) {} frames :=
    fun frames => Callbacks.foldl_takeUpTo ({} : Subscription) [] frames
  rw [hsteps] at hending
  rw [Sdk.subscribe]
  dsimp only
  rw [hframes, hending, hsteps]
  exact ⟨by rw [handed_finish]; exact hhanded, hnotices⟩

end

/-! ### The C++ SDK -/

section

open Cpp (SubscriptionStreamHandler SseFrame SseParser)
open Cpp.SubscriptionStreamHandler (executeStream onData onFrames)

variable {parseJson : List Byte → Option JsonValue} {s : SubscriptionStreamHandler}

/-- A callback that reacts to the names of the events. -/
abbrev cppCallback (react : List EventName → Reaction) (events : List Cpp.SseEvent) : Reaction :=
  react (events.map cppName)

/-- The parser reads the text of an event as an object with the event's type. -/
def ParsesEvent (parseJson : List Byte → Option JsonValue) (e : GroupEvent) : Prop :=
  ∃ entries, parseJson (Utf8.encode e.data) = some (.obj entries) ∧
    entries.lookup (text "type") = some (.str (text e.body.type.name))

/-- How the handing over ended. -/
def endingOf (s : SubscriptionStreamHandler) : Ending :=
  if s.closed then .closed else if s.terminalError.isSome then .failed else .atEnd

section

variable {onEvent : List Cpp.SseEvent → Reaction}

lemma onFrames_of_closed (h : s.closed = true) (frames : List SseFrame) :
    (onFrames parseJson onEvent s frames).1 = s := by
  cases frames with
  | nil => rfl
  | cons frame frames => rw [onFrames, if_pos h]

/-- The event of a frame with data. -/
def eventOf (frame : SseFrame) (data : List Byte) : Cpp.SseEvent :=
  { eventType := frame.event.getD [], eventId := frame.id.getD [], payloadJson := data }

/-- A call that ends the loop has thrown. -/
lemma endingOf_handle {event : Cpp.SseEvent} (h : (s.handle onEvent event).2 = false) :
    endingOf (s.handle onEvent event).1 ≠ .atEnd := by
  unfold SubscriptionStreamHandler.handle at h ⊢
  dsimp only at h ⊢
  split_ifs at h ⊢
  unfold endingOf
  dsimp only
  split_ifs with hclosed hfailed
  · simp
  · simp
  · exact absurd rfl hfailed

/-- Everything the loop does at a frame: it goes on, or it ends where the subscription has been
closed or has failed. -/
lemma onFrames_cases (parseJson : List Byte → Option JsonValue)
    (onEvent : List Cpp.SseEvent → Reaction) (s : SubscriptionStreamHandler) (frame : SseFrame) :
    (∃ s', ∀ frames,
        onFrames parseJson onEvent s (frame :: frames) = onFrames parseJson onEvent s' frames) ∨
      ∃ s', endingOf s' ≠ .atEnd ∧
        ∀ frames, onFrames parseJson onEvent s (frame :: frames) = (s', false) := by
  cases hclosed : s.closed with
  | true =>
    refine Or.inr ⟨s, by simp [endingOf, hclosed], fun frames => ?_⟩
    rw [onFrames, if_pos hclosed]
  | false =>
    cases hdata : frame.data with
    | none =>
      refine Or.inl ⟨s, fun frames => ?_⟩
      simp [onFrames, hclosed, hdata]
    | some data =>
      cases hpayload : parseJson data with
      | none =>
        refine Or.inr ⟨{ s with terminalError := some .invalidWireData }, ?_, fun frames => ?_⟩
        · simp [endingOf, hclosed]
        · simp [onFrames, hclosed, hdata, hpayload]
      | some payload =>
        cases htype : Cpp.payloadType payload with
        | none =>
          refine Or.inl ⟨s, fun frames => ?_⟩
          simp [onFrames, hclosed, hdata, hpayload, htype]
        | some type =>
          cases hknown : Cpp.isKnownEventType type with
          | false =>
            refine Or.inl ⟨s, fun frames => ?_⟩
            simp [onFrames, hclosed, hdata, hpayload, htype, hknown]
          | true =>
            cases hgoes : (s.handle onEvent (eventOf frame data)).2 with
            | true =>
              refine Or.inl ⟨(s.handle onEvent (eventOf frame data)).1, fun frames => ?_⟩
              simp only [onFrames, hclosed, hdata, hpayload, htype, hknown, eventOf] at hgoes ⊢
              simp [hgoes]
            | false =>
              refine Or.inr ⟨(s.handle onEvent (eventOf frame data)).1, endingOf_handle hgoes,
                fun frames => ?_⟩
              simp only [onFrames, hclosed, hdata, hpayload, htype, hknown, eventOf] at hgoes ⊢
              simp [hgoes]

lemma onFrames_append (s : SubscriptionStreamHandler) (frames more : List SseFrame) :
    onFrames parseJson onEvent s (frames ++ more) =
      if (onFrames parseJson onEvent s frames).2 then
        onFrames parseJson onEvent (onFrames parseJson onEvent s frames).1 more
      else ((onFrames parseJson onEvent s frames).1, false) := by
  induction frames generalizing s with
  | nil => rfl
  | cons frame frames ih =>
    rcases onFrames_cases parseJson onEvent s frame with
      ⟨s', hgoes⟩ | ⟨s', -, hstops⟩
    · rw [List.cons_append, hgoes, hgoes]
      exact ih s'
    · rw [List.cons_append, hstops, hstops]
      rfl

/-- Where the loop ends early, the subscription has been closed or has failed. -/
lemma endingOf_of_stopped (s : SubscriptionStreamHandler) (frames : List SseFrame)
    (h : (onFrames parseJson onEvent s frames).2 = false) :
    endingOf (onFrames parseJson onEvent s frames).1 ≠ .atEnd := by
  induction frames generalizing s with
  | nil => cases h
  | cons frame frames ih =>
    rcases onFrames_cases parseJson onEvent s frame with
      ⟨s', hgoes⟩ | ⟨s', hended, hstops⟩
    · rw [hgoes] at h ⊢
      exact ih s' h
    · rw [hstops]
      exact hended

/-- Chunks under the cap are handled like the frames of all of them. -/
lemma executeStream_spec (parseJson : List Byte → Option JsonValue)
    (onEvent : List Cpp.SseEvent → Reaction) {parser : SseParser} (hready : parser.Ready) (s : SubscriptionStreamHandler)
    (chunks : List (List Byte))
    (hwithin : (Framing.readAll (Sse.cutFrame bytes.ascii) Cpp.kMaxBufferBytes parser.buffer
      chunks).2 = none) :
    (executeStream parseJson onEvent s parser chunks).1
        = (onFrames parseJson onEvent s ((Framing.readAll (Sse.cutFrame bytes.ascii)
            Cpp.kMaxBufferBytes parser.buffer chunks).1.filterMap Cpp.parseSseFrame)).1 ∧
      (endingOf (executeStream parseJson onEvent s parser chunks).1 = .atEnd →
        (executeStream parseJson onEvent s parser chunks).2 = true) := by
  induction chunks generalizing parser s with
  | nil => exact ⟨rfl, fun _ => rfl⟩
  | cons chunk chunks ih =>
    rw [Framing.readAll] at hwithin ⊢
    by_cases hcap : Cpp.kMaxBufferBytes < (parser.buffer ++ chunk).length
    · rw [if_pos hcap] at hwithin
      cases hwithin
    · rw [if_neg hcap] at hwithin ⊢
      obtain ⟨parser', hfeed, hready', hbuffer⟩ := hready.feed (not_lt.mp hcap)
      dsimp only at hwithin ⊢
      rw [← hbuffer] at hwithin ⊢
      rw [List.filterMap_append, executeStream, onData]
      cases hclosed : s.closed with
      | true =>
        rw [onFrames_of_closed hclosed, if_pos rfl]
        exact ⟨rfl, fun hend => by simp [endingOf, hclosed] at hend⟩
      | false =>
        rw [if_neg Bool.false_ne_true, hfeed, onFrames_append]
        dsimp only
        cases hgoes : (onFrames parseJson onEvent s ((Framing.drain (Sse.cutFrame bytes.ascii)
          (parser.buffer ++ chunk)).1.filterMap Cpp.parseSseFrame)).2 with
        | true =>
          rw [if_pos rfl, if_pos rfl]
          exact ih hready' _ (Option.map_eq_none_iff.mp hwithin)
        | false =>
          rw [if_neg Bool.false_ne_true, if_neg Bool.false_ne_true]
          exact ⟨rfl, fun hend => absurd hend (endingOf_of_stopped s _ hgoes)⟩

end

lemma decodeText_typeName (type : JunjoEventType) :
    Utf8.decodeText (Utf8.encode type.name.toList) = text type.name := by
  cases type <;> decide

lemma decodeText_id (e : GroupEvent) :
    Utf8.decodeText (Utf8.encode e.id) = Utf8.utf16 e.id := by
  rw [Utf8.decodeText_encode, Utf8.dropMark_of_head]
  intro hhead
  have hdigit := e.hexId _ (List.mem_of_mem_head? hhead)
  revert hdigit
  unfold IdDigit
  decide

/-- The C++ event of a group's event. -/
def cppEvent (e : GroupEvent) : Cpp.SseEvent :=
  { eventType := Utf8.encode e.body.type.name.toList, eventId := Utf8.encode e.id
    payloadJson := Utf8.encode e.data }

lemma cppName_cppEvent (e : GroupEvent) : cppName (cppEvent e) = e.name := by
  simp [cppName, cppEvent, GroupEvent.name, decodeText_typeName, decodeText_id]

/-- The loop at the frame of an event. -/
lemma onFrames_event {onEvent : List Cpp.SseEvent → Reaction} {e : GroupEvent}
    (hparse : ParsesEvent parseJson e) (hopen : s.closed = false) (frames : List SseFrame) :
    onFrames parseJson onEvent s (bytes.frame (StreamItem.frame e) :: frames) =
      if isKnown e.name then
        if (s.handle onEvent (cppEvent e)).2 then
          onFrames parseJson onEvent (s.handle onEvent (cppEvent e)).1 frames
        else ((s.handle onEvent (cppEvent e)).1, false)
      else onFrames parseJson onEvent s frames := by
  obtain ⟨entries, hpayload, htype⟩ := hparse
  have hdata : (bytes.frame (StreamItem.frame e)).data = some (Utf8.encode e.data) := rfl
  have hpayloadType : Cpp.payloadType (.obj entries) = some (text e.body.type.name) := by
    rw [Cpp.payloadType, htype]
  rw [onFrames, hopen, if_neg Bool.false_ne_true, hdata]
  dsimp only
  rw [hpayload]
  dsimp only
  rw [hpayloadType]
  rfl

lemma onFrames_spec (react : List EventName → Reaction) {events : List GroupEvent}
    (hparse : ∀ e ∈ events, ParsesEvent parseJson e) (hopen : s.closed = false)
    (herror : s.terminalError = none) :
    let s' := (onFrames parseJson (cppCallback react) s
      (events.map fun e => bytes.frame (StreamItem.frame e))).1
    let r := handOver react (s.handed.map cppName) ((events.map GroupEvent.name).filter isKnown)
    s'.handed.map cppName = r.1 ∧ endingOf s' = r.2 := by
  induction events generalizing s with
  | nil => exact ⟨rfl, by simp [onFrames, endingOf, hopen, herror, handOver]⟩
  | cons e events ih =>
    have hrest := fun e he => hparse e (List.mem_cons_of_mem _ he)
    have hhanded : (s.handed ++ [cppEvent e]).map cppName = s.handed.map cppName ++ [e.name] := by
      rw [List.map_append, List.map_singleton, cppName_cppEvent]
    have hreact : cppCallback react (s.handed ++ [cppEvent e])
        = react (s.handed.map cppName ++ [e.name]) := by
      rw [cppCallback, hhanded]
    rw [List.map_cons, List.map_cons, onFrames_event (hparse e List.mem_cons_self) hopen]
    cases hknown : isKnown e.name with
    | false =>
      rw [if_neg Bool.false_ne_true, List.filter_cons_of_neg (by rw [hknown]; exact Bool.false_ne_true)]
      exact ih hrest hopen herror
    | true =>
      rw [if_pos rfl, List.filter_cons_of_pos hknown, handOver, SubscriptionStreamHandler.handle]
      dsimp only
      rw [hreact, hopen, Bool.false_or]
      cases hcloses : (react (s.handed.map cppName ++ [e.name])).closes with
      | true =>
        rw [if_pos rfl]
        cases hthrows : (react (s.handed.map cppName ++ [e.name])).throws with
        | true => exact ⟨hhanded, rfl⟩
        | false =>
          rw [if_neg Bool.false_ne_true, if_pos rfl, onFrames_of_closed rfl]
          exact ⟨hhanded, rfl⟩
      | false =>
        cases hthrows : (react (s.handed.map cppName ++ [e.name])).throws with
        | true =>
          rw [if_pos rfl, if_neg Bool.false_ne_true, if_pos rfl]
          exact ⟨hhanded, by simp [endingOf]⟩
        | false =>
          rw [if_neg Bool.false_ne_true, if_neg Bool.false_ne_true, if_pos rfl, if_neg Bool.false_ne_true,
            ← hhanded]
          exact ih (s := { s with handed := s.handed ++ [cppEvent e], closed := false }) hrest rfl herror

/-- The calls of `on_error` and `on_close`, whatever the error is. -/
def cppNotice : Cpp.Notice → Sdk.Notice
  | .error _ => .error
  | .close => .close

/-- A subscription of the C++ SDK hands over the events of the stream that it knows. -/
lemma runSubscription_spec (react : List EventName → Reaction) {reads : List (List Byte)}
    (hparse : ∀ e ∈ eventsOf items, ParsesEvent parseJson e)
    (harrives : Arrives items reads.flatten) (hcaps : Sse.WithinCaps reads) :
    let r := handOver react [] (((eventsOf items).map GroupEvent.name).filter isKnown)
    (Cpp.runSubscription parseJson (cppCallback react) reads).1.handed.map cppName = r.1 ∧
      (Cpp.runSubscription parseJson (cppCallback react) reads).2.map cppNotice = noticesOf r.2 := by
  have hall : Framing.readAll (Sse.cutFrame bytes.ascii) Cpp.kMaxBufferBytes [] reads
      = ((Framing.drain (Sse.cutFrame bytes.ascii) ([] ++ reads.flatten)).1, none) :=
    Framing.readAll_within (Sse.Encoding.stable bytes) rfl fun k hk => (hcaps k hk).2
  obtain ⟨hstate, htaken⟩ := executeStream_spec parseJson (cppCallback react)
    SseParser.ready_new {} reads (by rw [hall])
  have hframes : (Framing.readAll (Sse.cutFrame bytes.ascii) Cpp.kMaxBufferBytes
      ({} : SseParser).buffer reads).1.filterMap Cpp.parseSseFrame
      = (eventsOf items).map fun e => bytes.frame (StreamItem.frame e) := by
    rw [hall]
    exact framesOf_bytes harrives
  rw [hframes] at hstate
  obtain ⟨hhanded, hending⟩ := onFrames_spec (s := {}) react hparse rfl rfl
  rw [← hstate] at hhanded hending
  rw [List.map_nil] at hhanded hending
  dsimp only
  rw [← hending, Cpp.runSubscription]
  cases hclosed : (executeStream parseJson (cppCallback react) {} {} reads).1.closed with
  | true => exact ⟨hhanded, by simp [endingOf, hclosed, noticesOf]⟩
  | false =>
    cases herror : (executeStream parseJson (cppCallback react) {} {} reads).1.terminalError with
    | some error => exact ⟨hhanded, by simp [endingOf, hclosed, herror, noticesOf, cppNotice]⟩
    | none =>
      have hend : endingOf (executeStream parseJson (cppCallback react) {} {} reads).1 = .atEnd := by
        simp [endingOf, hclosed, herror]
      rw [htaken hend, hend]
      exact ⟨hhanded, rfl⟩

end

/-- What a selection of the names of events by their types leaves. -/
lemma handOver_known_iff (react : List EventName → Reaction) (events : List GroupEvent) :
    handOver react [] ((events.map GroupEvent.name).filter isKnown)
        = handOver react [] (events.map GroupEvent.name)
      ↔ ∀ before e after, events = before ++ e :: after →
          goesOn react [] (before.map GroupEvent.name) = true →
            Cpp.isKnownEventType (text e.body.type.name) = true := by
  rw [Callbacks.handOver_filter_iff]
  constructor
  · rintro h before e after rfl hbefore
    exact h (before.map GroupEvent.name) e.name (after.map GroupEvent.name) (by simp) hbefore
  · intro h before x after heq hbefore
    obtain ⟨first, rest, rfl, rfl, hrest⟩ := List.map_eq_append_iff.mp heq
    obtain ⟨e, after, rfl, rfl, rfl⟩ := List.map_eq_cons_iff.mp hrest
    exact h first e after rfl hbefore

/-- Both SDKs hand over the events of a stream up to the one at which the callback closes the
subscription or throws: the TypeScript SDK hands over all of them and reports nothing after a close,
an error after a throw and a close at the end of the stream. The C++ SDK hands over the same and
reports the same exactly when it knows the types of the events up to there. -/
theorem subscriptions_agree_iff (dateOf : Option JsonValue → Option IsoDate.Instant)
    (parseJson : List Byte → Option JsonValue) (react : List EventName → Reaction)
    (items : List StreamItem) (reads : List (List Byte)) (hdate : Sdk.ReadsDates dateOf)
    (hparse : ∀ e ∈ eventsOf items, ParsesEvent parseJson e)
    (harrives : Arrives items reads.flatten) (hcaps : Sse.WithinCaps reads) :
    let sdk := Sdk.subscribe dateOf (fun events => react (events.map sdkName)) reads
    let cpp := Cpp.runSubscription parseJson (fun events => react (events.map cppName)) reads
    let r := handOver react [] ((eventsOf items).map GroupEvent.name)
    (sdk.handed.map sdkName = r.1 ∧ sdk.notices = noticesOf r.2) ∧
      (cpp.1.handed.map cppName = sdk.handed.map sdkName ∧ cpp.2.map cppNotice = sdk.notices
        ↔ ∀ before e after, eventsOf items = before ++ e :: after →
            goesOn react [] (before.map GroupEvent.name) = true →
              Cpp.isKnownEventType (text e.body.type.name) = true) := by
  obtain ⟨hsdk, hsdkNotices⟩ := subscribe_spec react hdate harrives hcaps
  obtain ⟨hcpp, hcppNotices⟩ := runSubscription_spec react hparse harrives hcaps
  refine ⟨⟨hsdk, hsdkNotices⟩, ?_⟩
  refine Iff.trans ?_ (handOver_known_iff react (eventsOf items))
  constructor
  · rintro ⟨hhanded, hnotices⟩
    refine Prod.ext ?_ (noticesOf_injective ?_)
    · exact (hcpp.symm.trans hhanded).trans hsdk
    · exact (hcppNotices.symm.trans hnotices).trans hsdkNotices
  · intro heq
    rw [heq] at hcpp hcppNotices
    exact ⟨hcpp.trans hsdk.symm, hcppNotices.trans hsdkNotices.symm⟩

/-! ### A stream with one event -/

/-- Dates of texts that `toISOString` writes. -/
def readDate : Option JsonValue → Option IsoDate.Instant
  | some (.str t) => IsoDate.parseISO t
  | _ => none

lemma readsDates_readDate : Sdk.ReadsDates readDate := fun d =>
  IsoDate.parseISO_toISOString d.property

def readJson (payload : List Byte) : Option JsonValue := Json.parse (Utf8.decodeText payload)

lemma parsesEvent_readJson (e : GroupEvent) : ParsesEvent readJson e := by
  have hmark : Utf8.dropMark e.data = e.data := by
    refine Utf8.dropMark_of_head fun hhead => ?_
    obtain ⟨chars, hchars⟩ := List.head?_eq_some_iff.mp hhead
    have htext := e.data_spec.1
    rw [hchars, GroupEvent.json, Export.object, Json.stringify] at htext
    have hmarked : Utf8.utf16 (Utf8.byteOrderMark :: chars) = 65279 :: Utf8.utf16 chars := rfl
    rw [hmarked] at htext
    exact absurd (List.cons_eq_cons.mp htext).1 (by decide)
  refine ⟨e.fields.map fun f => (text f.1, f.2), ?_, ?_⟩
  · rw [readJson, Utf8.decodeText_encode, hmark, e.data_spec.1, Json.parse_stringify e.valid_json]
    rfl
  · exact Sdk.lookup_fields e.valid_json (by simp [GroupEvent.fields])

/-- A member of a group was updated. -/
def updated : GroupEvent where
  id := ['7']
  occurredAt := ⟨0, by decide⟩
  gameId := text "g"
  groupId := text "r"
  body := .memberUpdated (text "u") [text "metadata"] 2
  hexId := by
    intro c hc
    rw [List.mem_singleton.mp hc]
    exact List.elem_iff.mp (by decide)

def updatedReads : List (List Byte) := [Utf8.encode (StreamItem.event updated).block.chars]

lemma arrives_updatedReads : Arrives [.event updated] updatedReads.flatten := by
  have hrest : StreamItem.heartbeat.block.chars ≠ [] := by
    simp [Sse.Block.chars, StreamItem.block, Sse.endingChars]
  refine ⟨.heartbeat, [], Utf8.encode StreamItem.heartbeat.block.chars,
    mt (Sse.Encoding.text_eq_nil bytes).mp hrest, rfl, ?_⟩
  simp [updatedReads, Sse.streamChars]

lemma withinCaps_updatedReads : Sse.WithinCaps updatedReads := by
  unfold Sse.WithinCaps
  decide +kernel

theorem subscriptions_agree_iff_updated :
    let sdk := Sdk.subscribe readDate (fun _ => {}) updatedReads
    let cpp := Cpp.runSubscription readJson (fun _ => {}) updatedReads
    sdk.handed.map sdkName = [updated.name] ∧
      ¬(cpp.1.handed.map cppName = sdk.handed.map sdkName ∧ cpp.2.map cppNotice = sdk.notices) := by
  have hagree := subscriptions_agree_iff readDate readJson (fun _ => {}) [.event updated] updatedReads
    readsDates_readDate (fun e _ => parsesEvent_readJson e) arrives_updatedReads
    withinCaps_updatedReads
  refine ⟨hagree.1.1, fun h => ?_⟩
  have hknown := hagree.2.mp h [] updated [] rfl rfl
  revert hknown
  decide

/-- The C++ SDK does not hand over the update of a member. -/
theorem memberUpdated_left_out :
    Arrives [.event updated] updatedReads.flatten ∧ Sse.WithinCaps updatedReads ∧
      (Sdk.subscribe readDate (fun _ => {}) updatedReads).handed.map sdkName = [updated.name] ∧
      (Cpp.runSubscription readJson (fun _ => {}) updatedReads).1.handed.map cppName = [] := by
  obtain ⟨hsdk, -⟩ := subscribe_spec (fun _ => {}) readsDates_readDate arrives_updatedReads
    withinCaps_updatedReads
  obtain ⟨hcpp, -⟩ := runSubscription_spec (fun _ => {})
    (fun e _ => parsesEvent_readJson e) arrives_updatedReads withinCaps_updatedReads
  have hnone : ((eventsOf [.event updated]).map GroupEvent.name).filter isKnown = [] := by
    have hupdated : (eventsOf [.event updated]).map GroupEvent.name = [updated.name] := rfl
    rw [hupdated, List.filter_cons_of_neg (by decide), List.filter_nil]
  have hcallback : cppCallback (fun _ => {}) = fun _ => {} := rfl
  rw [hnone, hcallback] at hcpp
  exact ⟨arrives_updatedReads, withinCaps_updatedReads, hsdk, hcpp⟩

end Junjo.Events
