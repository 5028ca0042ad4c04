import Junjo.React.GameEventsHub
import Junjo.React.StreamHubCorrect
import Junjo.React.SubscriptionHub

/-!
# What hooks can rely on when they share streams
-/

namespace Junjo.React

variable {ε : Type*}

lemma SubscriptionHub.inv_step {teardownDelayMs : ℤ} {s t : SubscriptionHub ε} {e : SubscriptionEvent ε}
    (h : s.Inv HubSignal.terminal) (hstep : SubscriptionHub.step teardownDelayMs s e = some t) :
    t.Inv HubSignal.terminal := by
  cases e with
  | subscribe groupId =>
    cases hstep
    exact h.subscribe groupId () fun _ => none
  | unsubscribe listener => exact h.unsubscribe hstep
  | next => exact h.next hstep
  | teardownTimer entry => exact h.teardownTimer hstep
  | accept entry => exact h.accept hstep
  | resolve entry => exact h.resolve (fun _ _ ht _ _ _ => ht) hstep
  | reject entry => exact h.reject hstep
  | event entry event =>
    obtain ⟨f, hidle, hf, hdelivers, rfl⟩ := Hub.callback_eq hstep
    exact h.fanOut hidle hf (Hub.live_of_delivers hdelivers) rfl fun _ hnone => (by cases hnone)
  | error entry => exact h.finish hstep
  | close entry => exact h.finish hstep

namespace GameEventsHub

variable {s t : GameEventsHub ε} {i : ℕ} {e : Entry Unit GameConnection (GameSignal ε)}

lemma inv_setData (h : s.Inv GameSignal.terminal) (he : s.entries[i]? = some e) (data : GameConnection) :
    (s.setEntry i { e with data }).Inv GameSignal.terminal := by
  have hok := h.entries i e he
  exact h.setEntry he rfl rfl rfl rfl id (fun _ _ _ => rfl)
    ⟨hok.nodup, hok.closed, hok.opened, hok.ends, hok.running⟩

/-- What an entry knows changes, and its listeners are told. -/
lemma inv_fanOut_setData (h : s.Inv GameSignal.terminal) (hidle : s.fan = none)
    (he : s.entries[i]? = some e) (hlive : e.stream.live = true) (data : GameConnection)
    {note : GameSignal ε} (hnote : note.terminal = false) {andThen : Option (GameSignal ε)}
    (hthen : ∀ note', andThen = some note' → note'.terminal = false) :
    ((setData s i data).fanOut i note andThen).Inv GameSignal.terminal := by
  have hdata : setData s i data = s.setEntry i { e with data } := by simp only [setData, he]
  rw [hdata]
  exact (inv_setData h he data).fanOut hidle (getElem?_set_of_some he) hlive hnote hthen

lemma inv_setStatus (h : s.Inv GameSignal.terminal) (hidle : s.fan = none)
    (he : s.entries[i]? = some e) (hlive : e.stream.live = true) (status : GameStreamStatus)
    (position : Option Text) {andThen : Option (GameSignal ε)}
    (hthen : ∀ note', andThen = some note' → note'.terminal = false) :
    (setStatus s i status position andThen).Inv GameSignal.terminal :=
  inv_fanOut_setData h hidle he hlive _ rfl hthen

lemma inv_attend (h : s.Inv GameSignal.terminal)
    {f : Entry Unit GameConnection (GameSignal ε) → GameEventsHub ε}
    (hf : ∀ e, s.fan = none → s.entries[i]? = some e → e.stream.live = true →
      (f e).Inv GameSignal.terminal) (hstep : attend s i f = some t) : t.Inv GameSignal.terminal := by
  obtain ⟨e, hidle, he, hdelivers, rfl⟩ := Hub.callback_eq hstep
  split_ifs
  · exact h
  · exact hf e hidle he (Hub.live_of_delivers hdelivers)

lemma inv_step {e : GameHubEvent ε} (h : s.Inv GameSignal.terminal) (hstep : step s e = some t) :
    t.Inv GameSignal.terminal := by
  have hnone : ∀ note : GameSignal ε, none = some note → note.terminal = false :=
    fun _ hfalse => by cases hfalse
  cases e with
  | subscribe =>
    cases hstep
    exact h.subscribe () _ greet
  | unsubscribe listener => exact h.unsubscribe hstep
  | next => exact h.next hstep
  | accept entry => exact h.accept hstep
  | resolve entry position =>
    exact h.resolve (fun t e ht hidle he hlive => inv_setStatus ht hidle he hlive _ _ hnone) hstep
  | reject entry => exact h.reject hstep
  | event entry event position =>
    exact inv_attend h (fun e hidle he hlive => inv_fanOut_setData h hidle he hlive _ rfl hnone) hstep
  | reconnecting entry =>
    exact inv_attend h (fun e hidle he hlive => inv_setStatus h hidle he hlive _ _ hnone) hstep
  | reconnected entry position =>
    exact inv_attend h (fun e hidle he hlive => inv_setStatus h hidle he hlive _ _ hnone) hstep
  | resync entry position =>
    refine inv_attend h (fun e hidle he hlive => inv_setStatus h hidle he hlive _ _ ?_) hstep
    rintro _ ⟨⟩
    rfl
  | error entry => exact h.finish hstep

end GameEventsHub

/-- A listener leaves when it is notified, another joins in its place, and the server closes. -/
private def rejoined : List (SubscriptionEvent ℕ) :=
  [.subscribe (text "g"), .accept 0, .resolve 0, .event 0 7, .next, .unsubscribe 0,
    .subscribe (text "g"), .next, .event 0 8, .next, .next, .close 0, .next]

end Junjo.React
