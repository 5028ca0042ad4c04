import Junjo.Events.GroupStreams

/-!
# What group streams deliver

Over any run of the server, a stream hands its client the events of its group in the order they were
published, from its subscription on. The hub's listeners are the open streams, and the slots count
the streams whose loop has not ended.
-/

namespace Junjo

variable {ε : Type}

/-! ### Slots -/

namespace StreamSlots

lemma getD_decrement (map : Dict Text ℕ) (key key' : Text) :
    ((decrement map key).get? key').getD 0
      = if key' = key then (map.get? key).getD 0 - 1 else (map.get? key').getD 0 := by
  rw [decrement]
  split_ifs with hpos hkey hkey
  · rw [hkey, Dict.get?_set_self, Option.getD_some]
  · rw [Dict.get?_set_of_ne _ _ hkey]
  · rw [hkey, Dict.get?_delete_self, Option.getD_none]
    omega
  · rw [Dict.get?_delete_of_ne _ hkey]

lemma getD_count (map : Dict Text ℕ) (key key' : Text) :
    ((map.set key ((map.get? key).getD 0 + 1)).get? key').getD 0
      = (map.get? key').getD 0 + if key' = key then 1 else 0 := by
  rw [Dict.get?_set]
  split_ifs with hkey
  · rw [hkey, Option.getD_some]
  · rfl

end StreamSlots

/-! ### The hub -/

namespace EventHub

lemma listeners_subscribe {hub : EventHub} {groupId : Text} {id : ℕ}
    (h : id ∉ hub.listeners groupId) (groupId' : Text) :
    (hub.subscribe groupId id).listeners groupId'
      = if groupId' = groupId then hub.listeners groupId ++ [id] else hub.listeners groupId' := by
  rw [subscribe, listeners]
  dsimp only
  rw [if_neg h, Dict.get?_set]
  split_ifs with hgroup
  · rfl
  · rfl

lemma listeners_unsubscribe (hub : EventHub) (groupId : Text) (id : ℕ) (groupId' : Text) :
    (hub.unsubscribe groupId id).listeners groupId'
      = if groupId' = groupId then (hub.listeners groupId).erase id
        else hub.listeners groupId' := by
  cases hset : hub.subscribers.get? groupId with
  | none =>
    rw [unsubscribe, hset]
    dsimp only
    split_ifs with hgroup
    · rw [hgroup, listeners, hset]
      rfl
    · rfl
  | some current =>
    rw [unsubscribe, hset]
    dsimp only
    rw [listeners, listeners, hset, Option.getD_some]
    split_ifs with hnil hgroup hgroup
    · rw [hgroup, Dict.get?_delete_self, hnil]
      rfl
    · rw [Dict.get?_delete_of_ne _ hgroup]
      rfl
    · rw [hgroup, Dict.get?_set_self]
      rfl
    · rw [Dict.get?_set_of_ne _ _ hgroup]
      rfl

end EventHub

/-! ### One stream -/

namespace GroupStream

/-- What the parts of a stream's loop keep of its state. -/
structure Sound (opts : GroupStreamOptions) (st : GroupStream ε) : Prop where
  bounded : st.queue.length ≤ opts.maxQueued
  asleep : st.wake = true →
    st.place = .waiting ∧ st.queue = [] ∧ st.closed = false ∧ st.heartbeatDue = false
  failed : st.place = .beaten false ∨ st.place = .sent false → st.closed = true
  done : st.place = .done ↔ st.released = true
  ended : st.released = true → st.closed = true

/-- The events that the loop has still to hand over. -/
def pending (st : GroupStream ε) : List ε :=
  match st.place with
  | .rendering event => event :: st.queue
  | .sending frame => frame.1 :: st.queue
  | .beaten false | .sent false | .done => []
  | _ => st.queue

/-- The events handed over. -/
def handed (st : GroupStream ε) : List ε := st.frames.map Prod.fst

/-- The events of its group since its subscription are those handed over and those pending, as long
as the stream is open. -/
structure Delivers (history : List ε) (st : GroupStream ε) : Prop where
  ordered : st.handed ++ st.pending <+: history
  complete : st.closed = false → st.handed ++ st.pending = history

variable {opts : GroupStreamOptions} {st : GroupStream ε} {history : List ε}

lemma delivers_self (st : GroupStream ε) : st.Delivers (st.handed ++ st.pending) :=
  ⟨List.prefix_refl _, fun _ => rfl⟩

/-- Closing a stream drops nothing that it had in hand, and wakes its loop. -/
lemma Sound.close (h : st.Sound opts) : ({ st with closed := true }.wakeup).Sound opts :=
  ⟨h.bounded, fun hwake => absurd hwake Bool.false_ne_true, fun _ => rfl, h.done, fun _ => rfl⟩

lemma Delivers.close (h : st.Delivers history) :
    ({ st with closed := true }.wakeup).Delivers history :=
  ⟨h.ordered, fun hopen => absurd hopen.symm Bool.false_ne_true⟩

lemma Sound.wake_eq_false (h : st.Sound opts) (hplace : st.place ≠ .waiting) : st.wake = false := by
  by_contra hwake
  exact hplace (h.asleep (by simpa using hwake)).1

lemma Sound.finish (h : st.Sound opts) (hwake : st.wake = false) :
    GroupStream.Sound opts { st with closed := true, released := true, place := .done } :=
  ⟨h.bounded, fun hwake' => absurd (hwake.symm.trans hwake') Bool.false_ne_true, fun _ => rfl,
    iff_of_true rfl rfl, fun _ => rfl⟩

lemma Delivers.finish (h : st.Delivers history) :
    GroupStream.Delivers history { st with closed := true, released := true, place := .done } := by
  refine ⟨?_, fun hopen => absurd hopen.symm Bool.false_ne_true⟩
  exact (List.prefix_append_right_inj _).mpr (List.nil_prefix) |>.trans h.ordered

/-- What the listener of a stream does with an event. -/
def receive (opts : GroupStreamOptions) (event : ε) (st : GroupStream ε) : GroupStream ε :=
  if st.closed then st
  else if opts.maxQueued ≤ st.queue.length then { st with closed := true }.wakeup
  else { st with queue := st.queue ++ [event] }.wakeup

lemma Sound.receive (h : st.Sound opts) (event : ε) : (st.receive opts event).Sound opts := by
  rw [GroupStream.receive]
  split_ifs with hclosed hfull
  · exact h
  · exact h.close
  · refine ⟨?_, fun hwake => absurd hwake Bool.false_ne_true, h.failed, h.done, h.ended⟩
    change (st.queue ++ [event]).length ≤ opts.maxQueued
    rw [List.length_append, List.length_singleton]
    omega

/-- A stream whose write failed and a stream that is over are closed. -/
lemma Sound.pending_of_open (h : st.Sound opts) (hopen : st.closed = false) (event : ε) :
    pending { st with queue := st.queue ++ [event] } = st.pending ++ [event] := by
  have hfailed := mt h.failed (by simp [hopen])
  have hended := mt h.ended (by simp [hopen])
  rw [← h.done] at hended
  rw [pending, pending]
  cases hplace : st.place with
  | beaten ok =>
    cases ok with
    | false => exact absurd (Or.inl hplace) hfailed
    | true => rfl
  | sent ok =>
    cases ok with
    | false => exact absurd (Or.inr hplace) hfailed
    | true => rfl
  | done => exact absurd hplace hended
  | heartbeat => rfl
  | rendering event => rfl
  | sending frame => rfl
  | waiting => rfl

lemma Delivers.receive (h : st.Delivers history) (hsound : st.Sound opts) (event : ε) :
    (st.receive opts event).Delivers (history ++ [event]) := by
  have hlater : history <+: history ++ [event] := List.prefix_append _ _
  rw [GroupStream.receive]
  split_ifs with hclosed hfull
  · exact ⟨h.ordered.trans hlater, fun hopen => absurd hclosed (by simp [hopen])⟩
  · exact ⟨h.ordered.trans hlater, fun hopen => absurd hopen.symm Bool.false_ne_true⟩
  · have hopen : st.closed = false := by simpa using hclosed
    have hall : st.handed ++ pending { st with queue := st.queue ++ [event] }
        = history ++ [event] := by
      rw [hsound.pending_of_open hopen, ← List.append_assoc, h.complete hopen]
    exact ⟨hall ▸ List.prefix_refl _, fun _ => hall⟩

/-- The stream after a part of its loop, with the `finally` behind it. -/
def settled (st : GroupStream ε) : GroupStream ε :=
  match st.place with
  | .done => { st with closed := true, released := true, place := .done }
  | _ => st

/-- A loop that goes on: nothing that it took from the queue is in its hands. -/
structure Ready (opts : GroupStreamOptions) (st : GroupStream ε) : Prop where
  bounded : st.queue.length ≤ opts.maxQueued
  awake : st.wake = false
  unreleased : st.released = false
  pending_eq : st.pending = st.queue

lemma Sound.ready (h : st.Sound opts) (hawake : st.wake = false)
    (hplace : st.place = .beaten true ∨ st.place = .sent true ∨ st.place = .waiting) :
    st.Ready opts := by
  have hdone : st.place ≠ .done := by rcases hplace with hp | hp | hp <;> simp [hp]
  refine ⟨h.bounded, hawake, ?_, ?_⟩
  · simpa using mt h.done.mpr hdone
  · rcases hplace with hp | hp | hp <;> rw [pending, hp]

lemma Ready.takeEvent (h : st.Ready opts) (hdelivers : st.Delivers history) :
    st.takeEvent.settled.Sound opts ∧ st.takeEvent.settled.Delivers history := by
  obtain ⟨hordered, hcomplete⟩ := hdelivers
  rw [h.pending_eq] at hordered hcomplete
  have hbounded := h.bounded
  rw [GroupStream.takeEvent]
  cases hqueue : st.queue with
  | cons event queue =>
    rw [hqueue] at hordered hcomplete hbounded
    refine ⟨⟨?_, fun hwake => absurd (h.awake.symm.trans hwake) Bool.false_ne_true, ?_, ?_, ?_⟩,
      hordered, hcomplete⟩
    · exact (Nat.le_succ _).trans hbounded
    · simp [settled]
    · simp [settled, h.unreleased]
    · simp [settled, h.unreleased]
  | nil =>
    rw [hqueue] at hordered hcomplete hbounded
    dsimp only
    split_ifs with hclosed hheartbeat
    · refine ⟨⟨?_, ?_, fun _ => rfl, iff_of_true rfl rfl, fun _ => rfl⟩, hordered, ?_⟩
      · simp [settled]
      · exact fun hwake => absurd (h.awake.symm.trans hwake) Bool.false_ne_true
      · exact fun hopen => absurd hopen.symm Bool.false_ne_true
    · refine ⟨⟨?_, ?_, ?_, ?_, ?_⟩, ?_, ?_⟩
      · simp [settled]
      · exact fun hwake => absurd (h.awake.symm.trans hwake) Bool.false_ne_true
      · simp [settled]
      · simp [settled, h.unreleased]
      · simp [settled, h.unreleased]
      · simpa [settled, handed, pending, hqueue] using hordered
      · simpa [settled, handed, pending, hqueue] using hcomplete
    · refine ⟨⟨?_, ?_, ?_, ?_, ?_⟩, ?_, ?_⟩
      · simp [settled]
      · intro _
        exact ⟨rfl, rfl, by simpa [settled] using hclosed, by simpa [settled] using hheartbeat⟩
      · simp [settled]
      · simp [settled, h.unreleased]
      · simp [settled, h.unreleased]
      · simpa [settled, handed, pending, hqueue] using hordered
      · simpa [settled, handed, pending, hqueue] using hcomplete

lemma Ready.loop (h : st.Ready opts) (hdelivers : st.Delivers history) :
    st.loop.settled.Sound opts ∧ st.loop.settled.Delivers history := by
  rw [GroupStream.loop]
  split_ifs with hclosed hheartbeat
  · refine ⟨⟨h.bounded, ?_, fun _ => rfl, iff_of_true rfl rfl, fun _ => rfl⟩, ?_⟩
    · exact fun hwake => absurd (h.awake.symm.trans hwake) Bool.false_ne_true
    · exact hdelivers.finish
  · refine ⟨⟨h.bounded, ?_, ?_, ?_, ?_⟩, ?_, ?_⟩
    · exact fun hwake => absurd (h.awake.symm.trans hwake) Bool.false_ne_true
    · simp [settled]
    · simp [settled, h.unreleased]
    · simp [settled, h.unreleased]
    · exact h.pending_eq ▸ hdelivers.ordered
    · exact h.pending_eq ▸ hdelivers.complete
  · exact h.takeEvent hdelivers

/-- Where a loop takes no step of its own: it is over, or asleep. -/
def AtRest (st : GroupStream ε) : Prop := st.place = .done ∨ st.wake = true

/-- A bound on the steps that a loop takes before it rests. -/
def toDo (st : GroupStream ε) : ℕ :=
  (match st.place with
    | .heartbeat => 2
    | .beaten _ => 1
    | .rendering _ => 3
    | .sending _ => 2
    | .sent _ => 1
    | .waiting => if st.wake then 0 else 1
    | .done => 0) + 3 * st.queue.length + 2 * st.heartbeatDue.toNat

lemma toDo_takeEvent (st : GroupStream ε) :
    st.takeEvent.settled.toDo ≤ 3 * st.queue.length + 2 * st.heartbeatDue.toNat ∧
      st.takeEvent.settled.closed = st.closed := by
  rw [GroupStream.takeEvent]
  cases hqueue : st.queue with
  | cons event queue =>
    refine ⟨?_, rfl⟩
    simp only [toDo, settled, List.length_cons]
    omega
  | nil =>
    dsimp only
    split_ifs with hclosed hheartbeat <;> simp_all [toDo, settled]

lemma toDo_loop (st : GroupStream ε) :
    st.loop.settled.toDo ≤ 3 * st.queue.length + 2 * st.heartbeatDue.toNat ∧
      st.loop.settled.closed = st.closed := by
  rw [GroupStream.loop]
  split_ifs with hclosed hheartbeat
  · simp [toDo, settled, hclosed]
  · simp [toDo, settled, hheartbeat, add_comm]
  · exact toDo_takeEvent st

end GroupStream

/-! ### The server -/

namespace GroupStreamServer

open GroupStream

variable {opts : GroupStreamOptions} {groupOf : ε → Option Text} {s s' : GroupStreamServer ε}

/-- How many streams of a kind have not ended. -/
def unfinished (s : GroupStreamServer ε) (p : GroupStream ε → Bool) : ℕ :=
  s.streams.countP fun st => p st && !st.released

/-- The hub's listeners are the open streams and the slots count those that have not ended. -/
structure Holds (opts : GroupStreamOptions) (s : GroupStreamServer ε) : Prop where
  sound : ∀ st ∈ s.streams, st.Sound opts
  listening : ∀ groupId id, id ∈ s.hub.listeners groupId ↔
    ∃ st, s.streams[id]? = some st ∧ st.groupId = groupId ∧ st.closed = false
  distinct : ∀ groupId, (s.hub.listeners groupId).Nodup
  perKey : ∀ key, (s.slots.perKey.get? key).getD 0 = s.unfinished fun st => st.apiKeyPrefix = key
  perGame : ∀ gameId,
    (s.slots.perGame.get? gameId).getD 0 = s.unfinished fun st => st.gameId = gameId
  keyBound : ∀ key, s.unfinished (fun st => st.apiKeyPrefix = key) ≤ opts.maxGroupStreamsPerKey
  gameBound : ∀ gameId, s.unfinished (fun st => st.gameId = gameId) ≤ opts.maxGroupStreamsPerGame

/-- What a step of one stream changes. -/
structure Moved (s : GroupStreamServer ε) (id : ℕ) (st st' : GroupStream ε)
    (s' : GroupStreamServer ε) : Prop where
  streams : s'.streams = s.streams.set id st'
  listeners : ∀ groupId, s'.hub.listeners groupId
    = if st'.closed then (s.hub.unsubscribe st.groupId id).listeners groupId
      else s.hub.listeners groupId
  slots : s'.slots = if st'.released = st.released then s.slots
    else s.slots.release st.apiKeyPrefix st.gameId
  apiKeyPrefix : st'.apiKeyPrefix = st.apiKeyPrefix
  gameId : st'.gameId = st.gameId
  groupId : st'.groupId = st.groupId
  closed : st.closed = true → st'.closed = true
  released : st.released = true → st'.released = true

variable {id : ℕ} {st st' : GroupStream ε}

lemma countP_pos_of_get {p : GroupStream ε → Bool} (hst : s.streams[id]? = some st)
    (hp : (p st && !st.released) = true) : 1 ≤ s.unfinished p :=
  List.countP_pos_iff.mpr ⟨st, List.mem_of_getElem? hst, hp⟩

/-- A stream whose loop ends in a step is no longer counted. -/
lemma Moved.unfinished (hm : Moved s id st st' s') (hst : s.streams[id]? = some st)
    {p : GroupStream ε → Bool} (hp : p st' = p st) :
    s'.unfinished p = if st'.released = st.released then s.unfinished p
      else s.unfinished p - if p st then 1 else 0 := by
  obtain ⟨hid, hget⟩ := List.getElem?_eq_some_iff.mp hst
  have hcount :=
    List.countP_set (p := fun st : GroupStream ε => p st && !st.released) (a := st') hid
  have hpos := countP_pos_of_get (s := s) (p := p) hst
  have hreleased := hm.released
  rw [hget, hp] at hcount
  rw [GroupStreamServer.unfinished, hm.streams, hcount]
  rw [GroupStreamServer.unfinished] at hpos ⊢
  cases hr : st.released <;> cases hr' : st'.released <;> cases hps : p st <;> simp_all

lemma Moved.holds (h : s.Holds opts) (hm : Moved s id st st' s') (hst : s.streams[id]? = some st)
    (hsound : st'.Sound opts) : s'.Holds opts := by
  obtain ⟨hid, hget⟩ := List.getElem?_eq_some_iff.mp hst
  have hself : s'.streams[id]? = some st' := by rw [hm.streams, List.getElem?_set_self hid]
  have hother : ∀ j, j ≠ id → s'.streams[j]? = s.streams[j]? := fun j hj => by
    rw [hm.streams, List.getElem?_set_ne hj.symm]
  have hkeys : ∀ key, s'.unfinished (fun st => st.apiKeyPrefix = key)
      = if st'.released = st.released then s.unfinished fun st => st.apiKeyPrefix = key
        else (s.unfinished fun st => st.apiKeyPrefix = key)
          - if st.apiKeyPrefix = key then 1 else 0 := by
    intro key
    rw [hm.unfinished hst (p := fun st => st.apiKeyPrefix = key) (by rw [hm.apiKeyPrefix])]
    simp only [decide_eq_true_eq]
  have hgames : ∀ gameId, s'.unfinished (fun st => st.gameId = gameId)
      = if st'.released = st.released then s.unfinished fun st => st.gameId = gameId
        else (s.unfinished fun st => st.gameId = gameId) - if st.gameId = gameId then 1 else 0 := by
    intro gameId
    rw [hm.unfinished hst (p := fun st => st.gameId = gameId) (by rw [hm.gameId])]
    simp only [decide_eq_true_eq]
  refine ⟨?_, ?_, ?_, ?_, ?_, ?_, ?_⟩
  · intro x hx
    rw [hm.streams] at hx
    rcases List.mem_or_eq_of_mem_set hx with hx | rfl
    · exact h.sound x hx
    · exact hsound
  · intro groupId j
    rw [hm.listeners]
    by_cases hj : j = id
    · subst hj
      rw [hself]
      cases hclosed : st'.closed with
      | true =>
        rw [if_pos rfl, EventHub.listeners_unsubscribe]
        constructor
        · intro hmem
          split_ifs at hmem with hgroup
          · exact absurd hmem ((h.distinct _).not_mem_erase)
          · obtain ⟨x, hx, hgroup', -⟩ := (h.listening groupId j).mp hmem
            obtain rfl := Option.some.inj (hst.symm.trans hx)
            exact absurd hgroup'.symm hgroup
        · rintro ⟨x, hx, -, hopen⟩
          obtain rfl := Option.some.inj hx
          exact absurd (hclosed.symm.trans hopen) (by decide)
      | false =>
        have hopen : st.closed = false := by
          by_contra hne
          exact absurd (hclosed.symm.trans (hm.closed (by simpa using hne))) (by decide)
        rw [if_neg (by decide), h.listening, hst]
        simp only [Option.some.injEq, exists_eq_left', hm.groupId, hopen, hclosed]
    · rw [hother j hj, ← h.listening]
      split_ifs with hclosed
      · rw [EventHub.listeners_unsubscribe]
        split_ifs with hgroup
        · rw [List.mem_erase_of_ne hj, hgroup]
        · rfl
      · rfl
  · intro groupId
    rw [hm.listeners]
    split_ifs with hclosed
    · rw [EventHub.listeners_unsubscribe]
      split_ifs with hgroup
      · exact (h.distinct _).erase _
      · exact h.distinct _
    · exact h.distinct _
  · intro key
    rw [hkeys, hm.slots]
    split_ifs with hsame hkey
    · exact h.perKey key
    · rw [StreamSlots.release, StreamSlots.getD_decrement, if_pos hkey.symm, h.perKey, hkey]
    · rw [StreamSlots.release, StreamSlots.getD_decrement, if_neg (Ne.symm hkey), h.perKey]
      rfl
  · intro gameId
    rw [hgames, hm.slots]
    split_ifs with hsame hgame
    · exact h.perGame gameId
    · rw [StreamSlots.release, StreamSlots.getD_decrement, if_pos hgame.symm, h.perGame, hgame]
    · rw [StreamSlots.release, StreamSlots.getD_decrement, if_neg (Ne.symm hgame), h.perGame]
      rfl
  · intro key
    rw [hkeys]
    split_ifs
    · exact h.keyBound key
    · exact (Nat.sub_le _ _).trans (h.keyBound key)
    · exact (Nat.sub_le _ _).trans (h.keyBound key)
  · intro gameId
    rw [hgames]
    split_ifs
    · exact h.gameBound gameId
    · exact (Nat.sub_le _ _).trans (h.gameBound gameId)
    · exact (Nat.sub_le _ _).trans (h.gameBound gameId)

/-- A change of a stream that neither closes nor ends it. -/
structure Same (st st' : GroupStream ε) : Prop where
  apiKeyPrefix : st'.apiKeyPrefix = st.apiKeyPrefix
  gameId : st'.gameId = st.gameId
  groupId : st'.groupId = st.groupId
  closed : st'.closed = st.closed
  released : st'.released = st.released

lemma Same.refl (st : GroupStream ε) : Same st st := ⟨rfl, rfl, rfl, rfl, rfl⟩

lemma Holds.listeners_of_closed (h : s.Holds opts) (hst : s.streams[id]? = some st)
    (hclosed : st.closed = true) (groupId : Text) :
    (s.hub.unsubscribe st.groupId id).listeners groupId = s.hub.listeners groupId := by
  rw [EventHub.listeners_unsubscribe]
  split_ifs with hgroup
  · rw [hgroup]
    refine List.erase_of_not_mem fun hmem => ?_
    obtain ⟨x, hx, -, hopen⟩ := (h.listening _ _).mp hmem
    obtain rfl := Option.some.inj (hst.symm.trans hx)
    exact absurd (hclosed.symm.trans hopen) (by decide)
  · rfl

lemma moved_setStream (h : s.Holds opts) (hst : s.streams[id]? = some st) (hsame : Same st st') :
    Moved s id st st' (s.setStream id st') where
  streams := rfl
  listeners groupId := by
    rw [hsame.closed]
    split_ifs with hclosed
    · exact (h.listeners_of_closed hst hclosed groupId).symm
    · rfl
  slots := (if_pos hsame.released).symm
  apiKeyPrefix := hsame.apiKeyPrefix
  gameId := hsame.gameId
  groupId := hsame.groupId
  closed := hsame.closed.trans
  released := hsame.released.trans

lemma moved_closeStream (hsame : Same st st') :
    Moved s id st ({ st' with closed := true }.wakeup) (s.closeStream id st') where
  streams := rfl
  listeners groupId := by
    rw [← hsame.groupId]
    exact (if_pos rfl).symm
  slots := (if_pos hsame.released).symm
  apiKeyPrefix := hsame.apiKeyPrefix
  gameId := hsame.gameId
  groupId := hsame.groupId
  closed _ := rfl
  released := hsame.released.trans

lemma moved_finish (hsame : Same st st') :
    Moved s id st { st' with closed := true, released := true, place := .done }
      (s.finish id st') where
  streams := rfl
  listeners groupId := by
    rw [← hsame.groupId]
    exact (if_pos rfl).symm
  slots := by
    rw [← hsame.apiKeyPrefix, ← hsame.gameId, ← hsame.released]
    rw [finish, setStream]
    cases st'.released <;> rfl
  apiKeyPrefix := hsame.apiKeyPrefix
  gameId := hsame.gameId
  groupId := hsame.groupId
  closed _ := rfl
  released _ := rfl

lemma moved_settle (h : s.Holds opts) (hst : s.streams[id]? = some st) (hsame : Same st st') :
    Moved s id st st'.settled (s.settle id st') := by
  rw [settle, settled]
  cases hplace : st'.place with
  | done => exact moved_finish hsame
  | heartbeat => exact moved_setStream h hst hsame
  | beaten sent => exact moved_setStream h hst hsame
  | rendering event => exact moved_setStream h hst hsame
  | sending frame => exact moved_setStream h hst hsame
  | sent sent => exact moved_setStream h hst hsame
  | waiting => exact moved_setStream h hst hsame

lemma same_takeEvent (st : GroupStream ε) : Same st st.takeEvent := by
  rw [takeEvent]
  cases st.queue with
  | cons event queue => exact ⟨rfl, rfl, rfl, rfl, rfl⟩
  | nil =>
    dsimp only
    split_ifs <;> exact ⟨rfl, rfl, rfl, rfl, rfl⟩

lemma same_loop (st : GroupStream ε) : Same st st.loop := by
  rw [loop]
  split_ifs
  · exact ⟨rfl, rfl, rfl, rfl, rfl⟩
  · exact ⟨rfl, rfl, rfl, rfl, rfl⟩
  · exact same_takeEvent st

/-- A step of one stream. It keeps what the stream is to deliver. -/
def Steps (opts : GroupStreamOptions) (s : GroupStreamServer ε) (id : ℕ) (st : GroupStream ε)
    (s' : GroupStreamServer ε) : Prop :=
  ∃ st', Moved s id st st' s' ∧ st'.Sound opts ∧
    ∀ history, st.Delivers history → st'.Delivers history

lemma closeStream_steps (hsound : st.Sound opts) : Steps opts s id st (s.closeStream id st) :=
  ⟨_, moved_closeStream (Same.refl st), hsound.close, fun _ => Delivers.close⟩

lemma finish_steps (hsound : st.Sound opts) (hplace : st.place ≠ .waiting) :
    Steps opts s id st (s.finish id st) :=
  ⟨_, moved_finish (Same.refl st), hsound.finish (hsound.wake_eq_false hplace),
    fun _ => Delivers.finish⟩

/-- The end of a write. The client was handed the frame if the write went well. -/
lemma write_steps (h : s.Holds opts) (hst : s.streams[id]? = some st) (hsound : st.Sound opts)
    (hwaits : st.place ≠ .waiting) (hdone : st.place ≠ .done) {place : Bool → LoopPlace ε}
    (hplace : place = .beaten ∨ place = .sent) (frames : List (ε × List Text))
    (hpending : st.pending = frames.map Prod.fst ++ st.queue) (outcome : WriteOutcome) :
    Steps opts s id st
      (s.write id (if outcome = .ok then { st with frames := st.frames ++ frames } else st) place
        outcome) := by
  have hawake := hsound.wake_eq_false hwaits
  have hreleased := mt hsound.done.mpr hdone
  have hfails : ∀ st' : GroupStream ε, Same st st' → st'.queue = st.queue → st'.frames = st.frames →
      st'.place = place false → Steps opts s id st (s.closeStream id st') := by
    intro st' hsame hqueue hframes hfalse
    have hnone : st'.pending = [] := by
      rw [pending, hfalse]
      rcases hplace with rfl | rfl <;> rfl
    refine ⟨_, moved_closeStream hsame, ⟨?_, ?_, fun _ => rfl, ?_, fun _ => rfl⟩,
      fun history hd => ?_⟩
    · exact hqueue ▸ hsound.bounded
    · exact fun hwake => absurd hwake Bool.false_ne_true
    · have hne : st'.place ≠ .done := by
        rw [hfalse]
        rcases hplace with rfl | rfl <;> simp
      exact iff_of_false hne (hsame.released ▸ hreleased)
    · refine ⟨?_, fun hopen => absurd hopen.symm Bool.false_ne_true⟩
      change st'.handed ++ st'.pending <+: history
      rw [hnone, List.append_nil, handed, hframes]
      exact (List.prefix_append _ _).trans hd.ordered
  cases outcome with
  | error => exact hfails _ ⟨rfl, rfl, rfl, rfl, rfl⟩ rfl rfl rfl
  | timeout => exact hfails _ ⟨rfl, rfl, rfl, rfl, rfl⟩ rfl rfl rfl
  | ok =>
    rw [if_pos rfl, write]
    refine ⟨_, moved_setStream h hst ⟨rfl, rfl, rfl, rfl, rfl⟩,
      ⟨hsound.bounded, ?_, ?_, ?_, hsound.ended⟩, fun history hd => ?_⟩
    · exact fun hwake => absurd (hawake.symm.trans hwake) Bool.false_ne_true
    · rcases hplace with rfl | rfl <;> simp
    · rcases hplace with rfl | rfl <;> exact iff_of_false (by simp) hreleased
    · have hall : GroupStream.handed { st with frames := st.frames ++ frames, place := place true }
          ++ GroupStream.pending { st with frames := st.frames ++ frames, place := place true }
          = st.handed ++ st.pending := by
        have hqueue : GroupStream.pending
            { st with frames := st.frames ++ frames, place := place true } = st.queue := by
          rcases hplace with rfl | rfl <;> rfl
        rw [hqueue, hpending, handed, handed, List.map_append, List.append_assoc]
      exact ⟨hall ▸ hd.ordered, fun hopen => hall ▸ hd.complete hopen⟩

lemma turn_steps (h : s.Holds opts) (hst : s.streams[id]? = some st) {outcome : WriteOutcome}
    (hturn : s.turn id st outcome = some s') : Steps opts s id st s' := by
  have hsound := h.sound st (List.mem_of_getElem? hst)
  rw [turn] at hturn
  cases hplace : st.place with
  | heartbeat =>
    rw [hplace] at hturn
    have hwrite := write_steps h hst hsound (by simp [hplace]) (by simp [hplace]) (Or.inl rfl) []
      (by rw [pending, hplace]; rfl) outcome
    rw [List.append_nil, ite_self] at hwrite
    exact Option.some.inj hturn ▸ hwrite
  | beaten sent =>
    rw [hplace] at hturn
    cases sent with
    | true =>
      obtain rfl := Option.some.inj hturn
      have hready := hsound.ready (hsound.wake_eq_false (by simp [hplace])) (Or.inl hplace)
      exact ⟨_, moved_settle h hst (same_takeEvent st),
        (hready.takeEvent (delivers_self st)).1, fun history hd => (hready.takeEvent hd).2⟩
    | false =>
      obtain rfl := Option.some.inj hturn
      exact finish_steps hsound (by simp [hplace])
  | rendering event =>
    rw [hplace] at hturn
    dsimp only at hturn
    obtain rfl := Option.some.inj hturn
    split_ifs with hclosed
    · exact finish_steps hsound (by simp [hplace])
    · have hreleased := mt hsound.done.mpr (by simp [hplace] : st.place ≠ .done)
      have hpending : GroupStream.pending { st with place := .sending (event, st.preferred) }
          = st.pending := by
        rw [pending, pending, hplace]
      refine ⟨_, moved_setStream h hst ⟨rfl, rfl, rfl, rfl, rfl⟩,
        ⟨hsound.bounded, ?_, ?_, ?_, hsound.ended⟩,
        fun history hd => ⟨hpending ▸ hd.ordered, fun hopen => hpending ▸ hd.complete hopen⟩⟩
      · intro hwake
        have hawake := hsound.wake_eq_false (by simp [hplace])
        exact absurd (hawake.symm.trans hwake) Bool.false_ne_true
      · simp
      · exact iff_of_false (by simp) hreleased
  | sending frame =>
    rw [hplace] at hturn
    have hwrite := write_steps h hst hsound (by simp [hplace]) (by simp [hplace]) (Or.inr rfl)
      [frame] (by rw [pending, hplace]; rfl) outcome
    rw [hplace] at hwrite
    exact Option.some.inj hturn ▸ hwrite
  | sent sent =>
    rw [hplace] at hturn
    cases sent with
    | true =>
      obtain rfl := Option.some.inj hturn
      have hready := hsound.ready (hsound.wake_eq_false (by simp [hplace])) (Or.inr (Or.inl hplace))
      exact ⟨_, moved_settle h hst (same_loop st),
        (hready.loop (delivers_self st)).1, fun history hd => (hready.loop hd).2⟩
    | false =>
      obtain rfl := Option.some.inj hturn
      exact finish_steps hsound (by simp [hplace])
  | waiting =>
    rw [hplace] at hturn
    dsimp only at hturn
    split_ifs at hturn with hwake
    obtain rfl := Option.some.inj hturn
    have hready := hsound.ready (by simpa using hwake) (Or.inr (Or.inr hplace))
    exact ⟨_, moved_settle h hst (same_loop st),
      (hready.loop (delivers_self st)).1, fun history hd => (hready.loop hd).2⟩
  | done =>
    rw [hplace] at hturn
    cases hturn

lemma heartbeat_steps (h : s.Holds opts) (hst : s.streams[id]? = some st) (hsound : st.Sound opts)
    (preferred : List Text) :
    Steps opts s id st (s.setStream id { st with preferred, heartbeatDue := true }.wakeup) :=
  ⟨_, moved_setStream h hst ⟨rfl, rfl, rfl, rfl, rfl⟩,
    ⟨hsound.bounded, fun hwake => absurd hwake Bool.false_ne_true, hsound.failed, hsound.done,
      hsound.ended⟩,
    fun _ hd => ⟨hd.ordered, hd.complete⟩⟩

lemma recheck_steps (h : s.Holds opts) (hst : s.streams[id]? = some st) (key : StreamKeyCheck) :
    Steps opts s id st (s.recheck id st key) ∨ s.recheck id st key = s := by
  have hsound := h.sound st (List.mem_of_getElem? hst)
  unfold recheck
  split_ifs with hclosed
  · exact Or.inr rfl
  · refine Or.inl ?_
    cases key with
    | live preferred => exact heartbeat_steps h hst hsound preferred
    | revoked => exact closeStream_steps hsound
    | unknown => exact heartbeat_steps h hst hsound st.preferred

/-! #### Requests -/

lemma holds_new : ({} : GroupStreamServer ε).Holds opts where
  sound st hst := absurd hst List.not_mem_nil
  listening groupId id := by simp [EventHub.listeners]
  distinct groupId := by simp [EventHub.listeners]
  perKey key := rfl
  perGame gameId := rfl
  keyBound key := Nat.zero_le _
  gameBound gameId := Nat.zero_le _

lemma unfinished_concat (p : GroupStream ε → Bool) (st : GroupStream ε) (slots : StreamSlots)
    (hub : EventHub) :
    unfinished { slots, hub, streams := s.streams ++ [st] } p
      = s.unfinished p + if p st && !st.released then 1 else 0 := by
  rw [unfinished, List.countP_append, List.countP_singleton, unfinished]

/-- What a request that gets a stream changes. -/
lemma subscribeEvents_eq_stream {found : Bool} {apiKeyPrefix gameId groupId : Text}
    {preferred : List Text}
    (h : (s.subscribeEvents opts found apiKeyPrefix gameId groupId preferred).2 = .stream id) :
    found = true ∧ id = s.streams.length ∧
      ∃ slots, s.slots.tryAcquire opts.maxGroupStreamsPerKey opts.maxGroupStreamsPerGame
          apiKeyPrefix gameId = some slots ∧
        (s.subscribeEvents opts found apiKeyPrefix gameId groupId preferred).1
          = { slots, hub := s.hub.subscribe groupId s.streams.length
              streams :=
                s.streams ++ [{ apiKeyPrefix, gameId, groupId, preferred, wake := true }] } := by
  rw [subscribeEvents] at h ⊢
  cases found with
  | false => cases h
  | true =>
    simp only [Bool.not_true, Bool.false_eq_true, if_false] at h ⊢
    cases hslots : s.slots.tryAcquire opts.maxGroupStreamsPerKey opts.maxGroupStreamsPerGame
        apiKeyPrefix gameId with
    | none =>
      rw [hslots] at h
      cases h
    | some slots =>
      rw [hslots] at h
      exact ⟨trivial, (SubscribeAnswer.stream.inj h).symm, slots, rfl, rfl⟩

lemma subscribeEvents_eq_self {found : Bool} {apiKeyPrefix gameId groupId : Text}
    {preferred : List Text}
    (h : ∀ id,
      (s.subscribeEvents opts found apiKeyPrefix gameId groupId preferred).2 ≠ .stream id) :
    (s.subscribeEvents opts found apiKeyPrefix gameId groupId preferred).1 = s := by
  rw [subscribeEvents] at h ⊢
  cases found with
  | false => rfl
  | true =>
    simp only [Bool.not_true, Bool.false_eq_true, if_false] at h ⊢
    cases hslots : s.slots.tryAcquire opts.maxGroupStreamsPerKey opts.maxGroupStreamsPerGame
        apiKeyPrefix gameId with
    | none => rfl
    | some slots =>
      rw [hslots] at h
      exact absurd rfl (h s.streams.length)

lemma tryAcquire_eq_some {slots slots' : StreamSlots} {maxPerKey maxPerGame : ℕ}
    {key gameId : Text} :
    slots.tryAcquire maxPerKey maxPerGame key gameId = some slots' ↔
      (slots.perKey.get? key).getD 0 < maxPerKey ∧ (slots.perGame.get? gameId).getD 0 < maxPerGame ∧
        slots' =
          { perKey := slots.perKey.set key ((slots.perKey.get? key).getD 0 + 1)
            perGame := slots.perGame.set gameId ((slots.perGame.get? gameId).getD 0 + 1) } := by
  rw [StreamSlots.tryAcquire]
  split_ifs with hkey hgame
  · simp [Nat.not_lt.mpr hkey]
  · simp [Nat.not_lt.mpr hgame]
  · rw [Option.some.injEq]
    exact ⟨fun h => ⟨Nat.lt_of_not_le hkey, Nat.lt_of_not_le hgame, h.symm⟩, fun h => h.2.2.symm⟩

lemma Holds.subscribeEvents (h : s.Holds opts) (found : Bool) (apiKeyPrefix gameId groupId : Text)
    (preferred : List Text) :
    (s.subscribeEvents opts found apiKeyPrefix gameId groupId preferred).1.Holds opts := by
  by_cases hstream : ∃ id,
    (s.subscribeEvents opts found apiKeyPrefix gameId groupId preferred).2 = .stream id
  · obtain ⟨id, hid⟩ := hstream
    obtain ⟨-, -, slots, hslots, heq⟩ := subscribeEvents_eq_stream hid
    obtain ⟨hkey, hgame, rfl⟩ := tryAcquire_eq_some.mp hslots
    have hfresh : ∀ groupId, s.streams.length ∉ s.hub.listeners groupId := by
      intro groupId hmem
      obtain ⟨st, hst, -⟩ := (h.listening _ _).mp hmem
      rw [List.getElem?_eq_none le_rfl] at hst
      cases hst
    rw [h.perKey] at hkey
    rw [h.perGame] at hgame
    rw [heq]
    refine ⟨?_, ?_, ?_, ?_, ?_, ?_, ?_⟩
    · intro st hst
      rw [List.mem_append, List.mem_singleton] at hst
      rcases hst with hst | rfl
      · exact h.sound st hst
      · exact ⟨Nat.zero_le _, fun _ => ⟨rfl, rfl, rfl, rfl⟩, fun hf => by simp at hf,
          iff_of_false (by simp) Bool.false_ne_true, fun hr => absurd hr Bool.false_ne_true⟩
    · intro groupId' j
      dsimp only
      rw [EventHub.listeners_subscribe (hfresh groupId)]
      rcases lt_trichotomy j s.streams.length with hj | rfl | hj
      · rw [List.getElem?_append_left hj, ← h.listening]
        split_ifs with hgroup
        · rw [hgroup, List.mem_append, List.mem_singleton]
          exact or_iff_left hj.ne
        · rfl
      · rw [List.getElem?_concat_length]
        constructor
        · intro hmem
          split_ifs at hmem with hgroup
          · exact ⟨_, rfl, hgroup.symm, rfl⟩
          · exact absurd hmem (hfresh groupId')
        · rintro ⟨st, hst, hgroup, -⟩
          obtain rfl := Option.some.inj hst
          rw [if_pos hgroup.symm]
          exact List.mem_append_right _ (List.mem_singleton.mpr rfl)
      · rw [List.getElem?_eq_none (by rw [List.length_append, List.length_singleton]; omega)]
        constructor
        · intro hmem
          have hnot : ∀ groupId, j ∉ s.hub.listeners groupId := by
            intro groupId hmem
            obtain ⟨st, hst, -⟩ := (h.listening _ _).mp hmem
            rw [List.getElem?_eq_none hj.le] at hst
            cases hst
          split_ifs at hmem with hgroup
          · rw [List.mem_append, List.mem_singleton] at hmem
            exact (hmem.elim (hnot _) hj.ne').elim
          · exact (hnot _ hmem).elim
        · rintro ⟨st, hst, -⟩
          cases hst
    · intro groupId'
      dsimp only
      rw [EventHub.listeners_subscribe (hfresh groupId)]
      split_ifs with hgroup
      · exact List.Nodup.append (h.distinct _) (List.nodup_singleton _)
          (by simpa using hfresh groupId)
      · exact h.distinct _
    · intro key
      rw [unfinished_concat, StreamSlots.getD_count, h.perKey]
      simp [eq_comm]
    · intro gameId'
      rw [unfinished_concat, StreamSlots.getD_count, h.perGame]
      simp [eq_comm]
    · intro key
      rw [unfinished_concat]
      have := h.keyBound key
      simp only [Bool.not_false, Bool.and_true, decide_eq_true_eq]
      split_ifs with heq
      · subst heq
        exact hkey
      · exact this
    · intro gameId'
      rw [unfinished_concat]
      have := h.gameBound gameId'
      simp only [Bool.not_false, Bool.and_true, decide_eq_true_eq]
      split_ifs with heq
      · subst heq
        exact hgame
      · exact this
  · rw [not_exists] at hstream
    rw [subscribeEvents_eq_self hstream]
    exact h

/-! #### Events -/

lemma listener_steps (h : s.Holds opts) (event : ε) (id : ℕ) :
    (listener opts event s id).Holds opts := by
  rw [listener]
  cases hst : s.streams[id]? with
  | none => exact h
  | some st =>
    have hsound := h.sound st (List.mem_of_getElem? hst)
    dsimp only
    have hreceive := hsound.receive event
    rw [receive] at hreceive
    split_ifs at hreceive ⊢ with hclosed hfull
    · exact h
    · exact (moved_closeStream (Same.refl st)).holds h hst hreceive
    · have hsame : Same st { st with queue := st.queue ++ [event] }.wakeup :=
        ⟨rfl, rfl, rfl, rfl, rfl⟩
      exact (moved_setStream h hst hsame).holds h hst hreceive

lemma listener_streams (event : ε) (hst : s.streams[id]? = some st) :
    (listener opts event s id).streams = s.streams.set id (st.receive opts event) := by
  rw [listener, hst, receive]
  dsimp only
  split_ifs with hclosed hfull
  · obtain ⟨hid, rfl⟩ := List.getElem?_eq_some_iff.mp hst
    rw [List.set_getElem_self]
  · rfl
  · rfl

lemma getElem?_listener (event : ε) (id j : ℕ) :
    (listener opts event s id).streams[j]?
      = if j = id then s.streams[j]?.map (receive opts event) else s.streams[j]? := by
  cases hst : s.streams[id]? with
  | none =>
    rw [listener, hst]
    dsimp only
    split_ifs with hj
    · rw [hj, hst]
      rfl
    · rfl
  | some st =>
    rw [listener_streams event hst]
    split_ifs with hj
    · obtain ⟨hid, -⟩ := List.getElem?_eq_some_iff.mp hst
      rw [hj, List.getElem?_set_self hid, hst, Option.map_some]
    · rw [List.getElem?_set_ne (Ne.symm hj)]

lemma foldl_listener_holds (h : s.Holds opts) (event : ε) (ids : List ℕ) :
    (ids.foldl (listener opts event) s).Holds opts := by
  induction ids generalizing s with
  | nil => exact h
  | cons id ids ih => exact ih (listener_steps h event id)

/-- Each listener is told once. -/
lemma foldl_listener_streams (event : ε) {ids : List ℕ} (hids : ids.Nodup) (j : ℕ) :
    (ids.foldl (listener opts event) s).streams[j]?
      = if j ∈ ids then s.streams[j]?.map (receive opts event) else s.streams[j]? := by
  induction ids generalizing s with
  | nil => rfl
  | cons id ids ih =>
    obtain ⟨hid, hids⟩ := List.nodup_cons.mp hids
    rw [List.foldl_cons, ih hids, getElem?_listener]
    by_cases hj : j = id
    · subst hj
      rw [if_neg hid, if_pos rfl, if_pos List.mem_cons_self]
    · simp [hj]

lemma Holds.publish (h : s.Holds opts) (event : ε) : (s.publish groupOf opts event).Holds opts := by
  rw [GroupStreamServer.publish]
  cases groupOf event with
  | none => exact h
  | some groupId => exact foldl_listener_holds h event _

/-- An event of a group goes to the group's open streams, and a closed one takes no event. -/
lemma Holds.publish_streams (h : s.Holds opts) (event : ε) {j : ℕ} (hst : s.streams[j]? = some st) :
    (s.publish groupOf opts event).streams[j]?
      = some (if groupOf event = some st.groupId then st.receive opts event else st) := by
  rw [GroupStreamServer.publish]
  cases hgroup : groupOf event with
  | none => simpa using hst
  | some groupId =>
    dsimp only
    rw [foldl_listener_streams event (h.distinct groupId), hst, Option.map_some]
    by_cases hsame : groupId = st.groupId
    · subst hsame
      rw [if_pos rfl]
      split_ifs with hmem
      · rfl
      · have hclosed : st.closed = true := by
          by_contra hopen
          exact hmem ((h.listening _ _).mpr ⟨st, hst, rfl, by simpa using hopen⟩)
        rw [receive, if_pos hclosed]
    · have hmem : j ∉ s.hub.listeners groupId := by
        intro hmem
        obtain ⟨x, hx, hgroup', -⟩ := (h.listening _ _).mp hmem
        obtain rfl := Option.some.inj (hst.symm.trans hx)
        exact hsame hgroup'.symm
      rw [if_neg hmem, if_neg (by simpa using hsame)]

/-- A step that is no publish and no request is one of a stream, or changes nothing. -/
lemma next_cases (h : s.Holds opts) {event : GroupStreamEvent ε}
    (hnext : s.next groupOf opts event = some s') :
    (∃ found key gameId groupId preferred, event = .subscribe found key gameId groupId preferred ∧
      s' = (s.subscribeEvents opts found key gameId groupId preferred).1) ∨
    (∃ e, event = .publish e ∧ s' = s.publish groupOf opts e) ∨
    (∀ e, event ≠ .publish e) ∧
      ((∃ id st, s.streams[id]? = some st ∧ Steps opts s id st s') ∨ s' = s) := by
  cases event with
  | subscribe found key gameId groupId preferred =>
    exact Or.inl ⟨found, key, gameId, groupId, preferred, rfl, (Option.some.inj hnext).symm⟩
  | publish e => exact Or.inr (Or.inl ⟨e, rfl, (Option.some.inj hnext).symm⟩)
  | turn id outcome =>
    obtain ⟨st, hst, hturn⟩ := Option.bind_eq_some_iff.mp hnext
    exact Or.inr (Or.inr ⟨by simp, Or.inl ⟨id, st, hst, turn_steps h hst hturn⟩⟩)
  | recheck id key =>
    obtain ⟨st, hst, rfl⟩ := Option.map_eq_some_iff.mp hnext
    refine Or.inr (Or.inr ⟨by simp, ?_⟩)
    exact (recheck_steps h hst key).imp_left fun hsteps => ⟨id, st, hst, hsteps⟩
  | abort id =>
    obtain ⟨st, hst, rfl⟩ := Option.map_eq_some_iff.mp hnext
    exact Or.inr (Or.inr ⟨by simp, Or.inl ⟨id, st, hst,
      closeStream_steps (h.sound st (List.mem_of_getElem? hst))⟩⟩)

lemma next_holds (h : s.Holds opts) {event : GroupStreamEvent ε}
    (hnext : s.next groupOf opts event = some s') : s'.Holds opts := by
  rcases next_cases h hnext with ⟨found, key, gameId, groupId, preferred, -, rfl⟩ | ⟨e, -, rfl⟩ |
    ⟨-, hone⟩
  · exact h.subscribeEvents found key gameId groupId preferred
  · exact h.publish e
  · rcases hone with ⟨id, st, hst, st', hmoved, hsound, -⟩ | rfl
    · exact hmoved.holds h hst hsound
    · exact h

lemma run_holds {events : List (GroupStreamEvent ε)} (h : s.Holds opts)
    (hrun : s.run groupOf opts events = some s') : s'.Holds opts :=
  runSteps_invariant (fun _ _ _ hs hnext => next_holds hs hnext) h hrun

/-! #### Delivery -/

/-- The events of a group that a run publishes. -/
def publishedTo (groupOf : ε → Option Text) (groupId : Text) (events : List (GroupStreamEvent ε)) :
    List ε :=
  events.filterMap fun event =>
    match event with
    | .publish e => if groupOf e = some groupId then some e else none
    | _ => none

lemma next_delivers (h : s.Holds opts) {event : GroupStreamEvent ε}
    (hnext : s.next groupOf opts event = some s') (hst : s.streams[id]? = some st)
    {history : List ε} (hd : st.Delivers history) :
    ∃ st', s'.streams[id]? = some st' ∧ st'.groupId = st.groupId ∧
      st'.Delivers (history ++ publishedTo groupOf st.groupId [event]) := by
  rcases next_cases h hnext with ⟨found, key, gameId, groupId, preferred, rfl, rfl⟩ |
    ⟨e, rfl, rfl⟩ | ⟨hother, hone⟩
  · refine ⟨st, ?_, rfl, by simpa [publishedTo] using hd⟩
    by_cases hstream : ∃ id,
      (s.subscribeEvents opts found key gameId groupId preferred).2 = .stream id
    · obtain ⟨_, hstream⟩ := hstream
      obtain ⟨-, -, slots, -, heq⟩ := subscribeEvents_eq_stream hstream
      rw [heq]
      exact List.getElem?_append_left (List.getElem?_eq_some_iff.mp hst).1 |>.trans hst
    · rw [not_exists] at hstream
      rw [subscribeEvents_eq_self hstream]
      exact hst
  · refine ⟨_, h.publish_streams e hst, ?_, ?_⟩
    · split_ifs
      · rw [receive]
        split_ifs <;> rfl
      · rfl
    · split_ifs with hgroup
      · have hone : publishedTo groupOf st.groupId [.publish e] = [e] := by
          simp [publishedTo, hgroup]
        rw [hone]
        exact hd.receive (h.sound st (List.mem_of_getElem? hst)) e
      · have hnone : publishedTo groupOf st.groupId [.publish e] = [] := by
          simp [publishedTo, hgroup]
        rw [hnone, List.append_nil]
        exact hd
  · have hnone : publishedTo groupOf st.groupId [event] = [] := by
      cases event with
      | publish e => exact absurd rfl (hother e)
      | subscribe found key gameId groupId preferred => rfl
      | turn id outcome => rfl
      | recheck id key => rfl
      | abort id => rfl
    rw [hnone, List.append_nil]
    rcases hone with ⟨j, x, hx, x', hmoved, -, hkeep⟩ | rfl
    · by_cases hj : j = id
      · subst hj
        obtain rfl := Option.some.inj (hst.symm.trans hx)
        refine ⟨x', ?_, hmoved.groupId, hkeep history hd⟩
        rw [hmoved.streams, List.getElem?_set_self (List.getElem?_eq_some_iff.mp hst).1]
      · exact ⟨st, by rw [hmoved.streams, List.getElem?_set_ne hj, hst], rfl, hd⟩
    · exact ⟨st, hst, rfl, hd⟩

lemma run_delivers {events : List (GroupStreamEvent ε)} (h : s.Holds opts)
    (hrun : s.run groupOf opts events = some s') (hst : s.streams[id]? = some st) {history : List ε}
    (hd : st.Delivers history) :
    ∃ st', s'.streams[id]? = some st' ∧ st'.groupId = st.groupId ∧
      st'.Delivers (history ++ publishedTo groupOf st.groupId events) := by
  induction events generalizing s st history with
  | nil =>
    obtain rfl := Option.some.inj hrun
    exact ⟨st, hst, rfl, by simpa [publishedTo] using hd⟩
  | cons event events ih =>
    rw [run, runSteps_cons] at hrun
    obtain ⟨s₁, hnext, hrest⟩ := Option.bind_eq_some_iff.mp hrun
    obtain ⟨st₁, hst₁, hgroup₁, hd₁⟩ := next_delivers h hnext hst hd
    obtain ⟨st', hst', hgroup', hd'⟩ := ih (next_holds h hnext) hrest hst₁ hd₁
    have hsplit : publishedTo groupOf st.groupId (event :: events)
        = publishedTo groupOf st.groupId [event] ++ publishedTo groupOf st.groupId events := by
      rw [← List.singleton_append]
      exact List.filterMap_append
    refine ⟨st', hst', hgroup'.trans hgroup₁, ?_⟩
    rw [hsplit, ← List.append_assoc]
    rwa [hgroup₁] at hd'

/-- A run in which a request got a stream: the stream and what it delivered by the end. -/
lemma stream_delivers {before after : List (GroupStreamEvent ε)} {found : Bool}
    {apiKeyPrefix gameId groupId : Text} {preferred : List Text} {s₁ : GroupStreamServer ε}
    (hbefore : run groupOf opts {} before = some s₁)
    (hstream : (s₁.subscribeEvents opts found apiKeyPrefix gameId groupId preferred).2 = .stream id)
    (hrun : run groupOf opts {}
      (before ++ .subscribe found apiKeyPrefix gameId groupId preferred :: after) = some s) :
    s.Holds opts ∧ ∃ st, s.streams[id]? = some st ∧ st.groupId = groupId ∧
      st.Delivers (publishedTo groupOf groupId after) := by
  have hholds₁ := run_holds holds_new hbefore
  have hholds₂ := hholds₁.subscribeEvents found apiKeyPrefix gameId groupId preferred
  have hafter : (s₁.subscribeEvents opts found apiKeyPrefix gameId groupId preferred).1.run groupOf
      opts after = some s := by
    rw [run, runSteps_append] at hrun
    obtain ⟨s₁', hs₁', hrest⟩ := Option.bind_eq_some_iff.mp hrun
    obtain rfl := Option.some.inj (hbefore.symm.trans hs₁')
    exact hrest
  obtain ⟨-, rfl, slots, -, heq⟩ := subscribeEvents_eq_stream hstream
  refine ⟨run_holds hholds₂ hafter, ?_⟩
  have hst : (s₁.subscribeEvents opts found apiKeyPrefix gameId groupId preferred).1.streams[
      s₁.streams.length]?
      = some { apiKeyPrefix, gameId, groupId, preferred, wake := true, place := .waiting } := by
    rw [heq]
    exact List.getElem?_concat_length
  have hd := run_delivers hholds₂ hafter hst (delivers_self _)
  exact hd

/-- What a stream has handed to its client is a beginning of what was published to its group since
its subscription, in order and without a gap or a repetition, whatever else the server did
meanwhile. While the stream is open, all of the rest is in its hands: being written, or queued
within the bound. -/
theorem groupStream_delivers {before after : List (GroupStreamEvent ε)} {found : Bool}
    {apiKeyPrefix gameId groupId : Text} {preferred : List Text} {s₁ : GroupStreamServer ε}
    (hbefore : run groupOf opts {} before = some s₁)
    (hstream : (s₁.subscribeEvents opts found apiKeyPrefix gameId groupId preferred).2 = .stream id)
    (hrun : run groupOf opts {}
      (before ++ .subscribe found apiKeyPrefix gameId groupId preferred :: after) = some s) :
    ∃ st, s.streams[id]? = some st ∧ st.handed <+: publishedTo groupOf groupId after ∧
      (st.closed = false → st.handed ++ st.pending = publishedTo groupOf groupId after) ∧
      st.queue.length ≤ opts.maxQueued := by
  obtain ⟨hholds, st, hst, -, hd⟩ := stream_delivers hbefore hstream hrun
  exact ⟨st, hst, (List.prefix_append _ _).trans hd.ordered, hd.complete,
    (hholds.sound st (List.mem_of_getElem? hst)).bounded⟩

lemma empty_run : run (fun _ => some (text "a")) {} {} [] = some ({} : GroupStreamServer ℕ) := rfl

lemma opens :
    (({} : GroupStreamServer ℕ).subscribeEvents {} true (text "k") (text "g") (text "a") []).2
      = .stream 0 := by
  decide

/-- A stream that hands over an event. -/
def handedOver : List (GroupStreamEvent ℕ) :=
  [.publish 7, .turn 0 .ok, .turn 0 .ok, .turn 0 .ok, .publish 8]

theorem groupStream_delivers_handedOver :
    ∃ s st, run (fun _ => some (text "a")) {} {}
        (.subscribe true (text "k") (text "g") (text "a") [] :: handedOver) = some s ∧
      s.streams[0]? = some st ∧ st.handed <+: [7, 8] ∧
      (st.closed = false → st.handed ++ st.pending = [7, 8]) := by
  obtain ⟨s, hrun⟩ := Option.isSome_iff_exists.mp (show (run (fun _ => some (text "a")) {} {}
    (.subscribe true (text "k") (text "g") (text "a") [] :: handedOver)).isSome = true by decide)
  obtain ⟨st, hst, hprefix, hall, -⟩ := groupStream_delivers empty_run opens hrun
  exact ⟨s, st, hrun, hst, hprefix, hall⟩

/-! #### Progress -/

/-- A loop that is not at rest takes a step if its writes go well, and comes closer to its rest. -/
lemma turn_of_not_atRest (groupOf : ε → Option Text) (h : s.Holds opts)
    (hst : s.streams[id]? = some st) (hrest : ¬st.AtRest) :
    ∃ s' st', s.next groupOf opts (.turn id .ok) = some s' ∧ s'.streams[id]? = some st' ∧
      st'.closed = st.closed ∧ st'.toDo < st.toDo := by
  obtain ⟨hid, hget⟩ := List.getElem?_eq_some_iff.mp hst
  have hsound := h.sound st (List.mem_of_getElem? hst)
  have hset : ∀ st' : GroupStream ε, (s.streams.set id st')[id]? = some st' := fun st' =>
    List.getElem?_set_self hid
  have hsettle : ∀ st', Same st st' → (s.settle id st').streams[id]? = some st'.settled := by
    intro st' hsame
    rw [(moved_settle h hst hsame).streams, hset]
  have hnext : s.next groupOf opts (.turn id .ok) = s.turn id st .ok := by
    rw [next, hst, Option.bind_some]
  rw [hnext]
  unfold turn
  cases hplace : st.place with
  | heartbeat =>
    refine ⟨_, _, rfl, hset _, rfl, ?_⟩
    simp only [toDo, hplace]
    omega
  | beaten sent =>
    cases sent with
    | true =>
      obtain ⟨hless, hclosed⟩ := toDo_takeEvent st
      refine ⟨_, _, rfl, hsettle _ (same_takeEvent st), hclosed, hless.trans_lt ?_⟩
      simp only [toDo, hplace]
      omega
    | false =>
      refine ⟨_, _, rfl, hset _, (hsound.failed (Or.inl hplace)).symm, ?_⟩
      simp only [toDo, hplace]
      omega
  | rendering event =>
    dsimp only
    split_ifs with hclosed
    · refine ⟨_, _, rfl, hset _, hclosed.symm, ?_⟩
      simp only [toDo, hplace]
      omega
    · refine ⟨_, _, rfl, hset _, rfl, ?_⟩
      simp only [toDo, hplace]
      omega
  | sending frame =>
    refine ⟨_, _, rfl, hset _, rfl, ?_⟩
    simp only [toDo, hplace, if_pos]
    omega
  | sent sent =>
    cases sent with
    | true =>
      obtain ⟨hless, hclosed⟩ := toDo_loop st
      refine ⟨_, _, rfl, hsettle _ (same_loop st), hclosed, hless.trans_lt ?_⟩
      simp only [toDo, hplace]
      omega
    | false =>
      refine ⟨_, _, rfl, hset _, (hsound.failed (Or.inr hplace)).symm, ?_⟩
      simp only [toDo, hplace]
      omega
  | waiting =>
    have hwake : st.wake = false := by simpa using mt Or.inr hrest
    obtain ⟨hless, hclosed⟩ := toDo_loop st
    dsimp only
    rw [if_neg (by simp [hwake])]
    refine ⟨_, _, rfl, hsettle _ (same_loop st), hclosed, hless.trans_lt ?_⟩
    simp only [toDo, hplace, hwake]
    simp
  | done => exact absurd (Or.inl hplace) hrest

/-- The steps of one loop bring it to its rest. -/
lemma exists_turns (groupOf : ε → Option Text) (h : s.Holds opts) (hst : s.streams[id]? = some st) :
    ∃ n ≤ st.toDo, ∃ s' st', s.run groupOf opts (List.replicate n (.turn id .ok)) = some s' ∧
      s'.streams[id]? = some st' ∧ st'.closed = st.closed ∧ st'.AtRest := by
  induction hn : st.toDo using Nat.strong_induction_on generalizing s st with
  | _ n ih =>
    by_cases hrest : st.AtRest
    · exact ⟨0, Nat.zero_le _, s, st, rfl, hst, rfl, hrest⟩
    · obtain ⟨s₁, st₁, hnext, hst₁, hclosed₁, hless⟩ := turn_of_not_atRest groupOf h hst hrest
      obtain ⟨k, hk, s', st', hrun, hst', hclosed', hrest'⟩ :=
        ih st₁.toDo (hn ▸ hless) (next_holds h hnext) hst₁ rfl
      refine ⟨k + 1, by omega, s', st', ?_, hst', hclosed'.trans hclosed₁, hrest'⟩
      rw [List.replicate_succ, run, runSteps_cons, hnext]
      exact hrun

/-- No event waits for good: from wherever a run leaves a stream, finitely many steps of its own
loop, their writes going well, hand over everything that was published to its group, if it is open.
If it is closed, they end it and give its slot back. -/
theorem groupStream_drains {before after : List (GroupStreamEvent ε)} {found : Bool}
    {apiKeyPrefix gameId groupId : Text} {preferred : List Text} {s₁ : GroupStreamServer ε}
    (hbefore : run groupOf opts {} before = some s₁)
    (hstream : (s₁.subscribeEvents opts found apiKeyPrefix gameId groupId preferred).2 = .stream id)
    (hrun : run groupOf opts {}
      (before ++ .subscribe found apiKeyPrefix gameId groupId preferred :: after) = some s) :
    ∃ n s' st st', s.run groupOf opts (List.replicate n (.turn id .ok)) = some s' ∧
      s.streams[id]? = some st ∧ s'.streams[id]? = some st' ∧
      if st.closed then st'.place = .done ∧ st'.released = true
      else st'.closed = false ∧ st'.wake = true ∧
        st'.handed = publishedTo groupOf groupId after := by
  obtain ⟨hholds, st, hst, rfl, hd⟩ := stream_delivers hbefore hstream hrun
  obtain ⟨n, -, s', st', hturns, hst', hclosed, hrest⟩ := exists_turns groupOf hholds hst
  have hsound := (run_holds hholds hturns).sound st' (List.mem_of_getElem? hst')
  refine ⟨n, s', st, st', hturns, hst, hst', ?_⟩
  split_ifs with hc
  · rcases hrest with hdone | hwake
    · exact ⟨hdone, hsound.done.mp hdone⟩
    · have hopen := (hsound.asleep hwake).2.2.1
      exact absurd (hopen.symm.trans (hclosed.trans hc)) (by decide)
  · have hopen : st'.closed = false := hclosed.trans (by simpa using hc)
    rcases hrest with hdone | hwake
    · exact absurd (hopen.symm.trans (hsound.ended (hsound.done.mp hdone))) (by decide)
    · obtain ⟨hplace, hqueue, -, -⟩ := hsound.asleep hwake
      obtain ⟨x, hx, -, hd'⟩ := run_delivers hholds hturns hst hd
      obtain rfl := Option.some.inj (hst'.symm.trans hx)
      have hturns_nil : publishedTo groupOf st.groupId
          (List.replicate n (GroupStreamEvent.turn id .ok)) = [] := by
        rw [publishedTo, List.filterMap_eq_nil_iff]
        intro event hevent
        rw [(List.mem_replicate.mp hevent).2]
      have hpending : st'.pending = [] := by rw [pending, hplace]; exact hqueue
      have hall := hd'.complete hopen
      rw [hpending, hturns_nil, List.append_nil, List.append_nil] at hall
      exact ⟨hopen, hwake, hall⟩

/-- A stream that is told of one event. -/
def oneStream : List (GroupStreamEvent ℕ) :=
  [.subscribe true (text "k") (text "g") (text "a") [], .publish 7]

theorem groupStream_drains_one :
    ∃ s n s' st', run (fun _ => some (text "a")) {} {} oneStream = some s ∧
      s.run (fun _ => some (text "a")) {} (List.replicate n (.turn 0 .ok)) = some s' ∧
      s'.streams[0]? = some st' ∧ st'.handed = [7] := by
  obtain ⟨s, hrun⟩ := Option.isSome_iff_exists.mp
    (show (run (fun _ => some (text "a")) {} {} oneStream).isSome = true by decide)
  obtain ⟨n, s', st, st', hturns, hst, hst', hrest⟩ := groupStream_drains empty_run opens hrun
  have hopen : ((run (fun _ => some (text "a")) {} {} oneStream).bind fun s =>
      s.streams[0]?.map GroupStream.closed) = some false := by decide
  rw [hrun, Option.bind_some, hst, Option.map_some, Option.some.injEq] at hopen
  rw [hopen, if_neg (by decide)] at hrest
  exact ⟨s, n, s', st', hrun, hturns, hst', hrest.2.2⟩

/-! #### Counters -/

lemma length_filter_range {α : Type*} (p : α → Bool) (l : List α) :
    ((List.range l.length).filter fun i => l[i]?.any p).length = l.countP p := by
  induction l using List.reverseRecOn with
  | nil => rfl
  | append_singleton l a ih =>
    have hsame : ((List.range l.length).filter fun i => (l ++ [a])[i]?.any p)
        = (List.range l.length).filter fun i => l[i]?.any p := by
      refine List.filter_congr fun i hi => ?_
      rw [List.getElem?_append_left (List.mem_range.mp hi)]
    rw [List.length_append, List.length_singleton, List.range_succ, List.filter_append, hsame,
      List.length_append, ih, List.countP_append, List.countP_singleton]
    cases hp : p a <;> simp [hp]

/-- The hub has one listener for each open stream of a group. -/
lemma Holds.subscriberCount (h : s.Holds opts) (groupId : Text) :
    s.hub.subscriberCount groupId
      = s.streams.countP fun st => st.groupId = groupId && !st.closed := by
  rw [← length_filter_range]
  refine List.Perm.length_eq ((List.perm_ext_iff_of_nodup (h.distinct groupId)
    (List.nodup_range.filter _)).mpr fun id => ?_)
  rw [h.listening, List.mem_filter, List.mem_range]
  constructor
  · rintro ⟨st, hst, hgroup, hopen⟩
    exact ⟨(List.getElem?_eq_some_iff.mp hst).1, by simp [hst, hgroup, hopen]⟩
  · rintro ⟨hid, hany⟩
    obtain ⟨st, hst, hp⟩ := (Option.any_eq_true _ _).mp hany
    rw [Bool.and_eq_true, decide_eq_true_eq, Bool.not_eq_true'] at hp
    exact ⟨st, hst, hp.1, hp.2⟩

/-- Whatever happened before, a request is refused for its key's or its game's streams exactly when
those whose loop has not ended are as many as may be, which none ever exceed. The hub's count for a
group is that of its open streams. -/
theorem groupStreams_counted {events : List (GroupStreamEvent ε)}
    (hrun : run groupOf opts {} events = some s) :
    (∀ key, s.unfinished (fun st => st.apiKeyPrefix = key) ≤ opts.maxGroupStreamsPerKey) ∧
      (∀ gameId, s.unfinished (fun st => st.gameId = gameId) ≤ opts.maxGroupStreamsPerGame) ∧
      (∀ groupId, s.hub.subscriberCount groupId
        = s.streams.countP fun st => st.groupId = groupId && !st.closed) ∧
      ∀ found key gameId groupId preferred,
        (s.subscribeEvents opts found key gameId groupId preferred).2
          = if !found then .notFound
            else if opts.maxGroupStreamsPerKey = s.unfinished (fun st => st.apiKeyPrefix = key) ∨
              opts.maxGroupStreamsPerGame = s.unfinished (fun st => st.gameId = gameId) then
              .tooManyStreams
            else .stream s.streams.length := by
  have h := run_holds holds_new hrun
  refine ⟨h.keyBound, h.gameBound, h.subscriberCount, fun found key gameId groupId preferred => ?_⟩
  have hkey := h.keyBound key
  have hgame := h.gameBound gameId
  rw [subscribeEvents, StreamSlots.tryAcquire, h.perKey, h.perGame]
  split_ifs with hfound hfullKey hfull hfullGame hfull hfull
  · rfl
  · rfl
  · exact absurd (Or.inl (le_antisymm hfullKey hkey)) hfull
  · rfl
  · exact absurd (Or.inr (le_antisymm hfullGame hgame)) hfull
  · exact absurd hfull (not_or.mpr ⟨fun h => hfullKey h.le, fun h => hfullGame h.le⟩)
  · rfl

theorem groupStreams_counted_one :
    ∃ s, run (fun _ => some (text "a")) { maxGroupStreamsPerKey := 1 } {} oneStream = some s ∧
      (s.subscribeEvents { maxGroupStreamsPerKey := 1 } true (text "k") (text "g") (text "b") []).2
        = .tooManyStreams := by
  obtain ⟨s, hrun⟩ := Option.isSome_iff_exists.mp
    (show (run (fun _ => some (text "a")) { maxGroupStreamsPerKey := 1 } {} oneStream).isSome = true
      by decide)
  obtain ⟨-, -, -, hanswer⟩ := groupStreams_counted hrun
  have hcount : (run (fun _ => some (text "a")) { maxGroupStreamsPerKey := 1 } {} oneStream).map
      (fun s => s.unfinished fun st => st.apiKeyPrefix = text "k") = some 1 := by decide
  rw [hrun, Option.map_some, Option.some.injEq] at hcount
  refine ⟨s, hrun, ?_⟩
  rw [hanswer, hcount]
  rfl

end GroupStreamServer

end Junjo
