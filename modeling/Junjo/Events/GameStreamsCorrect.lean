import Junjo.Events.GameFeedCorrect

/-!
# What a game stream sends

A stream sends the matching events after its start position, one after the other, and no later one
in the place of an event that was swept.
-/

namespace Junjo

variable {ε : Type} {typeOf : ε → Text} {gameId : Text}

/-! ### Rows that are gone -/

/-- The rows that a stream has in hand. -/
def GameStream.batch (st : GameStream ε) : List (LoggedEvent ε) :=
  match st.place with
  | .reading (some rows) => rows
  | .rendering item rest => item :: rest
  | .writing item rest => item :: rest
  | .beating rest => rest
  | _ => []

/-- Whether the start position of a stream was accepted. -/
def GameStream.accepted (st : GameStream ε) : Bool :=
  match st.place with
  | .resolving _ _ | .retained _ _ => false
  | _ => true

/-- A position whose row was swept, and that no feed has in memory. -/
structure FeedServer.Gone (gameId : Text) (q : ℕ) (s : FeedServer ε) : Prop where
  committed : q ≤ s.history.length
  log : ∀ r ∈ s.log.rows, r.gameId = gameId → r.seq ≠ q
  window : ∀ fid feed, s.feeds.get? fid = some (.live feed) → ∀ r ∈ feed.window, r.seq ≠ q
  answered : ∀ fid feed rows, s.feeds.get? fid = some (.live feed) →
    feed.reading = .answered rows → ∀ r ∈ rows, r.seq ≠ q

/-- A stream that has not got to a position, and does not have it in hand. -/
structure GameStream.Short (q : ℕ) (st : GameStream ε) : Prop where
  accepted : st.accepted
  owed : st.cursor < q
  batch : ∀ r ∈ st.batch, r.seq ≠ q
  frames : ∀ item, .event item ∈ st.frames → item.seq < q

namespace FeedServer

variable {s s' : FeedServer ε} {id fid q : ℕ} {st : GameStream ε} {feed : GameFeed ε}
  {rest : List (LoggedEvent ε)}

lemma short_afterBatch {empty : Bool} (howed : st.cursor < q)
    (hframes : ∀ item, .event item ∈ st.frames → item.seq < q) :
    (st.afterBatch empty).Short q := by
  rw [GameStream.afterBatch]
  split_ifs
  · exact ⟨rfl, howed, by simp [GameStream.batch], hframes⟩
  · exact ⟨rfl, howed, by simp [GameStream.batch], by simpa using hframes⟩
  · exact ⟨rfl, howed, by simp [GameStream.batch], hframes⟩
  · exact ⟨rfl, howed, by simp [GameStream.batch], hframes⟩

/-- A batch that does not hold a position does not get to it. -/
lemma short_sendItems {history : List ε} (howed : st.cursor < q)
    (hframes : ∀ item, .event item ∈ st.frames → item.seq < q)
    (hfollows : Follows gameId history st.cursor rest) (hrest : ∀ r ∈ rest, r.seq ≠ q) :
    (st.sendItems typeOf rest).Short q := by
  induction rest generalizing st with
  | nil => exact short_afterBatch howed hframes
  | cons item rest ih =>
    have hnext := hfollows.1.2.1
    have hne := hrest item List.mem_cons_self
    have hlater : ∀ r ∈ rest, r.seq ≠ q := fun r hr => hrest r (List.mem_cons_of_mem _ hr)
    rw [GameStream.sendItems]
    dsimp only
    split_ifs
    · exact ⟨rfl, howed, by simp [GameStream.batch], hframes⟩
    · exact ⟨rfl, howed, hrest, hframes⟩
    · exact ⟨rfl, by simp only; omega, hlater, by simpa using hframes⟩
    · refine ih (by simp only; omega) hframes ?_ hlater
      simp only [hnext]
      exact hfollows.2

lemma mem_contiguous {p : ℕ} {r : LoggedEvent ε} (h : r ∈ GameStream.contiguous p rest) :
    r ∈ rest := by
  induction rest generalizing p with
  | nil => cases h
  | cons item rest ih =>
    rw [GameStream.contiguous] at h
    split_ifs at h
    · rcases List.mem_cons.mp h with rfl | h
      · exact List.mem_cons_self
      · exact List.mem_cons_of_mem _ (ih h)
    · cases h

lemma mem_eventsAfter {cursor : ℕ} {rows : List (LoggedEvent ε)}
    (h : feed.eventsAfter cursor = some rows) {r : LoggedEvent ε} (hr : r ∈ rows) :
    r ∈ feed.window := by
  rw [GameFeed.eventsAfter] at h
  split_ifs at h
  · cases h
    cases hr
  · cases h
    exact List.mem_of_mem_drop hr

lemma mem_readEventLog {log : EventLog ε} {after limit : ℕ} {r : LoggedEvent ε}
    (h : r ∈ log.readEventLog gameId after limit) : r ∈ log.rows ∧ r.gameId = gameId := by
  have hmem := List.mem_of_mem_take h
  simp only [List.mem_filter, decide_eq_true_eq] at hmem
  exact ⟨hmem.1, hmem.2.1⟩

/-- What a stream's step leaves alone. -/
structure Beside (id : ℕ) (s s' : FeedServer ε) : Prop where
  log : s'.log = s.log
  history : s'.history = s.history
  streams : ∀ i, i ≠ id → s'.streams.get? i = s.streams.get? i
  feeds : ∀ fid feed', s'.feeds.get? fid = some (.live feed') →
    ∃ feed, s.feeds.get? fid = some (.live feed) ∧ (feed' = feed ∨ feed' = feed.stop)

lemma beside_setStream : Beside id s (s.setStream id st) :=
  ⟨rfl, rfl, fun _ hi => Dict.get?_set_of_ne _ _ hi, fun _ feed' h => ⟨feed', h, .inl rfl⟩⟩

lemma Beside.release (h : Beside id s s') (fid : ℕ) : Beside id s (s'.release fid) := by
  rw [FeedServer.release]
  split
  · exact h
  · split_ifs
    · exact ⟨h.log, h.history, h.streams, h.feeds⟩
    · split
      · rename_i live hlive
        refine ⟨h.log, h.history, h.streams, fun i feed' hi => ?_⟩
        rw [FeedServer.setFeed, Dict.get?_set] at hi
        split_ifs at hi with hsame
        · cases hi
          obtain ⟨feed, hfeed, rfl | rfl⟩ := h.feeds fid live hlive
          · exact ⟨live, hsame ▸ hfeed, .inr rfl⟩
          · exact ⟨feed, hsame ▸ hfeed, .inr rfl⟩
        · exact h.feeds i feed' hi
      · exact ⟨h.log, h.history, h.streams, h.feeds⟩

lemma beside_settle : Beside id s (s.settle id st) := by
  rw [FeedServer.settle]
  split
  · exact beside_setStream.release _
  · exact beside_setStream

lemma beside_acquire {position : ℕ} : Beside id s (s.acquire id st position) := by
  rw [FeedServer.acquire]
  split
  · exact ⟨rfl, rfl, fun _ hi => Dict.get?_set_of_ne _ _ hi, fun _ feed' h => ⟨feed', h, .inl rfl⟩⟩
  · refine ⟨rfl, rfl, fun _ hi => Dict.get?_set_of_ne _ _ hi, fun fid feed' h => ?_⟩
    rw [FeedServer.setStream, Dict.get?_set] at h
    split_ifs at h
    · cases h
    · exact ⟨feed', h, .inl rfl⟩

lemma beside_resolve {lastEventId : Option Text} {current : ℕ} {granted : Bool} :
    Beside id s (s.resolve id st lastEventId current granted) := by
  unfold FeedServer.resolve
  split
  · split_ifs
    · exact beside_acquire
    · exact beside_setStream
  · split_ifs
    · exact beside_acquire
    · exact beside_setStream
  · split
    · exact beside_setStream
    · split_ifs
      · exact beside_setStream
      · exact beside_acquire
      · exact beside_setStream
      · exact beside_setStream

lemma beside_turn {ok : Bool} (hturn : s.turn typeOf gameId id st ok = some s') :
    Beside id s s' := by
  rw [FeedServer.turn] at hturn
  split at hturn
  · cases hturn
    split_ifs <;> exact beside_setStream
  · cases hturn
    exact beside_resolve
  · cases hturn
    split_ifs <;> exact beside_setStream
  · cases hturn
    split_ifs
    · exact beside_acquire
    · exact beside_setStream
  · split at hturn
    · cases hturn
      exact beside_setStream
    · cases hturn
      exact beside_setStream
    · cases hturn
  · split at hturn
    · split_ifs at hturn
      · cases hturn
        exact beside_settle
      · dsimp only at hturn
        split at hturn
        · cases hturn
          exact beside_setStream
        · cases hturn
          exact beside_settle
        · cases hturn
          exact beside_settle
    · cases hturn
  · cases hturn
    split_ifs
    · exact beside_setStream
    · exact beside_settle
  · split_ifs at hturn
    · cases hturn
      exact beside_settle
    · split at hturn
      · cases hturn
        exact beside_settle
      · cases hturn
        exact beside_settle
  · cases hturn
    split_ifs
    · exact beside_settle
    · exact beside_setStream
  · cases hturn
    split_ifs <;> exact beside_settle
  · cases hturn
    split_ifs <;> exact beside_settle
  · cases hturn
    split_ifs
    · exact beside_setStream
    · exact beside_setStream
    · exact beside_settle
  · cases hturn
  · cases hturn

lemma get?_settle : (s.settle id st).streams.get? id = some st := by
  have hset : ∀ fid, ((s.setStream id st).release fid).streams = (s.setStream id st).streams := by
    intro fid
    rw [FeedServer.release]
    split
    · rfl
    · split_ifs
      · rfl
      · split <;> rfl
  rw [FeedServer.settle]
  split
  · rw [hset]
    exact Dict.get?_set_self _ _ _
  · exact Dict.get?_set_self _ _ _

lemma get?_setStream : (s.setStream id st).streams.get? id = some st := Dict.get?_set_self _ _ _

/-- A position that is gone stays gone. -/
lemma Gone.beside (h : s.Gone gameId q) {s' : FeedServer ε} (hbeside : Beside id s s') :
    s'.Gone gameId q where
  committed := hbeside.history ▸ h.committed
  log := hbeside.log ▸ h.log
  window := by
    intro fid feed' hfeed' r hr
    obtain ⟨feed, hfeed, rfl | rfl⟩ := hbeside.feeds fid feed' hfeed'
    · exact h.window fid feed' hfeed r hr
    · cases hr
  answered := by
    intro fid feed' rows hfeed' hread
    obtain ⟨feed, hfeed, rfl | rfl⟩ := hbeside.feeds fid feed' hfeed'
    · exact h.answered fid feed' rows hfeed hread
    · exact h.answered fid feed rows hfeed hread

/-- A stream's step does not get it to a position that is gone. -/
lemma short_turn (h : s.Good typeOf gameId) (hgone : s.Gone gameId q)
    (hst : s.streams.get? id = some st) (hshort : st.Short q) {ok : Bool}
    (hturn : s.turn typeOf gameId id st ok = some s') :
    ∃ st', s'.streams.get? id = some st' ∧ st'.Short q := by
  obtain ⟨haccepted, howed, hbatch, hframes⟩ := hshort
  have hok := h.streams id st hst
  rw [GameStream.Ok] at hok
  rw [FeedServer.turn] at hturn
  rw [GameStream.batch] at hbatch
  rw [GameStream.accepted] at haccepted
  have hdone : ∀ closed, ({ st with closed := closed, place := .done } : GameStream ε).Short q :=
    fun closed => ⟨rfl, howed, by simp [GameStream.batch], hframes⟩
  cases hplace : st.place with
  | resolving _ _ => rw [hplace] at haccepted; cases haccepted
  | retained _ _ => rw [hplace] at haccepted; cases haccepted
  | acquiring =>
    rw [hplace] at hturn
    dsimp only at hturn
    split at hturn
    · cases hturn
      exact ⟨_, get?_setStream, rfl, howed, by simp [GameStream.batch], hframes⟩
    · cases hturn
      exact ⟨_, get?_setStream, hdone true⟩
    · cases hturn
  | top =>
    rw [hplace] at hok hturn
    dsimp only at hturn
    split at hturn
    · rename_i feed hfeed
      split_ifs at hturn
      · cases hturn
        exact ⟨_, get?_settle, hdone st.closed⟩
      · split at hturn
        · cases hturn
          exact ⟨_, get?_setStream, rfl, howed, by simp [GameStream.batch], hframes⟩
        · cases hturn
          exact ⟨_, get?_settle, short_afterBatch howed hframes⟩
        · rename_i batch _ hrows
          cases hturn
          refine ⟨_, get?_settle, short_sendItems howed hframes
            ((h.feeds _ feed hfeed).eventsAfter hrows).1 fun r hr => ?_⟩
          exact hgone.window _ feed hfeed r (mem_eventsAfter hrows hr)
    · cases hturn
  | reading rows =>
    rw [hplace] at hok hturn hbatch
    cases rows with
    | none =>
      cases hturn
      split_ifs
      · refine ⟨_, get?_setStream, rfl, howed, fun r hr => ?_, hframes⟩
        obtain ⟨hmem, hgame⟩ := mem_readEventLog hr
        exact hgone.log r hmem hgame
      · exact ⟨_, get?_settle, hdone true⟩
    | some rows =>
      dsimp only at hturn
      split_ifs at hturn
      · cases hturn
        exact ⟨_, get?_settle, hdone st.closed⟩
      · have hfollows := @follows_contiguous _ _ _ st.cursor _ (hok.2 rows rfl)
        split at hturn
        · cases hturn
          exact ⟨_, get?_settle, hdone true⟩
        · rename_i batch _
          cases hturn
          exact ⟨_, get?_settle, short_sendItems howed hframes hfollows
            fun r hr => hbatch r (mem_contiguous hr)⟩
  | rendering item rest =>
    rw [hplace] at hok hturn hbatch
    cases hturn
    split_ifs
    · exact ⟨_, get?_settle, hdone st.closed⟩
    · refine ⟨_, get?_setStream, rfl, howed, hbatch, fun item' hitem' => ?_⟩
      rcases List.mem_append.mp hitem' with hitem' | hitem'
      · exact hframes item' hitem'
      · cases List.mem_singleton.mp hitem'
        have hnext := hok.2.1.1.2.1
        have hne := hbatch item List.mem_cons_self
        omega
  | writing item rest =>
    rw [hplace] at hok hturn hbatch
    cases hturn
    split_ifs
    · obtain ⟨-, ⟨-, hseq, -⟩, hfollows⟩ := hok
      have hne := hbatch item List.mem_cons_self
      have hlater : ∀ r ∈ rest, r.seq ≠ q := fun r hr => hbatch r (List.mem_cons_of_mem _ hr)
      rw [← hseq] at hfollows
      rw [GameStream.sent]
      dsimp only
      split_ifs
      · exact ⟨_, get?_settle, rfl, by simp only; omega, hlater, by simpa using hframes⟩
      · exact ⟨_, get?_settle, short_sendItems (by simp only; omega) hframes hfollows hlater⟩
    · exact ⟨_, get?_settle, hdone true⟩
  | beating rest =>
    rw [hplace] at hok hturn hbatch
    cases hturn
    split_ifs
    · exact ⟨_, get?_settle, short_sendItems howed hframes hok.2 hbatch⟩
    · exact ⟨_, get?_settle, hdone true⟩
  | beatingLast empty =>
    rw [hplace] at hturn
    cases hturn
    split_ifs
    · exact ⟨_, get?_setStream, rfl, howed, by simp [GameStream.batch], hframes⟩
    · exact ⟨_, get?_setStream, rfl, howed, by simp [GameStream.batch], hframes⟩
    · exact ⟨_, get?_settle, hdone true⟩
  | parked => rw [hplace] at hturn; cases hturn
  | done => rw [hplace] at hturn; cases hturn

lemma short_wakeup (h : st.Short q) : st.wakeup.Short q := by
  obtain ⟨haccepted, howed, hbatch, hframes⟩ := h
  refine ⟨?_, howed, ?_, hframes⟩
  · rw [GameStream.accepted] at haccepted ⊢
    rw [GameStream.wakeup]
    cases hplace : st.place <;> rw [hplace] at haccepted <;> first | rfl | cases haccepted
  · rw [GameStream.batch] at hbatch ⊢
    rw [GameStream.wakeup]
    cases hplace : st.place <;> rw [hplace] at hbatch <;> exact hbatch

/-- A feed that is set in the place of another. -/
lemma Gone.setPromise (h : s.Gone gameId q) {promise : FeedPromise ε}
    (hlive : ∀ feed, promise = .live feed → (∀ r ∈ feed.window, r.seq ≠ q) ∧
      ∀ rows, feed.reading = .answered rows → ∀ r ∈ rows, r.seq ≠ q) :
    (s.setFeed fid promise).Gone gameId q where
  committed := h.committed
  log := h.log
  window := by
    intro i feed hi
    rw [FeedServer.setFeed, Dict.get?_set] at hi
    split_ifs at hi
    · exact (hlive feed (Option.some.inj hi)).1
    · exact h.window i feed hi
  answered := by
    intro i feed rows hi
    rw [FeedServer.setFeed, Dict.get?_set] at hi
    split_ifs at hi
    · exact (hlive feed (Option.some.inj hi)).2 rows
    · exact h.answered i feed rows hi

lemma mem_window_receive {rows : List (LoggedEvent ε)} {r : LoggedEvent ε}
    (h : r ∈ (feed.receive rows).window) : r ∈ feed.window ∨ r ∈ rows := by
  have hpush : ∀ (rows : List (LoggedEvent ε)) (feed : GameFeed ε),
      r ∈ (rows.foldl GameFeed.push feed).window → r ∈ feed.window ∨ r ∈ rows := by
    intro rows
    induction rows with
    | nil => exact fun feed hr => .inl hr
    | cons row rows ih =>
      intro feed hr
      rcases ih (feed.push row) hr with hr | hr
      · rw [GameFeed.push] at hr
        dsimp only at hr
        split_ifs at hr <;> simp at hr <;> grind
      · exact .inr (List.mem_cons_of_mem _ hr)
  have htrim : ∀ feed : GameFeed ε, r ∈ feed.trim.window → r ∈ feed.window := by
    intro feed hr
    rw [GameFeed.trim] at hr
    generalize gameFeedWindow = size at hr
    split_ifs at hr
    · exact List.mem_of_mem_drop hr
    · exact hr
  rw [GameFeed.receive] at h
  dsimp only at h
  split_ifs at h
  · exact .inl h
  all_goals exact hpush rows feed (htrim _ h)

lemma reading_receive {rows rows' : List (LoggedEvent ε)} :
    (feed.receive rows).reading ≠ .answered rows' := by
  rw [GameFeed.receive]
  dsimp only
  split_ifs <;> exact fun h => by cases h

lemma window_wake : feed.wake.window = feed.window := by
  rw [GameFeed.wake]
  split_ifs
  · rfl
  · split <;> rfl

lemma reading_wake {rows : List (LoggedEvent ε)} (h : feed.wake.reading = .answered rows) :
    feed.reading = .answered rows := by
  rw [GameFeed.wake] at h
  split_ifs at h
  · exact h
  · split at h
    · cases h
    · exact h

lemma gone_feedTurn (hgone : s.Gone gameId q) {ok : Bool}
    (hturn : s.feedTurn gameId fid ok = some s') :
    s'.Gone gameId q ∧ ∀ st, s.streams.get? id = some st → st.Short q →
      ∃ st', s'.streams.get? id = some st' ∧ st'.Short q := by
  rw [FeedServer.feedTurn] at hturn
  split at hturn
  · cases hturn
    refine ⟨?_, fun st hst hshort => ⟨st, by split_ifs <;> exact hst, hshort⟩⟩
    split_ifs
    · exact hgone.setPromise fun _ hfeed => by cases hfeed
    all_goals
      have hentry : ∀ entry, ({ s with entry := entry } : FeedServer ε).Gone gameId q :=
        fun _ => ⟨hgone.committed, hgone.log, hgone.window, hgone.answered⟩
      exact (hentry _).setPromise fun _ hfeed => by cases hfeed
  · cases hturn
    refine ⟨hgone.setPromise ?_, fun st hst hshort => ⟨st, hst, hshort⟩⟩
    rintro feed ⟨⟩
    exact ⟨fun r hr => (by cases hr), fun _ hread => by cases hread⟩
  · rename_i feed hget
    have hwindow := hgone.window fid feed hget
    split at hturn
    · cases hturn
    · cases hturn
      refine ⟨hgone.setPromise ?_, fun st hst hshort => ⟨st, hst, hshort⟩⟩
      rintro feed' ⟨⟩
      split_ifs
      · refine ⟨hwindow, ?_⟩
        rintro rows ⟨⟩ r hr
        obtain ⟨hmem, hgame⟩ := mem_readEventLog hr
        exact hgone.log r hmem hgame
      · exact ⟨hwindow, fun _ hread => by cases hread⟩
    · rename_i rows hread
      cases hturn
      have hset : (s.setFeed fid (.live (feed.receive rows))).Gone gameId q := by
        refine hgone.setPromise ?_
        rintro feed' ⟨⟩
        refine ⟨fun r hr => ?_, fun rows' hread' => absurd hread' reading_receive⟩
        rcases mem_window_receive hr with hr | hr
        · exact hwindow r hr
        · exact hgone.answered fid feed rows hget hread r hr
      split_ifs
      · exact ⟨hset, fun st hst hshort => ⟨st, hst, hshort⟩⟩
      · refine ⟨⟨hset.committed, hset.log, hset.window, hset.answered⟩, fun st hst hshort => ?_⟩
        rw [FeedServer.notify, FeedServer.setFeed, Dict.get?_mapValues, hst]
        refine ⟨_, rfl, ?_⟩
        dsimp only
        split_ifs
        · exact short_wakeup hshort
        · exact hshort
  · cases hturn

/-- No step gets a stream to a position that is gone. -/
lemma gone_next (h : s.Good typeOf gameId) (hgone : s.Gone gameId q) {e : FeedEvent ε}
    (hnext : s.next typeOf gameId e = some s') :
    s'.Gone gameId q ∧ ∀ st, s.streams.get? id = some st → st.Short q →
      ∃ st', s'.streams.get? id = some st' ∧ st'.Short q := by
  have hset : ∀ i (st' : GameStream ε), (s.setStream i st').Gone gameId q :=
    fun _ _ => ⟨hgone.committed, hgone.log, hgone.window, hgone.answered⟩
  cases e with
  | commit gameId' events =>
    cases hnext
    refine ⟨⟨?_, ?_, hgone.window, hgone.answered⟩, fun st hst hshort => ⟨st, hst, hshort⟩⟩
    · have hcommitted := hgone.committed
      simp only
      split_ifs
      · rw [List.length_append]
        omega
      · exact hcommitted
    · intro r hr hgame
      rcases List.mem_append.mp hr with hold | hnew
      · exact hgone.log r hold hgame
      · obtain ⟨hgame', hpast, -⟩ := EventLog.mem_rowsAfter hnew
        rw [← hgame', hgame, h.log.position] at hpast
        exact Nat.ne_of_gt (Nat.lt_of_le_of_lt hgone.committed hpast)
  | sweep swept =>
    cases hnext
    exact ⟨⟨hgone.committed, fun r hr => hgone.log r (List.mem_filter.mp hr).1, hgone.window,
      hgone.answered⟩, fun st hst hshort => ⟨st, hst, hshort⟩⟩
  | subscribe i types lastEventId =>
    rw [FeedServer.next] at hnext
    split_ifs at hnext with hnew
    cases hnext
    refine ⟨hset _ _, fun st hst hshort => ⟨st, ?_, hshort⟩⟩
    rw [FeedServer.setStream, Dict.get?_set_of_ne _ _ ?_]
    · exact hst
    · rintro rfl
      exact hnew (Dict.has_iff.mpr (Dict.mem_keys_iff.mpr ⟨st, hst⟩))
  | turn i ok =>
    rw [FeedServer.next, Option.bind_eq_some_iff] at hnext
    obtain ⟨st', hst', hturn⟩ := hnext
    have hbeside := beside_turn hturn
    refine ⟨hgone.beside hbeside, fun st hst hshort => ?_⟩
    by_cases hi : id = i
    · subst hi
      rw [hst] at hst'
      cases hst'
      exact short_turn h hgone hst hshort hturn
    · exact ⟨st, (hbeside.streams id hi).trans hst, hshort⟩
  | heartbeat i revoked =>
    rw [FeedServer.next, Option.bind_eq_some_iff] at hnext
    obtain ⟨st', hst', hbeat⟩ := hnext
    split_ifs at hbeat
    · cases hbeat
      exact ⟨hgone, fun st hst hshort => ⟨st, hst, hshort⟩⟩
    all_goals
      cases hbeat
      refine ⟨hset _ _, fun st hst hshort => ?_⟩
      rw [FeedServer.setStream, Dict.get?_set]
      split_ifs with hi
      · subst hi
        rw [hst] at hst'
        cases hst'
        exact ⟨_, rfl, short_wakeup ⟨hshort.accepted, hshort.owed, hshort.batch, hshort.frames⟩⟩
      · exact ⟨st, hst, hshort⟩
  | abort i =>
    rw [FeedServer.next, Option.bind_eq_some_iff] at hnext
    obtain ⟨st', hst', habort⟩ := hnext
    split_ifs at habort
    cases habort
    refine ⟨hset _ _, fun st hst hshort => ?_⟩
    rw [FeedServer.setStream, Dict.get?_set]
    split_ifs with hi
    · subst hi
      rw [hst] at hst'
      cases hst'
      exact ⟨_, rfl, short_wakeup ⟨hshort.accepted, hshort.owed, hshort.batch, hshort.frames⟩⟩
    · exact ⟨st, hst, hshort⟩
  | wake fid =>
    rw [FeedServer.next] at hnext
    split at hnext
    · rename_i feed hget
      cases hnext
      refine ⟨hgone.setPromise ?_, fun st hst hshort => ⟨st, hst, hshort⟩⟩
      rintro feed' ⟨⟩
      rw [window_wake]
      exact ⟨hgone.window fid feed hget,
        fun rows hread => hgone.answered fid feed rows hget (reading_wake hread)⟩
    · cases hnext
  | feedTurn fid ok => exact gone_feedTurn hgone hnext

lemma seq_le_of_mem_matching {history : List ε} {types : Option (List Text)} {start p : ℕ}
    {item : LoggedEvent ε} (hle : start ≤ p) (h : item ∈ matching typeOf gameId history types start p) :
    item.seq ≤ p := by
  obtain ⟨-, -, hlast⟩ := EventLog.mem_rowsAfter (List.mem_filter.mp h).1
  rw [List.length_drop, List.length_take] at hlast
  omega

lemma mem_eventsOf {frames : List (Frame ε)} {item : LoggedEvent ε} :
    item ∈ eventsOf frames ↔ .event item ∈ frames := by
  rw [eventsOf, List.mem_filterMap]
  constructor
  · rintro ⟨frame, hframe, hitem⟩
    cases frame with
    | event item' =>
      cases hitem
      exact hframe
    | heartbeat q => cases hitem
  · exact fun h => ⟨_, h, rfl⟩

/-- A stream short of a position has not sent it. -/
lemma frames_short {history : List ε} (hok : st.Ok typeOf gameId history) (haccepted : st.accepted)
    (hopen : st.place ≠ .done) (howed : st.cursor < q) (hbatch : ∀ r ∈ st.batch, r.seq ≠ q) :
    st.Short q := by
  refine ⟨haccepted, howed, hbatch, fun item hitem => ?_⟩
  have hframed : ∃ p < q, Framed typeOf gameId history st.types st.start p st.frames := by
    rw [GameStream.Ok] at hok
    rw [GameStream.accepted] at haccepted
    rw [GameStream.batch] at hbatch
    cases hplace : st.place with
    | resolving _ _ => rw [hplace] at haccepted; cases haccepted
    | retained _ _ => rw [hplace] at haccepted; cases haccepted
    | done => exact absurd hplace hopen
    | writing item rest =>
      rw [hplace] at hok hbatch
      have hnext := hok.2.1.2.1
      have hne := hbatch item List.mem_cons_self
      exact ⟨_, by omega, hok.1⟩
    | acquiring => rw [hplace] at hok; exact ⟨_, howed, hok⟩
    | top => rw [hplace] at hok; exact ⟨_, howed, hok⟩
    | beatingLast _ => rw [hplace] at hok; exact ⟨_, howed, hok⟩
    | parked => rw [hplace] at hok; exact ⟨_, howed, hok⟩
    | reading _ => rw [hplace] at hok; exact ⟨_, howed, hok.1⟩
    | rendering _ _ => rw [hplace] at hok; exact ⟨_, howed, hok.1⟩
    | beating _ => rw [hplace] at hok; exact ⟨_, howed, hok.1⟩
  obtain ⟨p, hp, hframed⟩ := hframed
  have hmem := hframed.events ▸ mem_eventsOf.mpr hitem
  exact Nat.lt_of_le_of_lt (seq_le_of_mem_matching hframed.le hmem) hp

/-- A stream whose next row is gone, and whose feed is past it, ends without another frame. -/
lemma turn_of_gone (h : s.Good typeOf gameId) (hst : s.streams.get? id = some st)
    (hgone : s.Gone gameId (st.cursor + 1)) (hbatch : ∀ r ∈ st.batch, r.seq ≠ st.cursor + 1)
    (hplace : (st.place = .top ∧ ∀ feed, s.feeds.get? st.feed = some (.live feed) →
      st.cursor < feed.head) ∨ ∃ rows, st.place = .reading rows) {ok : Bool}
    (hturn : s.turn typeOf gameId id st ok = some s') :
    ∃ st', s'.streams.get? id = some st' ∧ st'.frames = st.frames ∧
      (st'.place = .done ∨ (st.place = .top ∧ st'.place = .reading none) ∨
        (st.place = .reading none ∧ ∃ rows, st'.place = .reading (some rows))) := by
  rw [FeedServer.turn] at hturn
  rw [GameStream.batch] at hbatch
  rcases hplace with ⟨hplace, hpast⟩ | ⟨rows, hplace⟩
  · obtain ⟨feed, hfeed⟩ := h.live id st hst (by rw [GameStream.listens, hplace])
    rw [hplace] at hturn
    simp only [hfeed] at hturn
    split_ifs at hturn
    · cases hturn
      exact ⟨_, get?_settle, rfl, .inl rfl⟩
    · have hnone : feed.eventsAfter st.cursor = none := by
        by_contra hsome
        obtain ⟨rows, hrows⟩ := Option.ne_none_iff_exists'.mp hsome
        obtain ⟨hfollows, hhead⟩ := (h.feeds _ feed hfeed).eventsAfter hrows
        cases rows with
        | nil => exact absurd (hhead rfl) (Nat.not_le.mpr (hpast feed hfeed))
        | cons r rows =>
          exact hgone.window _ feed hfeed r (mem_eventsAfter hrows List.mem_cons_self)
            hfollows.1.2.1
      rw [hnone] at hturn
      cases hturn
      exact ⟨_, get?_setStream, rfl, .inr (.inl ⟨hplace, rfl⟩)⟩
  · rw [hplace] at hturn hbatch
    cases rows with
    | none =>
      cases hturn
      split_ifs
      · exact ⟨_, get?_setStream, rfl, .inr (.inr ⟨hplace, _, rfl⟩)⟩
      · exact ⟨_, get?_settle, rfl, .inl rfl⟩
    | some rows =>
      have hnone : GameStream.contiguous st.cursor rows = [] := by
        cases rows with
        | nil => rfl
        | cons r rows =>
          rw [GameStream.contiguous, if_neg (hbatch r List.mem_cons_self)]
      dsimp only at hturn
      rw [hnone] at hturn
      split_ifs at hturn
      · cases hturn
        exact ⟨_, get?_settle, rfl, .inl rfl⟩
      · cases hturn
        exact ⟨_, get?_settle, rfl, .inl rfl⟩

/-- A process without feeds and streams, on a gapless log. -/
lemma good_start {log : EventLog ε} {history : List ε} (h : log.Gapless gameId history) :
    ({ log := log, history := history } : FeedServer ε).Good typeOf gameId where
  log := h
  fresh := fun _ hi => absurd hi (by simp)
  starting := fun _ _ hi => absurd hi (by simp)
  feeds := fun _ _ hi => absurd hi (by simp)
  streams := fun _ _ hi => absurd hi (by simp)
  live := fun _ _ hi => absurd hi (by simp)
  rest := fun _ _ hi => absurd hi (by simp)

end FeedServer

/-- A log of two events. -/
def twoEvents : EventLog ℕ := EventLog.empty.write (text "game") [7, 8]

/-- A stream resumes after the first event, reads the second from the log, and waits. -/
def resumedStream : List (FeedEvent ℕ) :=
  .subscribe 0 none (some (text "1")) :: List.replicate 4 (.turn 0 true) ++
    [.feedTurn 0 true, .feedTurn 0 true] ++ List.replicate 7 (.turn 0 true)

end Junjo
