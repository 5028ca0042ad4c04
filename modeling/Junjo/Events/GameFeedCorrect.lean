import Junjo.Events.GameFeed

/-!
# The invariant of game streams

Whatever the commits, sweeps, reads and wake-ups, the window of a feed is the run of positions up to
its head, and the frames of a stream are the matching events up to where it has got.
-/

namespace Junjo

variable {ε : Type} {typeOf : ε → Text} {gameId : Text}

/-- The rows of a game are those of its history, less what was swept. -/
structure EventLog.Gapless (log : EventLog ε) (gameId : Text) (history : List ε) : Prop where
  position : log.position gameId = history.length
  rows : ∀ r ∈ log.rows, r.gameId = gameId → 0 < r.seq ∧ history[r.seq - 1]? = some r.event

/-- The events after one position up to another, as they were logged. -/
def between (gameId : Text) (history : List ε) (start p : ℕ) : List (LoggedEvent ε) :=
  EventLog.rowsAfter gameId start ((history.take p).drop start)

/-- Those that a filter lets through. -/
def matching (typeOf : ε → Text) (gameId : Text) (history : List ε) (types : Option (List Text))
    (start p : ℕ) : List (LoggedEvent ε) :=
  (between gameId history start p).filter (GameStream.wants typeOf types)

/-- The events of some frames. -/
def eventsOf (frames : List (Frame ε)) : List (LoggedEvent ε) :=
  frames.filterMap fun frame => match frame with
    | .event item => some item
    | .heartbeat _ => none

/-! ### Runs of positions -/

/-- Rows that follow a position in the history, without gaps. -/
def Follows (gameId : Text) (history : List ε) : ℕ → List (LoggedEvent ε) → Prop
  | _, [] => True
  | p, r :: rows => (r.gameId = gameId ∧ r.seq = p + 1 ∧ history[p]? = some r.event) ∧
      Follows gameId history (p + 1) rows

/-- Rows that stand in the history. -/
def Stand (gameId : Text) (history : List ε) (rows : List (LoggedEvent ε)) : Prop :=
  ∀ r ∈ rows, r.gameId = gameId ∧ 0 < r.seq ∧ history[r.seq - 1]? = some r.event

section Positions

variable {history more : List ε} {types : Option (List Text)} {start p : ℕ}
  {rows : List (LoggedEvent ε)} {frames : List (Frame ε)} {item : LoggedEvent ε}

lemma getElem?_history (h : history[p]? = some item.event) :
    (history ++ more)[p]? = some item.event := by
  rw [List.getElem?_append_left (List.getElem?_eq_some_iff.mp h).1]
  exact h

lemma Follows.append_history (h : Follows gameId history p rows) :
    Follows gameId (history ++ more) p rows := by
  induction rows generalizing p with
  | nil => trivial
  | cons r rows ih => exact ⟨⟨h.1.1, h.1.2.1, getElem?_history h.1.2.2⟩, ih h.2⟩

lemma Stand.append_history (h : Stand gameId history rows) : Stand gameId (history ++ more) rows :=
  fun r hr => ⟨(h r hr).1, (h r hr).2.1, getElem?_history (h r hr).2.2⟩

lemma Follows.append {rows' : List (LoggedEvent ε)} (h : Follows gameId history p rows)
    (h' : Follows gameId history (p + rows.length) rows') :
    Follows gameId history p (rows ++ rows') := by
  induction rows generalizing p with
  | nil => exact h'
  | cons r rows ih =>
    refine ⟨h.1, ih h.2 ?_⟩
    rw [List.length_cons, Nat.add_comm rows.length 1, ← Nat.add_assoc] at h'
    exact h'

lemma Follows.drop (h : Follows gameId history p rows) {k : ℕ} (hk : k ≤ rows.length) :
    Follows gameId history (p + k) (rows.drop k) := by
  induction k generalizing p rows with
  | zero => exact h
  | succ k ih =>
    cases rows with
    | nil => simp at hk
    | cons r rows =>
      have hdrop := ih h.2 (Nat.le_of_succ_le_succ hk)
      rw [Nat.add_assoc, Nat.add_comm 1 k] at hdrop
      exact hdrop

/-- The contiguous prefix of what was read follows the cursor. -/
lemma follows_contiguous (h : Stand gameId history rows) :
    Follows gameId history p (GameStream.contiguous p rows) := by
  induction rows generalizing p with
  | nil => trivial
  | cons r rows ih =>
    rw [GameStream.contiguous]
    split_ifs with hseq
    · obtain ⟨hgame, -, hevent⟩ := h r List.mem_cons_self
      rw [hseq, Nat.add_sub_cancel] at hevent
      exact ⟨⟨hgame, hseq, hevent⟩, ih fun r hr => h r (List.mem_cons_of_mem _ hr)⟩
    · trivial

lemma stand_readEventLog {log : EventLog ε} (h : log.Gapless gameId history) (after limit : ℕ) :
    Stand gameId history (log.readEventLog gameId after limit) := by
  intro r hr
  have hmem := List.mem_of_mem_take hr
  simp only [List.mem_filter, decide_eq_true_eq] at hmem
  exact ⟨hmem.2.1, h.rows r hmem.1 hmem.2.1⟩

lemma between_succ (hle : start ≤ p) (hgame : item.gameId = gameId) (hseq : item.seq = p + 1)
    (hevent : history[p]? = some item.event) :
    between gameId history start (p + 1) = between gameId history start p ++ [item] := by
  have hp := (List.getElem?_eq_some_iff.mp hevent).1
  have hlength : start + ((history.take p).drop start).length = p := by
    rw [List.length_drop, List.length_take]
    omega
  rw [between, List.take_add_one, hevent, Option.toList_some,
    List.drop_append_of_le_length (by rw [List.length_take]; omega), EventLog.rowsAfter_append, hlength]
  obtain ⟨gameId', seq, event⟩ := item
  cases hgame
  cases hseq
  rfl

lemma between_append_history (hp : p ≤ history.length) :
    between gameId (history ++ more) start p = between gameId history start p := by
  rw [between, List.take_append_of_le_length hp, ← between]

/-! ### Frames -/

/-- The frames of a stream that has got to a position. -/
structure Framed (typeOf : ε → Text) (gameId : Text) (history : List ε)
    (types : Option (List Text)) (start p : ℕ) (frames : List (Frame ε)) : Prop where
  le : start ≤ p
  within : p ≤ history.length
  events : eventsOf frames = matching typeOf gameId history types start p
  heartbeats : ∀ before q after, frames = before ++ .heartbeat q :: after →
    q ≤ p ∧ eventsOf before = matching typeOf gameId history types start q

lemma framed_nil (h : p ≤ history.length) : Framed typeOf gameId history types p p [] where
  le := Nat.le_refl p
  within := h
  events := by
    have hnone : (history.take p).drop p = [] := List.drop_eq_nil_of_le (List.length_take_le _ _)
    simp [matching, between, hnone, EventLog.rowsAfter, eventsOf]
  heartbeats := fun before q after h => absurd h (by simp)

/-- A place in a list with one more element. -/
lemma append_singleton_eq {α : Type} {l before after : List α} {a x : α}
    (h : l ++ [a] = before ++ x :: after) :
    (l = before ∧ a = x) ∨ ∃ after', l = before ++ x :: after' := by
  rcases List.eq_nil_or_concat after with rfl | ⟨after', b, rfl⟩
  · obtain ⟨rfl, hx⟩ := List.append_inj' h rfl
    exact .inl ⟨rfl, List.cons.inj hx |>.1⟩
  · rw [List.concat_eq_append, ← List.cons_append, ← List.append_assoc] at h
    exact .inr ⟨after', (List.append_inj' h rfl).1⟩

lemma Framed.append_history (h : Framed typeOf gameId history types start p frames) :
    Framed typeOf gameId (history ++ more) types start p frames where
  le := h.le
  within := Nat.le_trans h.within (by simp)
  events := by rw [h.events, matching, matching, between_append_history h.within]
  heartbeats := by
    intro before q after hframes
    obtain ⟨hq, hevents⟩ := h.heartbeats before q after hframes
    refine ⟨hq, ?_⟩
    rw [hevents, matching, matching, between_append_history (Nat.le_trans hq h.within)]

/-- The next event is sent, when the filter lets it through. -/
lemma Framed.event (h : Framed typeOf gameId history types start p frames)
    (hitem : item.gameId = gameId ∧ item.seq = p + 1 ∧ history[p]? = some item.event)
    (hwants : GameStream.wants typeOf types item) :
    Framed typeOf gameId history types start (p + 1) (frames ++ [.event item]) where
  le := Nat.le_succ_of_le h.le
  within := (List.getElem?_eq_some_iff.mp hitem.2.2).1
  events := by
    rw [eventsOf, List.filterMap_append, ← eventsOf, h.events, matching, matching,
      between_succ h.le hitem.1 hitem.2.1 hitem.2.2, List.filter_append]
    simp [hwants]
  heartbeats := by
    intro before q after hframes
    rcases append_singleton_eq hframes with ⟨-, hframe⟩ | ⟨after', hframes⟩
    · cases hframe
    · exact ⟨Nat.le_succ_of_le (h.heartbeats _ _ _ hframes).1, (h.heartbeats _ _ _ hframes).2⟩

/-- The next event is left out, when the filter does not let it through. -/
lemma Framed.skip (h : Framed typeOf gameId history types start p frames)
    (hitem : item.gameId = gameId ∧ item.seq = p + 1 ∧ history[p]? = some item.event)
    (hwants : ¬ GameStream.wants typeOf types item) :
    Framed typeOf gameId history types start (p + 1) frames where
  le := Nat.le_succ_of_le h.le
  within := (List.getElem?_eq_some_iff.mp hitem.2.2).1
  events := by
    rw [h.events, matching, matching, between_succ h.le hitem.1 hitem.2.1 hitem.2.2,
      List.filter_append]
    simp [hwants]
  heartbeats := fun before q after hframes =>
    ⟨Nat.le_succ_of_le (h.heartbeats _ _ _ hframes).1, (h.heartbeats _ _ _ hframes).2⟩

lemma Framed.heartbeat (h : Framed typeOf gameId history types start p frames) :
    Framed typeOf gameId history types start p (frames ++ [.heartbeat p]) where
  le := h.le
  within := h.within
  events := by
    rw [eventsOf, List.filterMap_append, ← eventsOf, h.events]
    simp
  heartbeats := by
    intro before q after hframes
    rcases append_singleton_eq hframes with ⟨rfl, hframe⟩ | ⟨after', hframes⟩
    · cases hframe
      exact ⟨Nat.le_refl _, h.events⟩
    · exact h.heartbeats _ _ _ hframes

end Positions

/-! ### The window of a feed -/

/-- The window is the run of positions that ends at the head. -/
structure GameFeed.WindowOk (gameId : Text) (history : List ε) (feed : GameFeed ε) : Prop where
  length : feed.window.length ≤ feed.head
  within : feed.head ≤ history.length
  follows : Follows gameId history (feed.head - feed.window.length) feed.window

/-- A feed whose window is in order, and whose read, if answered, was answered from the history. -/
structure GameFeed.Ok (gameId : Text) (history : List ε) (feed : GameFeed ε) : Prop
    extends feed.WindowOk gameId history where
  answered : ∀ rows, feed.reading = .answered rows → Stand gameId history rows

section Window

variable {history : List ε} {feed : GameFeed ε} {row : LoggedEvent ε} {rows : List (LoggedEvent ε)}
  {cursor : ℕ}

lemma GameFeed.WindowOk.push (h : feed.WindowOk gameId history)
    (hrow : row.gameId = gameId ∧ 0 < row.seq ∧ history[row.seq - 1]? = some row.event) :
    (feed.push row).WindowOk gameId history := by
  obtain ⟨hgame, hpos, hevent⟩ := hrow
  have hwithin := (List.getElem?_eq_some_iff.mp hevent).1
  rw [GameFeed.push]
  split_ifs with hjump
  · refine ⟨?_, by simp only; omega, ?_⟩
    · simp only [List.nil_append, List.length_singleton]
      omega
    · simp only [List.nil_append, List.length_singleton]
      exact ⟨⟨hgame, by omega, hevent⟩, trivial⟩
  · rw [not_not] at hjump
    have hlength := h.length
    rw [hjump, Nat.add_sub_cancel] at hevent
    refine ⟨?_, by simp only; omega, ?_⟩
    · simp only [List.length_append, List.length_singleton]
      omega
    · have hbase : row.seq - (feed.window ++ [row]).length = feed.head - feed.window.length := by
        rw [List.length_append, List.length_singleton]
        omega
      simp only [hbase]
      refine h.follows.append ⟨⟨hgame, ?_, ?_⟩, trivial⟩
      · omega
      · rw [Nat.sub_add_cancel hlength]
        exact hevent

lemma GameFeed.WindowOk.trim (h : feed.WindowOk gameId history) :
    feed.trim.WindowOk gameId history := by
  rw [GameFeed.trim]
  generalize gameFeedWindow = size
  split_ifs with hlong
  · have hlength := h.length
    have hk : feed.window.length - size ≤ feed.window.length := Nat.sub_le _ _
    have hdrop := h.follows.drop hk
    have hbase : feed.head - feed.window.length + (feed.window.length - size) =
        feed.head - (feed.window.drop (feed.window.length - size)).length := by
      rw [List.length_drop]
      omega
    rw [hbase] at hdrop
    exact ⟨by simp only [List.length_drop]; omega, h.within, hdrop⟩
  · exact h

lemma GameFeed.WindowOk.receive (h : feed.WindowOk gameId history)
    (hrows : Stand gameId history rows) : (feed.receive rows).Ok gameId history := by
  have hpushed : (rows.foldl GameFeed.push feed).WindowOk gameId history := by
    induction rows generalizing feed with
    | nil => exact h
    | cons row rows ih =>
      exact ih (h.push (hrows row List.mem_cons_self)) fun r hr => hrows r (List.mem_cons_of_mem _ hr)
  obtain ⟨hlength, hwithin, hfollows⟩ := hpushed.trim
  rw [GameFeed.receive]
  dsimp only
  split_ifs
  · exact ⟨⟨h.length, h.within, h.follows⟩, fun _ hread => by cases hread⟩
  all_goals exact ⟨⟨hlength, hwithin, hfollows⟩, fun _ hread => by cases hread⟩

/-- What a feed has after a cursor follows the cursor, and is empty for streams at its head. -/
lemma GameFeed.WindowOk.eventsAfter (h : feed.WindowOk gameId history)
    (hrows : feed.eventsAfter cursor = some rows) :
    Follows gameId history cursor rows ∧ (rows = [] → feed.head ≤ cursor) := by
  obtain ⟨hlength, -, hfollows⟩ := h
  rw [GameFeed.eventsAfter] at hrows
  have hfirst : (feed.window.head?.map LoggedEvent.seq).getD (feed.head + 1) =
      feed.head - feed.window.length + 1 := by
    cases hwindow : feed.window with
    | nil => rfl
    | cons r window =>
      rw [hwindow] at hfollows
      exact hfollows.1.2.1
  rw [hfirst] at hrows
  split_ifs at hrows with hbehind hahead
  · cases hrows
    exact ⟨trivial, fun _ => hahead⟩
  · cases hrows
    have hk : cursor + 1 - (feed.head - feed.window.length + 1) ≤ feed.window.length := by omega
    have hdrop := hfollows.drop hk
    have hbase : feed.head - feed.window.length +
        (cursor + 1 - (feed.head - feed.window.length + 1)) = cursor := by omega
    rw [hbase] at hdrop
    refine ⟨hdrop, fun hnil => ?_⟩
    rw [List.drop_eq_nil_iff] at hnil
    omega

end Window

/-! ### What a stream's step keeps -/

/-- What holds of a stream where its handler is. -/
def GameStream.Ok (typeOf : ε → Text) (gameId : Text) (history : List ε) (st : GameStream ε) :
    Prop :=
  match st.place with
  | .resolving _ current =>
    (∀ p, current = some p → p ≤ history.length) ∧ st.frames = [] ∧
      Framed typeOf gameId history st.types st.start st.cursor st.frames
  | .retained position _ =>
    position ≤ history.length ∧ st.frames = [] ∧
      Framed typeOf gameId history st.types st.start st.cursor st.frames
  | .acquiring | .top | .beatingLast _ | .parked =>
    Framed typeOf gameId history st.types st.start st.cursor st.frames
  | .reading rows =>
    Framed typeOf gameId history st.types st.start st.cursor st.frames ∧
      ∀ answer, rows = some answer → Stand gameId history answer
  | .rendering item rest =>
    Framed typeOf gameId history st.types st.start st.cursor st.frames ∧
      Follows gameId history st.cursor (item :: rest) ∧ GameStream.wants typeOf st.types item
  | .writing item rest =>
    Framed typeOf gameId history st.types st.start (st.cursor + 1) st.frames ∧
      Follows gameId history st.cursor (item :: rest)
  | .beating rest =>
    Framed typeOf gameId history st.types st.start st.cursor st.frames ∧
      Follows gameId history st.cursor rest
  | .done => ∃ p, Framed typeOf gameId history st.types st.start p st.frames

/-- Whether a stream waits for its feed, or will after the heartbeat that it is sending. -/
def GameStream.AtRest (st : GameStream ε) : Prop :=
  st.place = .parked ∨ (st.place = .beatingLast true ∧ st.signalled = false)

section Stream

variable {history more : List ε} {st : GameStream ε} {rest : List (LoggedEvent ε)}

lemma GameStream.Ok.append_history (h : st.Ok typeOf gameId history) :
    st.Ok typeOf gameId (history ++ more) := by
  have hlength : history.length ≤ (history ++ more).length := by simp
  unfold GameStream.Ok at h ⊢
  split at h
  · exact ⟨fun p hp => Nat.le_trans (h.1 p hp) hlength, h.2.1, h.2.2.append_history⟩
  · exact ⟨Nat.le_trans h.1 hlength, h.2.1, h.2.2.append_history⟩
  · exact Framed.append_history h
  · exact Framed.append_history h
  · exact Framed.append_history h
  · exact Framed.append_history h
  · exact ⟨h.1.append_history, fun answer hanswer => (h.2 answer hanswer).append_history⟩
  · exact ⟨h.1.append_history, h.2.1.append_history, h.2.2⟩
  · exact ⟨h.1.append_history, h.2.append_history⟩
  · exact ⟨h.1.append_history, h.2.append_history⟩
  · obtain ⟨p, h⟩ := h
    exact ⟨p, h.append_history⟩

lemma GameStream.ok_done (h : ∃ p, Framed typeOf gameId history st.types st.start p st.frames)
    {closed : Bool} : { st with closed := closed, place := .done }.Ok typeOf gameId history := h

lemma GameStream.afterBatch_ok {empty : Bool}
    (h : Framed typeOf gameId history st.types st.start st.cursor st.frames) :
    (st.afterBatch empty).Ok typeOf gameId history ∧ (st.afterBatch empty).feed = st.feed ∧
      ((st.afterBatch empty).AtRest → empty = true ∧ st.closed = false ∧
        (st.afterBatch empty).cursor = st.cursor ∧ (st.afterBatch empty).closed = false ∧
        (st.afterBatch empty).heartbeatDue = false) := by
  rw [GameStream.afterBatch]
  split_ifs with hclosed hdue hgo
  · exact ⟨⟨_, h⟩, rfl, by rintro (hplace | ⟨hplace, -⟩) <;> cases hplace⟩
  · refine ⟨h.heartbeat, rfl, ?_⟩
    rintro (hplace | ⟨hplace, -⟩)
    · cases hplace
    · cases hplace
      exact ⟨rfl, by simpa using hclosed, rfl, by simpa using hclosed, rfl⟩
  · exact ⟨h, rfl, by rintro (hplace | ⟨hplace, -⟩) <;> cases hplace⟩
  · refine ⟨h, rfl, fun _ => ?_⟩
    simp only [Bool.or_eq_true, Bool.not_eq_true', not_or, Bool.not_eq_true, Bool.not_eq_false]
      at hgo
    exact ⟨hgo.1, by simpa using hclosed, rfl, by simpa using hclosed, by simpa using hdue⟩

lemma GameStream.sendItems_ok
    (h : Framed typeOf gameId history st.types st.start st.cursor st.frames)
    (hrest : Follows gameId history st.cursor rest) :
    (st.sendItems typeOf rest).Ok typeOf gameId history ∧
      (st.sendItems typeOf rest).feed = st.feed ∧ ¬ (st.sendItems typeOf rest).AtRest := by
  induction rest generalizing st with
  | nil =>
    obtain ⟨hok, hfeed, hatRest⟩ := @GameStream.afterBatch_ok _ _ _ _ _ false h
    exact ⟨hok, hfeed, fun hst => by cases (hatRest hst).1⟩
  | cons item rest ih =>
    rw [GameStream.sendItems]
    dsimp only
    split_ifs with hclosed hwants hdue
    · exact ⟨⟨_, h⟩, rfl, by rintro (hplace | ⟨hplace, -⟩) <;> cases hplace⟩
    · exact ⟨⟨h, hrest, hwants⟩, rfl, by rintro (hplace | ⟨hplace, -⟩) <;> cases hplace⟩
    all_goals
      have hskip := h.skip hrest.1 hwants
      have hlater := hrest.2
      rw [← hrest.1.2.1] at hskip hlater
    · exact ⟨⟨hskip.heartbeat, hlater⟩, rfl, by rintro (hplace | ⟨hplace, -⟩) <;> cases hplace⟩
    · exact ih hskip hlater

end Stream

/-! ### What every step keeps -/

/-- The invariant of a process and the database. -/
structure FeedServer.Good (typeOf : ε → Text) (gameId : Text) (s : FeedServer ε) : Prop where
  log : s.log.Gapless gameId s.history
  fresh : ∀ fid ∈ s.feeds.keys, fid < s.nextFeed
  starting : ∀ fid p, s.feeds.get? fid = some (.starting (some p)) → p ≤ s.history.length
  feeds : ∀ fid feed, s.feeds.get? fid = some (.live feed) → feed.Ok gameId s.history
  streams : ∀ id st, s.streams.get? id = some st → st.Ok typeOf gameId s.history
  live : ∀ id st, s.streams.get? id = some st → st.listens →
    ∃ feed, s.feeds.get? st.feed = some (.live feed)
  /-- A stream that waits has got to its feed's head. -/
  rest : ∀ id st, s.streams.get? id = some st → st.AtRest → st.closed = false ∧
    st.heartbeatDue = false ∧
    ∀ feed, s.feeds.get? st.feed = some (.live feed) → feed.head ≤ st.cursor

namespace FeedServer

variable {s s' : FeedServer ε} {id fid : ℕ} {st : GameStream ε} {feed feed' : GameFeed ε}

lemma listens_of_atRest (h : st.AtRest) : st.listens := by
  rcases h with hplace | ⟨hplace, -⟩
  · rw [GameStream.listens, hplace]
  · rw [GameStream.listens, hplace]

lemma not_atRest_wakeup : ¬ st.wakeup.AtRest := by
  rintro (hplace | ⟨-, hsignalled⟩)
  · rw [GameStream.wakeup] at hplace
    cases hst : st.place <;> rw [hst] at hplace <;> cases hplace
  · cases hsignalled

lemma Good.setStream (h : s.Good typeOf gameId) (hok : st.Ok typeOf gameId s.history)
    (hlive : st.listens → ∃ feed, s.feeds.get? st.feed = some (.live feed))
    (hrest : st.AtRest → st.closed = false ∧ st.heartbeatDue = false ∧
      ∀ feed, s.feeds.get? st.feed = some (.live feed) → feed.head ≤ st.cursor) :
    (s.setStream id st).Good typeOf gameId where
  log := h.log
  fresh := h.fresh
  starting := h.starting
  feeds := h.feeds
  streams := by
    intro i st' hi
    rw [FeedServer.setStream, Dict.get?_set] at hi
    split_ifs at hi
    · cases hi
      exact hok
    · exact h.streams i st' hi
  live := by
    intro i st' hi
    rw [FeedServer.setStream, Dict.get?_set] at hi
    split_ifs at hi
    · cases hi
      exact hlive
    · exact h.live i st' hi
  rest := by
    intro i st' hi
    rw [FeedServer.setStream, Dict.get?_set] at hi
    split_ifs at hi
    · cases hi
      exact hrest
    · exact h.rest i st' hi

lemma Good.withEntry (h : s.Good typeOf gameId) (entry : Option (ℕ × ℕ)) :
    { s with entry := entry }.Good typeOf gameId :=
  ⟨h.log, h.fresh, h.starting, h.feeds, h.streams, h.live, h.rest⟩

/-- A feed that keeps its head. -/
lemma Good.setFeed (h : s.Good typeOf gameId) (hget : s.feeds.get? fid = some (.live feed))
    (hok : feed'.Ok gameId s.history) (hhead : feed'.head = feed.head) :
    (s.setFeed fid (.live feed')).Good typeOf gameId where
  log := h.log
  fresh := by
    intro i hi
    rw [FeedServer.setFeed, Dict.mem_keys_set] at hi
    rcases hi with rfl | hi
    · exact h.fresh i (Dict.mem_keys_iff.mpr ⟨_, hget⟩)
    · exact h.fresh i hi
  starting := by
    intro i p hi
    rw [FeedServer.setFeed, Dict.get?_set] at hi
    split_ifs at hi
    · cases hi
    · exact h.starting i p hi
  feeds := by
    intro i feed₁ hi
    rw [FeedServer.setFeed, Dict.get?_set] at hi
    split_ifs at hi
    · cases hi
      exact hok
    · exact h.feeds i feed₁ hi
  streams := h.streams
  live := by
    intro i st' hi hlistens
    rw [FeedServer.setFeed, Dict.get?_set]
    split_ifs
    · exact ⟨feed', rfl⟩
    · exact h.live i st' hi hlistens
  rest := by
    intro i st' hi hatRest
    obtain ⟨hclosed, hdue, hcaught⟩ := h.rest i st' hi hatRest
    refine ⟨hclosed, hdue, fun feed₁ hfeed₁ => ?_⟩
    rw [FeedServer.setFeed, Dict.get?_set] at hfeed₁
    split_ifs at hfeed₁ with hsame
    · cases hfeed₁
      rw [hhead]
      exact hcaught feed (hsame ▸ hget)
    · exact hcaught feed₁ hfeed₁

lemma ok_stop {history : List ε} (h : feed.Ok gameId history) :
    feed.stop.Ok gameId history :=
  ⟨⟨Nat.zero_le _, h.within, trivial⟩, h.answered⟩

lemma Good.release (h : s.Good typeOf gameId) (fid : ℕ) : (s.release fid).Good typeOf gameId := by
  rw [FeedServer.release]
  split
  · exact h
  · split_ifs
    · exact h.withEntry _
    · split
      · rename_i live hlive
        exact (h.withEntry none).setFeed hlive (ok_stop (h.feeds fid live hlive)) rfl
      · exact h.withEntry none

lemma Good.settle (h : s.Good typeOf gameId) (hok : st.Ok typeOf gameId s.history)
    (hlive : ∃ feed, s.feeds.get? st.feed = some (.live feed))
    (hrest : st.AtRest → st.closed = false ∧ st.heartbeatDue = false ∧
      ∀ feed, s.feeds.get? st.feed = some (.live feed) → feed.head ≤ st.cursor) :
    (s.settle id st).Good typeOf gameId := by
  have hset := @Good.setStream _ _ _ _ id _ h hok (fun _ => hlive) hrest
  rw [FeedServer.settle]
  split
  · exact hset.release _
  · exact hset

lemma not_listens_done {closed : Bool} :
    ¬ ({ st with closed := closed, place := .done } : GameStream ε).listens := by
  simp [GameStream.listens]

lemma not_atRest_done {closed : Bool} :
    ¬ ({ st with closed := closed, place := .done } : GameStream ε).AtRest :=
  fun h => not_listens_done (listens_of_atRest h)

lemma Good.refuse (h : s.Good typeOf gameId)
    (hst : ∃ p, Framed typeOf gameId s.history st.types st.start p st.frames) :
    (s.refuse id st).Good typeOf gameId :=
  h.setStream (GameStream.ok_done hst) (fun hlistens => absurd hlistens not_listens_done)
    fun hatRest => absurd hatRest not_atRest_done

/-- A stream joins the feed of the game, or starts one. -/
lemma Good.acquire (h : s.Good typeOf gameId) {position : ℕ} (hposition : position ≤ s.history.length)
    (hframes : st.frames = []) : (s.acquire id st position).Good typeOf gameId := by
  have hok : ∀ feed, { st with
      place := .acquiring, feed := feed, start := position, cursor := position }.Ok typeOf gameId
      s.history := by
    intro feed
    change Framed typeOf gameId s.history st.types position position st.frames
    rw [hframes]
    exact framed_nil hposition
  have hquiet : ∀ feed, ¬ ({ st with
      place := .acquiring, feed := feed, start := position, cursor := position } :
      GameStream ε).listens := by
    simp [GameStream.listens]
  rw [FeedServer.acquire]
  split
  · exact (h.withEntry _).setStream (hok _) (fun hlistens => absurd hlistens (hquiet _))
      fun hatRest => absurd (listens_of_atRest hatRest) (hquiet _)
  · have hkept : ∀ fid promise, s.feeds.get? fid = some promise →
        (s.feeds.set s.nextFeed (.starting none)).get? fid = some promise := by
      intro fid promise hfid
      rw [Dict.get?_set, if_neg, hfid]
      rintro rfl
      exact Nat.lt_irrefl _ (h.fresh _ (Dict.mem_keys_iff.mpr ⟨_, hfid⟩))
    have hold : ∀ fid promise,
        (s.feeds.set s.nextFeed (.starting none)).get? fid = some promise →
        promise = .starting none ∨ s.feeds.get? fid = some promise := by
      intro fid promise hfid
      rw [Dict.get?_set] at hfid
      split_ifs at hfid
      · cases hfid
        exact .inl rfl
      · exact .inr hfid
    have hgood : FeedServer.Good typeOf gameId { s with
        entry := some (s.nextFeed, 1)
        feeds := s.feeds.set s.nextFeed (.starting none)
        nextFeed := s.nextFeed + 1 } := by
      refine ⟨h.log, ?_, ?_, ?_, h.streams, ?_, ?_⟩
      · intro fid hfid
        rcases Dict.mem_keys_set.mp hfid with rfl | hfid
        · exact Nat.lt_succ_self _
        · exact Nat.lt_succ_of_lt (h.fresh fid hfid)
      · intro fid p hfid
        rcases hold _ _ hfid with hnew | hfid
        · cases hnew
        · exact h.starting fid p hfid
      · intro fid feed hfid
        rcases hold _ _ hfid with hnew | hfid
        · cases hnew
        · exact h.feeds fid feed hfid
      · intro i st' hi hlistens
        obtain ⟨feed, hfeed⟩ := h.live i st' hi hlistens
        exact ⟨feed, hkept _ _ hfeed⟩
      · intro i st' hi hatRest
        obtain ⟨hclosed, hdue, hcaught⟩ := h.rest i st' hi hatRest
        refine ⟨hclosed, hdue, fun feed hfeed => ?_⟩
        rcases hold _ _ hfeed with hnew | hfeed
        · cases hnew
        · exact hcaught feed hfeed
    exact hgood.setStream (hok _) (fun hlistens => absurd hlistens (hquiet _))
      fun hatRest => absurd (listens_of_atRest hatRest) (hquiet _)

lemma Good.resolve (h : s.Good typeOf gameId) {lastEventId : Option Text} {current : ℕ}
    {granted : Bool} (hcurrent : current ≤ s.history.length) (hframes : st.frames = [])
    (hframed : Framed typeOf gameId s.history st.types st.start st.cursor st.frames) :
    (s.resolve id st lastEventId current granted).Good typeOf gameId := by
  have hrefuse := @Good.refuse _ _ _ _ id _ h ⟨_, hframed⟩
  unfold FeedServer.resolve
  split
  · split_ifs
    · exact h.acquire hcurrent hframes
    · exact hrefuse
  · split_ifs
    · exact h.acquire hcurrent hframes
    · exact hrefuse
  · split
    · exact hrefuse
    · rename_i position hparse
      split_ifs with hahead hsame
      · exact hrefuse
      · exact h.acquire (hsame ▸ hcurrent) hframes
      · exact hrefuse
      · refine h.setStream ⟨by omega, hframes, hframed⟩ ?_ ?_
        · exact fun hlistens => by simp [GameStream.listens] at hlistens
        · exact fun hatRest => by simpa [GameStream.listens] using listens_of_atRest hatRest

/-- A step of a stream's handler keeps the invariant. -/
lemma Good.turn (h : s.Good typeOf gameId) (hst : s.streams.get? id = some st) {ok : Bool}
    (hturn : s.turn typeOf gameId id st ok = some s') : s'.Good typeOf gameId := by
  have hok := h.streams id st hst
  have hlive := h.live id st hst
  have hrest := h.rest id st hst
  rw [GameStream.Ok] at hok
  rw [FeedServer.turn] at hturn
  cases hplace : st.place with
  | resolving lastEventId current =>
    rw [hplace] at hok hturn
    cases current with
    | none =>
      cases hturn
      split_ifs
      · refine h.setStream ⟨?_, hok.2.1, hok.2.2⟩ ?_ ?_
        · rintro p ⟨⟩
          exact Nat.le_of_eq h.log.position
        · exact fun hlistens => by simp [GameStream.listens] at hlistens
        · exact fun hatRest => by simpa [GameStream.listens] using listens_of_atRest hatRest
      · exact h.refuse ⟨_, hok.2.2⟩
    | some current =>
      cases hturn
      exact h.resolve (hok.1 current rfl) hok.2.1 hok.2.2
  | retained position kept =>
    rw [hplace] at hok hturn
    cases kept with
    | none =>
      cases hturn
      split_ifs
      · refine h.setStream hok ?_ ?_
        · exact fun hlistens => by simp [GameStream.listens] at hlistens
        · exact fun hatRest => by simpa [GameStream.listens] using listens_of_atRest hatRest
      · exact h.refuse ⟨_, hok.2.2⟩
    | some kept =>
      cases hturn
      split_ifs
      · exact h.acquire hok.1 hok.2.1
      · exact h.refuse ⟨_, hok.2.2⟩
  | acquiring =>
    rw [hplace] at hok hturn
    dsimp only at hturn
    split at hturn
    · rename_i feed hfeed
      cases hturn
      refine h.setStream hok (fun _ => ⟨feed, hfeed⟩) ?_
      rintro (hplace | ⟨hplace, -⟩) <;> cases hplace
    · cases hturn
      exact h.refuse ⟨_, hok⟩
    · cases hturn
  | top =>
    obtain ⟨feed, hfeed⟩ := hlive (by rw [GameStream.listens, hplace])
    rw [hplace] at hok hturn
    simp only [hfeed] at hturn
    split_ifs at hturn with hclosed
    · cases hturn
      exact h.settle ⟨_, hok⟩ ⟨feed, hfeed⟩ fun hatRest => absurd hatRest not_atRest_done
    · split at hturn
      · cases hturn
        refine h.setStream ⟨hok, fun _ hanswer => by cases hanswer⟩ (fun _ => ⟨feed, hfeed⟩) ?_
        rintro (hplace | ⟨hplace, -⟩) <;> cases hplace
      · rename_i hnone
        cases hturn
        obtain ⟨-, hhead⟩ := (h.feeds _ feed hfeed).eventsAfter hnone
        obtain ⟨hbatch, hsame, hatRest⟩ := @GameStream.afterBatch_ok _ typeOf gameId s.history
          { st with place := .top, signalled := false } true hok
        refine h.settle hbatch ⟨feed, by rw [hsame]; exact hfeed⟩ fun hst' => ?_
        obtain ⟨-, -, hcursor, hclosed', hdue⟩ := hatRest hst'
        refine ⟨hclosed', hdue, fun feed' hfeed' => ?_⟩
        rw [hsame, hfeed] at hfeed'
        cases hfeed'
        rw [hcursor]
        exact hhead rfl
      · rename_i batch _ hbatch
        cases hturn
        obtain ⟨hsent, hsame, hatRest⟩ := @GameStream.sendItems_ok _ typeOf gameId s.history
          { st with place := .top, signalled := false } batch hok ((h.feeds _ feed hfeed).eventsAfter hbatch).1
        exact h.settle hsent ⟨feed, by rw [hsame]; exact hfeed⟩ fun hst' => absurd hst' hatRest
  | reading rows =>
    obtain ⟨feed, hfeed⟩ := hlive (by rw [GameStream.listens, hplace])
    rw [hplace] at hok hturn
    have hdone : ∀ closed, (s.settle id { st with closed := closed, place := .done }).Good typeOf
        gameId := fun closed =>
      h.settle ⟨_, hok.1⟩ ⟨feed, hfeed⟩ fun hatRest => absurd hatRest not_atRest_done
    cases rows with
    | none =>
      cases hturn
      split_ifs
      · refine h.setStream ⟨hok.1, ?_⟩ (fun _ => ⟨feed, hfeed⟩) ?_
        · rintro answer ⟨⟩
          exact stand_readEventLog h.log _ _
        · rintro (hplace | ⟨hplace, -⟩) <;> cases hplace
      · exact hdone true
    | some rows =>
      dsimp only at hturn
      split_ifs at hturn
      · cases hturn
        exact hdone st.closed
      · have hfollows := @follows_contiguous _ _ _ st.cursor _ (hok.2 rows rfl)
        split at hturn
        · cases hturn
          exact hdone true
        · rename_i batch _
          cases hturn
          obtain ⟨hsent, hsame, hatRest⟩ := GameStream.sendItems_ok hok.1 hfollows
          exact h.settle hsent ⟨feed, by rw [hsame]; exact hfeed⟩ fun hst' => absurd hst' hatRest
  | rendering item rest =>
    obtain ⟨feed, hfeed⟩ := hlive (by rw [GameStream.listens, hplace])
    rw [hplace] at hok hturn
    cases hturn
    split_ifs
    · exact h.settle ⟨_, hok.1⟩ ⟨feed, hfeed⟩ fun hatRest => absurd hatRest not_atRest_done
    · refine h.setStream ⟨hok.1.event hok.2.1.1 hok.2.2, hok.2.1⟩ (fun _ => ⟨feed, hfeed⟩) ?_
      rintro (hplace | ⟨hplace, -⟩) <;> cases hplace
  | writing item rest =>
    obtain ⟨feed, hfeed⟩ := hlive (by rw [GameStream.listens, hplace])
    rw [hplace] at hok hturn
    cases hturn
    split_ifs
    · obtain ⟨hframed, ⟨-, hseq, -⟩, hfollows⟩ := hok
      rw [← hseq] at hframed hfollows
      rw [GameStream.sent]
      dsimp only
      split_ifs
      · refine h.settle ⟨hframed.heartbeat, hfollows⟩ ⟨feed, hfeed⟩ ?_
        rintro (hplace | ⟨hplace, -⟩) <;> cases hplace
      · obtain ⟨hsent, hsame, hatRest⟩ := @GameStream.sendItems_ok _ typeOf gameId s.history
          { st with cursor := item.seq } rest hframed hfollows
        exact h.settle hsent ⟨feed, by rw [hsame]; exact hfeed⟩ fun hst' => absurd hst' hatRest
    · exact h.settle ⟨_, hok.1⟩ ⟨feed, hfeed⟩ fun hatRest => absurd hatRest not_atRest_done
  | beating rest =>
    obtain ⟨feed, hfeed⟩ := hlive (by rw [GameStream.listens, hplace])
    rw [hplace] at hok hturn
    cases hturn
    split_ifs
    · obtain ⟨hsent, hsame, hatRest⟩ := GameStream.sendItems_ok hok.1 hok.2
      exact h.settle hsent ⟨feed, by rw [hsame]; exact hfeed⟩ fun hst' => absurd hst' hatRest
    · exact h.settle ⟨_, hok.1⟩ ⟨feed, hfeed⟩ fun hatRest => absurd hatRest not_atRest_done
  | beatingLast empty =>
    obtain ⟨feed, hfeed⟩ := hlive (by rw [GameStream.listens, hplace])
    rw [hplace] at hok hturn
    cases hturn
    split_ifs with hsent hgo
    · refine h.setStream hok (fun _ => ⟨feed, hfeed⟩) ?_
      rintro (hplace | ⟨hplace, -⟩) <;> cases hplace
    · simp only [Bool.or_eq_true, Bool.not_eq_true', not_or, Bool.not_eq_true,
        Bool.not_eq_false] at hgo
      obtain ⟨rfl, hsignalled⟩ := hgo
      exact h.setStream hok (fun _ => ⟨feed, hfeed⟩) fun _ => hrest (.inr ⟨hplace, hsignalled⟩)
    · exact h.settle ⟨_, hok⟩ ⟨feed, hfeed⟩ fun hatRest => absurd hatRest not_atRest_done
  | parked =>
    rw [hplace] at hturn
    cases hturn
  | done =>
    rw [hplace] at hturn
    cases hturn

lemma head_receive {rows : List (LoggedEvent ε)} (h : feed.stopped ∨ rows = []) :
    (feed.receive rows).head = feed.head := by
  rw [GameFeed.receive]
  rcases h with hstopped | rfl
  · rw [if_pos hstopped]
  · dsimp only [List.foldl_nil, GameFeed.trim]
    split_ifs <;> rfl

lemma ok_wakeup {history : List ε} (h : st.Ok typeOf gameId history) :
    st.wakeup.Ok typeOf gameId history := by
  rw [GameStream.Ok, GameStream.wakeup]
  rw [GameStream.Ok] at h
  cases hplace : st.place <;> rw [hplace] at h <;> exact h

lemma Good.wakeup (h : s.Good typeOf gameId) (st : GameStream ε) (hok : st.Ok typeOf gameId s.history)
    (hlive : ∃ feed, s.feeds.get? st.feed = some (.live feed)) :
    (s.setStream id st.wakeup).Good typeOf gameId :=
  h.setStream (ok_wakeup hok) (fun _ => hlive) fun hatRest => absurd hatRest not_atRest_wakeup

/-- A feed that advanced has told its streams, so none of them waits. -/
lemma Good.notify (h : s.Good typeOf gameId) (hget : s.feeds.get? fid = some (.live feed))
    (hok : feed'.Ok gameId s.history) :
    ((s.setFeed fid (.live feed')).notify fid).Good typeOf gameId where
  log := h.log
  fresh := by
    intro i hi
    rcases Dict.mem_keys_set.mp hi with rfl | hi
    · exact h.fresh i (Dict.mem_keys_iff.mpr ⟨_, hget⟩)
    · exact h.fresh i hi
  starting := by
    intro i p hi
    rw [FeedServer.notify, FeedServer.setFeed, Dict.get?_set] at hi
    split_ifs at hi
    · cases hi
    · exact h.starting i p hi
  feeds := by
    intro i feed₁ hi
    rw [FeedServer.notify, FeedServer.setFeed, Dict.get?_set] at hi
    split_ifs at hi
    · cases hi
      exact hok
    · exact h.feeds i feed₁ hi
  streams := by
    intro i st' hi
    rw [FeedServer.notify, Dict.get?_mapValues, Option.map_eq_some_iff] at hi
    obtain ⟨st, hst, rfl⟩ := hi
    have hstok := h.streams i st hst
    split_ifs
    · exact ok_wakeup hstok
    · exact hstok
  live := by
    intro i st' hi hlistens
    rw [FeedServer.notify, Dict.get?_mapValues, Option.map_eq_some_iff] at hi
    obtain ⟨st, hst, rfl⟩ := hi
    have hlistens : st.listens := by
      split_ifs at hlistens with hfeed
      · exact hfeed.2
      · exact hlistens
    have hsame : (if st.feed = fid ∧ st.listens then st.wakeup else st).feed = st.feed := by
      split_ifs <;> rfl
    rw [hsame, FeedServer.notify, FeedServer.setFeed, Dict.get?_set]
    split_ifs
    · exact ⟨feed', rfl⟩
    · exact h.live i st hst hlistens
  rest := by
    intro i st' hi hatRest
    rw [FeedServer.notify, Dict.get?_mapValues, Option.map_eq_some_iff] at hi
    obtain ⟨st, hst, rfl⟩ := hi
    split_ifs at hatRest ⊢ with hfeed
    · exact absurd hatRest not_atRest_wakeup
    · obtain ⟨hclosed, hdue, hcaught⟩ := h.rest i st hst hatRest
      refine ⟨hclosed, hdue, fun feed₁ hfeed₁ => ?_⟩
      rw [FeedServer.notify, FeedServer.setFeed, Dict.get?_set, if_neg] at hfeed₁
      · exact hcaught feed₁ hfeed₁
      · exact fun hsame => hfeed ⟨hsame, listens_of_atRest hatRest⟩

lemma ok_wake {history : List ε} (h : feed.Ok gameId history) : feed.wake.Ok gameId history := by
  rw [GameFeed.wake]
  split_ifs
  · exact h
  · split
    · exact ⟨⟨h.length, h.within, h.follows⟩, fun _ hread => by cases hread⟩
    · exact ⟨⟨h.length, h.within, h.follows⟩, h.answered⟩

lemma head_wake : feed.wake.head = feed.head := by
  rw [GameFeed.wake]
  split_ifs
  · rfl
  · split <;> rfl

/-- A promise that becomes another without having been a feed. -/
lemma Good.setPromise (h : s.Good typeOf gameId) {promise : FeedPromise ε}
    (hget : ∀ feed, s.feeds.get? fid ≠ some (.live feed)) (hkey : fid ∈ s.feeds.keys)
    (hstarting : ∀ p, promise = .starting (some p) → p ≤ s.history.length)
    (hlive : ∀ feed, promise = .live feed → feed.Ok gameId s.history) :
    (s.setFeed fid promise).Good typeOf gameId where
  log := h.log
  fresh := by
    intro i hi
    rcases Dict.mem_keys_set.mp hi with rfl | hi
    · exact h.fresh i hkey
    · exact h.fresh i hi
  starting := by
    intro i p hi
    rw [FeedServer.setFeed, Dict.get?_set] at hi
    split_ifs at hi
    · exact hstarting p (Option.some.inj hi)
    · exact h.starting i p hi
  feeds := by
    intro i feed₁ hi
    rw [FeedServer.setFeed, Dict.get?_set] at hi
    split_ifs at hi
    · exact hlive feed₁ (Option.some.inj hi)
    · exact h.feeds i feed₁ hi
  streams := h.streams
  live := by
    intro i st' hi hlistens
    obtain ⟨feed₁, hfeed₁⟩ := h.live i st' hi hlistens
    refine ⟨feed₁, ?_⟩
    rw [FeedServer.setFeed, Dict.get?_set, if_neg]
    · exact hfeed₁
    · exact fun hsame => hget feed₁ (hsame ▸ hfeed₁)
  rest := by
    intro i st' hi hatRest
    obtain ⟨hclosed, hdue, hcaught⟩ := h.rest i st' hi hatRest
    refine ⟨hclosed, hdue, fun feed₁ hfeed₁ => ?_⟩
    rw [FeedServer.setFeed, Dict.get?_set, if_neg] at hfeed₁
    · exact hcaught feed₁ hfeed₁
    · obtain ⟨feed₂, hfeed₂⟩ := h.live i st' hi (listens_of_atRest hatRest)
      exact fun hsame => hget feed₂ (hsame ▸ hfeed₂)

lemma Good.feedTurn (h : s.Good typeOf gameId) {ok : Bool}
    (hturn : s.feedTurn gameId fid ok = some s') : s'.Good typeOf gameId := by
  rw [FeedServer.feedTurn] at hturn
  split at hturn
  · rename_i hget
    have hkey := Dict.mem_keys_iff.mpr ⟨_, hget⟩
    have hnot : ∀ feed, s.feeds.get? fid ≠ some (.live feed) := by
      intro feed hfeed
      rw [hget] at hfeed
      cases hfeed
    cases hturn
    split_ifs
    · refine h.setPromise hnot hkey ?_ fun _ hfeed => by cases hfeed
      rintro p ⟨⟩
      exact Nat.le_of_eq h.log.position
    · exact (h.withEntry _).setPromise hnot hkey (fun _ hp => by cases hp)
        fun _ hfeed => by cases hfeed
    · exact (h.withEntry _).setPromise hnot hkey (fun _ hp => by cases hp)
        fun _ hfeed => by cases hfeed
  · rename_i position hget
    cases hturn
    refine h.setPromise ?_ (Dict.mem_keys_iff.mpr ⟨_, hget⟩) (fun _ hp => by cases hp) ?_
    · intro feed hfeed
      rw [hget] at hfeed
      cases hfeed
    · rintro feed ⟨⟩
      exact ⟨⟨Nat.zero_le _, h.starting fid position hget, trivial⟩, fun _ hread => by cases hread⟩
  · rename_i feed hget
    have hok := h.feeds fid feed hget
    split at hturn
    · cases hturn
    · cases hturn
      split_ifs
      · refine h.setFeed hget ⟨⟨hok.length, hok.within, hok.follows⟩, ?_⟩ rfl
        rintro rows ⟨⟩
        exact stand_readEventLog h.log _ _
      · exact h.setFeed hget ⟨⟨hok.length, hok.within, hok.follows⟩, fun _ hread => by cases hread⟩ rfl
    · rename_i rows hread
      cases hturn
      have hreceived := hok.toWindowOk.receive (hok.answered rows hread)
      split_ifs with hquiet
      · refine h.setFeed hget hreceived (head_receive ?_)
        simpa only [Bool.or_eq_true, List.isEmpty_iff] using hquiet
      · exact h.notify hget hreceived
  · cases hturn

/-- Every step keeps the invariant. -/
lemma Good.next (h : s.Good typeOf gameId) {e : FeedEvent ε}
    (hnext : s.next typeOf gameId e = some s') : s'.Good typeOf gameId := by
  cases e with
  | commit gameId' events =>
    cases hnext
    have hgrown : ∃ more, (if gameId' = gameId then s.history ++ events else s.history) =
        s.history ++ more := by
      split_ifs
      · exact ⟨events, rfl⟩
      · exact ⟨[], (List.append_nil _).symm⟩
    refine ⟨⟨?_, ?_⟩, h.fresh, ?_, ?_, ?_, h.live, h.rest⟩
    · have hposition := h.log.position
      rw [EventLog.position] at hposition ⊢
      rw [EventLog.write, Dict.get?_set]
      by_cases hgame : gameId' = gameId
      · subst hgame
        rw [if_pos rfl, if_pos rfl, Option.getD_some, List.length_append]
        exact congrArg (· + events.length) hposition
      · rw [if_neg hgame, if_neg (Ne.symm hgame)]
        exact hposition
    · intro r hr hgame
      rcases List.mem_append.mp hr with hold | hnew
      · obtain ⟨hpos, hevent⟩ := h.log.rows r hold hgame
        obtain ⟨more, hmore⟩ := hgrown
        rw [hmore]
        exact ⟨hpos, getElem?_history hevent⟩
      · obtain ⟨hgame', hpast, -⟩ := EventLog.mem_rowsAfter hnew
        refine ⟨Nat.zero_lt_of_lt hpast, ?_⟩
        obtain rfl := hgame'.symm.trans hgame
        obtain ⟨g, p, event⟩ := r
        obtain rfl : g = gameId' := hgame
        obtain ⟨hpast, hevent⟩ := EventLog.mem_rowsAfter_iff.mp hnew
        rw [h.log.position] at hpast hevent
        rw [if_pos rfl, List.getElem?_append_right (by simp only; omega), ← hevent]
        exact congrArg (events[·]?) (by simp only; omega)
    all_goals
      obtain ⟨more, hmore⟩ := hgrown
      simp only [hmore]
    · exact fun i p hi => Nat.le_trans (h.starting i p hi) (by simp)
    · intro i feed hi
      obtain ⟨⟨hlength, hwithin, hfollows⟩, hanswered⟩ := h.feeds i feed hi
      exact ⟨⟨hlength, Nat.le_trans hwithin (by simp), hfollows.append_history⟩,
        fun rows hrows => (hanswered rows hrows).append_history⟩
    · exact fun i st hi => (h.streams i st hi).append_history
  | sweep swept =>
    cases hnext
    exact ⟨⟨h.log.position, fun r hr => h.log.rows r (List.mem_filter.mp hr).1⟩, h.fresh, h.starting,
      h.feeds, h.streams, h.live, h.rest⟩
  | subscribe id types lastEventId =>
    rw [FeedServer.next] at hnext
    split_ifs at hnext
    cases hnext
    refine h.setStream ⟨fun _ hp => (by cases hp), rfl, framed_nil (Nat.zero_le _)⟩ ?_ ?_
    · exact fun hlistens => by simp [GameStream.listens] at hlistens
    · exact fun hatRest => by simpa [GameStream.listens] using listens_of_atRest hatRest
  | turn id ok =>
    rw [FeedServer.next, Option.bind_eq_some_iff] at hnext
    obtain ⟨st, hst, hturn⟩ := hnext
    exact h.turn hst hturn
  | heartbeat id revoked =>
    rw [FeedServer.next, Option.bind_eq_some_iff] at hnext
    obtain ⟨st, hst, hbeat⟩ := hnext
    split_ifs at hbeat with hdeaf
    · cases hbeat
      exact h
    all_goals
      cases hbeat
      have hlistens : st.listens := by simpa using hdeaf
    · exact h.wakeup { st with closed := true } (h.streams id st hst) (h.live id st hst hlistens)
    · exact h.wakeup { st with heartbeatDue := true } (h.streams id st hst)
        (h.live id st hst hlistens)
  | abort id =>
    rw [FeedServer.next, Option.bind_eq_some_iff] at hnext
    obtain ⟨st, hst, habort⟩ := hnext
    split_ifs at habort with hlistens
    cases habort
    exact h.wakeup { st with closed := true } (h.streams id st hst) (h.live id st hst hlistens)
  | wake fid =>
    rw [FeedServer.next] at hnext
    split at hnext
    · rename_i feed hget
      cases hnext
      exact h.setFeed hget (ok_wake (h.feeds fid feed hget)) head_wake
    · cases hnext
  | feedTurn fid ok => exact h.feedTurn hnext

end FeedServer

end Junjo
