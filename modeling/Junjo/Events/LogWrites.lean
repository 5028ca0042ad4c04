import Junjo.Core.Transactions
import Junjo.Events.EventLog

/-!
# Writing the event log

A transaction opened through `withEventLog` queues the events that it stages and writes them as its
last statements, game by game: a game's counter is raised, and the rows take the positions up to the
returned value. The counter's row stays locked until the transaction ends.
-/

namespace Junjo

/-- The tables `GameEventCounter` and `EventLog`. -/
structure LogTables (ε : Type) where
  counters : Dict Text ℕ
  rows : List (LoggedEvent ε)
  uniquePosition : (rows.map fun r => (r.gameId, r.seq)).Nodup

namespace LogTables

variable {ε : Type}

def empty : LogTables ε := ⟨Dict.empty, [], List.nodup_nil⟩

/-- A game's latest position. -/
def position (db : LogTables ε) (gameId : Text) : ℕ := (db.counters.get? gameId).getD 0

/-- The rows of a game. -/
def rowsOf (db : LogTables ε) (gameId : Text) : List (LoggedEvent ε) :=
  db.rows.filter fun r => r.gameId = gameId

def addToCounter (db : LogTables ε) (gameId : Text) (count : ℕ) : LogTables ε :=
  { db with counters := db.counters.set gameId (db.position gameId + count) }

def insertRows (db : LogTables ε) (rows : List (LoggedEvent ε)) : Option (LogTables ε) :=
  if h : ((db.rows ++ rows).map fun r => (r.gameId, r.seq)).Nodup then
    some { db with rows := db.rows ++ rows, uniquePosition := h }
  else none

/-- The log holds a history: a game's positions are those of its events, without gaps. -/
def Holds (db : LogTables ε) (history : Text → List ε) : Prop :=
  ∀ gameId, db.position gameId = (history gameId).length ∧
    ∀ p event, ⟨gameId, p, event⟩ ∈ db.rows ↔ 0 < p ∧ (history gameId)[p - 1]? = some event

lemma position_addToCounter (db : LogTables ε) (gameId : Text) (count : ℕ) (gameId' : Text) :
    (db.addToCounter gameId count).position gameId' =
      db.position gameId' + if gameId' = gameId then count else 0 := by
  rw [position, addToCounter, Dict.get?_set]
  split_ifs with hgame
  · rw [hgame, Option.getD_some]
  · rfl

@[simp] lemma rowsOf_addToCounter (db : LogTables ε) (gameId : Text) (count : ℕ) (gameId' : Text) :
    (db.addToCounter gameId count).rowsOf gameId' = db.rowsOf gameId' := rfl

lemma insertRows_spec {db db' : LogTables ε} {gameId : Text} {p : ℕ} {events : List ε}
    (h : db.insertRows (EventLog.rowsAfter gameId p events) = some db') (gameId' : Text) :
    db'.position gameId' = db.position gameId' ∧ db'.rowsOf gameId' = db.rowsOf gameId' ++
      if gameId' = gameId then EventLog.rowsAfter gameId p events else [] := by
  rw [insertRows] at h
  split_ifs at h
  cases h
  refine ⟨rfl, ?_⟩
  rw [rowsOf, List.filter_append, ← rowsOf]
  congr 1
  split_ifs with hgame
  · exact List.filter_eq_self.mpr fun r hr => by
      simp [hgame, (EventLog.mem_rowsAfter hr).1]
  · exact List.filter_eq_nil_iff.mpr fun r hr => by
      simpa [(EventLog.mem_rowsAfter hr).1] using Ne.symm hgame

end LogTables

/-- A statement of a transaction's body. It may read the log, and does not write it. -/
structure BodyStatement (τ κ ε : Type) where
  Reply : Type
  locks : τ × LogTables ε → List κ
  reply : τ × LogTables ε → Reply
  change : τ × LogTables ε → Option τ

/-- What a transaction's body does: statements, and the staging of events (`recordEvents`). -/
inductive BodyOp (τ κ ε : Type) where
  | statement (s : BodyStatement τ κ ε)
  | stage (events : List ε)

def BodyOp.Reply {τ κ ε : Type} : BodyOp τ κ ε → Type
  | .statement s => s.Reply
  | .stage _ => Unit

/-- The function given to `$transaction`. -/
abbrev TxBody (τ κ ε ω α : Type) := ExceptT ω (Prog (BodyOp τ κ ε) BodyOp.Reply) α

inductive LogLock (κ : Type) where
  | body (lock : κ)
  | counter (gameId : Text)

namespace LogWrites

variable {τ κ ε ω α : Type}

abbrev LogTx (τ κ ε ω α : Type) := Tx (τ × LogTables ε) (LogLock κ) ω α

/-- A lock excludes the locks that it conflicts with, in either order. -/
def conflicts (bodyConflicts : κ → κ → Bool) : LogLock κ → LogLock κ → Bool
  | .body k, .body l => bodyConflicts k l || bodyConflicts l k
  | .counter g, .counter g' => g = g'
  | _, _ => false

variable (gameOf : ε → Text)

/-- The events of each game. -/
def groupByGame (events : List ε) : Dict Text (List ε) :=
  events.foldl (fun byGame event => byGame.set (gameOf event)
    (match byGame.get? (gameOf event) with
      | some list => list ++ [event]
      | none => [event])) Dict.empty

/-- Raise a game's counter and insert the rows that count back from it, which the source does in one
statement. -/
def writeGame (gameId : Text) (list : List ε) : LogTx τ κ ε ω Unit := do
  let seq ← write (fun _ => [.counter gameId]) (fun db => db.2.position gameId + list.length)
    fun db => some (db.1, db.2.addToCounter gameId list.length)
  write (fun _ => []) (fun _ => ()) fun db =>
    (db.2.insertRows (EventLog.rowsAfter gameId (seq - list.length) list)).map fun log => (db.1, log)

def writeGames : List (Text × List ε) → LogTx τ κ ε ω Unit
  | [] => pure ()
  | (gameId, list) :: games => do
    writeGame gameId list
    writeGames games

/-- Games are written in the order of their ids. -/
def writeEventLog (events : List ε) : LogTx τ κ ε ω Unit :=
  writeGames (groupByGame gameOf events).sortedEntries

def statement (s : BodyStatement τ κ ε) : Statement (τ × LogTables ε) (LogLock κ) where
  Reply := s.Reply
  locks := fun db => (s.locks db).map .body
  reply := s.reply
  change := fun db => (s.change db).map fun rest => (rest, db.2)

/-- The rest of a transaction, with the events queued so far. What it returns names them. -/
def withEventLog : TxBody τ κ ε ω α → List ε → LogTx τ κ ε ω (α × List ε)
  | .done (.error e), _ => throw e
  | .done (.ok result), queue => do
    writeEventLog gameOf queue
    pure (result, queue)
  | .op (.statement s) next, queue => .op (statement s) fun reply => withEventLog (next reply) queue
  | .op (.stage events) next, queue => withEventLog (next ()) (queue ++ events)

/-! ### The rows that a transaction writes -/

lemma conflicts_comm (bodyConflicts : κ → κ → Bool) (k l : LogLock κ) :
    conflicts bodyConflicts k l = conflicts bodyConflicts l k := by
  cases k with
  | body k =>
    cases l with
    | body l => exact Bool.or_comm _ _
    | counter g => rfl
  | counter g =>
    cases l with
    | body l => rfl
    | counter g' => simp only [conflicts, eq_comm]

lemma get?_groupByGame (events : List ε) (gameId : Text) :
    (groupByGame gameOf events).get? gameId =
      if events.filter (fun e => gameOf e = gameId) = [] then none
      else some (events.filter fun e => gameOf e = gameId) := by
  induction events using List.reverseRecOn with
  | nil => rfl
  | append_singleton events event ih =>
    rw [groupByGame, List.foldl_append, ← groupByGame, List.foldl_cons, List.foldl_nil,
      Dict.get?_set, List.filter_append]
    by_cases hgame : gameOf event = gameId
    · subst hgame
      rw [if_pos rfl, ih]
      by_cases hnone : events.filter (fun e => gameOf e = gameOf event) = []
      · simp [hnone]
      · simp [hnone]
    · rw [if_neg (Ne.symm hgame), ih]
      simp [hgame]

/-- The games that a transaction writes are those of its events, each once. -/
lemma mem_sortedEntries_groupByGame {events : List ε} {gameId : Text} {list : List ε} :
    (gameId, list) ∈ (groupByGame gameOf events).sortedEntries ↔
      list = events.filter (fun e => gameOf e = gameId) ∧ list ≠ [] := by
  rw [Dict.mem_sortedEntries, ← Dict.get?_eq_some_iff, get?_groupByGame]
  split_ifs with hnone
  · simp [hnone]
  · constructor
    · rintro ⟨⟩
      exact ⟨rfl, hnone⟩
    · rintro ⟨rfl, -⟩
      rfl

/-- What a commit does to a game's counter and rows. Whoever adds to them holds the counter. -/
def effect (a : α × List ε) (held : List (LogLock κ)) (c c' : τ × LogTables ε) : Prop :=
  ∀ gameId, c'.2.position gameId =
      c.2.position gameId + (a.2.filter fun e => gameOf e = gameId).length ∧
    c'.2.rowsOf gameId = c.2.rowsOf gameId ++
      EventLog.rowsAfter gameId (c.2.position gameId) (a.2.filter fun e => gameOf e = gameId) ∧
    (a.2.filter (fun e => gameOf e = gameId) ≠ [] → .counter gameId ∈ held)

def discipline : Discipline (τ × LogTables ε) (LogLock κ) (α × List ε) where
  inv := fun _ => True
  effect := effect gameOf

section Keeps

variable {gameOf} {bodyConflicts : κ → κ → Bool} {held : List (LogLock κ)}
  {change : τ × LogTables ε → Option (τ × LogTables ε)} {seen : List (τ × LogTables ε)}
  {c c' : τ × LogTables ε} {events : List ε} {written : List Text} {gameId : Text}

/-- A locked counter does not move. -/
lemma position_evolves
    (h : Evolves (conflicts bodyConflicts)
      (discipline gameOf : Discipline (τ × LogTables ε) (LogLock κ) (α × List ε)) held c c')
    (hheld : .counter gameId ∈ held) : c'.2.position gameId = c.2.position gameId := by
  refine h.preserves (P := fun c' => c'.2.position gameId = c.2.position gameId) ?_ rfl
  intro c₁ c₂ a held' _ _ hcompatible heffect ih
  obtain ⟨hposition, -, hlock⟩ := heffect gameId
  have hnone : a.2.filter (fun e => gameOf e = gameId) = [] := by
    by_contra hsome
    have hconflict := hcompatible _ hheld _ (hlock hsome)
    simp [conflicts] at hconflict
  rw [hposition, hnone, ih]
  rfl

/-- The changes of a transaction that has written some of its games, on stores where the positions
of these games are those of `c`. -/
def Wrote (gameOf : ε → Text) (events : List ε) (written : List Text) (c : τ × LogTables ε)
    (change : τ × LogTables ε → Option (τ × LogTables ε)) : Prop :=
  ∀ c₁ c₂, (∀ g ∈ written, c₁.2.position g = c.2.position g) → change c₁ = some c₂ → ∀ g,
    c₂.2.position g = c₁.2.position g +
      (if g ∈ written then (events.filter fun e => gameOf e = g).length else 0) ∧
    c₂.2.rowsOf g = c₁.2.rowsOf g ++
      if g ∈ written then
        EventLog.rowsAfter g (c₁.2.position g) (events.filter fun e => gameOf e = g)
      else []

/-- One game is written, at the positions after those it had when its counter was locked. -/
lemma keeps_writeGame {k : Unit → LogTx τ κ ε ω (α × List ε)} (hnew : gameId ∉ written)
    (hwrote : Wrote gameOf events written c change)
    (hwritten : ∀ g ∈ written, LogLock.counter g ∈ held)
    (hk : ∀ held' change' seen' c', held ⊆ held' → LogLock.counter gameId ∈ held' →
      Wrote gameOf events (gameId :: written) c' change' →
      Keeps (conflicts bodyConflicts) (discipline gameOf) (k ()) held' change' seen' c') :
    Keeps (conflicts bodyConflicts) (discipline gameOf)
      (writeGame gameId (events.filter fun e => gameOf e = gameId) >>= k) held change seen c := by
  rw [writeGame, bind_assoc, keeps_write]
  intro _ view hview c₁ h₁
  rw [keeps_write]
  intro _ view₂ _ c₂ h₂
  rw [List.append_nil] at h₂
  have hevolves := h₁.trans h₂
  have hlocked : LogLock.counter gameId ∈ held ++ [LogLock.counter gameId] :=
    List.mem_append_right _ (List.mem_singleton_self _)
  refine hk _ _ _ _ (List.append_assoc _ _ _ ▸ List.subset_append_left _ _)
    (List.mem_append_left _ hlocked) ?_
  have hview := (hwrote c view (fun _ _ => rfl) hview gameId).1
  rw [if_neg hnew, Nat.add_zero] at hview
  intro d d' hd hchange g
  simp only [Option.bind_eq_some_iff, Option.some.injEq, Option.map_eq_some_iff] at hchange
  obtain ⟨_, ⟨d₁, hd₁, rfl⟩, log, hinsert, rfl⟩ := hchange
  have hbase : d.2.position gameId = c.2.position gameId :=
    (hd gameId List.mem_cons_self).trans (position_evolves hevolves hlocked)
  obtain ⟨hposition, hrows⟩ := hwrote d d₁ (fun g hg => (hd g (List.mem_cons_of_mem _ hg)).trans
    (position_evolves hevolves (List.mem_append_left _ (hwritten g hg)))) hd₁ g
  rw [hview, Nat.add_sub_cancel] at hinsert
  obtain ⟨hposition', hrows'⟩ := LogTables.insertRows_spec hinsert g
  rw [LogTables.position_addToCounter, hposition] at hposition'
  rw [LogTables.rowsOf_addToCounter, hrows] at hrows'
  by_cases hgame : g = gameId
  · subst hgame
    rw [if_neg hnew] at hposition' hrows'
    rw [if_pos rfl] at hposition' hrows'
    rw [if_pos List.mem_cons_self, if_pos List.mem_cons_self, hbase]
    rw [List.append_nil] at hrows'
    exact ⟨hposition'.trans (by rw [hbase]; rfl), hrows'⟩
  · rw [if_neg hgame] at hposition' hrows'
    rw [Nat.add_zero] at hposition'
    rw [List.append_nil] at hrows'
    simp only [List.mem_cons, hgame, false_or]
    exact ⟨hposition', hrows'⟩

/-- All games are written, one after the other. -/
lemma keeps_writeGames {games : List (Text × List ε)} {k : Unit → LogTx τ κ ε ω (α × List ε)}
    (hgames : ∀ p ∈ games, p.2 = events.filter fun e => gameOf e = p.1)
    (hnodup : (games.map Prod.fst).Nodup) (hnew : ∀ p ∈ games, p.1 ∉ written)
    (hwrote : Wrote gameOf events written c change)
    (hwritten : ∀ g ∈ written, LogLock.counter g ∈ held)
    (hk : ∀ written' held' change' seen' c',
      (∀ g, g ∈ written' ↔ g ∈ games.map Prod.fst ∨ g ∈ written) →
      (∀ g ∈ written', LogLock.counter g ∈ held') → Wrote gameOf events written' c' change' →
      Keeps (conflicts bodyConflicts) (discipline gameOf) (k ()) held' change' seen' c') :
    Keeps (conflicts bodyConflicts) (discipline gameOf) (writeGames games >>= k) held change seen c := by
  induction games generalizing written held change seen c with
  | nil => exact hk written held change seen c (by simp) hwritten hwrote
  | cons p games ih =>
    obtain ⟨gameId, list⟩ := p
    obtain rfl : list = events.filter fun e => gameOf e = gameId :=
      hgames (gameId, list) List.mem_cons_self
    rw [List.map_cons, List.nodup_cons] at hnodup
    rw [writeGames, bind_assoc]
    refine keeps_writeGame (hnew _ List.mem_cons_self) hwrote hwritten ?_
    intro held' change' seen' c' hheld hlocked hwrote'
    refine ih (fun q hq => hgames q (List.mem_cons_of_mem _ hq)) hnodup.2 ?_ hwrote' ?_ ?_
    · intro q hq
      rw [List.mem_cons, not_or]
      refine ⟨fun heq => hnodup.1 (List.mem_map.mpr ⟨q, hq, heq⟩), ?_⟩
      exact hnew q (List.mem_cons_of_mem _ hq)
    · intro g hg
      rcases List.mem_cons.mp hg with rfl | hg
      · exact hlocked
      · exact hheld (hwritten g hg)
    · intro written' held'' change'' seen'' c'' hall
      refine hk written' held'' change'' seen'' c'' fun g => ?_
      rw [hall g, List.map_cons, List.mem_cons, List.mem_cons]
      tauto

/-- A transaction's log entries are those of the events it staged. -/
lemma keeps_withEventLog (body : TxBody τ κ ε ω α) (queue : List ε)
    (hchange : ∀ c c', change c = some c' → c'.2 = c.2) :
    Keeps (conflicts bodyConflicts) (discipline gameOf) (withEventLog gameOf body queue) held change
      seen c := by
  induction body generalizing queue held change seen c with
  | done result =>
    cases result with
    | error e => trivial
    | ok result =>
      rw [withEventLog, writeEventLog]
      refine @keeps_writeGames _ _ _ _ _ _ _ _ _ _ _ queue [] _ _ ?_ ?_ (fun _ _ => by simp) ?_
        (fun _ hg => absurd hg (by simp)) ?_
      · rintro ⟨gameId, list⟩ hp
        exact ((mem_sortedEntries_groupByGame gameOf).mp hp).1
      · rw [Dict.map_fst_sortedEntries]
        exact (List.perm_insertionSort _ _).nodup_iff.mpr (Dict.nodup_keys _)
      · intro c₁ c₂ _ h₁ g
        rw [LogTables.position, LogTables.rowsOf, hchange c₁ c₂ h₁]
        simp [LogTables.position, LogTables.rowsOf]
      · intro written held' change' seen' c₁ hall hheld hwrote
        rw [keeps_pure]
        intro _ _ c₂ h₂
        refine ⟨trivial, fun g => ?_⟩
        obtain ⟨hposition, hrows⟩ := hwrote c₁ c₂ (fun _ _ => rfl) h₂ g
        have hmem : g ∈ written ↔ queue.filter (fun e => gameOf e = g) ≠ [] := by
          rw [hall g]
          simp only [List.mem_map, Prod.exists, mem_sortedEntries_groupByGame, List.not_mem_nil,
            or_false]
          constructor
          · rintro ⟨_, _, ⟨rfl, hne⟩, rfl⟩
            exact hne
          · exact fun hne => ⟨g, _, ⟨rfl, hne⟩, rfl⟩
        refine ⟨?_, ?_, fun hne => hheld g (hmem.mpr hne)⟩
        · rw [hposition]
          split_ifs with hg
          · rfl
          · rw [not_not.mp (mt hmem.mpr hg)]
            rfl
        · rw [hrows]
          split_ifs with hg
          · rfl
          · rw [not_not.mp (mt hmem.mpr hg)]
            rfl
  | op o next ih =>
    cases o with
    | statement s =>
      rw [withEventLog]
      intro _ view _ c₁ _
      refine ih _ queue fun c c' hc => ?_
      simp only [statement, Option.bind_eq_some_iff, Option.map_eq_some_iff] at hc
      obtain ⟨c₂, hc₂, rest, -, rfl⟩ := hc
      exact hchange c c₂ hc₂
    | stage events =>
      rw [withEventLog]
      exact ih () (queue ++ events) hchange

end Keeps

/-! ### Runs -/

/-- The events that the committed transactions staged for a game, in the order of their commits. -/
def committedEvents (log : List (α × List ε)) (gameId : Text) : List ε :=
  (log.flatMap Prod.snd).filter fun e => gameOf e = gameId

variable {ι : Type}

/-- A run of transactions whose statements alternate in any way, some of them rolled back. -/
def run (bodyConflicts : κ → κ → Bool) (program : ι → TxBody τ κ ε ω α) (start : τ × LogTables ε)
    (steps : List (TxEvent ι)) :
    Option (Database (τ × LogTables ε) (LogLock κ) ω (α × List ε)) :=
  runSteps (Database.next (conflicts bodyConflicts) fun r => withEventLog gameOf (program r) [])
    { committed := start } steps

variable {gameOf} {bodyConflicts : κ → κ → Bool} {program : ι → TxBody τ κ ε ω α}
  {history : Text → List ε}

lemma committedEvents_append (log log' : List (α × List ε)) (gameId : Text) :
    committedEvents gameOf (log ++ log') gameId =
      committedEvents gameOf log gameId ++ committedEvents gameOf log' gameId := by
  rw [committedEvents, List.flatMap_append, List.filter_append]
  rfl

lemma mem_rowsOf {log : LogTables ε} {gameId : Text} {p : ℕ} {event : ε} :
    ⟨gameId, p, event⟩ ∈ log.rowsOf gameId ↔ ⟨gameId, p, event⟩ ∈ log.rows := by
  simp [LogTables.rowsOf]

/-- A commit puts the events it staged at the end of the history. -/
lemma holds_effect {a : α × List ε} {held : List (LogLock κ)} {c c' : τ × LogTables ε}
    (hc : c.2.Holds history) (h : effect gameOf a held c c') :
    c'.2.Holds fun g => history g ++ a.2.filter fun e => gameOf e = g := by
  intro g
  obtain ⟨hposition, hrows⟩ := hc g
  obtain ⟨hposition', hrows', -⟩ := h g
  refine ⟨by rw [hposition', hposition, List.length_append], fun p event => ?_⟩
  rw [← mem_rowsOf, hrows', List.mem_append, mem_rowsOf, hrows, EventLog.mem_rowsAfter_iff, hposition]
  by_cases hp : p ≤ (history g).length
  · by_cases hzero : 0 < p
    · rw [List.getElem?_append_left (by omega)]
      simp [hzero, Nat.not_lt.mpr hp]
    · simp [hzero, Nat.not_lt.mpr hp]
  · rw [List.getElem?_append_right (by omega), List.getElem?_eq_none (by omega)]
    have hindex : p - (history g).length - 1 = p - 1 - (history g).length := by omega
    rw [hindex]
    simp only [reduceCtorEq, and_false, false_or]
    exact and_congr_left fun _ => ⟨fun _ => by omega, fun _ => by omega⟩

/-- A transaction that only stages events, each of a game. -/
def stageAll (events : List (Text × ℕ)) : TxBody Unit Empty (Text × ℕ) Unit Unit :=
  .op (.stage events) fun _ => .done (.ok ())

/-- Two transactions write events of a game that both have, and a third is rolled back. -/
def crossingGames : List (TxEvent (List (Text × ℕ))) :=
  [.start 0 [(text "b", 1), (text "a", 2)], .start 1 [(text "c", 3), (text "b", 4)],
    .start 2 [(text "d", 5)], .advance 0, .advance 1, .advance 2, .advance 0, .advance 1,
    .advance 2, .rollback 2, .advance 1, .advance 1, .advance 1, .advance 0, .advance 0, .advance 0]

end LogWrites

end Junjo
