import Junjo.Core.Dict
import Junjo.Core.Text

/-!
# The event log

Every game has a counter, and each logged event of the game a position. A transaction writes its
events as its last statement, under the lock of the counter's row.
-/

namespace Junjo

structure LoggedEvent (ε : Type) where
  gameId : Text
  seq : ℕ
  event : ε
deriving DecidableEq

/-- The counters and the log. A game's rows stand in the order of their positions, and none is past
the counter. -/
structure EventLog (ε : Type) where
  counters : Dict Text ℕ
  rows : List (LoggedEvent ε)
  bounded : ∀ r ∈ rows, r.seq ≤ (counters.get? r.gameId).getD 0
  ordered : rows.Pairwise fun r r' => r.gameId = r'.gameId → r.seq < r'.seq

namespace EventLog

variable {ε : Type}

def empty : EventLog ε := ⟨Dict.empty, [], fun _ h => absurd h (by simp), List.Pairwise.nil⟩

/-- A game's latest position. -/
def position (log : EventLog ε) (gameId : Text) : ℕ := (log.counters.get? gameId).getD 0

/-- The rows of some events after a position. -/
def rowsAfter (gameId : Text) : ℕ → List ε → List (LoggedEvent ε)
  | _, [] => []
  | position, event :: events => ⟨gameId, position + 1, event⟩ :: rowsAfter gameId (position + 1) events

lemma mem_rowsAfter {gameId : Text} {position : ℕ} {events : List ε} {r : LoggedEvent ε}
    (h : r ∈ rowsAfter gameId position events) :
    r.gameId = gameId ∧ position < r.seq ∧ r.seq ≤ position + events.length := by
  induction events generalizing position with
  | nil => cases h
  | cons event events ih =>
    rw [rowsAfter] at h
    rw [List.length_cons]
    rcases List.mem_cons.mp h with rfl | h
    · exact ⟨rfl, Nat.lt_succ_self _, by simp only; omega⟩
    · obtain ⟨hgame, hpast, hlast⟩ := ih h
      exact ⟨hgame, by omega, by omega⟩

lemma ordered_rowsAfter (gameId : Text) (position : ℕ) (events : List ε) :
    (rowsAfter gameId position events).Pairwise fun r r' => r.gameId = r'.gameId → r.seq < r'.seq := by
  induction events generalizing position with
  | nil => exact List.Pairwise.nil
  | cons event events ih =>
    rw [rowsAfter, List.pairwise_cons]
    exact ⟨fun r hr _ => (mem_rowsAfter hr).2.1, ih (position + 1)⟩

lemma map_event_rowsAfter (gameId : Text) (position : ℕ) (events : List ε) :
    (rowsAfter gameId position events).map LoggedEvent.event = events := by
  induction events generalizing position with
  | nil => rfl
  | cons event events ih => rw [rowsAfter, List.map_cons, ih]

lemma mem_rowsAfter_iff {gameId : Text} {base p : ℕ} {events : List ε} {event : ε} :
    ⟨gameId, p, event⟩ ∈ rowsAfter gameId base events ↔
      base < p ∧ events[p - base - 1]? = some event := by
  induction events generalizing base with
  | nil => simp [rowsAfter]
  | cons e events ih =>
    rw [rowsAfter, List.mem_cons, ih]
    rcases Nat.lt_trichotomy p (base + 1) with hlt | rfl | hgt
    · simp only [LoggedEvent.mk.injEq, true_and]
      omega
    · simp [eq_comm]
    · have hindex : p - base - 1 = p - (base + 1) - 1 + 1 := by omega
      rw [hindex, List.getElem?_cons_succ]
      simp only [LoggedEvent.mk.injEq, true_and]
      constructor
      · rintro (⟨rfl, -⟩ | ⟨-, h⟩)
        · omega
        · exact ⟨by omega, h⟩
      · rintro ⟨-, h⟩
        exact .inr ⟨hgt, h⟩

lemma rowsAfter_append (gameId : Text) (base : ℕ) (events events' : List ε) :
    rowsAfter gameId base (events ++ events') =
      rowsAfter gameId base events ++
        rowsAfter gameId (base + events.length) events' := by
  induction events generalizing base with
  | nil => rfl
  | cons e events ih =>
    rw [List.cons_append, rowsAfter, rowsAfter, ih, List.length_cons,
      Nat.add_comm events.length 1, Nat.add_assoc]
    rfl

/-- Log events of one game at its next positions. -/
def write (log : EventLog ε) (gameId : Text) (events : List ε) : EventLog ε where
  counters := log.counters.set gameId (log.position gameId + events.length)
  rows := log.rows ++ rowsAfter gameId (log.position gameId) events
  bounded := by
    intro r hr
    rw [Dict.get?_set]
    rcases List.mem_append.mp hr with hr | hr
    · have hold := log.bounded r hr
      split_ifs with hgame
      · rw [hgame] at hold
        exact Nat.le_add_right_of_le hold
      · exact hold
    · obtain ⟨hgame, -, hlast⟩ := mem_rowsAfter hr
      rw [if_pos hgame]
      exact hlast
  ordered := by
    refine List.pairwise_append.mpr ⟨log.ordered, ordered_rowsAfter _ _ _, ?_⟩
    intro r hr r' hr' hgame
    obtain ⟨hgame', hpast, -⟩ := mem_rowsAfter hr'
    have hold := log.bounded r hr
    rw [hgame, hgame'] at hold
    exact Nat.lt_of_le_of_lt hold hpast

/-- Up to `limit` rows of a game after a position, in the order of their positions. -/
def readEventLog (log : EventLog ε) (gameId : Text) (after limit : ℕ) : List (LoggedEvent ε) :=
  (log.rows.filter fun r => r.gameId = gameId ∧ after < r.seq).take limit

/-- Whether the log still holds the row right after a position. -/
def hasEventAfter (log : EventLog ε) (gameId : Text) (position : ℕ) : Bool :=
  log.rows.any fun r => r.gameId = gameId ∧ r.seq = position + 1

/-- Delete some of the rows. -/
def sweep (log : EventLog ε) (swept : LoggedEvent ε → Bool) : EventLog ε where
  counters := log.counters
  rows := log.rows.filter fun r => !swept r
  bounded := fun r hr => log.bounded r (List.mem_filter.mp hr).1
  ordered := log.ordered.sublist List.filter_sublist

/-- A game's events in the order of their positions. -/
def read (log : EventLog ε) (gameId : Text) : List ε :=
  (log.rows.filter fun r => r.gameId = gameId).map LoggedEvent.event

lemma read_write (log : EventLog ε) (gameId : Text) (events : List ε) (gameId' : Text) :
    (log.write gameId events).read gameId' =
      log.read gameId' ++ if gameId = gameId' then events else [] := by
  have hgame : ∀ r ∈ rowsAfter gameId (log.position gameId) events, r.gameId = gameId :=
    fun r hr => (mem_rowsAfter hr).1
  rw [read, write, List.filter_append, List.map_append, ← read]
  congr 1
  split_ifs with h
  · subst h
    rw [List.filter_eq_self.mpr fun r hr => by simpa using hgame r hr, map_event_rowsAfter]
  · rw [List.filter_eq_nil_iff.mpr fun r hr => by simpa [hgame r hr] using h, List.map_nil]

end EventLog

end Junjo
