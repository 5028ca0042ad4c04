import Junjo.Core.Dict

/-!
# Requests that callers share

The first caller for a key starts a request, later callers join it while it is registered. A caller
can stop waiting on its own, and a request without callers is aborted. What a request asks and
answers is left open.
-/

namespace Junjo.Client

/-- How long a caller waits: for good, or until its signal or its timeout ends the wait. -/
inductive WaitMode where
  | forever
  | untilStopped
  /-- The caller's signal has fired before the call. -/
  | stopped
deriving DecidableEq

/-- A request: its key, its callers that have not left, what its promise settled with, and whether
its own signal was fired. -/
structure SharedEntry (κ ε τ : Type*) where
  key : κ
  waiters : ℕ
  settled : Option (Except ε τ)
  aborted : Bool

inductive WaitState where
  | waiting
  /-- Stopped waiting. -/
  | left
  /-- Took what the promise settled with. -/
  | done
deriving DecidableEq

/-- A caller of a request. -/
structure Wait where
  entry : ℕ
  mode : WaitMode
  state : WaitState
deriving DecidableEq

/-- All requests and waits, each numbered in order, and the registered request of each key. -/
structure SharedRequests (κ ε τ : Type*) where
  requests : List (SharedEntry κ ε τ)
  entries : Dict κ ℕ
  waits : List Wait

namespace SharedRequests

variable {κ ε τ : Type*} [DecidableEq κ]

def empty : SharedRequests κ ε τ := ⟨[], Dict.empty, []⟩

variable (s : SharedRequests κ ε τ)

/-- The table without a request, if the request is the registered one of its key. -/
def unregister (key : κ) (r : ℕ) : Dict κ ℕ :=
  if s.entries.get? key = some r then s.entries.delete key else s.entries

/-- `leave`: the last caller to stop waiting aborts the request. -/
def leave (w : ℕ) : SharedRequests κ ε τ :=
  match s.waits[w]? with
  | some ⟨r, mode, .waiting⟩ =>
    match s.requests[r]? with
    | none => s
    | some e =>
      let waits := s.waits.set w ⟨r, mode, .left⟩
      let waiters := e.waiters - 1
      if waiters = 0 ∧ e.settled.isNone then
        { requests := s.requests.set r { e with waiters, aborted := true }
          entries := s.unregister e.key r
          waits }
      else { s with requests := s.requests.set r { e with waiters }, waits }
  | _ => s

/-- Start a request for a key. -/
def start (key : κ) : SharedRequests κ ε τ :=
  { s with
    requests := s.requests ++ [⟨key, 0, none, false⟩]
    entries := s.entries.set key s.requests.length }

/-- Wait on a request. -/
def join (r : ℕ) (mode : WaitMode) : SharedRequests κ ε τ :=
  match s.requests[r]? with
  | none => s
  | some e =>
    let joined := { s with
      requests := s.requests.set r { e with waiters := e.waiters + 1 }
      waits := s.waits ++ [⟨r, mode, .waiting⟩] }
    if mode = .stopped then joined.leave s.waits.length else joined

/-- Wait on the request for `key`, starting it when none is in flight. -/
def run (key : κ) (mode : WaitMode) : SharedRequests κ ε τ :=
  match s.entries.get? key with
  | some r => s.join r mode
  | none => (s.start key).join s.requests.length mode

/-- The request's promise settles: a registered one is dropped from the table. -/
def settle (r : ℕ) (outcome : Except ε τ) : SharedRequests κ ε τ :=
  match s.requests[r]? with
  | none => s
  | some e =>
    { s with
      requests := s.requests.set r { e with settled := some outcome }
      entries := s.unregister e.key r }

/-- A caller takes what its request settled with. -/
def receive (w : ℕ) : SharedRequests κ ε τ :=
  match s.waits[w]? with
  | some ⟨r, mode, .waiting⟩ => { s with waits := s.waits.set w ⟨r, mode, .done⟩ }
  | _ => s

def forget : SharedRequests κ ε τ := { s with entries := Dict.empty }

/-! ### The table -/

/-- The number of a request's callers that have not left. -/
def callers (r : ℕ) : ℕ := s.waits.countP fun w => w.entry = r && w.state ≠ .left

/-- What holds between calls. A registered request is under its own key, neither settled nor
aborted; the count of a request is that of its callers that have not left, and an aborted request
has none. -/
structure Sound : Prop where
  registered : ∀ {key : κ} {r : ℕ}, s.entries.get? key = some r →
    ∃ e, s.requests[r]? = some e ∧ e.key = key ∧ e.settled = none ∧ e.aborted = false
  waits : ∀ w ∈ s.waits, w.entry < s.requests.length
  count : ∀ {r : ℕ} {e : SharedEntry κ ε τ}, s.requests[r]? = some e → e.waiters = s.callers r
  aborted : ∀ {r : ℕ} {e : SharedEntry κ ε τ}, s.requests[r]? = some e → e.aborted = true →
    s.callers r = 0

variable {s}

lemma sound_empty : (empty : SharedRequests κ ε τ).Sound where
  registered h := by cases h
  waits _ h := by cases h
  count h := by cases h
  aborted h := by cases h

/-- A key has at most one registered request. -/
lemma Sound.eq_of_registered (h : s.Sound) {key key' : κ} {r r' : ℕ} {e e' : SharedEntry κ ε τ}
    (hr : s.entries.get? key = some r) (hr' : s.entries.get? key' = some r')
    (he : s.requests[r]? = some e) (he' : s.requests[r']? = some e') (hkey : e.key = e'.key) :
    r = r' := by
  obtain ⟨_, hsome, rfl, -⟩ := h.registered hr
  obtain ⟨_, hsome', rfl, -⟩ := h.registered hr'
  rw [hsome] at he
  rw [hsome'] at he'
  cases he
  cases he'
  rw [hkey, hr'] at hr
  exact (Option.some.inj hr).symm

/-- Once a request is aborted, all of its callers have left. -/
lemma Sound.left_of_aborted (h : s.Sound) {w : Wait} (hw : w ∈ s.waits) {e : SharedEntry κ ε τ}
    (he : s.requests[w.entry]? = some e) (haborted : e.aborted = true) : w.state = .left := by
  by_contra hne
  have hzero := h.aborted he haborted
  rw [callers, List.countP_eq_zero] at hzero
  exact hzero w hw (by simp [hne])

lemma Sound.forget (h : s.Sound) : s.forget.Sound where
  registered hget := by cases hget
  waits := h.waits
  count := h.count
  aborted := h.aborted

omit [DecidableEq κ] in
/-- Another state of one wait. -/
lemma callers_set {t : SharedRequests κ ε τ} {w r : ℕ} {mode : WaitMode} {state state' : WaitState}
    (hw : s.waits[w]? = some ⟨r, mode, state⟩) (ht : t.waits = s.waits.set w ⟨r, mode, state'⟩) :
    (∀ r', r' ≠ r → t.callers r' = s.callers r') ∧
      t.callers r + (if state ≠ .left then 1 else 0) =
        s.callers r + if state' ≠ .left then 1 else 0 := by
  obtain ⟨hlt, hget⟩ := List.getElem?_eq_some_iff.mp hw
  have hle : ∀ r', _ := fun r' => List.boole_getElem_le_countP
    (p := fun w : Wait => w.entry = r' && w.state ≠ .left) (l := s.waits) hlt
  constructor
  · intro r' hne
    rw [callers, callers, ht, List.countP_set hlt, hget]
    simp [Ne.symm hne]
  · have hle' := hle r
    rw [callers, callers, ht, List.countP_set hlt]
    simp only [hget, Bool.and_eq_true, decide_eq_true_eq, true_and] at hle' ⊢
    omega

omit [DecidableEq κ] in
lemma callers_append {t : SharedRequests κ ε τ} {r : ℕ} {mode : WaitMode}
    (ht : t.waits = s.waits ++ [⟨r, mode, .waiting⟩]) :
    (∀ r', r' ≠ r → t.callers r' = s.callers r') ∧ t.callers r = s.callers r + 1 := by
  constructor
  · intro r' hne
    rw [callers, callers, ht, List.countP_append]
    simp [Ne.symm hne]
  · rw [callers, callers, ht, List.countP_append]
    simp

lemma get?_unregister {key key' : κ} {r r' : ℕ} (hget : (s.unregister key r).get? key' = some r') :
    s.entries.get? key' = some r' := by
  unfold unregister at hget
  split_ifs at hget
  · rw [Dict.get?_delete] at hget
    split_ifs at hget
    exact hget
  · exact hget

/-- A request that was dropped is not registered under any key. -/
lemma Sound.not_registered (h : s.Sound) {key : κ} {r : ℕ} {e : SharedEntry κ ε τ}
    (he : s.requests[r]? = some e) : (s.unregister e.key r).get? key ≠ some r := by
  intro hget
  have hget' := get?_unregister hget
  obtain ⟨e', he', rfl, -⟩ := h.registered hget'
  rw [he] at he'
  cases he'
  rw [unregister, if_pos hget', Dict.get?_delete_self] at hget
  cases hget

/-- One request changes with the counts of its callers. -/
lemma Sound.update (h : s.Sound) {r : ℕ} {e e' : SharedEntry κ ε τ} (he : s.requests[r]? = some e)
    (t : SharedRequests κ ε τ) (hrequests : t.requests = s.requests.set r e')
    (hkey : e'.key = e.key)
    (hentries : ∀ {key r'}, t.entries.get? key = some r' →
      s.entries.get? key = some r' ∧ (r' = r → e'.settled = none ∧ e'.aborted = false))
    (hwaits : ∀ w ∈ t.waits, w.entry < s.requests.length)
    (hothers : ∀ {r'}, r' ≠ r → t.callers r' = s.callers r') (hcount : e'.waiters = t.callers r)
    (haborted : e'.aborted = true → t.callers r = 0) : t.Sound := by
  have hget : ∀ {r' e''}, t.requests[r']? = some e'' →
      (r' = r ∧ e'' = e') ∨ (r' ≠ r ∧ s.requests[r']? = some e'') := by
    intro r' e'' hr'
    rw [hrequests, List.getElem?_set] at hr'
    split_ifs at hr' with heq hlt
    · exact .inl ⟨heq.symm, (Option.some.inj hr').symm⟩
    · exact .inr ⟨fun h => heq h.symm, hr'⟩
  have hself : t.requests[r]? = some e' := by
    rw [hrequests, List.getElem?_set_self (List.getElem?_eq_some_iff.mp he).1]
  constructor
  · intro key r' hr'
    obtain ⟨hold, hthis⟩ := hentries hr'
    obtain ⟨e₀, he₀, hkey₀, hrest⟩ := h.registered hold
    by_cases heq : r' = r
    · subst heq
      rw [he] at he₀
      cases he₀
      exact ⟨e', hself, hkey.trans hkey₀, hthis rfl⟩
    · refine ⟨e₀, ?_, hkey₀, hrest⟩
      rw [hrequests, List.getElem?_set_ne (fun h => heq h.symm)]
      exact he₀
  · intro w hw
    rw [hrequests, List.length_set]
    exact hwaits w hw
  · intro r' e'' hr'
    rcases hget hr' with ⟨rfl, rfl⟩ | ⟨hne, hold⟩
    · exact hcount
    · rw [hothers hne]
      exact h.count hold
  · intro r' e'' hr' habort
    rcases hget hr' with ⟨rfl, rfl⟩ | ⟨hne, hold⟩
    · exact haborted habort
    · rw [hothers hne]
      exact h.aborted hold habort

lemma Sound.waits_set (h : s.Sound) {w r : ℕ} {mode : WaitMode} {state : WaitState}
    (hw : s.waits[w]? = some ⟨r, mode, state⟩) (state' : WaitState) :
    ∀ wait ∈ s.waits.set w ⟨r, mode, state'⟩, wait.entry < s.requests.length := by
  intro wait hwait
  rcases List.mem_or_eq_of_mem_set hwait with hmem | rfl
  · exact h.waits wait hmem
  · exact h.waits ⟨r, mode, state⟩ (List.mem_of_getElem? hw)

lemma Sound.leave (h : s.Sound) (w : ℕ) : (s.leave w).Sound := by
  unfold SharedRequests.leave
  split
  · rename_i r mode hw
    split
    · exact h
    · rename_i e he
      have hcount := h.count he
      have hwaits := h.waits_set hw .left
      dsimp only
      split_ifs with hlast
      · obtain ⟨hothers, hthis⟩ := callers_set (t := ⟨s.requests.set r ⟨e.key, e.waiters - 1,
          e.settled, true⟩, s.unregister e.key r, s.waits.set w ⟨r, mode, .left⟩⟩) hw rfl
        simp only [ne_eq, reduceCtorEq, not_false_eq_true, if_true, not_true_eq_false, if_false]
          at hthis
        refine h.update he _ rfl rfl ?_ hwaits (hothers _) ?_ ?_
        · exact fun hget => ⟨get?_unregister hget,
            fun heq => absurd (heq ▸ hget) (h.not_registered he)⟩
        · show e.waiters - 1 = _
          omega
        · intro _
          omega
      · obtain ⟨hothers, hthis⟩ := callers_set (t := ⟨s.requests.set r ⟨e.key, e.waiters - 1,
          e.settled, e.aborted⟩, s.entries, s.waits.set w ⟨r, mode, .left⟩⟩) hw rfl
        simp only [ne_eq, reduceCtorEq, not_false_eq_true, if_true, not_true_eq_false, if_false]
          at hthis
        refine h.update he _ rfl rfl ?_ hwaits (hothers _) ?_ ?_
        · intro key r' hget
          refine ⟨hget, fun heq => ?_⟩
          obtain ⟨e', he', -, hrest⟩ := h.registered hget
          rw [heq, he] at he'
          cases he'
          exact hrest
        · show e.waiters - 1 = _
          omega
        · intro haborted
          have hzero := h.aborted he haborted
          omega
  · exact h

lemma Sound.start (h : s.Sound) (key : κ) : (s.start key).Sound := by
  have hget : ∀ {r e}, (s.start key).requests[r]? = some e →
      s.requests[r]? = some e ∨ (r = s.requests.length ∧ e = ⟨key, 0, none, false⟩) := by
    intro r e hr
    exact getElem?_concat_cases hr
  have hnone : s.callers s.requests.length = 0 := by
    rw [callers, List.countP_eq_zero]
    intro w hw
    have hlt := h.waits w hw
    simp [Nat.ne_of_lt hlt]
  constructor
  · intro key' r hr
    rw [SharedRequests.start, Dict.get?_set] at hr
    split_ifs at hr with heq
    · cases hr
      exact ⟨_, List.getElem?_concat_length, heq.symm, rfl, rfl⟩
    · obtain ⟨e, he, hrest⟩ := h.registered hr
      exact ⟨e, getElem?_append_of_some he _, hrest⟩
  · intro w hw
    rw [SharedRequests.start, List.length_append]
    exact Nat.lt_add_right _ (h.waits w hw)
  · intro r e hr
    rcases hget hr with hold | ⟨rfl, rfl⟩
    · exact h.count hold
    · exact hnone.symm
  · intro r e hr haborted
    rcases hget hr with hold | ⟨rfl, rfl⟩
    · exact h.aborted hold haborted
    · exact hnone

lemma Sound.join (h : s.Sound) {key : κ} {r : ℕ} (hr : s.entries.get? key = some r)
    (mode : WaitMode) : (s.join r mode).Sound := by
  obtain ⟨e, he, -, hsettled, haborted⟩ := h.registered hr
  obtain ⟨hothers, hthis⟩ := callers_append (t := ⟨s.requests.set r ⟨e.key, e.waiters + 1,
    e.settled, e.aborted⟩, s.entries, s.waits ++ [⟨r, mode, .waiting⟩]⟩) (s := s) rfl
  have hjoined : SharedRequests.Sound ⟨s.requests.set r ⟨e.key, e.waiters + 1, e.settled,
      e.aborted⟩, s.entries, s.waits ++ [⟨r, mode, .waiting⟩]⟩ := by
    refine h.update he _ rfl rfl ?_ ?_ (hothers _) ?_ ?_
    · exact fun hget => ⟨hget, fun _ => ⟨hsettled, haborted⟩⟩
    · intro w hw
      rcases List.mem_append.mp hw with hw | hw
      · exact h.waits w hw
      · rw [List.mem_singleton.mp hw]
        exact (List.getElem?_eq_some_iff.mp he).1
    · rw [hthis, h.count he]
    · intro habort
      exact absurd habort (by simp [haborted])
  simp only [SharedRequests.join, he]
  split_ifs
  · exact hjoined.leave _
  · exact hjoined

lemma Sound.run (h : s.Sound) (key : κ) (mode : WaitMode) : (s.run key mode).Sound := by
  unfold SharedRequests.run
  split
  · exact h.join ‹_› mode
  · exact (h.start key).join (Dict.get?_set_self _ _ _) mode

lemma Sound.settle (h : s.Sound) (r : ℕ) (outcome : Except ε τ) : (s.settle r outcome).Sound := by
  unfold SharedRequests.settle
  split
  · exact h
  · rename_i e he
    have hcount : e.waiters = s.callers r := h.count he
    have haborted : e.aborted = true → s.callers r = 0 := h.aborted he
    refine h.update he _ rfl rfl ?_ h.waits (fun _ => rfl) hcount haborted
    exact fun hget => ⟨get?_unregister hget, fun heq => absurd (heq ▸ hget) (h.not_registered he)⟩

lemma Sound.receive (h : s.Sound) (w : ℕ) : (s.receive w).Sound := by
  unfold SharedRequests.receive
  split
  · rename_i r mode hw
    obtain ⟨hothers, hthis⟩ := callers_set (t := ⟨s.requests, s.entries,
      s.waits.set w ⟨r, mode, .done⟩⟩) hw rfl
    have hcallers : ∀ r', SharedRequests.callers ⟨s.requests, s.entries,
        s.waits.set w ⟨r, mode, .done⟩⟩ r' = s.callers r' := by
      intro r'
      by_cases heq : r' = r
      · rw [heq]
        simpa using hthis
      · exact hothers r' heq
    constructor
    · exact h.registered
    · exact h.waits_set hw .done
    · intro r' e he
      rw [hcallers]
      exact h.count he
    · intro r' e he haborted
      rw [hcallers]
      exact h.aborted he haborted
  · exact h

/-! ### What stays of requests and waits -/

/-- The key of each request. -/
def keys (s : SharedRequests κ ε τ) : List κ := s.requests.map SharedEntry.key

/-- What each request settled with. -/
def outcomes (s : SharedRequests κ ε τ) : List (Option (Except ε τ)) :=
  s.requests.map SharedEntry.settled

/-- The request of each wait. -/
def targets (s : SharedRequests κ ε τ) : List ℕ := s.waits.map Wait.entry

/-- An entry changes in other respects. -/
lemma map_set_of_eq {α β : Type*} {l : List α} {f : α → β} {i : ℕ} {a a' : α} (h : l[i]? = some a)
    (hf : f a' = f a) : (l.set i a').map f = l.map f := by
  obtain ⟨hlt, rfl⟩ := List.getElem?_eq_some_iff.mp h
  apply List.ext_getElem?
  intro j
  rw [List.map_set, hf]
  by_cases heq : i = j
  · subst heq
    rw [List.getElem?_set_self (by simpa using hlt), List.getElem?_map,
      List.getElem?_eq_getElem hlt, Option.map_some]
  · rw [List.getElem?_set_ne heq]

omit [DecidableEq κ] in
lemma getElem?_keys {r : ℕ} {e : SharedEntry κ ε τ} (he : s.requests[r]? = some e) :
    s.keys[r]? = some e.key := by
  rw [keys, List.getElem?_map, he, Option.map_some]

omit [DecidableEq κ] in
lemma length_keys : s.keys.length = s.requests.length := List.length_map _

lemma leave_stays (w : ℕ) : (s.leave w).keys = s.keys ∧ (s.leave w).outcomes = s.outcomes ∧
    (s.leave w).targets = s.targets := by
  unfold SharedRequests.leave
  split
  · rename_i r mode hw
    have htargets : (s.waits.set w ⟨r, mode, .left⟩).map Wait.entry = s.targets :=
      map_set_of_eq hw rfl
    split
    · exact ⟨rfl, rfl, rfl⟩
    · rename_i e he
      dsimp only
      split_ifs
      · exact ⟨map_set_of_eq he rfl, map_set_of_eq he rfl, htargets⟩
      · exact ⟨map_set_of_eq he rfl, map_set_of_eq he rfl, htargets⟩
  · exact ⟨rfl, rfl, rfl⟩

lemma join_stays {r : ℕ} (h : r < s.requests.length) (mode : WaitMode) :
    (s.join r mode).keys = s.keys ∧ (s.join r mode).outcomes = s.outcomes ∧
      (s.join r mode).targets = s.targets ++ [r] := by
  obtain ⟨e, he⟩ : ∃ e, s.requests[r]? = some e := ⟨_, List.getElem?_eq_getElem h⟩
  have hjoined : ∀ t : SharedRequests κ ε τ,
      t = ⟨s.requests.set r ⟨e.key, e.waiters + 1, e.settled, e.aborted⟩, s.entries,
        s.waits ++ [⟨r, mode, .waiting⟩]⟩ →
      t.keys = s.keys ∧ t.outcomes = s.outcomes ∧ t.targets = s.targets ++ [r] := by
    rintro t rfl
    refine ⟨map_set_of_eq he rfl, map_set_of_eq he rfl, ?_⟩
    rw [targets, List.map_append]
    rfl
  simp only [SharedRequests.join, he]
  split_ifs
  · obtain ⟨hkeys, houtcomes, htargets⟩ := leave_stays (s := ⟨s.requests.set r ⟨e.key,
      e.waiters + 1, e.settled, e.aborted⟩, s.entries, s.waits ++ [⟨r, mode, .waiting⟩]⟩)
      s.waits.length
    rw [hkeys, houtcomes, htargets]
    exact hjoined _ rfl
  · exact hjoined _ rfl

lemma settle_stays (r : ℕ) (outcome : Except ε τ) : (s.settle r outcome).keys = s.keys ∧
    (s.settle r outcome).outcomes = s.outcomes.set r (some outcome) ∧
    (s.settle r outcome).targets = s.targets := by
  unfold SharedRequests.settle
  split
  · rename_i hnone
    refine ⟨rfl, ?_, rfl⟩
    rw [List.set_eq_of_length_le]
    rw [outcomes, List.length_map]
    exact List.getElem?_eq_none_iff.mp hnone
  · rename_i e he
    exact ⟨map_set_of_eq he rfl, List.map_set, rfl⟩

omit [DecidableEq κ] in
lemma receive_stays (w : ℕ) : (s.receive w).keys = s.keys ∧ (s.receive w).outcomes = s.outcomes ∧
    (s.receive w).targets = s.targets := by
  unfold SharedRequests.receive
  split
  · rename_i r mode hw
    exact ⟨rfl, rfl, map_set_of_eq hw rfl⟩
  · exact ⟨rfl, rfl, rfl⟩

/-- A caller waits on the registered request of its key, or on a new one. -/
lemma Sound.run_stays (h : s.Sound) (key : κ) (mode : WaitMode) :
    (∃ r, s.entries.get? key = some r ∧ (s.run key mode).keys = s.keys ∧
        (s.run key mode).outcomes = s.outcomes ∧ (s.run key mode).targets = s.targets ++ [r]) ∨
      (s.entries.get? key = none ∧ (s.run key mode).keys = s.keys ++ [key] ∧
        (s.run key mode).outcomes = s.outcomes ++ [none] ∧
        (s.run key mode).targets = s.targets ++ [s.requests.length]) := by
  unfold SharedRequests.run
  split
  · rename_i r hr
    obtain ⟨e, he, -⟩ := h.registered hr
    exact .inl ⟨r, hr, join_stays (List.getElem?_eq_some_iff.mp he).1 mode⟩
  · rename_i hnone
    have hlt : s.requests.length < (s.start key).requests.length := by
      rw [SharedRequests.start, List.length_append]
      exact Nat.lt_succ_self _
    obtain ⟨hkeys, houtcomes, htargets⟩ := join_stays hlt mode
    refine .inr ⟨hnone, ?_, ?_, htargets⟩
    · rw [hkeys]
      exact List.map_append
    · rw [houtcomes]
      exact List.map_append

lemma Sound.keys_run (h : s.Sound) (key : κ) (mode : WaitMode) :
    (s.run key mode).keys = if s.entries.has key then s.keys else s.keys ++ [key] := by
  rw [Dict.has]
  rcases h.run_stays key mode with ⟨r, hr, hkeys, -⟩ | ⟨hnone, hkeys, -⟩
  · rw [hr, hkeys]
    rfl
  · rw [hnone, hkeys]
    rfl

/-! ### What is registered -/

lemma get?_entries_leave {w r : ℕ} {key : κ} (h : (s.leave w).entries.get? key = some r) :
    s.entries.get? key = some r := by
  unfold SharedRequests.leave at h
  split at h
  · split at h
    · exact h
    · dsimp only at h
      split_ifs at h
      · exact get?_unregister h
      · exact h
  · exact h

lemma get?_entries_join {r r' : ℕ} {mode : WaitMode} {key : κ}
    (h : (s.join r mode).entries.get? key = some r') : s.entries.get? key = some r' := by
  unfold SharedRequests.join at h
  split at h
  · exact h
  · dsimp only at h
    split_ifs at h
    · have h' := get?_entries_leave h
      exact h'
    · exact h

lemma get?_entries_run {key key' : κ} {mode : WaitMode} {r : ℕ}
    (h : (s.run key mode).entries.get? key' = some r) :
    s.entries.get? key' = some r ∨ (s.entries.has key = false ∧ r = s.keys.length) := by
  unfold SharedRequests.run at h
  split at h
  · exact .inl (get?_entries_join h)
  · rename_i hnone
    have h' := get?_entries_join h
    rw [start, Dict.get?_set] at h'
    split_ifs at h'
    · cases h'
      refine .inr ⟨?_, length_keys.symm⟩
      rw [Dict.has, hnone]
      rfl
    · exact .inl h'

lemma get?_entries_settle {r r' : ℕ} {outcome : Except ε τ} {key : κ}
    (h : (s.settle r outcome).entries.get? key = some r') : s.entries.get? key = some r' := by
  unfold SharedRequests.settle at h
  split at h
  · exact h
  · exact get?_unregister h

omit [DecidableEq κ] in
lemma entries_receive (w : ℕ) : (s.receive w).entries = s.entries := by
  unfold SharedRequests.receive
  split <;> rfl

end SharedRequests

end Junjo.Client
