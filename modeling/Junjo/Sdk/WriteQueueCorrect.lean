import Junjo.Sdk.WriteQueue

/-!
# What an enqueue waits for

A force that covers an enqueue's record satisfies what the enqueue waits for, until a compaction
leaves a journal that is shorter than the record's mark. A force that fails makes an enqueue throw
whose record is gone, unless an earlier force has covered it.
-/

namespace Junjo.Sdk

namespace WriteQueue

section Machine

variable {jsonBytes : JournalLine → ℕ} {compactThreshold : ℕ} {s s' : WriteQueue}

/-! ### The wait for a force -/

/-- The marks and the lengths that they are compared with. -/
structure Timely (s : WriteQueue) : Prop where
  le_written : s.durable ≤ s.written
  target : ∀ f, s.forcing = some f → s.durable ≤ f.target ∧ f.target ≤ s.written
  past : ∀ id mark, s.enqueues.get? id = some (.inForce mark) → mark.epoch ≤ s.epoch
  waits : ∀ id mark, s.enqueues.get? id = some (.inForce mark) → mark.epoch = s.epoch →
    (id, mark.endAt) ∈ s.unforced ∨ mark.endAt ≤ s.durable

/-- An enqueue whose entry a force has covered finds that when it looks. -/
def Served (s : WriteQueue) : Prop :=
  ∀ id mark, s.enqueues.get? id = some (.inForce mark) → mark.epoch = s.epoch →
    id ∉ s.unforced.map Prod.fst → mark.endAt ≤ s.durable

lemma Timely.served (h : s.Timely) : s.Served := by
  intro id mark hid hepoch hcovered
  rcases h.waits id mark hid hepoch with hunforced | hle
  · exact absurd (List.mem_map_of_mem hunforced) hcovered
  · exact hle

variable (jsonBytes compactThreshold) in
/-- A compaction leaves a journal that reaches to the marks of the enqueues under way. -/
def Roomy (s : WriteQueue) : QueueEvent → Prop
  | .complete c => s.poll.compacts compactThreshold → c.reopened → ∀ id mark,
      s.enqueues.get? id = some (.inForce mark) → mark.epoch = s.epoch → mark.endAt ≤
        bytes jsonBytes (if c.replaced then s.queue.tail.map JournalLine.put else s.journal)
  | _ => True

/-- A step that keeps the journal's lengths and the unforced entries, and takes no enqueue into
`forceThrough`. -/
lemma Timely.same (h : s.Timely) (hdurable : s'.durable = s.durable)
    (hwritten : s.written ≤ s'.written) (hepoch : s'.epoch = s.epoch)
    (hunforced : s'.unforced = s.unforced)
    (hforcing : ∀ f, s'.forcing = some f → s.durable ≤ f.target ∧ f.target ≤ s'.written)
    (henqueues : ∀ id mark, s'.enqueues.get? id = some (.inForce mark) →
      s.enqueues.get? id = some (.inForce mark)) : s'.Timely where
  le_written := hdurable ▸ Nat.le_trans h.le_written hwritten
  target := hdurable ▸ hforcing
  past id mark hid := hepoch ▸ h.past id mark (henqueues id mark hid)
  waits id mark hid hmark := by
    rw [hunforced, hdurable]
    exact h.waits id mark (henqueues id mark hid) (hepoch ▸ hmark)

lemma get?_set_settled {enqueues : Dict ℕ EnqueuePlace} {id id' : ℕ} {place : EnqueuePlace}
    {mark : Mark} (hplace : ∀ mark, place ≠ .inForce mark)
    (h : (enqueues.set id place).get? id' = some (.inForce mark)) :
    enqueues.get? id' = some (.inForce mark) := by
  rw [Dict.get?_set] at h
  split_ifs at h
  · exact absurd (Option.some.inj h) (hplace mark)
  · exact h

lemma Timely.lookEnqueue (h : s.Timely) (id : ℕ) (mark : Mark) :
    (s.lookEnqueue id mark).Timely := by
  rw [WriteQueue.lookEnqueue]
  split
  · exact h.same rfl (Nat.le_refl _) rfl rfl h.target fun _ _ =>
      get?_set_settled fun _ h => by cases h
  · exact h.same rfl (Nat.le_refl _) rfl rfl h.target fun _ _ =>
      get?_set_settled fun _ h => by cases h
  · exact h
  · refine h.same rfl (Nat.le_refl _) rfl rfl ?_ fun _ _ h => h
    rintro f ⟨⟩
    exact ⟨h.le_written, Nat.le_refl _⟩

lemma Timely.lookDrain (h : s.Timely) (mark : Mark) : (s.lookDrain mark).Timely := by
  rw [WriteQueue.lookDrain]
  split
  · exact h.same rfl (Nat.le_refl _) rfl rfl h.target fun _ _ h => h
  · exact h.same rfl (Nat.le_refl _) rfl rfl h.target fun _ _ h => h
  · exact h
  · refine h.same rfl (Nat.le_refl _) rfl rfl ?_ fun _ _ h => h
    rintro f ⟨⟩
    exact ⟨h.le_written, Nat.le_refl _⟩

/-- The end of a force. -/
lemma Timely.forced (h : s.Timely) {f : Force} (hforcing : s.forcing = some f) :
    Timely { s.cover jsonBytes f.target with forcing := none } ∧
      Timely { s.rollBack jsonBytes with forcing := none } := by
  obtain ⟨hlow, hhigh⟩ := h.target f hforcing
  constructor
  · refine ⟨hhigh, fun _ h => (by cases h), h.past, fun id mark hid hmark => ?_⟩
    change (id, mark.endAt) ∈ s.unforced.dropWhile _ ∨ mark.endAt ≤ f.target
    rcases h.waits id mark hid hmark with hunforced | hle
    · by_cases hcovered : mark.endAt ≤ f.target
      · exact .inr hcovered
      · refine .inl ?_
        rw [← List.takeWhile_append_dropWhile (p := fun u => decide (u.2 ≤ f.target))
          (l := s.unforced), List.mem_append] at hunforced
        rcases hunforced with htaken | hleft
        · have hle := List.mem_takeWhile_imp htaken
          exact absurd (of_decide_eq_true hle) hcovered
        · exact hleft
    · exact .inr (Nat.le_trans hle hlow)
  · refine ⟨Nat.le_refl _, fun _ h => (by cases h), fun id mark hid => ?_, fun id mark hid hmark => ?_⟩
    · exact Nat.le_succ_of_le (h.past id mark hid)
    · have hpast := h.past id mark hid
      change mark.epoch = s.epoch + 1 at hmark
      omega

/-- What a compaction leaves alone. -/
lemma rewrite_frame (s : WriteQueue) (c : Compaction) :
    let s' := s.rewrite jsonBytes c
    s'.epoch = s.epoch ∧ s'.forcing = s.forcing ∧ s'.unforced = s.unforced ∧ s'.queue = s.queue ∧
      s'.enqueues = s.enqueues ∧ s'.sent = s.sent ∧ s'.finished = s.finished ∧
      s'.drain = s.drain := by
  simp only [rewrite, closeChannel]
  split_ifs <;> exact ⟨rfl, rfl, rfl, rfl, rfl, rfl, rfl, rfl⟩

variable (jsonBytes) in
/-- The journal that a compaction leaves, and how long the queue takes it to be. -/
lemma rewrite_journal (s : WriteQueue) (c : Compaction) :
    let s' := s.rewrite jsonBytes c
    s'.journal = (if c.replaced then s.queue.map JournalLine.put else s.journal) ∧
      (c.reopened → s'.channel = true ∧ s'.written = bytes jsonBytes s'.journal ∧
        s'.durable = s'.written) ∧
      (¬ c.reopened → s'.channel = false ∧ s'.written = s.written ∧
        (s'.durable = s.durable ∨ s'.durable = s.written)) := by
  simp only [rewrite, closeChannel]
  split_ifs <;> simp_all

lemma rewrite_onDisk (s : WriteQueue) (c : Compaction) : (s.rewrite jsonBytes c).onDisk =
    if c.replaced then s.queue.map JournalLine.put else (s.closeChannel c.closeForced).onDisk := by
  simp only [rewrite, closeChannel]
  split_ifs <;> rfl

/-- The end of an entry, with or without a compaction. -/
lemma Timely.complete (h : s.Timely) {c : Compaction}
    (hroomy : s.Roomy jsonBytes compactThreshold (.complete c)) :
    (if s.poll.compacts compactThreshold then s.poll.rewrite jsonBytes c else s.poll).Timely := by
  have hpoll : s.poll.Timely := h.same rfl (Nat.le_refl _) rfl rfl h.target fun _ _ h => h
  split_ifs with hcompacts
  · have hnone : s.forcing = none := by
      rw [compacts, Bool.and_eq_true, Bool.and_eq_true, Option.isNone_iff_eq_none] at hcompacts
      exact hcompacts.1.2
    obtain ⟨hepoch, hforcing, hunforced, -, henqueues, -⟩ := @rewrite_frame jsonBytes
      s.poll c
    obtain ⟨hjournal, hreopened, hclosed⟩ := rewrite_journal jsonBytes s.poll c
    have hforcing' : ∀ f, (s.poll.rewrite jsonBytes c).forcing ≠ some f := by
      intro f hf
      cases hnone.symm.trans (hforcing.symm.trans hf)
    by_cases hre : c.reopened
    · obtain ⟨-, hwritten, hdurable⟩ := hreopened hre
      refine ⟨Nat.le_of_eq hdurable, fun f hf => absurd hf (hforcing' f), ?_, ?_⟩
      · intro id mark hid
        rw [hepoch]
        rw [henqueues] at hid
        exact h.past id mark hid
      · intro id mark hid hmark
        rw [henqueues] at hid
        rw [hepoch] at hmark
        right
        rw [hdurable, hwritten, hjournal]
        exact hroomy hcompacts hre id mark hid hmark
    · obtain ⟨-, hwritten, hdurable⟩ := hclosed hre
      have hgrows : s.durable ≤ (s.poll.rewrite jsonBytes c).durable ∧
          (s.poll.rewrite jsonBytes c).durable ≤ s.written := by
        rcases hdurable with hdurable | hdurable <;> rw [hdurable]
        · exact ⟨Nat.le_refl _, h.le_written⟩
        · exact ⟨h.le_written, Nat.le_refl _⟩
      refine ⟨hwritten ▸ hgrows.2, fun f hf => absurd hf (hforcing' f), ?_, ?_⟩
      · intro id mark hid
        rw [hepoch]
        rw [henqueues] at hid
        exact h.past id mark hid
      · intro id mark hid hmark
        rw [henqueues] at hid
        rw [hepoch] at hmark
        rw [hunforced]
        exact (h.waits id mark hid hmark).imp_right fun hle => Nat.le_trans hle hgrows.1
  · exact hpoll

/-- Every step keeps the marks in their places, given that compactions leave room for them. -/
lemma Timely.next (h : s.Timely) {e : QueueEvent}
    (hroomy : s.Roomy jsonBytes compactThreshold e)
    (hnext : s.next jsonBytes compactThreshold e = some s') : s'.Timely := by
  cases e with
  | enqueue id =>
    rw [WriteQueue.next] at hnext
    split_ifs at hnext with hnew
    cases hnext
    refine ⟨Nat.le_add_right_of_le h.le_written, fun f hf => ?_, fun id' mark hid => ?_,
      fun id' mark hid hmark => ?_⟩
    · exact (h.target f hf).imp_right Nat.le_add_right_of_le
    · rw [Dict.get?_set] at hid
      split_ifs at hid
      · cases hid
        exact Nat.le_refl _
      · exact h.past id' mark hid
    · rw [Dict.get?_set] at hid
      split_ifs at hid with hsame
      · cases hid
        rw [hsame]
        exact .inl (List.mem_append_right _ (List.mem_singleton_self _))
      · exact (h.waits id' mark hid hmark).imp_left (List.mem_append_left _)
  | enqueueFails id =>
    rw [WriteQueue.next] at hnext
    split_ifs at hnext
    cases hnext
    exact h.same rfl (Nat.le_refl _) rfl rfl h.target fun _ _ =>
      get?_set_settled fun _ h => by cases h
  | look thread =>
    cases thread with
    | enqueue id =>
      rw [WriteQueue.next] at hnext
      split_ifs at hnext
      split at hnext
      · cases hnext
        exact h.lookEnqueue id _
      · cases hnext
    | drain =>
      rw [WriteQueue.next] at hnext
      split_ifs at hnext
      split at hnext
      · cases hnext
        exact h.lookDrain _
      · cases hnext
  | forced ok =>
    rw [WriteQueue.next] at hnext
    split at hnext
    · rename_i f hforcing
      split_ifs at hnext
      · cases hnext
        exact (h.forced hforcing).1
      · cases hnext
        exact (h.forced hforcing).2
    · cases hnext
  | send =>
    rw [WriteQueue.next] at hnext
    split at hnext
    · cases hnext
      exact h.same rfl (Nat.le_refl _) rfl rfl h.target fun _ _ h => h
    · cases hnext
  | retry =>
    rw [WriteQueue.next] at hnext
    split at hnext
    · cases hnext
      exact h.same rfl (Nat.le_refl _) rfl rfl h.target fun _ _ h => h
    · cases hnext
  | settle outcome =>
    rw [WriteQueue.next] at hnext
    split at hnext
    · cases hnext
      exact h.same rfl (Nat.le_refl _) rfl rfl h.target fun _ _ h => h
    · cases hnext
  | record ok =>
    rw [WriteQueue.next] at hnext
    split at hnext
    · split_ifs at hnext
      · cases hnext
        exact h.same rfl (Nat.le_add_right _ _) rfl rfl
          (fun f hf => (h.target f hf).imp_right Nat.le_add_right_of_le) fun _ _ h => h
      · cases hnext
        exact h.same rfl (Nat.le_add_right _ _) rfl rfl
          (fun f hf => (h.target f hf).imp_right Nat.le_add_right_of_le) fun _ _ h => h
      · cases hnext
        exact h.same rfl (Nat.le_refl _) rfl rfl h.target fun _ _ h => h
    · cases hnext
  | complete c =>
    rw [WriteQueue.next] at hnext
    split at hnext
    · cases hnext
      exact h.complete hroomy
    · cases hnext

/-- A compaction that leaves every enqueue under way served leaves room for its mark. -/
lemma roomy_of_served {e : QueueEvent} (hnext : s.next jsonBytes compactThreshold e = some s')
    (hserved : s'.Served) : s.Roomy jsonBytes compactThreshold e := by
  cases e with
  | complete c =>
    intro hcompacts hre id mark hid hmark
    rw [WriteQueue.next] at hnext
    split at hnext
    · dsimp only at hnext
      rw [if_pos hcompacts, Option.some.injEq] at hnext
      obtain ⟨hepoch, -, hunforced, -, henqueues, -⟩ := @rewrite_frame jsonBytes s.poll c
      obtain ⟨hjournal, hreopened, -⟩ := rewrite_journal jsonBytes s.poll c
      obtain ⟨-, hwritten, hdurable⟩ := hreopened hre
      have hempty : s.unforced = [] := by
        rw [compacts, Bool.and_eq_true, List.isEmpty_iff] at hcompacts
        exact hcompacts.2
      have hle := hserved id mark (by rw [← hnext, henqueues]; exact hid)
        (by rw [← hnext, hepoch]; exact hmark)
        (by rw [← hnext, hunforced]; change id ∉ s.unforced.map Prod.fst; rw [hempty]; exact List.not_mem_nil)
      rw [← hnext, hdurable, hwritten, hjournal] at hle
      exact hle
    · cases hnext
  | _ => trivial

variable {lines : List JournalLine} {replaced : Bool}

lemma get?_opened {id : ℕ} {place : EnqueuePlace}
    (h : (opened jsonBytes lines replaced).enqueues.get? id = some place) :
    place = .returned ∧ id ∈ putIds lines := by
  change (Dict.ofList ((putIds lines).map fun id => (id, EnqueuePlace.returned))).get? id = _ at h
  rw [Dict.get?_ofList_map] at h
  split_ifs at h with hid
  rw [List.map_id'] at hid
  exact ⟨(Option.some.inj h).symm, hid⟩

lemma timely_opened (jsonBytes : JournalLine → ℕ) (lines : List JournalLine) (replaced : Bool) :
    (opened jsonBytes lines replaced).Timely where
  le_written := Nat.le_refl _
  target _ h := by cases h
  past id mark hid := by cases (get?_opened hid).1
  waits id mark hid := by cases (get?_opened hid).1

/-- In every state of a run of an opened queue an enqueue whose record a force has covered, and which
no failed force has passed since, finds it covered; if and only if the run's compactions leave
journals that reach to the marks of the enqueues under way. -/
theorem served_iff (jsonBytes : JournalLine → ℕ) (compactThreshold : ℕ) (lines : List JournalLine)
    (replaced : Bool) (events : List QueueEvent) :
    (∀ n s₁, (opened jsonBytes lines replaced).run jsonBytes compactThreshold (events.take n) =
      some s₁ → s₁.Served) ↔
      ∀ before e after s₁ s₂, events = before ++ e :: after →
        (opened jsonBytes lines replaced).run jsonBytes compactThreshold before = some s₁ →
        s₁.next jsonBytes compactThreshold e = some s₂ →
        s₁.Roomy jsonBytes compactThreshold e := by
  constructor
  · rintro hserved before e after s₁ s₂ rfl hbefore hnext
    have hserved₂ : s₂.Served := by
      refine hserved (before.length + 1) s₂ ?_
      have hsplit : before ++ e :: after = (before ++ [e]) ++ after := by simp
      rw [hsplit, List.take_left' (by simp), run, runSteps_concat]
      exact Option.bind_eq_some_iff.mpr ⟨s₁, hbefore, hnext⟩
    exact roomy_of_served hnext hserved₂
  · intro hroomy n s₁ hrun
    refine Timely.served ?_
    refine runSteps_invariant_of
      (C := fun s e => ∀ s', s.next jsonBytes compactThreshold e = some s' →
        s.Roomy jsonBytes compactThreshold e)
      (fun s e s' hs hC hnext => hs.next (hC s' hnext) hnext)
      (timely_opened jsonBytes lines replaced) hrun ?_
    intro before e after s₂ hsplit hbefore s' hnext
    refine hroomy before e (after ++ events.drop n) s₂ s' ?_ hbefore hnext
    rw [← List.cons_append, ← List.append_assoc, ← hsplit, List.take_append_drop]

end Machine

/-- A compaction after the force that covered two enqueues, the second of which has not looked yet. -/
def compactionBeforeLook : List QueueEvent :=
  [.enqueue 1, .enqueue 2, .look (.enqueue 1), .forced true, .send, .settle .success, .record true,
    .complete ⟨true, true, true⟩]

/-- The second enqueue finds its record uncovered, and forces the journal again and again. -/
theorem compaction_uncovers : ∃ s, (opened (fun _ => 20) [] true).run (fun _ => 20) 1
    compactionBeforeLook = some s ∧ ¬ s.Served ∧
      s.run (fun _ => 20) 1 [.look (.enqueue 2), .forced true] = some s := by
  have hrun : ((opened (fun _ => 20) [] true).run (fun _ => 20) 1 compactionBeforeLook).map
      (fun s => (s.enqueues.get? 2, s.epoch, s.unforced, s.durable)) =
      some (some (.inForce ⟨60, 0⟩), 0, [], 30) := by
    decide
  have hagain : (opened (fun _ => 20) [] true).run (fun _ => 20) 1
      (compactionBeforeLook ++ [.look (.enqueue 2), .forced true]) =
      (opened (fun _ => 20) [] true).run (fun _ => 20) 1 compactionBeforeLook := by
    decide
  obtain ⟨s, hs, hstate⟩ := Option.map_eq_some_iff.mp hrun
  simp only [Prod.mk.injEq] at hstate
  obtain ⟨hid, hepoch, hunforced, hdurable⟩ := hstate
  refine ⟨s, hs, fun hserved => ?_, ?_⟩
  · have hle := hserved 2 ⟨60, 0⟩ hid hepoch.symm (by rw [hunforced]; exact List.not_mem_nil)
    rw [hdurable] at hle
    exact absurd hle (by decide)
  · have hboth := hagain.trans hs
    rw [run] at hs
    rw [run, runSteps_append, hs] at hboth
    exact hboth

section Machine

variable {jsonBytes : JournalLine → ℕ} {compactThreshold : ℕ} {s s' : WriteQueue}
variable {lines : List JournalLine} {replaced : Bool}

/-! ### Lines of the journal -/

variable (jsonBytes) in
/-- The entries that lines put, with the lengths of the journal after them. -/
def putEnds (start : ℕ) : List JournalLine → List (ℕ × ℕ)
  | [] => []
  | .put id :: lines =>
    (id, start + lineBytes jsonBytes (.put id)) ::
      putEnds (start + lineBytes jsonBytes (.put id)) lines
  | .done id outcome :: lines => putEnds (start + lineBytes jsonBytes (.done id outcome)) lines

lemma putIds_append (l l' : List JournalLine) : putIds (l ++ l') = putIds l ++ putIds l' :=
  List.filterMap_append

@[simp] lemma putIds_map_put (ids : List ℕ) : putIds (ids.map JournalLine.put) = ids := by
  rw [putIds, List.filterMap_map]
  exact List.filterMap_some

lemma bytes_append (l l' : List JournalLine) :
    bytes jsonBytes (l ++ l') = bytes jsonBytes l + bytes jsonBytes l' := by
  rw [bytes, List.map_append, List.sum_append]
  rfl

lemma bytes_cons (line : JournalLine) (lines : List JournalLine) :
    bytes jsonBytes (line :: lines) = lineBytes jsonBytes line + bytes jsonBytes lines := by
  rw [bytes, List.map_cons, List.sum_cons]
  rfl

lemma lineBytes_pos (line : JournalLine) : 0 < lineBytes jsonBytes line := by
  rw [lineBytes]
  omega

lemma putEnds_append (start : ℕ) (l l' : List JournalLine) : putEnds jsonBytes start (l ++ l') =
    putEnds jsonBytes start l ++ putEnds jsonBytes (start + bytes jsonBytes l) l' := by
  induction l generalizing start with
  | nil => rfl
  | cons line l ih =>
    rw [bytes_cons, ← Nat.add_assoc]
    cases line with
    | put id => rw [List.cons_append, putEnds, putEnds, ih, List.cons_append]
    | done id outcome => rw [List.cons_append, putEnds, putEnds, ih]

lemma map_fst_putEnds (start : ℕ) (l : List JournalLine) :
    (putEnds jsonBytes start l).map Prod.fst = putIds l := by
  induction l generalizing start with
  | nil => rfl
  | cons line l ih =>
    cases line with
    | put id =>
      rw [putEnds, List.map_cons, ih]
      rfl
    | done id outcome =>
      rw [putEnds, ih]
      rfl

lemma putEnds_bounds {start : ℕ} {l : List JournalLine} {u : ℕ × ℕ}
    (h : u ∈ putEnds jsonBytes start l) : start < u.2 ∧ u.2 ≤ start + bytes jsonBytes l := by
  induction l generalizing start with
  | nil => cases h
  | cons line l ih =>
    have hpos := @lineBytes_pos jsonBytes line
    rw [bytes_cons]
    cases line with
    | put id =>
      rcases List.mem_cons.mp h with rfl | h
      · dsimp only
        omega
      · have hbounds := ih h
        omega
    | done id outcome =>
      have hbounds := ih h
      omega

lemma truncate_append (l l' : List JournalLine) :
    truncate jsonBytes (bytes jsonBytes l) (l ++ l') = l := by
  induction l with
  | nil =>
    cases l' with
    | nil => rfl
    | cons line l' =>
      have hpos := @lineBytes_pos jsonBytes line
      rw [List.nil_append, truncate, if_neg]
      change ¬ lineBytes jsonBytes line ≤ 0
      omega
  | cons line l ih =>
    rw [List.cons_append, truncate, bytes_cons, if_pos (Nat.le_add_right _ _),
      Nat.add_sub_cancel_left, ih]

/-- The entries that a force covers are those of the lines before its target. -/
lemma covered_putEnds (start : ℕ) (more rest : List JournalLine) :
    ((putEnds jsonBytes start (more ++ rest)).takeWhile fun u =>
        u.2 ≤ start + bytes jsonBytes more) = putEnds jsonBytes start more ∧
      ((putEnds jsonBytes start (more ++ rest)).dropWhile fun u =>
        u.2 ≤ start + bytes jsonBytes more) =
          putEnds jsonBytes (start + bytes jsonBytes more) rest := by
  have hcovered : ∀ u ∈ putEnds jsonBytes start more,
      decide (u.2 ≤ start + bytes jsonBytes more) = true :=
    fun u hu => decide_eq_true (putEnds_bounds hu).2
  have hrest : ∀ u ∈ putEnds jsonBytes (start + bytes jsonBytes more) rest,
      decide (u.2 ≤ start + bytes jsonBytes more) = false :=
    fun u hu => decide_eq_false (Nat.not_le.mpr (putEnds_bounds hu).1)
  rw [putEnds_append]
  exact takeWhile_dropWhile_append hcovered hrest

/-! ### The file -/

variable (jsonBytes) in
/-- The journal of a queue whose channel is open: what is durable, and what no force covers yet. -/
structure Layout (s : WriteQueue) (kept pending : List JournalLine) : Prop where
  journal : s.journal = kept ++ pending
  durable : bytes jsonBytes kept = s.durable
  written : bytes jsonBytes s.journal = s.written
  unforced : s.unforced = putEnds jsonBytes s.durable pending
  queue : ∀ id ∈ s.queue, id ∈ putIds kept
  new : ∀ u ∈ s.unforced, u.1 ∉ putIds kept
  disk : s.onDisk <+: kept
  force : ∀ f, s.forcing = some f → ∃ more rest, pending = more ++ rest ∧
    f.target = s.durable + bytes jsonBytes more

variable (jsonBytes) in
/-- The file holds what the queue counts on. -/
structure Files (s : WriteQueue) : Prop where
  layout : s.channel = true → ∃ kept pending, s.Layout jsonBytes kept pending
  closed : s.channel = false → s.unforced = [] ∧ (∀ id ∈ s.queue, id ∈ putIds s.journal) ∧
    s.onDisk <+: s.journal
  onDisk : ∀ id ∈ s.queue, id ∈ putIds s.onDisk

/-- A step that keeps the file and takes nothing into the queue. -/
lemma Files.same (h : s.Files jsonBytes)
    (hfile : s'.journal = s.journal ∧ s'.onDisk = s.onDisk ∧ s'.channel = s.channel ∧
      s'.written = s.written ∧ s'.durable = s.durable ∧ s'.unforced = s.unforced)
    (hqueue : s'.queue ⊆ s.queue)
    (hforcing : ∀ f, s'.forcing = some f → s.forcing = some f ∨ f.target = s.written) :
    s'.Files jsonBytes := by
  obtain ⟨hjournal, hdisk, hchannel, hwritten, hdurable, hunforced⟩ := hfile
  refine ⟨fun hopen => ?_, fun hclosed => ?_, fun id hid => ?_⟩
  · obtain ⟨kept, pending, hl⟩ := h.layout (hchannel ▸ hopen)
    refine ⟨kept, pending, hjournal ▸ hl.journal, hdurable ▸ hl.durable, ?_, ?_, ?_, ?_, ?_, ?_⟩
    · rw [hjournal, hwritten]
      exact hl.written
    · rw [hunforced, hdurable]
      exact hl.unforced
    · exact fun id hid => hl.queue id (hqueue hid)
    · rw [hunforced]
      exact hl.new
    · rw [hdisk]
      exact hl.disk
    · intro f hf
      rw [hdurable]
      rcases hforcing f hf with hf | hf
      · exact hl.force f hf
      · refine ⟨pending, [], (List.append_nil _).symm, ?_⟩
        rw [hf, ← hl.written, hl.journal, bytes_append, hl.durable]
  · rw [hunforced, hjournal, hdisk]
    obtain ⟨hnone, hputs, hextends⟩ := h.closed (hchannel ▸ hclosed)
    exact ⟨hnone, fun id hid => hputs id (hqueue hid), hextends⟩
  · rw [hdisk]
    exact h.onDisk id (hqueue hid)

/-- A line is appended. -/
lemma Files.append (h : s.Files jsonBytes) (hopen : s.channel = true) (line : JournalLine)
    (hfile : s'.journal = s.journal ++ [line] ∧ s'.onDisk = s.onDisk ∧ s'.channel = s.channel ∧
      s'.written = s.written + lineBytes jsonBytes line ∧ s'.durable = s.durable ∧
      s'.queue = s.queue ∧ s'.forcing = s.forcing)
    (hunforced : s'.unforced = s.unforced ++ putEnds jsonBytes s.written [line])
    (hnew : ∀ id ∈ putIds [line], id ∉ putIds s.journal) : s'.Files jsonBytes := by
  obtain ⟨hjournal, hdisk, hchannel, hwritten, hdurable, hqueue, hforcing⟩ := hfile
  obtain ⟨kept, pending, hl⟩ := h.layout hopen
  have hend : s.durable + bytes jsonBytes pending = s.written := by
    rw [← hl.written, hl.journal, bytes_append, hl.durable]
  refine ⟨fun _ => ⟨kept, pending ++ [line], ?_, ?_, ?_, ?_, ?_, ?_, ?_, ?_⟩, fun hclosed => ?_,
    fun id hid => ?_⟩
  · rw [hjournal, hl.journal, List.append_assoc]
  · rw [hdurable]
    exact hl.durable
  · rw [hjournal, hwritten, bytes_append, hl.written]
    rfl
  · rw [hunforced, hdurable, putEnds_append, hend, hl.unforced]
  · rw [hqueue]
    exact hl.queue
  · intro u hu
    rw [hunforced] at hu
    rcases List.mem_append.mp hu with hu | hu
    · exact hl.new u hu
    · have hid : u.1 ∈ putIds [line] := by
        rw [← @map_fst_putEnds jsonBytes s.written]
        exact List.mem_map_of_mem hu
      intro hkept
      refine hnew u.1 hid ?_
      rw [hl.journal, putIds_append]
      exact List.mem_append_left _ hkept
  · rw [hdisk]
    exact hl.disk
  · intro f hf
    obtain ⟨more, rest, hsplit, htarget⟩ := hl.force f (hforcing ▸ hf)
    exact ⟨more, rest ++ [line], by rw [hsplit, List.append_assoc], by rw [hdurable, htarget]⟩
  · cases hopen.symm.trans (hchannel.symm.trans hclosed)
  · rw [hdisk]
    rw [hqueue] at hid
    exact h.onDisk id hid

/-- A force that succeeds covers some lines. -/
lemma Layout.cover {kept pending : List JournalLine} (hl : s.Layout jsonBytes kept pending)
    (hopen : s.channel = true) {f : Force} (hf : s.forcing = some f) (hnodup : (s.unforced.map Prod.fst).Nodup) :
    ∃ more rest, pending = more ++ rest ∧ f.target = s.durable + bytes jsonBytes more ∧
      (s.cover jsonBytes f.target).queue = s.queue ++ putIds more ∧
      (s.cover jsonBytes f.target).unforced = putEnds jsonBytes f.target rest ∧
      Files jsonBytes { s.cover jsonBytes f.target with forcing := none } := by
  obtain ⟨more, rest, rfl, htarget⟩ := hl.force f hf
  obtain ⟨htaken, hleft⟩ := @covered_putEnds jsonBytes s.durable more rest
  have hqueue : (s.cover jsonBytes f.target).queue = s.queue ++ putIds more := by
    rw [WriteQueue.cover]
    dsimp only
    rw [hl.unforced, htarget, htaken, map_fst_putEnds]
  have hunforced : (s.cover jsonBytes f.target).unforced = putEnds jsonBytes f.target rest := by
    rw [WriteQueue.cover]
    dsimp only
    rw [hl.unforced, htarget, hleft]
  have hbytes : bytes jsonBytes (kept ++ more) = f.target := by
    rw [bytes_append, hl.durable, htarget]
  have hjournal : s.journal = (kept ++ more) ++ rest := by rw [hl.journal, List.append_assoc]
  have hdisk : (s.cover jsonBytes f.target).onDisk = kept ++ more := by
    rw [WriteQueue.cover]
    dsimp only
    rw [hjournal, ← hbytes, truncate_append]
  have hids : s.unforced.map Prod.fst = putIds more ++ putIds rest := by
    rw [hl.unforced, map_fst_putEnds, putIds_append]
  have hqueued : ∀ id ∈ (s.cover jsonBytes f.target).queue, id ∈ putIds (kept ++ more) := by
    intro id hid
    rw [putIds_append]
    rw [hqueue] at hid
    exact List.mem_append.mpr ((List.mem_append.mp hid).imp_left (hl.queue id))
  refine ⟨more, rest, rfl, htarget, hqueue, hunforced, fun _ => ⟨kept ++ more, rest, hjournal, hbytes,
    hl.written, hunforced, hqueued, ?_, ?_, fun _ h => (by cases h)⟩, fun hclosed => ?_, ?_⟩
  · intro u hu
    change u ∈ (s.cover jsonBytes f.target).unforced at hu
    rw [hunforced] at hu
    have hid : u.1 ∈ putIds rest := by
      rw [← @map_fst_putEnds jsonBytes f.target]
      exact List.mem_map_of_mem hu
    have hold : u ∈ s.unforced := by
      rw [hl.unforced, putEnds_append, ← htarget]
      exact List.mem_append_right _ hu
    rw [putIds_append, List.mem_append, not_or]
    refine ⟨hl.new u hold, fun hmore => ?_⟩
    rw [hids] at hnodup
    exact List.disjoint_of_nodup_append hnodup hmore hid
  · change (s.cover jsonBytes f.target).onDisk <+: kept ++ more
    rw [hdisk]
  · cases hopen.symm.trans hclosed
  · intro id hid
    change id ∈ putIds (s.cover jsonBytes f.target).onDisk
    rw [hdisk]
    exact hqueued id hid

/-- A force that fails leaves the durable lines. -/
lemma Layout.rollBack {kept pending : List JournalLine} (hl : s.Layout jsonBytes kept pending)
    (hopen : s.channel = true) : (s.rollBack jsonBytes).journal = kept := by
  rw [WriteQueue.rollBack]
  dsimp only
  rw [if_pos hopen, ← hl.durable, hl.journal, truncate_append]

lemma Files.rollBack (h : s.Files jsonBytes) :
    Files jsonBytes { s.rollBack jsonBytes with forcing := none } := by
  refine ⟨fun hopen => ?_, fun hclosed => ?_, h.onDisk⟩
  · obtain ⟨kept, pending, hl⟩ := h.layout hopen
    have hjournal := hl.rollBack hopen
    refine ⟨kept, [], ?_, hl.durable, ?_, rfl, hl.queue, fun _ h => (by cases h), hl.disk,
      fun _ h => (by cases h)⟩
    · rw [List.append_nil]
      exact hjournal
    · change bytes jsonBytes (s.rollBack jsonBytes).journal = s.durable
      rw [hjournal, hl.durable]
  · obtain ⟨-, hputs, hextends⟩ := h.closed hclosed
    have hjournal : (s.rollBack jsonBytes).journal = s.journal := by
      rw [WriteQueue.rollBack]
      dsimp only
      rw [if_neg (by rw [show s.channel = false from hclosed]; exact Bool.false_ne_true)]
    refine ⟨rfl, fun id hid => ?_, ?_⟩
    · change id ∈ putIds (s.rollBack jsonBytes).journal
      rw [hjournal]
      exact hputs id hid
    · change s.onDisk <+: (s.rollBack jsonBytes).journal
      rw [hjournal]
      exact hextends

/-- A compaction keeps what the queue counts on. -/
lemma Files.rewrite (h : s.Files jsonBytes) (hnone : s.forcing = none) (hempty : s.unforced = [])
    (c : Compaction) : (s.rewrite jsonBytes c).Files jsonBytes := by
  obtain ⟨-, hforcing, hunforced, hqueue, -⟩ := @rewrite_frame jsonBytes s c
  obtain ⟨hjournal, hreopened, hclosed⟩ := rewrite_journal jsonBytes s c
  have hputs : ∀ id ∈ s.queue, id ∈ putIds s.journal := by
    cases hopen : s.channel with
    | false => exact (h.closed hopen).2.1
    | true =>
      obtain ⟨kept, pending, hl⟩ := h.layout hopen
      intro id hid
      rw [hl.journal, putIds_append]
      exact List.mem_append_left _ (hl.queue id hid)
  have hextends : s.onDisk <+: s.journal := by
    cases hopen : s.channel with
    | false => exact (h.closed hopen).2.2
    | true =>
      obtain ⟨kept, pending, hl⟩ := h.layout hopen
      rw [hl.journal]
      exact hl.disk.trans (List.prefix_append _ _)
  have hdisk : (s.rewrite jsonBytes c).onDisk <+: (s.rewrite jsonBytes c).journal ∧
      ∀ id ∈ s.queue, id ∈ putIds (s.rewrite jsonBytes c).onDisk := by
    have hkept : (s.closeChannel c.closeForced).onDisk <+: s.journal ∧
        ∀ id ∈ s.queue, id ∈ putIds (s.closeChannel c.closeForced).onDisk := by
      rw [closeChannel]
      split_ifs
      · exact ⟨List.prefix_refl _, hputs⟩
      · exact ⟨hextends, h.onDisk⟩
    rw [hjournal, rewrite_onDisk]
    split_ifs
    · rw [putIds_map_put]
      exact ⟨List.prefix_refl _, fun id hid => hid⟩
    · exact hkept
  have hputs' : ∀ id ∈ s.queue, id ∈ putIds (s.rewrite jsonBytes c).journal := by
    intro id hid
    rw [hjournal]
    split_ifs
    · rw [putIds_map_put]
      exact hid
    · exact hputs id hid
  have hunforced' : (s.rewrite jsonBytes c).unforced = [] := hunforced.trans hempty
  refine ⟨fun hopen => ?_, fun _ => ⟨hunforced', ?_, hdisk.1⟩, ?_⟩
  · have hre : c.reopened := by
      by_contra hre
      cases hopen.symm.trans (hclosed hre).1
    obtain ⟨-, hwritten, hdurable⟩ := hreopened hre
    refine ⟨(s.rewrite jsonBytes c).journal, [], (List.append_nil _).symm, ?_, hwritten.symm,
      hunforced', ?_, ?_, hdisk.1, fun f hf => ?_⟩
    · rw [hdurable, hwritten]
    · rw [hqueue]
      exact hputs'
    · intro u hu
      rw [hunforced'] at hu
      cases hu
    · rw [hforcing, hnone] at hf
      cases hf
  · rw [hqueue]
    exact hputs'
  · rw [hqueue]
    exact hdisk.2

/-! ### The entries -/

/-- An entry is to be sent, or was. -/
def Accepted (s : WriteQueue) (id : ℕ) : Prop := id ∈ s.queue ∨ id ∈ s.finished

/-- An entry is nowhere and was never sent. -/
structure Gone (s : WriteQueue) (id : ℕ) : Prop where
  journal : id ∉ putIds s.journal
  queue : id ∉ s.queue
  unforced : id ∉ s.unforced.map Prod.fst
  sent : id ∉ s.sent
  finished : id ∉ s.finished

/-- What an enqueue has come to. -/
def Placed (s : WriteQueue) (id : ℕ) : EnqueuePlace → Prop
  | .inForce mark => mark.epoch ≤ s.epoch ∧
      (mark.epoch = s.epoch → (id, mark.endAt) ∈ s.unforced ∨ s.Accepted id) ∧
      (mark.epoch ≠ s.epoch → s.Gone id)
  | .returned => s.Accepted id
  | .threw => s.Gone id

structure Ledger (s : WriteQueue) : Prop where
  nodup : (s.queue ++ s.unforced.map Prod.fst).Nodup
  fresh : ∀ u ∈ s.unforced, u.1 ∉ s.sent ∧ u.1 ∉ s.finished
  known : ∀ id, ¬ s.enqueues.has id → s.Gone id
  placed : ∀ id place, s.enqueues.get? id = some place → s.Placed id place

/-- A force fails only while the entries of the enqueues under way are unforced. -/
def FailsUncovered (s : WriteQueue) : QueueEvent → Prop
  | .forced false => ∀ id mark, s.enqueues.get? id = some (.inForce mark) → mark.epoch = s.epoch →
      id ∈ s.unforced.map Prod.fst
  | _ => True

/-- A step that adds no entry anywhere, and drops none of those that are accepted or unforced. -/
lemma Ledger.same (h : s.Ledger) (hepoch : s'.epoch = s.epoch)
    (hunforced : s'.unforced = s.unforced) (hqueue : s'.queue = s.queue)
    (hfinished : s'.finished = s.finished) (hsent : s'.sent = s.sent)
    (henqueues : s'.enqueues = s.enqueues)
    (hjournal : ∀ id, id ∉ putIds s.journal → id ∉ putIds s'.journal) : s'.Ledger := by
  have hgone : ∀ id, s.Gone id → s'.Gone id := by
    intro id hid
    exact ⟨hjournal id hid.journal, hqueue ▸ hid.queue, hunforced ▸ hid.unforced, hsent ▸ hid.sent,
      hfinished ▸ hid.finished⟩
  have haccepted : ∀ id, s.Accepted id → s'.Accepted id := by
    intro id hid
    rw [Accepted, hqueue, hfinished]
    exact hid
  refine ⟨?_, ?_, fun id hid => hgone id (h.known id (henqueues ▸ hid)), fun id place hid => ?_⟩
  · rw [hqueue, hunforced]
    exact h.nodup
  · rw [hunforced, hsent, hfinished]
    exact h.fresh
  · have hplaced := h.placed id place (henqueues ▸ hid)
    cases place with
    | inForce mark =>
      rw [Placed, hepoch, hunforced]
      exact ⟨hplaced.1, fun hmark => (hplaced.2.1 hmark).imp_right (haccepted id),
        fun hmark => hgone id (hplaced.2.2 hmark)⟩
    | returned => exact haccepted id hplaced
    | threw => exact hgone id hplaced

/-- An enqueue comes to its end, or starts. -/
lemma Ledger.setPlace (h : s.Ledger) {id : ℕ} {place : EnqueuePlace} (hplace : s.Placed id place) :
    Ledger { s with enqueues := s.enqueues.set id place } where
  nodup := h.nodup
  fresh := h.fresh
  known id' hid' := by
    have hgone : s.Gone id' := by
      refine h.known id' fun hhas => hid' ?_
      rw [Dict.has_iff] at hhas ⊢
      exact Dict.mem_keys_set.mpr (.inr hhas)
    exact ⟨hgone.journal, hgone.queue, hgone.unforced, hgone.sent, hgone.finished⟩
  placed id' place' hid' := by
    have hsame : s.Placed id' place' := by
      rw [Dict.get?_set] at hid'
      split_ifs at hid' with hids
      · cases hid'
        rw [hids]
        exact hplace
      · exact h.placed id' place' hid'
    cases place' with
    | inForce mark =>
      exact ⟨hsame.1, hsame.2.1, fun hmark => ⟨(hsame.2.2 hmark).journal, (hsame.2.2 hmark).queue,
        (hsame.2.2 hmark).unforced, (hsame.2.2 hmark).sent, (hsame.2.2 hmark).finished⟩⟩
    | returned => exact hsame
    | threw => exact ⟨hsame.journal, hsame.queue, hsame.unforced, hsame.sent, hsame.finished⟩

/-- An entry that is nowhere is not among the ones that are somewhere. -/
lemma Gone.ne {id id' : ℕ} (h : s.Gone id) (hid' : id' ∈ s.queue ∨ id' ∈ s.unforced.map Prod.fst) :
    id ≠ id' := by
  rintro rfl
  exact hid'.elim h.queue h.unforced

/-- The put record of a new entry is written. -/
lemma Ledger.enqueue (h : s.Ledger) {id : ℕ} (hnew : ¬ s.enqueues.has id) :
    Ledger { s.write jsonBytes (.put id) with
      unforced := s.unforced ++ [(id, (s.write jsonBytes (.put id)).written)]
      enqueues := s.enqueues.set id
        (.inForce ⟨(s.write jsonBytes (.put id)).written, s.epoch⟩) } := by
  have hfresh := h.known id hnew
  have hgone : ∀ id', id' ≠ id → s.Gone id' → Gone { s.write jsonBytes (.put id) with
      unforced := s.unforced ++ [(id, (s.write jsonBytes (.put id)).written)]
      enqueues := s.enqueues.set id
        (.inForce ⟨(s.write jsonBytes (.put id)).written, s.epoch⟩) } id' := by
    intro id' hne hid'
    refine ⟨?_, hid'.queue, ?_, hid'.sent, hid'.finished⟩
    · change id' ∉ putIds (s.journal ++ [.put id])
      rw [putIds_append, List.mem_append, not_or]
      exact ⟨hid'.journal, fun hmem => hne (List.mem_singleton.mp hmem)⟩
    · rw [List.map_append, List.mem_append, not_or]
      exact ⟨hid'.unforced, fun hmem => hne (List.mem_singleton.mp hmem)⟩
  refine ⟨?_, fun u hu => ?_, fun id' hid' => ?_, fun id' place hid' => ?_⟩
  · change (s.queue ++ (s.unforced ++ [_]).map Prod.fst).Nodup
    rw [List.map_append, ← List.append_assoc]
    refine List.Nodup.append h.nodup (List.nodup_singleton _) ?_
    rw [List.map_singleton, List.disjoint_singleton, List.mem_append, not_or]
    exact ⟨hfresh.queue, hfresh.unforced⟩
  · rcases List.mem_append.mp hu with hu | hu
    · exact h.fresh u hu
    · rw [List.mem_singleton.mp hu]
      exact ⟨hfresh.sent, hfresh.finished⟩
  · have hold : ¬ s.enqueues.has id' ∧ id' ≠ id := by
      rw [Dict.has_iff, Dict.mem_keys_set, not_or] at hid'
      rw [Dict.has_iff]
      exact ⟨hid'.2, hid'.1⟩
    exact hgone id' hold.2 (h.known id' hold.1)
  · rw [Dict.get?_set] at hid'
    split_ifs at hid' with hids
    · cases hid'
      rw [hids]
      exact ⟨Nat.le_refl _, fun _ => .inl (List.mem_append_right _ (List.mem_singleton_self _)),
        fun hmark => absurd rfl hmark⟩
    · have hplaced := h.placed id' place hid'
      cases place with
      | inForce mark =>
        exact ⟨hplaced.1, fun hmark => (hplaced.2.1 hmark).imp_left (List.mem_append_left _),
          fun hmark => hgone id' hids (hplaced.2.2 hmark)⟩
      | returned => exact hplaced
      | threw => exact hgone id' hids hplaced

/-- Unforced entries join the queue. -/
lemma Ledger.cover (h : s.Ledger) {moved : List ℕ} {left : List (ℕ × ℕ)} {target : ℕ}
    (hsplit : s.unforced.map Prod.fst = moved ++ left.map Prod.fst)
    (hmember : ∀ u ∈ s.unforced, u.1 ∈ moved ∨ u ∈ left)
    (hsub : ∀ u ∈ left, u ∈ s.unforced)
    (hqueue : (s.cover jsonBytes target).queue = s.queue ++ moved)
    (hunforced : (s.cover jsonBytes target).unforced = left) :
    Ledger { s.cover jsonBytes target with forcing := none } := by
  have hgone : ∀ id, s.Gone id → Gone { s.cover jsonBytes target with forcing := none } id := by
    intro id hid
    have hnot := hid.unforced
    rw [hsplit, List.mem_append, not_or] at hnot
    refine ⟨hid.journal, ?_, ?_, hid.sent, hid.finished⟩
    · change id ∉ (s.cover jsonBytes target).queue
      rw [hqueue, List.mem_append, not_or]
      exact ⟨hid.queue, hnot.1⟩
    · change id ∉ (s.cover jsonBytes target).unforced.map Prod.fst
      rw [hunforced]
      exact hnot.2
  have haccepted : ∀ id, s.Accepted id →
      Accepted { s.cover jsonBytes target with forcing := none } id := by
    intro id hid
    refine hid.imp_left fun hmem => ?_
    change id ∈ (s.cover jsonBytes target).queue
    rw [hqueue]
    exact List.mem_append_left _ hmem
  refine ⟨?_, fun u hu => ?_, fun id hid => hgone id (h.known id hid), fun id place hid => ?_⟩
  · change ((s.cover jsonBytes target).queue ++
      (s.cover jsonBytes target).unforced.map Prod.fst).Nodup
    rw [hqueue, hunforced, List.append_assoc, ← hsplit]
    exact h.nodup
  · change u ∈ (s.cover jsonBytes target).unforced at hu
    rw [hunforced] at hu
    exact h.fresh u (hsub u hu)
  · have hplaced := h.placed id place hid
    cases place with
    | inForce mark =>
      refine ⟨hplaced.1, fun hmark => ?_, fun hmark => hgone id (hplaced.2.2 hmark)⟩
      rcases hplaced.2.1 hmark with hmem | hid
      · rcases hmember _ hmem with hmoved | hleft
        · refine .inr (.inl ?_)
          change id ∈ (s.cover jsonBytes target).queue
          rw [hqueue]
          exact List.mem_append_right _ hmoved
        · refine .inl ?_
          change _ ∈ (s.cover jsonBytes target).unforced
          rw [hunforced]
          exact hleft
      · exact .inr (haccepted id hid)
    | returned => exact haccepted id hplaced
    | threw => exact hgone id hplaced

/-- A force fails while the entries of the enqueues under way are unforced. -/
lemma Ledger.rollBack (h : s.Ledger)
    (huncovered : s.FailsUncovered (.forced false))
    (hjournal : ∀ id, (id ∈ s.unforced.map Prod.fst ∨ id ∉ putIds s.journal) →
      id ∉ putIds (s.rollBack jsonBytes).journal) :
    Ledger { s.rollBack jsonBytes with forcing := none } := by
  have hgone : ∀ id, s.Gone id → Gone { s.rollBack jsonBytes with forcing := none } id := by
    intro id hid
    exact ⟨hjournal id (.inr hid.journal), hid.queue, List.not_mem_nil, hid.sent, hid.finished⟩
  refine ⟨?_, fun _ hu => (by cases hu), fun id hid => hgone id (h.known id hid),
    fun id place hid => ?_⟩
  · change (s.queue ++ []).Nodup
    rw [List.append_nil]
    exact (List.nodup_append.mp h.nodup).1
  · have hplaced := h.placed id place hid
    cases place with
    | inForce mark =>
      refine ⟨Nat.le_succ_of_le hplaced.1, fun hmark => ?_, fun _ => ?_⟩
      · have hpast := hplaced.1
        change mark.epoch = s.epoch + 1 at hmark
        omega
      · by_cases hmark : mark.epoch = s.epoch
        · have hunforced := huncovered id mark hid hmark
          obtain ⟨u, hu, rfl⟩ := List.mem_map.mp hunforced
          have hfresh := h.fresh u hu
          refine ⟨hjournal u.1 (.inl hunforced), fun hqueue => ?_, List.not_mem_nil, hfresh.1,
            hfresh.2⟩
          exact List.disjoint_of_nodup_append h.nodup hqueue hunforced
        · exact hgone id (hplaced.2.2 hmark)
    | returned => exact hplaced
    | threw => exact hgone id hplaced

/-- The head of the queue is sent. -/
lemma Ledger.send (h : s.Ledger) {head : ℕ} {rest : List ℕ} (hqueue : s.queue = head :: rest)
    (drain : DrainPlace) : Ledger { s with drain := drain, sent := s.sent ++ [head] } := by
  have hhead : head ∈ s.queue := hqueue ▸ List.mem_cons_self
  have hgone : ∀ id, s.Gone id → Gone { s with drain := drain, sent := s.sent ++ [head] } id := by
    intro id hid
    refine ⟨hid.journal, hid.queue, hid.unforced, ?_, hid.finished⟩
    rw [List.mem_append, not_or]
    exact ⟨hid.sent, fun hmem => hid.ne (.inl hhead) (List.mem_singleton.mp hmem)⟩
  refine ⟨h.nodup, fun u hu => ⟨?_, (h.fresh u hu).2⟩, fun id hid => hgone id (h.known id hid),
    fun id place hid => ?_⟩
  · rw [List.mem_append, not_or]
    refine ⟨(h.fresh u hu).1, fun hmem => ?_⟩
    have hsame : u.1 = head := List.mem_singleton.mp hmem
    exact List.disjoint_of_nodup_append h.nodup hhead (hsame ▸ List.mem_map_of_mem hu)
  · have hplaced := h.placed id place hid
    cases place with
    | inForce mark => exact ⟨hplaced.1, hplaced.2.1, fun hmark => hgone id (hplaced.2.2 hmark)⟩
    | returned => exact hplaced
    | threw => exact hgone id hplaced

/-- The head of the queue is finished. -/
lemma Ledger.poll (h : s.Ledger) : s.poll.Ledger := by
  have hhead : ∀ id ∈ s.queue.head?.toList, id ∈ s.queue := by
    intro id hid
    exact List.mem_of_mem_head? (Option.mem_toList.mp hid)
  have hgone : ∀ id, s.Gone id → s.poll.Gone id := by
    intro id hid
    refine ⟨hid.journal, fun hmem => hid.queue (List.mem_of_mem_tail hmem), hid.unforced, hid.sent, ?_⟩
    change id ∉ s.finished ++ s.queue.head?.toList
    rw [List.mem_append, not_or]
    exact ⟨hid.finished, fun hmem => hid.queue (hhead id hmem)⟩
  have haccepted : ∀ id, s.Accepted id → s.poll.Accepted id := by
    rintro id (hid | hid)
    · cases hqueue : s.queue with
      | nil => rw [hqueue] at hid; cases hid
      | cons head rest =>
        rw [hqueue] at hid
        change id ∈ s.queue.tail ∨ id ∈ s.finished ++ s.queue.head?.toList
        rw [hqueue]
        rcases List.mem_cons.mp hid with rfl | hid
        · exact .inr (List.mem_append_right _ (List.mem_singleton_self _))
        · exact .inl hid
    · exact .inr (List.mem_append_left _ hid)
  refine ⟨?_, fun u hu => ⟨(h.fresh u hu).1, ?_⟩, fun id hid => hgone id (h.known id hid),
    fun id place hid => ?_⟩
  · exact h.nodup.sublist ((List.tail_sublist _).append_right _)
  · change u.1 ∉ s.finished ++ s.queue.head?.toList
    rw [List.mem_append, not_or]
    refine ⟨(h.fresh u hu).2, fun hmem => ?_⟩
    exact List.disjoint_of_nodup_append h.nodup (hhead _ hmem) (List.mem_map_of_mem hu)
  · have hplaced := h.placed id place hid
    cases place with
    | inForce mark =>
      exact ⟨hplaced.1, fun hmark => (hplaced.2.1 hmark).imp_right (haccepted id),
        fun hmark => hgone id (hplaced.2.2 hmark)⟩
    | returned => exact haccepted id hplaced
    | threw => exact hgone id hplaced

/-! ### Steps -/

variable (jsonBytes) in
structure Good (s : WriteQueue) : Prop where
  files : s.Files jsonBytes
  ledger : s.Ledger

/-- An enqueue looks at a force that is over, or starts one. -/
lemma Good.lookEnqueue (h : s.Good jsonBytes) {id : ℕ} {mark : Mark}
    (hid : s.enqueues.get? id = some (.inForce mark)) :
    (s.lookEnqueue id mark).Good jsonBytes := by
  have hplaced := h.ledger.placed id _ hid
  have hsettled : ∀ place, s.Placed id place →
      Good jsonBytes { s with enqueues := s.enqueues.set id place } := fun place hplace =>
    ⟨h.files.same ⟨rfl, rfl, rfl, rfl, rfl, rfl⟩ (List.Subset.refl _) fun _ hf => .inl hf,
      h.ledger.setPlace hplace⟩
  have hnotYet : (id, mark.endAt) ∈ s.unforced → s.durable < mark.endAt := by
    intro hmem
    cases hopen : s.channel with
    | false =>
      rw [(h.files.closed hopen).1] at hmem
      cases hmem
    | true =>
      obtain ⟨kept, pending, hl⟩ := h.files.layout hopen
      rw [hl.unforced] at hmem
      exact (putEnds_bounds hmem).1
  rw [WriteQueue.lookEnqueue]
  split
  · rename_i hverdict
    refine hsettled .threw (hplaced.2.2 fun hmark => ?_)
    rw [verdict, if_neg (not_not.mpr hmark.symm)] at hverdict
    split_ifs at hverdict
  · rename_i hverdict
    rw [verdict] at hverdict
    split_ifs at hverdict with hmark hle
    refine hsettled .returned ?_
    rcases hplaced.2.1 (not_not.mp hmark).symm with hmem | haccepted
    · have hlt := hnotYet hmem
      omega
    · exact haccepted
  · exact h
  · refine ⟨h.files.same ⟨rfl, rfl, rfl, rfl, rfl, rfl⟩ (List.Subset.refl _) ?_,
      h.ledger.same rfl rfl rfl rfl rfl rfl fun _ h => h⟩
    rintro f ⟨⟩
    exact .inr rfl

/-- A step of the drain that leaves the file and the entries alone. -/
lemma Good.setDrain (h : s.Good jsonBytes) (drain : DrainPlace) :
    Good jsonBytes { s with drain := drain } :=
  ⟨h.files.same ⟨rfl, rfl, rfl, rfl, rfl, rfl⟩ (List.Subset.refl _) fun _ hf => .inl hf,
    h.ledger.same rfl rfl rfl rfl rfl rfl fun _ h => h⟩

lemma Good.lookDrain (h : s.Good jsonBytes) (mark : Mark) : (s.lookDrain mark).Good jsonBytes := by
  rw [WriteQueue.lookDrain]
  split
  · exact h.setDrain _
  · exact h.setDrain _
  · exact h
  · refine ⟨h.files.same ⟨rfl, rfl, rfl, rfl, rfl, rfl⟩ (List.Subset.refl _) ?_,
      h.ledger.same rfl rfl rfl rfl rfl rfl fun _ h => h⟩
    rintro f ⟨⟩
    exact .inr rfl

lemma Good.cover (h : s.Good jsonBytes) (hopen : s.channel = true) {f : Force}
    (hf : s.forcing = some f) :
    Good jsonBytes { s.cover jsonBytes f.target with forcing := none } := by
  obtain ⟨kept, pending, hl⟩ := h.files.layout hopen
  obtain ⟨more, rest, hpending, htarget, hqueue, hunforced, hfiles⟩ :=
    hl.cover hopen hf (List.nodup_append.mp h.ledger.nodup).2.1
  have hall : s.unforced = putEnds jsonBytes s.durable more ++ putEnds jsonBytes f.target rest := by
    rw [hl.unforced, hpending, putEnds_append, htarget]
  refine ⟨hfiles, @Ledger.cover _ _ h.ledger (putIds more) (putEnds jsonBytes f.target rest) _
    ?_ ?_ ?_ hqueue hunforced⟩
  · rw [hall, List.map_append, map_fst_putEnds]
  · intro u hu
    rw [hall] at hu
    refine (List.mem_append.mp hu).imp_left fun hu => ?_
    rw [← @map_fst_putEnds jsonBytes s.durable]
    exact List.mem_map_of_mem hu
  · intro u hu
    rw [hall]
    exact List.mem_append_right _ hu

lemma Good.rollBack (h : s.Good jsonBytes) (huncovered : s.FailsUncovered (.forced false)) :
    Good jsonBytes { s.rollBack jsonBytes with forcing := none } := by
  refine ⟨h.files.rollBack, h.ledger.rollBack huncovered fun id hid => ?_⟩
  cases hopen : s.channel with
  | false =>
    rw [(h.files.closed hopen).1] at hid
    rw [WriteQueue.rollBack, hopen]
    exact hid.resolve_left List.not_mem_nil
  | true =>
    obtain ⟨kept, pending, hl⟩ := h.files.layout hopen
    rw [hl.rollBack hopen]
    rcases hid with hid | hid
    · obtain ⟨u, hu, rfl⟩ := List.mem_map.mp hid
      exact hl.new u hu
    · rw [hl.journal, putIds_append, List.mem_append, not_or] at hid
      exact hid.1

/-- The end of an entry, with or without a compaction. -/
lemma Good.complete (h : s.Good jsonBytes) (c : Compaction) : Good jsonBytes
    (if s.poll.compacts compactThreshold then s.poll.rewrite jsonBytes c else s.poll) := by
  have hpoll : s.poll.Good jsonBytes :=
    ⟨h.files.same ⟨rfl, rfl, rfl, rfl, rfl, rfl⟩ (List.tail_subset _) fun _ hf => .inl hf,
      h.ledger.poll⟩
  split_ifs with hcompacts
  · rw [compacts, Bool.and_eq_true, Bool.and_eq_true, Option.isNone_iff_eq_none,
      List.isEmpty_iff] at hcompacts
    obtain ⟨hepoch, -, hunforced, hqueue, henqueues, hsent, hfinished, -⟩ :=
      @rewrite_frame jsonBytes s.poll c
    refine ⟨hpoll.files.rewrite hcompacts.1.2 hcompacts.2 c,
      hpoll.ledger.same hepoch hunforced hqueue hfinished hsent henqueues fun id hid => ?_⟩
    rw [(rewrite_journal jsonBytes s.poll c).1]
    split_ifs
    · rw [putIds_map_put]
      intro hmem
      cases hopen : s.poll.channel with
      | false => exact hid ((hpoll.files.closed hopen).2.1 id hmem)
      | true =>
        obtain ⟨kept, pending, hl⟩ := hpoll.files.layout hopen
        rw [hl.journal, putIds_append, List.mem_append, not_or] at hid
        exact hid.1 (hl.queue id hmem)
    · exact hid
  · exact hpoll

/-- Every step keeps the invariant, when forces fail only while the entries of the enqueues under way
are unforced. -/
lemma Good.next (h : s.Good jsonBytes) {e : QueueEvent} (huncovered : s.FailsUncovered e)
    (hnext : s.next jsonBytes compactThreshold e = some s') : s'.Good jsonBytes := by
  cases e with
  | enqueue id =>
    rw [WriteQueue.next] at hnext
    split_ifs at hnext with hnew
    cases hnext
    rw [Bool.and_eq_true, Bool.not_eq_true'] at hnew
    have hfresh : ¬ s.enqueues.has id := Bool.eq_false_iff.mp hnew.2
    refine ⟨h.files.append hnew.1 (.put id) ⟨rfl, rfl, rfl, rfl, rfl, rfl, rfl⟩ rfl ?_,
      h.ledger.enqueue hfresh⟩
    intro id' hid'
    rw [List.mem_singleton.mp hid']
    exact (h.ledger.known id hfresh).journal
  | enqueueFails id =>
    rw [WriteQueue.next] at hnext
    split_ifs at hnext with hnew
    cases hnext
    exact ⟨h.files.same ⟨rfl, rfl, rfl, rfl, rfl, rfl⟩ (List.Subset.refl _) fun _ hf => .inl hf,
      @Ledger.setPlace _ h.ledger id .threw (h.ledger.known id hnew)⟩
  | look thread =>
    cases thread with
    | enqueue id =>
      rw [WriteQueue.next] at hnext
      split_ifs at hnext
      split at hnext
      · rename_i hid
        cases hnext
        exact h.lookEnqueue hid
      · cases hnext
    | drain =>
      rw [WriteQueue.next] at hnext
      split_ifs at hnext
      split at hnext
      · cases hnext
        exact h.lookDrain _
      · cases hnext
  | forced ok =>
    rw [WriteQueue.next] at hnext
    split at hnext
    · rename_i f hforcing
      split_ifs at hnext with hclosed hok
      · cases hnext
        subst hok
        rw [Bool.true_and, Bool.not_eq_true', Bool.not_eq_false] at hclosed
        exact h.cover hclosed hforcing
      · cases hnext
        rw [Bool.not_eq_true] at hok
        subst hok
        exact h.rollBack huncovered
    · cases hnext
  | send =>
    rw [WriteQueue.next] at hnext
    split at hnext
    · rename_i head rest _ hqueue
      cases hnext
      exact ⟨h.files.same ⟨rfl, rfl, rfl, rfl, rfl, rfl⟩ (List.Subset.refl _) fun _ hf => .inl hf,
        h.ledger.send hqueue _⟩
    · cases hnext
  | retry =>
    rw [WriteQueue.next] at hnext
    split at hnext
    · cases hnext
      exact h.setDrain _
    · cases hnext
  | settle outcome =>
    rw [WriteQueue.next] at hnext
    split at hnext
    · cases hnext
      exact h.setDrain _
    · cases hnext
  | record ok =>
    rw [WriteQueue.next] at hnext
    split at hnext
    · rename_i head outcome _
      have hrecord : s.channel = true → ∀ done drain, Good jsonBytes
          { s.write jsonBytes (.done head outcome) with doneSinceCompact := done, drain := drain } := by
        intro hopen done drain
        refine ⟨h.files.append hopen (.done head outcome) ⟨rfl, rfl, rfl, rfl, rfl, rfl, rfl⟩
          (List.append_nil _).symm fun _ hid => (by cases hid),
          h.ledger.same rfl rfl rfl rfl rfl rfl fun id hid => ?_⟩
        change id ∉ putIds (s.journal ++ [.done head outcome])
        rw [putIds_append]
        exact fun hmem => hid ((List.mem_append.mp hmem).resolve_right List.not_mem_nil)
      split_ifs at hnext with hok hopen
      · cases hnext
        exact hrecord hopen _ _
      · cases hnext
        exact hrecord hopen _ _
      · cases hnext
        exact h.setDrain _
    · cases hnext
  | complete c =>
    rw [WriteQueue.next] at hnext
    split at hnext
    · cases hnext
      exact h.complete c
    · cases hnext

/-! ### Runs -/

lemma mem_replay {id : ℕ} : id ∈ replay lines ↔ id ∈ putIds lines ∧ id ∉ doneIds lines := by
  rw [replay, List.mem_filter, List.mem_eraseDups, decide_eq_true_eq]

lemma Good.opened (jsonBytes : JournalLine → ℕ) (lines : List JournalLine) (replaced : Bool) :
    (opened jsonBytes lines replaced).Good jsonBytes := by
  have hreplay : ∀ id ∈ replay lines, id ∈ putIds lines := fun id hid => (mem_replay.mp hid).1
  have hqueue : ∀ id ∈ replay lines,
      id ∈ putIds (if replaced then (replay lines).map JournalLine.put else lines) := by
    intro id hid
    split_ifs
    · rw [putIds_map_put]
      exact hid
    · exact hreplay id hid
  have hjournal : ∀ id, id ∉ putIds lines →
      id ∉ putIds (if replaced then (replay lines).map JournalLine.put else lines) := by
    intro id hid
    split_ifs
    · rw [putIds_map_put]
      exact fun hmem => hid (hreplay id hmem)
    · exact hid
  refine ⟨⟨fun _ => ⟨_, [], (List.append_nil _).symm, rfl, rfl, rfl, hqueue, fun _ h => (by cases h),
    List.prefix_refl _, fun _ h => (by cases h)⟩, fun h => (by cases h), hqueue⟩, ?_,
    fun _ h => (by cases h), fun id hid => ?_, fun id place hid => ?_⟩
  · change (replay lines ++ []).Nodup
    rw [List.append_nil]
    exact (nodup_eraseDups _).filter _
  · have hnot : id ∉ putIds lines := by
      intro hmem
      refine hid (Dict.has_iff.mpr (Dict.mem_keys_iff.mpr ⟨.returned, ?_⟩))
      change (Dict.ofList ((putIds lines).map fun id => (id, EnqueuePlace.returned))).get? id = _
      rw [Dict.get?_ofList_map, if_pos (by rw [List.map_id']; exact hmem)]
    exact ⟨hjournal id hnot, fun hmem => hnot (hreplay id hmem), List.not_mem_nil, List.not_mem_nil,
      fun hmem => hnot (List.mem_filter.mp hmem).1⟩
  · obtain ⟨rfl, hput⟩ := get?_opened hid
    by_cases hdone : id ∈ doneIds lines
    · exact .inr (List.mem_filter.mpr ⟨hput, decide_eq_true hdone⟩)
    · exact .inl (mem_replay.mpr ⟨hput, hdone⟩)

/-- In a run of an opened queue in which forces fail only while the entries of the enqueues under way
are unforced: an enqueue that throws leaves no entry, in the queue, among the sent ones or in any
part of the journal that the disk may hold; and an enqueue that returns has its entry queued, with
its record on disk, or finished. -/
theorem enqueue_decided {jsonBytes : JournalLine → ℕ} {compactThreshold : ℕ}
    {lines : List JournalLine} {replaced : Bool} {events : List QueueEvent} {s : WriteQueue}
    (hrun : (opened jsonBytes lines replaced).run jsonBytes compactThreshold events = some s)
    (huncovered : ∀ before e after s₁, events = before ++ e :: after →
      (opened jsonBytes lines replaced).run jsonBytes compactThreshold before = some s₁ →
      s₁.FailsUncovered e) :
    (∀ id, s.enqueues.get? id = some .threw →
      id ∉ s.queue ∧ id ∉ s.unforced.map Prod.fst ∧ id ∉ s.sent ∧ id ∉ putIds s.journal ∧
        ∀ disk, disk <+: s.journal → id ∉ replay disk) ∧
    (∀ id, s.enqueues.get? id = some .returned →
      (id ∈ s.queue ∧ id ∈ putIds s.onDisk) ∨ id ∈ s.finished) ∧ s.onDisk <+: s.journal := by
  have hgood : s.Good jsonBytes := runSteps_invariant_of
    (fun s₁ e s₂ hs huncovered hnext => hs.next huncovered hnext)
    (Good.opened jsonBytes lines replaced) hrun huncovered
  refine ⟨fun id hid => ?_, fun id hid => ?_, ?_⟩
  · have hgone : s.Gone id := hgood.ledger.placed id _ hid
    refine ⟨hgone.queue, hgone.unforced, hgone.sent, hgone.journal, fun disk hdisk hmem => ?_⟩
    obtain ⟨rest, hrest⟩ := hdisk
    refine hgone.journal ?_
    rw [← hrest, putIds_append]
    exact List.mem_append_left _ (mem_replay.mp hmem).1
  · have haccepted : s.Accepted id := hgood.ledger.placed id _ hid
    exact haccepted.imp_left fun hqueue => ⟨hqueue, hgood.files.onDisk id hqueue⟩
  · cases hopen : s.channel with
    | false => exact (hgood.files.closed hopen).2.2
    | true =>
      obtain ⟨kept, pending, hl⟩ := hgood.files.layout hopen
      rw [hl.journal]
      exact hl.disk.trans (List.prefix_append _ _)

end Machine

/-- One enqueue returns, another's write fails. -/
def enqueueAndFailure : List QueueEvent :=
  [.enqueue 1, .enqueueFails 2, .look (.enqueue 1), .forced true, .look (.enqueue 1)]

lemma failsUncovered_enqueueAndFailure {before after : List QueueEvent} {e : QueueEvent}
    (s : WriteQueue) (h : enqueueAndFailure = before ++ e :: after) : s.FailsUncovered e := by
  have hmem : e ∈ enqueueAndFailure := h ▸ List.mem_append_right _ List.mem_cons_self
  simp only [enqueueAndFailure, List.mem_cons, List.not_mem_nil, or_false] at hmem
  rcases hmem with rfl | rfl | rfl | rfl | rfl <;> trivial

/-- The first is queued on disk, the second is nowhere. -/
theorem enqueue_decided_failure : ∃ s, (opened (fun _ => 20) [] true).run (fun _ => 20) 1000
    enqueueAndFailure = some s ∧ ((1 ∈ s.queue ∧ 1 ∈ putIds s.onDisk) ∨ 1 ∈ s.finished) ∧
      2 ∉ s.queue ∧ 2 ∉ putIds s.journal := by
  have hrun : ((opened (fun _ => 20) [] true).run (fun _ => 20) 1000 enqueueAndFailure).map
      (fun s => (s.enqueues.get? 1, s.enqueues.get? 2)) = some (some .returned, some .threw) := by
    decide
  obtain ⟨s, hs, hplaces⟩ := Option.map_eq_some_iff.mp hrun
  rw [Prod.mk.injEq] at hplaces
  obtain ⟨hthrew, hreturned, -⟩ := enqueue_decided hs
    fun before e after s₁ hsplit _ => failsUncovered_enqueueAndFailure s₁ hsplit
  obtain ⟨hqueue, -, -, hjournal, -⟩ := hthrew 2 hplaces.2
  exact ⟨s, hs, hreturned 1 hplaces.1, hqueue, hjournal⟩

/-- A force fails after another covered the first enqueue, which has not looked yet. -/
def failureBeforeLook : List QueueEvent :=
  [.enqueue 1, .enqueue 2, .look (.enqueue 2), .forced true, .enqueue 3, .look (.enqueue 3),
    .forced false, .look (.enqueue 1), .send]

/-- The enqueue throws, and its entry is on disk and sent. -/
theorem covered_enqueue_throws : ∃ s, (opened (fun _ => 20) [] true).run (fun _ => 20) 1000
    failureBeforeLook = some s ∧ s.enqueues.get? 1 = some .threw ∧ 1 ∈ s.queue ∧ 1 ∈ s.sent ∧
      1 ∈ replay s.onDisk := by
  have hrun : ((opened (fun _ => 20) [] true).run (fun _ => 20) 1000 failureBeforeLook).map
      (fun s => (s.enqueues.get? 1, decide (1 ∈ s.queue), decide (1 ∈ s.sent),
        decide (1 ∈ replay s.onDisk))) = some (some .threw, true, true, true) := by
    decide
  obtain ⟨s, hs, hstate⟩ := Option.map_eq_some_iff.mp hrun
  simp only [Prod.mk.injEq, decide_eq_true_eq] at hstate
  exact ⟨s, hs, hstate⟩

end WriteQueue

end Junjo.Sdk
