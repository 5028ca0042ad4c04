import Junjo.Mirror.Applier

/-!
# The published position

The reloads that events asked for and that have not been answered since, read off the record of a
run. While no read that an event waits for fails, they are the deferred ones, and the published and
the saved position stay below them.
-/

namespace Junjo.Mirror

/-- A full load reads everything but the members. -/
def Target.answers (t other : Target) : Bool :=
  match t, other with
  | .everything, .member _ => false
  | .everything, _ => true
  | t, other => decide (t = other)

def Target.inGroup (groupId : Text) : Target → Bool
  | .graph id => decide (id = groupId)
  | .member key => decide (key.groupId = groupId)
  | _ => false

/-- The reloads asked for, with the position of the event that asked, and not answered since. A
member that is not tracked any more needs none, and neither does a dropped group. -/
def owed : List Mark → List (ℕ × Target)
  | [] => []
  | .asked position target :: log => (position, target) :: owed log
  | .answered target :: log => (owed log).filter fun x => !target.answers x.2
  | .loaded _ key _ :: log => (owed log).filter fun x => x.2 ≠ .member key
  | .untracked key :: log => (owed log).filter fun x => x.2 ≠ .member key
  | .dropped groupId :: log => (owed log).filter fun x => !x.2.inGroup groupId
  | .applied _ _ _ :: log => owed log
  | .resolved _ _ :: log => owed log
  | .tracked _ _ _ _ _ :: log => owed log
  | .retained _ _ _ :: log => owed log

/-- Every event at or below the position has had the reloads it asked for. -/
def Covers (position : Option ℕ) (log : List Mark) : Prop :=
  ∀ x ∈ owed log, ∀ q ∈ position, q < x.1

/-! ### Reads that succeed -/

/-- No read of a member's access fails. -/
structure Reads.MembersSucceed (r : Reads) : Prop where
  access : ∀ key, r.access key ≠ .failed
  accessMany : ∀ groupId ids, r.accessMany groupId ids ≠ .failed

/-- No read of a graph, an access, a ban, sanctions or a list fails. -/
structure Reads.Succeed (r : Reads) : Prop extends r.MembersSucceed where
  graph : ∀ groupId, r.graph groupId ≠ .failed
  ban : ∀ userId, r.ban userId ≠ none
  sanctions : ∀ userId, r.sanctions userId ≠ none
  bans : r.bans ≠ none
  sanctionList : r.sanctionList ≠ none

/-- No read of an event's turn or of a resync fails, and no read of a member that a full load at a
start carries over. -/
def Step.Succeeds : Step → Prop
  | .turn t =>
    match t.task with
    | .event _ _ => t.reads.Succeed
    | .resync _ => t.reads.Succeed
    | .start => t.reads.MembersSucceed ∧ t.again.MembersSucceed
    | _ => True
  | .restart _ _ _ _ => True

/-- What the mirror holds. -/
def State.Holds (s : State) : Target → Prop
  | .graph groupId => groupId ∈ s.groups.keys
  | .member key => key ∈ s.members.keys
  | _ => True

/-- The position is the same, and nothing is dropped. -/
structure State.Keeps (s s' : State) : Prop where
  position : s'.position = s.position
  holds : ∀ t, s.Holds t → s'.Holds t

namespace State.Keeps

variable {s s' s'' : State}

lemma refl (s : State) : s.Keeps s := ⟨rfl, fun _ => id⟩

lemma trans (h : s.Keeps s') (h' : s'.Keeps s'') : s.Keeps s'' :=
  ⟨h'.position.trans h.position, fun t ht => h'.holds t (h.holds t ht)⟩

lemma of_eq (hposition : s'.position = s.position) (hgroups : s'.groups = s.groups)
    (hmembers : s'.members = s.members) : s.Keeps s' := by
  refine ⟨hposition, fun t ht => ?_⟩
  cases t with
  | graph groupId => rwa [State.Holds, hgroups]
  | member key => rwa [State.Holds, hmembers]
  | _ => exact ht

lemma foldl {α : Type} {f : State → α → State}
    (hf : ∀ (s : State) x, s.Keeps (f s x)) (l : List α)
    (s : State) : s.Keeps (l.foldl f s) := by
  induction l generalizing s with
  | nil => exact refl s
  | cons x l ih => exact (hf s x).trans (ih (f s x))

lemma withPerson (s : State) (p : Person) : s.Keeps (s.withPerson p) := of_eq rfl rfl rfl

lemma withRendered (s : State) (id : Text) : s.Keeps (s.withRendered id) :=
  of_eq (by simp) (by simp) (by simp)

lemma withMember (s : State) (key : MemberKey) (entry : MemberEntry) :
    s.Keeps (s.withMember key entry) := by
  refine ⟨rfl, fun t ht => ?_⟩
  cases t with
  | member k => exact Dict.mem_keys_set.mpr (.inr ht)
  | _ => exact ht

lemma withRetainedMember (s : State) (keys : List MemberKey) (key : MemberKey)
    (entry : MemberEntry) : s.Keeps ((s.withoutRetained keys).withMember key entry) :=
  (of_eq rfl rfl rfl : s.Keeps (s.withoutRetained keys)).trans (withMember _ key entry)

lemma withGroup (s : State) (groupId : Text) (g : Sdk.GroupState) :
    s.Keeps (s.withGroup groupId g) := by
  refine ⟨rfl, fun t ht => ?_⟩
  cases t with
  | graph id => exact Dict.mem_keys_set.mpr (.inr ht)
  | _ => exact ht

lemma recompiled (override : Option Sdk.ContextInheritance) (s : State) :
    s.Keeps (Applier.recompiled override s) := by
  refine ⟨rfl, fun t ht => ?_⟩
  cases t with
  | graph groupId => simpa [State.Holds, Applier.recompiled] using ht
  | _ => exact ht

lemma withServerContexts (override : Option Sdk.ContextInheritance) (s : State)
    (next : Sdk.ContextInheritance) : s.Keeps (Applier.withServerContexts override s next) := by
  unfold Applier.withServerContexts
  split_ifs
  · exact refl s
  · exact of_eq rfl rfl rfl
  · exact (of_eq rfl rfl rfl : s.Keeps (s.withContexts next)).trans (recompiled override _)

lemma putLoaded (s : State) (key : MemberKey) (entry : MemberEntry) :
    s.Keeps (Applier.putLoaded s key entry) := by
  unfold Applier.putLoaded
  refine (withMember s key entry).trans ?_
  cases entry.access with
  | none => exact of_eq rfl rfl rfl
  | some access =>
    refine trans ?_ ((withRendered _ access.userId).trans (of_eq rfl rfl rfl))
    split_ifs
    · exact refl _
    · exact withPerson _ _

lemma applyBan (s : State) (userId : Text) (version : ℕ) (ban : Option Ban) :
    s.Keeps (s.applyBan userId version ban) := by
  unfold State.applyBan
  split_ifs
  · exact refl s
  · exact (of_eq rfl rfl rfl : s.Keeps (s.withBan userId ban version)).trans (withRendered _ userId)

lemma applySanction (s : State) (userId type : Text) (version : ℕ)
    (event : Option (ℤ × Option ℤ × Option Text)) :
    s.Keeps (s.applySanction userId type version event) := by
  unfold State.applySanction
  split_ifs
  · exact refl s
  · exact (of_eq rfl rfl rfl : s.Keeps (s.withSanctions _)).trans (withRendered _ userId)

end State.Keeps

namespace Applier

variable {a b c : Applier} {r : Reads}

/-- What is still deferred. -/
def Defers (a : Applier) : Target → Prop
  | .graph groupId => groupId ∈ a.deferredGroups
  | .member key => key ∈ a.deferredMembers
  | _ => False

/-! ### Reloads -/

/-- What reloads leave alone. -/
def deferral (a : Applier) : List Text × List MemberKey × Option ℕ :=
  (a.deferredGroups, a.deferredMembers, a.deferredPosition)

def stream (a : Applier) : Bool × Bool × ℕ × Bool × Option (State × List Mark) :=
  (a.starting, a.subscribed, a.streamAt, a.nextIsEvent, a.file)

/-- Reloads ask for nothing, and drop nothing that is still asked for. -/
structure Reloaded (a b : Applier) : Prop where
  position : b.state.position = a.state.position
  deferral : b.deferral = a.deferral
  stream : b.stream = a.stream
  later : ∀ p, .resync p ∈ b.later → .resync p ∈ a.later
  still : ∀ x ∈ owed b.log, x ∈ owed a.log ∧ (a.state.Holds x.2 → b.state.Holds x.2)

namespace Reloaded

lemma refl (a : Applier) : Reloaded a a :=
  ⟨rfl, rfl, rfl, fun _ h => h, fun _ hx => ⟨hx, id⟩⟩

lemma trans (h : Reloaded a b) (h' : Reloaded b c) : Reloaded a c where
  position := h'.position.trans h.position
  deferral := h'.deferral.trans h.deferral
  stream := h'.stream.trans h.stream
  later p hp := h.later p (h'.later p hp)
  still x hx := by
    obtain ⟨hb, hheld'⟩ := h'.still x hx
    obtain ⟨ha, hheld⟩ := h.still x hb
    exact ⟨ha, hheld' ∘ hheld⟩

lemma foldl {α : Type} {f : Applier → α → Applier} (hf : ∀ a x, Reloaded a (f a x)) (l : List α)
    (a : Applier) : Reloaded a (l.foldl f a) := by
  induction l generalizing a with
  | nil => exact refl a
  | cons x l ih => exact (hf a x).trans (ih (f a x))

lemma withState {s : State} (h : a.state.Keeps s) : Reloaded a (a.withState s) :=
  ⟨h.position, rfl, rfl, fun _ h => h, fun x hx => ⟨hx, h.holds x.2⟩⟩

lemma retryLater {task : Later} (htask : ∀ p, task ≠ .resync p) :
    Reloaded a (a.retryLater task) := by
  refine ⟨rfl, rfl, rfl, fun p hp => ?_, fun x hx => ⟨hx, id⟩⟩
  rcases List.mem_append.mp hp with h | h
  · exact h
  · exact absurd (List.mem_singleton.mp h).symm (htask p)

end Reloaded

/-- Reloads by which some of the targets that are held are not owed any more. -/
structure Clears (a b : Applier) (T : Target → Prop) : Prop extends Reloaded a b where
  cleared : ∀ x ∈ owed b.log, a.state.Holds x.2 → ¬T x.2

namespace Clears

variable {T T' : Target → Prop}

lemma of_reloaded (h : Reloaded a b) (hT : ∀ t, ¬T t) : Clears a b T :=
  ⟨h, fun x _ _ => hT x.2⟩

lemma mono (h : Clears a b T) (hT : ∀ t, a.state.Holds t → T' t → T t) : Clears a b T' :=
  ⟨h.toReloaded, fun x hx hheld hT' => h.cleared x hx hheld (hT x.2 hheld hT')⟩

lemma trans (h : Clears a b T) (h' : Clears b c T') : Clears a c fun t => T t ∨ T' t := by
  refine ⟨h.toReloaded.trans h'.toReloaded, fun x hx hheld hT => ?_⟩
  obtain ⟨hb, -⟩ := h'.still x hx
  rcases hT with hT | hT
  · exact h.cleared x hb hheld hT
  · exact h'.cleared x hx ((h.still x hb).2 hheld) hT

lemma foldl {α : Type} {f : Applier → α → Applier} {T : α → Target → Prop}
    (hf : ∀ a x, Clears a (f a x) (T x)) (l : List α) (a : Applier) :
    Clears a (l.foldl f a) fun t => ∃ x ∈ l, T x t := by
  induction l generalizing a with
  | nil => exact of_reloaded (Reloaded.refl a) fun t ⟨x, hx, _⟩ => by cases hx
  | cons x l ih =>
    refine ((hf a x).trans (ih (f a x))).mono ?_
    rintro t - ⟨y, hy, hT⟩
    rcases List.mem_cons.mp hy with rfl | hy
    · exact .inl hT
    · exact .inr ⟨y, hy, hT⟩

end Clears

lemma mark_answered (a : Applier) (t : Target) :
    Clears a (a.mark (.answered t)) fun other => t.answers other = true := by
  refine ⟨⟨rfl, rfl, rfl, fun _ h => h, fun x hx => ?_⟩, fun x hx _ => ?_⟩
  · exact ⟨(List.mem_filter.mp hx).1, id⟩
  · simpa using (List.mem_filter.mp hx).2

/-! ### Graphs -/

lemma holds_withoutGroup {s : State} {t : Target} {groupId : Text} (h : s.Holds t)
    (ht : t.inGroup groupId = false) : (s.withoutGroup groupId).Holds t := by
  cases t with
  | graph id => exact Dict.mem_keys_delete.mpr ⟨by simpa [Target.inGroup] using ht, h⟩
  | member key =>
    have hkey : key.groupId ≠ groupId := by simpa [Target.inGroup] using ht
    exact (Dict.mem_keys_filter (q := fun k => decide (k.groupId ≠ groupId))).mpr
      ⟨h, decide_eq_true hkey⟩
  | _ => exact h

/-- A graph that is read is stored, and a group that the server does not know is dropped. -/
lemma loadGroup_cases {override : Option Sdk.ContextInheritance} {s s' : State} {groupId : Text}
    (h : loadGroup r override s groupId = some s') :
    (∃ v, r.graph groupId = .ok v) ∧ s.Keeps s' ∨
      r.graph groupId = .notFound ∧ s' = s.withoutGroup groupId := by
  unfold loadGroup at h
  cases hread : r.graph groupId with
  | ok v =>
    rw [hread] at h
    obtain rfl := Option.some.inj h
    exact .inl ⟨⟨v, rfl⟩, (State.Keeps.withServerContexts override s v.1.contexts).trans
      (.withGroup _ groupId _)⟩
  | notFound =>
    rw [hread] at h
    exact .inr ⟨rfl, (Option.some.inj h).symm⟩
  | failed =>
    rw [hread] at h
    cases h

lemma loadGroup_eq_none_iff {override : Option Sdk.ContextInheritance} {s : State}
    {groupId : Text} : loadGroup r override s groupId = none ↔ r.graph groupId = .failed := by
  unfold loadGroup
  cases r.graph groupId <;> simp

/-- A graph's load and its record. -/
lemma withGroup_clears {s : State} {groupId : Text}
    (h : loadGroup r a.override a.state groupId = some s) :
    Clears a ((a.withState s).markGroup r groupId) fun t => t = .graph groupId := by
  obtain ⟨⟨v, hread⟩, hkeeps⟩ | ⟨hread, rfl⟩ := loadGroup_cases h
  · rw [markGroup, hread]
    have hstate : Clears a (a.withState s) fun _ => False :=
      .of_reloaded (.withState hkeeps) fun _ => id
    refine (hstate.trans (mark_answered _ (.graph groupId))).mono ?_
    rintro t - rfl
    exact .inr (by simp [Target.answers])
  · rw [markGroup, hread]
    refine ⟨⟨rfl, rfl, rfl, fun _ h => h, fun x hx => ?_⟩, fun x hx _ ht => ?_⟩
    · obtain ⟨hx, hgroup⟩ := List.mem_filter.mp hx
      exact ⟨hx, fun hheld => holds_withoutGroup hheld (by simpa using hgroup)⟩
    · have hgroup := (List.mem_filter.mp hx).2
      simp [ht, Target.inGroup] at hgroup

lemma reloadGroup_clears (a : Applier) (r : Reads) (groupId : Text) :
    Clears a (a.reloadGroup r groupId) fun t =>
      r.graph groupId ≠ .failed ∧ t = .graph groupId := by
  unfold reloadGroup
  cases hload : loadGroup r a.override a.state groupId with
  | some s => exact (withGroup_clears hload).mono fun t _ ht => ht.2
  | none =>
    refine .of_reloaded (.retryLater fun p h => by cases h) fun t ht => ht.1 ?_
    exact loadGroup_eq_none_iff.mp hload

lemma reloadGroupIfHeld_clears (a : Applier) (r : Reads) (groupId : Text) :
    Clears a (a.reloadGroupIfHeld r groupId) fun t =>
      r.graph groupId ≠ .failed ∧ t = .graph groupId := by
  unfold reloadGroupIfHeld
  split_ifs with hheld
  · exact a.reloadGroup_clears r groupId
  · refine ⟨Reloaded.refl a, fun x _ hx ht => hheld (Dict.has_iff.mpr ?_)⟩
    rw [ht.2] at hx
    exact hx

/-! ### Members -/

lemma applyOne_clears (a : Applier) (key : MemberKey) (entry : MemberEntry) :
    Clears a (a.applyOne key entry) fun t => t = .member key := by
  unfold applyOne
  split_ifs with hheld
  · have hkeeps := State.Keeps.putLoaded a.state key entry
    refine ⟨⟨hkeeps.position, rfl, rfl, fun _ h => h, fun x hx => ?_⟩, fun x hx _ ht => ?_⟩
    · exact ⟨(List.mem_filter.mp hx).1, hkeeps.holds x.2⟩
    · have hother := (List.mem_filter.mp hx).2
      simp [ht] at hother
  · refine ⟨Reloaded.refl a, fun x _ hx ht => hheld (Dict.has_iff.mpr ?_)⟩
    rw [ht] at hx
    exact hx

lemma applyLoaded_clears (a : Applier) (keys : List MemberKey) (entry : MemberKey → MemberEntry) :
    Clears a (a.applyLoaded keys entry) fun t => ∃ key ∈ keys, t = .member key :=
  Clears.foldl (fun a key => a.applyOne_clears key (entry key)) keys a

lemma reloadMember_clears (a : Applier) (r : Reads) (key : MemberKey) :
    Clears a (a.reloadMember r key) fun t => r.MembersSucceed ∧ t = .member key := by
  unfold reloadMember
  split_ifs with hheld
  · cases hread : r.access key with
    | ok access =>
      exact (a.applyLoaded_clears [key] _).mono fun t _ ht => ⟨key, List.mem_singleton_self key, ht.2⟩
    | notFound =>
      exact (a.applyLoaded_clears [key] _).mono fun t _ ht => ⟨key, List.mem_singleton_self key, ht.2⟩
    | failed =>
      exact .of_reloaded (.retryLater fun p h => by cases h) fun t ht => ht.1.access key hread
  · refine ⟨Reloaded.refl a, fun x _ hx ht => hheld (Dict.has_iff.mpr ?_)⟩
    rw [ht.2] at hx
    exact hx

lemma loadMembers_clears (a : Applier) (r : Reads) (groupId : Text) (requested : List MemberKey) :
    Clears a (a.loadMembers r groupId requested) fun t =>
      r.MembersSucceed ∧ ∃ key ∈ requested, t = .member key := by
  -- a requested member that is held is one of those read
  have hheld : ∀ t, a.state.Holds t → (∃ key ∈ requested, t = .member key) →
      ∃ key ∈ requested.filter fun key => a.state.members.has key, t = .member key := by
    rintro t ht ⟨key, hkey, rfl⟩
    exact ⟨key, List.mem_filter.mpr ⟨hkey, Dict.has_iff.mpr ht⟩, rfl⟩
  unfold loadMembers
  dsimp only
  split_ifs with hempty
  · refine ⟨Reloaded.refl a, fun x _ hx ht => ?_⟩
    obtain ⟨key, hkey, -⟩ := hheld x.2 hx ht.2
    rw [List.isEmpty_iff.mp hempty] at hkey
    cases hkey
  · cases hread : r.accessMany groupId _ with
    | ok answer => exact (a.applyLoaded_clears _ _).mono fun t ht h => hheld t ht h.2
    | notFound => exact (a.applyLoaded_clears _ _).mono fun t ht h => hheld t ht h.2
    | failed =>
      refine .of_reloaded (.foldl (fun a key => .retryLater fun p h => by cases h) _ a) ?_
      exact fun t ht => ht.1.accessMany groupId _ hread

lemma flatten_batches {α : Type} {n : ℕ} (hn : 0 < n) (fuel : ℕ) (l : List α)
    (hfuel : l.length ≤ fuel) : (batches n fuel l).flatten = l := by
  induction fuel generalizing l with
  | zero => simp [batches, List.length_eq_zero_iff.mp (Nat.le_zero.mp hfuel)]
  | succ fuel ih =>
    rw [batches]
    split_ifs with hempty
    · simp [List.isEmpty_iff.mp hempty]
    · rw [List.flatten_cons, ih _ (by rw [List.length_drop]; omega), List.take_append_drop]

lemma loadBatches_clears (a : Applier) (r : Reads) (groupId : Text) (keys : List MemberKey) :
    Clears a (a.loadBatches r groupId keys) fun t =>
      r.MembersSucceed ∧ ∃ key ∈ keys, t = .member key := by
  refine (Clears.foldl (fun a batch => a.loadMembers_clears r groupId batch) _ a).mono ?_
  rintro t - ⟨hr, key, hkey, rfl⟩
  rw [← flatten_batches (n := accessBatchMax) (by decide) keys.length keys le_rfl] at hkey
  obtain ⟨batch, hbatch, hkey⟩ := List.mem_flatten.mp hkey
  exact ⟨batch, hbatch, hr, key, hkey, rfl⟩

lemma mem_byGroup {keys : List MemberKey} {key : MemberKey} (h : key ∈ keys) :
    ∃ group ∈ byGroup keys, key ∈ group.2 := by
  refine ⟨(key.groupId, keys.filter fun k => k.groupId = key.groupId), ?_, ?_⟩
  · exact List.mem_map.mpr ⟨key.groupId,
      List.mem_eraseDups.mpr (List.mem_map_of_mem h), rfl⟩
  · exact List.mem_filter.mpr ⟨h, decide_eq_true rfl⟩

lemma reloadMembers_clears (a : Applier) (r : Reads) (keys : List MemberKey) :
    Clears a (a.reloadMembers r keys) fun t =>
      r.MembersSucceed ∧ ∃ key ∈ keys, t = .member key := by
  unfold reloadMembers
  refine (Clears.foldl (T := fun group t => r.MembersSucceed ∧ ∃ key ∈ group.2, t = .member key)
    ?_ (byGroup keys) a).mono ?_
  · intro a group
    split
    · rename_i key hkeys
      rw [hkeys]
      exact (a.reloadMember_clears r key).mono fun t _ ht => ⟨ht.1, by simpa using ht.2⟩
    · exact a.loadBatches_clears r group.1 _
  rintro t - ⟨hr, key, hkey, rfl⟩
  obtain ⟨group, hmem, hkey⟩ := mem_byGroup hkey
  exact ⟨group, hmem, hr, key, hkey, rfl⟩

/-! ### Deferred reloads -/

/-- What is owed is deferred and held, and lies above the published position. -/
structure Pending (a : Applier) : Prop where
  covers : Covers a.state.position a.log
  defers : ∀ x ∈ owed a.log, a.Defers x.2
  holds : ∀ x ∈ owed a.log, a.state.Holds x.2

lemma Pending.of_owed (h : owed a.log = []) : a.Pending where
  covers x hx := by rw [h] at hx; cases hx
  defers x hx := by rw [h] at hx; cases hx
  holds x hx := by rw [h] at hx; cases hx

lemma defers_congr (h : b.deferral = a.deferral) (t : Target) : b.Defers t ↔ a.Defers t := by
  obtain ⟨hgroups, hmembers, -⟩ : b.deferredGroups = a.deferredGroups ∧
      b.deferredMembers = a.deferredMembers ∧ b.deferredPosition = a.deferredPosition := by
    simpa [deferral] using h
  cases t <;> simp [Defers, hgroups, hmembers]

lemma Pending.reloaded (h : a.Pending) (hab : Reloaded a b) : b.Pending where
  covers x hx q hq := h.covers x (hab.still x hx).1 q (hab.position ▸ hq)
  defers x hx := (defers_congr hab.deferral x.2).mpr (h.defers x (hab.still x hx).1)
  holds x hx := (hab.still x hx).2 (h.holds x (hab.still x hx).1)

lemma Pending.of_eq (h : a.Pending) (hstate : b.state = a.state) (hdeferral : b.deferral = a.deferral)
    (hlog : b.log = a.log) : b.Pending where
  covers := by rw [hstate, hlog]; exact h.covers
  defers x hx := (defers_congr hdeferral x.2).mpr (h.defers x (hlog ▸ hx))
  holds x hx := hstate ▸ h.holds x (hlog ▸ hx)

/-- Without deferred reloads nothing is owed. -/
lemma Pending.owed_eq_nil (h : a.Pending) (hnone : a.hasDeferred = false) : owed a.log = [] := by
  rw [List.eq_nil_iff_forall_not_mem]
  intro x hx
  have hdefers := h.defers x hx
  simp only [hasDeferred, Bool.or_eq_false_iff, Bool.not_eq_false', List.isEmpty_iff] at hnone
  cases ht : x.2 with
  | graph groupId =>
    rw [ht, Defers, hnone.1.2] at hdefers
    cases hdefers
  | member key =>
    rw [ht, Defers, hnone.2] at hdefers
    cases hdefers
  | _ =>
    rw [ht] at hdefers
    exact hdefers

/-- The deferred reloads, taken out and run. -/
def reloadDeferred (a : Applier) (r : Reads) : Applier :=
  (a.deferredGroups.foldl (fun (a : Applier) groupId => a.reloadGroupIfHeld r groupId)
    { a with deferredGroups := [], deferredMembers := [], deferredPosition := none }).reloadMembers r
    a.deferredMembers

lemma flushDeferred_eq (a : Applier) (r : Reads) :
    a.flushDeferred r =
      match a.deferredPosition with
      | none => a.reloadDeferred r
      | some p => (a.reloadDeferred r).withState ((a.reloadDeferred r).state.withPosition p) := rfl

lemma reloadDeferred_clears (a : Applier) (r : Reads) :
    Clears { a with deferredGroups := [], deferredMembers := [], deferredPosition := none }
      (a.reloadDeferred r) fun t => r.Succeed ∧ a.Defers t := by
  refine ((Clears.foldl (fun a groupId => a.reloadGroupIfHeld_clears r groupId) _ _).trans
    (reloadMembers_clears _ r a.deferredMembers)).mono ?_
  rintro t - ⟨hr, ht⟩
  cases t with
  | graph groupId => exact .inl ⟨groupId, ht, hr.graph groupId, rfl⟩
  | member key => exact .inr ⟨hr.toMembersSucceed, key, ht, rfl⟩
  | _ => exact ht.elim

/-- A flush whose reads succeed leaves nothing owed, and publishes the deferred position. -/
lemma flushDeferred_spec (hr : r.Succeed) (h : a.Pending) :
    owed (a.flushDeferred r).log = [] ∧
      (a.flushDeferred r).state.position = a.deferredPosition.or a.state.position ∧
      (a.flushDeferred r).deferral = ([], [], none) ∧
      (a.flushDeferred r).stream = a.stream ∧
      ∀ p, .resync p ∈ (a.flushDeferred r).later → .resync p ∈ a.later := by
  have hclears := a.reloadDeferred_clears r
  have howed : owed (a.reloadDeferred r).log = [] := by
    rw [List.eq_nil_iff_forall_not_mem]
    intro x hx
    obtain ⟨hxa, -⟩ := hclears.still x hx
    exact hclears.cleared x hx (h.holds x hxa) ⟨hr, h.defers x hxa⟩
  rw [flushDeferred_eq]
  cases a.deferredPosition with
  | none => exact ⟨howed, hclears.position, hclears.deferral, hclears.stream, hclears.later⟩
  | some p => exact ⟨howed, rfl, hclears.deferral, hclears.stream, hclears.later⟩

/-! ### Events -/

/-- What the handling of the event at position `p` keeps. -/
structure Handled (p : ℕ) (a b : Applier) : Prop where
  position : b.state.position = a.state.position
  deferred : b.deferredPosition = a.deferredPosition
  stream : b.stream = a.stream
  later : ∀ q, .resync q ∈ b.later → .resync q ∈ a.later
  pending : a.Pending → (∀ q ∈ a.state.position, q < p) → b.Pending

namespace Handled

variable {p : ℕ}

lemma refl (a : Applier) : Handled p a a := ⟨rfl, rfl, rfl, fun _ h => h, fun h _ => h⟩

lemma trans (h : Handled p a b) (h' : Handled p b c) : Handled p a c where
  position := h'.position.trans h.position
  deferred := h'.deferred.trans h.deferred
  stream := h'.stream.trans h.stream
  later q hq := h.later q (h'.later q hq)
  pending ha hp := h'.pending (h.pending ha hp) (h.position ▸ hp)

lemma of_reloaded (h : Reloaded a b) : Handled p a b :=
  ⟨h.position, congrArg (fun d => d.2.2) h.deferral, h.stream, h.later, fun ha _ => ha.reloaded h⟩

lemma withState {s : State} (h : a.state.Keeps s) : Handled p a (a.withState s) :=
  of_reloaded (.withState h)

lemma foldl {α : Type} {f : Applier → α → Applier} {l : List α}
    (hf : ∀ (a : Applier), ∀ x ∈ l, Handled p a (f a x)) (a : Applier) :
    Handled p a (l.foldl f a) := by
  induction l generalizing a with
  | nil => exact refl a
  | cons x l ih =>
    rw [List.foldl_cons]
    exact (hf a x List.mem_cons_self).trans (ih (fun a y hy => hf a y (.tail x hy)) _)

end Handled

lemma hasDeferred_eq_false_iff (a : Applier) :
    a.hasDeferred = false ↔ a.deferral = ([], [], none) := by
  simp [hasDeferred, deferral]
  tauto

/-- An event asks for the reload of a target that is held, and defers it. -/
lemma asked_handled {p : ℕ} {t : Target} (hheld : a.state.Holds t)
    (hstate : b.state = a.state) (hlog : b.log = .asked p t :: a.log)
    (hdefers : ∀ t', b.Defers t' ↔ a.Defers t' ∨ t' = t)
    (hdeferred : b.deferredPosition = a.deferredPosition) (hstream : b.stream = a.stream)
    (hlater : b.later = a.later) : Handled p a b where
  position := congrArg State.position hstate
  deferred := hdeferred
  stream := hstream
  later q hq := hlater ▸ hq
  pending ha hp := by
    refine ⟨fun x hx => ?_, fun x hx => ?_, fun x hx => ?_⟩ <;> rw [hlog] at hx
    · rw [hstate]
      rcases List.mem_cons.mp hx with rfl | hx
      · exact hp
      · exact ha.covers x hx
    · rcases List.mem_cons.mp hx with rfl | hx
      · exact (hdefers t).mpr (.inr rfl)
      · exact (hdefers x.2).mpr (.inl (ha.defers x hx))
    · rw [hstate]
      rcases List.mem_cons.mp hx with rfl | hx
      · exact hheld
      · exact ha.holds x hx

lemma deferGroupReload_handled (a : Applier) (p : ℕ) (groupId : Text) :
    Handled p a (a.deferGroupReload p groupId) := by
  unfold deferGroupReload
  split_ifs with hheld
  · have hheld : a.state.Holds (.graph groupId) := Dict.has_iff.mp hheld
    dsimp only
    split_ifs with hmem
    · refine asked_handled hheld rfl rfl (fun t => ?_) rfl rfl rfl
      refine ⟨.inl, fun h => h.elim id fun ht => ?_⟩
      subst ht
      exact hmem
    · refine asked_handled hheld rfl rfl (fun t => ?_) rfl rfl rfl
      cases t <;> simp [Defers, mark]
  · exact .refl a

lemma deferMemberReload_handled {p : ℕ} {key : MemberKey}
    (hheld : key ∈ a.state.members.keys) : Handled p a (a.deferMemberReload p key) := by
  unfold deferMemberReload
  dsimp only
  split_ifs with hmem
  · refine asked_handled (t := .member key) hheld rfl rfl (fun t => ?_) rfl rfl rfl
    refine ⟨.inl, fun h => h.elim id fun ht => ?_⟩
    subst ht
    exact hmem
  · refine asked_handled (t := .member key) hheld rfl rfl (fun t => ?_) rfl rfl rfl
    cases t <;> simp [Defers, mark]

lemma state_deferMemberReload (a : Applier) (p : ℕ) (key : MemberKey) :
    (a.deferMemberReload p key).state = a.state := by
  unfold deferMemberReload
  dsimp only
  split_ifs <;> rfl

lemma reloadMembersOf_handled (a : Applier) (p : ℕ) (ids : List Text) :
    Handled p a (a.reloadMembersOf p ids) := by
  have hfold : ∀ (keys : List MemberKey) (a : Applier), (∀ key ∈ keys, key ∈ a.state.members.keys) →
      Handled p a (keys.foldl (fun a key => a.deferMemberReload p key) a) := by
    intro keys
    induction keys with
    | nil => exact fun a _ => .refl a
    | cons key keys ih =>
      intro a hkeys
      refine (deferMemberReload_handled (hkeys key List.mem_cons_self)).trans (ih _ fun k hk => ?_)
      rw [state_deferMemberReload]
      exact hkeys k (.tail key hk)
  exact hfold _ a fun key hkey => (List.mem_filter.mp hkey).1

lemma answered_reloaded {s : State} (h : a.state.Keeps s) (t : Target) :
    Reloaded a ((a.withState s).mark (.answered t)) :=
  (Reloaded.withState h).trans (mark_answered _ t).toReloaded

/-- A reload that is asked for and answered at once leaves nothing owed. -/
lemma asked_answered_reloaded {p : ℕ} {t : Target} {s : State} (h : a.state.Keeps s)
    (ht : t.answers t = true) :
    Reloaded a (((a.mark (.asked p t)).withState s).mark (.answered t)) := by
  refine ⟨h.position, rfl, rfl, fun _ h => h, fun x hx => ?_⟩
  have hx : x ∈ ((p, t) :: owed a.log).filter fun x => !t.answers x.2 := hx
  rw [List.filter_cons_of_neg (by simp [ht])] at hx
  exact ⟨(List.mem_filter.mp hx).1, h.holds x.2⟩

lemma reloadBan_cases (a : Applier) (r : Reads) (userId : Text) :
    r.ban userId = none ∧ a.reloadBan r userId = a.retryLater (.reloadBan userId) ∨
      ∃ s, a.state.Keeps s ∧ a.reloadBan r userId = (a.withState s).mark (.answered (.ban userId)) := by
  unfold reloadBan
  cases r.ban userId with
  | none => exact .inl ⟨rfl, rfl⟩
  | some ban =>
    refine .inr ⟨_, ?_, rfl⟩
    cases ban with
    | none => exact .of_eq rfl rfl rfl
    | some b => exact .of_eq (by simp; rfl) (by simp; rfl) (by simp; rfl)

lemma reloadSanctions_cases (a : Applier) (r : Reads) (userId : Text) :
    r.sanctions userId = none ∧
        a.reloadSanctions r userId = a.retryLater (.reloadSanctions userId) ∨
      ∃ s, a.state.Keeps s ∧
        a.reloadSanctions r userId = (a.withState s).mark (.answered (.sanctions userId)) := by
  unfold reloadSanctions
  cases r.sanctions userId with
  | none => exact .inl ⟨rfl, rfl⟩
  | some found =>
    refine .inr ⟨_, ?_, rfl⟩
    exact .of_eq rfl rfl rfl

lemma reloadBan_reloaded (a : Applier) (r : Reads) (userId : Text) :
    Reloaded a (a.reloadBan r userId) := by
  obtain ⟨-, heq⟩ | ⟨s, hkeeps, heq⟩ := a.reloadBan_cases r userId
  · exact heq ▸ .retryLater fun p h => by cases h
  · exact heq ▸ answered_reloaded hkeeps _

lemma reloadSanctions_reloaded (a : Applier) (r : Reads) (userId : Text) :
    Reloaded a (a.reloadSanctions r userId) := by
  obtain ⟨-, heq⟩ | ⟨s, hkeeps, heq⟩ := a.reloadSanctions_cases r userId
  · exact heq ▸ .retryLater fun p h => by cases h
  · exact heq ▸ answered_reloaded hkeeps _

lemma asked_reloadBan (a : Applier) (p : ℕ) {userId : Text} (hr : r.ban userId ≠ none) :
    Reloaded a ((a.mark (.asked p (.ban userId))).reloadBan r userId) := by
  obtain ⟨hread, -⟩ | ⟨s, hkeeps, heq⟩ := (a.mark (.asked p (.ban userId))).reloadBan_cases r userId
  · exact absurd hread hr
  · exact heq ▸ asked_answered_reloaded hkeeps (by simp [Target.answers])

lemma asked_reloadSanctions (a : Applier) (p : ℕ) {userId : Text}
    (hr : r.sanctions userId ≠ none) :
    Reloaded a ((a.mark (.asked p (.sanctions userId))).reloadSanctions r userId) := by
  obtain ⟨hread, -⟩ | ⟨s, hkeeps, heq⟩ :=
    (a.mark (.asked p (.sanctions userId))).reloadSanctions_cases r userId
  · exact absurd hread hr
  · exact heq ▸ asked_answered_reloaded hkeeps (by simp [Target.answers])

lemma relink_handled (hr : r.Succeed) (a : Applier) (p : ℕ) (rendered : Text)
    (identities : List Text) (changedId : Text) (splitOff : Option Text) :
    Handled p a (a.relink r p rendered identities changedId splitOff) := by
  unfold relink
  dsimp only
  refine .trans (.trans (.withState ?_) (.foldl (fun a id _ => ?_) _))
    (reloadMembersOf_handled _ p _)
  · cases splitOff with
    | none => exact .of_eq rfl rfl rfl
    | some split => exact .of_eq rfl rfl rfl
  · exact .of_reloaded ((a.asked_reloadBan p (hr.ban id)).trans
      (asked_reloadSanctions _ p (hr.sanctions id)))

lemma applyMember_handled (a : Applier) (p : ℕ) (userId groupId : Text) (version : ℕ) :
    Handled p a (a.applyMember p userId groupId version) := by
  unfold applyMember
  cases hkey : a.state.findMemberKey userId groupId with
  | none => exact .withState (.of_eq rfl rfl rfl)
  | some key =>
    dsimp only
    split_ifs
    · exact .refl a
    · exact deferMemberReload_handled (State.findMemberKey_eq_some hkey).1

lemma applyConfig_handled (a : Applier) (p : ℕ) (mode : PermissionMode)
    (contexts : Sdk.ContextInheritance) : Handled p a (a.applyConfig p mode contexts) := by
  unfold applyConfig
  exact (Handled.withState (.withServerContexts a.override a.state contexts)).trans
    (.foldl (fun a groupId _ => a.deferGroupReload_handled p groupId) _)

lemma groupDeleted_handled (a : Applier) (r : Reads) (p : ℕ) (groupId : Text) :
    Handled p a (a.handle r p (.groupDeleted groupId)) := by
  refine ⟨rfl, rfl, rfl, fun _ h => h, fun ha _ => ?_⟩
  have howed : ∀ x ∈ owed (a.handle r p (.groupDeleted groupId)).log,
      x ∈ owed a.log ∧ x.2.inGroup groupId = false := by
    intro x hx
    simpa using List.mem_filter.mp hx
  refine ⟨fun x hx => ha.covers x (howed x hx).1, fun x hx => ?_, fun x hx => ?_⟩
  · obtain ⟨hxa, hgroup⟩ := howed x hx
    have hdefers := ha.defers x hxa
    cases ht : x.2 with
    | graph id =>
      rw [ht] at hdefers hgroup
      exact List.mem_filter.mpr ⟨hdefers, by simpa [Target.inGroup] using hgroup⟩
    | _ =>
      rw [ht] at hdefers
      exact hdefers
  · obtain ⟨hxa, hgroup⟩ := howed x hx
    exact holds_withoutGroup (ha.holds x hxa) hgroup

/-- An event whose reads succeed keeps what is owed deferred. -/
lemma handle_handled (hr : r.Succeed) (a : Applier) (p : ℕ) (e : Event) :
    Handled p a (a.handle r p e) := by
  cases e with
  | graph type groupId => exact a.deferGroupReload_handled p groupId
  | groupDeleted groupId => exact a.groupDeleted_handled r p groupId
  | member type userId groupId version => exact a.applyMember_handled p userId groupId version
  | gameUserBanned userId occurredAt expiresAt reason version => exact .withState (.applyBan ..)
  | gameUserUnbanned userId version => exact .withState (.applyBan ..)
  | gameUserSanctioned userId type occurredAt expiresAt reason version =>
    exact .withState (.applySanction ..)
  | gameUserUnsanctioned userId type version => exact .withState (.applySanction ..)
  | identityUpdated userId changedUserId => exact a.reloadMembersOf_handled p _
  | identityLinked userId identities linkedUserId =>
    exact relink_handled hr a p userId identities linkedUserId none
  | identityUnlinked userId identities unlinkedUserId =>
    exact relink_handled hr a p userId identities unlinkedUserId (some unlinkedUserId)
  | permissionsConfigUpdated mode contexts => exact a.applyConfig_handled p mode contexts

/-! ### Loads -/

lemma position_loadGroup {override : Option Sdk.ContextInheritance} {s s' : State} {groupId : Text}
    (h : loadGroup r override s groupId = some s') : s'.position = s.position := by
  obtain ⟨-, hkeeps⟩ | ⟨-, rfl⟩ := loadGroup_cases h
  · exact hkeeps.position
  · rfl

/-- Loads of groups, one after another, keep the position. -/
lemma position_foldlM_loadGroup {f : State → Text → Option State}
    (hf : ∀ s groupId s', f s groupId = some s' → s'.position = s.position) {l : List Text}
    {s s' : State} (h : l.foldlM f s = some s') : s'.position = s.position := by
  induction l generalizing s with
  | nil => exact Option.some.inj h ▸ rfl
  | cons groupId l ih =>
    rw [List.foldlM_cons, Option.bind_eq_bind, Option.bind_eq_some_iff] at h
    obtain ⟨s₁, hstep, hrest⟩ := h
    exact (ih hrest).trans (hf s groupId s₁ hstep)

lemma position_fullLoad {cfg : Config} {p : ℕ} {s : State} (h : a.fullLoad cfg r p = some s) :
    s.position = some p := by
  simp only [fullLoad, Option.bind_eq_bind, Option.bind_eq_some_iff, Option.pure_def,
    Option.some.injEq] at h
  obtain ⟨next, hgroups, bans, -, sanctions, -, rfl⟩ := h
  exact position_foldlM_loadGroup (fun s groupId s' h => position_loadGroup h) hgroups

/-- The reloads that a full load at a position asks for, of every member it carries over. -/
def askMembers (a : Applier) (p : ℕ) (keys : List MemberKey) : Applier :=
  keys.foldl (fun a key => a.mark (.asked p (.member key))) a

lemma askMembers_frame (a : Applier) (p : ℕ) (keys : List MemberKey) :
    (a.askMembers p keys).state = a.state ∧ (a.askMembers p keys).deferral = a.deferral ∧
      (a.askMembers p keys).stream = a.stream ∧ (a.askMembers p keys).later = a.later := by
  induction keys generalizing a with
  | nil => exact ⟨rfl, rfl, rfl, rfl⟩
  | cons key keys ih => exact ih (a.mark (.asked p (.member key)))

lemma owed_askMembers (a : Applier) (p : ℕ) (keys : List MemberKey) :
    ∀ x ∈ owed (a.askMembers p keys).log, x ∈ owed a.log ∨ ∃ key ∈ keys, x.2 = .member key := by
  induction keys generalizing a with
  | nil => exact fun x hx => .inl hx
  | cons key keys ih =>
    intro x hx
    rcases ih (a.mark (.asked p (.member key))) x hx with hx | ⟨k, hk, hx⟩
    · rcases List.mem_cons.mp hx with rfl | hx
      · exact .inr ⟨key, List.mem_cons_self, rfl⟩
      · exact .inl hx
    · exact .inr ⟨k, .tail key hk, hx⟩

lemma reloadAllMembers_eq (a : Applier) (r : Reads) (p : ℕ) :
    a.reloadAllMembers r p =
      (a.askMembers p a.state.members.keys).reloadMembers r a.state.members.keys := rfl

lemma loadAll_frame {cfg : Config} {p : ℕ} (h : a.loadAll cfg r p = some b) :
    b.state.position = some p ∧ b.deferral = a.deferral ∧ b.stream = a.stream ∧
      ∀ q, .resync q ∈ b.later → .resync q ∈ a.later := by
  obtain ⟨s, hs, rfl⟩ := Option.map_eq_some_iff.mp h
  rw [reloadAllMembers_eq]
  obtain ⟨hstate, hdeferral, hstream, hlater⟩ :=
    ((a.withState s).mark (.answered .everything)).askMembers_frame p s.members.keys
  have hclears := (((a.withState s).mark (.answered .everything)).askMembers p
    s.members.keys).reloadMembers_clears r s.members.keys
  refine ⟨?_, hclears.deferral.trans hdeferral, hclears.stream.trans hstream, fun q hq => ?_⟩
  · exact hclears.position.trans ((congrArg State.position hstate).trans (position_fullLoad hs))
  · exact hlater ▸ hclears.later q hq

/-- A full load leaves nothing owed when the reads of the carried members succeed. -/
lemma owed_loadAll {cfg : Config} {p : ℕ} (hr : r.MembersSucceed)
    (howed : ∀ x ∈ owed a.log, x.2 = .everything) (h : a.loadAll cfg r p = some b) :
    owed b.log = [] := by
  obtain ⟨s, hs, rfl⟩ := Option.map_eq_some_iff.mp h
  rw [reloadAllMembers_eq, List.eq_nil_iff_forall_not_mem]
  intro x hx
  have hclears := (((a.withState s).mark (.answered .everything)).askMembers p
    s.members.keys).reloadMembers_clears r s.members.keys
  rcases owed_askMembers _ p s.members.keys x (hclears.still x hx).1 with hx' | ⟨key, hkey, hx'⟩
  · obtain ⟨hx', hnot⟩ := List.mem_filter.mp hx'
    simp [howed x hx', Target.answers] at hnot
  · refine hclears.cleared x hx ?_ ⟨hr, key, hkey, hx'⟩
    rw [(askMembers_frame _ p s.members.keys).1, hx']
    exact hkey

/-! ### Tracks -/

/-- A record of what asks for nothing and answers nothing. -/
lemma mark_reloaded (a : Applier) {m : Mark} (hm : owed (m :: a.log) = owed a.log) :
    Reloaded a (a.mark m) := by
  refine ⟨rfl, rfl, rfl, fun _ h => h, fun x hx => ⟨?_, id⟩⟩
  have hx : x ∈ owed (m :: a.log) := hx
  exact hm ▸ hx

lemma ensurePerson_reloaded {userId : Text} {found : Person × Applier}
    (h : a.ensurePerson r userId = some found) : Reloaded a found.2 := by
  unfold ensurePerson at h
  cases hp : a.state.people.get? userId with
  | some p =>
    rw [hp] at h
    obtain rfl := Option.some.inj h
    exact .refl a
  | none =>
    rw [hp] at h
    obtain ⟨list, -, rfl⟩ := Option.map_eq_some_iff.mp h
    exact (Reloaded.withState (.withPerson a.state _)).trans (mark_reloaded _ rfl)

/-- A change of what reloads neither ask for nor answer. -/
lemma Reloaded.of_eq (hstate : b.state = a.state) (hdeferral : b.deferral = a.deferral)
    (hstream : b.stream = a.stream) (hlater : b.later = a.later) (hlog : b.log = a.log) :
    Reloaded a b :=
  ⟨congrArg State.position hstate, hdeferral, hstream, fun _ h => hlater ▸ h,
    fun _ hx => ⟨hlog ▸ hx, fun h => hstate ▸ h⟩⟩

lemma scheduleTrackFlush_reloaded (a : Applier) : Reloaded a a.scheduleTrackFlush := by
  unfold scheduleTrackFlush
  split_ifs
  · exact .refl a
  · have hlater : Reloaded a (a.retryLater .flushTrackLoads) := .retryLater fun p h => by cases h
    exact hlater.trans (.of_eq rfl rfl rfl rfl rfl)

lemma queueTrackLoad_reloaded (a : Applier) (key : MemberKey) :
    Reloaded a (a.queueTrackLoad key) := by
  unfold queueTrackLoad
  refine .trans ?_ (scheduleTrackFlush_reloaded _)
  exact .of_eq rfl rfl rfl rfl rfl

lemma loadUnheld_reloaded (a : Applier) (r : Reads) (groupId : Text) :
    Reloaded a (if a.state.groups.has groupId then a else a.reloadGroup r groupId) := by
  split_ifs
  · exact .refl a
  · exact (a.reloadGroup_clears r groupId).toReloaded

lemma track_reloaded (cfg : Config) (a : Applier) (r : Reads) (now : ℤ) (userId groupId : Text) :
    Reloaded a (a.track cfg r now userId groupId) := by
  unfold track
  cases hfound : a.ensurePerson r userId with
  | none => exact .refl a
  | some found =>
    obtain ⟨p, b⟩ := found
    refine (ensurePerson_reloaded hfound).trans ?_
    dsimp only
    cases b.state.findMemberKey userId groupId with
    | some key => exact .refl b
    | none =>
      dsimp only
      refine .trans (.trans (.trans (.withState ?_) (mark_reloaded _ rfl))
        (loadUnheld_reloaded _ r groupId)) (queueTrackLoad_reloaded _ _)
      exact .withRetainedMember b.state _ _ _

lemma untrack_reloaded (cfg : Config) (a : Applier) (now : ℤ) (userId groupId : Text) :
    Reloaded a (a.untrack cfg now userId groupId) := by
  unfold untrack
  cases a.state.findMemberKey userId groupId with
  | none => exact .refl a
  | some key =>
    dsimp only
    cases hm : a.state.members.get? key with
    | none => exact .refl a
    | some m =>
      have hother : ∀ t, t ≠ .member key → a.state.Holds t → (a.state.withoutMember key).Holds t := by
        intro t ht hheld
        cases t with
        | member k => exact Dict.mem_keys_delete.mpr ⟨fun hk => ht (by rw [hk]), hheld⟩
        | _ => exact hheld
      have hdropped : Reloaded a ((a.withState (a.state.withoutMember key)).mark (.untracked key)) := by
        refine ⟨rfl, rfl, rfl, fun _ h => h, fun x hx => ?_⟩
        obtain ⟨hx, hne⟩ := List.mem_filter.mp hx
        exact ⟨hx, hother x.2 (by simpa using hne)⟩
      dsimp only
      split_ifs
      · refine (hdropped.trans (.withState ?_)).trans (mark_reloaded _ rfl)
        exact .of_eq rfl rfl rfl
      · exact hdropped

lemma flushTrackLoads_reloaded (a : Applier) (r : Reads) : Reloaded a (a.flushTrackLoads r) := by
  unfold flushTrackLoads
  refine .trans ?_ (.foldl (fun (a : Applier) (group : Text × List MemberKey) =>
    (a.loadBatches_clears r group.1 group.2).toReloaded) _ _)
  exact .of_eq rfl rfl rfl rfl rfl

lemma trackGroup_reloaded (a : Applier) (r : Reads) (groupId : Text) :
    Reloaded a (a.trackGroup r groupId) := by
  unfold trackGroup
  cases h : loadGroup r a.override a.state groupId with
  | none => exact .refl a
  | some s => exact (withGroup_clears h).toReloaded

/-! ### Turns -/

lemma stream_eq_iff : b.stream = a.stream ↔
    b.starting = a.starting ∧ b.subscribed = a.subscribed ∧ b.streamAt = a.streamAt ∧
      b.nextIsEvent = a.nextIsEvent ∧ b.file = a.file := by
  simp [stream]

/-- The stream is ahead of what is published or deferred, and files hold settled states. -/
structure Ordered (a : Applier) : Prop where
  position_le : a.subscribed = true → ∀ q ∈ a.state.position, q ≤ a.streamAt
  deferred_le : ∀ q ∈ a.deferredPosition, q ≤ a.streamAt
  starting : a.starting = true → a.subscribed = false
  later : ∀ p, .resync p ∉ a.later
  file : ∀ saved ∈ a.file, owed saved.2 = []

/-- What holds after a task, before its deferred reloads are looked at. -/
structure Ran (a : Applier) : Prop extends a.Ordered where
  pending : a.Pending

/-- What holds between two tasks: reloads stay deferred only before an event. -/
structure Sound (a : Applier) : Prop extends a.Ran where
  waiting : a.nextIsEvent = false → a.deferral = ([], [], none)

lemma Sound.owed_eq_nil (h : a.Sound) (hnext : a.nextIsEvent = false) : owed a.log = [] :=
  h.pending.owed_eq_nil (a.hasDeferred_eq_false_iff.mpr (h.waiting hnext))

lemma Ran.settle {t : Turn} (h : a.Ran) (hr : a.hasDeferred = true → t.reads.Succeed) :
    (a.settle t).Sound := by
  unfold Applier.settle
  split_ifs with hdeferred hwait
  · exact ⟨⟨⟨h.position_le, h.deferred_le, h.starting, h.later, h.file⟩,
      h.pending.of_eq rfl rfl rfl⟩, fun hnext => by cases hnext⟩
  · obtain ⟨howed, hposition, hdeferral, hstream, hlater⟩ :=
      flushDeferred_spec (hr hdeferred) h.pending
    obtain ⟨hstarting, hsubscribed, hstreamAt, -, hfile⟩ := stream_eq_iff.mp hstream
    have hnone : (a.flushDeferred t.reads).deferredPosition = none :=
      congrArg (fun d => d.2.2) hdeferral
    refine ⟨⟨⟨fun hsub q hq => ?_, fun q hq => ?_, ?_, ?_, ?_⟩, .of_owed howed⟩, fun _ => hdeferral⟩
    · have hq : q ∈ a.deferredPosition.or a.state.position := hposition ▸ hq
      show q ≤ (a.flushDeferred t.reads).streamAt
      rw [hstreamAt]
      cases hp : a.deferredPosition with
      | none => exact h.position_le (hsubscribed ▸ hsub) q (by rwa [hp] at hq)
      | some p => exact h.deferred_le q (by rw [hp] at hq ⊢; exact hq)
    · rw [show (a.flushDeferred t.reads).deferredPosition = none from hnone] at hq
      cases hq
    · intro hstart
      exact hsubscribed.trans (h.starting (hstarting ▸ hstart))
    · exact fun p hp => h.later p (hlater p hp)
    · exact fun saved hsaved => h.file saved (hfile ▸ hsaved)
  · have hnone := a.hasDeferred_eq_false_iff.mp (Bool.eq_false_iff.mpr hdeferred)
    exact ⟨⟨⟨h.position_le, h.deferred_le, h.starting, h.later, h.file⟩,
      h.pending.of_eq rfl rfl rfl⟩, fun _ => hnone⟩

/-- Tasks that only reload. -/
lemma Ran.reloaded (h : a.Ran) (hab : Reloaded a b) : b.Ran := by
  obtain ⟨hstarting, hsubscribed, hstreamAt, -, hfile⟩ := stream_eq_iff.mp hab.stream
  have hdeferred : b.deferredPosition = a.deferredPosition :=
    congrArg (fun d => d.2.2) hab.deferral
  refine ⟨⟨fun hsub q hq => ?_, fun q hq => ?_, fun hstart => ?_, ?_, ?_⟩, h.pending.reloaded hab⟩
  · exact hstreamAt ▸ h.position_le (hsubscribed ▸ hsub) q (hab.position ▸ hq)
  · exact hstreamAt ▸ h.deferred_le q (hdeferred ▸ hq)
  · exact hsubscribed.trans (h.starting (hstarting ▸ hstart))
  · exact fun p hp => h.later p (hab.later p hp)
  · exact fun saved hsaved => h.file saved (hfile ▸ hsaved)

/-- An event's task. -/
lemma apply_ran (h : a.Sound) (hr : r.Succeed) (e : Event) {p : ℕ} (hsub : a.subscribed = true)
    (hp : a.streamAt < p) : ({ a with streamAt := p }.apply r e p).Ran := by
  have hle : ∀ q ∈ a.state.position, q < p := fun q hq => (h.position_le hsub q hq).trans_lt hp
  have hbase : ({ a with streamAt := p } : Applier).Ran := by
    refine ⟨⟨fun _ q hq => (hle q hq).le, fun q hq => ?_, h.starting, h.later, h.file⟩,
      h.pending.of_eq rfl rfl rfl⟩
    exact (h.deferred_le q hq).trans hp.le
  unfold apply
  split_ifs
  · have hmarked : (Applier.mark { a with streamAt := p } (.applied a.state p e)).Pending :=
      ⟨h.pending.covers, h.pending.defers, h.pending.holds⟩
    have hhandled := handle_handled hr (Applier.mark { a with streamAt := p } (.applied a.state p e)) p e
    have hpending := hhandled.pending hmarked hle
    obtain ⟨hstarting, hsubscribed, hstreamAt, -, hfile⟩ := stream_eq_iff.mp hhandled.stream
    have hlater : ∀ q, .resync q ∉
        ((Applier.mark { a with streamAt := p } (.applied a.state p e)).handle r p e).later :=
      fun q hq => h.later q (hhandled.later q hq)
    dsimp only
    split_ifs with hdeferred
    · refine ⟨⟨fun _ q hq => ?_, fun q hq => ?_, fun hstart => ?_, hlater, fun saved hsaved => ?_⟩,
        ⟨hpending.covers, hpending.defers, hpending.holds⟩⟩
      · exact hstreamAt ▸ (hle q (hhandled.position ▸ hq)).le
      · obtain rfl := Option.some.inj hq
        exact hstreamAt.ge
      · exact hsubscribed.trans (h.starting (hstarting ▸ hstart))
      · exact h.file saved (hfile ▸ hsaved)
    · have howed := hpending.owed_eq_nil (Bool.eq_false_iff.mpr hdeferred)
      refine ⟨⟨fun _ q hq => ?_, fun q hq => ?_, fun hstart => ?_, hlater, fun saved hsaved => ?_⟩,
        .of_owed howed⟩
      · obtain rfl := Option.some.inj hq
        exact hstreamAt.ge
      · have hq : q ∈ a.deferredPosition := hhandled.deferred ▸ hq
        exact hstreamAt ▸ (h.deferred_le q hq).trans hp.le
      · exact hsubscribed.trans (h.starting (hstarting ▸ hstart))
      · exact h.file saved (hfile ▸ hsaved)
  · exact hbase

/-- A full load, when nothing is owed but the load itself. -/
lemma loadAll_ran {cfg : Config} {p : ℕ} (h : a.Ordered) (hr : r.MembersSucceed)
    (howed : ∀ x ∈ owed a.log, x.2 = .everything)
    (hp : a.subscribed = true → p ≤ a.streamAt) (hb : a.loadAll cfg r p = some b) : b.Ran := by
  obtain ⟨hposition, hdeferral, hstream, hlater⟩ := loadAll_frame hb
  obtain ⟨hstarting, hsubscribed, hstreamAt, -, hfile⟩ := stream_eq_iff.mp hstream
  have hdeferred : b.deferredPosition = a.deferredPosition := congrArg (fun d => d.2.2) hdeferral
  refine ⟨⟨fun hsub q hq => ?_, fun q hq => ?_, fun hstart => ?_, ?_, ?_⟩,
    .of_owed (owed_loadAll hr howed hb)⟩
  · rw [hposition] at hq
    obtain rfl := Option.some.inj hq
    exact hstreamAt ▸ hp (hsubscribed ▸ hsub)
  · exact hstreamAt ▸ h.deferred_le q (hdeferred ▸ hq)
  · exact hsubscribed.trans (h.starting (hstarting ▸ hstart))
  · exact fun q hq => h.later q (hlater q hq)
  · exact fun saved hsaved => h.file saved (hfile ▸ hsaved)

lemma fullLoad_ne_none {cfg : Config} {p : ℕ} (hr : r.Succeed) : a.fullLoad cfg r p ≠ none := by
  have hgroups : ∀ (l : List Text) (s : State),
      l.foldlM (fun s groupId => loadGroup r a.override s groupId) s ≠ none := by
    intro l
    induction l with
    | nil => exact fun s h => by cases h
    | cons groupId l ih =>
      intro s h
      rw [List.foldlM_cons] at h
      cases hload : loadGroup r a.override s groupId with
      | none => exact hr.graph groupId (loadGroup_eq_none_iff.mp hload)
      | some s' =>
        rw [hload] at h
        exact ih s' h
  obtain ⟨next, hnext⟩ := Option.ne_none_iff_exists'.mp (hgroups
    (cfg.initialGroups ++ a.state.groups.keys).eraseDups
    ((State.empty.withPosition p).withContexts a.state.contexts))
  obtain ⟨bans, hbans⟩ := Option.ne_none_iff_exists'.mp hr.bans
  obtain ⟨sanctions, hsanctions⟩ := Option.ne_none_iff_exists'.mp hr.sanctionList
  simp [fullLoad, hnext, hbans, hsanctions]

/-- A resync whose reads succeed. -/
lemma resync_ran {cfg : Config} {p : ℕ} (h : a.Sound) (hnext : a.nextIsEvent = false)
    (hr : r.Succeed) (hp : a.streamAt ≤ p) : ({ a with streamAt := p }.resync cfg r p).Ran := by
  have hasked : (Applier.mark { a with streamAt := p } (.asked p .everything)).Ordered :=
    ⟨fun hsub q hq => (h.position_le hsub q hq).trans hp, fun q hq => (h.deferred_le q hq).trans hp,
      h.starting, h.later, h.file⟩
  have howed : ∀ x ∈ owed (Applier.mark { a with streamAt := p } (.asked p .everything)).log,
      x.2 = .everything := by
    intro x hx
    rcases List.mem_cons.mp hx with rfl | hx
    · rfl
    · have hx : x ∈ owed a.log := hx
      rw [h.owed_eq_nil hnext] at hx
      cases hx
  unfold resync
  dsimp only
  cases hload : Applier.loadAll (Applier.mark { a with streamAt := p } (.asked p .everything)) cfg r p with
  | none =>
    rw [loadAll, Option.map_eq_none_iff] at hload
    exact absurd hload (fullLoad_ne_none hr)
  | some b => exact loadAll_ran hasked hr.toMembersSucceed howed (fun _ => le_rfl) hload

/-- A start whose reads of carried members succeed. -/
lemma attemptLoad_ran {cfg : Config} (h : a.Ran) (hr : r.MembersSucceed)
    (howed : owed a.log = []) (hsub : a.subscribed = false) (hnone : a.deferredPosition = none) :
    (a.attemptLoad cfg r).Ran := by
  unfold attemptLoad
  cases r.position with
  | none => exact h
  | some p =>
    dsimp only
    cases hload : a.loadAll cfg r p with
    | none => exact h
    | some b =>
      have howed : ∀ x ∈ owed a.log, x.2 = .everything := by
        rw [howed]
        exact fun x hx => by cases hx
      have hb := loadAll_ran h.toOrdered hr howed (fun hs => by rw [hsub] at hs; cases hs) hload
      obtain ⟨hposition, hdeferral, -, -⟩ := loadAll_frame hload
      have hdeferred : b.deferredPosition = none :=
        (congrArg (fun d => d.2.2) hdeferral).trans hnone
      dsimp only
      split_ifs
      · refine ⟨⟨fun _ q hq => ?_, fun q hq => ?_, fun hs => (by cases hs), hb.later, hb.file⟩,
          hb.pending.of_eq rfl rfl rfl⟩
        · have hq : q ∈ b.state.position := hq
          rw [hposition] at hq
          exact (Option.some.inj hq).ge
        · have hq : q ∈ b.deferredPosition := hq
          rw [hdeferred] at hq
          cases hq
      · exact hb

lemma attemptStart_ran {cfg : Config} {again : Reads} (h : a.Sound) (hnext : a.nextIsEvent = false)
    (hstart : a.starting = true) (hr : r.MembersSucceed) (hagain : again.MembersSucceed) :
    (a.attemptStart cfg r again).Ran := by
  have howed := h.owed_eq_nil hnext
  have hsub := h.starting hstart
  have hnone : a.deferredPosition = none := congrArg (fun d => d.2.2) (h.waiting hnext)
  unfold attemptStart
  split_ifs
  · dsimp only
    split
    · exact h.toRan
    · rename_i s hs
      -- nothing is owed, so the state that the groups were loaded into may be published
      have hs : (a.withState s).Ran :=
        ⟨⟨fun hs => absurd (hsub.symm.trans hs) Bool.false_ne_true, h.deferred_le, h.starting,
          h.later, h.file⟩, .of_owed howed⟩
      cases r.subscribe with
      | ok =>
        refine ⟨⟨fun _ q hq => ?_, fun q hq => ?_, fun hs => (by cases hs), h.later, h.file⟩,
          .of_owed howed⟩
        · have hq : s.position = some q := hq
          show q ≤ s.position.getD 0
          rw [hq]
          exact le_rfl
        · have hq : q ∈ a.deferredPosition := hq
          rw [hnone] at hq
          cases hq
      | gone =>
        refine attemptLoad_ran ⟨⟨hs.position_le, h.deferred_le, h.starting, h.later, h.file⟩,
          .of_owed howed⟩ hagain howed hsub hnone
      | failed => exact hs
  · exact attemptLoad_ran h.toRan hr howed hsub hnone

lemma runLater_ran {cfg : Config} {task : Later} (h : a.Ran) (htask : ∀ p, task ≠ .resync p) :
    (a.runLater cfg r task).Ran := by
  cases task with
  | reloadGroup groupId => exact h.reloaded (a.reloadGroup_clears r groupId).toReloaded
  | reloadMember key => exact h.reloaded (a.reloadMember_clears r key).toReloaded
  | reloadBan userId => exact h.reloaded (a.reloadBan_reloaded r userId)
  | reloadSanctions userId => exact h.reloaded (a.reloadSanctions_reloaded r userId)
  | resync p => exact absurd rfl (htask p)
  | flushTrackLoads => exact h.reloaded (a.flushTrackLoads_reloaded r)

/-- A task whose reads succeed, where an event waits for them. -/
lemma runTask_ran {cfg : Config} {t : Turn} (h : a.Sound) (hallows : a.allows t.task = true)
    (hr : (Step.turn t).Succeeds) : (a.runTask cfg t).Ran := by
  obtain ⟨task, r, again, now, due, next⟩ := t
  have hwaits : task.isEvent = false → a.nextIsEvent = false := by
    intro hevent
    have := (Bool.and_eq_true_iff.mp hallows).1
    simpa [hevent] using this
  have hallows := (Bool.and_eq_true_iff.mp hallows).2
  cases task with
  | event e p =>
    obtain ⟨hsub, hp⟩ : a.subscribed = true ∧ a.streamAt < p := by simpa using hallows
    exact apply_ran h hr e hsub hp
  | resync p =>
    obtain ⟨hsub, hp⟩ : a.subscribed = true ∧ a.streamAt ≤ p := by simpa using hallows
    exact resync_ran h (hwaits rfl) hr hp
  | start => exact attemptStart_ran h (hwaits rfl) hallows hr.1 hr.2
  | later task =>
    have hmem : task ∈ a.later := by simpa using hallows
    refine runLater_ran ⟨⟨h.position_le, h.deferred_le, h.starting, fun p hp => ?_, h.file⟩,
      h.pending.of_eq rfl rfl rfl⟩ fun p hp => ?_
    · exact h.later p (List.mem_of_mem_erase hp)
    · exact h.later p (hp ▸ hmem)
  | track userId groupId => exact h.toRan.reloaded (track_reloaded cfg a r now userId groupId)
  | untrack userId groupId => exact h.toRan.reloaded (untrack_reloaded cfg a now userId groupId)
  | trackGroup groupId => exact h.toRan.reloaded (a.trackGroup_reloaded r groupId)
  | resolve userId =>
    simp only [runTask]
    cases hfound : a.ensurePerson r userId with
    | none => exact h.toRan
    | some found => exact h.toRan.reloaded (ensurePerson_reloaded hfound)
  | pruneRetained => exact h.toRan.reloaded (.withState (.of_eq rfl rfl rfl))
  | saveSnapshot =>
    simp only [runTask, saveSnapshot]
    split_ifs
    · refine ⟨⟨h.position_le, h.deferred_le, h.starting, h.later, fun saved hsaved => ?_⟩,
        h.pending.of_eq rfl rfl rfl⟩
      obtain rfl := Option.some.inj hsaved
      exact h.owed_eq_nil (hwaits rfl)
    · exact h.toRan
  | setContextInheritance inheritance =>
    have hkeeps := State.Keeps.recompiled inheritance a.state
    exact h.toRan.reloaded
      ⟨hkeeps.position, rfl, rfl, fun _ h => h, fun x hx => ⟨hx, hkeeps.holds x.2⟩⟩

/-! ### Runs -/

lemma deferral_attemptLoad (cfg : Config) (a : Applier) (r : Reads) :
    (a.attemptLoad cfg r).deferral = a.deferral := by
  unfold attemptLoad
  cases r.position with
  | none => rfl
  | some p =>
    dsimp only
    cases hload : a.loadAll cfg r p with
    | none => rfl
    | some b =>
      dsimp only
      split_ifs <;> exact (loadAll_frame hload).2.1

lemma deferral_attemptStart (cfg : Config) (a : Applier) (r again : Reads) :
    (a.attemptStart cfg r again).deferral = a.deferral := by
  unfold attemptStart
  split_ifs
  · dsimp only
    split
    · rfl
    · cases r.subscribe with
      | gone => exact deferral_attemptLoad cfg _ again
      | _ => rfl
  · exact deferral_attemptLoad cfg a r

lemma deferral_resync (cfg : Config) (a : Applier) (r : Reads) (p : ℕ) :
    (a.resync cfg r p).deferral = a.deferral := by
  unfold resync
  dsimp only
  cases hload : (a.mark (.asked p .everything)).loadAll cfg r p with
  | none => rfl
  | some b => exact (loadAll_frame hload).2.1

/-- Only events defer reloads. -/
lemma deferral_runTask {cfg : Config} {t : Turn} (h : t.task.isEvent = false) :
    (a.runTask cfg t).deferral = a.deferral := by
  obtain ⟨task, r, again, now, due, next⟩ := t
  cases task with
  | event e p => cases h
  | resync p => exact deferral_resync cfg _ r p
  | start => exact deferral_attemptStart cfg a r again
  | later task =>
    cases task with
    | reloadGroup groupId => exact (reloadGroup_clears _ r groupId).deferral
    | reloadMember key => exact (reloadMember_clears _ r key).deferral
    | reloadBan userId => exact (reloadBan_reloaded _ r userId).deferral
    | reloadSanctions userId => exact (reloadSanctions_reloaded _ r userId).deferral
    | resync p => exact deferral_resync cfg _ r p
    | flushTrackLoads => exact (flushTrackLoads_reloaded _ r).deferral
  | track userId groupId => exact (track_reloaded cfg a r now userId groupId).deferral
  | untrack userId groupId => exact (untrack_reloaded cfg a now userId groupId).deferral
  | trackGroup groupId => exact (a.trackGroup_reloaded r groupId).deferral
  | resolve userId =>
    simp only [runTask]
    cases hfound : a.ensurePerson r userId with
    | none => rfl
    | some found => exact (ensurePerson_reloaded hfound).deferral
  | pruneRetained => rfl
  | saveSnapshot =>
    simp only [runTask, saveSnapshot]
    split_ifs <;> rfl
  | setContextInheritance inheritance => rfl

lemma boot_sound (h : a.Sound) (cfg : Config) (override : Option Sdk.ContextInheritance) (now : ℤ)
    (people : List Person) (rendered : List Text) :
    (a.boot cfg override now people rendered).Sound := by
  unfold boot
  cases hfile : a.file with
  | none =>
    exact ⟨⟨⟨fun hs => (by cases hs), fun q hq => (by cases hq), fun _ => rfl,
      fun p hp => (by cases hp), fun saved hs => (by cases hs)⟩, .of_owed rfl⟩, fun _ => rfl⟩
  | some saved =>
    exact ⟨⟨⟨fun hs => (by cases hs), fun q hq => (by cases hq), fun _ => rfl,
      fun p hp => (by cases hp), fun other hs => h.file other (hfile.trans hs)⟩,
      .of_owed (h.file saved hfile)⟩, fun _ => rfl⟩

lemma step_sound {cfg : Config} {s : Step} (h : a.Sound) (hr : s.Succeeds)
    (hstep : step cfg a s = some b) : b.Sound := by
  cases s with
  | turn t =>
    simp only [step, Option.ite_none_right_eq_some] at hstep
    obtain ⟨hallows, heq⟩ := hstep
    obtain rfl := Option.some.inj heq
    refine (runTask_ran h hallows hr).settle fun hdeferred => ?_
    cases hevent : t.task.isEvent with
    | true =>
      cases htask : t.task with
      | event e p => simpa only [Step.Succeeds, htask] using hr
      | _ => rw [htask] at hevent; cases hevent
    | false =>
      have hnext : a.nextIsEvent = false := by
        have := (Bool.and_eq_true_iff.mp hallows).1
        simpa [hevent] using this
      have hnone : (a.runTask cfg t).hasDeferred = false :=
        (hasDeferred_eq_false_iff _).mpr ((deferral_runTask hevent).trans (h.waiting hnext))
      rw [hnone] at hdeferred
      cases hdeferred
  | restart override now people rendered =>
    simp only [step, Option.ite_none_right_eq_some] at hstep
    obtain ⟨-, heq⟩ := hstep
    obtain rfl := Option.some.inj heq
    exact boot_sound h cfg override now people rendered

/-- A new mirror, with the file that an earlier one left. -/
def initial (file : Option State) : Applier :=
  { state := State.empty, file := file.map fun s => (s, []) }

lemma initial_sound (file : Option State) : (initial file).Sound := by
  refine ⟨⟨⟨fun hs => (by cases hs), fun q hq => (by cases hq), fun _ => rfl,
    fun p hp => (by cases hp), fun saved hs => ?_⟩, .of_owed rfl⟩, fun _ => rfl⟩
  obtain ⟨s, -, rfl⟩ := Option.map_eq_some_iff.mp hs
  rfl

/-- While no read that an event waits for fails, every event at or below the published or saved
position has had the reloads it asked for. -/
theorem position_covers (cfg : Config) (file : Option State) (steps : List Step) (a : Applier)
    (hrun : runSteps (step cfg) (initial file) steps = some a) (hreads : ∀ s ∈ steps, s.Succeeds) :
    Covers a.state.position a.log ∧ ∀ saved ∈ a.file, Covers saved.1.position saved.2 := by
  have hsound : a.Sound := by
    refine runSteps_invariant_of (C := fun _ s => s.Succeeds)
      (fun a s b h hr hstep => step_sound h hr hstep) (initial_sound file) hrun ?_
    intro before s after a₁ hsplit _
    exact hreads s (hsplit ▸ List.mem_append_right before List.mem_cons_self)
  refine ⟨hsound.pending.covers, fun saved hsaved x hx => ?_⟩
  rw [hsound.file saved hsaved] at hx
  cases hx

/-- Reads that all succeed, of a game without members. -/
def quietReads : Reads where
  position := some 3
  graph _ := .ok (⟨.exact, [], ⟨Dict.empty⟩⟩, none)
  access _ := .notFound
  accessMany _ _ := .notFound
  ban _ := some none
  sanctions _ := some ([], 0)
  identities _ := some []
  bans := some []
  sanctionList := some []
  subscribe := .ok

def quietTurn (task : Task) (reads : Reads) : Step := .turn ⟨task, reads, reads, 0, false, false⟩

lemma quietReads_succeed : quietReads.Succeed :=
  ⟨⟨fun _ h => (by cases h), fun _ _ h => (by cases h)⟩, fun _ h => (by cases h),
    fun _ h => (by cases h), fun _ h => (by cases h), fun h => (by cases h), fun h => (by cases h)⟩

/-- A mirror of one group starts, and a role of the group changes at position 5. -/
def roleChange (reads : Reads) : List Step :=
  [quietTurn .start quietReads,
    quietTurn (.event (.graph .roleUpdated (text "crew")) 5) reads,
    quietTurn .saveSnapshot quietReads]

theorem position_covers_roleChange : ∃ a,
    runSteps (step ⟨[text "crew"], none⟩) (initial none) (roleChange quietReads) = some a ∧
      a.state.position = some 5 ∧
      Covers a.state.position a.log ∧ ∀ saved ∈ a.file, Covers saved.1.position saved.2 := by
  have hrun : (runSteps (step ⟨[text "crew"], none⟩) (initial none) (roleChange quietReads)).map
      (fun a => a.state.position) = some (some 5) := by decide
  obtain ⟨a, ha, hposition⟩ := Option.map_eq_some_iff.mp hrun
  refine ⟨a, ha, hposition, position_covers _ none (roleChange quietReads) a ha fun s hs => ?_⟩
  have hquiet := quietReads_succeed
  rcases List.mem_cons.mp hs with rfl | hs
  · exact ⟨hquiet.toMembersSucceed, hquiet.toMembersSucceed⟩
  · rcases List.mem_cons.mp hs with rfl | hs
    · exact hquiet
    · obtain rfl := List.mem_singleton.mp hs
      trivial

/-- The read of the changed graph fails, and the position of the change is published and saved. -/
theorem position_passesFailedReload : ∃ a saved,
    runSteps (step ⟨[text "crew"], none⟩) (initial none)
      (roleChange { quietReads with graph := fun _ => .failed }) = some a ∧
    a.file = some saved ∧ a.state.position = some 5 ∧ saved.1.position = some 5 ∧
    (5, .graph (text "crew")) ∈ owed a.log ∧ ¬Covers a.state.position a.log ∧
    ¬Covers saved.1.position saved.2 := by
  have hrun : (runSteps (step ⟨[text "crew"], none⟩) (initial none)
      (roleChange { quietReads with graph := fun _ => .failed })).bind
      (fun a => a.file.map fun saved => (a.state.position, owed a.log, saved.1.position, owed saved.2)) =
        some (some 5, [(5, .graph (text "crew"))], some 5, [(5, .graph (text "crew"))]) := by
    decide
  obtain ⟨a, ha, hfile⟩ := Option.bind_eq_some_iff.mp hrun
  obtain ⟨saved, hsaved, heq⟩ := Option.map_eq_some_iff.mp hfile
  simp only [Prod.mk.injEq] at heq
  obtain ⟨hposition, howed, hposition', howed'⟩ := heq
  have hmem : (5, .graph (text "crew")) ∈ owed a.log := howed ▸ List.mem_singleton_self _
  have hmem' : (5, .graph (text "crew")) ∈ owed saved.2 := howed' ▸ List.mem_singleton_self _
  exact ⟨a, saved, ha, hsaved, hposition, hposition', hmem,
    fun h => (h _ hmem 5 hposition).false, fun h => (h _ hmem' 5 hposition').false⟩

end Applier

end Junjo.Mirror
