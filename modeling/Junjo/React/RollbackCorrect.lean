import Junjo.React.UseInvitations

/-!
# Rolling an optimistic update back

A rollback puts back the list that was rendered when its update was applied, and touches nothing
else. So it undoes the update exactly when the run without the update ends with that list: what the
stream, a page or another update did to the list in between is lost with it.
-/

namespace Junjo.React

/-! ### Runs with and without an update -/

/-- A call about the optimistic update with this id. -/
def MountedStep.isOf {α ε : Type} (id : ℕ) : MountedStep α ε → Bool
  | .applyOptimistic id' _ => id' = id
  | .rollback id' => id' = id
  | .dispatch _ => false
  | .render => false

/-- The steps that are not calls about an update. -/
def withoutUpdate {α ε : Type} (id : ℕ) (steps : List (MountedStep α ε)) :
    List (MountedStep α ε) :=
  steps.filter fun step => !step.isOf id

/-- No step applies another update under this id. -/
def NotApplied {α ε : Type} (id : ℕ) (steps : List (MountedStep α ε)) : Prop :=
  ∀ updater, .applyOptimistic id updater ∉ steps

/-- Actions that leave the list as it is. -/
inductive ListAction.Quiet {α ε : Type} : ListAction α ε → Prop where
  | fetchError (error : HookError) : Quiet (.fetchError error)
  | fetchMoreStart : Quiet .fetchMoreStart
  | fetchMoreError (error : HookError) : Quiet (.fetchMoreError error)
  | streamError (error : HookError) : Quiet (.streamError error)

/-- Steps that leave the list as they found it: what changes it stands between the application of
an update to the rendered list and its rollback. -/
inductive Settled {α ε : Type} : List (MountedStep α ε) → Prop where
  | nil : Settled []
  | render {steps : List (MountedStep α ε)} (h : Settled steps) : Settled (.render :: steps)
  | quiet {action : ListAction α ε} {steps : List (MountedStep α ε)} (hquiet : action.Quiet)
      (h : Settled steps) : Settled (.dispatch action :: steps)
  | update {id : ℕ} {updater : List α → List α} {inner steps : List (MountedStep α ε)}
      (hinner : NotApplied id inner) (h : Settled steps) :
      Settled (.render :: .applyOptimistic id updater :: (inner ++ .rollback id :: steps))

/-- Two states that differ in the list at most. -/
structure SameFlags {α : Type} (state state' : ListState α) : Prop where
  loading : state.loading = state'.loading
  loadingMore : state.loadingMore = state'.loadingMore
  hasMore : state.hasMore = state'.hasMore
  error : state.error = state'.error

namespace SameFlags

variable {α : Type} {state state' state'' : ListState α}

lemma refl (state : ListState α) : SameFlags state state := ⟨rfl, rfl, rfl, rfl⟩

lemma symm (h : SameFlags state state') : SameFlags state' state :=
  ⟨h.loading.symm, h.loadingMore.symm, h.hasMore.symm, h.error.symm⟩

lemma trans (h : SameFlags state state') (h' : SameFlags state' state'') :
    SameFlags state state'' :=
  ⟨h.loading.trans h'.loading, h.loadingMore.trans h'.loadingMore, h.hasMore.trans h'.hasMore,
    h.error.trans h'.error⟩

lemma ext (h : SameFlags state state') (hitems : state.items = state'.items) :
    state = state' := by
  obtain ⟨hloading, hmore, hhas, herror⟩ := h
  cases state
  cases state'
  simp only at hloading hmore hhas herror hitems
  rw [hloading, hmore, hhas, herror, hitems]

end SameFlags

namespace ListHook

variable {α ε ι : Type} [DecidableEq ι] (hook : ListHook α ε ι)

/-- A run in which an update is applied and rolled back. -/
def rolledBack (before : List (MountedStep α ε)) (id : ℕ) (updater : List α → List α)
    (between : List (MountedStep α ε)) : Mounted α :=
  hook.after {} (before ++ .applyOptimistic id updater :: (between ++ [.rollback id]))

/-- The same run without the update. -/
def neverApplied (before : List (MountedStep α ε)) (id : ℕ) (between : List (MountedStep α ε)) :
    Mounted α :=
  hook.after {} (before ++ withoutUpdate id between)

/-- What a rollback does: the list is the one rendered when the update was applied, and all else is
as without the update. -/
structure Restores (before : List (MountedStep α ε)) (id : ℕ) (updater : List α → List α)
    (between : List (MountedStep α ε)) : Prop where
  items : (hook.rolledBack before id updater between).state.items = (hook.after {} before).rendered
  flags : SameFlags (hook.rolledBack before id updater between).state
    (hook.neverApplied before id between).state
  undone_iff : (hook.rolledBack before id updater between).state =
      (hook.neverApplied before id between).state ↔
    (hook.neverApplied before id between).state.items = (hook.after {} before).rendered
  settled : (hook.after {} before).rendered = (hook.after {} before).state.items →
    Settled (withoutUpdate id between) →
    (hook.rolledBack before id updater between).state =
      (hook.neverApplied before id between).state

variable {hook} {m m' : Mounted α} {id : ℕ} {steps : List (MountedStep α ε)}

/-! ### The snapshot -/

lemma snapshot_step {step : MountedStep α ε} (h : ∀ updater, step ≠ .applyOptimistic id updater) :
    (hook.step m step).snapshots.get? id = m.snapshots.get? id := by
  cases step with
  | dispatch action => rfl
  | render => rfl
  | applyOptimistic id' updater =>
    have hne : id ≠ id' := fun heq => h updater (heq ▸ rfl)
    change (m.snapshots.set id' m.rendered).get? id = _
    rw [Dict.get?_set, if_neg hne]
  | rollback id' =>
    rw [step]
    cases m.snapshots.get? id' <;> rfl

/-- The snapshot of an update stays. -/
lemma snapshot_after (h : NotApplied id steps) :
    (hook.after m steps).snapshots.get? id = m.snapshots.get? id := by
  induction steps generalizing m with
  | nil => rfl
  | cons step steps ih =>
    rw [after_cons, ih fun updater hmem => h updater (List.mem_cons_of_mem _ hmem)]
    apply snapshot_step
    rintro updater rfl
    exact h updater List.mem_cons_self

lemma items_rollback {snapshot : List α} (h : m.snapshots.get? id = some snapshot) :
    (hook.step m (.rollback id)).state = { m.state with items := snapshot } := by
  rw [step, h]
  rfl

/-- An update and its rollback leave the list that was rendered. -/
lemma items_applied (h : NotApplied id steps) (updater : List α → List α) :
    (hook.after m (.applyOptimistic id updater :: (steps ++ [.rollback id]))).state.items =
      m.rendered := by
  have hsnapshot : (hook.after (hook.step m (.applyOptimistic id updater)) steps).snapshots.get? id =
      some m.rendered := by
    rw [snapshot_after h]
    change (m.snapshots.set id m.rendered).get? id = _
    rw [Dict.get?_set, if_pos rfl]
  rw [after_cons, after_append, after_cons, after_nil, items_rollback hsnapshot]

/-! ### All but the list -/

/-- Actions do to the flags what they do, whatever the list holds. -/
lemma sameFlags_reducer {state state' : ListState α} (h : SameFlags state state')
    (action : ListAction α ε) :
    SameFlags (hook.reducer state action) (hook.reducer state' action) := by
  obtain ⟨hloading, hmore, hhas, herror⟩ := h
  cases action <;> constructor <;> first | rfl | assumption

/-- A call about an update leaves the flags. -/
lemma sameFlags_skip {step : MountedStep α ε} (h : step.isOf id = true) :
    SameFlags (hook.step m step).state m.state := by
  cases step with
  | dispatch action => cases h
  | render => cases h
  | applyOptimistic id' updater => exact ⟨rfl, rfl, rfl, rfl⟩
  | rollback id' =>
    rw [ListHook.step]
    cases m.snapshots.get? id' <;> exact ⟨rfl, rfl, rfl, rfl⟩

lemma sameFlags_step (h : SameFlags m.state m'.state) (step : MountedStep α ε) :
    SameFlags (hook.step m step).state (hook.step m' step).state := by
  cases step with
  | dispatch action => exact sameFlags_reducer h action
  | render => exact h
  | applyOptimistic id' updater =>
    show SameFlags (hook.reducer m.state (.optimisticApply updater))
      (hook.reducer m'.state (.optimisticApply updater))
    exact sameFlags_reducer h _
  | rollback id' =>
    have hof : (MountedStep.rollback id' : MountedStep α ε).isOf id' = true := by
      simp [MountedStep.isOf]
    have hskip : ∀ m : Mounted α, SameFlags (hook.step m (.rollback id')).state m.state :=
      fun m => sameFlags_skip hof
    exact ((hskip m).trans h).trans (hskip m').symm

lemma sameFlags_after (h : SameFlags m.state m'.state) (id : ℕ)
    (steps : List (MountedStep α ε)) :
    SameFlags (hook.after m steps).state (hook.after m' (withoutUpdate id steps)).state := by
  induction steps generalizing m m' with
  | nil => exact h
  | cons step steps ih =>
    rw [withoutUpdate, List.filter_cons, after_cons]
    by_cases hof : step.isOf id = true
    · rw [hof]
      exact ih ((sameFlags_skip hof).trans h)
    · rw [Bool.not_eq_true] at hof
      rw [hof]
      exact ih (sameFlags_step h step)

/-! ### What leaves the list as it was -/

lemma items_quiet {action : ListAction α ε} (h : action.Quiet) (state : ListState α) :
    (hook.reducer state action).items = state.items := by
  cases h <;> rfl

lemma items_settled (h : Settled steps) : (hook.after m steps).state.items = m.state.items := by
  induction h generalizing m with
  | nil => rfl
  | render _ ih => exact ih
  | quiet hquiet _ ih => exact ih.trans (items_quiet hquiet _)
  | @update id updater inner steps hinner _ ih =>
    have hsplit : hook.after m
        (.render :: .applyOptimistic id updater :: (inner ++ .rollback id :: steps)) =
        hook.after (hook.after (hook.step m .render)
          (.applyOptimistic id updater :: (inner ++ [.rollback id]))) steps := by
      simp
    rw [hsplit, ih, items_applied hinner]
    rfl

/-! ### Rollbacks -/

/-- Every rollback of an update restores the list rendered when it was applied. -/
theorem restores (before : List (MountedStep α ε)) (updater : List α → List α)
    {between : List (MountedStep α ε)} (h : NotApplied id between) :
    hook.Restores before id updater between := by
  have hitems : (hook.rolledBack before id updater between).state.items =
      (hook.after {} before).rendered := by
    rw [rolledBack, after_append]
    exact items_applied h updater
  have hflags : SameFlags (hook.rolledBack before id updater between).state
      (hook.neverApplied before id between).state := by
    have hboth : SameFlags (hook.after (hook.after {} before)
        (.applyOptimistic id updater :: (between ++ [.rollback id]))).state
        (hook.after (hook.after {} before) (withoutUpdate id
          (.applyOptimistic id updater :: (between ++ [.rollback id])))).state :=
      sameFlags_after (SameFlags.refl _) id _
    have hskipped : withoutUpdate id
        (.applyOptimistic id updater :: (between ++ [MountedStep.rollback (ε := ε) id])) =
        withoutUpdate id between := by
      simp [withoutUpdate, MountedStep.isOf]
    rwa [hskipped, ← after_append, ← after_append] at hboth
  have hiff : (hook.rolledBack before id updater between).state =
      (hook.neverApplied before id between).state ↔
      (hook.neverApplied before id between).state.items = (hook.after {} before).rendered := by
    constructor
    · intro hsame
      rw [← hsame, hitems]
    · intro hsame
      exact hflags.ext (hitems.trans hsame.symm)
  refine ⟨hitems, hflags, hiff, fun hrendered hsettled => hiff.mpr ?_⟩
  rw [hrendered, neverApplied, after_append]
  exact items_settled hsettled

end ListHook

/-- In both hooks a rollback restores the rendered list, and undoes its update exactly in the runs
that end with that list without it. -/
theorem rollback_restores (id : ℕ) :
    (∀ before updater between, NotApplied id between →
      useMembers.Restores before id updater between) ∧
    ∀ before updater between, NotApplied id between →
      useInvitations.Restores before id updater between :=
  ⟨fun before updater _ h => ListHook.restores before updater h,
    fun before updater _ h => ListHook.restores before updater h⟩

/-! ### An event that a rollback loses -/

private def listed (userId : Text) : ListedMember := ⟨userId, .active, ∅, none, 1, none⟩

private def annAndBob : List (MountedStep ListedMember JunjoEvent) :=
  [.dispatch (.fetchSuccess [listed (text "ann"), listed (text "bob")] false), .render]

private def carolJoins : List (MountedStep ListedMember JunjoEvent) :=
  [.dispatch (.event (.memberJoined (text "carol") (listed (text "carol")) 1)
    (UseMembersStatus.matching (some .active)))]

private def withoutBob (members : List ListedMember) : List ListedMember :=
  members.filter fun m => m.userId ≠ text "bob"

theorem rollback_restores_annAndBob : useMembers.Restores annAndBob 0 withoutBob carolJoins :=
  (rollback_restores 0).1 annAndBob withoutBob carolJoins (by simp [NotApplied, carolJoins])

/-- Carol joins while the removal of Bob is shown, and is gone when it is rolled back. -/
theorem rollback_loses_event : ¬ ∀ before id updater between, NotApplied id between →
    (useMembers.rolledBack before id updater between).state.items =
      (useMembers.neverApplied before id between).state.items := by
  intro h
  have hlost : (useMembers.rolledBack annAndBob 0 withoutBob carolJoins).state.items ≠
      (useMembers.neverApplied annAndBob 0 carolJoins).state.items := by
    decide
  exact hlost (h annAndBob 0 withoutBob carolJoins (by simp [NotApplied, carolJoins]))

end Junjo.React
