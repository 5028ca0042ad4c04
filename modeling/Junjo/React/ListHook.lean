import Junjo.Core.Dict
import Junjo.Core.Run
import Junjo.Core.Text

/-!
# The reducer of the list hooks

`useMembers` and `useInvitations` keep a list in step with a group stream through reducers of one
shape. They differ in the field that identifies a row and in what an event does to the list.
-/

namespace Junjo.React

/-- Why a request or the stream failed. -/
inductive HookError where
  | rejected (message : Text)
  | streamClosed
deriving DecidableEq

structure ListState (α : Type) where
  items : List α := []
  loading : Bool := true
  loadingMore : Bool := false
  hasMore : Bool := false
  error : Option HookError := none
deriving DecidableEq

inductive ListAction (α ε : Type) where
  | fetchStart
  | fetchSuccess (items : List α) (hasMore : Bool)
  | fetchError (error : HookError)
  | fetchMoreStart
  | fetchMoreSuccess (items : List α) (hasMore : Bool)
  | fetchMoreError (error : HookError)
  | streamError (error : HookError)
  | event (event : ε) (matching : α → Bool)
  | optimisticApply (updater : List α → List α)
  | optimisticRollback (snapshot : List α)

/-- What tells the reducers apart. -/
structure ListHook (α ε ι : Type) where
  key : α → ι
  applyEvent : ε → (α → Bool) → List α → List α

section Reducer

variable {α ε ι : Type} [DecidableEq ι]

/-- The rows of a page that the list does not hold yet. -/
def ListHook.additions (hook : ListHook α ε ι) (items page : List α) : List α :=
  page.filter fun row => hook.key row ∉ items.map hook.key

lemma ListHook.mem_additions {hook : ListHook α ε ι} {items page : List α} {row : α} :
    row ∈ hook.additions items page ↔ row ∈ page ∧ hook.key row ∉ items.map hook.key := by
  simp only [ListHook.additions, List.mem_filter, decide_eq_true_eq]

/-- A row that is searched for by a key that the list does not hold is found in the page. -/
lemma ListHook.find?_additions {hook : ListHook α ε ι} {items page : List α} {p : α → Bool}
    (h : ∀ row ∈ page, p row = true → hook.key row ∉ items.map hook.key) :
    (hook.additions items page).find? p = page.find? p := by
  induction page with
  | nil => rfl
  | cons row page ih =>
    have ih := ih fun row' hrow' => h row' (List.mem_cons_of_mem _ hrow')
    rw [additions] at ih ⊢
    rw [List.filter_cons]
    cases hp : p row with
    | true =>
      rw [if_pos (decide_eq_true (h row List.mem_cons_self hp)), List.find?_cons_of_pos hp,
        List.find?_cons_of_pos hp]
    | false =>
      have hp : ¬ p row = true := by simp [hp]
      rw [List.find?_cons_of_neg hp]
      split_ifs
      · rw [List.find?_cons_of_neg hp, ih]
      · exact ih

def ListHook.reducer (hook : ListHook α ε ι) (state : ListState α) :
    ListAction α ε → ListState α
  | .fetchStart => {}
  | .fetchSuccess items hasMore => { items, loading := false, hasMore }
  | .fetchError error => { state with loading := false, loadingMore := false, error := some error }
  | .fetchMoreStart => { state with loadingMore := true, error := none }
  | .fetchMoreSuccess page hasMore =>
    { state with
      items := state.items ++ hook.additions state.items page
      loadingMore := false
      hasMore
      error := none }
  | .fetchMoreError error => { state with loadingMore := false, error := some error }
  | .streamError error => { state with error := some error }
  | .event event matching => { state with items := hook.applyEvent event matching state.items }
  | .optimisticApply updater => { state with items := updater state.items }
  | .optimisticRollback snapshot => { state with items := snapshot }

/-! ### Optimistic updates -/

/-- A mounted hook: the state, the list of the last render (`membersRef`, `invitationsRef`), and
for each optimistic update the list that its rollback restores. -/
structure Mounted (α : Type) where
  state : ListState α := {}
  rendered : List α := []
  snapshots : Dict ℕ (List α) := Dict.empty

/-- A step of a mounted hook: a page, a failure or an event is dispatched, the component renders,
or a call of `applyOptimistic` or of the function that it returned. -/
inductive MountedStep (α ε : Type) where
  | dispatch (action : ListAction α ε)
  | render
  | applyOptimistic (id : ℕ) (updater : List α → List α)
  | rollback (id : ℕ)

def ListHook.dispatch (hook : ListHook α ε ι) (m : Mounted α) (action : ListAction α ε) :
    Mounted α :=
  { m with state := hook.reducer m.state action }

def ListHook.step (hook : ListHook α ε ι) (m : Mounted α) : MountedStep α ε → Mounted α
  | .dispatch action => hook.dispatch m action
  | .render => { m with rendered := m.state.items }
  | .applyOptimistic id updater =>
    hook.dispatch { m with snapshots := m.snapshots.set id m.rendered } (.optimisticApply updater)
  | .rollback id =>
    match m.snapshots.get? id with
    | none => m
    | some snapshot => hook.dispatch m (.optimisticRollback snapshot)

/-- A mounted hook after some steps. -/
def ListHook.after (hook : ListHook α ε ι) (m : Mounted α) (steps : List (MountedStep α ε)) :
    Mounted α :=
  steps.foldl hook.step m

@[simp] lemma ListHook.after_nil (hook : ListHook α ε ι) (m : Mounted α) : hook.after m [] = m := rfl

@[simp] lemma ListHook.after_cons (hook : ListHook α ε ι) (m : Mounted α) (step : MountedStep α ε)
    (steps : List (MountedStep α ε)) :
    hook.after m (step :: steps) = hook.after (hook.step m step) steps := rfl

@[simp] lemma ListHook.after_append (hook : ListHook α ε ι) (m : Mounted α)
    (steps steps' : List (MountedStep α ε)) :
    hook.after m (steps ++ steps') = hook.after (hook.after m steps) steps' :=
  List.foldl_append

end Reducer

end Junjo.React
