import Junjo.Core.Lists

/-!
# Changes to a set that may be absent

Events that remove a set, put one in its place or change the one that is there are closed under
composition. So a part of a history that a set already shows can be replayed on it without harm.
-/

namespace Junjo

inductive SetChange (ι : Type*) where
  | clear
  | put (s : Finset ι)
  | change (removed added : Finset ι)

namespace SetChange

variable {ι : Type*} [DecidableEq ι]

def apply : SetChange ι → Option (Finset ι) → Option (Finset ι)
  | clear, _ => none
  | put s, _ => some s
  | change removed added, s => s.map fun s => s \ removed ∪ added

@[simp] lemma apply_clear (s : Option (Finset ι)) : clear.apply s = none := rfl

@[simp] lemma apply_put (s : Finset ι) (t : Option (Finset ι)) : (put s).apply t = some s := rfl

@[simp] lemma apply_change_none (removed added : Finset ι) :
    (change removed added).apply none = none := rfl

@[simp] lemma apply_change_some (removed added s : Finset ι) :
    (change removed added).apply (some s) = some (s \ removed ∪ added) := rfl

/-- The change that leaves all as it is. -/
def keep : SetChange ι := change ∅ ∅

@[simp] lemma apply_keep (s : Option (Finset ι)) : keep.apply s = s := by
  cases s with
  | none => rfl
  | some s => simp [keep]

/-- One change and then another. -/
def andThen : SetChange ι → SetChange ι → SetChange ι
  | _, clear => clear
  | _, put s => put s
  | clear, change _ _ => clear
  | put s, change removed added => put (s \ removed ∪ added)
  | change removed added, change removed' added' =>
    change (removed ∪ removed') (added \ removed' ∪ added')

@[simp] lemma apply_andThen (c d : SetChange ι) (s : Option (Finset ι)) :
    (c.andThen d).apply s = d.apply (c.apply s) := by
  cases d with
  | clear => cases c <;> rfl
  | put t => cases c <;> rfl
  | change removed' added' =>
    cases c with
    | clear => rfl
    | put t => rfl
    | change removed added =>
      cases s with
      | none => rfl
      | some s =>
        simp only [andThen, apply_change_some, Option.some.injEq]
        ext i
        simp only [Finset.mem_union, Finset.mem_sdiff]
        tauto

/-- A change made twice is made once. -/
lemma apply_apply (c : SetChange ι) (s : Option (Finset ι)) :
    c.apply (c.apply s) = c.apply s := by
  cases c with
  | clear => rfl
  | put t => rfl
  | change removed added =>
    cases s with
    | none => rfl
    | some s =>
      simp only [apply_change_some, Option.some.injEq]
      ext i
      simp only [Finset.mem_union, Finset.mem_sdiff]
      tauto

/-- What a change makes of nothing is nothing, or what it makes of everything. -/
lemma apply_none (c : SetChange ι) : c.apply none = none ∨ ∀ s, c.apply s = c.apply none := by
  cases c with
  | clear => exact .inl rfl
  | put t => exact .inr fun _ => rfl
  | change removed added => exact .inl rfl

/-! ### Histories -/

/-- Changes made one after the other. -/
def replay (changes : List (SetChange ι)) (s : Option (Finset ι)) : Option (Finset ι) :=
  changes.foldl (fun s c => c.apply s) s

@[simp] lemma replay_nil (s : Option (Finset ι)) : replay [] s = s := rfl

@[simp] lemma replay_cons (c : SetChange ι) (changes : List (SetChange ι))
    (s : Option (Finset ι)) : replay (c :: changes) s = replay changes (c.apply s) := rfl

@[simp] lemma replay_append (changes changes' : List (SetChange ι)) (s : Option (Finset ι)) :
    replay (changes ++ changes') s = replay changes' (replay changes s) :=
  List.foldl_append

/-- A history is one change. -/
lemma exists_replay (changes : List (SetChange ι)) : ∃ c : SetChange ι, replay changes = c.apply := by
  induction changes with
  | nil => exact ⟨keep, funext fun s => (apply_keep s).symm⟩
  | cons c changes ih =>
    obtain ⟨d, hd⟩ := ih
    exact ⟨c.andThen d, funext fun s => by rw [replay_cons, hd, apply_andThen]⟩

lemma replay_none (changes : List (SetChange ι)) :
    replay changes none = none ∨ ∀ s, replay changes s = replay changes none := by
  obtain ⟨c, hc⟩ := exists_replay changes
  rw [hc]
  exact apply_none c

/-- The last part of a history can be replayed on what the whole history leaves. -/
lemma replay_shown (changes changes' : List (SetChange ι)) (s : Option (Finset ι)) :
    replay changes' (replay (changes ++ changes') s) = replay (changes ++ changes') s := by
  obtain ⟨c, hc⟩ := exists_replay changes'
  rw [replay_append, hc, apply_apply]

end SetChange

end Junjo
