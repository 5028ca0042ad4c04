import Junjo.Sdk.ContextRules
import Junjo.Permissions.ShapeCorrect

/-!
# The SDK's shape check

The search with a stack accepts the tables that the server's recursive search accepts: those in
shape. A value below the top of the stack waits for the one above it, which it reached last.
-/

namespace Junjo.Sdk.ContextInheritance

variable {inherit : Dict Text (List Text)}

/-- The parents of a value in a table. -/
def parentsOf (inherit : Dict Text (List Text)) (value : Text) : List Text :=
  (inherit.get? value).getD []

namespace Search

def height (s : Search) (v : Text) : ℕ := (s.longest.get? v).getD 0

/-- The frames below a value wait for it: each has just taken the value above it, and the parents
before that one are done. -/
def Waiting (inherit : Dict Text (List Text)) (done : Text → Prop) :
    Text → List (Text × ℕ) → Prop
  | _, [] => True
  | above, (value, idx) :: below =>
    (∃ k, idx = k + 1 ∧ (parentsOf inherit value)[k]? = some above ∧
      ∀ p ∈ (parentsOf inherit value).take k, done p) ∧ Waiting inherit done value below

/-- The frames: the parents that the one on top has gone over are done, the others wait. -/
def Stacked (inherit : Dict Text (List Text)) (done : Text → Prop) : List (Text × ℕ) → Prop
  | [] => True
  | (value, idx) :: below =>
    idx ≤ (parentsOf inherit value).length ∧
      (∀ p ∈ (parentsOf inherit value).take idx, done p) ∧ Waiting inherit done value below

/-- What holds between the rounds. -/
structure Sound (inherit : Dict Text (List Text)) (s : Search) : Prop where
  isHeight : ∀ v, s.done.has v → IsHeight (ParentIn inherit) v (s.height v)
  bounded : ∀ v, s.done.has v → s.height v ≤ maxContextInheritDepth
  undone : ∀ f ∈ s.frames, ¬ s.done.has f.1
  named : ∀ f ∈ s.frames, f.1 ∈ namedValues inherit
  nodup : (s.frames.map Prod.fst).Nodup
  stacked : Stacked inherit (fun v => s.done.has v) s.frames

variable {done done' : Text → Prop}

lemma Waiting.mono (h : ∀ v, done v → done' v) {above : Text} {frames : List (Text × ℕ)}
    (hwaiting : Waiting inherit done above frames) : Waiting inherit done' above frames := by
  induction frames generalizing above with
  | nil => trivial
  | cons f frames ih =>
    obtain ⟨⟨k, hk, habove, htake⟩, hbelow⟩ := hwaiting
    exact ⟨⟨k, hk, habove, fun p hp => h p (htake p hp)⟩, ih hbelow⟩

/-- The values that wait lead to the one above them. -/
lemma Waiting.isChain {above : Text} {frames : List (Text × ℕ)}
    (h : Waiting inherit done above frames) :
    ((frames.map Prod.fst).reverse ++ [above]).IsChain (ParentIn inherit) := by
  induction frames generalizing above with
  | nil => exact List.isChain_singleton above
  | cons f frames ih =>
    obtain ⟨⟨k, -, habove, -⟩, hbelow⟩ := h
    have hparent : ParentIn inherit f.1 above := List.mem_of_getElem? habove
    rw [List.map_cons, List.reverse_cons]
    refine (ih hbelow).append (List.isChain_singleton above) fun a ha b hb => ?_
    rw [List.getLast?_concat, Option.mem_def, Option.some.injEq] at ha
    rw [List.head?_cons, Option.mem_def, Option.some.injEq] at hb
    subst ha hb
    exact hparent

/-- When a value is done, the frame below it has gone over one more parent. -/
lemma Waiting.stacked {above : Text} {frames : List (Text × ℕ)}
    (h : Waiting inherit done above frames) (habove : done above) :
    Stacked inherit done frames := by
  cases frames with
  | nil => trivial
  | cons f below =>
    obtain ⟨⟨k, hk, hget, htake⟩, hbelow⟩ := h
    have hlt : k < (parentsOf inherit f.1).length := (List.getElem?_eq_some_iff.mp hget).1
    refine ⟨by omega, fun p hp => ?_, hbelow⟩
    rw [hk, List.take_add_one, hget] at hp
    rcases List.mem_append.mp hp with hp | hp
    · exact htake p hp
    · rw [List.mem_singleton.mp hp]
      exact habove

/-- What a round or a search adds: values that are done stay done, with their heights. -/
structure Extends (s s' : Search) : Prop where
  done : ∀ v, s.done.has v → s'.done.has v
  height : ∀ v, s.done.has v → s'.height v = s.height v

lemma Extends.refl (s : Search) : Extends s s := ⟨fun _ h => h, fun _ _ => rfl⟩

lemma Extends.trans {s s' s'' : Search} (h : Extends s s') (h' : Extends s' s'') :
    Extends s s'' :=
  ⟨fun v hv => h'.done v (h.done v hv),
    fun v hv => (h'.height v (h.done v hv)).trans (h.height v hv)⟩

/-- The search is on its way to finish a value: it is done or at the bottom of the path. -/
def LeadsTo (s : Search) (start : Text) : Prop :=
  s.done.has start ∨ (s.frames.map Prod.fst).getLast? = some start

/-! ### Rounds left -/

/-- The rounds that a value takes while it is not done. -/
def cost (inherit : Dict Text (List Text)) (s : Search) (v : Text) : ℕ :=
  if s.done.has v then 0 else (parentsOf inherit v).length + 2

def budget (inherit : Dict Text (List Text)) (s : Search) : ℕ :=
  ((namedValues inherit).map (s.cost inherit)).sum

/-- The rounds spent on the values of the path. -/
def spent (s : Search) : ℕ := (s.frames.map fun f => f.2 + 1).sum

lemma sum_map_le_of_subset {l l' : List Text} (hnodup : l.Nodup) (hsub : ∀ v ∈ l, v ∈ l')
    (g : Text → ℕ) : (l.map g).sum ≤ (l'.map g).sum := by
  obtain ⟨l'', hperm, hsublist⟩ := List.subperm_of_subset hnodup hsub
  rw [← (hperm.map g).sum_eq]
  exact (hsublist.map g).sum_le_sum fun _ _ => Nat.zero_le _

/-- A value that gets done frees its rounds. -/
lemma budget_add_le {s s' : Search} {value : Text} (hvalue : value ∈ namedValues inherit)
    (hle : ∀ v, s'.cost inherit v ≤ s.cost inherit v) (hzero : s'.cost inherit value = 0) :
    s'.budget inherit + s.cost inherit value ≤ s.budget inherit := by
  obtain ⟨before, after, hsplit⟩ := List.append_of_mem hvalue
  have hbefore := List.sum_le_sum (l := before) fun v _ => hle v
  have hafter := List.sum_le_sum (l := after) fun v _ => hle v
  rw [budget, budget, hsplit]
  simp only [List.map_append, List.map_cons, List.sum_append, List.sum_cons, hzero]
  omega

lemma Sound.spent_le {s : Search} (h : Sound inherit s) : s.spent ≤ s.budget inherit := by
  have hidx : ∀ frames above, Waiting inherit (fun v => s.done.has v) above frames →
      ∀ f ∈ frames, f.2 ≤ (parentsOf inherit f.1).length := by
    intro frames
    induction frames with
    | nil => simp
    | cons f frames ih =>
      rintro above ⟨⟨k, hk, hget, -⟩, hbelow⟩ f' hf'
      have hlt := (List.getElem?_eq_some_iff.mp hget).1
      rcases List.mem_cons.mp hf' with rfl | hf'
      · omega
      · exact ih _ hbelow f' hf'
  have hle : ∀ f ∈ s.frames, f.2 + 1 ≤ s.cost inherit f.1 := by
    intro f hf
    have hbound : f.2 ≤ (parentsOf inherit f.1).length := by
      have hstacked := h.stacked
      cases hframes : s.frames with
      | nil => rw [hframes] at hf; cases hf
      | cons top below =>
        rw [hframes] at hf hstacked
        rcases List.mem_cons.mp hf with rfl | hf
        · exact hstacked.1
        · exact hidx below top.1 hstacked.2.2 f hf
    rw [cost, if_neg (by simpa using h.undone f hf)]
    omega
  calc s.spent ≤ (s.frames.map fun f => s.cost inherit f.1).sum := List.sum_le_sum hle
    _ = ((s.frames.map Prod.fst).map (s.cost inherit)).sum := by
      rw [List.map_map]
      rfl
    _ ≤ s.budget inherit := by
      refine sum_map_le_of_subset h.nodup (fun v hv => ?_) _
      obtain ⟨f, hf, rfl⟩ := List.mem_map.mp hv
      exact h.named f hf

end Search

open Search

/-! ### Rounds -/

/-- What a round comes to, with the rounds that are left. -/
structure StepSpec (inherit : Dict Text (List Text)) (s : Search)
    (result : Except Text Search) : Prop where
  ok : ∀ s', result = .ok s' → Sound inherit s' ∧ Extends s s' ∧
    (∀ start, s.LeadsTo start → s'.LeadsTo start) ∧
    s'.budget inherit + s.spent + 1 ≤ s.budget inherit + s'.spent
  error : ∀ problem, result = .error problem → ¬ ShapeOk inherit

/-- The top goes over a parent that is done. -/
lemma moved_spec {s : Search} (hsound : Sound inherit s) {value parent : Text} {idx : ℕ}
    {below : List (Text × ℕ)} (hframes : s.frames = (value, idx) :: below)
    (hget : (parentsOf inherit value)[idx]? = some parent) (hdone : s.done.has parent) :
    StepSpec inherit s (.ok { s with frames := (value, idx + 1) :: below }) := by
  obtain ⟨hisHeight, hbounded, hundone, hnamed, hnodup, hstacked⟩ := hsound
  rw [hframes] at hundone hnamed hnodup hstacked
  obtain ⟨-, htake, hwaiting⟩ := hstacked
  have hlt := (List.getElem?_eq_some_iff.mp hget).1
  refine ⟨fun s' h => ?_, fun _ h => (by cases h)⟩
  cases h
  refine ⟨⟨hisHeight, hbounded, ?_, ?_, hnodup, ⟨hlt, fun p hp => ?_, hwaiting⟩⟩,
    ⟨fun _ h => h, fun _ _ => rfl⟩, fun start h => ?_, ?_⟩
  · intro f hf
    rcases List.mem_cons.mp hf with rfl | hf
    · exact hundone (value, idx) List.mem_cons_self
    · exact hundone f (List.mem_cons_of_mem _ hf)
  · intro f hf
    rcases List.mem_cons.mp hf with rfl | hf
    · exact hnamed (value, idx) List.mem_cons_self
    · exact hnamed f (List.mem_cons_of_mem _ hf)
  · rw [List.take_add_one, hget] at hp
    rcases List.mem_append.mp hp with hp | hp
    · exact htake p hp
    · rw [List.mem_singleton.mp hp]
      exact hdone
  · rw [LeadsTo, hframes] at h
    exact h
  · have hbudget : budget inherit { s with frames := (value, idx + 1) :: below }
        = s.budget inherit := rfl
    rw [hbudget]
    simp only [spent, hframes, List.map_cons, List.sum_cons]
    omega

/-- The search enters a parent that is neither done nor on the path. -/
lemma entered_spec {s : Search} (hsound : Sound inherit s) {value parent : Text} {idx : ℕ}
    {below : List (Text × ℕ)} (hframes : s.frames = (value, idx) :: below)
    (hget : (parentsOf inherit value)[idx]? = some parent) (hdone : ¬ s.done.has parent)
    (hpath : parent ∉ s.path) :
    StepSpec inherit s (.ok { s with frames := (parent, 0) :: (value, idx + 1) :: below }) := by
  obtain ⟨hisHeight, hbounded, hundone, hnamed, hnodup, hstacked⟩ := hsound
  rw [Search.path, List.mem_reverse, hframes] at hpath
  rw [hframes] at hundone hnamed hnodup hstacked
  obtain ⟨-, htake, hwaiting⟩ := hstacked
  refine ⟨fun s' h => ?_, fun _ h => (by cases h)⟩
  cases h
  refine ⟨⟨hisHeight, hbounded, ?_, ?_, List.nodup_cons.mpr ⟨hpath, hnodup⟩,
    ⟨Nat.zero_le _, by simp, ⟨idx, rfl, hget, htake⟩, hwaiting⟩⟩,
    ⟨fun _ h => h, fun _ _ => rfl⟩, fun start h => ?_, ?_⟩
  · intro f hf
    rcases List.mem_cons.mp hf with rfl | hf
    · exact hdone
    · rcases List.mem_cons.mp hf with rfl | hf
      · exact hundone (value, idx) List.mem_cons_self
      · exact hundone f (List.mem_cons_of_mem _ hf)
  · intro f hf
    rcases List.mem_cons.mp hf with rfl | hf
    · exact ParentIn.mem_namedValues (v := value) (List.mem_of_getElem? hget)
    · rcases List.mem_cons.mp hf with rfl | hf
      · exact hnamed (value, idx) List.mem_cons_self
      · exact hnamed f (List.mem_cons_of_mem _ hf)
  · rw [LeadsTo, hframes] at h
    rw [LeadsTo, List.map_cons, List.map_cons, List.getLast?_cons_cons]
    exact h
  · have hbudget : budget inherit { s with frames := (parent, 0) :: (value, idx + 1) :: below }
        = s.budget inherit := rfl
    rw [hbudget]
    simp only [spent, hframes, List.map_cons, List.sum_cons]
    omega

/-- A parent on the path closes a cycle. -/
lemma not_shapeOk_of_path {s : Search} (hsound : Sound inherit s) {value parent : Text} {idx : ℕ}
    {below : List (Text × ℕ)} (hframes : s.frames = (value, idx) :: below)
    (hget : (parentsOf inherit value)[idx]? = some parent) (hpath : parent ∈ s.path) :
    ¬ ShapeOk inherit := by
  have hstacked := hsound.stacked
  rw [hframes] at hstacked
  have hchain : (s.path ++ [parent]).IsChain (ParentIn inherit) := by
    rw [Search.path, hframes, List.map_cons, List.reverse_cons]
    refine hstacked.2.2.isChain.append (List.isChain_singleton parent) fun a ha b hb => ?_
    rw [List.getLast?_concat, Option.mem_def, Option.some.injEq] at ha
    rw [List.head?_cons, Option.mem_def, Option.some.injEq] at hb
    subst ha hb
    exact List.mem_of_getElem? hget
  exact not_shapeOk_of_cycle hchain hpath

/-- The longest chain of a value from those of its parents. -/
def bestOf (s : Search) (parents : List Text) : ℕ :=
  parents.foldl (fun best parent => max best ((s.longest.get? parent).getD 0 + 1)) 0

lemma bestOf_spec (s : Search) (parents : List Text) :
    (∀ p ∈ parents, s.height p + 1 ≤ bestOf s parents) ∧
      (bestOf s parents = 0 ∨ ∃ p ∈ parents, bestOf s parents = s.height p + 1) := by
  have hmap : bestOf s parents = (parents.map fun p => s.height p + 1).foldl max 0 := by
    rw [bestOf, List.foldl_map]
    rfl
  obtain ⟨-, hle, hmem⟩ := foldl_max_spec (parents.map fun p => s.height p + 1) 0
  rw [hmap]
  refine ⟨fun p hp => hle _ (List.mem_map.mpr ⟨p, hp, rfl⟩), hmem.imp id fun h => ?_⟩
  obtain ⟨p, hp, heq⟩ := List.mem_map.mp h
  exact ⟨p, hp, heq.symm⟩

/-- The top has gone over all its parents: it is done, with its height. -/
lemma left_spec {s : Search} (hsound : Sound inherit s) {value : Text} {idx : ℕ}
    {below : List (Text × ℕ)} (hframes : s.frames = (value, idx) :: below)
    (hget : (parentsOf inherit value)[idx]? = none) :
    IsHeight (ParentIn inherit) value (bestOf s (parentsOf inherit value)) ∧
      (bestOf s (parentsOf inherit value) ≤ maxContextInheritDepth →
        StepSpec inherit s (.ok ⟨s.done.set value true,
          s.longest.set value (bestOf s (parentsOf inherit value)), below⟩)) := by
  obtain ⟨hisHeight, hbounded, hundone, hnamed, hnodup, hstacked⟩ := hsound
  rw [hframes] at hundone hnamed hnodup hstacked
  obtain ⟨hidx, htake, hwaiting⟩ := hstacked
  have hlength : (parentsOf inherit value).length ≤ idx := List.getElem?_eq_none_iff.mp hget
  have hparents : ∀ p ∈ parentsOf inherit value, s.done.has p := by
    rwa [List.take_of_length_le hlength] at htake
  obtain ⟨hle, hattained⟩ := bestOf_spec s (parentsOf inherit value)
  have hvalue : ¬ s.done.has value := hundone (value, idx) List.mem_cons_self
  have hheight : IsHeight (ParentIn inherit) value (bestOf s (parentsOf inherit value)) := by
    refine isHeight_of_successors (fun p hp => ⟨s.height p, ?_, hisHeight p (hparents p hp)⟩) ?_
    · exact Nat.lt_of_succ_le (hle p hp)
    · refine hattained.imp id fun ⟨p, hp, heq⟩ => ?_
      exact ⟨p, s.height p, hp, hisHeight p (hparents p hp), heq⟩
  refine ⟨hheight, fun hdepth => ⟨fun s' h => ?_, fun _ h => (by cases h)⟩⟩
  generalize hbest : bestOf s (parentsOf inherit value) = best at *
  cases h
  have hhas : ∀ v, (s.done.set value true).has v ↔ v = value ∨ s.done.has v := by
    intro v
    rw [Dict.has, Dict.has, Dict.get?_set]
    split_ifs with hv <;> simp [hv]
  have hself : ((s.longest.set value best).get? value).getD 0 = best := by
    rw [Dict.get?_set_self]
    rfl
  have hother : ∀ v, v ≠ value →
      ((s.longest.set value best).get? v).getD 0 = s.height v := by
    intro v hv
    rw [Dict.get?_set_of_ne _ _ hv]
    rfl
  have hne : ∀ v, s.done.has v → v ≠ value := by
    rintro v hv rfl
    exact hvalue hv
  rw [List.map_cons, List.nodup_cons] at hnodup
  refine ⟨⟨fun v hv => ?_, fun v hv => ?_, fun f hf hdone => ?_, fun f hf => ?_, hnodup.2, ?_⟩,
    ⟨fun v hv => (hhas v).mpr (Or.inr hv), fun v hv => hother v (hne v hv)⟩, fun start h => ?_, ?_⟩
  · by_cases hv' : v = value
    · subst hv'
      rw [Search.height, hself]
      exact hheight
    · rw [Search.height, hother v hv']
      exact hisHeight v (((hhas v).mp hv).resolve_left hv')
  · by_cases hv' : v = value
    · subst hv'
      rw [Search.height, hself]
      exact hdepth
    · rw [Search.height, hother v hv']
      exact hbounded v (((hhas v).mp hv).resolve_left hv')
  · rcases (hhas f.1).mp hdone with h | h
    · exact hnodup.1 (List.mem_map.mpr ⟨f, hf, h⟩)
    · exact hundone f (List.mem_cons_of_mem _ hf) h
  · exact hnamed f (List.mem_cons_of_mem _ hf)
  · exact (hwaiting.mono fun v hv => (hhas v).mpr (Or.inr hv)).stacked ((hhas value).mpr (Or.inl rfl))
  · rw [LeadsTo, hframes] at h
    rw [LeadsTo]
    rcases h with h | h
    · exact Or.inl ((hhas start).mpr (Or.inr h))
    · cases below with
      | nil => exact Or.inl ((hhas start).mpr (Or.inl (Option.some.inj h).symm))
      | cons f below => exact Or.inr h
  · have hbudget : budget inherit ⟨s.done.set value true, s.longest.set value best, below⟩
        + s.cost inherit value ≤ s.budget inherit :=
      budget_add_le (hnamed (value, idx) List.mem_cons_self) (fun v => ?_) ?_
    · have hcost : s.cost inherit value = (parentsOf inherit value).length + 2 := if_neg hvalue
      rw [hcost] at hbudget
      simp only [spent, hframes, List.map_cons, List.sum_cons]
      omega
    · simp only [cost]
      split_ifs with h₁ h₂
      · exact le_rfl
      · exact Nat.zero_le _
      · exact absurd ((hhas v).mpr (Or.inr ‹_›)) h₁
      · exact le_rfl
    · rw [cost, if_pos ((hhas value).mpr (Or.inl rfl))]

lemma searchStep_spec {s : Search} (hsound : Sound inherit s) (hopen : s.frames ≠ []) :
    StepSpec inherit s (searchStep inherit s) := by
  unfold searchStep
  cases hframes : s.frames with
  | nil => exact absurd hframes hopen
  | cons top below =>
    obtain ⟨value, idx⟩ := top
    have hparents : (inherit.get? value).getD [] = parentsOf inherit value := rfl
    dsimp only
    rw [hparents]
    cases hget : (parentsOf inherit value)[idx]? with
    | some parent =>
      dsimp only
      split_ifs with hdone hpath
      · exact moved_spec hsound hframes hget hdone
      · exact ⟨fun _ h => (by cases h), fun _ _ => not_shapeOk_of_path hsound hframes hget hpath⟩
      · exact entered_spec hsound hframes hget hdone hpath
    | none =>
      obtain ⟨hheight, hok⟩ := left_spec hsound hframes hget
      dsimp only
      split_ifs with hdeep
      · exact ⟨fun _ h => (by cases h), fun _ _ => not_shapeOk_of_isHeight hheight hdeep⟩
      · exact hok (not_lt.mp hdeep)

/-! ### Searches -/

/-- The loop over the path ends with the value at its bottom done. -/
lemma search_spec {fuel : ℕ} {s : Search} (hsound : Sound inherit s)
    (hfuel : s.budget inherit < fuel + s.spent) :
    (∀ s', search inherit fuel s = .ok s' → Sound inherit s' ∧ Extends s s' ∧ s'.frames = [] ∧
      ∀ start, s.LeadsTo start → s'.done.has start) ∧
    ∀ problem, search inherit fuel s = .error problem → ¬ ShapeOk inherit := by
  induction fuel generalizing s with
  | zero =>
    have := hsound.spent_le
    omega
  | succ fuel ih =>
    rw [search]
    split_ifs with hempty
    · rw [List.isEmpty_iff] at hempty
      refine ⟨fun s' h => ?_, fun _ h => (by cases h)⟩
      cases h
      refine ⟨hsound, .refl _, hempty, fun start h => ?_⟩
      rcases h with h | h
      · exact h
      · rw [hempty] at h
        cases h
    · have hstep := searchStep_spec hsound (by simpa using hempty)
      cases hresult : searchStep inherit s with
      | error problem => exact ⟨fun _ h => (by cases h), fun _ _ => hstep.error _ hresult⟩
      | ok next =>
        obtain ⟨hs, hext, hleads, hrounds⟩ := hstep.ok _ hresult
        obtain ⟨hok, herror⟩ := ih hs (by omega)
        refine ⟨fun s' h => ?_, herror⟩
        obtain ⟨hs', hext', hframes', hdone'⟩ := hok s' h
        exact ⟨hs', hext.trans hext', hframes', fun start h => hdone' start (hleads start h)⟩

/-- The search from one value. -/
lemma searchFrom_spec {s : Search} (hsound : Sound inherit s) (hframes : s.frames = [])
    {start : Text} (hstart : start ∈ inherit.keys) :
    (∀ s', searchFrom inherit s start = .ok s' →
      Sound inherit s' ∧ Extends s s' ∧ s'.frames = [] ∧ s'.done.has start) ∧
    ∀ problem, searchFrom inherit s start = .error problem → ¬ ShapeOk inherit := by
  unfold searchFrom
  split_ifs with hdone
  · refine ⟨fun s' h => ?_, fun _ h => (by cases h)⟩
    cases h
    exact ⟨hsound, .refl _, hframes, hdone⟩
  · have hbegin : Sound inherit { s with frames := [(start, 0)] } := by
      refine ⟨hsound.isHeight, hsound.bounded, fun f hf => ?_, fun f hf => ?_, by simp,
        Nat.zero_le _, by simp, trivial⟩
      · rw [List.mem_singleton.mp hf]
        exact hdone
      · rw [List.mem_singleton.mp hf]
        exact mem_namedValues_of_mem_keys hstart
    have hrounds : Search.budget inherit { s with frames := [(start, 0)] }
        ≤ searchRounds inherit := by
      refine List.sum_le_sum fun v _ => ?_
      rw [cost]
      split_ifs
      · exact Nat.zero_le _
      · exact le_rfl
    have hfuel : Search.budget inherit { s with frames := [(start, 0)] }
        < searchRounds inherit + 1 + Search.spent { s with frames := [(start, 0)] } := by omega
    obtain ⟨hok, herror⟩ := search_spec hbegin hfuel
    refine ⟨fun s' h => ?_, herror⟩
    obtain ⟨hs', hext, hframes', hdone'⟩ := hok s' h
    exact ⟨hs', ⟨hext.done, hext.height⟩, hframes', hdone' start (Or.inr rfl)⟩

lemma searchAll_spec {values : List Text} (hvalues : ∀ v ∈ values, v ∈ inherit.keys)
    {s : Search} (hsound : Sound inherit s) (hframes : s.frames = []) :
    (∀ s', values.foldlM (searchFrom inherit) s = .ok s' →
      Sound inherit s' ∧ Extends s s' ∧ ∀ v ∈ values, s'.done.has v) ∧
    ∀ problem, values.foldlM (searchFrom inherit) s = .error problem → ¬ ShapeOk inherit := by
  induction values generalizing s with
  | nil =>
    refine ⟨fun s' h => ?_, fun _ h => (by cases h)⟩
    cases h
    exact ⟨hsound, .refl _, by simp⟩
  | cons value values ih =>
    obtain ⟨hok, herror⟩ := searchFrom_spec hsound hframes (hvalues value List.mem_cons_self)
    rw [List.foldlM_cons]
    cases hresult : searchFrom inherit s value with
    | error problem => exact ⟨fun _ h => (by cases h), fun _ _ => herror _ hresult⟩
    | ok next =>
      obtain ⟨hs, hext, hframes', hdone⟩ := hok _ hresult
      obtain ⟨hok', herror'⟩ := ih (fun v hv => hvalues v (List.mem_cons_of_mem _ hv)) hs hframes'
      refine ⟨fun s' h => ?_, herror'⟩
      obtain ⟨hs', hext', hdone'⟩ := hok' s' h
      refine ⟨hs', hext.trans hext', fun v hv => ?_⟩
      rcases List.mem_cons.mp hv with rfl | hv
      · exact hext'.done _ hdone
      · exact hdone' v hv

/-- The SDK's check refuses exactly the tables that are out of shape. -/
lemma shapeProblem_eq_none : shapeProblem inherit = none ↔ ShapeOk inherit := by
  obtain ⟨hok, herror⟩ := searchAll_spec (fun v (hv : v ∈ inherit.keys) => hv)
    (s := ⟨Dict.empty, Dict.empty, []⟩)
    ⟨by simp [Dict.has], by simp [Dict.has], by simp, by simp, by simp, trivial⟩ rfl
  unfold shapeProblem
  cases hall : inherit.keys.foldlM (searchFrom inherit) ⟨Dict.empty, Dict.empty, []⟩ with
  | error problem => simpa using herror _ hall
  | ok s =>
    obtain ⟨hsound, -, hdone⟩ := hok s hall
    refine ⟨fun _ => shapeOk_of_keys s.height fun v hv => ?_, fun _ => rfl⟩
    exact ⟨hsound.isHeight v (hdone v hv), hsound.bounded v (hdone v hv)⟩

end Junjo.Sdk.ContextInheritance
