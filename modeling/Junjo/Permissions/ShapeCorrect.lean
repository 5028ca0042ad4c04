import Junjo.Permissions.ContextRules
import Junjo.Core.Chains

/-!
# The shape check of an inheritance table

The search accepts a table of parents exactly when no walk along it is longer than the limit, which
also excludes cycles.
-/

namespace Junjo

/-- `w` is a parent of `v` in a table of parents. -/
def ParentIn (inherit : Dict Text (List Text)) (v w : Text) : Prop :=
  w ∈ (inherit.get? v).getD []

/-- No walk is longer than the limit. -/
def ShapeOk (inherit : Dict Text (List Text)) : Prop :=
  WalksWithin (ParentIn inherit) maxContextInheritDepth

variable {inherit : Dict Text (List Text)}

lemma ParentIn.mem_keys {v w : Text} (h : ParentIn inherit v w) : v ∈ inherit.keys := by
  unfold ParentIn at h
  cases hget : inherit.get? v with
  | none => rw [hget] at h; cases h
  | some parents => exact Dict.mem_keys_iff.mpr ⟨parents, hget⟩

lemma mem_namedValues_of_mem_keys {v : Text} (h : v ∈ inherit.keys) : v ∈ namedValues inherit := by
  obtain ⟨e, he, rfl⟩ := List.mem_map.mp h
  exact List.mem_flatMap.mpr ⟨e, he, List.mem_cons_self⟩

lemma ParentIn.mem_namedValues {v w : Text} (h : ParentIn inherit v w) :
    w ∈ namedValues inherit := by
  obtain ⟨parents, hget⟩ := Dict.mem_keys_iff.mp h.mem_keys
  have hmem : w ∈ parents := by simpa [ParentIn, hget] using h
  exact List.mem_flatMap.mpr ⟨_, Dict.get?_eq_some_iff.mp hget, List.mem_cons_of_mem _ hmem⟩

/-- A table is in shape when the values that list parents have heights within the limit. -/
lemma shapeOk_of_keys (height : Text → ℕ)
    (h : ∀ v ∈ inherit.keys, IsHeight (ParentIn inherit) v (height v) ∧
      height v ≤ maxContextInheritDepth) : ShapeOk inherit := by
  intro v w m hw
  cases m with
  | zero => exact Nat.zero_le _
  | succ m =>
    obtain ⟨p, hp, -⟩ := mem_walkTo_succ.mp hw
    obtain ⟨hheight, hle⟩ := h v hp.mem_keys
    exact (hheight.2 w (m + 1) hw).trans hle

/-- A value whose height is over the limit spoils the shape. -/
lemma not_shapeOk_of_isHeight {v : Text} {n : ℕ} (h : IsHeight (ParentIn inherit) v n)
    (hdeep : maxContextInheritDepth < n) : ¬ ShapeOk inherit := by
  intro hshape
  obtain ⟨w, hw⟩ := h.1
  exact absurd (hshape v w n hw) (Nat.not_le_of_lt hdeep)

/-- The ends of a chain are related. -/
lemma transGen_of_isChain {α : Type*} {R : α → α → Prop} {x y : α} {l : List α}
    (h : (x :: l ++ [y]).IsChain R) : Relation.TransGen R x y := by
  induction l generalizing x with
  | nil =>
    have hxy : R x y := by simpa using h
    exact .single hxy
  | cons z l ih =>
    rw [List.cons_append, List.cons_append, List.isChain_cons_cons] at h
    exact .head h.1 (ih h.2)

namespace Visits

/-- The recorded height of a value. -/
def height (s : Visits) (v : Text) : ℕ := (s.longest.get? v).getD 0

/-- What holds of the search while it is on a path: the values of the path are active, and the
values that are done have their heights. -/
structure Sound (inherit : Dict Text (List Text)) (path : List Text) (s : Visits) : Prop where
  active : ∀ v, s.state.get? v = some .active ↔ v ∈ path
  isHeight : ∀ v, s.state.get? v = some .done → IsHeight (ParentIn inherit) v (s.height v)
  bounded : ∀ v, s.state.get? v = some .done → s.height v ≤ maxContextInheritDepth

/-- What a search adds: values that are done stay done, with their heights. -/
structure Extends (s s' : Visits) : Prop where
  done : ∀ v, s.state.get? v = some .done → s'.state.get? v = some .done
  height : ∀ v, s.state.get? v = some .done → s'.height v = s.height v

lemma Extends.refl (s : Visits) : Extends s s := ⟨fun _ h => h, fun _ _ => rfl⟩

lemma Extends.trans {s s' s'' : Visits} (h : Extends s s') (h' : Extends s' s'') :
    Extends s s'' :=
  ⟨fun v hv => h'.done v (h.done v hv),
    fun v hv => (h'.height v (h.done v hv)).trans (h.height v hv)⟩

/-- A value that is not seen yet becomes active. -/
def start (s : Visits) (value : Text) : Visits :=
  { s with state := s.state.set value .active }

def finish (s : Visits) (value : Text) (best : ℕ) : Visits :=
  ⟨s.state.set value .done, s.longest.set value best⟩

variable {path : List Text} {s s' : Visits} {value : Text} {best : ℕ}

lemma Sound.start (h : Sound inherit path s) :
    Sound inherit (path ++ [value]) (s.start value) := by
  have hdone : ∀ v, (s.start value).state.get? v = some .done → s.state.get? v = some .done := by
    intro v hv
    rw [Visits.start, Dict.get?_set] at hv
    split_ifs at hv
    · cases hv
    · exact hv
  refine ⟨fun v => ?_, fun v hv => h.isHeight v (hdone v hv), fun v hv => h.bounded v (hdone v hv)⟩
  rw [Visits.start, Dict.get?_set, List.mem_append, List.mem_singleton, ← h.active]
  split_ifs with hv
  · simp [hv]
  · simp [hv]

lemma extends_start (hnew : s.state.get? value = none) : Extends s (s.start value) := by
  refine ⟨fun v hv => ?_, fun _ _ => rfl⟩
  have hne : v ≠ value := by rintro rfl; rw [hnew] at hv; cases hv
  rw [Visits.start, Dict.get?_set_of_ne _ _ hne]
  exact hv

lemma Sound.finish (h : Sound inherit (path ++ [value]) s) (hpath : value ∉ path)
    (hheight : IsHeight (ParentIn inherit) value best) (hle : best ≤ maxContextInheritDepth) :
    Sound inherit path (s.finish value best) := by
  have hof : ∀ v, v ≠ value → (s.finish value best).height v = s.height v := by
    intro v hv
    rw [Visits.height, Visits.finish, Dict.get?_set_of_ne _ _ hv]
    rfl
  have hself : (s.finish value best).height value = best := by
    rw [Visits.height, Visits.finish, Dict.get?_set_self]
    rfl
  have hdone : ∀ v, v ≠ value → (s.finish value best).state.get? v = s.state.get? v :=
    fun v hv => Dict.get?_set_of_ne _ _ hv
  refine ⟨fun v => ?_, fun v hv => ?_, fun v hv => ?_⟩
  · by_cases hv : v = value
    · subst hv
      simp [Visits.finish, hpath]
    · rw [hdone v hv, h.active]
      simp [hv]
  · by_cases hvalue : v = value
    · subst hvalue
      rwa [hself]
    · rw [hdone v hvalue] at hv
      rw [hof v hvalue]
      exact h.isHeight v hv
  · by_cases hvalue : v = value
    · subst hvalue
      rwa [hself]
    · rw [hdone v hvalue] at hv
      rw [hof v hvalue]
      exact h.bounded v hv

lemma extends_finish (hactive : s.state.get? value = some .active) :
    Extends s (s.finish value best) := by
  have hne : ∀ v, s.state.get? v = some .done → v ≠ value := by
    rintro v hv rfl
    rw [hactive] at hv
    cases hv
  refine ⟨fun v hv => ?_, fun v hv => ?_⟩
  · rw [Visits.finish, Dict.get?_set_of_ne _ _ (hne v hv)]
    exact hv
  · rw [Visits.height, Visits.finish, Dict.get?_set_of_ne _ _ (hne v hv)]
    rfl

end Visits

open Visits

/-- What a search from a value comes to: the value is done, or the table is out of shape. -/
structure VisitSpec (inherit : Dict Text (List Text)) (path : List Text) (value : Text)
    (s : Visits) (result : Except Text Visits) : Prop where
  ok : ∀ s', result = .ok s' →
    Sound inherit path s' ∧ Extends s s' ∧ s'.state.get? value = some .done
  error : ∀ problem, result = .error problem → ¬ ShapeOk inherit

/-- The step of the loop over the parents of a value. -/
def visitParent (inherit : Dict Text (List Text)) (fuel : ℕ) (path : List Text)
    (acc : ℕ × Visits) (parent : Text) : Except Text (ℕ × Visits) := do
  let s ← visit inherit fuel parent path acc.2
  pure (max acc.1 ((s.longest.get? parent).getD 0 + 1), s)

/-- `best'` is the largest height of a parent plus one, or `best` when that is larger. -/
structure BestOf (s : Visits) (best : ℕ) (parents : List Text) (best' : ℕ) : Prop where
  start_le : best ≤ best'
  le : ∀ p ∈ parents, s.height p + 1 ≤ best'
  attained : best' = best ∨ ∃ p ∈ parents, best' = s.height p + 1

/-- What the loop over parents comes to. -/
structure ParentsSpec (inherit : Dict Text (List Text)) (path parents : List Text)
    (acc : ℕ × Visits) (result : Except Text (ℕ × Visits)) : Prop where
  ok : ∀ acc', result = .ok acc' → Sound inherit path acc'.2 ∧ Extends acc.2 acc'.2 ∧
    (∀ p ∈ parents, acc'.2.state.get? p = some .done) ∧ BestOf acc'.2 acc.1 parents acc'.1
  error : ∀ problem, result = .error problem → ¬ ShapeOk inherit

lemma visitParents_spec {fuel : ℕ} {path parents : List Text}
    (hvisit : ∀ p ∈ parents, ∀ s, Sound inherit path s →
      VisitSpec inherit path p s (visit inherit fuel p path s))
    {acc : ℕ × Visits} (hsound : Sound inherit path acc.2) :
    ParentsSpec inherit path parents acc (parents.foldlM (visitParent inherit fuel path) acc) := by
  induction parents generalizing acc with
  | nil =>
    refine ⟨fun acc' h => ?_, fun problem h => by cases h⟩
    cases h
    exact ⟨hsound, .refl _, by simp, le_rfl, by simp, Or.inl rfl⟩
  | cons p parents ih =>
    have hp := hvisit p List.mem_cons_self acc.2 hsound
    rw [List.foldlM_cons]
    cases hresult : visit inherit fuel p path acc.2 with
    | error problem =>
      have hstep : visitParent inherit fuel path acc p = .error problem := by
        rw [visitParent, hresult]; rfl
      rw [hstep]
      exact ⟨fun _ h => (by cases h), fun _ _ => hp.error problem hresult⟩
    | ok s =>
      have hstep : visitParent inherit fuel path acc p
          = .ok (max acc.1 (s.height p + 1), s) := by
        rw [visitParent, hresult]; rfl
      obtain ⟨hs, hext, hdone⟩ := hp.ok s hresult
      have hrest : ParentsSpec inherit path parents (max acc.1 (s.height p + 1), s) _ :=
        ih (fun q hq => hvisit q (List.mem_cons_of_mem _ hq)) hs
      rw [hstep]
      refine ⟨fun acc' h => ?_, fun problem h => hrest.error problem h⟩
      obtain ⟨hs', hext', hdone', hbest⟩ := hrest.ok acc' h
      have hheight : acc'.2.height p = s.height p := hext'.height p hdone
      refine ⟨hs', hext.trans hext', fun q hq => ?_, ?_, fun q hq => ?_, ?_⟩
      · rcases List.mem_cons.mp hq with rfl | hq
        · exact hext'.done q hdone
        · exact hdone' q hq
      · exact (le_max_left _ _).trans hbest.start_le
      · rcases List.mem_cons.mp hq with rfl | hq
        · rw [hheight]
          exact (le_max_right _ _).trans hbest.start_le
        · exact hbest.le q hq
      · rcases hbest.attained with h | ⟨q, hq, h⟩
        · rcases max_choice acc.1 (s.height p + 1) with hmax | hmax
          · exact Or.inl (h.trans hmax)
          · exact Or.inr ⟨p, List.mem_cons_self, by rw [hheight]; exact h.trans hmax⟩
        · exact Or.inr ⟨q, List.mem_cons_of_mem _ hq, h⟩

/-- The search from a value that was not seen. -/
lemma visit_new {fuel : ℕ} {value : Text} {path : List Text} {s : Visits}
    (hstate : s.state.get? value = none) :
    visit inherit (fuel + 1) value path s
      = (((inherit.get? value).getD []).foldlM (visitParent inherit fuel (path ++ [value]))
          (0, s.start value)).bind fun acc =>
        if maxContextInheritDepth < acc.1 then
          .error (text "inheritance is deeper than 16 steps")
        else .ok (acc.2.finish value acc.1) := by
  rw [visit, hstate]
  rfl

/-- The path back to an active value is a cycle. -/
lemma not_shapeOk_of_cycle {path : List Text} {value : Text}
    (hchain : (path ++ [value]).IsChain (ParentIn inherit)) (hmem : value ∈ path) :
    ¬ ShapeOk inherit := by
  intro hshape
  obtain ⟨before, after, rfl⟩ := List.append_of_mem hmem
  have hcycle : (value :: after ++ [value]).IsChain (ParentIn inherit) := by
    rw [List.append_assoc] at hchain
    exact hchain.right_of_append
  exact hshape.acyclic value (transGen_of_isChain hcycle)

/-- The search from a value, on a path of distinct values that leads to it. -/
lemma visit_spec {fuel : ℕ} {value : Text} {path : List Text} {s : Visits}
    (hsound : Sound inherit path s) (hnodup : path.Nodup)
    (hnamed : ∀ v ∈ path ++ [value], v ∈ namedValues inherit)
    (hchain : (path ++ [value]).IsChain (ParentIn inherit))
    (hfuel : (namedValues inherit).length < fuel + path.length) :
    VisitSpec inherit path value s (visit inherit fuel value path s) := by
  induction fuel generalizing value path s with
  | zero =>
    have hle : path.length ≤ (namedValues inherit).length :=
      (List.subperm_of_subset hnodup fun v hv => hnamed v (List.mem_append_left _ hv)).length_le
    omega
  | succ fuel ih =>
    cases hstate : s.state.get? value with
    | some state =>
      rw [visit, hstate]
      cases state with
      | done =>
        refine ⟨fun s' h => ?_, fun _ h => (by cases h)⟩
        cases h
        exact ⟨hsound, .refl _, hstate⟩
      | active =>
        refine ⟨fun _ h => (by cases h), fun _ _ => ?_⟩
        exact not_shapeOk_of_cycle hchain ((hsound.active value).mp hstate)
    | none =>
      have hnew : value ∉ path := by
        rw [← hsound.active, hstate]
        exact fun h => by cases h
      have hnodup' : (path ++ [value]).Nodup := by
        rw [List.nodup_append]
        refine ⟨hnodup, List.nodup_singleton _, ?_⟩
        rintro a ha b hb rfl
        exact hnew (List.mem_singleton.mp hb ▸ ha)
      have hparents : ParentsSpec inherit (path ++ [value]) ((inherit.get? value).getD [])
          (0, s.start value) (((inherit.get? value).getD []).foldlM
            (visitParent inherit fuel (path ++ [value])) (0, s.start value)) := by
        refine visitParents_spec (fun p hp s' hs' => ih hs' hnodup' ?_ ?_ ?_)
          hsound.start
        · intro v hv
          rcases List.mem_append.mp hv with hv | hv
          · exact hnamed v hv
          · rw [List.mem_singleton.mp hv]
            exact ParentIn.mem_namedValues (v := value) hp
        · refine hchain.append (List.isChain_singleton p) fun a ha b hb => ?_
          rw [List.getLast?_concat, Option.mem_def, Option.some.injEq] at ha
          rw [List.head?_cons, Option.mem_def, Option.some.injEq] at hb
          subst ha hb
          exact hp
        · rw [List.length_append, List.length_singleton]
          omega
      rw [visit_new hstate]
      cases hloop : ((inherit.get? value).getD []).foldlM
          (visitParent inherit fuel (path ++ [value])) (0, s.start value) with
      | error problem => exact ⟨fun _ h => (by cases h), fun _ _ => hparents.error _ hloop⟩
      | ok acc =>
        obtain ⟨hs, hext, hdone, hbest⟩ := hparents.ok _ hloop
        have hheight : IsHeight (ParentIn inherit) value acc.1 := by
          refine isHeight_of_successors (fun p hp => ⟨acc.2.height p, ?_, ?_⟩) ?_
          · exact Nat.lt_of_succ_le (hbest.le p hp)
          · exact hs.isHeight p (hdone p hp)
          · refine hbest.attained.imp id fun ⟨p, hp, heq⟩ => ?_
            exact ⟨p, acc.2.height p, hp, hs.isHeight p (hdone p hp), heq⟩
        change VisitSpec inherit path value s (if maxContextInheritDepth < acc.1 then _ else _)
        split_ifs with hdeep
        · exact ⟨fun _ h => (by cases h), fun _ _ => not_shapeOk_of_isHeight hheight hdeep⟩
        · refine ⟨fun s' h => ?_, fun _ h => (by cases h)⟩
          cases h
          have hactive : acc.2.state.get? value = some .active := (hs.active value).mpr (by simp)
          exact ⟨hs.finish hnew hheight (not_lt.mp hdeep),
            ((extends_start hstate).trans hext).trans (extends_finish hactive),
            by simp [Visits.finish]⟩

/-- The searches from several values. -/
lemma visitAll_spec {values : List Text} (hvalues : ∀ v ∈ values, v ∈ inherit.keys)
    {s : Visits} (hsound : Sound inherit [] s) :
    (∀ s', values.foldlM (fun s value =>
        visit inherit ((namedValues inherit).length + 1) value [] s) s = .ok s' →
      Sound inherit [] s' ∧ Extends s s' ∧ ∀ v ∈ values, s'.state.get? v = some .done) ∧
    ∀ problem, values.foldlM (fun s value =>
        visit inherit ((namedValues inherit).length + 1) value [] s) s = .error problem →
      ¬ ShapeOk inherit := by
  induction values generalizing s with
  | nil =>
    refine ⟨fun s' h => ?_, fun _ h => (by cases h)⟩
    cases h
    exact ⟨hsound, .refl _, by simp⟩
  | cons value values ih =>
    have hvisit : VisitSpec inherit [] value s
        (visit inherit ((namedValues inherit).length + 1) value [] s) := by
      refine visit_spec hsound List.nodup_nil (fun v hv => ?_) (List.isChain_singleton _) (by simp)
      rw [List.nil_append, List.mem_singleton] at hv
      exact hv ▸ mem_namedValues_of_mem_keys (hvalues value List.mem_cons_self)
    rw [List.foldlM_cons]
    cases hresult : visit inherit ((namedValues inherit).length + 1) value [] s with
    | error problem => exact ⟨fun _ h => (by cases h), fun _ _ => hvisit.error _ hresult⟩
    | ok next =>
      obtain ⟨hs, hext, hdone⟩ := hvisit.ok _ hresult
      obtain ⟨hok, herror⟩ := ih (fun v hv => hvalues v (List.mem_cons_of_mem _ hv)) hs
      refine ⟨fun s' h => ?_, herror⟩
      obtain ⟨hs', hext', hdone'⟩ := hok s' h
      refine ⟨hs', hext.trans hext', fun v hv => ?_⟩
      rcases List.mem_cons.mp hv with rfl | hv
      · exact hext'.done _ hdone
      · exact hdone' v hv

/-- The check refuses exactly the tables that are out of shape. -/
lemma inheritanceShapeProblem_eq_none :
    inheritanceShapeProblem inherit = none ↔ ShapeOk inherit := by
  obtain ⟨hok, herror⟩ := visitAll_spec (fun v (hv : v ∈ inherit.keys) => hv)
    (s := ⟨Dict.empty, Dict.empty⟩) ⟨by simp, by simp, by simp⟩
  unfold inheritanceShapeProblem
  cases hall : inherit.keys.foldlM (fun s value =>
      visit inherit ((namedValues inherit).length + 1) value [] s) ⟨Dict.empty, Dict.empty⟩ with
  | error problem => simpa using herror _ hall
  | ok s =>
    obtain ⟨hsound, -, hdone⟩ := hok s hall
    refine ⟨fun _ => shapeOk_of_keys s.height fun v hv => ?_, fun _ => rfl⟩
    exact ⟨hsound.isHeight v (hdone v hv), hsound.bounded v (hdone v hv)⟩

end Junjo
