import Junjo.Core.Chains
import Junjo.Core.Lists
import Junjo.Core.Text

/-!
# Role-parent graphs

The two recursive checks of a group's role-parent graph. Neither recursion is bounded by the
source, so both take fuel, and what they return is shown to need no more than the number of roles.
-/

namespace Junjo

/-- The parents of each role of a group. -/
abbrev RoleGraph := Dict Text (List Text)

namespace RoleGraph

variable (graph : RoleGraph)

/-- The parents of a role that are keys of the map. -/
def knownParents (id : Text) : List Text := ((graph.get? id).getD []).filter fun p => graph.has p

/-- `parent` is a parent of `id` that is a key of the map. -/
def Edge (id parent : Text) : Prop := parent ∈ graph.knownParents id

/-! ### Cycles -/

inductive VisitState where
  | active
  | done
deriving DecidableEq

structure CycleSearch where
  state : Dict Text VisitState
  stack : List Text

/-- Visit ids until a visit finds a cycle. -/
def visitEach (visit : CycleSearch → Text → Option (Option (List Text) × CycleSearch)) :
    List Text → CycleSearch → Option (Option (List Text) × CycleSearch)
  | [], s => some (none, s)
  | id :: ids, s =>
    match visit s id with
    | none => none
    | some (some cycle, s) => some (some cycle, s)
    | some (none, s) => visitEach visit ids s

/-- Depth-first visit of a role; `none` when out of fuel. -/
def visitRole : ℕ → CycleSearch → Text → Option (Option (List Text) × CycleSearch)
  | 0, _, _ => none
  | fuel + 1, s, id =>
    match s.state.get? id with
    | some .done => some (none, s)
    | some .active => some (some (s.stack.drop (s.stack.idxOf id)), s)
    | none =>
      match visitEach (visitRole fuel) (graph.knownParents id)
        ⟨s.state.set id .active, s.stack ++ [id]⟩ with
      | none => none
      | some (some cycle, s) => some (some cycle, s)
      | some (none, s) => some (none, ⟨s.state.set id .done, s.stack.dropLast⟩)

/-- The ids on one cycle, or `some none` when there is no cycle. -/
def findRoleCycle : Option (Option (List Text)) :=
  (visitEach (graph.visitRole (graph.size + 1)) graph.keys ⟨Dict.empty, []⟩).map Prod.fst

/-! ### Chains -/

/-- The heights of some ids, one after the other. -/
def heightsOf (visit : Dict Text ℕ → Text → Option (ℕ × Dict Text ℕ)) :
    List Text → Dict Text ℕ → Option (List ℕ × Dict Text ℕ)
  | [], memo => some ([], memo)
  | id :: ids, memo =>
    match visit memo id with
    | none => none
    | some (n, memo) => (heightsOf visit ids memo).map fun rest => (n :: rest.1, rest.2)

/-- The longest chain from a role, in edges; `none` when out of fuel. -/
def heightOf : ℕ → Dict Text ℕ → Text → Option (ℕ × Dict Text ℕ)
  | 0, _, _ => none
  | fuel + 1, memo, id =>
    match memo.get? id with
    | some hit => some (hit, memo)
    | none =>
      match heightsOf (heightOf fuel) (graph.knownParents id) memo with
      | none => none
      | some (heights, memo) =>
        let best := (heights.map (· + 1)).foldl max 0
        some (best, memo.set id best)

/-- Length of the longest parent chain in an acyclic graph, in edges. -/
def longestChain : Option ℕ :=
  (heightsOf (graph.heightOf (graph.size + 1)) graph.keys Dict.empty).map fun result =>
    result.1.foldl max 0

variable {graph}

lemma edge_iff {id parent : Text} :
    graph.Edge id parent ↔ (∃ parents, graph.get? id = some parents ∧ parent ∈ parents) ∧
      parent ∈ graph.keys := by
  unfold Edge knownParents
  cases graph.get? id with
  | none => simp
  | some parents => simp [Dict.has_iff]

lemma Edge.mem_keys {id parent : Text} (h : graph.Edge id parent) : id ∈ graph.keys := by
  obtain ⟨⟨parents, hget, -⟩, -⟩ := edge_iff.mp h
  exact Dict.mem_keys_iff.mpr ⟨parents, hget⟩

/-! ### The search finds the cycles -/

/-- The ids of a list, each a parent of the one before it and the first one of the last. -/
def IsCycle (R : Text → Text → Prop) (cycle : List Text) : Prop :=
  ∃ h : cycle ≠ [], cycle.IsChain R ∧ R (cycle.getLast h) (cycle.head h)

/-- What the search keeps: the finished roles in topological order, and the stack, which leads
along edges to the role being visited. -/
structure Searched (graph : RoleGraph) (s : CycleSearch) (order : List Text) : Prop where
  topological : Topological graph.Edge order
  known : order ⊆ graph.keys
  done_iff : ∀ id, s.state.get? id = some .done ↔ id ∈ order
  active_iff : ∀ id, s.state.get? id = some .active ↔ id ∈ s.stack
  chain : s.stack.IsChain graph.Edge

/-- The outcome of visiting some ids from the state `s` with the finished roles `order`. -/
def Visited (graph : RoleGraph) (ids : List Text) (s : CycleSearch) (order : List Text) :
    Option (Option (List Text) × CycleSearch) → Prop
  | none => False
  | some (some cycle, _) => IsCycle graph.Edge cycle
  | some (none, s') =>
    ∃ order', Searched graph s' order' ∧ order ⊆ order' ∧ ids ⊆ order' ∧ s'.stack = s.stack

/-- The roles that were not visited. -/
def unvisited (graph : RoleGraph) (s : CycleSearch) : List Text :=
  graph.keys.filter fun id => id ∉ s.state.keys

/-- Finished and active roles stay marked. -/
lemma unvisited_le {s s' : CycleSearch} {order order' : List Text} (h : Searched graph s order)
    (h' : Searched graph s' order') (horder : order ⊆ order') (hstack : s.stack ⊆ s'.stack) :
    (unvisited graph s').length ≤ (unvisited graph s).length := by
  refine (List.monotone_filter_right _ ?_).length_le
  intro id hid
  simp only [decide_eq_true_eq, ← Dict.get?_eq_none_iff] at hid ⊢
  cases hget : s.state.get? id with
  | none => rfl
  | some mark =>
    cases mark with
    | active => rw [(h'.active_iff id).mpr (hstack ((h.active_iff id).mp hget))] at hid; cases hid
    | done => rw [(h'.done_iff id).mpr (horder ((h.done_iff id).mp hget))] at hid; cases hid

/-- Visits one after the other, when each visit does what it should. -/
lemma visited_visitEach {visit : CycleSearch → Text → Option (Option (List Text) × CycleSearch)}
    {bound : ℕ} {stack : List Text}
    (hvisit : ∀ s id order, Searched graph s order → s.stack = stack → id ∈ graph.keys →
      (∀ last ∈ stack.getLast?, graph.Edge last id) → (unvisited graph s).length < bound →
      Visited graph [id] s order (visit s id))
    (ids : List Text) (s : CycleSearch) (order : List Text) (hs : Searched graph s order)
    (hstack : s.stack = stack) (hids : ∀ id ∈ ids, id ∈ graph.keys ∧
      ∀ last ∈ stack.getLast?, graph.Edge last id)
    (hbound : (unvisited graph s).length < bound) :
    Visited graph ids s order (visitEach visit ids s) := by
  induction ids generalizing s order with
  | nil => exact ⟨order, hs, List.Subset.refl _, List.nil_subset _, rfl⟩
  | cons id ids ih =>
    obtain ⟨hkey, hedge⟩ := hids id (by simp)
    have hfirst := hvisit s id order hs hstack hkey hedge hbound
    rw [visitEach]
    match hres : visit s id with
    | none =>
      rw [hres] at hfirst
      exact hfirst.elim
    | some (some cycle, s₁) =>
      rw [hres] at hfirst
      exact hfirst
    | some (none, s₁) =>
      rw [hres] at hfirst
      obtain ⟨order₁, hs₁, horder, hid, hstack₁⟩ := hfirst
      have hrest := ih s₁ order₁ hs₁ (hstack₁.trans hstack)
        (fun id' hid' => hids id' (List.mem_cons_of_mem _ hid'))
        ((unvisited_le hs hs₁ horder (hstack₁ ▸ List.Subset.refl _)).trans_lt hbound)
      change Visited graph (id :: ids) s order (visitEach visit ids s₁)
      match hres' : visitEach visit ids s₁ with
      | none =>
        rw [hres'] at hrest
        exact hrest.elim
      | some (some cycle, s₂) =>
        rw [hres'] at hrest
        exact hrest
      | some (none, s₂) =>
        rw [hres'] at hrest
        obtain ⟨order₂, hs₂, horder₂, hids₂, hstack₂⟩ := hrest
        refine ⟨order₂, hs₂, fun x hx => horder₂ (horder hx), ?_, hstack₂.trans hstack₁⟩
        exact List.cons_subset.mpr ⟨horder₂ (hid (by simp)), hids₂⟩

/-- The stack from an active role on is a cycle with the edge back to that role. -/
lemma isCycle_drop {R : Text → Text → Prop} {stack : List Text} {id : Text}
    (hchain : stack.IsChain R) (hid : id ∈ stack) (hlast : ∀ last ∈ stack.getLast?, R last id) :
    IsCycle R (stack.drop (stack.idxOf id)) := by
  have hlt : stack.idxOf id < stack.length := List.idxOf_lt_length_iff.mpr hid
  have hne : stack.drop (stack.idxOf id) ≠ [] := by simpa using hlt
  refine ⟨hne, hchain.drop _, ?_⟩
  have hhead : (stack.drop (stack.idxOf id)).head hne = id := by
    rw [List.head_drop]
    exact List.getElem_idxOf hlt
  rw [hhead, List.getLast_drop]
  exact hlast _ (List.getLast?_eq_some_getLast (List.ne_nil_of_mem hid))

lemma visited_visitRole (fuel : ℕ) (s : CycleSearch) (id : Text) (order : List Text)
    (hs : Searched graph s order) (hkey : id ∈ graph.keys)
    (hedge : ∀ last ∈ s.stack.getLast?, graph.Edge last id)
    (hfuel : (unvisited graph s).length < fuel) :
    Visited graph [id] s order (graph.visitRole fuel s id) := by
  induction fuel generalizing s id order with
  | zero => exact absurd hfuel (Nat.not_lt_zero _)
  | succ fuel ih =>
    rw [visitRole]
    match hget : s.state.get? id with
    | some .done =>
      exact ⟨order, hs, List.Subset.refl _, by simpa using (hs.done_iff id).mp hget, rfl⟩
    | some .active => exact isCycle_drop hs.chain ((hs.active_iff id).mp hget) hedge
    | none =>
      have hstack : id ∉ s.stack := fun h => by simpa [hget] using (hs.active_iff id).mpr h
      have horder : id ∉ order := fun h => by simpa [hget] using (hs.done_iff id).mpr h
      have hs₁ : Searched graph ⟨s.state.set id .active, s.stack ++ [id]⟩ order := by
        refine ⟨hs.topological, hs.known, fun k => ?_, fun k => ?_, ?_⟩
        · rw [Dict.get?_set]
          split_ifs with hk
          · simp [hk, horder]
          · exact hs.done_iff k
        · rw [Dict.get?_set]
          split_ifs with hk
          · simp [hk]
          · simpa [hk] using hs.active_iff k
        · exact hs.chain.append (List.isChain_singleton id) (by simpa using hedge)
      have hfewer : (unvisited graph ⟨s.state.set id .active, s.stack ++ [id]⟩).length < fuel := by
        refine Nat.lt_of_lt_of_le ?_ (Nat.lt_succ_iff.mp hfuel)
        have hrest : unvisited graph ⟨s.state.set id .active, s.stack ++ [id]⟩ =
            (unvisited graph s).filter fun k => k ≠ id := by
          rw [unvisited, unvisited, List.filter_filter]
          exact List.filter_congr fun k _ => by simp [Dict.mem_keys_set, not_or]
        rw [hrest, List.length_filter_lt_length_iff_exists]
        exact ⟨id, by simpa [unvisited, hkey] using Dict.get?_eq_none_iff.mp hget, by simp⟩
      have hknown : ∀ p ∈ graph.knownParents id, p ∈ graph.keys ∧
          ∀ last ∈ (s.stack ++ [id]).getLast?, graph.Edge last p := by
        intro p hp
        refine ⟨(edge_iff.mp hp).2, fun last hlast => ?_⟩
        obtain rfl : id = last := by simpa using hlast
        exact hp
      have hparents := @visited_visitEach graph (graph.visitRole fuel) fuel (s.stack ++ [id])
        (fun s' id' order' hs' hstack' hkey' hedge' hfuel' =>
          ih s' id' order' hs' hkey' (hstack' ▸ hedge') hfuel')
        (graph.knownParents id) _ order hs₁ rfl
        hknown hfewer
      match hres : visitEach (graph.visitRole fuel) (graph.knownParents id)
        ⟨s.state.set id .active, s.stack ++ [id]⟩ with
      | none =>
        rw [hres] at hparents
        exact hparents.elim
      | some (some cycle, s₂) =>
        rw [hres] at hparents
        exact hparents
      | some (none, s₂) =>
        rw [hres] at hparents
        obtain ⟨order₂, hs₂, hsub, hdone, hstack₂⟩ := hparents
        have hactive : s₂.state.get? id = some .active :=
          (hs₂.active_iff id).mpr (by simp [hstack₂])
        have hid : id ∉ order₂ := fun h => by simpa [hactive] using (hs₂.done_iff id).mpr h
        refine ⟨id :: order₂, ⟨⟨hid, fun p hp => hdone hp, hs₂.topological⟩,
          List.cons_subset.mpr ⟨hkey, hs₂.known⟩, ?_, ?_, ?_⟩, ?_, ?_, ?_⟩
        · intro k
          rw [Dict.get?_set]
          split_ifs with hk
          · simp [hk]
          · simpa [hk] using hs₂.done_iff k
        · intro k
          rw [Dict.get?_set]
          split_ifs with hk
          · simp [hk, hstack₂, hstack]
          · simpa [hk, hstack₂] using hs₂.active_iff k
        · simpa [hstack₂] using hs.chain
        · exact fun x hx => List.mem_cons_of_mem _ (hsub hx)
        · simp
        · simp [hstack₂]

lemma IsCycle.not_acyclic {R : Text → Text → Prop} {cycle : List Text} (h : IsCycle R cycle) :
    ¬ Acyclic R := by
  obtain ⟨hne, hchain, hback⟩ := h
  intro hacyclic
  have hreach : Relation.ReflTransGen R (cycle.head hne) (cycle.getLast hne) :=
    List.relationReflTransGen_of_exists_isChain cycle hchain hne
  exact hacyclic _ (Relation.TransGen.tail' hreach hback)

/-- The search always ends. It returns a cycle, or lists the roles in topological order. -/
lemma findRoleCycle_cases (graph : RoleGraph) :
    (graph.findRoleCycle = some none ∧
        ∃ order, Topological graph.Edge order ∧ order ⊆ graph.keys ∧ graph.keys ⊆ order) ∨
      ∃ cycle, graph.findRoleCycle = some (some cycle) ∧ IsCycle graph.Edge cycle := by
  have hstart : Searched graph ⟨Dict.empty, []⟩ [] :=
    ⟨trivial, List.nil_subset _, by simp, by simp, List.isChain_nil⟩
  have hvisited := @visited_visitEach graph (graph.visitRole (graph.size + 1)) (graph.size + 1) []
    (fun s id order hs hstack hkey hedge hfuel =>
      visited_visitRole (graph.size + 1) s id order hs hkey (hstack ▸ hedge) hfuel)
    graph.keys _ [] hstart rfl (fun id hid => ⟨hid, by simp⟩)
    (Nat.lt_succ_of_le ((List.length_filter_le _ _).trans_eq (Dict.length_keys graph)))
  rw [findRoleCycle]
  match hres : visitEach (graph.visitRole (graph.size + 1)) graph.keys ⟨Dict.empty, []⟩ with
  | none =>
    rw [hres] at hvisited
    exact hvisited.elim
  | some (some cycle, s) =>
    rw [hres] at hvisited
    exact .inr ⟨cycle, rfl, hvisited⟩
  | some (none, s) =>
    rw [hres] at hvisited
    obtain ⟨order, hs, -, hkeys, -⟩ := hvisited
    exact .inl ⟨rfl, order, hs.topological, hs.known, hkeys⟩

/-- No role is on the stack twice, and those on it are active. -/
def Stacked (s : CycleSearch) : Prop :=
  s.stack.Nodup ∧ ∀ id ∈ s.stack, s.state.get? id = some .active

/-- What visits from the state `s` leave of the stack: all of it, or a cycle of distinct roles. -/
def StackKept (s : CycleSearch) : Option (Option (List Text) × CycleSearch) → Prop
  | none => True
  | some (some cycle, _) => cycle.Nodup
  | some (none, s') => Stacked s' ∧ s'.stack = s.stack

lemma stackKept_visitEach {visit : CycleSearch → Text → Option (Option (List Text) × CycleSearch)}
    (hvisit : ∀ s id, Stacked s → StackKept s (visit s id)) (ids : List Text) {s : CycleSearch}
    (hs : Stacked s) : StackKept s (visitEach visit ids s) := by
  induction ids generalizing s with
  | nil => exact ⟨hs, rfl⟩
  | cons id ids ih =>
    have hfirst := hvisit s id hs
    rw [visitEach]
    match hres : visit s id with
    | none => trivial
    | some (some cycle, s₁) =>
      rw [hres] at hfirst
      exact hfirst
    | some (none, s₁) =>
      rw [hres] at hfirst
      have hrest := ih hfirst.1
      unfold StackKept at hrest
      rw [hfirst.2] at hrest
      exact hrest

lemma stackKept_visitRole (fuel : ℕ) (s : CycleSearch) (id : Text) (hs : Stacked s) :
    StackKept s (graph.visitRole fuel s id) := by
  induction fuel generalizing s id with
  | zero => trivial
  | succ fuel ih =>
    rw [visitRole]
    match hget : s.state.get? id with
    | some .done => exact ⟨hs, rfl⟩
    | some .active => exact hs.1.sublist (List.drop_sublist _ _)
    | none =>
      have hid : id ∉ s.stack := by
        intro hmem
        rw [hs.2 id hmem] at hget
        cases hget
      have hs₁ : Stacked ⟨s.state.set id .active, s.stack ++ [id]⟩ := by
        refine ⟨List.nodup_append_comm.mp (List.nodup_cons.mpr ⟨hid, hs.1⟩), fun k hk => ?_⟩
        rw [Dict.get?_set]
        split_ifs with hk'
        · rfl
        · exact hs.2 k ((List.mem_append.mp hk).resolve_right (by simpa using hk'))
      have hparents := stackKept_visitEach ih (graph.knownParents id) hs₁
      match hres : visitEach (graph.visitRole fuel) (graph.knownParents id)
        ⟨s.state.set id .active, s.stack ++ [id]⟩ with
      | none => trivial
      | some (some cycle, s₂) =>
        rw [hres] at hparents
        exact hparents
      | some (none, s₂) =>
        rw [hres] at hparents
        obtain ⟨⟨-, hactive⟩, hstack⟩ := hparents
        have hdrop : s₂.stack.dropLast = s.stack := by rw [hstack, List.dropLast_concat]
        refine ⟨⟨?_, fun k hk => ?_⟩, hdrop⟩
        · dsimp only
          rw [hdrop]
          exact hs.1
        · dsimp only at hk ⊢
          rw [hdrop] at hk
          rw [Dict.get?_set_of_ne]
          · exact hactive k (by rw [hstack]; exact List.mem_append_left _ hk)
          · rintro rfl
            exact hid hk

/-- No id is twice on a cycle that is found. -/
lemma findRoleCycle_nodup {cycle : List Text} (h : graph.findRoleCycle = some (some cycle)) :
    cycle.Nodup := by
  have hkept : StackKept ⟨Dict.empty, []⟩
      (visitEach (graph.visitRole (graph.size + 1)) graph.keys ⟨Dict.empty, []⟩) :=
    stackKept_visitEach (stackKept_visitRole _) _ ⟨List.nodup_nil, by simp⟩
  obtain ⟨⟨found, s⟩, hres, hfound⟩ := Option.map_eq_some_iff.mp h
  cases hfound
  rw [hres] at hkept
  exact hkept

/-- The search finds no cycle exactly when there is none. -/
theorem findRoleCycle_eq_none_iff : graph.findRoleCycle = some none ↔ Acyclic graph.Edge := by
  rcases findRoleCycle_cases graph with ⟨hnone, order, horder, -, hkeys⟩ | ⟨cycle, hsome, hcycle⟩
  · exact iff_of_true hnone (horder.acyclic fun a b hab => hkeys hab.mem_keys)
  · exact iff_of_false (by simp [hsome]) hcycle.not_acyclic

/-! ### The chain is the longest -/

/-- The memo holds heights. -/
def Heights (graph : RoleGraph) (memo : Dict Text ℕ) : Prop :=
  ∀ id n, memo.get? id = some n → IsHeight graph.Edge id n

/-- Each returned number is the height of its id. -/
lemma heightsOf_spec {visit : Dict Text ℕ → Text → Option (ℕ × Dict Text ℕ)} {ids : List Text}
    (hvisit : ∀ memo, ∀ id ∈ ids, Heights graph memo →
      ∃ n memo', visit memo id = some (n, memo') ∧ IsHeight graph.Edge id n ∧ Heights graph memo')
    {memo : Dict Text ℕ} (hmemo : Heights graph memo) :
    ∃ heights memo', heightsOf visit ids memo = some (heights, memo') ∧
      List.Forall₂ (IsHeight graph.Edge) ids heights ∧ Heights graph memo' := by
  induction ids generalizing memo with
  | nil => exact ⟨[], memo, rfl, .nil, hmemo⟩
  | cons id ids ih =>
    obtain ⟨n, memo₁, hfirst, hn, hmemo₁⟩ := hvisit memo id (by simp) hmemo
    obtain ⟨heights, memo₂, hrest, hheights, hmemo₂⟩ :=
      ih (fun memo' id' hid' => hvisit memo' id' (List.mem_cons_of_mem _ hid')) hmemo₁
    refine ⟨n :: heights, memo₂, ?_, .cons hn hheights, hmemo₂⟩
    rw [heightsOf, hfirst]
    simp [hrest]

/-- The best of some heights, each raised by one, is the height above them. -/
lemma isHeight_of_heights {id : Text} {heights : List ℕ}
    (h : List.Forall₂ (IsHeight graph.Edge) (graph.knownParents id) heights) :
    IsHeight graph.Edge id ((heights.map (· + 1)).foldl max 0) := by
  obtain ⟨-, hle, hmem⟩ := foldl_max_spec (heights.map (· + 1)) 0
  refine isHeight_of_successors (fun p hp => ?_) (hmem.imp_right fun hmax => ?_)
  · obtain ⟨n, hn, hheight⟩ := exists_right_of_mem h hp
    exact ⟨n, hle (n + 1) (List.mem_map.mpr ⟨n, hn, rfl⟩), hheight⟩
  · obtain ⟨n, hn, hbest⟩ := List.mem_map.mp hmax
    obtain ⟨p, hp, hheight⟩ := exists_left_of_mem h hn
    exact ⟨p, n, hp, hheight, hbest.symm⟩

/-- The recursion goes down a topological order, so it needs no more fuel than the order is
long. -/
lemma heightOf_spec {order : List Text} (horder : Topological graph.Edge order) {fuel : ℕ}
    (hfuel : order.length ≤ fuel) {memo : Dict Text ℕ} (hmemo : Heights graph memo) {id : Text}
    (hid : id ∈ order) : ∃ n memo', graph.heightOf fuel memo id = some (n, memo') ∧
      IsHeight graph.Edge id n ∧ Heights graph memo' := by
  induction order generalizing fuel memo id with
  | nil => exact absurd hid (by simp)
  | cons first rest ih =>
    obtain ⟨fuel, rfl⟩ := Nat.exists_eq_succ_of_ne_zero (by rintro rfl; simp at hfuel : fuel ≠ 0)
    have hfuel' : rest.length ≤ fuel := by simpa using hfuel
    rcases List.mem_cons.mp hid with rfl | hrest
    · cases hget : memo.get? id with
      | some hit => exact ⟨hit, memo, by rw [heightOf, hget], hmemo id hit hget, hmemo⟩
      | none =>
        obtain ⟨heights, memo₁, hparents, hheights, hmemo₁⟩ :=
          @heightsOf_spec graph (graph.heightOf fuel) (graph.knownParents id)
            (fun memo' p hp hmemo' => ih horder.2.2 hfuel' hmemo' (horder.2.1 p hp)) memo hmemo
        have hheight := isHeight_of_heights hheights
        refine ⟨_, _, by rw [heightOf, hget, hparents], hheight, fun k n hk => ?_⟩
        rw [Dict.get?_set] at hk
        split_ifs at hk with heq
        · cases hk
          exact heq ▸ hheight
        · exact hmemo₁ k n hk
    · exact ih horder.2.2 (hfuel'.trans (Nat.le_succ fuel)) hmemo hrest

/-- In an acyclic graph the walk from every role ends, and the number returned is the least bound
on the number of edges of all chains. -/
theorem longestChain_spec (h : graph.findRoleCycle = some none) :
    ∃ n, graph.longestChain = some n ∧ ∀ m, WalksWithin graph.Edge m ↔ n ≤ m := by
  obtain ⟨-, order, horder, hknown, hkeys⟩ | ⟨cycle, hsome, -⟩ := findRoleCycle_cases graph
  · have hlength : order.length ≤ graph.size + 1 :=
      ((List.subperm_of_subset horder.nodup hknown).length_le.trans_eq (Dict.length_keys graph)).trans
        (Nat.le_succ _)
    obtain ⟨heights, memo, hall, hheights, -⟩ := @heightsOf_spec graph
      (graph.heightOf (graph.size + 1)) graph.keys
      (fun memo id hid hmemo => heightOf_spec horder hlength hmemo (hkeys hid))
      Dict.empty (fun id n hn => by simp at hn)
    obtain ⟨-, hle, hmem⟩ := foldl_max_spec heights 0
    refine ⟨heights.foldl max 0, by rw [longestChain, hall]; rfl, fun m => ⟨fun hwithin => ?_, ?_⟩⟩
    · rcases hmem with hzero | hmax
      · rw [hzero]
        exact Nat.zero_le m
      · obtain ⟨id, -, hheight⟩ := exists_left_of_mem hheights hmax
        obtain ⟨y, hy⟩ := hheight.1
        exact hwithin id y _ hy
    · intro hm x y k hy
      cases k with
      | zero => exact Nat.zero_le m
      | succ k =>
        obtain ⟨p, hp, -⟩ := mem_walkTo_succ.mp hy
        obtain ⟨n, hn, hheight⟩ := exists_right_of_mem hheights hp.mem_keys
        exact (hheight.2 y _ hy).trans ((hle n hn).trans hm)
  · rw [h] at hsome
    cases hsome

end RoleGraph

end Junjo
