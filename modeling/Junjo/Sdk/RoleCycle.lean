import Junjo.Permissions.RoleGraph

/-!
# The cycle search of the Java SDK

`findRoleCycle` keeps its path on stacks of its own, so that a deep chain of roles needs no
recursion. Each round of its loop looks at one parent of the role on top, or takes the role off.
-/

namespace Junjo.Sdk

open Junjo.RoleGraph

/-- The search from one role, the tops of the stacks first. -/
structure PathSearch where
  done : Dict Text Bool
  path : List Text
  nextChild : List ℕ
  onPath : Finset Text

section

variable (graph : Junjo.RoleGraph)

def parentsOf (id : Text) : List Text := (graph.get? id).getD []

/-- The rounds until the path is empty or a cycle is found: the ids on the cycle, and the roles that
are done. `fuel` bounds the rounds. -/
def searchPath : ℕ → PathSearch → Option (Option (List Text) × Dict Text Bool)
  | 0, _ => none
  | fuel + 1, s =>
    match s.path, s.nextChild with
    | [], _ => some (none, s.done)
    | id :: path, idx :: nextChild =>
      match (parentsOf graph id)[idx]? with
      | some parent =>
        let s := { s with nextChild := (idx + 1) :: nextChild }
        if graph.has parent = false ∨ s.done.get? parent = some true then searchPath fuel s
        else if parent ∈ s.onPath then
          let stack := s.path.reverse
          some (some (stack.drop (stack.idxOf parent)), s.done)
        else
          searchPath fuel
            { s with
              path := parent :: s.path
              nextChild := 0 :: s.nextChild
              onPath := insert parent s.onPath }
      | none =>
        searchPath fuel
          { done := s.done.set id true, path, nextChild, onPath := s.onPath.erase id }
    -- The stacks are of one height.
    | _ :: _, [] => none

/-- The search from every role that is not done yet. -/
def searchEach (fuel : ℕ) : List Text → Dict Text Bool → Option (Option (List Text))
  | [], _ => some none
  | start :: starts, done =>
    if done.has start then searchEach fuel starts done
    else
      match searchPath graph fuel { done, path := [start], nextChild := [0], onPath := {start} } with
      | none => none
      | some (some cycle, _) => some (some cycle)
      | some (none, done) => searchEach fuel starts done

/-- The rounds of a role: one for each parent, and one to take it off. -/
def roundsOf (id : Text) : ℕ := (parentsOf graph id).length + 1

def findRoleCycle : Option (Option (List Text)) :=
  searchEach graph ((graph.keys.map (roundsOf graph)).sum + 1) graph.keys Dict.empty

end

variable {graph : Junjo.RoleGraph} {s : PathSearch} {order : List Text}

/-! ### What the search keeps -/

/-- The roles that are done, in topological order. -/
structure Finished (graph : Junjo.RoleGraph) (done : Dict Text Bool) (order : List Text) : Prop where
  topological : Topological graph.Edge order
  known : order ⊆ graph.keys
  done_eq : ∀ id, done.get? id = if id ∈ order then some true else none

/-- The parents of each role on the path that were looked at are done, but for the role above it. -/
def Handled (graph : Junjo.RoleGraph) (order : List Text) : Option Text → List (Text × ℕ) → Prop
  | _, [] => True
  | above, (id, idx) :: frames =>
    idx ≤ (parentsOf graph id).length ∧
      (∀ p ∈ (parentsOf graph id).take idx, p ∈ graph.keys → p ∈ order ∨ above = some p) ∧
      Handled graph order (some id) frames

/-- The path leads along edges from where it began to the role on top, and none of its roles is
done. -/
structure Searching (graph : Junjo.RoleGraph) (s : PathSearch) (order : List Text) : Prop
    extends Finished graph s.done order where
  height : s.path.length = s.nextChild.length
  onPath_iff : ∀ id, id ∈ s.onPath ↔ id ∈ s.path
  distinct : s.path.Nodup
  known_path : s.path ⊆ graph.keys
  open_path : ∀ id ∈ s.path, id ∉ order
  chain : s.path.reverse.IsChain graph.Edge
  handled : Handled graph order none (s.path.zip s.nextChild)

/-- The rounds that are left: those of the roles that were not reached, and the rest of those of the
path. -/
def roundsLeft (graph : Junjo.RoleGraph) (s : PathSearch) (order : List Text) : ℕ :=
  ((graph.keys.filter fun id => id ∉ order ∧ id ∉ s.path).map (roundsOf graph)).sum
    + ((s.path.zip s.nextChild).map fun f => roundsOf graph f.1 - f.2).sum

lemma mem_parentsOf_iff {id parent : Text} :
    graph.Edge id parent ↔ parent ∈ parentsOf graph id ∧ parent ∈ graph.keys := by
  rw [Edge, knownParents, List.mem_filter, Dict.has_iff, parentsOf]

/-- More roles done, and another role on top. -/
lemma Handled.mono {order order' : List Text} {above above' : Option Text}
    {frames : List (Text × ℕ)} (h : Handled graph order above frames) (hsub : order ⊆ order')
    (habove : ∀ p, above = some p → p ∈ order' ∨ above' = some p) :
    Handled graph order' above' frames := by
  induction frames generalizing above above' with
  | nil => trivial
  | cons f frames ih =>
    obtain ⟨hidx, hparents, hrest⟩ := h
    refine ⟨hidx, fun p hp hkey => ?_, ih hrest fun p hp => Or.inr hp⟩
    rcases hparents p hp hkey with hdone | hp
    · exact Or.inl (hsub hdone)
    · exact habove p hp

/-- The roles that are not reached after one more is. -/
lemma sum_unreached {id : Text} {path : List Text} (hkey : id ∈ graph.keys) (hopen : id ∉ order)
    (hnew : id ∉ path) :
    roundsOf graph id
        + ((graph.keys.filter fun k => k ∉ order ∧ k ∉ id :: path).map (roundsOf graph)).sum
      = ((graph.keys.filter fun k => k ∉ order ∧ k ∉ path).map (roundsOf graph)).sum := by
  have hmem : id ∈ graph.keys.filter fun k => k ∉ order ∧ k ∉ path := by simp [hkey, hopen, hnew]
  have hperm := (List.perm_cons_erase hmem).map (roundsOf graph)
  rw [hperm.sum_eq, List.map_cons, List.sum_cons, (graph.nodup_keys.filter _).erase_eq_filter,
    List.filter_filter]
  congr 3
  refine List.filter_congr fun k _ => ?_
  rw [Bool.eq_iff_iff]
  simp only [List.mem_cons, not_or, decide_eq_true_eq, Bool.and_eq_true, bne_iff_ne]
  tauto

section Rounds

variable {id : Text} {path : List Text} {idx : ℕ} {nextChild : List ℕ} {parent : Text}

/-- A parent that is no role of the graph, or is done, is passed over. -/
lemma Searching.skip (h : Searching graph s order) (hpath : s.path = id :: path)
    (hnext : s.nextChild = idx :: nextChild) (hparent : (parentsOf graph id)[idx]? = some parent)
    (hskip : parent ∈ graph.keys → parent ∈ order) :
    Searching graph { s with nextChild := (idx + 1) :: nextChild } order ∧
      roundsLeft graph { s with nextChild := (idx + 1) :: nextChild } order
        < roundsLeft graph s order := by
  obtain ⟨hlt, -⟩ := List.getElem?_eq_some_iff.mp hparent
  have hframes := h.handled
  rw [hpath, hnext, List.zip_cons_cons] at hframes
  obtain ⟨-, hparents, hrest⟩ := hframes
  refine ⟨{ h with height := ?_, handled := ?_ }, ?_⟩
  · rw [h.height, hnext]
    rfl
  · dsimp only
    rw [hpath, List.zip_cons_cons]
    refine ⟨hlt, fun p hp hkey => ?_, hrest⟩
    rw [List.take_add_one, hparent, List.mem_append, Option.toList_some, List.mem_singleton] at hp
    rcases hp with hp | rfl
    · exact hparents p hp hkey
    · exact Or.inl (hskip hkey)
  · simp only [roundsLeft, hpath, hnext, List.zip_cons_cons, List.map_cons, List.sum_cons, roundsOf]
    omega

/-- A parent that was not reached comes on top. -/
lemma Searching.push (h : Searching graph s order) (hpath : s.path = id :: path)
    (hnext : s.nextChild = idx :: nextChild) (hparent : (parentsOf graph id)[idx]? = some parent)
    (hkey : parent ∈ graph.keys) (hopen : parent ∉ order) (hnew : parent ∉ s.path) :
    let s' : PathSearch :=
      { s with
        path := parent :: s.path
        nextChild := 0 :: (idx + 1) :: nextChild
        onPath := insert parent s.onPath }
    Searching graph s' order ∧ roundsLeft graph s' order < roundsLeft graph s order := by
  intro s'
  obtain ⟨hlt, hget⟩ := List.getElem?_eq_some_iff.mp hparent
  have hedge : graph.Edge id parent :=
    mem_parentsOf_iff.mpr ⟨List.mem_of_getElem hget, hkey⟩
  have hframes := h.handled
  rw [hpath, hnext, List.zip_cons_cons] at hframes
  obtain ⟨-, hparents, hrest⟩ := hframes
  refine ⟨⟨h.toFinished, ?_, ?_, ?_, ?_, ?_, ?_, ?_⟩, ?_⟩
  · simp [s', h.height, hnext]
  · intro k
    simp [s', h.onPath_iff]
  · exact List.nodup_cons.mpr ⟨hnew, h.distinct⟩
  · exact List.cons_subset.mpr ⟨hkey, h.known_path⟩
  · intro k hk
    rcases List.mem_cons.mp hk with rfl | hk
    · exact hopen
    · exact h.open_path k hk
  · have hchain := h.chain
    simp only [s', List.reverse_cons]
    refine hchain.append (List.isChain_singleton parent) ?_
    simpa [hpath] using hedge
  · refine ⟨Nat.zero_le _, by simp, ?_⟩
    rw [hpath]
    refine ⟨hlt, fun p hp hpkey => ?_, hrest⟩
    rw [List.take_add_one, hparent, List.mem_append, Option.toList_some, List.mem_singleton] at hp
    rcases hp with hp | rfl
    · exact (hparents p hp hpkey).imp_right fun h => absurd h (by simp)
    · exact Or.inr rfl
  · have hreached := sum_unreached hkey hopen hnew
    have hframes : ((s.path.zip s.nextChild).map fun f => roundsOf graph f.1 - f.2).sum
        = (roundsOf graph id - idx)
          + ((path.zip nextChild).map fun f => roundsOf graph f.1 - f.2).sum := by
      rw [hpath, hnext]
      rfl
    have hframes' : ((s'.path.zip s'.nextChild).map fun f => roundsOf graph f.1 - f.2).sum
        = roundsOf graph parent + ((roundsOf graph id - (idx + 1))
          + ((path.zip nextChild).map fun f => roundsOf graph f.1 - f.2).sum) := by
      simp only [s', hpath]
      rfl
    rw [roundsLeft, roundsLeft, hframes, hframes']
    change ((graph.keys.filter fun k => k ∉ order ∧ k ∉ parent :: s.path).map
      (roundsOf graph)).sum + _ < _
    have hid : idx + 1 < roundsOf graph id := Nat.succ_lt_succ hlt
    omega

/-- A role whose parents were all looked at is done. -/
lemma Searching.pop (h : Searching graph s order) (hpath : s.path = id :: path)
    (hnext : s.nextChild = idx :: nextChild) (hparent : (parentsOf graph id)[idx]? = none) :
    let s' : PathSearch := { done := s.done.set id true, path, nextChild, onPath := s.onPath.erase id }
    Searching graph s' (id :: order) ∧
      roundsLeft graph s' (id :: order) < roundsLeft graph s order := by
  intro s'
  have hlength := List.getElem?_eq_none_iff.mp hparent
  have hdistinct := h.distinct
  have hframes := h.handled
  rw [hpath] at hdistinct
  rw [hpath, hnext, List.zip_cons_cons] at hframes
  obtain ⟨hidx, hparents, hrest⟩ := hframes
  have hid : id ∈ s.path := by rw [hpath]; exact List.mem_cons_self
  have hopen : id ∉ order := h.open_path id hid
  refine ⟨⟨⟨?_, ?_, ?_⟩, ?_, ?_, ?_, ?_, ?_, ?_, ?_⟩, ?_⟩
  · refine ⟨hopen, fun p hp => ?_, h.topological⟩
    obtain ⟨hp, hkey⟩ := mem_parentsOf_iff.mp hp
    rw [List.take_of_length_le hlength] at hparents
    exact (hparents p hp hkey).resolve_right (by simp)
  · exact List.cons_subset.mpr ⟨h.known_path hid, h.known⟩
  · intro k
    rw [Dict.get?_set, h.done_eq]
    by_cases hk : k = id <;> simp [hk]
  · have hheight := h.height
    rw [hpath, hnext] at hheight
    exact Nat.succ.inj hheight
  · intro k
    simp only [s', Finset.mem_erase, h.onPath_iff, hpath, List.mem_cons]
    constructor
    · rintro ⟨hne, rfl | hk⟩
      · exact absurd rfl hne
      · exact hk
    · intro hk
      refine ⟨?_, Or.inr hk⟩
      rintro rfl
      exact (List.nodup_cons.mp hdistinct).1 hk
  · exact (List.nodup_cons.mp hdistinct).2
  · intro k hk
    exact h.known_path (by rw [hpath]; exact List.mem_cons_of_mem _ hk)
  · intro k hk hdone
    rcases List.mem_cons.mp hdone with rfl | hdone
    · exact (List.nodup_cons.mp hdistinct).1 hk
    · exact h.open_path k (by rw [hpath]; exact List.mem_cons_of_mem _ hk) hdone
  · have hchain := h.chain
    rw [hpath, List.reverse_cons] at hchain
    exact hchain.left_of_append
  · refine hrest.mono (List.subset_cons_self _ _) fun p hp => ?_
    cases hp
    exact Or.inl List.mem_cons_self
  · have hsame : (graph.keys.filter fun k => k ∉ id :: order ∧ k ∉ path)
        = graph.keys.filter fun k => k ∉ order ∧ k ∉ id :: path := by
      refine List.filter_congr fun k _ => ?_
      simp only [List.mem_cons, not_or, decide_eq_decide]
      tauto
    simp only [roundsLeft, s', hsame, hpath, hnext, List.zip_cons_cons, List.map_cons, List.sum_cons]
    have hid : idx < roundsOf graph id := Nat.lt_succ_of_le hidx
    omega

end Rounds

/-! ### The search finds the cycles -/

/-- What a search finds: a cycle of distinct roles, or nothing when the roles were done first. -/
def Found (graph : Junjo.RoleGraph) (ids order : List Text) :
    Option (Option (List Text) × Dict Text Bool) → Prop
  | none => False
  | some (some cycle, _) => IsCycle graph.Edge cycle ∧ cycle.Nodup
  | some (none, done) => ∃ order', Finished graph done order' ∧ order ⊆ order' ∧ ids ⊆ order'

lemma Found.mono {ids ids' order order' : List Text}
    {r : Option (Option (List Text) × Dict Text Bool)} (h : Found graph ids order r)
    (hids : ids' ⊆ ids ++ order) (horder : order' ⊆ order) : Found graph ids' order' r := by
  match r with
  | none => exact h
  | some (some cycle, done) => exact h
  | some (none, done) =>
    obtain ⟨all, hfinished, hall, hdone⟩ := h
    exact ⟨all, hfinished, fun x hx => hall (horder hx),
      fun x hx => List.append_subset.mpr ⟨hdone, hall⟩ (hids hx)⟩

/-- The rounds end, and what they find is right. -/
lemma searchPath_found {fuel : ℕ} (h : Searching graph s order)
    (hfuel : roundsLeft graph s order < fuel) :
    Found graph s.path order (searchPath graph fuel s) := by
  induction fuel generalizing s order with
  | zero => exact absurd hfuel (Nat.not_lt_zero _)
  | succ fuel ih =>
    rw [searchPath]
    have hheight := h.height
    match hpath : s.path, hnext : s.nextChild with
    | [], _ => exact ⟨order, h.toFinished, List.Subset.refl _, List.nil_subset _⟩
    | id :: path, [] =>
      rw [hpath, hnext] at hheight
      cases hheight
    | id :: path, idx :: nextChild =>
      dsimp only
      cases hparent : (parentsOf graph id)[idx]? with
      | none =>
        obtain ⟨hs', hrounds⟩ := h.pop hpath hnext hparent
        refine (ih hs' (by omega)).mono ?_ (List.subset_cons_self _ _)
        exact List.cons_subset.mpr ⟨by simp, List.subset_append_left _ _⟩
      | some parent =>
        have hkey : graph.has parent = false ↔ parent ∉ graph.keys := by
          rw [← Dict.has_iff, Bool.not_eq_true]
        have hdone : s.done.get? parent = some true ↔ parent ∈ order := by
          rw [h.done_eq]
          split_ifs <;> simp_all
        have honPath : parent ∈ s.onPath ↔ parent ∈ s.path := h.onPath_iff parent
        simp only [hkey, hdone, honPath, ← hpath]
        split_ifs with hskip hon
        · obtain ⟨hs', hrounds⟩ := h.skip hpath hnext hparent fun hk =>
            hskip.resolve_left (not_not.mpr hk)
          exact ih hs' (by omega)
        · have hedge : graph.Edge id parent :=
            mem_parentsOf_iff.mpr ⟨List.mem_of_getElem? hparent, h.known_path hon⟩
          refine ⟨isCycle_drop h.chain (List.mem_reverse.mpr hon) ?_, ?_⟩
          · simpa [hpath] using hedge
          · exact (List.nodup_reverse.mpr h.distinct).sublist (List.drop_sublist _ _)
        · rw [not_or, not_not] at hskip
          obtain ⟨hs', hrounds⟩ := h.push hpath hnext hparent hskip.1 hskip.2 hon
          refine (ih hs' (by omega)).mono ?_ (List.Subset.refl _)
          exact fun x hx => List.mem_append_left _ (List.mem_cons_of_mem _ hx)

/-- The search from a role that is not done. -/
lemma searching_start {done : Dict Text Bool} {start : Text} (h : Finished graph done order)
    (hkey : start ∈ graph.keys) (hopen : start ∉ order) :
    Searching graph { done, path := [start], nextChild := [0], onPath := {start} } order where
  toFinished := h
  height := rfl
  onPath_iff := by simp
  distinct := List.nodup_singleton start
  known_path := by simpa using hkey
  open_path := by simpa using hopen
  chain := List.isChain_singleton start
  handled := ⟨Nat.zero_le _, by simp, trivial⟩

lemma roundsLeft_start_le {done : Dict Text Bool} {start : Text} (hkey : start ∈ graph.keys)
    (hopen : start ∉ order) :
    roundsLeft graph { done, path := [start], nextChild := [0], onPath := {start} } order
      ≤ (graph.keys.map (roundsOf graph)).sum := by
  have hreached := sum_unreached hkey hopen (List.not_mem_nil (a := start))
  have hle : ((graph.keys.filter fun k => k ∉ order ∧ k ∉ []).map (roundsOf graph)).sum
      ≤ (graph.keys.map (roundsOf graph)).sum :=
    (List.filter_sublist.map _).sum_le_sum fun _ _ => Nat.zero_le _
  have hframes : ((([start] : List Text).zip [0]).map fun f => roundsOf graph f.1 - f.2).sum
      = roundsOf graph start := by simp
  rw [roundsLeft, hframes]
  dsimp only
  omega

/-- The searches from some roles, one after the other. -/
lemma searchEach_found {fuel : ℕ} (hfuel : (graph.keys.map (roundsOf graph)).sum < fuel)
    {starts : List Text} {done : Dict Text Bool} (hstarts : starts ⊆ graph.keys)
    (h : Finished graph done order) :
    (searchEach graph fuel starts done = some none ∧
        ∃ order', Topological graph.Edge order' ∧ order ⊆ order' ∧ starts ⊆ order') ∨
      ∃ cycle, searchEach graph fuel starts done = some (some cycle) ∧
        IsCycle graph.Edge cycle ∧ cycle.Nodup := by
  induction starts generalizing done order with
  | nil => exact Or.inl ⟨rfl, order, h.topological, List.Subset.refl _, List.nil_subset _⟩
  | cons start starts ih =>
    obtain ⟨hkey, hstarts⟩ := List.cons_subset.mp hstarts
    rw [searchEach]
    have hdone : done.has start = true ↔ start ∈ order := by
      rw [Dict.has, h.done_eq]
      split_ifs with hmem <;> simp [hmem]
    by_cases hmem : start ∈ order
    · rw [if_pos (hdone.mpr hmem)]
      refine (ih hstarts h).imp_left ?_
      rintro ⟨hrun, order', htop, hsub, hids⟩
      exact ⟨hrun, order', htop, hsub, List.cons_subset.mpr ⟨hsub hmem, hids⟩⟩
    · rw [if_neg (mt hdone.mp hmem)]
      have hfound := searchPath_found (searching_start h hkey hmem)
        ((roundsLeft_start_le hkey hmem).trans_lt hfuel)
      rcases hrun : searchPath graph fuel
        { done, path := [start], nextChild := [0], onPath := {start} } with _ | ⟨_ | cycle, done'⟩
      · rw [hrun] at hfound
        exact hfound.elim
      · rw [hrun] at hfound
        obtain ⟨order₁, hfinished, horder, hstart⟩ := hfound
        refine (ih hstarts hfinished).imp_left ?_
        rintro ⟨hrest, order', htop, hsub, hids⟩
        exact ⟨hrest, order', htop, fun x hx => hsub (horder hx),
          List.cons_subset.mpr ⟨hsub (hstart (by simp)), hids⟩⟩
      · rw [hrun] at hfound
        exact Or.inr ⟨cycle, rfl, hfound⟩

lemma finished_start (graph : Junjo.RoleGraph) : Finished graph Dict.empty [] :=
  ⟨trivial, List.nil_subset _, by simp⟩

lemma findRoleCycle_cases (graph : Junjo.RoleGraph) :
    (findRoleCycle graph = some none ∧ Acyclic graph.Edge) ∨
      ∃ cycle, findRoleCycle graph = some (some cycle) ∧ IsCycle graph.Edge cycle ∧
        cycle.Nodup := by
  refine (searchEach_found (Nat.lt_succ_self _) (List.Subset.refl _) (finished_start graph)).imp_left ?_
  rintro ⟨hrun, order, htop, -, hkeys⟩
  exact ⟨hrun, htop.acyclic fun a b hab => hkeys hab.mem_keys⟩

/-! ### Both searches -/

/-- A search that ended: it returned distinct ids that lead along parents and back to the first, or
nothing where there is no such list. -/
def FindsCycle (graph : Junjo.RoleGraph) (r : Option (Option (List Text))) : Prop :=
  ∃ found, r = some found ∧ (found.isSome ↔ ∃ cycle, IsCycle graph.Edge cycle) ∧
    ∀ cycle ∈ found, IsCycle graph.Edge cycle ∧ cycle.Nodup

lemma findsCycle_of_cases {r : Option (Option (List Text))}
    (h : (r = some none ∧ Acyclic graph.Edge) ∨
      ∃ cycle, r = some (some cycle) ∧ IsCycle graph.Edge cycle ∧ cycle.Nodup) :
    FindsCycle graph r := by
  rcases h with ⟨rfl, hacyclic⟩ | ⟨cycle, rfl, hcycle, hnodup⟩
  · refine ⟨none, rfl, ?_, by simp⟩
    simp only [Option.isSome_none, Bool.false_eq_true, false_iff, not_exists]
    exact fun cycle hcycle => hcycle.not_acyclic hacyclic
  · refine ⟨some cycle, rfl, by simpa using ⟨cycle, hcycle⟩, ?_⟩
    rintro cycle' heq
    cases heq
    exact ⟨hcycle, hnodup⟩

/-- On every map of parents, both searches end and return a cycle exactly when there is one. -/
theorem findRoleCycles_correct (graph : Junjo.RoleGraph) :
    FindsCycle graph graph.findRoleCycle ∧ FindsCycle graph (findRoleCycle graph) := by
  refine ⟨findsCycle_of_cases ?_, findsCycle_of_cases (findRoleCycle_cases graph)⟩
  rcases Junjo.RoleGraph.findRoleCycle_cases graph with ⟨hnone, -⟩ | ⟨cycle, hsome, hcycle⟩
  · exact Or.inl ⟨hnone, findRoleCycle_eq_none_iff.mp hnone⟩
  · exact Or.inr ⟨cycle, hsome, hcycle, findRoleCycle_nodup hsome⟩

/-- Two roles that are each other's parents, below a role listed before them with a repeated parent. -/
example : findRoleCycle (Dict.ofList [(text "a", [text "x", text "b", text "b"]),
    (text "b", [text "c"]), (text "c", [text "b"])]) = some (some [text "b", text "c"]) := by
  decide

end Junjo.Sdk
