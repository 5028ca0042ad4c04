import Junjo.Core.Dict

/-!
# Distances and breadth-first layers

`AtDistance R S n x` says that the shortest `R`-walk from the set `S` to `x` has `n` steps. Two
breadth-first searches compute it: `layerAt` lists the elements at each distance, and `distances`
collects the distances of all elements up to a bound.
-/

namespace Junjo

variable {α β : Type*}

/-- The elements where some walk of `n` steps from `S` ends. -/
def WalkTo (R : α → α → Prop) (S : Set α) : ℕ → Set α
  | 0 => S
  | n + 1 => {y | ∃ x ∈ WalkTo R S n, R x y}

/-- The shortest walk from `S` to `x` has `n` steps. -/
def AtDistance (R : α → α → Prop) (S : Set α) (n : ℕ) (x : α) : Prop :=
  x ∈ WalkTo R S n ∧ ∀ m < n, x ∉ WalkTo R S m

section Distance

variable {R : α → α → Prop} {S : Set α} {n m : ℕ} {x y : α}

lemma AtDistance.unique (hn : AtDistance R S n x) (hm : AtDistance R S m x) : n = m := by
  rcases Nat.lt_trichotomy n m with h | h | h
  · exact absurd hn.1 (hm.2 n h)
  · exact h
  · exact absurd hm.1 (hn.2 m h)

/-- A walk bounds the distance. -/
lemma exists_atDistance (h : x ∈ WalkTo R S n) : ∃ m ≤ n, AtDistance R S m x := by
  classical
  have hex : ∃ k, x ∈ WalkTo R S k := ⟨n, h⟩
  exact ⟨Nat.find hex, Nat.find_min' hex h, Nat.find_spec hex, fun _ hm => Nat.find_min hex hm⟩

@[simp] lemma atDistance_zero : AtDistance R S 0 x ↔ x ∈ S := by
  simp [AtDistance, WalkTo]

/-- The elements at distance `n + 1` are the successors of those at distance `n` that sit at no
smaller distance. -/
lemma atDistance_succ :
    AtDistance R S (n + 1) y ↔
      (∃ x, AtDistance R S n x ∧ R x y) ∧ ∀ m ≤ n, ¬ AtDistance R S m y := by
  constructor
  · rintro ⟨⟨x, hx, hxy⟩, hmin⟩
    refine ⟨⟨x, ⟨hx, fun m hm hxm => ?_⟩, hxy⟩, fun m hm hy => hmin m (by omega) hy.1⟩
    exact hmin (m + 1) (by omega) ⟨x, hxm, hxy⟩
  · rintro ⟨⟨x, hx, hxy⟩, hno⟩
    refine ⟨⟨x, hx.1, hxy⟩, fun m hm hy => ?_⟩
    obtain ⟨k, hk, hyk⟩ := exists_atDistance hy
    exact hno k (by omega) hyk

/-- Beyond an empty layer every layer is empty. -/
lemma not_atDistance_of_le (h : ∀ x, ¬ AtDistance R S n x) (hnm : n ≤ m) :
    ¬ AtDistance R S m x := by
  induction hnm generalizing x with
  | refl => exact h x
  | step _ ih =>
    intro hx
    obtain ⟨⟨w, hw, -⟩, -⟩ := atDistance_succ.mp hx
    exact ih hw

/-- Dropping edges that do not lead one distance further keeps the distances up to `N`. -/
lemma atDistance_congr {R' : α → α → Prop} {N : ℕ} (hsub : ∀ x y, R' x y → R x y)
    (hkeep : ∀ n < N, ∀ x y, AtDistance R S n x → AtDistance R S (n + 1) y → R x y → R' x y)
    {n : ℕ} (hn : n ≤ N) {y : α} : AtDistance R' S n y ↔ AtDistance R S n y := by
  induction n using Nat.strong_induction_on generalizing y with
  | _ n ih =>
    cases n with
    | zero => simp
    | succ n =>
      have hprev : ∀ m ≤ n, ∀ x, AtDistance R' S m x ↔ AtDistance R S m x :=
        fun m hm x => ih m (Nat.lt_succ_of_le hm) (by omega)
      rw [atDistance_succ]
      constructor
      · rintro ⟨⟨x, hx, hxy⟩, hno⟩
        exact atDistance_succ.mpr ⟨⟨x, (hprev n le_rfl x).mp hx, hsub x y hxy⟩,
          fun m hm h => hno m hm ((hprev m hm y).mpr h)⟩
      · intro hy
        obtain ⟨⟨x, hx, hxy⟩, hno⟩ := atDistance_succ.mp hy
        exact ⟨⟨x, (hprev n le_rfl x).mpr hx, hkeep n (by omega) x y hx hy hxy⟩,
          fun m hm h => hno m hm ((hprev m hm y).mp h)⟩

end Distance

/-! ### Layer by layer -/

section Search

variable [DecidableEq α] (succ : α → List α) (start : List α)

/-- The successors of a layer that were not visited, each once. -/
def nextLayer (visited layer : List α) : List α :=
  ((layer.flatMap succ).filter fun x => x ∉ visited).eraseDups

/-- The elements visited before the `n`-th layer, and the `n`-th layer. -/
def layerState : ℕ → List α × List α
  | 0 => ([], start)
  | n + 1 =>
    let visited := (layerState n).1 ++ (layerState n).2
    (visited, nextLayer succ visited (layerState n).2)

/-- The `n`-th layer of the search. -/
def layerAt (n : ℕ) : List α := (layerState succ start n).2

/-- Search at most `fuel` layers for the first one that `decide` decides. -/
def searchLayers (decide : List α → Option β) : ℕ → List α → List α → Option β
  | 0, _, _ => none
  | fuel + 1, visited, layer =>
    if layer.isEmpty then none
    else
      match decide layer with
      | some b => some b
      | none =>
        searchLayers decide fuel (visited ++ layer) (nextLayer succ (visited ++ layer) layer)

variable {succ start}

lemma mem_nextLayer {visited layer : List α} {y : α} :
    y ∈ nextLayer succ visited layer ↔ (∃ x ∈ layer, y ∈ succ x) ∧ y ∉ visited := by
  simp [nextLayer]

variable {R : α → α → Prop}

private lemma mem_layerState (hsucc : ∀ x y, y ∈ succ x ↔ R x y) (n : ℕ) :
    (∀ x, x ∈ (layerState succ start n).1 ↔ ∃ m < n, AtDistance R {x | x ∈ start} m x) ∧
      ∀ x, x ∈ (layerState succ start n).2 ↔ AtDistance R {x | x ∈ start} n x := by
  induction n with
  | zero => simp [layerState]
  | succ n ih =>
    obtain ⟨hvis, hlay⟩ := ih
    have hvis' : ∀ x, x ∈ (layerState succ start n).1 ++ (layerState succ start n).2 ↔
        ∃ m < n + 1, AtDistance R {x | x ∈ start} m x := by
      intro x
      rw [List.mem_append, hvis, hlay]
      constructor
      · rintro (⟨m, hm, hx⟩ | hx)
        · exact ⟨m, by omega, hx⟩
        · exact ⟨n, by omega, hx⟩
      · rintro ⟨m, hm, hx⟩
        rcases Nat.lt_succ_iff_lt_or_eq.mp hm with h | rfl
        · exact Or.inl ⟨m, h, hx⟩
        · exact Or.inr hx
    refine ⟨hvis', fun y => ?_⟩
    change y ∈ nextLayer succ _ _ ↔ _
    rw [mem_nextLayer, hvis', atDistance_succ]
    simp only [hlay, hsucc, not_exists, not_and, Nat.lt_succ_iff]

/-- The `n`-th layer holds the elements at distance `n`. -/
lemma mem_layerAt (hsucc : ∀ x y, y ∈ succ x ↔ R x y) {n : ℕ} {x : α} :
    x ∈ layerAt succ start n ↔ AtDistance R {x | x ∈ start} n x :=
  (mem_layerState hsucc n).2 x

private lemma layerAt_eq_nil_of_le {n m : ℕ} (h : layerAt succ start n = []) (hnm : n ≤ m) :
    layerAt succ start m = [] := by
  rw [List.eq_nil_iff_forall_not_mem] at h ⊢
  intro x hx
  rw [mem_layerAt (R := fun a b => b ∈ succ a) fun _ _ => Iff.rfl] at hx
  refine not_atDistance_of_le (fun y hy => h y ?_) hnm hx
  rwa [mem_layerAt (R := fun a b => b ∈ succ a) fun _ _ => Iff.rfl]

private lemma searchLayers_layerState {decide : List α → Option β} (hnil : decide [] = none)
    (fuel n : ℕ) :
    searchLayers succ decide fuel (layerState succ start n).1 (layerState succ start n).2
      = (List.range' n fuel).findSome? fun m => decide (layerAt succ start m) := by
  induction fuel generalizing n with
  | zero => rfl
  | succ fuel ih =>
    rw [searchLayers, List.range'_succ, List.findSome?_cons]
    by_cases hempty : layerAt succ start n = []
    · have hnone : ∀ m ∈ List.range' (n + 1) fuel, decide (layerAt succ start m) = none := by
        intro m hm
        rw [layerAt_eq_nil_of_le hempty (by simp at hm; omega), hnil]
      rw [List.findSome?_eq_none_iff.mpr hnone]
      change layerAt succ start n = [] at hempty
      simp only [layerAt] at hempty ⊢
      simp [hempty, hnil]
    · have hisEmpty : (layerState succ start n).2.isEmpty = false := by
        simpa [layerAt] using hempty
      rw [hisEmpty, ← ih (n + 1)]
      simp only [Bool.false_eq_true, if_false]
      rfl

/-- The search answers what the first decided layer answers. -/
lemma searchLayers_eq_findSome? {decide : List α → Option β} (hnil : decide [] = none)
    (fuel : ℕ) :
    searchLayers succ decide fuel [] start
      = (List.range fuel).findSome? fun n => decide (layerAt succ start n) := by
  rw [List.range_eq_range']
  exact searchLayers_layerState hnil fuel 0

/-- Searches whose deciders agree up to a function answer alike up to it. -/
lemma searchLayers_map {γ : Type*} {decide : List α → Option β} {decide' : List α → Option γ}
    {f : β → γ} (h : ∀ layer, decide' layer = (decide layer).map f) (fuel : ℕ)
    (visited layer : List α) :
    searchLayers succ decide' fuel visited layer
      = (searchLayers succ decide fuel visited layer).map f := by
  induction fuel generalizing visited layer with
  | zero => rfl
  | succ fuel ih =>
    rw [searchLayers, searchLayers, h]
    split_ifs
    · rfl
    · cases decide layer with
      | none => exact ih _ _
      | some b => rfl

end Search

/-! ### Distances -/

section Distances

variable [DecidableEq α] (succ : α → List α)

/-- Record the new successors of a frontier at `distance`; the second part lists them. -/
def spread (distance : ℕ) (frontier : List α) (chain : Dict α ℕ) : Dict α ℕ × List α :=
  (frontier.flatMap succ).foldl
    (fun acc x => if acc.1.has x then acc else (acc.1.set x distance, acc.2 ++ [x])) (chain, [])

/-- Spread a frontier at most `fuel` times, the first time at `distance`. -/
def distancesFrom : ℕ → ℕ → Dict α ℕ → List α → Dict α ℕ
  | 0, _, chain, _ => chain
  | fuel + 1, distance, chain, frontier =>
    if frontier.isEmpty then chain
    else
      let next := spread succ distance frontier chain
      distancesFrom fuel (distance + 1) next.1 next.2

/-- The distances from one element, up to `bound`. -/
def distances (bound : ℕ) (x : α) : Dict α ℕ :=
  distancesFrom succ bound 1 (Dict.ofList [(x, 0)]) [x]

variable {succ}

private lemma spread_foldl (distance : ℕ) (xs : List α) (acc : Dict α ℕ × List α) :
    let out := xs.foldl
      (fun acc x => if acc.1.has x then acc else (acc.1.set x distance, acc.2 ++ [x])) acc
    (∀ y d, out.1.get? y = some d ↔
      acc.1.get? y = some d ∨ acc.1.get? y = none ∧ y ∈ xs ∧ d = distance) ∧
      ∀ y, y ∈ out.2 ↔ y ∈ acc.2 ∨ acc.1.get? y = none ∧ y ∈ xs := by
  induction xs generalizing acc with
  | nil => simp
  | cons x xs ih =>
    simp only [List.foldl_cons]
    by_cases hx : acc.1.has x
    · obtain ⟨d₀, hd₀⟩ := Dict.mem_keys_iff.mp (Dict.has_iff.mp hx)
      have hne : ∀ {y}, acc.1.get? y = none → y ≠ x := by rintro y hy rfl; simp [hd₀] at hy
      rw [if_pos hx]
      obtain ⟨hget, hmem⟩ := ih acc
      refine ⟨fun y d => ?_, fun y => ?_⟩
      · rw [hget]; grind
      · rw [hmem]; grind
    · have hnone : acc.1.get? x = none := by
        rwa [Dict.get?_eq_none_iff, ← Dict.has_iff]
      rw [if_neg hx]
      obtain ⟨hget, hmem⟩ := ih (acc.1.set x distance, acc.2 ++ [x])
      refine ⟨fun y d => ?_, fun y => ?_⟩
      · rw [hget]; simp only [Dict.get?_set]; grind
      · rw [hmem]; simp only [Dict.get?_set]; grind

lemma get?_spread {distance : ℕ} {frontier : List α} {chain : Dict α ℕ} {y : α} {d : ℕ} :
    (spread succ distance frontier chain).1.get? y = some d ↔ chain.get? y = some d ∨
      chain.get? y = none ∧ (∃ x ∈ frontier, y ∈ succ x) ∧ d = distance := by
  rw [spread, (spread_foldl distance _ (chain, [])).1, List.mem_flatMap]

lemma mem_spread {distance : ℕ} {frontier : List α} {chain : Dict α ℕ} {y : α} :
    y ∈ (spread succ distance frontier chain).2 ↔
      chain.get? y = none ∧ ∃ x ∈ frontier, y ∈ succ x := by
  rw [spread, (spread_foldl distance _ (chain, [])).2, List.mem_flatMap]
  simp

variable {R : α → α → Prop} {S : Set α}

/-- The chain holds the distances below `n`, the frontier the elements at distance `n - 1`. -/
private lemma get?_distancesFrom (hsucc : ∀ x y, y ∈ succ x ↔ R x y) (fuel n : ℕ)
    (chain : Dict α ℕ) (frontier : List α)
    (hchain : ∀ y d, chain.get? y = some d ↔ d < n + 1 ∧ AtDistance R S d y)
    (hfrontier : ∀ y, y ∈ frontier ↔ AtDistance R S n y) (y : α) (d : ℕ) :
    (distancesFrom succ fuel (n + 1) chain frontier).get? y = some d ↔
      d < n + 1 + fuel ∧ AtDistance R S d y := by
  induction fuel generalizing n chain frontier with
  | zero => exact hchain y d
  | succ fuel ih =>
    rw [distancesFrom]
    split_ifs with hempty
    · rw [List.isEmpty_iff] at hempty
      have hno : ∀ x, ¬ AtDistance R S n x := fun x hx => by
        have := (hfrontier x).mpr hx
        simp [hempty] at this
      rw [hchain]
      constructor
      · rintro ⟨hd, hy⟩
        exact ⟨by omega, hy⟩
      · rintro ⟨-, hy⟩
        refine ⟨?_, hy⟩
        by_contra hlt
        exact not_atDistance_of_le hno (by omega) hy
    · have hnone : ∀ z, chain.get? z = none ↔ ∀ m ≤ n, ¬ AtDistance R S m z := by
        intro z
        simp only [Option.eq_none_iff_forall_ne_some, ne_eq, hchain, Nat.lt_succ_iff, not_and]
      have hnew : ∀ z, (chain.get? z = none ∧ ∃ x ∈ frontier, z ∈ succ x) ↔
          AtDistance R S (n + 1) z := by
        intro z
        rw [hnone, atDistance_succ]
        simp only [hfrontier, hsucc]
        exact and_comm
      have hstep := ih (n + 1) (spread succ (n + 1) frontier chain).1
        (spread succ (n + 1) frontier chain).2 ?_ ?_
      · rw [hstep]
        have : n + 1 + 1 + fuel = n + 1 + (fuel + 1) := by omega
        rw [this]
      · intro z e
        rw [get?_spread, ← and_assoc, hnew, hchain]
        constructor
        · rintro (⟨he, hz⟩ | ⟨hz, rfl⟩)
          · exact ⟨by omega, hz⟩
          · exact ⟨by omega, hz⟩
        · rintro ⟨he, hz⟩
          rcases Nat.lt_succ_iff_lt_or_eq.mp he with h | rfl
          · exact Or.inl ⟨h, hz⟩
          · exact Or.inr ⟨hz, rfl⟩
      · intro z
        rw [mem_spread, hnew]

/-- `distances` finds exactly the shortest distances up to the bound. -/
lemma get?_distances (hsucc : ∀ x y, y ∈ succ x ↔ R x y) {bound : ℕ} {x y : α} {d : ℕ} :
    (distances succ bound x).get? y = some d ↔ d ≤ bound ∧ AtDistance R {x} d y := by
  have hstart : ∀ z e, (Dict.ofList [(x, 0)]).get? z = some e ↔ e < 0 + 1 ∧ AtDistance R {x} e z := by
    intro z e
    rw [Dict.get?_ofList_eq_some_iff (by simp)]
    simp only [List.mem_singleton, Prod.mk.injEq]
    constructor
    · rintro ⟨rfl, rfl⟩
      exact ⟨by omega, by simp⟩
    · rintro ⟨he, hz⟩
      obtain rfl : e = 0 := by omega
      simpa using hz
  rw [distances, get?_distancesFrom hsucc bound 0 _ [x] hstart (by simp)]
  have : d < 0 + 1 + bound ↔ d ≤ bound := by omega
  rw [this]

end Distances

end Junjo
