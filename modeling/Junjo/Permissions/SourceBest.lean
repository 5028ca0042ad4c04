import Junjo.Permissions.Precedence

/-!
# The best entries of a source

`sourceBest` folds over the entries of one source. `Describes E best` says what the fold knows:
the best score among the entries `E` seen so far and, for each value, the tied context with the
smallest canonical key.
-/

namespace Junjo

/-! ### Context scores -/

lemma get?_contextChains {check : PermissionContext} {contexts : ContextInheritance} {key : Text}
    {chain : Dict Text ℕ} :
    (contextChains check contexts).get? key = some chain ↔
      ∃ value, check.get? key = some value ∧
        chain = contextChain contexts key (foldContextValue value) := by
  have hkeys : ((check.entries.map fun p : Text × Text =>
      (p.1, contextChain contexts p.1 (foldContextValue p.2))).map Prod.fst).Nodup := by
    simpa [Function.comp_def] using check.nodupKeys
  rw [contextChains, Dict.get?_ofList_eq_some_iff hkeys]
  simp only [List.mem_map, Prod.mk.injEq, Dict.get?_eq_some_iff]
  constructor
  · rintro ⟨⟨k, value⟩, hp, rfl, rfl⟩
    exact ⟨value, hp, rfl⟩
  · rintro ⟨value, hp, rfl⟩
    exact ⟨(key, value), hp, rfl, rfl⟩

lemma pairDistance_eq_some {check : PermissionContext} {contexts : ContextInheritance}
    {p : Text × Text} {d : ℕ} :
    pairDistance (contextChains check contexts) p = some d ↔
      ∃ value, check.get? p.1 = some value ∧
        InChain contexts p.1 (foldContextValue value) (foldContextValue p.2) d := by
  simp only [pairDistance, Option.bind_eq_some_iff, get?_contextChains]
  constructor
  · rintro ⟨_, ⟨value, hvalue, rfl⟩, hd⟩
    exact ⟨value, hvalue, get?_contextChain.mp hd⟩
  · rintro ⟨value, hvalue, hd⟩
    exact ⟨_, ⟨value, hvalue, rfl⟩, get?_contextChain.mpr hd⟩

lemma foldlM_pairDistance (chains : Chains) (l : List (Text × Text))
    (acc : ℕ × ℕ) (k d : ℕ) :
    l.foldlM (fun (acc : ℕ × ℕ) p => (pairDistance chains p).map fun d => (acc.1 + 1, acc.2 + d))
        acc = some (k, d) ↔
      k = acc.1 + l.length ∧ ∃ δ : Text × Text → ℕ,
        (∀ p ∈ l, pairDistance chains p = some (δ p)) ∧ d = acc.2 + (l.map δ).sum := by
  induction l generalizing acc with
  | nil =>
    obtain ⟨k₀, d₀⟩ := acc
    simp [eq_comm]
  | cons p l ih =>
    rw [List.foldlM_cons]
    cases hp : pairDistance chains p with
    | none =>
      simp only [Option.map_none, Option.bind_eq_bind, Option.bind_none, reduceCtorEq, false_iff,
        not_and, not_exists]
      intro _ δ hδ
      have := hδ p List.mem_cons_self
      simp [hp] at this
    | some e =>
      simp only [Option.map_some, Option.bind_eq_bind, Option.bind_some]
      rw [ih]
      simp only [List.length_cons, List.mem_cons, forall_eq_or_imp, List.map_cons, List.sum_cons]
      constructor
      · rintro ⟨hk, δ, hδ, hd⟩
        -- the two choices of a distance for `p` agree, since both are its pair distance
        have hmap : l.map (Function.update δ p e) = l.map δ := by
          apply List.map_congr_left
          intro q hq
          by_cases hqp : q = p
          · have := hδ q hq
            rw [hqp, hp] at this
            simp [hqp, Option.some.inj this]
          · simp [hqp]
        refine ⟨by omega, Function.update δ p e, ⟨by simp [hp], fun q hq => ?_⟩, ?_⟩
        · by_cases hqp : q = p
          · simp [hqp, hp]
          · simp [hqp, hδ q hq]
        · simp only [Function.update_self, hmap]
          omega
      · rintro ⟨hk, δ, ⟨hδp, hδ⟩, hd⟩
        obtain rfl : e = δ p := by simpa [hp] using hδp
        exact ⟨by omega, δ, hδ, by omega⟩

/-- The context score is found exactly when the context applies. -/
lemma contextScore_eq_some {check : PermissionContext} {contexts : ContextInheritance}
    {context : PermissionContext} {keys distance : ℕ} :
    contextScore context (contextChains check contexts) = some (keys, distance) ↔
      ContextApplies check contexts (some context) keys distance := by
  unfold contextScore ContextApplies
  rw [foldlM_pairDistance]
  simp only [Nat.zero_add, pairDistance_eq_some, Dict.size]

/-- The context score does not depend on the order of the keys. -/
lemma contextScore_congr {c c' : PermissionContext} (h : ∀ k, c.get? k = c'.get? k)
    (chains : Chains) : contextScore c chains = contextScore c' chains := by
  have hperm := Dict.entries_perm_of_get?_eq h
  ext ⟨k, d⟩
  unfold contextScore
  simp only [foldlM_pairDistance, hperm.length_eq, hperm.mem_iff]
  refine and_congr_right fun _ => exists_congr fun δ => ?_
  rw [(hperm.map δ).sum_nat]

/-- A check without context has no chains. -/
lemma size_contextChains_pos {check : PermissionContext} {contexts : ContextInheritance} :
    0 < (contextChains check contexts).size ↔ check.keys ≠ [] := by
  rw [← Dict.length_keys, List.length_pos_iff, not_iff_not, List.eq_nil_iff_forall_not_mem,
    List.eq_nil_iff_forall_not_mem]
  apply forall_congr'
  intro key
  simp only [Dict.mem_keys_iff, get?_contextChains]
  constructor
  · rintro h ⟨value, hvalue⟩
    exact h ⟨_, value, hvalue, rfl⟩
  · rintro h ⟨chain, value, hvalue, -⟩
    exact h ⟨value, hvalue⟩

/-- Without a check context no contextual entry applies. -/
lemma not_contextApplies_of_keys_nil {check : PermissionContext} {contexts : ContextInheritance}
    {entry : ResolverContextEntry} {keys distance : ℕ} (hcheck : check.keys = []) :
    ¬ ContextApplies check contexts (some entry.context) keys distance := by
  rintro ⟨-, d, hd, -⟩
  obtain ⟨key, hkey⟩ := List.exists_mem_of_ne_nil _ entry.nonempty
  obtain ⟨value, hvalue⟩ := Dict.mem_keys_iff.mp hkey
  obtain ⟨w, hw, -⟩ := hd _ (Dict.get?_eq_some_iff.mp hvalue)
  have : key ∈ check.keys := Dict.mem_keys_iff.mpr ⟨w, hw⟩
  simp [hcheck] at this

/-! ### What the fold knows -/

/-- Entries by value, context and score. -/
abbrev EntrySet := Bool → Option PermissionContext → Score → Prop

/-- What is held for one value: the smallest canonical key among the entries at the score. -/
def HeldDescribes (E : EntrySet) (score : Score) (value : Bool) :
    Option (Option PermissionContext) → Prop
  | none => ∀ context, ¬ E value context score
  | some context => E value context score ∧ ∀ context', E value context' score →
      canonicalContextKey context ≤ canonicalContextKey context'

/-- The fold holds the best score of the entries and the context to report for each value. -/
def Describes (E : EntrySet) : Option SourceBest → Prop
  | none => ∀ value context score, ¬ E value context score
  | some best =>
    (∃ value context, E value context best.score) ∧
      (∀ value context score, E value context score → best.score ≤ score) ∧
      ∀ value, HeldDescribes E best.score value (best.held value)

@[simp] lemma SourceBest.hold_score (best : SourceBest) (value : Bool)
    (context : Option PermissionContext) : (best.hold value context).score = best.score := by
  unfold SourceBest.hold
  split_ifs
  · cases value <;> rfl
  · rfl

lemma SourceBest.held_hold_ne (best : SourceBest) {value value' : Bool} (h : value' ≠ value)
    (context : Option PermissionContext) :
    (best.hold value context).held value' = best.held value' := by
  unfold SourceBest.hold
  split_ifs
  · cases value <;> cases value' <;> first | rfl | exact absurd rfl h
  · rfl

lemma SourceBest.held_hold_self (best : SourceBest) (value : Bool)
    (context : Option PermissionContext) :
    (best.hold value context).held value =
      if best.replaces value context then some context else best.held value := by
  unfold SourceBest.hold
  split_ifs
  · cases value <;> rfl
  · rfl

/-- One more entry. -/
def EntrySet.insert (E : EntrySet) (value : Bool) (context : Option PermissionContext)
    (score : Score) : EntrySet := fun v c s => E v c s ∨ v = value ∧ c = context ∧ s = score

/-- Holding a context at the best score describes the entries with it. -/
private lemma heldDescribes_hold {E : EntrySet} (best : SourceBest) (value : Bool)
    (context : Option PermissionContext)
    (h : ∀ value, HeldDescribes E best.score value (best.held value)) (value' : Bool) :
    HeldDescribes (E.insert value context best.score) best.score value'
      ((best.hold value context).held value') := by
  by_cases hne : value' = value
  · subst hne
    rw [SourceBest.held_hold_self]
    have hold := h value'
    cases hheld : best.held value' with
    | none =>
      rw [hheld] at hold
      rw [if_pos (by simp [SourceBest.replaces, hheld])]
      refine ⟨Or.inr ⟨rfl, rfl, rfl⟩, ?_⟩
      rintro context' (hE | ⟨-, rfl, -⟩)
      · exact absurd hE (hold context')
      · exact le_rfl
    | some held =>
      rw [hheld] at hold
      obtain ⟨hE, hmin⟩ := hold
      simp only [SourceBest.replaces, hheld, decide_eq_true_eq]
      split_ifs with hlt
      · refine ⟨Or.inr ⟨rfl, rfl, rfl⟩, ?_⟩
        rintro context' (hE' | ⟨-, rfl, -⟩)
        · exact hlt.le.trans (hmin context' hE')
        · exact le_rfl
      · refine ⟨Or.inl hE, ?_⟩
        rintro context' (hE' | ⟨-, rfl, -⟩)
        · exact hmin context' hE'
        · exact not_lt.mp hlt
  · rw [SourceBest.held_hold_ne _ hne]
    have hold := h value'
    cases hheld : best.held value' with
    | none =>
      rw [hheld] at hold
      rintro context' (hE | ⟨rfl, -, -⟩)
      · exact hold context' hE
      · exact hne rfl
    | some held =>
      rw [hheld] at hold
      refine ⟨Or.inl hold.1, ?_⟩
      rintro context' (hE | ⟨rfl, -, -⟩)
      · exact hold.2 context' hE
      · exact absurd rfl hne

/-- A source best that was just opened holds nothing yet. -/
private lemma heldDescribes_fresh {E : EntrySet} {score : Score}
    (hE : ∀ value context, ¬ E value context score) (value : Bool) :
    HeldDescribes E score value (SourceBest.held ⟨score, none, none⟩ value) := by
  cases value <;> exact fun context => hE _ context

/-- Considering one more entry keeps the description. -/
lemma describes_consider {E : EntrySet} {best : Option SourceBest} (h : Describes E best)
    (score : Score) (value : Bool) (context : Option PermissionContext) :
    Describes (E.insert value context score) (some (consider best score value context)) := by
  cases best with
  | none =>
    refine ⟨⟨value, context, ?_⟩, ?_, ?_⟩
    · exact Or.inr ⟨rfl, rfl, by simp [consider]⟩
    · rintro value' context' score' (hE | ⟨-, -, rfl⟩)
      · exact absurd hE (h value' context' score')
      · simp [consider]
    · intro value'
      have hhold := heldDescribes_hold ⟨score, none, none⟩ value context
        (heldDescribes_fresh fun v c => h v c score) value'
      simpa [consider] using hhold
  | some best =>
    obtain ⟨⟨v₀, c₀, hE₀⟩, hmin, hheld⟩ := h
    rcases lt_trichotomy score best.score with hlt | heq | hgt
    · have hconsider : consider (some best) score value context
          = SourceBest.hold ⟨score, none, none⟩ value context := by
        have hneg := compareScore_neg.mpr hlt
        simp [consider, hneg, not_lt.mpr hneg.le]
      have hnone : ∀ v c, ¬ E v c score := fun v c hE => absurd (hmin v c score hE) (not_le.mpr hlt)
      rw [hconsider]
      refine ⟨⟨value, context, Or.inr ⟨rfl, rfl, by simp⟩⟩, ?_, fun value' => ?_⟩
      · rintro value' context' score' (hE | ⟨-, -, rfl⟩)
        · rw [SourceBest.hold_score]
          exact hlt.le.trans (hmin value' context' score' hE)
        · simp
      · have hhold := heldDescribes_hold ⟨score, none, none⟩ value context
          (heldDescribes_fresh hnone) value'
        simpa using hhold
    · have hconsider : consider (some best) score value context = best.hold value context := by
        simp [consider, compareScore_eq_zero.mpr heq]
      rw [hconsider]
      refine ⟨⟨v₀, c₀, Or.inl (by simpa using hE₀)⟩, ?_, fun value' => ?_⟩
      · rintro value' context' score' (hE | ⟨-, -, rfl⟩)
        · simpa using hmin value' context' score' hE
        · simp [heq]
      · have hhold := heldDescribes_hold best value context hheld value'
        rw [heq]
        simpa using hhold
    · have hconsider : consider (some best) score value context = best := by
        simp [consider, compareScore_pos.mpr hgt]
      have hnew : ∀ v c, E.insert value context score v c best.score ↔ E v c best.score := by
        intro v c
        constructor
        · rintro (hE | ⟨-, -, hscore⟩)
          · exact hE
          · exact absurd hscore hgt.ne
        · exact Or.inl
      rw [hconsider]
      refine ⟨⟨v₀, c₀, Or.inl hE₀⟩, ?_, fun value' => ?_⟩
      · rintro value' context' score' (hE | ⟨-, -, rfl⟩)
        · exact hmin value' context' score' hE
        · exact hgt.le
      · have hold := hheld value'
        cases hh : best.held value' with
        | none =>
          rw [hh] at hold
          exact fun c hc => hold c ((hnew _ _).mp hc)
        | some held =>
          rw [hh] at hold
          exact ⟨(hnew _ _).mpr hold.1, fun c hc => hold.2 c ((hnew _ _).mp hc)⟩

lemma Describes.congr {E E' : EntrySet} {best : Option SourceBest} (h : Describes E best)
    (hE : ∀ value context score, E value context score ↔ E' value context score) :
    Describes E' best := by
  have : E = E' := by
    funext value context score
    exact propext (hE value context score)
  rwa [← this]

/-- Entries that score worse than a described one may be added. -/
lemma Describes.add_worse {E E' : EntrySet} {best : Option SourceBest} (h : Describes E best)
    (hsub : ∀ value context score, E value context score → E' value context score)
    (hworse : ∀ value context score, E' value context score → E value context score ∨
      ∃ value' context' score', E value' context' score' ∧ score' < score) :
    Describes E' best := by
  cases best with
  | none =>
    intro value context score hE'
    rcases hworse value context score hE' with hE | ⟨v, c, s, hE, -⟩
    · exact h _ _ _ hE
    · exact h _ _ _ hE
  | some best =>
    obtain ⟨⟨v₀, c₀, hE₀⟩, hmin, hheld⟩ := h
    have hbest : ∀ v c, E' v c best.score ↔ E v c best.score := by
      intro v c
      refine ⟨fun hE' => ?_, hsub v c best.score⟩
      rcases hworse v c best.score hE' with hE | ⟨v', c', s', hE, hlt⟩
      · exact hE
      · exact absurd (hmin v' c' s' hE) (not_le.mpr hlt)
    refine ⟨⟨v₀, c₀, hsub _ _ _ hE₀⟩, fun v c s hE' => ?_, fun value => ?_⟩
    · rcases hworse v c s hE' with hE | ⟨v', c', s', hE, hlt⟩
      · exact hmin v c s hE
      · exact (hmin v' c' s' hE).trans hlt.le
    · have hold := hheld value
      cases hh : best.held value with
      | none =>
        rw [hh] at hold
        exact fun c hc => hold c ((hbest _ _).mp hc)
      | some held =>
        rw [hh] at hold
        exact ⟨(hbest _ _).mpr hold.1, fun c hc => hold.2 c ((hbest _ _).mp hc)⟩

/-! ### The whole source -/

private lemma findSome?_zipIdx (global : Dict Text Bool) (l : List Text) (n rank : ℕ)
    (value : Bool) :
    ((l.zipIdx n).findSome? fun p => (global.get? p.1).map fun value => (p.2, value))
        = some (rank, value) ↔
      ∃ j, rank = n + j ∧ (∃ key, l[j]? = some key ∧ global.get? key = some value) ∧
        ∀ i < j, ∀ key, l[i]? = some key → global.get? key = none := by
  induction l generalizing n with
  | nil => simp
  | cons key l ih =>
    rw [List.zipIdx_cons, List.findSome?_cons]
    dsimp only
    cases hkey : global.get? key with
    | some w =>
      simp only [Option.map_some, Option.some.injEq, Prod.mk.injEq]
      constructor
      · rintro ⟨rfl, rfl⟩
        exact ⟨0, rfl, ⟨key, rfl, hkey⟩, fun i hi => absurd hi (Nat.not_lt_zero i)⟩
      · rintro ⟨j, rfl, ⟨key', hj, hvalue⟩, hfirst⟩
        cases j with
        | zero =>
          obtain rfl : key = key' := by simpa using hj
          exact ⟨rfl, Option.some.inj (hkey.symm.trans hvalue)⟩
        | succ j =>
          have := hfirst 0 (Nat.succ_pos j) key rfl
          simp [hkey] at this
    | none =>
      simp only [Option.map_none]
      rw [ih (n + 1)]
      constructor
      · rintro ⟨j, rfl, hj, hfirst⟩
        refine ⟨j + 1, by omega, by simpa using hj, fun i hi key' hi' => ?_⟩
        cases i with
        | zero =>
          obtain rfl : key = key' := by simpa using hi'
          exact hkey
        | succ i => exact hfirst i (by omega) key' (by simpa using hi')
      · rintro ⟨j, rfl, ⟨key', hj, hvalue⟩, hfirst⟩
        cases j with
        | zero =>
          obtain rfl : key = key' := by simpa using hj
          simp [hkey] at hvalue
        | succ j =>
          refine ⟨j, by omega, ⟨key', by simpa using hj, hvalue⟩, fun i hi key'' hi' => ?_⟩
          exact hfirst (i + 1) (by omega) key'' (by simpa using hi')

/-- The first candidate with a global entry. -/
lemma firstGlobal_eq_some {global : Dict Text Bool} {candidates : List Text} {rank : ℕ}
    {value : Bool} :
    firstGlobal global candidates = some (rank, value) ↔
      (∃ key, candidates[rank]? = some key ∧ global.get? key = some value) ∧
        ∀ i < rank, ∀ key, candidates[i]? = some key → global.get? key = none := by
  rw [firstGlobal, findSome?_zipIdx]
  simp

section Source

variable {global : Dict Text Bool} {contextual : List ResolverContextEntry}
  {candidates : List Text} {check : PermissionContext} {contexts : ContextInheritance}

/-- The most specific global entry alone. -/
private def firstGlobalSet (global : Dict Text Bool) (candidates : List Text) : EntrySet :=
  fun value context score => ∃ rank, firstGlobal global candidates = some (rank, value) ∧
    context = none ∧ score = ⟨0, 0, rank⟩

private lemma describes_firstGlobal :
    Describes (firstGlobalSet global candidates)
      ((firstGlobal global candidates).map fun (rank, value) =>
        consider none ⟨0, 0, rank⟩ value none) := by
  cases h : firstGlobal global candidates with
  | none =>
    rintro value context score ⟨rank, hrank, -⟩
    simp [h] at hrank
  | some p =>
    obtain ⟨rank, value⟩ := p
    have hnone : Describes (fun _ _ _ => False) none := fun _ _ _ hE => hE
    refine (describes_consider hnone ⟨0, 0, rank⟩ value none).congr fun v c s => ?_
    simp only [EntrySet.insert, false_or, firstGlobalSet, h, Option.some.injEq, Prod.mk.injEq]
    constructor
    · rintro ⟨rfl, rfl, rfl⟩
      exact ⟨rank, ⟨rfl, rfl⟩, rfl, rfl⟩
    · rintro ⟨rank', ⟨rfl, rfl⟩, rfl, rfl⟩
      exact ⟨rfl, rfl, rfl⟩

/-- Entries together with the applicable ones of a contextual list. -/
private def addContextual (E : EntrySet) (contextual : List ResolverContextEntry)
    (candidates : List Text) (check : PermissionContext) (contexts : ContextInheritance) :
    EntrySet :=
  fun value context score => E value context score ∨ ∃ entry ∈ contextual,
    value = entry.value ∧ context = some entry.context ∧
      EntryApplies candidates check contexts entry.permission (some entry.context) score

private lemma describes_considerContextual (hnodup : candidates.Nodup) {E : EntrySet}
    {best : Option SourceBest} (h : Describes E best) (entry : ResolverContextEntry) :
    Describes (addContextual E [entry] candidates check contexts)
      (considerContextual candidates (contextChains check contexts) best entry) := by
  unfold considerContextual
  cases hrank : (rankOf candidates).get? entry.permission with
  | none =>
    refine h.congr fun v c s => ?_
    simp only [addContextual, List.mem_singleton, exists_eq_left]
    refine ⟨Or.inl, ?_⟩
    rintro (hE | ⟨-, -, hkey, -⟩)
    · exact hE
    · rw [← get?_rankOf hnodup, hrank] at hkey
      cases hkey
  | some rank =>
    rw [get?_rankOf hnodup] at hrank
    cases hscore : contextScore entry.context (contextChains check contexts) with
    | none =>
      refine h.congr fun v c s => ?_
      simp only [addContextual, List.mem_singleton, exists_eq_left]
      refine ⟨Or.inl, ?_⟩
      rintro (hE | ⟨-, -, -, happlies⟩)
      · exact hE
      · rw [← contextScore_eq_some, hscore] at happlies
        cases happlies
    | some p =>
      obtain ⟨keys, distance⟩ := p
      refine (describes_consider h ⟨keys, distance, rank⟩ entry.value (some entry.context)).congr
        fun v c s => ?_
      simp only [EntrySet.insert, addContextual, List.mem_singleton, exists_eq_left]
      apply or_congr_right
      apply and_congr_right
      rintro rfl
      apply and_congr_right
      rintro rfl
      constructor
      · rintro rfl
        exact ⟨hrank, contextScore_eq_some.mp hscore⟩
      · rintro ⟨hkey, happlies⟩
        rw [← contextScore_eq_some, hscore] at happlies
        cases happlies
        exact Score.ext rfl rfl (rank_unique hnodup hkey hrank)

private lemma describes_foldl_considerContextual (hnodup : candidates.Nodup) {E : EntrySet}
    {best : Option SourceBest} (h : Describes E best) :
    Describes (addContextual E contextual candidates check contexts)
      (contextual.foldl (considerContextual candidates (contextChains check contexts)) best) := by
  induction contextual generalizing E best with
  | nil => exact h.congr fun v c s => by simp [addContextual]
  | cons entry contextual ih =>
    rw [List.foldl_cons]
    refine (ih (describes_considerContextual hnodup h entry)).congr fun v c s => ?_
    simp [addContextual, or_assoc]

/-- The first global entry and the contextual ones are all that decides a source: the other
global entries score worse. -/
lemma describes_sourceBest (hnodup : candidates.Nodup) :
    Describes (SourceApplies global contextual candidates check contexts)
      (sourceBest global contextual candidates (contextChains check contexts)) := by
  have hdescribes : Describes
      (addContextual (firstGlobalSet global candidates) contextual candidates check contexts)
      (sourceBest global contextual candidates (contextChains check contexts)) := by
    unfold sourceBest
    split_ifs with hsize
    · exact describes_foldl_considerContextual hnodup describes_firstGlobal
    · rw [size_contextChains_pos, not_not] at hsize
      refine describes_firstGlobal.congr fun v c s => ⟨Or.inl, ?_⟩
      rintro (hE | ⟨entry, -, -, -, -, happlies⟩)
      · exact hE
      · exact absurd happlies (not_contextApplies_of_keys_nil hsize)
  refine hdescribes.add_worse ?_ ?_
  · rintro value context score (⟨rank, hfirst, rfl, rfl⟩ | ⟨entry, hentry, rfl, rfl, happlies⟩)
    · obtain ⟨⟨key, hkey, hvalue⟩, -⟩ := firstGlobal_eq_some.mp hfirst
      exact ⟨key, .global hvalue, hkey, rfl, rfl⟩
    · exact ⟨entry.permission, .contextual hentry, happlies⟩
  · rintro value context score ⟨key, hholds, hkey, happlies⟩
    cases hholds with
    | contextual hentry => exact Or.inl (Or.inr ⟨_, hentry, rfl, rfl, hkey, happlies⟩)
    | global hvalue =>
      obtain ⟨hkeys, hdistance⟩ := happlies
      cases hfirst : firstGlobal global candidates with
      | none =>
        have hnone := (List.findSome?_eq_none_iff.mp hfirst) (key, score.rank)
          (List.mem_zipIdx_iff_getElem?.mpr hkey)
        simp [hvalue] at hnone
      | some p =>
        obtain ⟨rank, w⟩ := p
        obtain ⟨⟨key', hkey', hw⟩, hmin⟩ := firstGlobal_eq_some.mp hfirst
        rcases lt_trichotomy rank score.rank with hlt | heq | hgt
        · refine Or.inr ⟨w, none, ⟨0, 0, rank⟩, Or.inl ⟨rank, hfirst, rfl, rfl⟩, ?_⟩
          exact Score.lt_iff.mpr (Or.inr ⟨hkeys.symm, Or.inr ⟨hdistance.symm, hlt⟩⟩)
        · rw [heq, hkey] at hkey'
          cases hkey'
          rw [hvalue] at hw
          cases hw
          exact Or.inl (Or.inl ⟨rank, hfirst, rfl, Score.ext hkeys hdistance heq.symm⟩)
        · have := hmin score.rank hgt key hkey
          simp [hvalue] at this

end Source

end Junjo
