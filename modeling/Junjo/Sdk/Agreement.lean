import Junjo.Sdk.Candidates

/-!
# The SDK resolver agrees with the server's

Each function of the SDK's resolver computes the image of what the server's computes. The one
difference in the data is that the SDK holds contexts sorted and folded, and a global context
where the server has none.
-/

namespace Junjo.Sdk

/-! ### The server's data as the SDK holds it -/

def PermissionEntry.ofServer (entry : ResolverContextEntry) : PermissionEntry where
  permission := entry.permission
  value := entry.value
  context := Context.fromWire (some entry.context)

def ResolverRole.ofServer (role : Junjo.ResolverRole) : ResolverRole where
  priority := role.priority
  entries := role.entries
  contextEntries := role.contextEntries.map PermissionEntry.ofServer
  parents := role.parents

def PermissionCheckResult.ofServer (result : Junjo.PermissionCheckResult) :
    PermissionCheckResult where
  allowed := result.allowed
  source := result.source
  viaRoleId := result.viaRoleId
  viaGroupId := result.viaGroupId
  context := Context.fromWire result.context

def SourceBest.ofServer (best : Junjo.SourceBest) : SourceBest where
  score := best.score
  deny := best.deny.map Context.fromWire
  grant := best.grant.map Context.fromWire

/-- A context stored folded. -/
def FoldedContext (context : PermissionContext) : Prop :=
  context.mapValues foldContextValue = context

/-- Entries stored with folded contexts. -/
def FoldedEntries (entries : List ResolverContextEntry) : Prop :=
  ∀ entry ∈ entries, FoldedContext entry.context

/-- The contexts that a best entry holds are folded. -/
def FoldedBest (best : Junjo.SourceBest) : Prop :=
  ∀ value context, best.held value = some (some context) → FoldedContext context

/-! ### Scores -/

private lemma integerCompare_neg {x y : ℕ} : integerCompare x y < 0 ↔ x < y := by
  unfold integerCompare
  split_ifs <;> simp <;> omega

private lemma integerCompare_pos {x y : ℕ} : 0 < integerCompare x y ↔ y < x := by
  unfold integerCompare
  split_ifs <;> simp <;> omega

private lemma compareTo_neg {a b : Score} : compareTo a b < 0 ↔ a < b := by
  rw [Score.lt_iff, compareTo]
  split_ifs <;> rw [integerCompare_neg] <;> omega

private lemma compareTo_pos {a b : Score} : 0 < compareTo a b ↔ b < a := by
  rw [Score.lt_iff, compareTo]
  split_ifs <;> rw [integerCompare_pos] <;> omega

private lemma compareTo_eq_zero {a b : Score} : compareTo a b = 0 ↔ a = b := by
  have hneg := compareTo_neg (a := a) (b := b)
  have hpos := compareTo_pos (a := a) (b := b)
  constructor
  · intro h
    rw [h] at hneg hpos
    exact le_antisymm (not_lt.mp fun hlt => lt_irrefl 0 (hpos.mpr hlt))
      (not_lt.mp fun hlt => lt_irrefl 0 (hneg.mpr hlt))
  · rintro rfl
    simp [compareTo, integerCompare]

/-! ### The best entries of one source -/

private lemma held_ofServer (best : Junjo.SourceBest) (value : Bool) :
    (SourceBest.ofServer best).held value = (best.held value).map Context.fromWire := by
  cases value <;> rfl

private lemma FoldedBest.replaces {best : Junjo.SourceBest} (h : FoldedBest best) (value : Bool)
    {context : Option PermissionContext} (hcontext : ∀ c, context = some c → FoldedContext c) :
    (((SourceBest.ofServer best).held value).all fun held =>
      decide ((Context.fromWire context).canonicalKey < held.canonicalKey))
        = best.replaces value context := by
  rw [held_ofServer, Junjo.SourceBest.replaces]
  cases hheld : best.held value with
  | none => rfl
  | some held =>
    have hfolded : ∀ c, held = some c → FoldedContext c := by
      rintro c rfl
      exact h value c hheld
    simp only [Option.map_some, Option.all_some, Context.canonicalKey_fromWire hcontext,
      Context.canonicalKey_fromWire hfolded]

private lemma FoldedBest.hold {best : Junjo.SourceBest} (h : FoldedBest best) (value : Bool)
    {context : Option PermissionContext} (hcontext : ∀ c, context = some c → FoldedContext c) :
    (SourceBest.ofServer best).hold value (Context.fromWire context)
        = SourceBest.ofServer (best.hold value context) ∧ FoldedBest (best.hold value context) := by
  constructor
  · unfold SourceBest.hold Junjo.SourceBest.hold
    rw [h.replaces value hcontext]
    cases best.replaces value context <;> cases value <;> rfl
  · intro value' c hheld
    by_cases hne : value' = value
    · subst hne
      rw [Junjo.SourceBest.held_hold_self] at hheld
      split_ifs at hheld
      · exact hcontext c (Option.some.inj hheld)
      · exact h value' c hheld
    · rw [Junjo.SourceBest.held_hold_ne _ hne] at hheld
      exact h value' c hheld

private lemma foldedBest_fresh (score : Score) : FoldedBest ⟨score, none, none⟩ := by
  intro value c h
  cases value <;> cases h

/-- A source best that may be absent, with folded contexts. -/
private def FoldedBest? (best : Option Junjo.SourceBest) : Prop :=
  ∀ b, best = some b → FoldedBest b

private lemma consider_ofServer {best : Option Junjo.SourceBest} (h : FoldedBest? best)
    (score : Score) (value : Bool) {context : Option PermissionContext}
    (hcontext : ∀ c, context = some c → FoldedContext c) :
    consider (best.map SourceBest.ofServer) score value (Context.fromWire context)
        = SourceBest.ofServer (Junjo.consider best score value context) ∧
      FoldedBest (Junjo.consider best score value context) := by
  have hfresh := (foldedBest_fresh score).hold value hcontext
  cases best with
  | none => exact hfresh
  | some best =>
    have hbest := h best rfl
    have hscore : (SourceBest.ofServer best).score = best.score := rfl
    simp only [Option.map_some, consider, Junjo.consider, compareTo_pos, compareTo_neg,
      compareScore_pos, compareScore_neg, hscore]
    split_ifs
    · exact ⟨rfl, hbest⟩
    · exact hfresh
    · exact hbest.hold value hcontext

/-! ### One source -/

/-- The SDK's chains read as the server's. -/
private def SameChains (chains chains' : Chains) : Prop := ∀ key, chains.get? key = chains'.get? key

private lemma SameChains.isEmpty {chains chains' : Chains} (h : SameChains chains chains') :
    (!chains.entries.isEmpty) = decide (0 < chains'.size) := by
  have hlen := (Dict.entries_perm_of_get?_eq h).length_eq
  rw [Bool.eq_iff_iff, decide_eq_true_eq, Dict.size, ← hlen]
  cases chains.entries <;> simp

private lemma pairDistance_congr {chains chains' : Chains} (h : SameChains chains chains')
    (p : Text × Text) : pairDistance chains p = pairDistance chains' p := by
  rw [pairDistance, pairDistance, h]

private lemma foldlM_score (chains : Chains) (l : List (Text × Text)) (acc : ℕ × ℕ) (rank : ℕ)
    (hfolded : ∀ p ∈ l, foldContextValue p.2 = p.2) :
    l.foldlM (fun (score : Score) e =>
        ((chains.get? e.1).bind fun chain => chain.get? e.2).map fun d =>
          { score with keys := score.keys + 1, distance := score.distance + d })
      ⟨acc.1, acc.2, rank⟩
      = (l.foldlM (fun (acc : ℕ × ℕ) p => (pairDistance chains p).map fun d =>
          (acc.1 + 1, acc.2 + d)) acc).map fun out => (⟨out.1, out.2, rank⟩ : Score) := by
  induction l generalizing acc with
  | nil => rfl
  | cons p l ih =>
    have hp : pairDistance chains p = (chains.get? p.1).bind fun chain => chain.get? p.2 := by
      rw [pairDistance, hfolded p List.mem_cons_self]
    rw [List.foldlM_cons, List.foldlM_cons, hp]
    cases (chains.get? p.1).bind fun chain => chain.get? p.2 with
    | none => rfl
    | some d => exact ih (acc.1 + 1, acc.2 + d) fun q hq => hfolded q (List.mem_cons_of_mem p hq)

private lemma contextScore_fromWire {chains chains' : Chains} (h : SameChains chains chains')
    {context : PermissionContext} (hfolded : FoldedContext context) (rank : ℕ) :
    contextScore (Context.fromWire (some context)) chains rank
      = (Junjo.contextScore context chains').map fun out => (⟨out.1, out.2, rank⟩ : Score) := by
  have hvalues : (Context.fromWire (some context)).values = context.sorted := by
    change (context.mapValues foldContextValue).sorted = _
    rw [hfolded]
  have hdistance : pairDistance chains = pairDistance chains' := by
    funext p
    exact pairDistance_congr h p
  rw [contextScore, foldlM_score chains _ (0, 0) rank fun p hp =>
    Dict.eq_of_mapValues_eq_self (Context.fromWire (some context)).folded hp, hvalues, hdistance,
    ← Junjo.contextScore_congr (Dict.get?_sorted context)]
  rfl

private lemma rankOf_eq {candidates : List Text} (hnodup : candidates.Nodup) (key : Text) :
    rankOf candidates key = (Junjo.rankOf candidates).get? key := by
  ext i
  rw [get?_rankOf hnodup, rankOf, List.findIdx?_eq_some_iff_getElem, List.getElem?_eq_some_iff]
  simp only [decide_eq_true_eq]
  constructor
  · rintro ⟨hi, hkey, -⟩
    exact ⟨hi, hkey⟩
  · rintro ⟨hi, hkey⟩
    refine ⟨hi, hkey, fun j hj hj' => ?_⟩
    exact hj.ne ((List.Nodup.getElem_inj_iff hnodup).mp (hj'.trans hkey.symm))

private lemma considerContextual_ofServer {candidates : List Text} (hnodup : candidates.Nodup)
    {chains chains' : Chains} (h : SameChains chains chains') {best : Option Junjo.SourceBest}
    (hbest : FoldedBest? best) {entry : ResolverContextEntry}
    (hentry : FoldedContext entry.context) :
    considerContextual candidates chains (best.map SourceBest.ofServer)
        (PermissionEntry.ofServer entry)
      = (Junjo.considerContextual candidates chains' best entry).map SourceBest.ofServer ∧
    FoldedBest? (Junjo.considerContextual candidates chains' best entry) := by
  have hcontext : ∀ c, some entry.context = some c → FoldedContext c := by
    rintro _ ⟨⟩
    exact hentry
  unfold considerContextual Junjo.considerContextual
  rw [rankOf_eq hnodup]
  simp only [PermissionEntry.ofServer]
  cases (Junjo.rankOf candidates).get? entry.permission with
  | none => exact ⟨rfl, hbest⟩
  | some rank =>
    simp only [contextScore_fromWire h hentry]
    cases Junjo.contextScore entry.context chains' with
    | none => exact ⟨rfl, hbest⟩
    | some out =>
      obtain ⟨hconsider, hfolded⟩ :=
        consider_ofServer hbest ⟨out.1, out.2, rank⟩ entry.value hcontext
      refine ⟨congrArg some hconsider, ?_⟩
      rintro b ⟨⟩
      exact hfolded

/-- The global entries of a source are considered as the server considers them. -/
lemma firstGlobal_ofServer (global : Dict Text Bool) (candidates : List Text) :
    (if global.entries.isEmpty then none
      else (firstGlobal global candidates).map fun (rank, value) =>
        consider none ⟨0, 0, rank⟩ value Context.global)
      = ((firstGlobal global candidates).map fun (rank, value) =>
          Junjo.consider none ⟨0, 0, rank⟩ value none).map SourceBest.ofServer ∧
    FoldedBest? ((firstGlobal global candidates).map fun (rank, value) =>
      Junjo.consider none ⟨0, 0, rank⟩ value none) := by
  have hglobal : ∀ c, (none : Option PermissionContext) = some c → FoldedContext c := by
    rintro _ ⟨⟩
  have hnone : FoldedBest? none := by
    rintro _ ⟨⟩
  constructor
  · by_cases hempty : global.entries = []
    · have hno : firstGlobal global candidates = none := by
        rw [firstGlobal, List.findSome?_eq_none_iff]
        intro p _
        simp [Dict.get?, hempty]
      simp [hempty, hno]
    · rw [if_neg (by simpa using hempty)]
      cases firstGlobal global candidates with
      | none => rfl
      | some p =>
        exact congrArg some (consider_ofServer hnone ⟨0, 0, p.1⟩ p.2 hglobal).1
  · intro b hb
    obtain ⟨⟨rank, value⟩, -, rfl⟩ := Option.map_eq_some_iff.mp hb
    exact (consider_ofServer hnone ⟨0, 0, rank⟩ value hglobal).2

/-- The best entries of a source are the server's. -/
lemma sourceBest_ofServer (global : Dict Text Bool) {contextual : List ResolverContextEntry}
    (hcontextual : FoldedEntries contextual) {candidates : List Text} (hnodup : candidates.Nodup)
    {chains chains' : Chains} (h : SameChains chains chains') :
    sourceBest global (contextual.map PermissionEntry.ofServer) candidates chains
      = (Junjo.sourceBest global contextual candidates chains').map SourceBest.ofServer ∧
    FoldedBest? (Junjo.sourceBest global contextual candidates chains') := by
  obtain ⟨hfirst, hfolded⟩ := firstGlobal_ofServer global candidates
  have hloop : ∀ (l : List ResolverContextEntry), FoldedEntries l → ∀ best, FoldedBest? best →
      (l.map PermissionEntry.ofServer).foldl (considerContextual candidates chains)
          (best.map SourceBest.ofServer)
        = (l.foldl (Junjo.considerContextual candidates chains') best).map SourceBest.ofServer ∧
      FoldedBest? (l.foldl (Junjo.considerContextual candidates chains') best) := by
    intro l
    induction l with
    | nil => exact fun _ best hbest => ⟨rfl, hbest⟩
    | cons entry l ih =>
      intro hl best hbest
      obtain ⟨hstep, hbest'⟩ := considerContextual_ofServer hnodup h hbest
        (hl entry List.mem_cons_self)
      simp only [List.map_cons, List.foldl_cons, hstep]
      exact ih (fun e he => hl e (List.mem_cons_of_mem entry he)) _ hbest'
  unfold sourceBest Junjo.sourceBest
  rw [hfirst, h.isEmpty]
  by_cases hsize : 0 < chains'.size
  · cases contextual with
    | nil => simpa [hsize] using hfolded
    | cons entry contextual =>
      simpa [hsize] using hloop _ hcontextual _ hfolded
  · simpa [hsize] using hfolded

/-! ### Reported contexts -/

/-- The SDK reads the context the server shows for an entry as the entry's own. -/
private lemma fromWire_shownContext (context : Option PermissionContext) :
    Context.fromWire (shownContext context) = Context.fromWire context := by
  cases context with
  | none => rfl
  | some c =>
    rw [shownContext]
    apply Context.ext_values
    split_ifs with hkeys
    · have hentries : c.entries = [] := by simpa [Dict.keys] using hkeys
      apply Dict.ext_entries
      simp [Context.fromWire, Context.global, Context.ofPairs, Dict.sorted, Dict.sortedEntries,
        Dict.keys, Dict.mapValues_entries, hentries]
    · refine Dict.sorted_eq_of_get?_eq fun k => ?_
      rw [Dict.get?_mapValues, Dict.get?_sorted, Dict.get?_mapValues, Option.map_map]
      simp [Function.comp_def]

private lemma ofServer_withContext (allowed : Bool) (source : PermissionSource)
    (viaRoleId : Option Text) (held : Option (Option PermissionContext)) :
    PermissionCheckResult.ofServer (withContext
        { allowed := allowed, source := source, viaRoleId := viaRoleId } held)
      = answer allowed source viaRoleId (held.map Context.fromWire) := by
  cases held with
  | none => rfl
  | some context =>
    rw [withContext_eq]
    simp only [PermissionCheckResult.ofServer, fromWire_shownContext]
    rfl

/-! ### Layers of roles -/

section Layer

variable {roles : Dict Text Junjo.ResolverRole} {candidates : List Text} {chains chains' : Chains}

/-- Roles whose entries are stored folded. -/
def FoldedRoles (roles : Dict Text Junjo.ResolverRole) : Prop :=
  ∀ id role, roles.get? id = some role → FoldedEntries role.contextEntries

/-- The hit of one role of a layer. -/
private def hitOf (roles : Dict Text Junjo.ResolverRole) (candidates : List Text)
    (chains : Chains) (id : Text) : Option LayerHit :=
  (roles.get? id).bind fun role =>
    (Junjo.sourceBest role.entries role.contextEntries candidates chains).map fun best =>
      ⟨id, role.priority, best⟩

private lemma layerHits_eq (layer : List Text) :
    layerHits roles candidates chains layer = layer.filterMap (hitOf roles candidates chains) := by
  unfold layerHits hitOf
  simp only [Option.bind_eq_bind, Option.pure_def, Option.map_eq_bind, Function.comp_def]

private lemma hitOf_eq_some {id : Text} {hit : LayerHit}
    (h : hitOf roles candidates chains id = some hit) :
    hit.id = id ∧ ∃ role, roles.get? id = some role ∧ role.priority = hit.priority := by
  obtain ⟨role, hrole, hbest⟩ := Option.bind_eq_some_iff.mp h
  obtain ⟨best, -, rfl⟩ := Option.map_eq_some_iff.mp hbest
  exact ⟨rfl, role, hrole, rfl⟩

/-- The bests of a layer, from the hits of its roles. -/
private def hitBests (roles : Dict Text Junjo.ResolverRole) (candidates : List Text)
    (chains : Chains) (layer : List Text) : List (Option SourceBest) :=
  layer.map fun id => (hitOf roles candidates chains id).map fun hit => SourceBest.ofServer hit.best

private lemma layerBests_eq (hroles : FoldedRoles roles) (hnodup : candidates.Nodup)
    (h : SameChains chains chains') (layer : List Text) :
    layerBests (roles.mapValues ResolverRole.ofServer) candidates chains layer
      = hitBests roles candidates chains' layer := by
  apply List.map_congr_left
  intro id _
  rw [Dict.get?_mapValues, hitOf]
  cases hrole : roles.get? id with
  | none => rfl
  | some role =>
    simp only [Option.map_some, Option.bind_some, Option.map_map]
    exact (sourceBest_ofServer role.entries (hroles id role hrole) hnodup h).1

private lemma topScore_eq (layer : List Text) :
    topScore (hitBests roles candidates chains layer)
      = Junjo.topScore (layerHits roles candidates chains layer) := by
  rw [topScore, hitBests, Junjo.topScore, layerHits_eq, List.foldl_map, List.foldl_filterMap]
  congr 1
  funext top id
  cases hitOf roles candidates chains id with
  | none => rfl
  | some hit =>
    cases top with
    | none => rfl
    | some score => simp only [Option.map_some, compareTo_neg, compareScore_neg]; rfl

private lemma outranks_eq {layer : List Text} {i j : ℕ} {hit hit' : LayerHit}
    (hi : (layer[i]?).bind (hitOf roles candidates chains) = some hit)
    (hj : (layer[j]?).bind (hitOf roles candidates chains) = some hit') :
    outranks layer (roles.mapValues ResolverRole.ofServer) i j = Junjo.outranks hit hit' := by
  obtain ⟨id, hid, hhit⟩ := Option.bind_eq_some_iff.mp hi
  obtain ⟨id', hid', hhit'⟩ := Option.bind_eq_some_iff.mp hj
  obtain ⟨rfl, role, hrole, hpriority⟩ := hitOf_eq_some hhit
  obtain ⟨rfl, role', hrole', hpriority'⟩ := hitOf_eq_some hhit'
  simp only [outranks, Junjo.outranks, hid, hid', Dict.get?_mapValues, hrole, hrole',
    Option.map_some, ResolverRole.ofServer, hpriority, hpriority']

/-- An index stands for the hit of the role at it. -/
private def StandsFor (roles : Dict Text Junjo.ResolverRole) (candidates : List Text)
    (chains : Chains) (layer : List Text) : Option ℕ → Option LayerHit → Prop
  | none, none => True
  | some i, some hit => (layer[i]?).bind (hitOf roles candidates chains) = some hit
  | _, _ => False

private lemma topHolder_standsFor (layer : List Text) (top : Score) (value : Bool) :
    StandsFor roles candidates chains layer
      (topHolder layer (roles.mapValues ResolverRole.ofServer)
        (hitBests roles candidates chains layer) top value)
      (Junjo.topHolder (layerHits roles candidates chains layer) top value) := by
  have hlayer : layer.zipIdx.map Prod.fst = layer := by simp
  rw [topHolder, hitBests, Junjo.topHolder, layerHits_eq, List.foldl_filterMap, List.zipIdx_map,
    List.foldl_map]
  conv in List.foldl _ none layer => rw [← hlayer, List.foldl_map]
  apply List.foldl_rel
  · trivial
  · rintro ⟨id, i⟩ hmem holder holder' hholder
    have hid : layer[i]? = some id := List.mem_zipIdx_iff_getElem?.mp hmem
    dsimp only [Prod.map_apply, id_eq]
    cases hhit : hitOf roles candidates chains id with
    | none => simpa using hholder
    | some hit =>
      have hi : (layer[i]?).bind (hitOf roles candidates chains) = some hit := by
        rw [hid, Option.bind_some, hhit]
      have hall : holder.all (outranks layer (roles.mapValues ResolverRole.ofServer) i ·)
          = holder'.all (Junjo.outranks hit ·) := by
        match holder, holder', hholder with
        | none, none, _ => rfl
        | some j, some hit', hj => exact outranks_eq hi hj
      have hzero : compareTo (SourceBest.ofServer hit.best).score top ≠ 0 ↔
          compareScore hit.best.score top ≠ 0 := by
        rw [Ne, Ne, compareTo_eq_zero, compareScore_eq_zero]
        rfl
      simp only [Option.map_some, hall, hzero, held_ofServer, Option.isSome_map]
      split_ifs
      · exact hholder
      · exact hi
      · exact hholder

/-- A layer answers as the server's. -/
private lemma layerAnswer_ofServer (hroles : FoldedRoles roles) (hnodup : candidates.Nodup)
    (h : SameChains chains chains') (layer : List Text) :
    layerAnswer (roles.mapValues ResolverRole.ofServer) candidates chains layer
      = (Junjo.layerAnswer roles candidates chains' layer).map PermissionCheckResult.ofServer := by
  have hheld : ∀ {i hit} (value : Bool),
      (layer[i]?).bind (hitOf roles candidates chains') = some hit →
      layer[i]? = some hit.id ∧ heldAt (hitBests roles candidates chains' layer) i value
        = (hit.best.held value).map Context.fromWire := by
    intro i hit value hi
    obtain ⟨id, hid, hhit⟩ := Option.bind_eq_some_iff.mp hi
    obtain ⟨rfl, -⟩ := hitOf_eq_some hhit
    simp [heldAt, hitBests, hid, hhit, held_ofServer]
  unfold layerAnswer Junjo.layerAnswer
  dsimp only [Option.bind_eq_bind]
  rw [layerBests_eq hroles hnodup h, topScore_eq]
  cases Junjo.topScore (layerHits roles candidates chains' layer) with
  | none => rfl
  | some top =>
    simp only [Option.bind_some]
    have hstands : ∀ value, StandsFor roles candidates chains' layer
        (topHolder layer (roles.mapValues ResolverRole.ofServer)
          (hitBests roles candidates chains' layer) top value)
        (Junjo.topHolder (layerHits roles candidates chains' layer) top value) :=
      fun value => topHolder_standsFor layer top value
    have hdenier := hstands false
    have hgranter := hstands true
    cases hd : topHolder layer (roles.mapValues ResolverRole.ofServer)
        (hitBests roles candidates chains' layer) top false with
    | some i =>
      cases hd' : Junjo.topHolder (layerHits roles candidates chains' layer) top false with
      | none => rw [hd, hd'] at hdenier; exact hdenier.elim
      | some denier =>
        rw [hd, hd'] at hdenier
        obtain ⟨hid, hheld⟩ := hheld false hdenier
        simp only [hid, hheld, Option.pure_def, Option.map_some, ofServer_withContext]
        rfl
    | none =>
      cases hd' : Junjo.topHolder (layerHits roles candidates chains' layer) top false with
      | some denier => rw [hd, hd'] at hdenier; exact hdenier.elim
      | none =>
        cases hg : topHolder layer (roles.mapValues ResolverRole.ofServer)
            (hitBests roles candidates chains' layer) top true with
        | none =>
          cases hg' : Junjo.topHolder (layerHits roles candidates chains' layer) top true with
          | none => rfl
          | some granter => rw [hg, hg'] at hgranter; exact hgranter.elim
        | some i =>
          cases hg' : Junjo.topHolder (layerHits roles candidates chains' layer) top true with
          | none => rw [hg, hg'] at hgranter; exact hgranter.elim
          | some granter =>
            rw [hg, hg'] at hgranter
            obtain ⟨hid, hheld⟩ := hheld true hgranter
            simp only [hid, hheld, Option.pure_def, Option.map_some, Option.bind_some,
              ofServer_withContext]
            rfl

end Layer

/-! ### The resolver -/

/-- An input whose contexts are folded, as the server stores them. -/
structure StoredInput (input : ResolverInput) : Prop where
  contextOverrides : FoldedEntries input.contextOverrides
  roles : FoldedRoles input.roles
  contexts : FoldedInheritance input.contexts

private lemma ownAnswer_ofServer (overrides : Dict Text Bool)
    {contextOverrides : List ResolverContextEntry} (hfolded : FoldedEntries contextOverrides)
    {candidates : List Text} (hnodup : candidates.Nodup) {chains chains' : Chains}
    (h : SameChains chains chains') :
    ownAnswer overrides (contextOverrides.map PermissionEntry.ofServer) candidates chains
      = (Junjo.ownAnswer overrides contextOverrides candidates chains').map
          PermissionCheckResult.ofServer := by
  rw [ownAnswer, (sourceBest_ofServer overrides hfolded hnodup h).1, Junjo.ownAnswer,
    Option.map_map, Option.map_map]
  congr 1
  funext own
  have hallowed : (SourceBest.ofServer own).deny.isNone = own.deny.isNone := by
    simp [SourceBest.ofServer]
  simp only [Function.comp_def, hallowed, ofServer_withContext]
  cases own.deny.isNone <;> rfl

/-- The SDK's resolver answers what the server's does. -/
theorem resolve_ofServer {input : ResolverInput} (hinput : StoredInput input) (permission : Text) :
    resolve input.mode input.overrides (input.contextOverrides.map PermissionEntry.ofServer)
        input.directRoleIds (input.roles.mapValues ResolverRole.ofServer) permission
        ((ContextInheritance.fromWire input.contexts).chains (Context.ofPairs input.context))
      = PermissionCheckResult.ofServer (resolveMemberPermission input permission) := by
  have hchains : SameChains
      ((ContextInheritance.fromWire input.contexts).chains (Context.ofPairs input.context))
      (contextChains input.context input.contexts) :=
    ContextInheritance.get?_chains_fromWire hinput.contexts input.context
  have hnodup := nodup_candidateKeys input.mode permission
  have hparents : liveParents (input.roles.mapValues ResolverRole.ofServer)
      = Junjo.liveParents input.roles := by
    funext id
    rw [liveParents, Junjo.liveParents, Dict.get?_mapValues]
    cases input.roles.get? id with
    | none => rfl
    | some role => simp [ResolverRole.ofServer, Dict.has, Dict.get?_mapValues]
  have hhas : ∀ id, (input.roles.mapValues ResolverRole.ofServer).has id = input.roles.has id := by
    intro id
    simp [Dict.has, Dict.get?_mapValues]
  rw [resolve, resolveMemberPermission, resolveWithin, candidates_eq]
  rw [ownAnswer_ofServer input.overrides hinput.contextOverrides hnodup hchains]
  cases Junjo.ownAnswer input.overrides input.contextOverrides
      (candidateKeys input.mode permission) (contextChains input.context input.contexts) with
  | some own => rfl
  | none =>
    simp only [hhas, hparents, Option.map_none]
    rw [searchLayers_map (layerAnswer_ofServer hinput.roles hnodup hchains), walkRoles]
    cases searchLayers (Junjo.liveParents input.roles)
        (Junjo.layerAnswer input.roles (candidateKeys input.mode permission)
          (contextChains input.context input.contexts)) (maxRoleDepth + 1) []
        (input.directRoleIds.eraseDups.filter fun id => input.roles.has id) with
    | none => rfl
    | some decided => rfl

end Junjo.Sdk
