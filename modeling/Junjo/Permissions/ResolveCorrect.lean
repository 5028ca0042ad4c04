import Junjo.Permissions.SourceBest

/-!
# The resolver answers by the precedence

The per-role aggregation and the layer walk of `resolveWithin` compute the one answer that the
precedence over all applicable entries allows.
-/

namespace Junjo

lemma Tied.layerDecides {depth : ℕ} {input : ResolverInput} {permission : Text} {layer : ℕ}
    {holder : Option Text} {value : Bool} {context : Option PermissionContext}
    (h : Tied depth input permission layer holder value context) :
    LayerDecides depth input permission layer := by
  obtain ⟨score, happlies, -⟩ := h
  exact ⟨holder, value, context, score, happlies⟩

/-! ### Aggregating a layer -/

/-- What orders tied roles: priority, then id. -/
def LayerHit.rankKey (hit : LayerHit) : ℤ ×ₗ Text := toLex (hit.priority, hit.id)

lemma outranks_iff {a b : LayerHit} : outranks a b = true ↔ b.rankKey < a.rankKey := by
  simp only [outranks, LayerHit.rankKey, Prod.Lex.toLex_lt_toLex]
  split_ifs with h
  · simp [Ne.symm h]
  · simp [not_not.mp h]

/-- The least score of the hits, when there are any. -/
private def IsTop (hits : List LayerHit) : Option Score → Prop
  | none => hits = []
  | some top => (∃ hit ∈ hits, hit.best.score = top) ∧ ∀ hit ∈ hits, top ≤ hit.best.score

private lemma isTop_topScore (hits : List LayerHit) : IsTop hits (topScore hits) := by
  apply foldl_invariant
  · rfl
  · intro hits hit top htop
    cases top with
    | none =>
      obtain rfl : hits = [] := htop
      simp [IsTop]
    | some top =>
      obtain ⟨⟨hit₀, hmem, hscore⟩, hmin⟩ := htop
      dsimp only
      split_ifs with hneg
      · rw [compareScore_neg] at hneg
        refine ⟨⟨hit, by simp, rfl⟩, fun hit' hhit' => ?_⟩
        rcases List.mem_append.mp hhit' with h | h
        · exact hneg.le.trans (hmin hit' h)
        · rw [List.mem_singleton.mp h]
      · rw [compareScore_neg, not_lt] at hneg
        refine ⟨⟨hit₀, by simp [hmem], hscore⟩, fun hit' hhit' => ?_⟩
        rcases List.mem_append.mp hhit' with h | h
        · exact hmin hit' h
        · rwa [List.mem_singleton.mp h]

/-- The hits that may report the value: they hold it at the best score. -/
private def Eligible (hits : List LayerHit) (top : Score) (value : Bool) (hit : LayerHit) : Prop :=
  hit ∈ hits ∧ hit.best.score = top ∧ (hit.best.held value).isSome = true

/-- The highest-ranking eligible hit, when there is one. -/
private def IsHolder (top : Score) (value : Bool) (hits : List LayerHit) :
    Option LayerHit → Prop
  | none => ∀ hit, ¬ Eligible hits top value hit
  | some holder => Eligible hits top value holder ∧
      ∀ hit, Eligible hits top value hit → hit.rankKey ≤ holder.rankKey

private lemma eligible_append {hits : List LayerHit} {top : Score} {value : Bool}
    {hit hit' : LayerHit} :
    Eligible (hits ++ [hit]) top value hit' ↔ Eligible hits top value hit' ∨
      hit' = hit ∧ hit.best.score = top ∧ (hit.best.held value).isSome = true := by
  simp only [Eligible, List.mem_append, List.mem_singleton]
  constructor
  · rintro ⟨h | rfl, hrest⟩
    · exact Or.inl ⟨h, hrest⟩
    · exact Or.inr ⟨rfl, hrest⟩
  · rintro (⟨h, hrest⟩ | ⟨rfl, hrest⟩)
    · exact ⟨Or.inl h, hrest⟩
    · exact ⟨Or.inr rfl, hrest⟩

/-- A hit that is not eligible itself changes nothing. -/
private lemma IsHolder.append_other {top : Score} {value : Bool} {hits : List LayerHit}
    {holder : Option LayerHit} (h : IsHolder top value hits holder) {hit : LayerHit}
    (hhit : ¬ (hit.best.score = top ∧ (hit.best.held value).isSome = true)) :
    IsHolder top value (hits ++ [hit]) holder := by
  have hsame : ∀ hit', Eligible (hits ++ [hit]) top value hit' ↔ Eligible hits top value hit' := by
    intro hit'
    rw [eligible_append, or_iff_left]
    exact fun h => hhit h.2
  cases holder with
  | none => exact fun hit' => (hsame hit').not.mpr (h hit')
  | some holder => exact ⟨(hsame holder).mpr h.1, fun hit' hel => h.2 hit' ((hsame hit').mp hel)⟩

private lemma isHolder_topHolder (hits : List LayerHit) (top : Score) (value : Bool) :
    IsHolder top value hits (topHolder hits top value) := by
  apply foldl_invariant
  · simp [IsHolder, Eligible]
  · intro hits hit holder hholder
    by_cases hscore : hit.best.score = top
    · rw [if_neg (not_not.mpr (compareScore_eq_zero.mpr hscore))]
      by_cases hheld : (hit.best.held value).isSome = true
      · have hnew : Eligible (hits ++ [hit]) top value hit :=
          eligible_append.mpr (Or.inr ⟨rfl, hscore, hheld⟩)
        cases holder with
        | none =>
          rw [if_pos (by simp [hheld])]
          refine ⟨hnew, fun hit' hhit' => ?_⟩
          rcases eligible_append.mp hhit' with h | ⟨rfl, -⟩
          · exact absurd h (hholder hit')
          · exact le_rfl
        | some holder =>
          obtain ⟨helig, hmax⟩ := hholder
          simp only [hheld, Option.all_some, Bool.true_and]
          split_ifs with hout
          · rw [outranks_iff] at hout
            refine ⟨hnew, fun hit' hhit' => ?_⟩
            rcases eligible_append.mp hhit' with h | ⟨rfl, -⟩
            · exact (hmax hit' h).trans hout.le
            · exact le_rfl
          · rw [outranks_iff, not_lt] at hout
            refine ⟨eligible_append.mpr (Or.inl helig), fun hit' hhit' => ?_⟩
            rcases eligible_append.mp hhit' with h | ⟨rfl, -⟩
            · exact hmax hit' h
            · exact hout
      · rw [if_neg (by simp [hheld])]
        exact hholder.append_other fun h => hheld h.2
    · rw [if_pos fun h => hscore (compareScore_eq_zero.mp h)]
      exact hholder.append_other fun h => hscore h.1

lemma mem_layerHits {roles : Dict Text ResolverRole} {candidates : List Text} {chains : Chains}
    {layer : List Text} {hit : LayerHit} :
    hit ∈ layerHits roles candidates chains layer ↔
      hit.id ∈ layer ∧ ∃ role, roles.get? hit.id = some role ∧ role.priority = hit.priority ∧
        sourceBest role.entries role.contextEntries candidates chains = some hit.best := by
  obtain ⟨id, priority, best⟩ := hit
  simp only [layerHits, List.mem_filterMap, Option.bind_eq_bind, Option.bind_eq_some_iff,
    Option.pure_def, Option.some.injEq, LayerHit.mk.injEq]
  constructor
  · rintro ⟨id', hid, role, hrole, best', hbest, rfl, rfl, rfl⟩
    exact ⟨hid, role, hrole, rfl, hbest⟩
  · rintro ⟨hid, role, hrole, rfl, hbest⟩
    exact ⟨id, hid, role, hrole, best, hbest, rfl, rfl, rfl⟩

lemma withContext_eq (allowed : Bool) (source : PermissionSource) (viaRoleId : Option Text)
    (context : Option PermissionContext) :
    withContext { allowed := allowed, source := source, viaRoleId := viaRoleId } (some context)
      = { allowed := allowed, source := source, viaRoleId := viaRoleId,
          context := shownContext context } := by
  cases context with
  | none => rfl
  | some context =>
    simp only [withContext, shownContext]
    split_ifs <;> rfl

/-! ### One layer of roles -/

/-- The hits of a layer, for the candidates and chains of a check. -/
private def checkHits (input : ResolverInput) (permission : Text) (layer : List Text) :
    List LayerHit :=
  layerHits input.roles (candidateKeys input.mode permission)
    (contextChains input.context input.contexts) layer

section Layer

variable {depth : ℕ} {input : ResolverInput} {permission : Text} {d : ℕ} {layer : List Text}

/-- A hit describes the applicable entries of its role. -/
private lemma describes_hit {hit : LayerHit} (h : hit ∈ checkHits input permission layer) :
    Describes (HolderApplies input permission (some hit.id)) (some hit.best) := by
  obtain ⟨-, role, hrole, -, hbest⟩ := mem_layerHits.mp h
  rw [← hbest]
  refine (describes_sourceBest (nodup_candidateKeys _ _)).congr fun v c s => ?_
  simp [HolderApplies, hrole]

/-- A role of the layer with an applicable entry is hit. -/
private lemma exists_hit {id : Text} {value : Bool} {context : Option PermissionContext}
    {score : Score} (hid : id ∈ layer)
    (h : HolderApplies input permission (some id) value context score) :
    ∃ hit ∈ checkHits input permission layer, hit.id = id := by
  obtain ⟨role, hrole, happlies⟩ := h
  have hdescribes : Describes _ (sourceBest role.entries role.contextEntries
      (candidateKeys input.mode permission) (contextChains input.context input.contexts)) :=
    describes_sourceBest (nodup_candidateKeys input.mode permission)
  cases hbest : sourceBest role.entries role.contextEntries (candidateKeys input.mode permission)
    (contextChains input.context input.contexts) with
  | none =>
    rw [hbest] at hdescribes
    exact absurd happlies (hdescribes value context score)
  | some best =>
    exact ⟨⟨id, role.priority, best⟩, mem_layerHits.mpr ⟨hid, role, hrole, rfl, hbest⟩, rfl⟩

/-- The layer lists the roles at a distance within the bound. -/
private def IsRoleLayer (depth : ℕ) (input : ResolverInput) (d : ℕ) (layer : List Text) : Prop :=
  d ≤ depth ∧ ∀ id, id ∈ layer ↔ AtDistance (InheritsFrom input.roles) (heldRoles input) d id

private lemma layerApplies_iff_hit (hlayer : IsRoleLayer depth input d layer)
    {holder : Option Text} {value : Bool} {context : Option PermissionContext} {score : Score} :
    LayerApplies depth input permission (d + 1) holder value context score ↔
      ∃ hit ∈ checkHits input permission layer, holder = some hit.id ∧
        HolderApplies input permission (some hit.id) value context score := by
  constructor
  · rintro ⟨⟨-, id, rfl, hdist⟩, happlies⟩
    obtain ⟨hit, hhit, rfl⟩ := exists_hit ((hlayer.2 id).mpr hdist) happlies
    exact ⟨hit, hhit, rfl, happlies⟩
  · rintro ⟨hit, hhit, rfl, happlies⟩
    have hid := (mem_layerHits.mp hhit).1
    exact ⟨⟨hlayer.1, hit.id, rfl, (hlayer.2 hit.id).mp hid⟩, happlies⟩

/-- The tied entries of the layer are those with the top score of the hits. -/
private lemma tied_iff_hit (hlayer : IsRoleLayer depth input d layer) {top : Score}
    (htop : IsTop (checkHits input permission layer) (some top)) {holder : Option Text}
    {value : Bool} {context : Option PermissionContext} :
    Tied depth input permission (d + 1) holder value context ↔
      ∃ hit ∈ checkHits input permission layer, holder = some hit.id ∧ hit.best.score = top ∧
        HolderApplies input permission (some hit.id) value context top := by
  obtain ⟨⟨hit₀, hmem₀, hscore₀⟩, hmin⟩ := htop
  have hleast : ∀ holder' value' context' score',
      LayerApplies depth input permission (d + 1) holder' value' context' score' →
      top ≤ score' := by
    intro holder' value' context' score' happlies
    obtain ⟨hit, hhit, -, h⟩ := (layerApplies_iff_hit hlayer).mp happlies
    exact (hmin hit hhit).trans ((describes_hit hhit).2.1 _ _ _ h)
  constructor
  · rintro ⟨score, happlies, hbest⟩
    obtain ⟨hit, hhit, rfl, h⟩ := (layerApplies_iff_hit hlayer).mp happlies
    obtain ⟨v₀, c₀, h₀⟩ := (describes_hit hmem₀).1
    have hle : score ≤ top := hscore₀ ▸
      hbest _ _ _ _ ((layerApplies_iff_hit hlayer).mpr ⟨hit₀, hmem₀, rfl, h₀⟩)
    obtain rfl : score = top := le_antisymm hle (hleast _ _ _ _ happlies)
    exact ⟨hit, hhit, rfl,
      le_antisymm ((describes_hit hhit).2.1 _ _ _ h) (hmin hit hhit), h⟩
  · rintro ⟨hit, hhit, rfl, -, h⟩
    exact ⟨top, (layerApplies_iff_hit hlayer).mpr ⟨hit, hhit, rfl, h⟩, hleast⟩

/-- The eligible hits are the roles with a tied entry of the value. -/
private lemma eligible_of_applies {top : Score} {hit : LayerHit} {value : Bool}
    {context : Option PermissionContext} (hhit : hit ∈ checkHits input permission layer)
    (hscore : hit.best.score = top)
    (h : HolderApplies input permission (some hit.id) value context top) :
    Eligible (checkHits input permission layer) top value hit := by
  refine ⟨hhit, hscore, ?_⟩
  have hheld := (describes_hit hhit).2.2 value
  rw [hscore] at hheld
  cases hval : hit.best.held value with
  | none =>
    rw [hval] at hheld
    exact absurd h (hheld context)
  | some _ => rfl

/-- What an eligible hit holds is a tied context with the smallest canonical key. -/
private lemma applies_of_eligible {top : Score} {hit : LayerHit} {value : Bool}
    (h : Eligible (checkHits input permission layer) top value hit) :
    ∃ context, hit.best.held value = some context ∧
      HolderApplies input permission (some hit.id) value context top ∧
      ∀ context', HolderApplies input permission (some hit.id) value context' top →
        canonicalContextKey context ≤ canonicalContextKey context' := by
  obtain ⟨hhit, rfl, hsome⟩ := h
  obtain ⟨context, hcontext⟩ := Option.isSome_iff_exists.mp hsome
  have hheld := (describes_hit hhit).2.2 value
  rw [hcontext] at hheld
  exact ⟨context, hcontext, hheld⟩

/-- The highest-ranking eligible hit reports the layer's answer. -/
private lemma isAnswer_of_holder (hlayer : IsRoleLayer depth input d layer) {top : Score}
    (htop : IsTop (checkHits input permission layer) (some top))
    (hearlier : ∀ earlier < d + 1, ¬ LayerDecides depth input permission earlier)
    {allowed : Bool} {holder : LayerHit}
    (hholder : IsHolder top allowed (checkHits input permission layer) (some holder))
    (hallowed : allowed = false ↔
      ∃ hit, Eligible (checkHits input permission layer) top false hit) :
    IsAnswer depth input permission
      (withContext { allowed := allowed, source := .role, viaRoleId := holder.id }
        (holder.best.held allowed)) := by
  obtain ⟨helig, hmax⟩ := hholder
  obtain ⟨context, hcontext, happlies, hleast⟩ := applies_of_eligible helig
  have htied : Tied depth input permission (d + 1) (some holder.id) allowed context :=
    (tied_iff_hit hlayer htop).mpr ⟨holder, helig.1, rfl, helig.2.1, happlies⟩
  have hdecides : LayerDecides depth input permission (d + 1) := by
    obtain ⟨score, h, -⟩ := htied
    exact ⟨_, _, _, score, h⟩
  rw [hcontext, withContext_eq]
  have hanswer := IsAnswer.decided hdecides hearlier ?_ htied ?_ ?_
  · simpa using hanswer
  · rw [hallowed]
    constructor
    · rintro ⟨hit, hhit⟩
      obtain ⟨c, -, hc, -⟩ := applies_of_eligible hhit
      exact ⟨_, c, (tied_iff_hit hlayer htop).mpr ⟨hit, hhit.1, rfl, hhit.2.1, hc⟩⟩
    · rintro ⟨holder', c, htied'⟩
      obtain ⟨hit, hhit, -, hscore, hc⟩ := (tied_iff_hit hlayer htop).mp htied'
      exact ⟨hit, eligible_of_applies hhit hscore hc⟩
  · rintro holder' c htied' id id' role role' ⟨⟩ rfl hrole hrole'
    obtain ⟨hit, hhit, hid, hscore, hc⟩ := (tied_iff_hit hlayer htop).mp htied'
    cases hid
    have hrank := hmax hit (eligible_of_applies hhit hscore hc)
    obtain ⟨-, r, hr, hprio, -⟩ := mem_layerHits.mp helig.1
    obtain ⟨-, r', hr', hprio', -⟩ := mem_layerHits.mp hhit
    rw [hrole] at hr
    rw [hrole'] at hr'
    cases hr
    cases hr'
    rw [hprio, hprio']
    simpa [LayerHit.rankKey, Prod.Lex.toLex_le_toLex] using hrank
  · intro c htied'
    obtain ⟨hit, -, hid, -, hc⟩ := (tied_iff_hit hlayer htop).mp htied'
    rw [← Option.some.inj hid] at hc
    exact hleast c hc

private lemma layerAnswer_eq_none (hlayer : IsRoleLayer depth input d layer)
    (h : layerAnswer input.roles (candidateKeys input.mode permission)
      (contextChains input.context input.contexts) layer = none) :
    ¬ LayerDecides depth input permission (d + 1) := by
  rintro ⟨holder, value, context, score, happlies⟩
  obtain ⟨hit, hhit, -, hc⟩ := (layerApplies_iff_hit hlayer).mp happlies
  have htop := isTop_topScore (checkHits input permission layer)
  unfold layerAnswer at h
  rw [← checkHits] at h
  change (topScore (checkHits input permission layer)).bind _ = none at h
  cases hscore : topScore (checkHits input permission layer) with
  | none =>
    rw [hscore] at htop
    rw [show checkHits input permission layer = [] from htop] at hhit
    cases hhit
  | some top =>
    rw [hscore] at htop h
    obtain ⟨⟨hit₀, hmem₀, hscore₀⟩, -⟩ := htop
    obtain ⟨v₀, c₀, h₀⟩ := (describes_hit hmem₀).1
    rw [hscore₀] at h₀
    have helig := eligible_of_applies hmem₀ hscore₀ h₀
    have hdeny := isHolder_topHolder (checkHits input permission layer) top false
    have hgrant := isHolder_topHolder (checkHits input permission layer) top true
    rw [Option.bind_some] at h
    cases hd : topHolder (checkHits input permission layer) top false with
    | some denier => rw [hd] at h; cases h
    | none =>
      rw [hd] at h hdeny
      cases hg : topHolder (checkHits input permission layer) top true with
      | some granter => rw [hg] at h; cases h
      | none =>
        rw [hg] at hgrant
        cases v₀ with
        | false => exact hdeny hit₀ helig
        | true => exact hgrant hit₀ helig

private lemma isAnswer_layerAnswer (hlayer : IsRoleLayer depth input d layer)
    (hearlier : ∀ earlier < d + 1, ¬ LayerDecides depth input permission earlier)
    {result : PermissionCheckResult}
    (h : layerAnswer input.roles (candidateKeys input.mode permission)
      (contextChains input.context input.contexts) layer = some result) :
    IsAnswer depth input permission result := by
  have htop := isTop_topScore (checkHits input permission layer)
  unfold layerAnswer at h
  rw [← checkHits] at h
  change (topScore (checkHits input permission layer)).bind _ = some result at h
  cases hscore : topScore (checkHits input permission layer) with
  | none => rw [hscore] at h; cases h
  | some top =>
    rw [hscore] at htop h
    have hdeny := isHolder_topHolder (checkHits input permission layer) top false
    have hgrant := isHolder_topHolder (checkHits input permission layer) top true
    rw [Option.bind_some] at h
    cases hd : topHolder (checkHits input permission layer) top false with
    | some denier =>
      rw [hd] at h hdeny
      cases h
      exact isAnswer_of_holder hlayer htop hearlier hdeny (by simpa using ⟨denier, hdeny.1⟩)
    | none =>
      rw [hd] at h hdeny
      cases hg : topHolder (checkHits input permission layer) top true with
      | none => rw [hg] at h; cases h
      | some granter =>
        rw [hg] at h hgrant
        cases h
        exact isAnswer_of_holder hlayer htop hearlier hgrant
          (by simp only [Bool.true_eq_false, false_iff, not_exists]; exact hdeny)

end Layer

/-! ### The overrides -/

private lemma inLayer_zero {depth : ℕ} {input : ResolverInput} {holder : Option Text} :
    InLayer depth input 0 holder ↔ holder = none := Iff.rfl

/-- The overrides decide layer `0` exactly when they answer, and then answer by the precedence. -/
private lemma ownAnswer_spec (depth : ℕ) (input : ResolverInput) (permission : Text) :
    match ownAnswer input.overrides input.contextOverrides (candidateKeys input.mode permission)
      (contextChains input.context input.contexts) with
    | none => ¬ LayerDecides depth input permission 0
    | some result => IsAnswer depth input permission result := by
  have hdescribes : Describes (HolderApplies input permission none)
      (sourceBest input.overrides input.contextOverrides (candidateKeys input.mode permission)
        (contextChains input.context input.contexts)) :=
    describes_sourceBest (nodup_candidateKeys _ _)
  unfold ownAnswer
  cases hbest : sourceBest input.overrides input.contextOverrides
      (candidateKeys input.mode permission) (contextChains input.context input.contexts) with
  | none =>
    rw [hbest] at hdescribes
    rintro ⟨holder, value, context, score, rfl, happlies⟩
    exact hdescribes value context score happlies
  | some own =>
    rw [hbest] at hdescribes
    obtain ⟨⟨v₀, c₀, h₀⟩, hleast, hheld⟩ := hdescribes
    have htied : ∀ holder value context, Tied depth input permission 0 holder value context ↔
        holder = none ∧ HolderApplies input permission none value context own.score := by
      intro holder value context
      constructor
      · rintro ⟨score, ⟨rfl, happlies⟩, hmin⟩
        have hle := hmin none v₀ c₀ own.score ⟨rfl, h₀⟩
        obtain rfl := le_antisymm hle (hleast _ _ _ happlies)
        exact ⟨rfl, happlies⟩
      · rintro ⟨rfl, happlies⟩
        refine ⟨own.score, ⟨rfl, happlies⟩, ?_⟩
        rintro holder' value' context' score' ⟨rfl, happlies'⟩
        exact hleast _ _ _ happlies'
    have hdeny := hheld false
    have hgrant := hheld true
    -- the value answered is held, and it is deny exactly when a tied override denies
    have hvalue : ∃ context, own.held own.deny.isNone = some context ∧
        HolderApplies input permission none own.deny.isNone context own.score ∧
        (∀ context', HolderApplies input permission none own.deny.isNone context' own.score →
          canonicalContextKey context ≤ canonicalContextKey context') ∧
        (own.deny.isNone = false ↔
          ∃ context', HolderApplies input permission none false context' own.score) := by
      cases hd : own.deny with
      | some context =>
        rw [show own.held false = some context from hd] at hdeny
        exact ⟨context, hd, hdeny.1, hdeny.2, iff_of_true rfl ⟨context, hdeny.1⟩⟩
      | none =>
        rw [show own.held false = none from hd] at hdeny
        cases hg : own.grant with
        | none =>
          rw [show own.held true = none from hg] at hgrant
          cases v₀ with
          | false => exact absurd h₀ (hdeny c₀)
          | true => exact absurd h₀ (hgrant c₀)
        | some context =>
          rw [show own.held true = some context from hg] at hgrant
          refine ⟨context, hg, hgrant.1, hgrant.2, iff_of_false (by simp) ?_⟩
          rintro ⟨context', h⟩
          exact hdeny context' h
    obtain ⟨context, hcontext, happlies, hsmallest, hallowed⟩ := hvalue
    have htied₀ : Tied depth input permission 0 none own.deny.isNone context :=
      (htied none _ context).mpr ⟨rfl, happlies⟩
    have hanswer := IsAnswer.decided htied₀.layerDecides (by simp) ?_
      htied₀ ?_ ?_
    · simp only [Option.map_some, hcontext, withContext_eq]
      simpa using hanswer
    · simp [htied, hallowed]
    · rintro holder' context' - id id' role role' ⟨⟩
    · intro context' h
      exact hsmallest context' ((htied none _ context').mp h).2

/-! ### The walk -/

private lemma mem_liveParents {roles : Dict Text ResolverRole} {id parent : Text} :
    parent ∈ liveParents roles id ↔ InheritsFrom roles id parent := by
  unfold liveParents InheritsFrom
  cases roles.get? id with
  | none => simp
  | some role => simp [Dict.has_iff]

/-- The layers of the walk are the layers of the precedence. -/
private lemma isRoleLayer_layerAt {depth : ℕ} {input : ResolverInput} {d : ℕ} (hd : d ≤ depth) :
    IsRoleLayer depth input d (layerAt (liveParents input.roles)
      (input.directRoleIds.eraseDups.filter fun id => input.roles.has id) d) := by
  have hstart : {id | id ∈ input.directRoleIds.eraseDups.filter fun id => input.roles.has id}
      = heldRoles input := by
    ext id
    simp [heldRoles, Dict.has_iff]
  refine ⟨hd, fun id => ?_⟩
  rw [mem_layerAt fun _ _ => mem_liveParents, hstart]

private lemma layerAnswer_nil (roles : Dict Text ResolverRole) (candidates : List Text)
    (chains : Chains) : layerAnswer roles candidates chains [] = none := rfl

/-- The resolver computes an answer of the precedence. -/
theorem resolveWithin_isAnswer (depth : ℕ) (input : ResolverInput) (permission : Text) :
    IsAnswer depth input permission (resolveWithin depth input permission) := by
  have hown := ownAnswer_spec depth input permission
  unfold resolveWithin
  dsimp only
  cases ho : ownAnswer input.overrides input.contextOverrides
      (candidateKeys input.mode permission) (contextChains input.context input.contexts) with
  | some own =>
    rw [ho] at hown
    exact hown
  | none =>
    rw [ho] at hown
    have hundecided : ∀ n, (∀ d < n, d ≤ depth → layerAnswer input.roles
        (candidateKeys input.mode permission) (contextChains input.context input.contexts)
        (layerAt (liveParents input.roles)
          (input.directRoleIds.eraseDups.filter fun id => input.roles.has id) d) = none) →
        ∀ earlier < n + 1, ¬ LayerDecides depth input permission earlier := by
      intro n hn earlier hearlier
      cases earlier with
      | zero => exact hown
      | succ d =>
        by_cases hd : d ≤ depth
        · exact layerAnswer_eq_none (isRoleLayer_layerAt hd) (hn d (by omega) hd)
        · rintro ⟨_, _, _, _, ⟨hle, _⟩, _⟩
          exact hd hle
    rw [walkRoles, searchLayers_eq_findSome? (layerAnswer_nil _ _ _)]
    cases hwalk : (List.range (depth + 1)).findSome? fun n => layerAnswer input.roles
        (candidateKeys input.mode permission) (contextChains input.context input.contexts)
        (layerAt (liveParents input.roles)
          (input.directRoleIds.eraseDups.filter fun id => input.roles.has id) n) with
    | none =>
      rw [List.findSome?_eq_none_iff] at hwalk
      refine IsAnswer.default fun layer => ?_
      exact hundecided layer (fun d _ hd => hwalk d (by simpa using Nat.lt_succ_of_le hd)) layer
        (by omega)
    | some result =>
      obtain ⟨d, hd, hresult, hnone⟩ := findSome?_range_eq_some_iff.mp hwalk
      have hle : d ≤ depth := Nat.lt_succ_iff.mp hd
      exact isAnswer_layerAnswer (isRoleLayer_layerAt hle)
        (hundecided d fun e he _ => hnone e he) hresult

/-! ### One answer -/

/-- Contexts with one canonical key are shown alike. -/
lemma shownContext_eq_of_canonicalContextKey_eq {context context' : Option PermissionContext}
    (h : canonicalContextKey context = canonicalContextKey context') :
    shownContext context = shownContext context' := by
  have hglobal : ∀ {c : PermissionContext}, canonicalContextKey (some c) = [] →
      shownContext (some c) = none := by
    intro c hc
    simp [shownContext, canonicalContextKey_eq_nil.mp hc]
  match context, context' with
  | none, none => rfl
  | none, some c' => exact (hglobal h.symm).symm
  | some c, none => exact hglobal h
  | some c, some c' =>
    have hget := get?_eq_of_canonicalContextKey_eq h
    have hkeys : c.keys = [] ↔ c'.keys = [] := by
      rw [← canonicalContextKey_eq_nil, h, canonicalContextKey_eq_nil]
    have hsorted : (c.mapValues foldContextValue).sorted = (c'.mapValues foldContextValue).sorted :=
      Dict.sorted_eq_of_get?_eq fun k => by simp only [Dict.get?_mapValues, hget]
    simp only [shownContext, hkeys, hsorted]

/-- Two tied holders that rank over each other are one. -/
private lemma holder_unique {depth : ℕ} {input : ResolverInput} {permission : Text} {layer : ℕ}
    {holder holder' : Option Text} {value : Bool} {context context' : Option PermissionContext}
    (h : Tied depth input permission layer holder value context)
    (h' : Tied depth input permission layer holder' value context')
    (hover : RanksOver input.roles holder holder')
    (hover' : RanksOver input.roles holder' holder) : holder = holder' := by
  obtain ⟨_, ⟨hin, happlies⟩, -⟩ := h
  obtain ⟨_, ⟨hin', happlies'⟩, -⟩ := h'
  cases layer with
  | zero => rw [inLayer_zero.mp hin, inLayer_zero.mp hin']
  | succ d =>
    obtain ⟨-, id, rfl, -⟩ := hin
    obtain ⟨-, id', rfl, -⟩ := hin'
    obtain ⟨role, hrole, -⟩ := happlies
    obtain ⟨role', hrole', -⟩ := happlies'
    have h₁ := hover id id' role role' rfl rfl hrole hrole'
    have h₂ := hover' id' id role' role rfl rfl hrole' hrole
    rcases h₁ with hlt | ⟨heq, hle⟩
    · rcases h₂ with hlt' | ⟨heq', -⟩ <;> omega
    · rcases h₂ with hlt' | ⟨-, hle'⟩
      · omega
      · rw [le_antisymm hle' hle]

/-- The precedence allows at most one answer. -/
theorem IsAnswer.unique {depth : ℕ} {input : ResolverInput} {permission : Text}
    {result result' : PermissionCheckResult} (h : IsAnswer depth input permission result)
    (h' : IsAnswer depth input permission result') : result = result' := by
  cases h with
  | default hnone =>
    cases h' with
    | default => rfl
    | decided hdecides => exact absurd hdecides (hnone _)
  | @decided layer holder allowed context hdecides hfirst hallowed htied hover hsmallest =>
    cases h' with
    | default hnone => exact absurd hdecides (hnone _)
    | @decided layer' holder' allowed' context' hdecides' hfirst' hallowed' htied' hover'
        hsmallest' =>
      obtain rfl : layer = layer' := le_antisymm
        (not_lt.mp fun hlt => hfirst _ hlt hdecides')
        (not_lt.mp fun hlt => hfirst' _ hlt hdecides)
      obtain rfl : allowed = allowed' := by
        rw [Bool.eq_iff_iff, ← not_iff_not, Bool.not_eq_true, Bool.not_eq_true, hallowed, hallowed']
      obtain rfl : holder = holder' :=
        holder_unique htied htied' (hover _ _ htied') (hover' _ _ htied)
      have hkey := le_antisymm (hsmallest _ htied') (hsmallest' _ htied)
      rw [shownContext_eq_of_canonicalContextKey_eq hkey]

/-! ### The resolver and the precedence -/

lemma resolveMemberPermission_isAnswer (input : ResolverInput) (permission : Text) :
    IsAnswer maxRoleDepth input permission (resolveMemberPermission input permission) :=
  resolveWithin_isAnswer maxRoleDepth input permission

/-- The resolver answers exactly by the precedence. -/
theorem resolveMemberPermission_eq_iff (input : ResolverInput) (permission : Text)
    (result : PermissionCheckResult) :
    resolveMemberPermission input permission = result ↔
      IsAnswer maxRoleDepth input permission result := by
  constructor
  · rintro rfl
    exact resolveMemberPermission_isAnswer input permission
  · intro h
    exact (resolveMemberPermission_isAnswer input permission).unique h

end Junjo
