import Junjo.Permissions.ResolveCorrect

/-!
# Inputs with the same applicable entries

The answer only depends on the applicable entries of the layers up to the deciding one. It does
not depend on the order of rows, keys or ids, and entries that cannot apply can be left out.
-/

namespace Junjo

/-- Every applicable entry of the first input's layer is one of the second's, up to the order of
the keys of its context. -/
def LayerWithin (depth : ℕ) (input : ResolverInput) (depth' : ℕ) (input' : ResolverInput)
    (permission : Text) (layer : ℕ) : Prop :=
  ∀ holder value context score, LayerApplies depth input permission layer holder value context score →
    ∃ context', canonicalContextKey context' = canonicalContextKey context ∧
      LayerApplies depth' input' permission layer holder value context' score

/-- The layer has the same applicable entries in both inputs. -/
def SameLayer (depth : ℕ) (input : ResolverInput) (depth' : ℕ) (input' : ResolverInput)
    (permission : Text) (layer : ℕ) : Prop :=
  LayerWithin depth input depth' input' permission layer ∧
    LayerWithin depth' input' depth input permission layer

/-- Roles of both inputs have the same priority. -/
def SamePriorities (roles roles' : Dict Text ResolverRole) : Prop :=
  ∀ id role role', roles.get? id = some role → roles'.get? id = some role' →
    role.priority = role'.priority

/-- Layers only depend on who holds which role and which role inherits from which. -/
lemma inLayer_congr {input input' : ResolverInput} (hheld : heldRoles input = heldRoles input')
    (hfrom : InheritsFrom input.roles = InheritsFrom input'.roles) (depth layer : ℕ)
    (holder : Option Text) : InLayer depth input layer holder ↔ InLayer depth input' layer holder := by
  cases layer with
  | zero => exact Iff.rfl
  | succ d => rw [InLayer, InLayer, hheld, hfrom]

section Transfer

variable {depth depth' : ℕ} {input input' : ResolverInput} {permission : Text} {layer : ℕ}

lemma SameLayer.symm (h : SameLayer depth input depth' input' permission layer) :
    SameLayer depth' input' depth input permission layer := And.symm h

lemma LayerWithin.layerDecides (h : LayerWithin depth input depth' input' permission layer)
    (hdecides : LayerDecides depth input permission layer) :
    LayerDecides depth' input' permission layer := by
  obtain ⟨holder, value, context, score, happlies⟩ := hdecides
  obtain ⟨context', -, happlies'⟩ := h holder value context score happlies
  exact ⟨holder, value, context', score, happlies'⟩

lemma SameLayer.tied (h : SameLayer depth input depth' input' permission layer)
    {holder : Option Text} {value : Bool} {context : Option PermissionContext}
    (htied : Tied depth input permission layer holder value context) :
    ∃ context', canonicalContextKey context' = canonicalContextKey context ∧
      Tied depth' input' permission layer holder value context' := by
  obtain ⟨score, happlies, hbest⟩ := htied
  obtain ⟨context', hkey, happlies'⟩ := h.1 holder value context score happlies
  refine ⟨context', hkey, score, happlies', ?_⟩
  intro holder₂ value₂ context₂ score₂ happlies₂
  obtain ⟨context₁, -, happlies₁⟩ := h.2 holder₂ value₂ context₂ score₂ happlies₂
  exact hbest holder₂ value₂ context₁ score₂ happlies₁

/-- A role with a tied entry is loaded. -/
private lemma Tied.get?_role {id : Text} {value : Bool} {context : Option PermissionContext}
    (h : Tied depth input permission layer (some id) value context) :
    ∃ role, input.roles.get? id = some role := by
  obtain ⟨-, ⟨-, role, hrole, -⟩, -⟩ := h
  exact ⟨role, hrole⟩

private lemma RanksOver.transfer {holder holder' : Option Text} {value : Bool}
    {context context' : Option PermissionContext}
    (hpriorities : SamePriorities input.roles input'.roles)
    (h : RanksOver input.roles holder holder')
    (htied : Tied depth input permission layer holder value context)
    (htied' : Tied depth input permission layer holder' value context') :
    RanksOver input'.roles holder holder' := by
  rintro id id' role role' rfl rfl hrole hrole'
  obtain ⟨r, hr⟩ := htied.get?_role
  obtain ⟨r', hr'⟩ := htied'.get?_role
  rw [← hpriorities id r role hr hrole, ← hpriorities id' r' role' hr' hrole']
  exact h id id' r r' rfl rfl hr hr'

/-- Inputs whose layers have the same applicable entries, up to the first layer with any, have
the same answer. -/
theorem IsAnswer.transfer {result : PermissionCheckResult}
    (h : IsAnswer depth input permission result)
    (hpriorities : SamePriorities input.roles input'.roles)
    (hlayers : ∀ layer, (∀ earlier < layer, ¬ LayerDecides depth input permission earlier) →
      SameLayer depth input depth' input' permission layer) :
    IsAnswer depth' input' permission result := by
  cases h with
  | default hnone =>
    refine IsAnswer.default fun layer hdecides => ?_
    exact hnone layer ((hlayers layer fun earlier _ => hnone earlier).2.layerDecides hdecides)
  | @decided layer holder allowed context hdecides hfirst hallowed htied hover hsmallest =>
    have hsame := hlayers layer hfirst
    obtain ⟨context', hkey, htied'⟩ := hsame.tied htied
    rw [← shownContext_eq_of_canonicalContextKey_eq hkey]
    refine IsAnswer.decided (hsame.1.layerDecides hdecides) ?_ ?_ htied' ?_ ?_
    · intro earlier hearlier hdecides'
      refine hfirst earlier hearlier ((hlayers earlier ?_).2.layerDecides hdecides')
      exact fun e he => hfirst e (he.trans hearlier)
    · rw [hallowed]
      constructor
      · rintro ⟨holder₁, context₁, htied₁⟩
        obtain ⟨context₂, -, htied₂⟩ := hsame.tied htied₁
        exact ⟨holder₁, context₂, htied₂⟩
      · rintro ⟨holder₁, context₁, htied₁⟩
        obtain ⟨context₂, -, htied₂⟩ := hsame.symm.tied htied₁
        exact ⟨holder₁, context₂, htied₂⟩
    · intro holder₁ context₁ htied₁
      obtain ⟨context₂, -, htied₂⟩ := hsame.symm.tied htied₁
      exact (hover holder₁ context₂ htied₂).transfer hpriorities htied htied₂
    · intro context₁ htied₁
      obtain ⟨context₂, hkey₂, htied₂⟩ := hsame.symm.tied htied₁
      rw [hkey, ← hkey₂]
      exact hsmallest context₂ htied₂

/-- More applicable entries of the answer's value keep the value, in the deciding layer as in an
earlier one. -/
theorem IsAnswer.allowed_of_added {result result' : PermissionCheckResult}
    (h : IsAnswer depth input permission result) (h' : IsAnswer depth' input' permission result')
    (hdecided : result.source ≠ .default)
    (hmore : ∀ layer holder value context score,
      LayerApplies depth input permission layer holder value context score →
      LayerApplies depth' input' permission layer holder value context score)
    (hadded : ∀ layer, (∀ earlier < layer, ¬ LayerDecides depth input permission earlier) →
      ∀ holder value context score,
        LayerApplies depth' input' permission layer holder value context score →
        LayerApplies depth input permission layer holder value context score ∨
          value = result.allowed) :
    result'.allowed = result.allowed := by
  cases h with
  | default => exact absurd rfl hdecided
  | @decided layer holder allowed context hdecides hfirst hallowed htied =>
    have hdecides' : LayerDecides depth' input' permission layer := by
      obtain ⟨holder₁, value₁, context₁, score₁, happlies⟩ := hdecides
      exact ⟨holder₁, value₁, context₁, score₁, hmore _ _ _ _ _ happlies⟩
    cases h' with
    | default hnone => exact absurd hdecides' (hnone layer)
    | @decided layer' holder' allowed' context' _ hfirst' hallowed' htied' =>
      have hle : layer' ≤ layer := not_lt.mp fun hlt => hfirst' layer hlt hdecides'
      obtain ⟨score', happlies', hbest'⟩ := htied'
      have hearlier : ∀ earlier < layer', ¬ LayerDecides depth input permission earlier :=
        fun earlier he => hfirst earlier (lt_of_lt_of_le he hle)
      rcases hadded layer' hearlier holder' allowed' context' score' happlies' with hold | hvalue
      · -- The deciding entry is an old one: it is tied among the old ones too.
        obtain rfl : layer' = layer := by
          by_contra hne
          exact hfirst layer' (lt_of_le_of_ne hle hne) ⟨holder', allowed', context', score', hold⟩
        have htiedOld : Tied depth input permission layer' holder' allowed' context' :=
          ⟨score', hold, fun h₁ v₁ c₁ s₁ happlies₁ => hbest' h₁ v₁ c₁ s₁ (hmore _ _ _ _ _ happlies₁)⟩
        cases allowed' with
        | false => exact (hallowed.mpr ⟨holder', context', htiedOld⟩).symm
        | true =>
          cases allowed with
          | true => rfl
          | false =>
            obtain ⟨score, happlies, hbest⟩ := htied
            have hscore : score = score' :=
              le_antisymm (hbest _ _ _ _ hold) (hbest' _ _ _ _ (hmore _ _ _ _ _ happlies))
            have hdeny : (true : Bool) = false := hallowed'.mpr
              ⟨holder, context, score', hmore _ _ _ _ _ (hscore ▸ happlies), hbest'⟩
            exact hdeny
      · exact hvalue

end Transfer

/-! ### Inputs with the same rows -/

/-- The same dictionary up to the order of its keys. -/
def SameKeys (c c' : PermissionContext) : Prop := ∀ key, c.get? key = c'.get? key

/-- One row written in two orders. -/
structure ResolverContextEntry.SameRow (entry entry' : ResolverContextEntry) : Prop where
  permission : entry.permission = entry'.permission
  value : entry.value = entry'.value
  context : SameKeys entry.context entry'.context

/-- Every row of the first list stands in the second. -/
def RowsWithin (rows rows' : List ResolverContextEntry) : Prop :=
  ∀ row ∈ rows, ∃ row' ∈ rows', row.SameRow row'

/-- Two roles with the same rows and parents. -/
structure ResolverRole.SameRole (role role' : ResolverRole) : Prop where
  priority : role.priority = role'.priority
  entries : ∀ key, role.entries.get? key = role'.entries.get? key
  within : RowsWithin role.contextEntries role'.contextEntries
  covers : RowsWithin role'.contextEntries role.contextEntries
  parents : ∀ id, id ∈ role.parents ↔ id ∈ role'.parents

/-- Two inheritance tables in which every value inherits from the same values. -/
def SameInheritance (contexts contexts' : ContextInheritance) : Prop :=
  ∀ key v w, InheritsValue contexts key v w ↔ InheritsValue contexts' key v w

/-- Two inputs that list the same rows, keys and ids. -/
structure ResolverInput.SameRows (input input' : ResolverInput) : Prop where
  mode : input.mode = input'.mode
  overrides : ∀ key, input.overrides.get? key = input'.overrides.get? key
  within : RowsWithin input.contextOverrides input'.contextOverrides
  covers : RowsWithin input'.contextOverrides input.contextOverrides
  directRoleIds : ∀ id, id ∈ input.directRoleIds ↔ id ∈ input'.directRoleIds
  keys : ∀ id, id ∈ input.roles.keys ↔ id ∈ input'.roles.keys
  roles : ∀ id role role', input.roles.get? id = some role → input'.roles.get? id = some role' →
    role.SameRole role'
  context : SameKeys input.context input'.context
  contexts : SameInheritance input.contexts input'.contexts

section SameRows

lemma SameKeys.symm {c c' : PermissionContext} (h : SameKeys c c') : SameKeys c' c :=
  fun key => (h key).symm

lemma ResolverContextEntry.SameRow.symm {entry entry' : ResolverContextEntry}
    (h : entry.SameRow entry') : entry'.SameRow entry :=
  ⟨h.permission.symm, h.value.symm, h.context.symm⟩

lemma ResolverRole.SameRole.symm {role role' : ResolverRole} (h : role.SameRole role') :
    role'.SameRole role :=
  ⟨h.priority.symm, fun key => (h.entries key).symm, h.covers, h.within,
    fun id => (h.parents id).symm⟩

lemma RowsWithin.refl (rows : List ResolverContextEntry) : RowsWithin rows rows :=
  fun row hrow => ⟨row, hrow, rfl, rfl, fun _ => rfl⟩

lemma ResolverRole.SameRole.refl (role : ResolverRole) : role.SameRole role :=
  ⟨rfl, fun _ => rfl, RowsWithin.refl _, RowsWithin.refl _, fun _ => Iff.rfl⟩

lemma SameInheritance.symm {contexts contexts' : ContextInheritance}
    (h : SameInheritance contexts contexts') : SameInheritance contexts' contexts :=
  fun key v w => (h key v w).symm

lemma ResolverInput.SameRows.symm {input input' : ResolverInput} (h : input.SameRows input') :
    input'.SameRows input :=
  ⟨h.mode.symm, fun key => (h.overrides key).symm, h.covers, h.within,
    fun id => (h.directRoleIds id).symm, fun id => (h.keys id).symm,
    fun id role role' hrole hrole' => (h.roles id role' role hrole' hrole).symm,
    h.context.symm, h.contexts.symm⟩

lemma SameInheritance.inChain {contexts contexts' : ContextInheritance}
    (h : SameInheritance contexts contexts') {key value v : Text} {d : ℕ}
    (hin : InChain contexts key value v d) : InChain contexts' key value v d := by
  have hR : InheritsValue contexts key = InheritsValue contexts' key := by
    funext v w
    exact propext (h key v w)
  rw [InChain, hR] at hin
  exact hin

variable {check check' : PermissionContext} {contexts contexts' : ContextInheritance}

lemma ContextApplies.of_sameKeys (hcheck : SameKeys check check')
    (hcontexts : SameInheritance contexts contexts') {c c' : PermissionContext}
    (hc : SameKeys c c') {keys distance : ℕ}
    (h : ContextApplies check contexts (some c) keys distance) :
    ContextApplies check' contexts' (some c') keys distance := by
  have hperm := Dict.entries_perm_of_get?_eq hc
  obtain ⟨rfl, d, hd, rfl⟩ := h
  refine ⟨hperm.length_eq, d, fun p hp => ?_, (hperm.map d).sum_nat⟩
  obtain ⟨value, hvalue, hchain⟩ := hd p (hperm.mem_iff.mpr hp)
  exact ⟨value, hcheck p.1 ▸ hvalue, hcontexts.inChain hchain⟩

/-- The applicable entries of a source do not depend on the order of its rows. -/
lemma SourceApplies.of_sameRows {global global' : Dict Text Bool}
    {rows rows' : List ResolverContextEntry} {candidates : List Text}
    (hglobal : ∀ key, global.get? key = global'.get? key) (hrows : RowsWithin rows rows')
    (hcheck : SameKeys check check') (hcontexts : SameInheritance contexts contexts')
    {value : Bool} {context : Option PermissionContext} {score : Score}
    (h : SourceApplies global rows candidates check contexts value context score) :
    ∃ context', canonicalContextKey context' = canonicalContextKey context ∧
      SourceApplies global' rows' candidates check' contexts' value context' score := by
  obtain ⟨key, hholds, hcandidate, happlies⟩ := h
  cases hholds with
  | global hget =>
    exact ⟨none, rfl, key, HoldsEntry.global (hglobal key ▸ hget), hcandidate, happlies⟩
  | @contextual entry hmem =>
    obtain ⟨entry', hmem', hsame⟩ := hrows entry hmem
    refine ⟨some entry'.context, (canonicalContextKey_congr hsame.context).symm,
      entry'.permission, ?_, ?_, happlies.of_sameKeys hcheck hcontexts hsame.context⟩
    · rw [hsame.value]
      exact HoldsEntry.contextual hmem'
    · rw [← hsame.permission]
      exact hcandidate

variable {input input' : ResolverInput}

private lemma ResolverInput.SameRows.get?_roles (h : input.SameRows input') {id : Text}
    {role : ResolverRole} (hrole : input.roles.get? id = some role) :
    ∃ role', input'.roles.get? id = some role' ∧ role.SameRole role' := by
  obtain ⟨role', hrole'⟩ := Dict.mem_keys_iff.mp
    ((h.keys id).mp (Dict.mem_keys_iff.mpr ⟨role, hrole⟩))
  exact ⟨role', hrole', h.roles id role role' hrole hrole'⟩

private lemma ResolverInput.SameRows.inheritsFrom (h : input.SameRows input') {id parent : Text}
    (hfrom : InheritsFrom input.roles id parent) : InheritsFrom input'.roles id parent := by
  obtain ⟨role, hrole, hparent, hkey⟩ := hfrom
  obtain ⟨role', hrole', hsame⟩ := h.get?_roles hrole
  exact ⟨role', hrole', (hsame.parents parent).mp hparent, (h.keys parent).mp hkey⟩

private lemma ResolverInput.SameRows.inLayer (h : input.SameRows input') {depth layer : ℕ}
    {holder : Option Text} (hin : InLayer depth input layer holder) :
    InLayer depth input' layer holder := by
  refine (inLayer_congr ?_ ?_ depth layer holder).mp hin
  · ext id
    exact and_congr (h.directRoleIds id) (h.keys id)
  · funext id parent
    exact propext ⟨h.inheritsFrom, h.symm.inheritsFrom⟩

lemma ResolverInput.SameRows.layerWithin (h : input.SameRows input') (depth : ℕ)
    (permission : Text) (layer : ℕ) : LayerWithin depth input depth input' permission layer := by
  rintro holder value context score ⟨hin, happlies⟩
  cases holder with
  | none =>
    obtain ⟨context', hkey, h'⟩ :=
      SourceApplies.of_sameRows h.overrides h.within h.context h.contexts happlies
    rw [h.mode] at h'
    exact ⟨context', hkey, h.inLayer hin, h'⟩
  | some id =>
    obtain ⟨role, hrole, happlies⟩ := happlies
    obtain ⟨role', hrole', hsame⟩ := h.get?_roles hrole
    obtain ⟨context', hkey, h'⟩ :=
      SourceApplies.of_sameRows hsame.entries hsame.within h.context h.contexts happlies
    rw [h.mode] at h'
    exact ⟨context', hkey, h.inLayer hin, role', hrole', h'⟩

/-- The order of rows, keys and ids does not matter. -/
theorem ResolverInput.SameRows.isAnswer (h : input.SameRows input') {depth : ℕ}
    {permission : Text} {result : PermissionCheckResult}
    (hanswer : IsAnswer depth input permission result) :
    IsAnswer depth input' permission result := by
  apply hanswer.transfer
  · intro id role role' hrole hrole'
    exact (h.roles id role role' hrole hrole').priority
  · intro layer _
    exact ⟨h.layerWithin depth permission layer, h.symm.layerWithin depth permission layer⟩

end SameRows

/-! ### The resolver and the precedence -/

/-- The resolver answers exactly by the precedence, and the same for every order of the rows,
keys and ids it is given. -/
theorem resolveMemberPermission_correct :
    (∀ input permission result, resolveMemberPermission input permission = result ↔
      IsAnswer maxRoleDepth input permission result) ∧
    ∀ input input' permission, ResolverInput.SameRows input input' →
      resolveMemberPermission input permission = resolveMemberPermission input' permission := by
  refine ⟨resolveMemberPermission_eq_iff, ?_⟩
  intro input input' permission h
  symm
  rw [resolveMemberPermission_eq_iff]
  exact h.isAnswer (resolveMemberPermission_isAnswer input permission)

/-- A member with a granting and a denying role, held in the order given. -/
private def twoRolesHeld (ids : List Text) : ResolverInput where
  mode := .exact
  overrides := Dict.empty
  contextOverrides := []
  directRoleIds := ids
  roles := Dict.ofList [(text "a", ⟨1, Dict.ofList [(text "kick", true)], [], []⟩),
    (text "b", ⟨1, Dict.ofList [(text "kick", false)], [], []⟩)]
  context := Dict.empty
  contexts := Dict.empty

theorem resolveMemberPermission_swapped_roles :
    resolveMemberPermission (twoRolesHeld [text "a", text "b"]) (text "kick")
      = resolveMemberPermission (twoRolesHeld [text "b", text "a"]) (text "kick") := by
  apply resolveMemberPermission_correct.2
  refine ⟨rfl, fun _ => rfl, RowsWithin.refl _, RowsWithin.refl _, ?_, fun _ => Iff.rfl, ?_,
    fun _ => rfl, fun _ _ _ => Iff.rfl⟩
  · intro id
    simp [twoRolesHeld, or_comm]
  · intro id role role' hrole hrole'
    obtain rfl : role = role' := Option.some.inj (hrole.symm.trans hrole')
    exact ResolverRole.SameRole.refl role

end Junjo
