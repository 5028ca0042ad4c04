import Junjo.Permissions.Resolve

/-!
# The precedence of permission entries

What a check should answer, stated over all applicable entries at once rather than by a walk. An
entry applies when its stored key is a candidate for the permission and its context lies in the
inheritance chains of the check's context. The deciding layer, the best score, deny before grant
and the tie-breaks then pick the answer (`IsAnswer`).
-/

namespace Junjo

/-! ### The order of scores -/

/-- More context keys first, then the smaller distance sum, then the lower rank. -/
def Score.lexKey (s : Score) : ℕᵒᵈ ×ₗ ℕ ×ₗ ℕ :=
  toLex (OrderDual.toDual s.keys, toLex (s.distance, s.rank))

lemma Score.lexKey_injective : Function.Injective Score.lexKey := by
  intro a b h
  simp only [Score.lexKey, EmbeddingLike.apply_eq_iff_eq, Prod.mk.injEq] at h
  exact Score.ext h.1 h.2.1 h.2.2

/-- The better score is the smaller one. -/
instance : LinearOrder Score := LinearOrder.lift' Score.lexKey Score.lexKey_injective

lemma Score.lt_iff {a b : Score} :
    a < b ↔ b.keys < a.keys ∨ a.keys = b.keys ∧
      (a.distance < b.distance ∨ a.distance = b.distance ∧ a.rank < b.rank) := by
  change a.lexKey < b.lexKey ↔ _
  simp [Score.lexKey, Prod.Lex.toLex_lt_toLex]

lemma compareScore_neg {a b : Score} : compareScore a b < 0 ↔ a < b := by
  rw [Score.lt_iff]
  unfold compareScore
  split_ifs <;> omega

lemma compareScore_pos {a b : Score} : 0 < compareScore a b ↔ b < a := by
  rw [Score.lt_iff]
  unfold compareScore
  split_ifs <;> omega

lemma compareScore_eq_zero {a b : Score} : compareScore a b = 0 ↔ a = b := by
  have hneg := compareScore_neg (a := a) (b := b)
  have hpos := compareScore_pos (a := a) (b := b)
  constructor
  · intro h
    exact le_antisymm (not_lt.mp fun hlt => by have := hpos.mpr hlt; omega)
      (not_lt.mp fun hlt => by have := hneg.mpr hlt; omega)
  · rintro rfl
    simp [compareScore]

/-! ### Applicable entries -/

/-- A source of entries: its global entries and its contextual ones. A global entry is held with
the context `none`. -/
inductive HoldsEntry (global : Dict Text Bool) (contextual : List ResolverContextEntry) :
    Text → Bool → Option PermissionContext → Prop where
  | global {key value} : global.get? key = some value → HoldsEntry global contextual key value none
  | contextual {entry} : entry ∈ contextual →
      HoldsEntry global contextual entry.permission entry.value (some entry.context)

/-- The context of an entry applies to the check, with its number of keys and the sum of their
distances: every `(k, v)` of it lies in the inheritance chain of the check's value for `k`. -/
def ContextApplies (check : PermissionContext) (contexts : ContextInheritance) :
    Option PermissionContext → ℕ → ℕ → Prop
  | none, keys, distance => keys = 0 ∧ distance = 0
  | some context, keys, distance =>
    keys = context.size ∧ ∃ d : Text × Text → ℕ,
      (∀ p ∈ context.entries, ∃ value, check.get? p.1 = some value ∧
        InChain contexts p.1 (foldContextValue value) (foldContextValue p.2) (d p)) ∧
      distance = (context.entries.map d).sum

/-- An entry under `key` limited to `context` applies with `score`. -/
def EntryApplies (candidates : List Text) (check : PermissionContext)
    (contexts : ContextInheritance) (key : Text) (context : Option PermissionContext)
    (score : Score) : Prop :=
  candidates[score.rank]? = some key ∧
    ContextApplies check contexts context score.keys score.distance

/-- A source holds an applicable entry of this value, context and score. -/
def SourceApplies (global : Dict Text Bool) (contextual : List ResolverContextEntry)
    (candidates : List Text) (check : PermissionContext) (contexts : ContextInheritance)
    (value : Bool) (context : Option PermissionContext) (score : Score) : Prop :=
  ∃ key, HoldsEntry global contextual key value context ∧
    EntryApplies candidates check contexts key context score

/-! ### Layers -/

/-- `parent` is an existing parent of the role. -/
def InheritsFrom (roles : Dict Text ResolverRole) (id parent : Text) : Prop :=
  ∃ role, roles.get? id = some role ∧ parent ∈ role.parents ∧ parent ∈ roles.keys

/-- The roles held directly that exist. -/
def heldRoles (input : ResolverInput) : Set Text :=
  {id | id ∈ input.directRoleIds ∧ id ∈ input.roles.keys}

/-- Who sits in a layer: the member (`none`) alone in layer `0`, in layer `d + 1` the roles at
distance `d` from the roles held directly. The walk stops at `depth`. -/
def InLayer (depth : ℕ) (input : ResolverInput) : ℕ → Option Text → Prop
  | 0, holder => holder = none
  | d + 1, holder => d ≤ depth ∧ ∃ id, holder = some id ∧
      AtDistance (InheritsFrom input.roles) (heldRoles input) d id

/-- The applicable entries of a holder: overrides for the member, role entries for a role. -/
def HolderApplies (input : ResolverInput) (permission : Text) (holder : Option Text)
    (value : Bool) (context : Option PermissionContext) (score : Score) : Prop :=
  match holder with
  | none =>
    SourceApplies input.overrides input.contextOverrides (candidateKeys input.mode permission)
      input.context input.contexts value context score
  | some id =>
    ∃ role, input.roles.get? id = some role ∧
      SourceApplies role.entries role.contextEntries (candidateKeys input.mode permission)
        input.context input.contexts value context score

/-- The holder sits in the layer and has such an applicable entry. -/
def LayerApplies (depth : ℕ) (input : ResolverInput) (permission : Text) (layer : ℕ)
    (holder : Option Text) (value : Bool) (context : Option PermissionContext) (score : Score) :
    Prop :=
  InLayer depth input layer holder ∧ HolderApplies input permission holder value context score

/-- Some entry of the layer applies. -/
def LayerDecides (depth : ℕ) (input : ResolverInput) (permission : Text) (layer : ℕ) : Prop :=
  ∃ holder value context score,
    LayerApplies depth input permission layer holder value context score

/-- The applicable entries of the layer with the best score. -/
def Tied (depth : ℕ) (input : ResolverInput) (permission : Text) (layer : ℕ)
    (holder : Option Text) (value : Bool) (context : Option PermissionContext) : Prop :=
  ∃ score, LayerApplies depth input permission layer holder value context score ∧
    ∀ holder' value' context' score',
      LayerApplies depth input permission layer holder' value' context' score' → score ≤ score'

/-- `b` does not outrank `a`: higher priority first, then the greater id. -/
def RanksOver (roles : Dict Text ResolverRole) (a b : Option Text) : Prop :=
  ∀ id id' role role', a = some id → b = some id' → roles.get? id = some role →
    roles.get? id' = some role' →
    role'.priority < role.priority ∨ role'.priority = role.priority ∧ id' ≤ id

/-- The context shown for a deciding entry: folded, in key order, absent when global. -/
def shownContext : Option PermissionContext → Option PermissionContext
  | none => none
  | some context =>
    if context.keys = [] then none else some (context.mapValues foldContextValue).sorted

/-- What a check answers. The first layer with an applicable entry decides. Inside it the best
score decides and any deny wins. The role reported is the highest-ranking tied holder of the
deciding value, the context its tied context with the smallest canonical key. -/
inductive IsAnswer (depth : ℕ) (input : ResolverInput) (permission : Text) :
    PermissionCheckResult → Prop where
  | default :
      (∀ layer, ¬ LayerDecides depth input permission layer) →
      IsAnswer depth input permission { allowed := false, source := .default }
  | decided {layer : ℕ} {holder : Option Text} {allowed : Bool}
      {context : Option PermissionContext} :
      LayerDecides depth input permission layer →
      (∀ earlier < layer, ¬ LayerDecides depth input permission earlier) →
      (allowed = false ↔ ∃ holder' context',
        Tied depth input permission layer holder' false context') →
      Tied depth input permission layer holder allowed context →
      (∀ holder' context', Tied depth input permission layer holder' allowed context' →
        RanksOver input.roles holder holder') →
      (∀ context', Tied depth input permission layer holder allowed context' →
        canonicalContextKey context ≤ canonicalContextKey context') →
      IsAnswer depth input permission
        { allowed := allowed
          source := if layer = 0 then .override else .role
          viaRoleId := holder
          context := shownContext context }

end Junjo
