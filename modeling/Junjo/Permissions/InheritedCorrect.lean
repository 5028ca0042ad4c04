import Junjo.Permissions.Inherited

/-!
# Inherited checks of a batch

Whatever the checks of a batch share, each answers as from complete data: the lookups, the loads
and the memo of group answers hold only what the database answers. The groups an answer is stored
under are those its dependencies were read from.
-/

namespace Junjo

open CheckHandler

/-! ### Runs over a database that stays as it is -/

section Runs

variable {κ : Type*} (cache : CheckCache κ) (world : CheckWorld)

/-- The program ends with the value, the lookups and the cache. -/
def Ends {α : Type} (s : κ) (prog : CheckM α) (ctx : CheckContext) (a : α) (ctx' : CheckContext)
    (s' : κ) : Prop :=
  (prog ctx).runAlone (cache.exec world) s = (.ok (a, ctx'), s')

/-- The program ends with the value and the lookups, without touching the cache. -/
def Returns {α : Type} (prog : CheckM α) (ctx : CheckContext) (a : α) (ctx' : CheckContext) :
    Prop :=
  ∀ s : κ, Ends cache world s prog ctx a ctx' s

/-- The program fails without touching the cache. -/
def Fails {α : Type} (prog : CheckM α) (ctx : CheckContext) (e : CheckError) : Prop :=
  ∀ s : κ, (prog ctx).runAlone (cache.exec world) s = (.error e, s)

variable {cache world} {α β : Type} {ctx ctx' ctx'' : CheckContext}

lemma Ends.bind {prog : CheckM α} {next : α → CheckM β} {a : α} {b : β} {s s' s'' : κ}
    (h : Ends cache world s prog ctx a ctx' s')
    (hnext : Ends cache world s' (next a) ctx' b ctx'' s'') :
    Ends cache world s (prog >>= next) ctx b ctx'' s'' := by
  change ((prog ctx).andThen _).runAlone (cache.exec world) s = _
  refine (Prog.runAlone_bind _ _ _ _).trans ?_
  rw [h]
  exact hnext

lemma Returns.pure (a : α) (ctx : CheckContext) : Returns cache world (pure a) ctx a ctx :=
  fun _ => rfl

lemma Returns.bind {prog : CheckM α} {next : α → CheckM β} {a : α} {b : β}
    (h : Returns cache world prog ctx a ctx') (hnext : Returns cache world (next a) ctx' b ctx'') :
    Returns cache world (prog >>= next) ctx b ctx'' :=
  fun s => (h s).bind (hnext s)

lemma Fails.throw (e : CheckError) (ctx : CheckContext) :
    Fails cache world (throw e : CheckM α) ctx e := fun _ => rfl

lemma Fails.bind {prog : CheckM α} {e : CheckError} (h : Fails cache world prog ctx e)
    (next : α → CheckM β) : Fails cache world (prog >>= next) ctx e := by
  intro s
  change ((prog ctx).andThen _).runAlone (cache.exec world) s = _
  refine (Prog.runAlone_bind _ _ _ _).trans ?_
  rw [h s]
  rfl

lemma Returns.bind_fails {prog : CheckM α} {next : α → CheckM β} {a : α} {e : CheckError}
    (h : Returns cache world prog ctx a ctx') (hnext : Fails cache world (next a) ctx' e) :
    Fails cache world (prog >>= next) ctx e := by
  intro s
  change ((prog ctx).andThen _).runAlone (cache.exec world) s = _
  refine (Prog.runAlone_bind _ _ _ _).trans ?_
  rw [h s]
  exact hnext s

lemma Returns.query (groups : CheckWorld → List Text) (f : CheckWorld → α) (ctx : CheckContext) :
    Returns cache world (CheckHandler.query groups f) ctx (f world) ctx :=
  fun _ => rfl

lemma Returns.get (ctx : CheckContext) : Returns cache world get ctx ctx ctx := fun _ => rfl

lemma Returns.modify (f : CheckContext → CheckContext) (ctx : CheckContext) :
    Returns cache world (modify f) ctx () (f ctx) := fun _ => rfl

/-! ### Loads -/

lemma returns_memberRoles (loads : MemberLoads) (groupId memberId : Text) (ctx : CheckContext) :
    Returns cache world (memberRoles loads groupId memberId) ctx
      (loads.memberRoles world.tables groupId memberId) ctx := by
  unfold memberRoles MemberLoads.memberRoles
  cases loads.roles.get? memberId with
  | some hit => exact Returns.pure _ _
  | none =>
    refine Returns.bind (Returns.query _ _ _) ?_
    unfold MemberLoads.loadRoles
    dsimp only
    split_ifs with hempty hinherits
    · exact Returns.bind (Returns.pure _ _) (Returns.pure _ _)
    · refine Returns.bind (Returns.query _ _ _) ?_
      refine Returns.bind (Returns.query _ _ _) ?_
      exact Returns.bind (Returns.pure _ _) (Returns.pure _ _)
    · refine Returns.bind (Returns.query _ _ _) ?_
      refine Returns.bind (Returns.pure _ _) ?_
      exact Returns.bind (Returns.pure _ _) (Returns.pure _ _)

lemma returns_resolveActive (config : GameConfigPermissions) (groupId : Text)
    (member : GroupMemberRow) (permission : Text) (context : PermissionContext)
    (loads : MemberLoads) (ctx : CheckContext) :
    Returns cache world
      (CheckHandler.resolveActive config groupId member permission context loads) ctx
      (Junjo.resolveActive world.tables config groupId member permission context loads) ctx := by
  unfold CheckHandler.resolveActive Junjo.resolveActive
  refine Returns.bind (Returns.query _ _ _) ?_
  dsimp only
  split_ifs with hown hempty
  · exact Returns.pure _ _
  · refine Returns.bind (returns_memberRoles _ _ _ _) ?_
    simp only [hempty, if_true]
    exact Returns.pure _ _
  · refine Returns.bind (returns_memberRoles _ _ _ _) ?_
    simp only [hempty]
    exact Returns.pure _ _

lemma returns_resolveWithLoads (config : GameConfigPermissions) (groupId junjoUserId : Text)
    (permission : Text) (context : PermissionContext) (loads : MemberLoads) (ctx : CheckContext) :
    Returns cache world
      (CheckHandler.resolveWithLoads config groupId junjoUserId permission context loads) ctx
      (Junjo.resolveWithLoads world.tables config groupId junjoUserId permission context loads)
      ctx := by
  unfold CheckHandler.resolveWithLoads Junjo.resolveWithLoads
  refine Returns.bind (Returns.query _ _ _) ?_
  generalize loads.member world.tables groupId junjoUserId = found
  obtain ⟨_ | member, loads⟩ := found
  · exact Returns.pure _ _
  · dsimp only
    split_ifs with hactive
    · exact Returns.pure _ _
    · exact returns_resolveActive _ _ _ _ _ _ _

lemma returns_resolveForJunjoUser (config : GameConfigPermissions) (groupId junjoUserId : Text)
    (permission : Text) (context : PermissionContext) (shared : Option MemberLoads)
    (ctx : CheckContext) :
    Returns cache world
      (CheckHandler.resolveForJunjoUser config groupId junjoUserId permission context shared) ctx
      (Junjo.resolveForJunjoUser world.tables config groupId junjoUserId permission context shared)
      ctx := by
  unfold CheckHandler.resolveForJunjoUser Junjo.resolveForJunjoUser
  cases shared with
  | none => exact Returns.bind (returns_resolveWithLoads _ _ _ _ _ _ _) (Returns.pure _ _)
  | some loads =>
    dsimp only
    split_ifs with hcovers
    · exact Returns.bind (returns_resolveWithLoads _ _ _ _ _ _ _) (Returns.pure _ _)
    · exact Returns.bind (returns_resolveWithLoads _ _ _ _ _ _ _) (Returns.pure _ _)

end Runs

/-! ### Shared lookups -/

lemma resolveMemberPermission_congr {input input' : ResolverInput} (h : input.SameRows input')
    (permission : Text) :
    resolveMemberPermission input permission = resolveMemberPermission input' permission :=
  ((resolveMemberPermission_eq_iff _ _ _).mpr
    (h.isAnswer (resolveMemberPermission_isAnswer input permission))).symm

lemma ResolverInput.SameRows.of_context {tables : PermissionTables}
    {config : GameConfigPermissions} {member : GroupMemberRow} {c c' : PermissionContext}
    (h : SameKeys c c') :
    (tables.completeInput config member c).SameRows (tables.completeInput config member c') where
  mode := rfl
  overrides _ := rfl
  within := RowsWithin.refl _
  covers := RowsWithin.refl _
  directRoleIds _ := Iff.rfl
  keys _ := Iff.rfl
  roles id role role' hrole hrole' := by
    obtain rfl : role = role' := Option.some.inj (hrole.symm.trans hrole')
    exact ResolverRole.SameRole.refl role
  context := h
  contexts _ _ _ := Iff.rfl

/-- Contexts with one canonical key have one answer. -/
lemma CheckWorld.ownAnswer_congr (world : CheckWorld) {c c' : PermissionContext}
    (h : canonicalContextKey (some c) = canonicalContextKey (some c'))
    (gameId userId permission groupId : Text) :
    world.ownAnswer gameId userId permission c groupId =
      world.ownAnswer gameId userId permission c' groupId := by
  have hsame : SameKeys c c' := get?_eq_of_canonicalContextKey_eq h
  unfold ownAnswer completeAnswer
  cases world.personOf gameId userId with
  | none => rfl
  | some junjoUserId =>
    dsimp only
    cases world.tables.findMember groupId junjoUserId with
    | none => rfl
    | some member =>
      simp only [resolveMemberPermission_congr (ResolverInput.SameRows.of_context hsame)]

lemma levelKey_inj {groupId groupId' userId userId' permission permission' k k' : Text}
    (h : levelKey groupId userId permission k = levelKey groupId' userId' permission' k') :
    groupId = groupId' ∧ userId = userId' ∧ permission = permission' ∧ k = k' := by
  have hparts : ∀ a b c d : Text, levelKey a b c d = [a, b, c, d].flatMap keyPart := by
    intro a b c d
    simp [levelKey, keyPart]
  rw [hparts, hparts] at h
  simpa using flatMap_keyPart_inj (by simp) h

/-- The lookups shared by a request hold only what the database answers. -/
structure CheckContext.Faithful (world : CheckWorld) (gameId : Text) (ctx : CheckContext) :
    Prop where
  identities : ∀ userId person, ctx.identities.get? userId = some person →
    person = world.personOf gameId userId
  config : ∀ config, ctx.config = some config → config = world.configOf gameId
  loads : ∀ loads, ctx.loads = some loads → loads.Faithful world.tables
  levels : ∀ groupId userId permission (c : PermissionContext) result,
    ctx.levels.get? (levelKey groupId userId permission (canonicalContextKey (some c)))
      = some result → result = world.ownAnswer gameId userId permission c groupId

section Lookups

variable {κ : Type*} (cache : CheckCache κ) {world : CheckWorld} {gameId : Text}
  {ctx : CheckContext}

lemma returns_assertUserIdsWellFormed {userIds : List Text}
    (h : ∀ userId ∈ userIds, (gameId, userId) ∉ world.malformedUserIds) (ctx : CheckContext) :
    Returns cache world (assertUserIdsWellFormed gameId userIds) ctx () ctx := by
  have hnone : userIds.find? (fun userId => decide ((gameId, userId) ∈ world.malformedUserIds))
      = none := by
    rw [List.find?_eq_none]
    simpa using h
  unfold assertUserIdsWellFormed
  refine Returns.bind (Returns.query _ _ _) ?_
  simp only [hnone]
  exact Returns.pure _ _

lemma returns_resolveIdentity (hctx : ctx.Faithful world gameId) {userId : Text}
    (hwell : (gameId, userId) ∉ world.malformedUserIds) :
    ∃ ctx', Returns cache world (resolveIdentity gameId userId) ctx (world.personOf gameId userId)
      ctx' ∧ ctx'.Faithful world gameId := by
  cases hget : ctx.identities.get? userId with
  | some hit =>
    refine ⟨ctx, ?_, hctx⟩
    unfold resolveIdentity
    refine Returns.bind (Returns.get ctx) ?_
    rw [hget, hctx.identities userId hit hget]
    exact Returns.pure _ _
  | none =>
    have hfind : Returns cache world (findJunjoUserId gameId userId) ctx
        (world.personOf gameId userId) ctx :=
      Returns.bind (returns_assertUserIdsWellFormed cache (by simpa using hwell) ctx)
        (Returns.query _ _ _)
    refine ⟨{ ctx with
      identities := ctx.identities.set userId (world.personOf gameId userId) }, ?_, ?_⟩
    · unfold resolveIdentity
      refine Returns.bind (Returns.get ctx) ?_
      rw [hget]
      refine Returns.bind hfind ?_
      exact Returns.bind (Returns.modify _ _) (Returns.pure _ _)
    · refine ⟨?_, hctx.config, hctx.loads, hctx.levels⟩
      intro userId' person hperson
      rw [Dict.get?_set] at hperson
      split_ifs at hperson with hkey
      · rw [hkey]
        exact (Option.some.inj hperson).symm
      · exact hctx.identities userId' person hperson

lemma returns_permissions (hctx : ctx.Faithful world gameId) :
    ∃ ctx', Returns cache world (permissions gameId) ctx (world.configOf gameId) ctx' ∧
      ctx'.Faithful world gameId ∧ ctx'.loads = ctx.loads := by
  cases hget : ctx.config with
  | some hit =>
    refine ⟨ctx, ?_, hctx, rfl⟩
    unfold permissions
    refine Returns.bind (Returns.get ctx) ?_
    rw [hget, hctx.config hit hget]
    exact Returns.pure _ _
  | none =>
    refine ⟨{ ctx with config := some (world.configOf gameId) }, ?_, ?_, rfl⟩
    · unfold permissions
      refine Returns.bind (Returns.get ctx) ?_
      rw [hget]
      refine Returns.bind (Returns.query _ _ _) ?_
      exact Returns.bind (Returns.modify _ _) (Returns.pure _ _)
    · refine ⟨hctx.identities, ?_, hctx.loads, hctx.levels⟩
      rintro config ⟨⟩
      rfl

lemma returns_resolvePermission (hctx : ctx.Faithful world gameId) {userId : Text}
    (hwell : (gameId, userId) ∉ world.malformedUserIds) (groupId permission : Text)
    (context : PermissionContext) :
    ∃ ctx', Returns cache world (resolvePermission gameId groupId userId permission context) ctx
      (world.ownAnswer gameId userId permission context groupId) ctx' ∧
      ctx'.Faithful world gameId := by
  obtain ⟨ctx₁, hperson, hctx₁⟩ := returns_resolveIdentity cache hctx hwell
  unfold CheckWorld.ownAnswer
  cases hfound : world.personOf gameId userId with
  | none =>
    rw [hfound] at hperson
    refine ⟨ctx₁, ?_, hctx₁⟩
    unfold resolvePermission
    exact Returns.bind hperson (Returns.pure _ _)
  | some junjoUserId =>
    rw [hfound] at hperson
    obtain ⟨ctx₂, hconfig, hctx₂, -⟩ := returns_permissions cache hctx₁
    obtain ⟨hresult, hloads⟩ := @resolveForJunjoUser_spec world.tables (world.configOf gameId)
      permission context ctx₂.loads hctx₂.loads groupId junjoUserId
    refine ⟨{ ctx₂ with loads := (Junjo.resolveForJunjoUser world.tables (world.configOf gameId)
      groupId junjoUserId permission context ctx₂.loads).2 }, ?_, ?_⟩
    · unfold resolvePermission
      refine Returns.bind hperson ?_
      refine Returns.bind hconfig ?_
      refine Returns.bind (Returns.get ctx₂) ?_
      refine Returns.bind (returns_resolveForJunjoUser _ _ _ _ _ _ _) ?_
      dsimp only
      rw [← hresult]
      exact Returns.bind (Returns.modify _ _) (Returns.pure _ _)
    · exact ⟨hctx₂.identities, hctx₂.config, hloads, hctx₂.levels⟩

/-- The memo of group answers answers as a fresh resolution. -/
lemma returns_resolveLevel (hctx : ctx.Faithful world gameId) {userId : Text}
    (hwell : (gameId, userId) ∉ world.malformedUserIds) (groupId permission : Text)
    (context : PermissionContext) :
    ∃ ctx', Returns cache world (resolveLevel gameId groupId userId permission context) ctx
      (world.ownAnswer gameId userId permission context groupId) ctx' ∧
      ctx'.Faithful world gameId := by
  cases hget : ctx.levels.get? (levelKey groupId userId permission
      (canonicalContextKey (some context))) with
  | some hit =>
    refine ⟨ctx, ?_, hctx⟩
    unfold resolveLevel
    refine Returns.bind (Returns.get ctx) ?_
    rw [hget, hctx.levels _ _ _ _ _ hget]
    exact Returns.pure _ _
  | none =>
    obtain ⟨ctx₁, hresult, hctx₁⟩ := returns_resolvePermission cache hctx hwell
      groupId permission context
    refine ⟨{ ctx₁ with
      levels := ctx₁.levels.set (levelKey groupId userId permission
        (canonicalContextKey (some context)))
        (world.ownAnswer gameId userId permission context groupId) }, ?_, ?_⟩
    · unfold resolveLevel
      refine Returns.bind (Returns.get ctx) ?_
      rw [hget]
      refine Returns.bind hresult ?_
      exact Returns.bind (Returns.modify _ _) (Returns.pure _ _)
    · refine ⟨hctx₁.identities, hctx₁.config, hctx₁.loads, ?_⟩
      intro groupId' userId' permission' c result hlevel
      rw [Dict.get?_set] at hlevel
      split_ifs at hlevel with hkey
      · obtain ⟨rfl, rfl, rfl, hcontext⟩ := levelKey_inj hkey
        rw [world.ownAnswer_congr hcontext]
        exact (Option.some.inj hlevel).symm
      · exact hctx₁.levels _ _ _ _ _ hlevel

end Lookups

/-! ### The chain of live ancestors -/

section Ancestors

variable {world : CheckWorld} {gameId : Text}

lemma id_of_findGroup {groups : List GroupRow} {id : Text} {row : GroupRow}
    (h : findGroup groups gameId id = some row) : row.id = id := by
  have hkeys := List.find?_some h
  simp only [Bool.and_eq_true, decide_eq_true_eq] at hkeys
  exact hkeys.1.1

/-- A chain may be followed from its second group on. -/
lemma liveAncestor_succ_of_parent {groupId parent : Text} {row : GroupRow}
    (hrow : findGroup world.groups gameId groupId = some row)
    (hparent : row.parentGroupId = some parent) (n : ℕ) :
    world.liveAncestor gameId groupId (n + 1) = world.liveAncestor gameId parent n := by
  induction n with
  | zero => simp [CheckWorld.liveAncestor, hrow, id_of_findGroup hrow, hparent]
  | succ n ih => rw [CheckWorld.liveAncestor, ih, CheckWorld.liveAncestor]

lemma liveAncestor_eq_none {groupId : Text} {m n : ℕ} (hle : m ≤ n)
    (h : world.liveAncestor gameId groupId m = none) :
    world.liveAncestor gameId groupId n = none := by
  induction hle with
  | refl => exact h
  | step _ ih => simp [CheckWorld.liveAncestor, ih]

section Rows

variable {groups : List GroupRow} {id : Text} {row : GroupRow}

lemma chainRows_of_none (h : findGroup groups gameId id = none) (fuel : ℕ) :
    chainRows groups gameId fuel id = [] := by
  cases fuel <;> simp [chainRows, h]

lemma chainRows_zero (h : findGroup groups gameId id = some row) :
    chainRows groups gameId 0 id = [id] := by
  simp [chainRows, h, id_of_findGroup h]

lemma chainRows_root (h : findGroup groups gameId id = some row)
    (hparent : row.parentGroupId = none) (fuel : ℕ) :
    chainRows groups gameId (fuel + 1) id = [id] := by
  simp [chainRows, h, hparent, id_of_findGroup h]

lemma chainRows_parent (h : findGroup groups gameId id = some row) {parent : Text}
    (hparent : row.parentGroupId = some parent) (fuel : ℕ) :
    chainRows groups gameId (fuel + 1) id = id :: chainRows groups gameId fuel parent := by
  rw [chainRows, h]
  simp only [hparent, id_of_findGroup h]

end Rows

/-- The rows of the recursive query are the live ancestors, nearest first. -/
lemma getElem?_chainRows {fuel : ℕ} {groupId : Text} {n : ℕ} (hn : n ≤ fuel) :
    (chainRows world.groups gameId fuel groupId)[n]? = world.liveAncestor gameId groupId n := by
  cases hrow : findGroup world.groups gameId groupId with
  | none =>
    have hnone : world.liveAncestor gameId groupId 0 = none := by
      simp [CheckWorld.liveAncestor, hrow]
    rw [chainRows_of_none hrow, liveAncestor_eq_none (Nat.zero_le n) hnone]
    rfl
  | some row =>
    have hzero : world.liveAncestor gameId groupId 0 = some groupId := by
      simp [CheckWorld.liveAncestor, hrow, id_of_findGroup hrow]
    induction fuel generalizing groupId n row with
    | zero =>
      obtain rfl : n = 0 := Nat.le_zero.mp hn
      rw [chainRows_zero hrow, hzero]
      rfl
    | succ fuel ih =>
      cases hparent : row.parentGroupId with
      | none =>
        rw [chainRows_root hrow hparent]
        cases n with
        | zero => exact hzero.symm
        | succ n =>
          have hnone : world.liveAncestor gameId groupId 1 = none := by
            simp [CheckWorld.liveAncestor, hrow, id_of_findGroup hrow, hparent]
          rw [liveAncestor_eq_none (Nat.succ_le_succ (Nat.zero_le n)) hnone]
          rfl
      | some parent =>
        rw [chainRows_parent hrow hparent]
        cases n with
        | zero => exact hzero.symm
        | succ n =>
          rw [liveAncestor_succ_of_parent hrow hparent, List.getElem?_cons_succ]
          cases hfound : findGroup world.groups gameId parent with
          | none =>
            have hnone : world.liveAncestor gameId parent 0 = none := by
              simp [CheckWorld.liveAncestor, hfound]
            rw [chainRows_of_none hfound, liveAncestor_eq_none (Nat.zero_le n) hnone]
            rfl
          | some above =>
            refine ih (Nat.le_of_succ_le_succ hn) above hfound ?_
            simp [CheckWorld.liveAncestor, hfound, id_of_findGroup hfound]

lemma length_chainRows_le (groups : List GroupRow) (fuel : ℕ) (groupId : Text) :
    (chainRows groups gameId fuel groupId).length ≤ fuel + 1 := by
  cases hrow : findGroup groups gameId groupId with
  | none => simp [chainRows_of_none hrow]
  | some row =>
    induction fuel generalizing groupId row with
    | zero => simp [chainRows_zero hrow]
    | succ fuel ih =>
      cases hparent : row.parentGroupId with
      | none => simp [chainRows_root hrow hparent]
      | some parent =>
        rw [chainRows_parent hrow hparent, List.length_cons]
        cases hfound : findGroup groups gameId parent with
        | none => simp [chainRows_of_none hfound]
        | some above => exact Nat.succ_le_succ (ih parent above hfound)

lemma mem_chainRows {groupId h : Text} :
    h ∈ chainRows world.groups gameId maxParentDepth groupId ↔
      ∃ m ≤ maxParentDepth, world.liveAncestor gameId groupId m = some h := by
  rw [List.mem_iff_getElem?]
  constructor
  · rintro ⟨m, hm⟩
    have hlt := (List.getElem?_eq_some_iff.mp hm).1
    have hle : m ≤ maxParentDepth :=
      Nat.le_of_lt_succ (hlt.trans_le (length_chainRows_le world.groups maxParentDepth groupId))
    exact ⟨m, hle, getElem?_chainRows hle ▸ hm⟩
  · rintro ⟨m, hle, hm⟩
    exact ⟨m, (getElem?_chainRows hle).trans hm⟩

end Ancestors

/-! ### The walk over the chain -/

instance instDecidableDecides (result : PermissionCheckResult) : Decidable result.Decides :=
  inferInstanceAs (Decidable (_ ∨ _))

section Walk

variable {κ : Type*} (cache : CheckCache κ) {world : CheckWorld} {gameId userId permission : Text}
  {context : PermissionContext} {ctx : CheckContext}

lemma returns_walkChain_decided (hctx : ctx.Faithful world gameId)
    (hwell : (gameId, userId) ∉ world.malformedUserIds) {g : Text} {before after : List Text}
    (hbefore : ∀ h ∈ before,
      ¬ (world.ownAnswer gameId userId permission context h).Decides)
    (hdecides : (world.ownAnswer gameId userId permission context g).Decides)
    (consulted : List Text) (direct : Option PermissionCheckResult) :
    ∃ ctx', Returns cache world
      (walkChain gameId userId permission context (before ++ g :: after) consulted direct) ctx
      ({ world.ownAnswer gameId userId permission context g with viaGroupId := some g },
        consulted ++ before ++ [g]) ctx' ∧ ctx'.Faithful world gameId := by
  induction before generalizing ctx consulted direct with
  | nil =>
    obtain ⟨ctx₁, hlevel, hctx₁⟩ := returns_resolveLevel cache hctx hwell g permission context
    refine ⟨ctx₁, ?_, hctx₁⟩
    rw [List.nil_append, walkChain, List.append_nil]
    refine Returns.bind hlevel ?_
    have hsource :
        (decide ((world.ownAnswer gameId userId permission context g).source = .override) ||
          decide ((world.ownAnswer gameId userId permission context g).source = .role)) = true := by
      simpa [PermissionCheckResult.Decides] using hdecides
    simp only [hsource, if_true]
    exact Returns.pure _ _
  | cons h before ih =>
    obtain ⟨ctx₁, hlevel, hctx₁⟩ := returns_resolveLevel cache hctx hwell h permission context
    obtain ⟨ctx₂, hrest, hctx₂⟩ := ih hctx₁ (fun h' hh' => hbefore h' (List.mem_cons_of_mem _ hh'))
      (consulted ++ [h]) (direct.or (some (world.ownAnswer gameId userId permission context h)))
    refine ⟨ctx₂, ?_, hctx₂⟩
    rw [List.cons_append, walkChain]
    refine Returns.bind hlevel ?_
    have hsource :
        (decide ((world.ownAnswer gameId userId permission context h).source = .override) ||
          decide ((world.ownAnswer gameId userId permission context h).source = .role))
          = false := by
      simpa [PermissionCheckResult.Decides] using hbefore h List.mem_cons_self
    simp only [hsource]
    simpa using hrest

lemma returns_walkChain_undecided (hctx : ctx.Faithful world gameId)
    (hwell : (gameId, userId) ∉ world.malformedUserIds) {chain : List Text}
    (hnone : ∀ h ∈ chain, ¬ (world.ownAnswer gameId userId permission context h).Decides)
    (consulted : List Text) (direct : Option PermissionCheckResult) :
    ∃ ctx', Returns cache world
      (walkChain gameId userId permission context chain consulted direct) ctx
      ((direct.or (chain.head?.map (world.ownAnswer gameId userId permission context))).getD
        { allowed := false, source := .none }, consulted ++ chain) ctx' ∧
      ctx'.Faithful world gameId := by
  induction chain generalizing ctx consulted direct with
  | nil =>
    refine ⟨ctx, ?_, hctx⟩
    rw [walkChain]
    simpa using @Returns.pure κ cache world _
      (direct.getD { allowed := false, source := .none }, consulted) ctx
  | cons h chain ih =>
    obtain ⟨ctx₁, hlevel, hctx₁⟩ := returns_resolveLevel cache hctx hwell h permission context
    obtain ⟨ctx₂, hrest, hctx₂⟩ := ih hctx₁ (fun h' hh' => hnone h' (List.mem_cons_of_mem _ hh'))
      (consulted ++ [h]) (direct.or (some (world.ownAnswer gameId userId permission context h)))
    refine ⟨ctx₂, ?_, hctx₂⟩
    rw [walkChain]
    refine Returns.bind hlevel ?_
    have hsource :
        (decide ((world.ownAnswer gameId userId permission context h).source = .override) ||
          decide ((world.ownAnswer gameId userId permission context h).source = .role))
          = false := by
      simpa [PermissionCheckResult.Decides] using hnone h List.mem_cons_self
    simp only [hsource]
    simpa [Option.or_assoc] using hrest

/-- Up to the first occurrence of an element repetitions are left out before it only. -/
lemma eraseDups_append_cons {α : Type*} [BEq α] [LawfulBEq α] {g : α} {before : List α}
    (h : g ∉ before) (after : List α) :
    ∃ rest, (before ++ g :: after).eraseDups = before.eraseDups ++ g :: rest := by
  rw [List.eraseDups_append, List.removeAll, List.filter_cons_of_pos (by simpa using h),
    List.eraseDups_cons]
  exact ⟨_, rfl⟩

/-- The walk answers like the nearest group that decides, and consults the groups up to it. -/
lemma returns_resolvePermissionInherited (hctx : ctx.Faithful world gameId) {check : CheckQuery}
    (hlive : (findGroup world.groups gameId check.groupId).isSome)
    (hwell : (gameId, check.userId) ∉ world.malformedUserIds) :
    ∃ result consulted ctx', Returns cache world
      (resolvePermissionInherited gameId check.groupId check.userId check.permission check.context)
      ctx (result, consulted) ctx' ∧ ctx'.Faithful world gameId ∧
      InheritedAnswer world gameId check result consulted := by
  let own := world.ownAnswer gameId check.userId check.permission check.context
  obtain ⟨chain, hchain⟩ : ∃ chain, chain =
      chainRows world.groups gameId maxParentDepth check.groupId := ⟨_, rfl⟩
  have hat : ∀ n ≤ maxParentDepth, chain[n]? = world.liveAncestor gameId check.groupId n :=
    fun n hn => hchain ▸ getElem?_chainRows hn
  have hlength : chain.length ≤ maxParentDepth + 1 := hchain ▸ length_chainRows_le _ _ _
  have hwalked : ∀ result consulted ctx', Returns cache world
      (walkChain gameId check.userId check.permission check.context chain.eraseDups [] none) ctx
      (result, consulted) ctx' → Returns cache world
      (resolvePermissionInherited gameId check.groupId check.userId check.permission check.context)
      ctx (result, consulted) ctx' := by
    intro result consulted ctx' h
    unfold resolvePermissionInherited
    refine Returns.bind (Returns.query _ _ _) ?_
    rw [loadAncestorChain, ← hchain]
    exact h
  cases hfind : chain.find? fun h => decide (own h).Decides with
  | some g =>
    obtain ⟨hdecides, before, after, hsplit, hbefore⟩ := List.find?_eq_some_iff_append.mp hfind
    have hdecides : (own g).Decides := by simpa using hdecides
    have hbefore : ∀ h ∈ before, ¬ (own h).Decides := by simpa using hbefore
    have hn : before.length ≤ maxParentDepth := by
      rw [hsplit, List.length_append, List.length_cons] at hlength
      omega
    have hbelow : ∀ m < before.length,
        world.liveAncestor gameId check.groupId m = before[m]? := by
      intro m hm
      rw [← hat m (hm.le.trans hn), hsplit, List.getElem?_append_left hm]
    have hg : world.liveAncestor gameId check.groupId before.length = some g := by
      rw [← hat _ hn, hsplit]
      simp
    -- The ids of the walk are those of the chain without repetitions.
    obtain ⟨rest, hrest⟩ := eraseDups_append_cons (fun hmem => hbefore g hmem hdecides) after
    obtain ⟨ctx', hwalk, hctx'⟩ := @returns_walkChain_decided κ cache world gameId check.userId
      check.permission check.context ctx hctx hwell g before.eraseDups rest
      (fun h hh => hbefore h (List.mem_eraseDups.mp hh)) hdecides [] none
    rw [← hrest, ← hsplit] at hwalk
    refine ⟨_, _, ctx', hwalked _ _ _ hwalk, hctx',
      InheritedAnswer.decided hn hg hdecides ?_ ?_⟩
    · intro m hm h hh
      rw [hbelow m hm] at hh
      exact hbefore h (List.mem_of_getElem? hh)
    · intro h
      simp only [List.nil_append, List.mem_append, List.mem_eraseDups, List.mem_singleton]
      constructor
      · rintro (hmem | rfl)
        · obtain ⟨m, hm⟩ := List.mem_iff_getElem?.mp hmem
          have hlt := (List.getElem?_eq_some_iff.mp hm).1
          exact ⟨m, hlt.le, (hbelow m hlt).trans hm⟩
        · exact ⟨_, le_rfl, hg⟩
      · rintro ⟨m, hle, hm⟩
        rcases hle.lt_or_eq with hlt | rfl
        · exact Or.inl (List.mem_of_getElem? ((hbelow m hlt).symm.trans hm))
        · exact Or.inr (Option.some.inj (hm.symm.trans hg))
  | none =>
    have hnone : ∀ h ∈ chain, ¬ (own h).Decides := by
      simpa using List.find?_eq_none.mp hfind
    obtain ⟨ctx', hwalk, hctx'⟩ := @returns_walkChain_undecided κ cache world gameId check.userId
      check.permission check.context ctx hctx hwell chain.eraseDups
      (fun h hh => hnone h (List.mem_eraseDups.mp hh)) [] none
    obtain ⟨row, hrow⟩ := Option.isSome_iff_exists.mp hlive
    have hfirst : chain.eraseDups.head? = some check.groupId := by
      have hzero := hat 0 (Nat.zero_le _)
      rw [CheckWorld.liveAncestor, hrow, Option.map_some, id_of_findGroup hrow] at hzero
      obtain ⟨tail, rfl⟩ : ∃ tail, chain = check.groupId :: tail := by
        cases chain with
        | nil => cases hzero
        | cons h tail => exact ⟨tail, by rw [Option.some.inj hzero]⟩
      rw [List.eraseDups_cons]
      rfl
    rw [hfirst] at hwalk
    refine ⟨_, _, ctx', hwalked _ _ _ hwalk, hctx', InheritedAnswer.undecided hlive ?_ ?_⟩
    · intro m hm h hh
      exact hnone h (List.mem_of_getElem? ((hat m hm).trans hh))
    · intro h
      rw [List.nil_append, List.mem_eraseDups, hchain]
      exact mem_chainRows

end Walk

/-! ### Batches -/

lemma liveAncestor_zero {world : CheckWorld} {gameId groupId : Text}
    (h : (findGroup world.groups gameId groupId).isSome) :
    world.liveAncestor gameId groupId 0 = some groupId := by
  obtain ⟨row, hrow⟩ := Option.isSome_iff_exists.mp h
  rw [CheckWorld.liveAncestor, hrow, Option.map_some, id_of_findGroup hrow]

lemma isSome_findGroup_of_liveAncestor {world : CheckWorld} {gameId groupId g : Text} {n : ℕ}
    (h : world.liveAncestor gameId groupId n = some g) :
    (findGroup world.groups gameId groupId).isSome := by
  rw [← Option.ne_none_iff_isSome]
  intro hnone
  have hzero : world.liveAncestor gameId groupId 0 = none := by
    simp [CheckWorld.liveAncestor, hnone]
  rw [liveAncestor_eq_none (Nat.zero_le n) hzero] at h
  cases h

lemma InheritedAnswer.live {world : CheckWorld} {gameId : Text} {check : CheckQuery}
    {result : PermissionCheckResult} {consulted : List Text}
    (h : InheritedAnswer world gameId check result consulted) :
    (findGroup world.groups gameId check.groupId).isSome := by
  cases h with
  | decided hn hg => exact isSome_findGroup_of_liveAncestor hg
  | undecided hlive => exact hlive

/-- The queried group is one of the consulted. -/
lemma InheritedAnswer.mem_consulted {world : CheckWorld} {gameId : Text} {check : CheckQuery}
    {result : PermissionCheckResult} {consulted : List Text}
    (h : InheritedAnswer world gameId check result consulted) : check.groupId ∈ consulted := by
  have hzero := liveAncestor_zero h.live
  cases h with
  | decided hn hg hdecides hfirst hconsulted =>
    exact (hconsulted _).mpr ⟨0, Nat.zero_le _, hzero⟩
  | undecided hlive hnone hconsulted => exact (hconsulted _).mpr ⟨0, Nat.zero_le _, hzero⟩

section Batch

variable {κ : Type*} (cache : CheckCache κ) {world : CheckWorld} {gameId : Text}

/-- The checks of a batch, one after the other. -/
lemma ends_answerAll {checks : List CheckQuery}
    (hchecks : ∀ check ∈ checks, (findGroup world.groups gameId check.groupId).isSome ∧
      (gameId, check.userId) ∉ world.malformedUserIds)
    {ctx : CheckContext} (hctx : ctx.Faithful world gameId) (s : κ) :
    ∃ results ctx' s', Ends cache world s (answerAll gameId true checks) ctx results ctx' s' ∧
      Answered cache world gameId s checks results s' := by
  induction checks generalizing ctx s with
  | nil => exact ⟨[], ctx, s, Returns.pure _ _ s, Answered.nil s⟩
  | cons check checks ih =>
    obtain ⟨hlive, hwell⟩ := hchecks check List.mem_cons_self
    have hrest : ∀ check' ∈ checks, (findGroup world.groups gameId check'.groupId).isSome ∧
        (gameId, check'.userId) ∉ world.malformedUserIds :=
      fun check' h => hchecks check' (List.mem_cons_of_mem _ h)
    -- What is looked up first decides whether the check is resolved.
    obtain ⟨found, s₁, hget⟩ : ∃ found s₁, cache.get s gameId check.groupId check.userId
        check.permission ⟨some true, some (canonicalContextKey (some check.context))⟩
          = (found, s₁) := ⟨_, _, rfl⟩
    have hlookup : Ends cache world s (cacheGet gameId check.groupId check.userId check.permission
        ⟨some true, some (canonicalContextKey (some check.context))⟩) ctx found ctx s₁ := by
      have hexec : cache.exec world s (.get gameId check.groupId check.userId check.permission
          ⟨some true, some (canonicalContextKey (some check.context))⟩) = (found, s₁) := hget
      unfold Ends cacheGet
      rw [Prog.runAlone_op, hexec]
      rfl
    cases found with
    | some cached =>
      obtain ⟨results, ctx', s', hends, hanswered⟩ := ih hrest hctx s₁
      have hfirst : Ends cache world s (answer gameId true check) ctx cached ctx s₁ :=
        hlookup.bind (Returns.pure _ _ s₁)
      refine ⟨cached :: results, ctx', s', ?_, Answered.hit hget hanswered⟩
      rw [answerAll]
      exact hfirst.bind (hends.bind (Returns.pure _ _ s'))
    | none =>
      obtain ⟨result, consulted, ctx₁, hresult, hctx₁, hanswer⟩ :=
        returns_resolvePermissionInherited cache hctx hlive hwell
      have hne : consulted.isEmpty = false := by
        rw [List.isEmpty_eq_false_iff]
        exact List.ne_nil_of_mem hanswer.mem_consulted
      obtain ⟨s₂, hs₂⟩ : ∃ s₂, s₂ = cache.set s₁ gameId check.groupId check.userId
          check.permission result
          { inherit := some true
            context := some (canonicalContextKey (some check.context))
            dependsOn := some consulted } := ⟨_, rfl⟩
      have hfirst : Ends cache world s (answer gameId true check) ctx result ctx₁ s₂ := by
        refine hlookup.bind ?_
        refine Ends.bind (hresult s₁) ?_
        dsimp only
        rw [hne, hs₂]
        rfl
      obtain ⟨results, ctx', s', hends, hanswered⟩ := ih hrest hctx₁ s₂
      refine ⟨result :: results, ctx', s', ?_, Answered.miss hget hanswer (hs₂ ▸ hanswered)⟩
      rw [answerAll]
      exact hfirst.bind (hends.bind (Returns.pure _ _ s'))

lemma CheckContext.faithful_empty (world : CheckWorld) (gameId : Text) :
    CheckContext.Faithful world gameId {} where
  identities := by rintro userId person ⟨⟩
  config := by rintro config ⟨⟩
  loads := by rintro loads ⟨⟩
  levels := by rintro groupId userId permission c result ⟨⟩

/-- A batch is refused as a whole, or each of its checks is answered. -/
lemma checkPermissionBatchHandler_answers (checks : List CheckQuery) (s : κ) :
    (∀ e, batchRefusal world gameId checks = some e →
      (checkPermissionBatchHandler gameId true checks {}).runAlone (cache.exec world) s
        = (.error e, s)) ∧
    (batchRefusal world gameId checks = none → ∃ results ctx' s',
      (checkPermissionBatchHandler gameId true checks {}).runAlone (cache.exec world) s
        = (.ok (results, ctx'), s') ∧ Answered cache world gameId s checks results s') := by
  unfold batchRefusal
  cases hknown : (checks.map fun check =>
      (findGroup world.groups gameId check.groupId).isSome).idxOf? false with
  | some missingIndex =>
    refine ⟨?_, by rintro ⟨⟩⟩
    rintro e ⟨⟩
    refine (?_ : Fails cache world (checkPermissionBatchHandler gameId true checks) {} _) s
    unfold checkPermissionBatchHandler
    refine Returns.bind_fails (Returns.query _ _ _) ?_
    simp only [hknown]
    exact Fails.throw _ _
  | none =>
    have hlive : ∀ check ∈ checks, (findGroup world.groups gameId check.groupId).isSome := by
      intro check hcheck
      rw [List.idxOf?_eq_none_iff] at hknown
      by_contra hdead
      exact hknown (List.mem_map.mpr ⟨check, hcheck, by simpa using hdead⟩)
    cases hbad : (checks.map CheckQuery.userId).find? fun userId =>
        decide ((gameId, userId) ∈ world.malformedUserIds) with
    | some userId =>
      refine ⟨?_, by rintro ⟨⟩⟩
      rintro e ⟨⟩
      have hassert : Fails cache world
          (assertUserIdsWellFormed gameId (checks.map CheckQuery.userId)) {}
          (.badUserId userId) := by
        unfold assertUserIdsWellFormed
        refine Returns.bind_fails (Returns.query _ _ _) ?_
        simp only [hbad]
        exact Fails.throw _ _
      refine (?_ : Fails cache world (checkPermissionBatchHandler gameId true checks) {} _) s
      unfold checkPermissionBatchHandler
      refine Returns.bind_fails (Returns.query _ _ _) ?_
      simp only [hknown]
      exact hassert.bind _
    | none =>
      refine ⟨by rintro e ⟨⟩, fun _ => ?_⟩
      have hwell : ∀ userId ∈ checks.map CheckQuery.userId,
          (gameId, userId) ∉ world.malformedUserIds := by
        simpa using hbad
      have hchecks : ∀ check ∈ checks, (findGroup world.groups gameId check.groupId).isSome ∧
          (gameId, check.userId) ∉ world.malformedUserIds :=
        fun check h => ⟨hlive check h, hwell _ (List.mem_map_of_mem h)⟩
      obtain ⟨ctx₁, hconfig, hctx₁, -⟩ := returns_permissions cache
        (CheckContext.faithful_empty world gameId)
      let loads : MemberLoads :=
        { keys := (checks.flatMap fun check =>
            candidateKeys (world.configOf gameId).mode check.permission).eraseDups
          withContexts := checks.any fun check => !check.context.keys.isEmpty }
      have hctx₂ : CheckContext.Faithful world gameId { ctx₁ with loads := some loads } := by
        refine ⟨hctx₁.identities, hctx₁.config, ?_, hctx₁.levels⟩
        rintro loads ⟨⟩
        exact MemberLoads.faithful_fresh _ _ _
      obtain ⟨results, ctx', s', hends, hanswered⟩ := ends_answerAll cache hchecks hctx₂ s
      refine ⟨results, ctx', s', ?_, hanswered⟩
      change Ends cache world s (checkPermissionBatchHandler gameId true checks) {} results ctx' s'
      unfold checkPermissionBatchHandler
      refine Ends.bind (Returns.query _ _ _ s) ?_
      simp only [hknown]
      refine Ends.bind (returns_assertUserIdsWellFormed cache hwell _ s) ?_
      refine Ends.bind (hconfig s) ?_
      exact Ends.bind (Returns.modify _ _ s) hends

end Batch

/-! ### Changes of one group -/

section Changes

lemma mem_rowsOf_iff {rows : List EntryRow} {owner : Text} {row : EntryRow} :
    row ∈ rowsOf rows owner ↔ row ∈ rows ∧ row.owner = owner := by
  simp [rowsOf]

lemma rowsWithin_contextEntries {rows rows' : List EntryRow} (h : ∀ row ∈ rows, row ∈ rows') :
    RowsWithin (contextEntries rows) (contextEntries rows') := by
  intro entry hentry
  obtain ⟨row, hrow, hrest⟩ := mem_contextEntries.mp hentry
  exact ⟨entry, mem_contextEntries.mpr ⟨row, h row hrow, hrest⟩, rfl, rfl, fun _ => rfl⟩

lemma get?_globalEntries_congr {rows rows' : List EntryRow} (hrows : OwnRows rows)
    (hrows' : OwnRows rows') (h : ∀ row, row ∈ rows ↔ row ∈ rows') (key : Text) :
    (globalEntries rows).get? key = (globalEntries rows').get? key := by
  apply Option.ext
  intro value
  rw [get?_globalEntries hrows, get?_globalEntries hrows']
  simp only [h]

lemma findMember_eq_some_iff {tables : PermissionTables} {groupId junjoUserId : Text}
    {member : GroupMemberRow} :
    tables.findMember groupId junjoUserId = some member ↔
      member ∈ tables.groupMembers ∧ member.groupId = groupId ∧
        member.junjoUserId = junjoUserId := by
  constructor
  · intro h
    have hkeys := List.find?_some h
    simp only [Bool.and_eq_true, decide_eq_true_eq] at hkeys
    exact ⟨List.mem_of_find?_eq_some h, hkeys⟩
  · rintro ⟨hmember, rfl, rfl⟩
    cases hfound : tables.findMember member.groupId member.junjoUserId with
    | none =>
      have hnone := List.find?_eq_none.mp hfound member hmember
      simp at hnone
    | some found =>
      have hkeys := List.find?_some hfound
      simp only [Bool.and_eq_true, decide_eq_true_eq] at hkeys
      rw [List.inj_on_of_nodup_map tables.uniqueMember (List.mem_of_find?_eq_some hfound) hmember
        (Prod.ext hkeys.1 hkeys.2)]

variable {world world' : CheckWorld} {g : Text}

namespace CheckWorld.SameOutside

lemma findMember (h : world.SameOutside world' g) {groupId : Text} (hg : groupId ≠ g)
    (junjoUserId : Text) :
    world'.tables.findMember groupId junjoUserId = world.tables.findMember groupId junjoUserId := by
  apply Option.ext
  intro member
  rw [findMember_eq_some_iff, findMember_eq_some_iff]
  constructor
  · rintro ⟨hmember, rfl, hperson⟩
    exact ⟨(h.members member hg).mp hmember, rfl, hperson⟩
  · rintro ⟨hmember, rfl, hperson⟩
    exact ⟨(h.members member hg).mpr hmember, rfl, hperson⟩

lemma sameRole (h : world.SameOutside world' g) {role : RoleRow}
    (hrole : role ∈ world.tables.roles) (hg : role.groupId ≠ g) :
    (resolverRole world.tables.rolePermissions world.tables.roleParents role.id
        role.priority).SameRole
      (resolverRole world'.tables.rolePermissions world'.tables.roleParents role.id
        role.priority) := by
  have hrows : ∀ row, row ∈ rowsOf world.tables.rolePermissions role.id ↔
      row ∈ rowsOf world'.tables.rolePermissions role.id := by
    intro row
    rw [mem_rowsOf_iff, mem_rowsOf_iff]
    exact and_congr_left fun howner => (h.rolePermissions role hrole hg row howner).symm
  refine ⟨rfl, ?_, ?_, ?_, ?_⟩
  · exact get?_globalEntries_congr (ownRows_rowsOf world.tables.uniqueRolePermission role.id)
      (ownRows_rowsOf world'.tables.uniqueRolePermission role.id) hrows
  · exact rowsWithin_contextEntries fun row => (hrows row).mp
  · exact rowsWithin_contextEntries fun row => (hrows row).mpr
  · intro id
    simp only [resolverRole, List.mem_map, List.mem_filter, decide_eq_true_eq]
    constructor
    · rintro ⟨row, ⟨hrow, hid⟩, rfl⟩
      exact ⟨row, ⟨(h.roleParents role hrole hg row hid).mpr hrow, hid⟩, rfl⟩
    · rintro ⟨row, ⟨hrow, hid⟩, rfl⟩
      exact ⟨row, ⟨(h.roleParents role hrole hg row hid).mp hrow, hid⟩, rfl⟩

/-- The complete data of another group has the same rows. -/
lemma sameRows (h : world.SameOutside world' g) {member : GroupMemberRow}
    (hmember : member ∈ world.tables.groupMembers) (hg : member.groupId ≠ g)
    (config : GameConfigPermissions) (context : PermissionContext) :
    (world.tables.completeInput config member context).SameRows
      (world'.tables.completeInput config member context) := by
  have hoverrides : ∀ row, row ∈ rowsOf world.tables.overrides member.id ↔
      row ∈ rowsOf world'.tables.overrides member.id := by
    intro row
    rw [mem_rowsOf_iff, mem_rowsOf_iff]
    exact and_congr_left fun howner => (h.overrides member hmember hg row howner).symm
  refine ⟨rfl, ?_, ?_, ?_, ?_, ?_, ?_, fun _ => rfl, fun _ _ _ => Iff.rfl⟩
  · exact get?_globalEntries_congr (ownRows_rowsOf world.tables.uniqueOverride member.id)
      (ownRows_rowsOf world'.tables.uniqueOverride member.id) hoverrides
  · exact rowsWithin_contextEntries fun row => (hoverrides row).mp
  · exact rowsWithin_contextEntries fun row => (hoverrides row).mpr
  · intro id
    simp only [PermissionTables.completeInput, PermissionTables.memberRoleIds, List.mem_map,
      List.mem_filter, decide_eq_true_eq]
    constructor
    · rintro ⟨row, ⟨hrow, hid⟩, rfl⟩
      exact ⟨row, ⟨(h.memberRoles member hmember hg row hid).mpr hrow, hid⟩, rfl⟩
    · rintro ⟨row, ⟨hrow, hid⟩, rfl⟩
      exact ⟨row, ⟨(h.memberRoles member hmember hg row hid).mp hrow, hid⟩, rfl⟩
  · intro id
    rw [PermissionTables.mem_keys_completeInput_roles,
      PermissionTables.mem_keys_completeInput_roles]
    constructor
    · rintro ⟨row, hrow, hgroup, hid⟩
      exact ⟨row, (h.roles row (hgroup ▸ hg)).mpr hrow, hgroup, hid⟩
    · rintro ⟨row, hrow, hgroup, hid⟩
      exact ⟨row, (h.roles row (hgroup ▸ hg)).mp hrow, hgroup, hid⟩
  · intro id role role' hrole hrole'
    obtain ⟨row, hrow, hgroup, rfl, rfl⟩ := PermissionTables.get?_completeInput_roles.mp hrole
    obtain ⟨row', hrow', hgroup', hid, rfl⟩ := PermissionTables.get?_completeInput_roles.mp hrole'
    have hstored := (h.roles row' (hgroup' ▸ hg)).mp hrow'
    obtain rfl : row' = row := List.inj_on_of_nodup_map world.tables.uniqueRole hstored hrow hid
    exact h.sameRole hrow (hgroup ▸ hg)

/-- The own answers of other groups stay. -/
lemma ownAnswer (h : world.SameOutside world' g) {groupId : Text} (hg : groupId ≠ g)
    (gameId userId permission : Text) (context : PermissionContext) :
    world'.ownAnswer gameId userId permission context groupId =
      world.ownAnswer gameId userId permission context groupId := by
  have hperson : world'.personOf gameId userId = world.personOf gameId userId := by
    rw [personOf, h.identities, personOf]
  have hconfig : world'.configOf gameId = world.configOf gameId := by
    rw [configOf, h.permissionConfigs, configOf]
  unfold CheckWorld.ownAnswer completeAnswer
  rw [hperson, hconfig]
  cases world.personOf gameId userId with
  | none => rfl
  | some junjoUserId =>
    dsimp only
    rw [h.findMember hg]
    cases hmember : world.tables.findMember groupId junjoUserId with
    | none => rfl
    | some member =>
      obtain ⟨hrow, rfl⟩ := findMember_eq_some hmember
      simp only [resolveMemberPermission_congr (h.sameRows hrow hg _ context)]

/-- Up to a bound the chain stays when the changed group is none of it and does not come back as
a parent of one of it. -/
lemma liveAncestor (h : world.SameOutside world' g) {gameId groupId : Text} {n : ℕ}
    {consulted : List Text}
    (hconsulted : ∀ id, id ∈ consulted ↔ ∃ m ≤ n, world.liveAncestor gameId groupId m = some id)
    (hlive : (findGroup world.groups gameId groupId).isSome) (hg : g ∉ consulted)
    (hrestores : ¬ world.Restores world' gameId consulted g) {m : ℕ} (hm : m ≤ n) :
    world'.liveAncestor gameId groupId m = world.liveAncestor gameId groupId m := by
  induction m with
  | zero =>
    have hmem : groupId ∈ consulted :=
      (hconsulted groupId).mpr ⟨0, Nat.zero_le _, liveAncestor_zero hlive⟩
    rw [CheckWorld.liveAncestor, CheckWorld.liveAncestor,
      h.groups gameId groupId (ne_of_mem_of_not_mem hmem hg)]
  | succ m ih =>
    rw [CheckWorld.liveAncestor, CheckWorld.liveAncestor, ih (Nat.le_of_succ_le hm)]
    cases hat : world.liveAncestor gameId groupId m with
    | none => rfl
    | some id =>
      have hmem : id ∈ consulted := (hconsulted id).mpr ⟨m, Nat.le_of_succ_le hm, hat⟩
      simp only [Option.bind_eq_bind, Option.bind_some,
        h.groups gameId id (ne_of_mem_of_not_mem hmem hg)]
      cases hrow : findGroup world.groups gameId id with
      | none => rfl
      | some row =>
        cases hparent : row.parentGroupId with
        | none => simp [hparent]
        | some parent =>
          simp only [Option.bind_some, hparent]
          by_cases hne : parent = g
          · subst hne
            cases hfound : findGroup world.groups gameId parent with
            | some above =>
              have hnext : world.liveAncestor gameId groupId (m + 1) = some parent := by
                simp [CheckWorld.liveAncestor, hat, hrow, hparent, hfound, id_of_findGroup hfound]
              exact absurd ((hconsulted parent).mpr ⟨m + 1, hm, hnext⟩) hg
            | none =>
              cases hfound' : findGroup world'.groups gameId parent with
              | none => rfl
              | some above =>
                exact absurd ⟨hfound, by rw [hfound']; rfl, id, hmem, row, hrow, hparent⟩ hrestores
          · rw [h.groups gameId parent hne]

end CheckWorld.SameOutside

/-- A change outside the consulted groups leaves the answer and the groups it depends on, unless
it restores a parent of one of them. -/
lemma InheritedAnswer.of_sameOutside (h : world.SameOutside world' g) {gameId : Text}
    {check : CheckQuery} {result : PermissionCheckResult} {consulted : List Text}
    (hanswer : InheritedAnswer world gameId check result consulted) (hg : g ∉ consulted)
    (hrestores : ¬ world.Restores world' gameId consulted g) :
    InheritedAnswer world' gameId check result consulted := by
  have hlive := hanswer.live
  have hlive' : (findGroup world'.groups gameId check.groupId).isSome := by
    rw [h.groups gameId check.groupId (ne_of_mem_of_not_mem hanswer.mem_consulted hg)]
    exact hlive
  cases hanswer with
  | @decided n via consulted hn hvia hdecides hfirst hconsulted =>
    have hsame : ∀ m ≤ n, world'.liveAncestor gameId check.groupId m =
        world.liveAncestor gameId check.groupId m :=
      fun m hm => h.liveAncestor hconsulted hlive hg hrestores hm
    have hown : ∀ id ∈ consulted, world'.ownAnswer gameId check.userId check.permission
        check.context id = world.ownAnswer gameId check.userId check.permission check.context id :=
      fun id hid => h.ownAnswer (ne_of_mem_of_not_mem hid hg) _ _ _ _
    have hmem : via ∈ consulted := (hconsulted via).mpr ⟨n, le_rfl, hvia⟩
    rw [← hown via hmem] at hdecides ⊢
    refine InheritedAnswer.decided hn ((hsame n le_rfl).trans hvia) hdecides ?_ ?_
    · intro m hm id hid
      rw [hsame m hm.le] at hid
      rw [hown id ((hconsulted id).mpr ⟨m, hm.le, hid⟩)]
      exact hfirst m hm id hid
    · intro id
      rw [hconsulted id]
      exact exists_congr fun m => and_congr_right fun hm => by rw [hsame m hm]
  | @undecided consulted _ hnone hconsulted =>
    have hsame : ∀ m ≤ maxParentDepth, world'.liveAncestor gameId check.groupId m =
        world.liveAncestor gameId check.groupId m :=
      fun m hm => h.liveAncestor hconsulted hlive hg hrestores hm
    have hown : ∀ id ∈ consulted, world'.ownAnswer gameId check.userId check.permission
        check.context id = world.ownAnswer gameId check.userId check.permission check.context id :=
      fun id hid => h.ownAnswer (ne_of_mem_of_not_mem hid hg) _ _ _ _
    have hmem : check.groupId ∈ consulted :=
      (hconsulted _).mpr ⟨0, Nat.zero_le _, liveAncestor_zero hlive⟩
    rw [← hown check.groupId hmem]
    refine InheritedAnswer.undecided hlive' ?_ ?_
    · intro m hm id hid
      rw [hsame m hm] at hid
      rw [hown id ((hconsulted id).mpr ⟨m, hm, hid⟩)]
      exact hnone m hm id hid
    · intro id
      rw [hconsulted id]
      exact exists_congr fun m => and_congr_right fun hm => by rw [hsame m hm]

/-- There is one inherited answer. -/
lemma InheritedAnswer.unique {gameId : Text} {check : CheckQuery}
    {result result' : PermissionCheckResult} {consulted consulted' : List Text}
    (h : InheritedAnswer world gameId check result consulted)
    (h' : InheritedAnswer world gameId check result' consulted') :
    result' = result ∧ ∀ id, id ∈ consulted' ↔ id ∈ consulted := by
  cases h with
  | @decided n via _ hn hvia hdecides hfirst hconsulted =>
    cases h' with
    | @decided n' via' _ hn' hvia' hdecides' hfirst' hconsulted' =>
      obtain rfl : n' = n := by
        rcases Nat.lt_trichotomy n' n with hlt | heq | hlt
        · exact absurd hdecides' (hfirst n' hlt via' hvia')
        · exact heq
        · exact absurd hdecides (hfirst' n hlt via hvia)
      obtain rfl : via' = via := Option.some.inj (hvia'.symm.trans hvia)
      exact ⟨rfl, fun id => by rw [hconsulted, hconsulted']⟩
    | undecided hlive' hnone' hconsulted' => exact absurd hdecides (hnone' n hn via hvia)
  | undecided hlive hnone hconsulted =>
    cases h' with
    | @decided n' via' _ hn' hvia' hdecides' hfirst' hconsulted' =>
      exact absurd hdecides' (hnone n' hn' via' hvia')
    | undecided hlive' hnone' hconsulted' =>
      exact ⟨rfl, fun id => by rw [hconsulted, hconsulted']⟩

end Changes

/-! ### Inherited checks -/

/-- A cache that holds nothing and keeps what is stored, with the groups it is stored under. -/
private def storedLog : CheckCache (List (PermissionCheckResult × Option (List Text))) where
  get s _ _ _ _ _ := (none, s)
  set s _ _ _ _ result opts := s ++ [(result, opts.dependsOn)]

/-- What a batch of one check stores. -/
private def storedFor (world : CheckWorld) (groupId : Text) :
    List (PermissionCheckResult × Option (List Text)) :=
  ((checkPermissionBatchHandler (text "g") true
    [⟨groupId, text "u", text "kick", Dict.empty⟩] {}).runAlone (storedLog.exec world) []).2

private lemma canonical_kick : ([] : Text) = canonicalContextKey none := rfl

private lemma nodup_noEntries : ([] : List (Text × Text × Text)).Nodup := List.nodup_nil

private lemma nodup_kick : [(text "m", text "kick", ([] : Text))].Nodup := List.nodup_singleton _

/-- A member of one group with an override, and any groups. -/
private def kicker (groupId : Text) (groups : List GroupRow) : CheckWorld where
  tables :=
    { groupMembers := [⟨text "m", groupId, text "j", .active⟩]
      roles := []
      rolePermissions := []
      overrides := [⟨text "m", text "kick", true, none, [], canonical_kick⟩]
      roleParents := []
      memberRoles := []
      memberId := List.nodup_singleton _
      uniqueMember := List.nodup_singleton _
      uniqueRole := List.nodup_nil
      uniqueRolePermission := nodup_noEntries
      uniqueOverride := nodup_kick }
  groups := groups
  identities := [⟨text "g", text "u", text "j"⟩]
  permissionConfigs := Dict.empty
  malformedUserIds := []

/-- A group and its parent, deleted or not. -/
private def underDeleted (softDeleted : Bool) : CheckWorld :=
  kicker (text "b") [⟨text "a", text "g", some (text "b"), false⟩,
    ⟨text "b", text "g", none, softDeleted⟩]

/-- A line of live groups, each with the next one as its parent. -/
private def groupLine : ℕ → List GroupRow
  | 0 => []
  | n + 1 => ⟨decimal (n + 1), text "g", some (decimal n), false⟩ :: groupLine n

private lemma sameOutside_underDeleted :
    (underDeleted true).SameOutside (underDeleted false) (text "b") where
  groups gameId id hne := by
    have hb : ¬ text "b" = id := Ne.symm hne
    simp [underDeleted, kicker, findGroup, List.find?, hb]
  members _ _ := Iff.rfl
  roles _ _ := Iff.rfl
  rolePermissions _ _ _ _ _ := Iff.rfl
  roleParents _ _ _ _ _ := Iff.rfl
  overrides _ _ _ _ _ := Iff.rfl
  memberRoles _ _ _ _ _ := Iff.rfl
  identities := rfl
  permissionConfigs := rfl

/-- The line under a root that the member belongs to. -/
private def kickerLine (n : ℕ) : CheckWorld :=
  kicker (decimal 0) (⟨decimal 0, text "g", none, false⟩ :: groupLine n)

private lemma findGroup_cons_of_ne {row : GroupRow} {rows : List GroupRow} {gameId id : Text}
    (h : row.id ≠ id) : findGroup (row :: rows) gameId id = findGroup rows gameId id :=
  List.find?_cons_of_neg (by simp [h])

private lemma findGroup_groupLine {k n : ℕ} (h : k < n) :
    findGroup (groupLine n) (text "g") (decimal (k + 1))
      = some ⟨decimal (k + 1), text "g", some (decimal k), false⟩ := by
  induction n with
  | zero => exact absurd h (Nat.not_lt_zero k)
  | succ n ih =>
    rcases Nat.lt_succ_iff_lt_or_eq.mp h with hlt | rfl
    · have hne : decimal (n + 1) ≠ decimal (k + 1) := fun heq => by
        have := decimal_injective heq
        omega
      rw [groupLine, findGroup_cons_of_ne hne, ih hlt]
    · rw [groupLine, findGroup, List.find?_cons_of_pos (by simp)]

private lemma findGroup_kickerLine {k n : ℕ} (h : k < n) :
    findGroup (kickerLine n).groups (text "g") (decimal (k + 1))
      = some ⟨decimal (k + 1), text "g", some (decimal k), false⟩ := by
  have hne : decimal 0 ≠ decimal (k + 1) := fun heq => Nat.succ_ne_zero k (decimal_injective heq).symm
  rw [kickerLine, kicker, findGroup_cons_of_ne hne, findGroup_groupLine h]

private lemma liveAncestor_kickerLine {k m n : ℕ} (h : k + m ≤ n) :
    (kickerLine n).liveAncestor (text "g") (decimal (k + m)) m = some (decimal k) := by
  induction m with
  | zero =>
    refine liveAncestor_zero ?_
    cases k with
    | zero => rfl
    | succ k =>
      rw [Nat.add_zero, findGroup_kickerLine (by omega)]
      rfl
  | succ m ih =>
    have hrow := findGroup_kickerLine (show k + m < n by omega)
    rw [← Nat.add_assoc, liveAncestor_succ_of_parent hrow rfl, ih (by omega)]

private lemma ownAnswer_kickerLine {k : ℕ} (hk : 0 < k) (n : ℕ) :
    (kickerLine n).ownAnswer (text "g") (text "u") (text "kick") Dict.empty (decimal k)
      = { allowed := false, source := .none } := by
  have hperson : (kickerLine n).personOf (text "g") (text "u") = some (text "j") := rfl
  have hmember : (kickerLine n).tables.findMember (decimal k) (text "j") = none := by
    cases hfound : (kickerLine n).tables.findMember (decimal k) (text "j") with
    | none => rfl
    | some member =>
      obtain ⟨hmem, hgroup, -⟩ := findMember_eq_some_iff.mp hfound
      rw [List.mem_singleton.mp hmem] at hgroup
      exact absurd (decimal_injective hgroup) hk.ne
  rw [CheckWorld.ownAnswer, hperson]
  dsimp only
  rw [completeAnswer, hmember]

/-- Each group that the walk reaches has no answer of its own. -/
private lemma storedFor_kickerLine :
    (storedFor (kickerLine 101) (decimal 101)).map Prod.fst
      = [{ allowed := false, source := .none }] := by
  have hlive : (findGroup (kickerLine 101).groups (text "g") (decimal 101)).isSome := by
    rw [findGroup_kickerLine (show 100 < 101 by omega)]
    rfl
  have hrefusal : batchRefusal (kickerLine 101) (text "g")
      [⟨decimal 101, text "u", text "kick", Dict.empty⟩] = none := by
    simp only [batchRefusal, List.map_cons, List.map_nil, hlive]
    rfl
  obtain ⟨results, ctx', s', hrun, hanswered⟩ :=
    (checkPermissionBatchHandler_answers storedLog _ []).2 hrefusal
  rw [storedFor, hrun]
  cases hanswered with
  | hit hget _ => cases hget
  | @miss _ _ _ _ _ result _ consulted hget hanswer hrest =>
    cases hrest
    have hresult : result = { allowed := false, source := .none } := by
      cases hanswer with
      | @decided m g _ hm hg hdecides hfirst hconsulted =>
        rw [maxParentDepth] at hm
        have hancestor := liveAncestor_kickerLine (show (101 - m) + m ≤ 101 by omega)
        rw [Nat.sub_add_cancel (by omega)] at hancestor
        obtain rfl := Option.some.inj (hancestor.symm.trans hg)
        rw [ownAnswer_kickerLine (show 0 < 101 - m by omega)] at hdecides
        exact absurd hdecides (by simp [PermissionCheckResult.Decides])
      | undecided hlive hnone hconsulted => exact ownAnswer_kickerLine (show 0 < 101 by omega) 101
    rw [hresult]
    cases hget
    rfl

/-- Restoring a deleted parent changes the answer of a check that does not depend on it, and a
group more than `maxParentDepth` links up does not answer although it alone decides. -/
theorem restored_parent_not_consulted :
    ((underDeleted true).SameOutside (underDeleted false) (text "b") ∧
      storedFor (underDeleted true) (text "a") =
        [({ allowed := false, source := .none }, some [text "a"])] ∧
      storedFor (underDeleted false) (text "a") =
        [({ allowed := true, source := .override, viaGroupId := some (text "b") },
          some [text "a", text "b"])]) ∧
    ((kicker (decimal 0) (⟨decimal 0, text "g", none, false⟩ :: groupLine 101)).liveAncestor
        (text "g") (decimal 101) 101 = some (decimal 0) ∧
      ((kicker (decimal 0) (⟨decimal 0, text "g", none, false⟩ :: groupLine 101)).ownAnswer
        (text "g") (text "u") (text "kick") Dict.empty (decimal 0)).Decides ∧
      (storedFor (kicker (decimal 0) (⟨decimal 0, text "g", none, false⟩ :: groupLine 101))
        (decimal 101)).map Prod.fst = [{ allowed := false, source := .none }]) := by
  refine ⟨⟨sameOutside_underDeleted, ?_, ?_⟩, ?_, ?_, storedFor_kickerLine⟩
  · decide
  · decide
  · exact liveAncestor_kickerLine (k := 0) (m := 101) le_rfl
  · decide

/-- A batch of inherited checks over a database that stays as it is: each check that the cache
does not answer has the answer of the nearest live group that decides, at most `maxParentDepth`
links up, else of its own group. It is stored under groups outside of which no change of a single
group matters, other than restoring a deleted parent of one of them. -/
theorem checkPermissionBatchHandler_inherited :
    (∀ {κ : Type} (cache : CheckCache κ) (world : CheckWorld) (gameId : Text)
      (checks : List CheckQuery) (s : κ),
      (∀ e, batchRefusal world gameId checks = some e →
        (checkPermissionBatchHandler gameId true checks {}).runAlone (cache.exec world) s
          = (.error e, s)) ∧
      (batchRefusal world gameId checks = none → ∃ results ctx' s',
        (checkPermissionBatchHandler gameId true checks {}).runAlone (cache.exec world) s
          = (.ok (results, ctx'), s') ∧ Answered cache world gameId s checks results s')) ∧
    (∀ (world : CheckWorld) (gameId : Text) (check : CheckQuery)
      (result result' : PermissionCheckResult) (consulted consulted' : List Text),
      InheritedAnswer world gameId check result consulted →
      InheritedAnswer world gameId check result' consulted' → result' = result) ∧
    ∀ (world world' : CheckWorld) (g gameId : Text) (check : CheckQuery)
      (result : PermissionCheckResult) (consulted : List Text),
      world.SameOutside world' g → InheritedAnswer world gameId check result consulted →
      g ∉ consulted → ¬ world.Restores world' gameId consulted g →
      InheritedAnswer world' gameId check result consulted := by
  refine ⟨?_, ?_, ?_⟩
  · intro κ cache world gameId checks s
    exact checkPermissionBatchHandler_answers cache checks s
  · intro world gameId check result result' consulted consulted' h h'
    exact (h.unique h').1
  · intro world world' g gameId check result consulted h hanswer hg hrestores
    exact hanswer.of_sameOutside h hg hrestores

/-- The deleted parent gets a parent of its own: nothing changes for the group under it. -/
theorem checkPermissionBatchHandler_inherited_deleted_parent :
    (∃ results ctx' s', (checkPermissionBatchHandler (text "g") true
        [⟨text "a", text "u", text "kick", Dict.empty⟩] {}).runAlone
          (storedLog.exec (underDeleted true)) [] = (.ok (results, ctx'), s') ∧
        Answered storedLog (underDeleted true) (text "g") []
          [⟨text "a", text "u", text "kick", Dict.empty⟩] results s') ∧
    InheritedAnswer (kicker (text "b") [⟨text "a", text "g", some (text "b"), false⟩,
        ⟨text "b", text "g", some (text "a"), true⟩]) (text "g")
      ⟨text "a", text "u", text "kick", Dict.empty⟩ { allowed := false, source := .none }
      [text "a"] := by
  obtain ⟨hbatch, hunique, hchange⟩ := checkPermissionBatchHandler_inherited
  refine ⟨(hbatch storedLog (underDeleted true) (text "g")
    [⟨text "a", text "u", text "kick", Dict.empty⟩] []).2 (by decide), ?_⟩
  have hzero : (underDeleted true).liveAncestor (text "g") (text "a") 0 = some (text "a") := by
    decide
  have hone : (underDeleted true).liveAncestor (text "g") (text "a") 1 = none := by
    decide
  have honly : ∀ m h, (underDeleted true).liveAncestor (text "g") (text "a") m = some h →
      h = text "a" := by
    intro m h hm
    cases m with
    | zero => exact Option.some.inj (hm.symm.trans hzero)
    | succ m =>
      rw [liveAncestor_eq_none (Nat.succ_le_succ (Nat.zero_le m)) hone] at hm
      cases hm
  have hown : (underDeleted true).ownAnswer (text "g") (text "u") (text "kick") Dict.empty
      (text "a") = { allowed := false, source := .none } := by decide
  have hanswer : InheritedAnswer (underDeleted true) (text "g")
      ⟨text "a", text "u", text "kick", Dict.empty⟩
      ((underDeleted true).ownAnswer (text "g") (text "u") (text "kick") Dict.empty (text "a"))
      [text "a"] := by
    refine InheritedAnswer.undecided (by decide) ?_ ?_
    · intro m _ h hm
      rw [honly m h hm, hown]
      decide
    · intro h
      rw [List.mem_singleton]
      constructor
      · rintro rfl
        exact ⟨0, Nat.zero_le _, hzero⟩
      · rintro ⟨m, -, hm⟩
        exact honly m h hm
  rw [hown] at hanswer
  refine hchange (underDeleted true) _ (text "b") (text "g") _ _ _ ?_ hanswer (by decide) ?_
  · refine ⟨?_, fun _ _ => Iff.rfl, fun _ _ => Iff.rfl, fun _ _ _ _ _ => Iff.rfl,
      fun _ _ _ _ _ => Iff.rfl, fun _ _ _ _ _ => Iff.rfl, fun _ _ _ _ _ => Iff.rfl, rfl, rfl⟩
    intro gameId id hne
    have hb : ¬ text "b" = id := Ne.symm hne
    simp [underDeleted, kicker, findGroup, List.find?, hb]
  · rintro ⟨-, hback, -⟩
    revert hback
    decide

end Junjo
