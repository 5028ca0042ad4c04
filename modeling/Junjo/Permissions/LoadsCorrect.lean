import Junjo.Permissions.Loads

/-!
# Filtered reads answer like complete ones

Each row that the filtered reads drop cannot decide the check: its key is no candidate, its
context cannot apply, its role cannot be reached, or an override decided first. Shared loads
answer what the tables hold, so a batch answers each check as if it were alone.
-/

namespace Junjo

open PermissionTables

section Rows

variable {candidates : List Text} {check : PermissionContext} {contexts : ContextInheritance}

/-- A filter that keeps the rows of a check: those of its candidates, and contextual ones when
the check has a context. -/
def KeepsRows (candidates : List Text) (check : PermissionContext) (keep : EntryRow → Bool) :
    Prop :=
  ∀ row : EntryRow, row.permissionKey ∈ candidates → (row.contextKey = [] ∨ check.keys ≠ []) →
    keep row = true

/-- Rows a check cannot use may be dropped. -/
lemma sourceApplies_filter {keep : EntryRow → Bool} (hkeep : KeepsRows candidates check keep)
    {rows : List EntryRow} (h : OwnRows rows) {value : Bool} {context : Option PermissionContext}
    {score : Score} :
    SourceApplies (globalEntries (rows.filter keep)) (contextEntries (rows.filter keep)) candidates
        check contexts value context score ↔
      SourceApplies (globalEntries rows) (contextEntries rows) candidates check contexts value
        context score := by
  have hfilter : OwnRows (rows.filter keep) := h.sublist (List.filter_sublist.map _)
  rw [sourceApplies_iff hfilter, sourceApplies_iff h]
  constructor
  · rintro ⟨row, hrow, hrest⟩
    exact ⟨row, (List.mem_filter.mp hrow).1, hrest⟩
  · rintro ⟨row, hrow, hvalue, hcontext, hcandidate, happlies⟩
    refine ⟨row, List.mem_filter.mpr ⟨hrow, ?_⟩, hvalue, hcontext, hcandidate, happlies⟩
    refine hkeep row (List.mem_of_getElem? hcandidate) ?_
    cases context with
    | none => exact Or.inl (EntryRow.entryContext_eq_none.mp hcontext)
    | some c =>
      refine Or.inr fun hnil => ?_
      exact @not_contextApplies_of_keys_nil _ _ ⟨row.permissionKey, row.value, c,
        EntryRow.keys_entryContext_ne_nil hcontext⟩ _ _ hnil happlies

end Rows

/-! ### Reachable roles -/

section Reach

variable {tables : PermissionTables} {config : GameConfigPermissions} {member : GroupMemberRow}
  {context : PermissionContext}

/-- The parent relation of the complete data. -/
private abbrev Inherits (tables : PermissionTables) (config : GameConfigPermissions)
    (member : GroupMemberRow) (context : PermissionContext) : Text → Text → Prop :=
  InheritsFrom (tables.completeInput config member context).roles

private abbrev Held (tables : PermissionTables) (config : GameConfigPermissions)
    (member : GroupMemberRow) (context : PermissionContext) : Set Text :=
  heldRoles (tables.completeInput config member context)

private lemma inGroup_iff {groupId id : Text} :
    tables.inGroup groupId id = true ↔ ∃ row ∈ tables.roles, row.groupId = groupId ∧ row.id = id := by
  simp only [inGroup, List.any_eq_true, Bool.and_eq_true, decide_eq_true_eq]
  constructor
  · rintro ⟨row, hrow, hid, hgroup⟩
    exact ⟨row, hrow, hgroup, hid⟩
  · rintro ⟨row, hrow, hgroup, hid⟩
    exact ⟨row, hrow, hid, hgroup⟩

private lemma inherits_iff {id parent : Text} :
    Inherits tables config member context id parent ↔
      tables.inGroup member.groupId id = true ∧ parent ∈ tables.parentIds id ∧
        tables.inGroup member.groupId parent = true := by
  unfold Inherits InheritsFrom
  simp only [get?_completeInput_roles, mem_keys_completeInput_roles, inGroup_iff]
  constructor
  · rintro ⟨_, ⟨row, hrow, hgroup, hid, rfl⟩, hparent, hkey⟩
    exact ⟨⟨row, hrow, hgroup, hid⟩, hparent, hkey⟩
  · rintro ⟨⟨row, hrow, hgroup, hid⟩, hparent, hkey⟩
    exact ⟨_, ⟨row, hrow, hgroup, hid, rfl⟩, hparent, hkey⟩

private lemma inGroup_of_mem_reachLevel {d : ℕ} {id : Text}
    (h : id ∈ tables.reachLevel member.groupId member.id d) :
    tables.inGroup member.groupId id = true := by
  cases d with
  | zero => exact (List.mem_filter.mp (List.mem_eraseDups.mp h)).2
  | succ d =>
    obtain ⟨x, -, hx⟩ := List.mem_flatMap.mp (List.mem_eraseDups.mp h)
    exact (List.mem_filter.mp hx).2

/-- The levels of the query hold the ends of the walks from the held roles. -/
private lemma mem_reachLevel {d : ℕ} {id : Text} :
    id ∈ tables.reachLevel member.groupId member.id d ↔
      id ∈ WalkTo (Inherits tables config member context) (Held tables config member context) d := by
  induction d generalizing id with
  | zero =>
    rw [reachLevel, List.mem_eraseDups, List.mem_filter, inGroup_iff]
    change _ ↔ id ∈ tables.memberRoleIds member.id ∧
      id ∈ (tables.completeInput config member context).roles.keys
    rw [mem_keys_completeInput_roles]
  | succ d ih =>
    rw [reachLevel, List.mem_eraseDups, List.mem_flatMap]
    simp only [List.mem_filter]
    constructor
    · rintro ⟨x, hx, hparent, hin⟩
      exact ⟨x, ih.mp hx, inherits_iff.mpr ⟨inGroup_of_mem_reachLevel hx, hparent, hin⟩⟩
    · rintro ⟨x, hx, hinherits⟩
      obtain ⟨-, hparent, hin⟩ := inherits_iff.mp hinherits
      exact ⟨x, ih.mpr hx, hparent, hin⟩

/-- The reachable roles are those at a distance within the bound. -/
private lemma mem_loadReachableRoles {row : ReachableRole} :
    row ∈ tables.loadReachableRoles member.groupId member.id ↔
      (∃ role ∈ tables.roles, role.id = row.id ∧ role.priority = row.priority) ∧
        row.depth ≤ maxRoleDepth ∧ AtDistance (Inherits tables config member context)
          (Held tables config member context) row.depth row.id := by
  have hfind : ∀ id depth, (List.range (maxRoleDepth + 1)).find? (fun depth =>
      decide (id ∈ tables.reachLevel member.groupId member.id depth)) = some depth ↔
      depth ≤ maxRoleDepth ∧ AtDistance (Inherits tables config member context)
        (Held tables config member context) depth id := by
    intro id depth
    rw [List.find?_range_eq_some]
    simp only [decide_eq_true_eq, List.mem_range, Bool.not_eq_true', decide_eq_false_iff_not,
      AtDistance, ← mem_reachLevel, Nat.lt_succ_iff]
    constructor
    · rintro ⟨hmem, hle, hmin⟩
      exact ⟨hle, hmem, hmin⟩
    · rintro ⟨hle, hmem, hmin⟩
      exact ⟨hmem, hle, hmin⟩
  obtain ⟨id, priority, depth⟩ := row
  simp only [loadReachableRoles, List.mem_filterMap, Option.map_eq_some_iff,
    ReachableRole.mk.injEq, hfind]
  constructor
  · rintro ⟨role, hrole, d, hd, rfl, rfl, rfl⟩
    exact ⟨⟨role, hrole, rfl, rfl⟩, hd⟩
  · rintro ⟨⟨role, hrole, rfl, rfl⟩, hd⟩
    exact ⟨role, hrole, depth, hd, rfl, rfl, rfl⟩

/-! ### The inputs from filtered reads -/

variable {loads : MemberLoads} {permission : Text}

/-- The loads keep the rows that the check can use. -/
def MemberLoads.Covers (loads : MemberLoads) (config : GameConfigPermissions) (permission : Text)
    (context : PermissionContext) : Prop :=
  loads.covers (candidateKeys config.mode permission) (!context.keys.isEmpty) = true

private lemma keepsRows_filter (h : loads.Covers config permission context) :
    KeepsRows (candidateKeys config.mode permission) context loads.filter := by
  intro row hkey hcontext
  unfold MemberLoads.Covers MemberLoads.covers at h
  split_ifs at h with hmissing
  rw [List.all_eq_true] at h
  have hkeys := h row.permissionKey hkey
  rw [MemberLoads.filter, Bool.and_eq_true]
  refine ⟨hkeys, ?_⟩
  rcases hcontext with hglobal | hne
  · simp [hglobal]
  · have hwith : loads.withContexts = true := by simpa [hne] using hmissing
    simp [hwith]

/-- The member's own layer is complete. -/
private lemma sameLayer_overrides (h : loads.Covers config permission context) :
    SameLayer maxRoleDepth
      (overrideInput config context (loads.readOverrides tables member.id)) maxRoleDepth
      (tables.completeInput config member context) permission 0 := by
  have hrows := ownRows_rowsOf tables.uniqueOverride member.id
  constructor
  · rintro holder value c score ⟨rfl, happlies⟩
    exact ⟨c, rfl, rfl, (sourceApplies_filter (keepsRows_filter h) hrows).mp happlies⟩
  · rintro holder value c score ⟨rfl, happlies⟩
    exact ⟨c, rfl, rfl, (sourceApplies_filter (keepsRows_filter h) hrows).mpr happlies⟩

/-- An answer from an override says that the first layer decides. -/
private lemma layerDecides_zero_of_override {depth : ℕ} {input : ResolverInput}
    {result : PermissionCheckResult} (h : IsAnswer depth input permission result)
    (hsource : result.source = .override) : LayerDecides depth input permission 0 := by
  cases h with
  | default => cases hsource
  | @decided layer _ _ _ hdecides _ _ _ _ _ =>
    by_cases hlayer : layer = 0
    · exact hlayer ▸ hdecides
    · simp [hlayer] at hsource

private lemma source_override_of_layerDecides_zero {depth : ℕ} {input : ResolverInput}
    {result : PermissionCheckResult} (h : IsAnswer depth input permission result)
    (hdecides : LayerDecides depth input permission 0) : result.source = .override := by
  cases h with
  | default hnone => exact absurd hdecides (hnone 0)
  | @decided layer _ _ _ _ hfirst _ _ _ _ =>
    by_cases hlayer : layer = 0
    · simp [hlayer]
    · exact absurd hdecides (hfirst 0 (Nat.pos_of_ne_zero hlayer))

/-- An override that applies decides the complete check. -/
private lemma isAnswer_of_override (h : loads.Covers config permission context)
    {result : PermissionCheckResult}
    (hresult : IsAnswer maxRoleDepth
      (overrideInput config context (loads.readOverrides tables member.id)) permission result)
    (hsource : result.source = .override) :
    IsAnswer maxRoleDepth (tables.completeInput config member context) permission result := by
  have hzero := layerDecides_zero_of_override hresult hsource
  apply hresult.transfer
  · rintro id role role' ⟨⟩
  · intro layer hearlier
    cases layer with
    | zero => exact sameLayer_overrides h
    | succ d => exact absurd hzero (hearlier 0 (Nat.succ_pos d))

variable (tables config member context loads) in
/-- The roles of a check as the filtered reads return them. -/
private def loadedRoles : Dict Text ResolverRole :=
  (roleInput config context (loads.loadRoles tables member.groupId member.id)).roles

private lemma reachable_loadRoles :
    (loads.loadRoles tables member.groupId member.id).reachable
      = tables.loadReachableRoles member.groupId member.id := by
  unfold MemberLoads.loadRoles
  dsimp only
  split_ifs <;> rfl

private lemma nodup_reachable :
    ((tables.loadReachableRoles member.groupId member.id).map ReachableRole.id).Nodup := by
  refine tables.uniqueRole.sublist (map_filterMap_sublist ?_ _)
  intro role row hrow
  obtain ⟨depth, -, rfl⟩ := Option.map_eq_some_iff.mp hrow
  rfl

private lemma get?_loadedRoles {id : Text} {role : ResolverRole} :
    (loadedRoles tables config member context loads).get? id = some role ↔
      ∃ row ∈ tables.loadReachableRoles member.groupId member.id, row.id = id ∧
        role = resolverRole (loads.loadRoles tables member.groupId member.id).entryRows
          (loads.loadRoles tables member.groupId member.id).parentRows id row.priority := by
  have hkeys : (((tables.loadReachableRoles member.groupId member.id).map fun row =>
      (row.id, resolverRole (loads.loadRoles tables member.groupId member.id).entryRows
        (loads.loadRoles tables member.groupId member.id).parentRows row.id row.priority)).map
      Prod.fst).Nodup := by
    rw [List.map_map]
    exact nodup_reachable
  rw [loadedRoles, roleInput, reachable_loadRoles, Dict.get?_ofList_eq_some_iff hkeys]
  simp only [List.mem_map, Prod.mk.injEq]
  constructor
  · rintro ⟨row, hrow, rfl, rfl⟩
    exact ⟨row, hrow, rfl, rfl⟩
  · rintro ⟨row, hrow, rfl, rfl⟩
    exact ⟨row, hrow, rfl, rfl⟩

/-- The ids of the reachable roles. -/
private def ReachableId (tables : PermissionTables) (member : GroupMemberRow) (id : Text) : Prop :=
  id ∈ (tables.loadReachableRoles member.groupId member.id).map ReachableRole.id

private lemma reachableId_iff {id : Text} :
    ReachableId tables member id ↔ ∃ d ≤ maxRoleDepth, AtDistance
      (Inherits tables config member context) (Held tables config member context) d id := by
  simp only [ReachableId, List.mem_map, 
    @mem_loadReachableRoles tables config member context]
  constructor
  · rintro ⟨row, ⟨-, hd, hdist⟩, rfl⟩
    exact ⟨row.depth, hd, hdist⟩
  · rintro ⟨d, hd, hdist⟩
    obtain ⟨role, hrole, -, hid⟩ := inGroup_iff.mp
      (inGroup_of_mem_reachLevel (mem_reachLevel.mpr hdist.1))
    exact ⟨⟨id, role.priority, d⟩, ⟨⟨role, hrole, hid, rfl⟩, hd, hdist⟩, rfl⟩

private lemma reachable_ne_nil {id : Text} (h : ReachableId tables member id) :
    (tables.loadReachableRoles member.groupId member.id).isEmpty = false := by
  rw [List.isEmpty_eq_false_iff]
  intro hnil
  rw [ReachableId, hnil] at h
  cases h

private lemma mem_keys_loadedRoles {id : Text} :
    id ∈ (loadedRoles tables config member context loads).keys ↔ ReachableId tables member id := by
  simp only [Dict.mem_keys_iff, get?_loadedRoles, ReachableId, List.mem_map]
  constructor
  · rintro ⟨_, row, hrow, hid, -⟩
    exact ⟨row, hrow, hid⟩
  · rintro ⟨row, hrow, hid⟩
    exact ⟨_, row, hrow, hid, rfl⟩

/-- The loaded entries of a reachable role are its filtered rows. -/
private lemma rowsOf_entryRows {id : Text} (h : ReachableId tables member id) :
    rowsOf (loads.loadRoles tables member.groupId member.id).entryRows id
      = (rowsOf tables.rolePermissions id).filter loads.filter := by
  unfold MemberLoads.loadRoles
  dsimp only
  rw [reachable_ne_nil h]
  simp only [Bool.false_eq_true, if_false, rowsOf, List.filter_filter]
  apply List.filter_congr
  intro row _
  rw [Bool.eq_iff_iff]
  simp only [Bool.and_eq_true, decide_eq_true_eq]
  constructor
  · rintro ⟨howner, -, hkeep⟩
    exact ⟨hkeep, howner⟩
  · rintro ⟨hkeep, howner⟩
    exact ⟨howner, howner ▸ h, hkeep⟩

private lemma mem_loaded_parents {id parent : Text} {priority : ℤ}
    (h : ReachableId tables member id) :
    parent ∈ (resolverRole (loads.loadRoles tables member.groupId member.id).entryRows
        (loads.loadRoles tables member.groupId member.id).parentRows id priority).parents ↔
      (∃ row ∈ tables.loadReachableRoles member.groupId member.id, 0 < row.depth) ∧
        parent ∈ tables.parentIds id ∧ ReachableId tables member parent := by
  unfold MemberLoads.loadRoles
  dsimp only
  rw [reachable_ne_nil h]
  simp only [Bool.false_eq_true, if_false, resolverRole, List.any_eq_true, decide_eq_true_eq]
  split_ifs with hinherits
  · simp only [hinherits, true_and, List.mem_map, List.mem_filter, parentIds, Bool.and_eq_true,
      decide_eq_true_eq]
    constructor
    · rintro ⟨row, ⟨⟨hrow, -, hparent⟩, hid⟩, rfl⟩
      exact ⟨⟨row, ⟨hrow, hid⟩, rfl⟩, List.mem_map.mpr hparent⟩
    · rintro ⟨⟨row, ⟨hrow, hid⟩, rfl⟩, hparent⟩
      exact ⟨row, ⟨⟨hrow, List.mem_map.mp (hid ▸ h), List.mem_map.mp hparent⟩, hid⟩, rfl⟩
  · simp [hinherits]

/-- The loaded parent links are those of the complete data between reachable roles, as long as
some role is inherited at all. -/
private lemma inheritsFrom_loadedRoles {id parent : Text} :
    InheritsFrom (loadedRoles tables config member context loads) id parent ↔
      ReachableId tables member id ∧ ReachableId tables member parent ∧
        parent ∈ tables.parentIds id ∧
        ∃ row ∈ tables.loadReachableRoles member.groupId member.id, 0 < row.depth := by
  unfold InheritsFrom
  rw [mem_keys_loadedRoles]
  simp only [get?_loadedRoles]
  constructor
  · rintro ⟨_, ⟨row, hrow, hid, rfl⟩, hparent, hkey⟩
    have h : ReachableId tables member id := List.mem_map.mpr ⟨row, hrow, hid⟩
    obtain ⟨hinherits, hparent, -⟩ := (mem_loaded_parents h).mp hparent
    exact ⟨h, hkey, hparent, hinherits⟩
  · rintro ⟨h, hkey, hparent, hinherits⟩
    obtain ⟨row, hrow, hid⟩ := List.mem_map.mp h
    exact ⟨_, ⟨row, hrow, hid, rfl⟩, (mem_loaded_parents h).mpr ⟨hinherits, hparent, hkey⟩, hkey⟩

/-- The walk over the loaded roles meets the reachable roles at their distances. -/
private lemma atDistance_loadedRoles {d : ℕ} (hd : d ≤ maxRoleDepth) {id : Text} :
    AtDistance (InheritsFrom (loadedRoles tables config member context loads))
        (Held tables config member context) d id ↔
      AtDistance (Inherits tables config member context) (Held tables config member context) d id := by
  refine atDistance_congr ?_ ?_ hd
  · intro x y hxy
    obtain ⟨hx, hy, hparent, -⟩ := inheritsFrom_loadedRoles.mp hxy
    obtain ⟨_, -, hx⟩ := (@reachableId_iff tables config member context x).mp hx
    obtain ⟨_, -, hy⟩ := (@reachableId_iff tables config member context y).mp hy
    exact inherits_iff.mpr ⟨inGroup_of_mem_reachLevel (mem_reachLevel.mpr hx.1), hparent,
      inGroup_of_mem_reachLevel (mem_reachLevel.mpr hy.1)⟩
  · intro n hn x y hx hy hxy
    have hx' := reachableId_iff.mpr ⟨n, hn.le, hx⟩
    have hy' := reachableId_iff.mpr ⟨n + 1, hn, hy⟩
    obtain ⟨-, hparent, hin⟩ := inherits_iff.mp hxy
    obtain ⟨role, hrole, -, hid⟩ := inGroup_iff.mp hin
    refine inheritsFrom_loadedRoles.mpr ⟨hx', hy', hparent, ⟨y, role.priority, n + 1⟩, ?_,
      Nat.succ_pos n⟩
    exact mem_loadReachableRoles.mpr ⟨⟨role, hrole, hid, rfl⟩, hn, hy⟩

private lemma heldRoles_roleInput :
    heldRoles (roleInput config context (loads.loadRoles tables member.groupId member.id))
      = Held tables config member context := by
  ext id
  change id ∈ (roleInput config context _).directRoleIds ∧
    id ∈ (loadedRoles tables config member context loads).keys ↔ _
  rw [mem_keys_loadedRoles, roleInput, reachable_loadRoles]
  simp only [List.mem_map, List.mem_filter, decide_eq_true_eq]
  constructor
  · rintro ⟨⟨row, ⟨hrow, hdepth⟩, rfl⟩, -⟩
    have hdist := ((@mem_loadReachableRoles tables config member context row).mp hrow).2.2
    rwa [hdepth, atDistance_zero] at hdist
  · intro hheld
    have hdist : AtDistance (Inherits tables config member context)
        (Held tables config member context) 0 id := atDistance_zero.mpr hheld
    have hid := reachableId_iff.mpr ⟨0, Nat.zero_le _, hdist⟩
    obtain ⟨row, hrow, rfl⟩ := List.mem_map.mp hid
    have hdist' := ((@mem_loadReachableRoles tables config member context row).mp hrow).2.2
    exact ⟨⟨row, ⟨hrow, hdist'.unique hdist⟩, rfl⟩, hid⟩

/-- A reachable role has the same applicable entries in the loaded data. -/
private lemma holderApplies_roleInput (h : loads.Covers config permission context) {id : Text}
    (hid : ReachableId tables member id) {value : Bool} {c : Option PermissionContext}
    {score : Score} :
    HolderApplies (roleInput config context (loads.loadRoles tables member.groupId member.id))
        permission (some id) value c score ↔
      HolderApplies (tables.completeInput config member context) permission (some id) value c
        score := by
  have hsource : ∀ priority, SourceApplies
      (resolverRole (loads.loadRoles tables member.groupId member.id).entryRows
        (loads.loadRoles tables member.groupId member.id).parentRows id priority).entries
      (resolverRole (loads.loadRoles tables member.groupId member.id).entryRows
        (loads.loadRoles tables member.groupId member.id).parentRows id priority).contextEntries
      (candidateKeys config.mode permission) context config.contexts value c score ↔
      SourceApplies (resolverRole tables.rolePermissions tables.roleParents id priority).entries
        (resolverRole tables.rolePermissions tables.roleParents id priority).contextEntries
        (candidateKeys config.mode permission) context config.contexts value c score := by
    intro priority
    simp only [resolverRole]
    rw [rowsOf_entryRows hid]
    exact sourceApplies_filter (keepsRows_filter h) (ownRows_rowsOf tables.uniqueRolePermission id)
  constructor
  · rintro ⟨role, hrole, happlies⟩
    obtain ⟨row, hrow, hrowid, rfl⟩ := get?_loadedRoles.mp hrole
    obtain ⟨⟨stored, hstored, hstoredid, hpriority⟩, -, hdist⟩ :=
      (@mem_loadReachableRoles tables config member context row).mp hrow
    obtain ⟨stored', hstored', hgroup, hid'⟩ := inGroup_iff.mp
      (inGroup_of_mem_reachLevel (mem_reachLevel.mpr hdist.1))
    obtain rfl : stored' = stored := List.inj_on_of_nodup_map tables.uniqueRole hstored' hstored
      (hid'.trans hstoredid.symm)
    refine ⟨_, get?_completeInput_roles.mpr ⟨stored', hstored', hgroup, hid'.trans hrowid, rfl⟩, ?_⟩
    rw [hpriority]
    exact (hsource row.priority).mp happlies
  · rintro ⟨role, hrole, happlies⟩
    obtain ⟨stored, hstored, -, hstoredid, rfl⟩ := get?_completeInput_roles.mp hrole
    obtain ⟨row, hrow, hrowid⟩ := List.mem_map.mp hid
    obtain ⟨⟨stored', hstored', hstoredid', hpriority⟩, -, -⟩ :=
      (@mem_loadReachableRoles tables config member context row).mp hrow
    obtain rfl : stored' = stored := List.inj_on_of_nodup_map tables.uniqueRole hstored' hstored
      ((hstoredid'.trans hrowid).trans hstoredid.symm)
    refine ⟨_, get?_loadedRoles.mpr ⟨row, hrow, hrowid, rfl⟩, ?_⟩
    rw [← hpriority]
    exact (hsource stored'.priority).mpr happlies

/-- The layers of roles are complete. -/
private lemma sameLayer_roles (h : loads.Covers config permission context) (d : ℕ) :
    SameLayer maxRoleDepth
      (roleInput config context (loads.loadRoles tables member.groupId member.id)) maxRoleDepth
      (tables.completeInput config member context) permission (d + 1) := by
  have hin : ∀ id, InLayer maxRoleDepth
      (roleInput config context (loads.loadRoles tables member.groupId member.id)) (d + 1)
        (some id) ↔
      InLayer maxRoleDepth (tables.completeInput config member context) (d + 1) (some id) := by
    intro id
    simp only [InLayer, Option.some.injEq, exists_eq_left', heldRoles_roleInput]
    exact and_congr_right fun hd => atDistance_loadedRoles hd
  have hreachable : ∀ id, InLayer maxRoleDepth (tables.completeInput config member context) (d + 1)
      (some id) → ReachableId tables member id := by
    rintro id ⟨hd, _, ⟨⟩, hdist⟩
    exact reachableId_iff.mpr ⟨d, hd, hdist⟩
  constructor
  · rintro (_ | id) value c score ⟨hlayer, happlies⟩
    · obtain ⟨-, _, ⟨⟩, -⟩ := hlayer
    · have hlayer' := (hin id).mp hlayer
      exact ⟨c, rfl, hlayer', (holderApplies_roleInput h (hreachable id hlayer')).mp happlies⟩
  · rintro (_ | id) value c score ⟨hlayer, happlies⟩
    · obtain ⟨-, _, ⟨⟩, -⟩ := hlayer
    · exact ⟨c, rfl, (hin id).mpr hlayer,
        (holderApplies_roleInput h (hreachable id hlayer)).mpr happlies⟩

/-- Without an applicable override the loaded roles decide as the complete data. -/
private lemma isAnswer_of_roles (h : loads.Covers config permission context)
    (hown : ¬ LayerDecides maxRoleDepth (tables.completeInput config member context) permission 0)
    {result : PermissionCheckResult}
    (hresult : IsAnswer maxRoleDepth
      (roleInput config context (loads.loadRoles tables member.groupId member.id)) permission
      result) :
    IsAnswer maxRoleDepth (tables.completeInput config member context) permission result := by
  apply hresult.transfer
  · intro id role role' hrole hrole'
    obtain ⟨row, hrow, hrowid, rfl⟩ := get?_loadedRoles.mp hrole
    obtain ⟨stored, hstored, -, hstoredid, rfl⟩ := get?_completeInput_roles.mp hrole'
    obtain ⟨⟨stored', hstored', hstoredid', hpriority⟩, -, -⟩ :=
      (@mem_loadReachableRoles tables config member context row).mp hrow
    obtain rfl : stored' = stored := List.inj_on_of_nodup_map tables.uniqueRole hstored' hstored
      ((hstoredid'.trans hrowid).trans hstoredid.symm)
    exact hpriority.symm
  · intro layer _
    cases layer with
    | succ d => exact sameLayer_roles h d
    | zero =>
      constructor
      · rintro holder value c score ⟨rfl, key, hholds, -⟩
        cases hholds with
        | global hget => cases hget
        | contextual hmem => cases hmem
      · intro holder value c score happlies
        exact absurd ⟨holder, value, c, score, happlies⟩ hown

/-- Without reachable roles nothing but an override decides. -/
private lemma isAnswer_default_of_no_roles {data : RoleData} (h : data.reachable = []) :
    IsAnswer maxRoleDepth (roleInput config context data) permission
      { allowed := false, source := .default } := by
  refine IsAnswer.default fun layer => ?_
  rintro ⟨holder, value, c, score, hin, happlies⟩
  cases holder with
  | none =>
    obtain ⟨key, hholds, -⟩ := happlies
    cases hholds with
    | global hget => cases hget
    | contextual hmem => cases hmem
  | some id =>
    obtain ⟨role, hrole, -⟩ := happlies
    rw [roleInput, h] at hrole
    cases hrole

end Reach

/-! ### Shared loads -/

/-- What the check of a person answers from the complete data of the group. -/
def completeAnswer (tables : PermissionTables) (config : GameConfigPermissions)
    (groupId junjoUserId permission : Text) (context : PermissionContext) :
    PermissionCheckResult :=
  match tables.findMember groupId junjoUserId with
  | none => { allowed := false, source := .none }
  | some member =>
    if member.status ≠ .active then { allowed := false, source := .none }
    else resolveMemberPermission (tables.completeInput config member context) permission

/-- Loads hold only what the tables answer. -/
structure MemberLoads.Faithful (tables : PermissionTables) (loads : MemberLoads) : Prop where
  members : ∀ groupId junjoUserId row,
    loads.members.get? (MemberLoads.memberKey groupId junjoUserId) = some row →
    row = tables.findMember groupId junjoUserId
  overrides : ∀ memberId rows, loads.overrides.get? memberId = some rows →
    rows = loads.readOverrides tables memberId
  roles : ∀ member ∈ tables.groupMembers, ∀ data, loads.roles.get? member.id = some data →
    data = loads.loadRoles tables member.groupId member.id

namespace MemberLoads

/-- Loads that read the same rows. -/
def SameReads (loads loads' : MemberLoads) : Prop :=
  loads'.keys = loads.keys ∧ loads'.withContexts = loads.withContexts

lemma SameReads.trans {loads loads' loads'' : MemberLoads} (h : SameReads loads loads')
    (h' : SameReads loads' loads'') : SameReads loads loads'' :=
  ⟨h'.1.trans h.1, h'.2.trans h.2⟩

lemma SameReads.covers {loads loads' : MemberLoads} (h : SameReads loads loads')
    {config : GameConfigPermissions} {permission : Text} {context : PermissionContext}
    (hcovers : loads.Covers config permission context) :
    loads'.Covers config permission context := by
  unfold Covers MemberLoads.covers at hcovers ⊢
  rwa [h.1, h.2]

lemma memberKey_inj {groupId groupId' junjoUserId junjoUserId' : Text}
    (h : memberKey groupId junjoUserId = memberKey groupId' junjoUserId') :
    groupId = groupId' ∧ junjoUserId = junjoUserId' := by
  simp only [memberKey, List.append_assoc] at h
  obtain ⟨hgroup, hrest⟩ := lengthPrefixed_append_inj h
  exact ⟨hgroup, List.append_cancel_left hrest⟩

lemma faithful_fresh (tables : PermissionTables) (keys : List Text) (withContexts : Bool) :
    Faithful tables { keys := keys, withContexts := withContexts } where
  members := by rintro groupId junjoUserId row ⟨⟩
  overrides := by rintro memberId rows ⟨⟩
  roles := by rintro member - data ⟨⟩

variable {tables : PermissionTables} {loads : MemberLoads}

lemma member_spec (h : Faithful tables loads) (groupId junjoUserId : Text) :
    (loads.member tables groupId junjoUserId).1 = tables.findMember groupId junjoUserId ∧
      Faithful tables (loads.member tables groupId junjoUserId).2 ∧
      SameReads loads (loads.member tables groupId junjoUserId).2 := by
  unfold member
  dsimp only
  cases hget : loads.members.get? (memberKey groupId junjoUserId) with
  | some hit => exact ⟨h.members _ _ _ hget, h, rfl, rfl⟩
  | none =>
    refine ⟨rfl, ⟨?_, h.overrides, h.roles⟩, rfl, rfl⟩
    intro groupId' junjoUserId' row hrow
    rw [Dict.get?_set] at hrow
    split_ifs at hrow with hkey
    · obtain ⟨rfl, rfl⟩ := memberKey_inj hkey
      exact (Option.some.inj hrow).symm
    · exact h.members groupId' junjoUserId' row hrow

lemma memberOverrides_spec (h : Faithful tables loads) (memberId : Text) :
    (loads.memberOverrides tables memberId).1 = loads.readOverrides tables memberId ∧
      Faithful tables (loads.memberOverrides tables memberId).2 ∧
      SameReads loads (loads.memberOverrides tables memberId).2 := by
  unfold memberOverrides
  cases hget : loads.overrides.get? memberId with
  | some hit => exact ⟨h.overrides _ _ hget, h, rfl, rfl⟩
  | none =>
    refine ⟨rfl, ⟨h.members, ?_, h.roles⟩, rfl, rfl⟩
    intro memberId' rows hrows
    rw [Dict.get?_set] at hrows
    split_ifs at hrows with hkey
    · rw [hkey]
      exact (Option.some.inj hrows).symm
    · exact h.overrides memberId' rows hrows

lemma memberRoles_spec (h : Faithful tables loads) {member : GroupMemberRow}
    (hmember : member ∈ tables.groupMembers) :
    (loads.memberRoles tables member.groupId member.id).1
        = loads.loadRoles tables member.groupId member.id ∧
      Faithful tables (loads.memberRoles tables member.groupId member.id).2 ∧
      SameReads loads (loads.memberRoles tables member.groupId member.id).2 := by
  unfold memberRoles
  cases hget : loads.roles.get? member.id with
  | some hit => exact ⟨h.roles member hmember hit hget, h, rfl, rfl⟩
  | none =>
    refine ⟨rfl, ⟨h.members, h.overrides, ?_⟩, rfl, rfl⟩
    intro member' hmember' data hdata
    rw [Dict.get?_set] at hdata
    split_ifs at hdata with hkey
    · obtain rfl : member' = member :=
        List.inj_on_of_nodup_map tables.memberId hmember' hmember hkey
      exact (Option.some.inj hdata).symm
    · exact h.roles member' hmember' data hdata

end MemberLoads

/-! ### Checks and batches -/

section Checks

variable {tables : PermissionTables} {config : GameConfigPermissions} {permission : Text}
  {context : PermissionContext}

lemma findMember_eq_some {groupId junjoUserId : Text} {member : GroupMemberRow}
    (h : tables.findMember groupId junjoUserId = some member) :
    member ∈ tables.groupMembers ∧ member.groupId = groupId := by
  have hkeys := List.find?_some h
  rw [Bool.and_eq_true, decide_eq_true_eq] at hkeys
  exact ⟨List.mem_of_find?_eq_some h, hkeys.1⟩

/-- An active member's check answers from the complete data. -/
private lemma resolveActive_spec {loads : MemberLoads} (h : loads.Faithful tables)
    (hcovers : loads.Covers config permission context) {member : GroupMemberRow}
    (hmember : member ∈ tables.groupMembers) :
    let out := resolveActive tables config member.groupId member permission context loads
    out.1 = resolveMemberPermission (tables.completeInput config member context) permission ∧
      out.2.Faithful tables ∧ loads.SameReads out.2 := by
  obtain ⟨hrows, hfaithful₁, hsame₁⟩ := MemberLoads.memberOverrides_spec h member.id
  unfold resolveActive
  generalize loads.memberOverrides tables member.id = read at hrows hfaithful₁ hsame₁ ⊢
  obtain ⟨overrideRows, loads₁⟩ := read
  dsimp only at hrows hfaithful₁ hsame₁ ⊢
  subst hrows
  have hown := resolveMemberPermission_isAnswer
    (overrideInput config context (loads.readOverrides tables member.id)) permission
  have hlayer := @sameLayer_overrides tables config member context loads permission hcovers
  by_cases hoverride : (!(loads.readOverrides tables member.id).isEmpty &&
    decide ((resolveMemberPermission (overrideInput config context
      (loads.readOverrides tables member.id)) permission).source = .override)) = true
  · rw [if_pos hoverride]
    simp only [Bool.and_eq_true, decide_eq_true_eq] at hoverride
    refine ⟨Eq.symm ?_, hfaithful₁, hsame₁⟩
    rw [resolveMemberPermission_eq_iff]
    exact isAnswer_of_override hcovers hown hoverride.2
  · rw [if_neg hoverride]
    -- no override applies, also where none was read
    have hundecided : ¬ LayerDecides maxRoleDepth (tables.completeInput config member context)
        permission 0 := by
      intro hdecides
      have hdecides' := hlayer.2.layerDecides hdecides
      have hsource := source_override_of_layerDecides_zero hown hdecides'
      obtain ⟨holder, value, c, score, rfl, key, hholds, -⟩ := hdecides'
      have hne : (loads.readOverrides tables member.id).isEmpty = false := by
        rw [List.isEmpty_eq_false_iff]
        intro hnil
        rw [overrideInput, hnil] at hholds
        cases hholds with
        | global hget => cases hget
        | contextual hmem => cases hmem
      exact hoverride (by rw [hne]; simpa using hsource)
    obtain ⟨hdata, hfaithful₂, hsame₂⟩ := MemberLoads.memberRoles_spec hfaithful₁ hmember
    generalize loads₁.memberRoles tables member.groupId member.id = loaded
      at hdata hfaithful₂ hsame₂ ⊢
    obtain ⟨data, loads₂⟩ := loaded
    dsimp only at hdata hfaithful₂ hsame₂ ⊢
    subst hdata
    have hcovers₁ := hsame₁.covers hcovers
    split_ifs with hempty
    · refine ⟨Eq.symm ?_, hfaithful₂, hsame₁.trans hsame₂⟩
      rw [resolveMemberPermission_eq_iff]
      exact isAnswer_of_roles hcovers₁ hundecided
        (isAnswer_default_of_no_roles (List.isEmpty_iff.mp hempty))
    · refine ⟨Eq.symm ?_, hfaithful₂, hsame₁.trans hsame₂⟩
      rw [resolveMemberPermission_eq_iff]
      exact isAnswer_of_roles hcovers₁ hundecided (resolveMemberPermission_isAnswer _ permission)

/-- Loads that cover a check answer it from the complete data, and stay faithful. -/
lemma resolveWithLoads_spec {loads : MemberLoads} (h : loads.Faithful tables)
    (hcovers : loads.Covers config permission context) (groupId junjoUserId : Text) :
    let out := resolveWithLoads tables config groupId junjoUserId permission context loads
    out.1 = completeAnswer tables config groupId junjoUserId permission context ∧
      out.2.Faithful tables ∧ loads.SameReads out.2 := by
  obtain ⟨hmember, hfaithful, hsame⟩ := MemberLoads.member_spec h groupId junjoUserId
  unfold resolveWithLoads completeAnswer
  rw [← hmember]
  generalize loads.member tables groupId junjoUserId = found at hmember hfaithful hsame ⊢
  obtain ⟨_ | member, loads₁⟩ := found
  · exact ⟨rfl, hfaithful, hsame⟩
  · dsimp only at hmember hfaithful hsame ⊢
    obtain ⟨hrow, rfl⟩ := findMember_eq_some hmember.symm
    split_ifs with hactive
    · exact ⟨rfl, hfaithful, hsame⟩
    · obtain ⟨hresult, hfaithful', hsame'⟩ :=
        resolveActive_spec hfaithful (hsame.covers hcovers) hrow
      exact ⟨hresult, hfaithful', hsame.trans hsame'⟩

private lemma covers_own (config : GameConfigPermissions) (permission : Text)
    (context : PermissionContext) :
    MemberLoads.Covers { keys := candidateKeys config.mode permission
                         withContexts := !context.keys.isEmpty } config permission context := by
  unfold MemberLoads.Covers MemberLoads.covers
  simp

/-- A check with or without shared loads answers from the complete data. -/
lemma resolveForJunjoUser_spec {shared : Option MemberLoads}
    (h : ∀ loads, shared = some loads → loads.Faithful tables) (groupId junjoUserId : Text) :
    let out := resolveForJunjoUser tables config groupId junjoUserId permission context shared
    out.1 = completeAnswer tables config groupId junjoUserId permission context ∧
      ∀ loads, out.2 = some loads → loads.Faithful tables := by
  have hfresh := resolveWithLoads_spec (MemberLoads.faithful_fresh tables
    (candidateKeys config.mode permission) (!context.keys.isEmpty))
    (covers_own config permission context) groupId junjoUserId
  unfold resolveForJunjoUser
  cases shared with
  | none =>
    refine ⟨hfresh.1, ?_⟩
    rintro loads ⟨⟩
  | some loads =>
    dsimp only
    split_ifs with hcovers
    · obtain ⟨hresult, hfaithful, -⟩ := resolveWithLoads_spec (h loads rfl) hcovers groupId
        junjoUserId
      refine ⟨hresult, ?_⟩
      rintro _ ⟨⟩
      exact hfaithful
    · exact ⟨hfresh.1, h⟩

/-- Sharing the loads of a batch leaves each of its answers unchanged: every check, alone or in a
batch, answers what the resolver answers from the complete data of the member's group. -/
theorem resolveBatch_complete :
    (∀ tables config groupId junjoUserId permission context,
      (resolveForJunjoUser tables config groupId junjoUserId permission context none).1
        = completeAnswer tables config groupId junjoUserId permission context) ∧
    ∀ tables config checks, resolveBatch tables config checks = checks.map fun check =>
      completeAnswer tables config check.groupId check.junjoUserId check.permission
        check.context := by
  constructor
  · intro tables config groupId junjoUserId permission context
    refine (resolveForJunjoUser_spec ?_ groupId junjoUserId).1
    rintro loads ⟨⟩
  · intro tables config checks
    have hrun : ∀ (checks : List BatchCheck) (shared : Option MemberLoads),
        (∀ loads, shared = some loads → loads.Faithful tables) →
        resolveChecks tables config checks shared = checks.map fun check =>
          completeAnswer tables config check.groupId check.junjoUserId check.permission
            check.context := by
      intro checks
      induction checks with
      | nil => exact fun _ _ => rfl
      | cons check checks ih =>
        intro shared hshared
        obtain ⟨hresult, hshared'⟩ :=
          resolveForJunjoUser_spec hshared check.groupId check.junjoUserId
        rw [resolveChecks, List.map_cons, ← hresult]
        exact congrArg _ (ih _ hshared')
    refine hrun checks _ ?_
    rintro _ ⟨⟩
    exact MemberLoads.faithful_fresh tables _ _

end Checks

end Junjo
