import Junjo.Permissions.Transfer

/-!
# Stored permission rows

The tables a permission check reads, with the uniqueness their keys give, and the resolver's
input built from the complete data of a member's group.
-/

namespace Junjo

/-! ### Contexts as stored -/

/-- The stored `context` column for a folded context: null when global. -/
def storedContext (context : PermissionContext) : Option PermissionContext :=
  if context.keys = [] then none else some context

/-- Reads a stored `context` column back, in key order. An empty object is global. -/
def contextFromStored (value : Option PermissionContext) : Option PermissionContext :=
  match value with
  | none => none
  | some context => if context.keys = [] then none else some context.sorted

/-- An entry of a role (`RolePermission`) or of a member (`MemberPermissionOverride`). -/
structure EntryRow where
  /-- The role or the member that holds the entry. -/
  owner : Text
  permissionKey : Text
  value : Bool
  context : Option PermissionContext
  contextKey : Text
  canonical : contextKey = canonicalContextKey context
deriving DecidableEq

/-- The primary key of an entry row. -/
def EntryRow.identity (row : EntryRow) : Text × Text × Text :=
  (row.owner, row.permissionKey, row.contextKey)

lemma EntryRow.nodup_identity_nil : (([] : List EntryRow).map EntryRow.identity).Nodup :=
  List.nodup_nil

/-- The context of an entry row; absent for a global one. -/
def EntryRow.entryContext (row : EntryRow) : Option PermissionContext :=
  if row.contextKey = [] then none else contextFromStored row.context

lemma keys_sorted_ne_nil {context : PermissionContext} (h : context.keys ≠ []) :
    context.sorted.keys ≠ [] := by
  have hperm : context.sorted.keys.Perm context.keys :=
    Dict.keys_perm_of_get?_eq (Dict.get?_sorted context)
  intro hnil
  rw [hnil] at hperm
  exact h hperm.nil_eq.symm

/-- A contextual row reads back its stored context, in key order. -/
lemma EntryRow.entryContext_eq_some {row : EntryRow} {context : PermissionContext} :
    row.entryContext = some context ↔
      ∃ stored, row.context = some stored ∧ stored.keys ≠ [] ∧ context = stored.sorted := by
  unfold EntryRow.entryContext contextFromStored
  rw [row.canonical]
  cases hstored : row.context with
  | none => simp
  | some stored =>
    by_cases hkeys : stored.keys = []
    · simp [canonicalContextKey_eq_nil, hkeys]
    · simp only [canonicalContextKey_eq_nil, hkeys, if_false, Option.some.injEq]
      constructor
      · rintro rfl
        exact ⟨stored, rfl, hkeys, rfl⟩
      · rintro ⟨_, rfl, -, rfl⟩
        rfl

lemma EntryRow.keys_entryContext_ne_nil {row : EntryRow} {context : PermissionContext}
    (h : row.entryContext = some context) : context.keys ≠ [] := by
  obtain ⟨stored, -, hkeys, rfl⟩ := EntryRow.entryContext_eq_some.mp h
  exact keys_sorted_ne_nil hkeys

lemma EntryRow.entryContext_eq_none {row : EntryRow} :
    row.entryContext = none ↔ row.contextKey = [] := by
  cases h : row.entryContext with
  | none =>
    simp only [true_iff]
    by_contra hne
    have hnone : ¬ ∃ context, row.entryContext = some context := by simp [h]
    refine hnone ?_
    rw [row.canonical] at hne
    cases hstored : row.context with
    | none => simp [hstored] at hne
    | some stored =>
      rw [hstored, canonicalContextKey_eq_nil] at hne
      exact ⟨_, EntryRow.entryContext_eq_some.mpr ⟨stored, hstored, hne, rfl⟩⟩
  | some context =>
    have hne := EntryRow.keys_entryContext_ne_nil h
    obtain ⟨stored, hstored, hkeys, rfl⟩ := EntryRow.entryContext_eq_some.mp h
    simp [row.canonical, hstored, canonicalContextKey_eq_nil, hkeys]

/-- The canonical key of a row's context is the stored one. -/
lemma EntryRow.canonicalContextKey_entryContext (row : EntryRow) :
    canonicalContextKey row.entryContext = row.contextKey := by
  cases h : row.entryContext with
  | none => exact (EntryRow.entryContext_eq_none.mp h).symm
  | some context =>
    obtain ⟨stored, hstored, -, rfl⟩ := EntryRow.entryContext_eq_some.mp h
    rw [row.canonical, hstored]
    exact canonicalContextKey_congr fun k => Dict.get?_sorted stored k

/-! ### Entries for the resolver -/

/-- The contextual entry of a row, when it is one. -/
def EntryRow.contextEntry (row : EntryRow) : Option ResolverContextEntry :=
  match h : row.entryContext with
  | none => none
  | some context =>
    some ⟨row.permissionKey, row.value, context, EntryRow.keys_entryContext_ne_nil h⟩

/-- The global entries of rows, by key. -/
def globalEntries (rows : List EntryRow) : Dict Text Bool :=
  Dict.ofList ((rows.filter fun row => row.entryContext.isNone).map fun row =>
    (row.permissionKey, row.value))

/-- The contextual entries of rows. -/
def contextEntries (rows : List EntryRow) : List ResolverContextEntry :=
  rows.filterMap EntryRow.contextEntry

lemma EntryRow.contextEntry_eq_some {row : EntryRow} {entry : ResolverContextEntry} :
    row.contextEntry = some entry ↔ row.entryContext = some entry.context ∧
      row.permissionKey = entry.permission ∧ row.value = entry.value := by
  obtain ⟨permission, value, context, nonempty⟩ := entry
  unfold EntryRow.contextEntry
  split
  · rename_i h
    simp [h]
  · rename_i c h
    simp only [h, Option.some.injEq, ResolverContextEntry.mk.injEq]
    constructor
    · rintro ⟨rfl, rfl, rfl⟩
      simp
    · rintro ⟨rfl, rfl, rfl⟩
      simp

lemma mem_contextEntries {rows : List EntryRow} {entry : ResolverContextEntry} :
    entry ∈ contextEntries rows ↔ ∃ row ∈ rows, row.entryContext = some entry.context ∧
      row.permissionKey = entry.permission ∧ row.value = entry.value := by
  simp only [contextEntries, List.mem_filterMap, EntryRow.contextEntry_eq_some]

/-- Rows of one owner with different primary keys. -/
def OwnRows (rows : List EntryRow) : Prop :=
  (rows.map fun row => (row.permissionKey, row.contextKey)).Nodup

lemma get?_globalEntries {rows : List EntryRow} (h : OwnRows rows) {key : Text} {value : Bool} :
    (globalEntries rows).get? key = some value ↔
      ∃ row ∈ rows, row.entryContext = none ∧ row.permissionKey = key ∧ row.value = value := by
  have hkeys : (((rows.filter fun row => row.entryContext.isNone).map fun row =>
      (row.permissionKey, row.value)).map Prod.fst).Nodup := by
    rw [List.map_map]
    refine List.Nodup.of_map (fun key => (key, ([] : Text))) ?_
    rw [List.map_map]
    have hsub : ((rows.filter fun row => row.entryContext.isNone).map
        fun row => (row.permissionKey, row.contextKey)).Nodup :=
      h.sublist (List.filter_sublist.map _)
    convert hsub using 1
    apply List.map_congr_left
    intro row hrow
    have hnone : row.entryContext = none := by simpa using (List.mem_filter.mp hrow).2
    simp [EntryRow.entryContext_eq_none.mp hnone]
  rw [globalEntries, Dict.get?_ofList_eq_some_iff hkeys]
  simp only [List.mem_map, List.mem_filter, Option.isNone_iff_eq_none, Prod.mk.injEq, and_assoc]

/-- The applicable entries of a source are its rows whose key and context apply. -/
lemma sourceApplies_iff {rows : List EntryRow} (h : OwnRows rows) {candidates : List Text}
    {check : PermissionContext} {contexts : ContextInheritance} {value : Bool}
    {context : Option PermissionContext} {score : Score} :
    SourceApplies (globalEntries rows) (contextEntries rows) candidates check contexts value
        context score ↔
      ∃ row ∈ rows, row.value = value ∧ row.entryContext = context ∧
        EntryApplies candidates check contexts row.permissionKey context score := by
  constructor
  · rintro ⟨key, hholds, happlies⟩
    cases hholds with
    | global hget =>
      obtain ⟨row, hrow, hcontext, rfl, rfl⟩ := (get?_globalEntries h).mp hget
      exact ⟨row, hrow, rfl, hcontext, happlies⟩
    | contextual hmem =>
      obtain ⟨row, hrow, hcontext, hkey, hvalue⟩ := mem_contextEntries.mp hmem
      exact ⟨row, hrow, hvalue, hcontext, hkey ▸ happlies⟩
  · rintro ⟨row, hrow, rfl, rfl, happlies⟩
    refine ⟨row.permissionKey, ?_, happlies⟩
    cases hcontext : row.entryContext with
    | none => exact HoldsEntry.global ((get?_globalEntries h).mpr ⟨row, hrow, hcontext, rfl, rfl⟩)
    | some context =>
      have hmem : (⟨row.permissionKey, row.value, context,
          EntryRow.keys_entryContext_ne_nil hcontext⟩ : ResolverContextEntry)
          ∈ contextEntries rows :=
        mem_contextEntries.mpr ⟨row, hrow, hcontext, rfl, rfl⟩
      exact HoldsEntry.contextual hmem

/-! ### The tables -/

inductive MemberStatus where
  | active
  | invited
  | left
  | kicked
  | banned
deriving DecidableEq

structure GroupMemberRow where
  id : Text
  groupId : Text
  junjoUserId : Text
  status : MemberStatus
deriving DecidableEq

structure RoleRow where
  id : Text
  groupId : Text
  priority : ℤ
deriving DecidableEq

structure RoleParentRow where
  roleId : Text
  parentRoleId : Text
deriving DecidableEq

structure MemberRoleRow where
  groupMemberId : Text
  roleId : Text
deriving DecidableEq

/-- The game's `permissions` config. -/
structure GameConfigPermissions where
  mode : PermissionMode
  contexts : ContextInheritance

/-- The tables a check reads. The fields after the rows are the primary and unique keys. -/
structure PermissionTables where
  groupMembers : List GroupMemberRow
  roles : List RoleRow
  rolePermissions : List EntryRow
  overrides : List EntryRow
  roleParents : List RoleParentRow
  memberRoles : List MemberRoleRow
  memberId : (groupMembers.map GroupMemberRow.id).Nodup
  uniqueMember : (groupMembers.map fun m => (m.groupId, m.junjoUserId)).Nodup
  uniqueRole : (roles.map RoleRow.id).Nodup
  uniqueRolePermission : (rolePermissions.map EntryRow.identity).Nodup
  uniqueOverride : (overrides.map EntryRow.identity).Nodup

/-- The rows of one owner. -/
def rowsOf (rows : List EntryRow) (owner : Text) : List EntryRow :=
  rows.filter fun row => row.owner = owner

lemma ownRows_rowsOf {rows : List EntryRow} (h : (rows.map EntryRow.identity).Nodup)
    (owner : Text) : OwnRows (rowsOf rows owner) := by
  have hsub : ((rowsOf rows owner).map EntryRow.identity).Nodup :=
    h.sublist (List.filter_sublist.map _)
  refine List.Nodup.of_map (fun p => (owner, p)) ?_
  rw [List.map_map]
  convert hsub using 1
  apply List.map_congr_left
  intro row hrow
  have howner : row.owner = owner := by simpa [rowsOf] using (List.mem_filter.mp hrow).2
  simp [EntryRow.identity, howner]

/-- A role for the resolver, from entry and parent rows of any roles. -/
def resolverRole (entryRows : List EntryRow) (parentRows : List RoleParentRow) (id : Text)
    (priority : ℤ) : ResolverRole where
  priority := priority
  entries := globalEntries (rowsOf entryRows id)
  contextEntries := contextEntries (rowsOf entryRows id)
  parents := (parentRows.filter fun row => row.roleId = id).map RoleParentRow.parentRoleId

namespace PermissionTables

/-- The rows of a group's roles. -/
def groupRoles (tables : PermissionTables) (groupId : Text) : List RoleRow :=
  tables.roles.filter fun role => role.groupId = groupId

/-- The ids of the roles given to a member. -/
def memberRoleIds (tables : PermissionTables) (memberId : Text) : List Text :=
  (tables.memberRoles.filter fun row => row.groupMemberId = memberId).map MemberRoleRow.roleId

/-- The resolver's input from the complete data of a member's group: all the member's overrides,
and all roles of the group with all their entries and parents. -/
def completeInput (tables : PermissionTables) (config : GameConfigPermissions)
    (member : GroupMemberRow) (context : PermissionContext) : ResolverInput where
  mode := config.mode
  overrides := globalEntries (rowsOf tables.overrides member.id)
  contextOverrides := contextEntries (rowsOf tables.overrides member.id)
  directRoleIds := tables.memberRoleIds member.id
  roles := Dict.ofList ((tables.groupRoles member.groupId).map fun role =>
    (role.id, resolverRole tables.rolePermissions tables.roleParents role.id role.priority))
  context := context
  contexts := config.contexts

lemma nodup_groupRoles (tables : PermissionTables) (groupId : Text) :
    ((tables.groupRoles groupId).map RoleRow.id).Nodup :=
  tables.uniqueRole.sublist (List.filter_sublist.map _)

variable {tables : PermissionTables} {config : GameConfigPermissions} {member : GroupMemberRow}
  {context : PermissionContext}

lemma get?_completeInput_roles {id : Text} {role : ResolverRole} :
    (tables.completeInput config member context).roles.get? id = some role ↔
      ∃ row ∈ tables.roles, row.groupId = member.groupId ∧ row.id = id ∧
        role = resolverRole tables.rolePermissions tables.roleParents id row.priority := by
  have hkeys : (((tables.groupRoles member.groupId).map fun role => (role.id,
      resolverRole tables.rolePermissions tables.roleParents role.id role.priority)).map
      Prod.fst).Nodup := by
    rw [List.map_map]
    exact tables.nodup_groupRoles member.groupId
  rw [completeInput, Dict.get?_ofList_eq_some_iff hkeys]
  simp only [groupRoles, List.mem_map, List.mem_filter, decide_eq_true_eq, Prod.mk.injEq]
  constructor
  · rintro ⟨row, ⟨hrow, hgroup⟩, rfl, rfl⟩
    exact ⟨row, hrow, hgroup, rfl, rfl⟩
  · rintro ⟨row, hrow, hgroup, rfl, rfl⟩
    exact ⟨row, ⟨hrow, hgroup⟩, rfl, rfl⟩

lemma mem_keys_completeInput_roles {id : Text} :
    id ∈ (tables.completeInput config member context).roles.keys ↔
      ∃ row ∈ tables.roles, row.groupId = member.groupId ∧ row.id = id := by
  simp only [Dict.mem_keys_iff, get?_completeInput_roles]
  constructor
  · rintro ⟨_, row, hrow, hgroup, hid, -⟩
    exact ⟨row, hrow, hgroup, hid⟩
  · rintro ⟨row, hrow, hgroup, hid⟩
    exact ⟨_, row, hrow, hgroup, hid, rfl⟩

end PermissionTables

end Junjo
