import Junjo.Sdk.Agreement

/-!
# Checks against served state

The server serves a group's role graph and a member's access with sorted rows. The SDK compiles
them and answers what the server answers from the complete data of the group.
-/

namespace Junjo

/-! ### What the server serves -/

/-- The wire form of an entry or an override. -/
structure WireEntry where
  permission : Text
  value : Bool
  /-- Present only for a contextual row. -/
  context : Option PermissionContext

structure WireRole where
  id : Text
  priority : ℤ
  entries : List WireEntry
  parents : List Text

structure WireRoleGraph where
  mode : PermissionMode
  contexts : ContextInheritance
  roles : List WireRole

structure WireMemberAccess where
  status : MemberStatus
  roleIds : List Text
  overrides : List WireEntry

def serializeEntry (row : EntryRow) : WireEntry where
  permission := row.permissionKey
  value := row.value
  context := row.entryContext

section Serve

variable (collation : Text → Text → Prop) [DecidableRel collation]

/-- Entries sort by key, then canonical context. -/
def entryOrder (a b : EntryRow) : Prop :=
  if a.permissionKey = b.permissionKey then collation a.contextKey b.contextKey
  else collation a.permissionKey b.permissionKey

/-- Roles sort by priority descending, then id descending. -/
def roleOrder (a b : RoleRow) : Prop :=
  b.priority < a.priority ∨ b.priority = a.priority ∧ collation b.id a.id

instance : DecidableRel (entryOrder collation) := fun a b =>
  inferInstanceAs (Decidable (if a.permissionKey = b.permissionKey
    then collation a.contextKey b.contextKey else collation a.permissionKey b.permissionKey))

instance : DecidableRel (roleOrder collation) := fun a b =>
  inferInstanceAs (Decidable (b.priority < a.priority ∨ b.priority = a.priority ∧
    collation b.id a.id))

/-- The rows of one owner as `findMany` orders them. -/
def sortedRowsOf (rows : List EntryRow) (owner : Text) : List EntryRow :=
  (rowsOf rows owner).insertionSort (entryOrder collation)

/-- The parent ids of a role, sorted. -/
def sortedParents (rows : List RoleParentRow) (roleId : Text) : List Text :=
  ((rows.filter fun row => row.roleId = roleId).map RoleParentRow.parentRoleId).insertionSort
    collation

def serializeRole (tables : PermissionTables) (role : RoleRow) : WireRole where
  id := role.id
  priority := role.priority
  entries := (sortedRowsOf collation tables.rolePermissions role.id).map serializeEntry
  parents := sortedParents collation tables.roleParents role.id

/-- Every role in a group with its entries and parents, plus the game's permission mode and
context inheritance. -/
def loadRoleGraph (tables : PermissionTables) (config : GameConfigPermissions) (groupId : Text) :
    WireRoleGraph where
  mode := config.mode
  contexts := config.contexts
  roles := ((tables.groupRoles groupId).insertionSort (roleOrder collation)).map
    (serializeRole collation tables)

def loadMemberAccess (tables : PermissionTables) (member : GroupMemberRow) :
    WireMemberAccess where
  status := member.status
  roleIds := tables.memberRoleIds member.id
  overrides := (sortedRowsOf collation tables.overrides member.id).map serializeEntry

end Serve

namespace Sdk

/-! ### Decoding -/

def Wire.entry (e : WireEntry) : PermissionEntry where
  permission := e.permission
  value := e.value
  context := Context.fromWire e.context

def Wire.role (role : WireRole) : Role where
  id := role.id
  priority := role.priority
  entries := role.entries.map Wire.entry
  parents := role.parents

def Wire.roleGraph (graph : WireRoleGraph) : RoleGraph where
  mode := graph.mode
  roles := graph.roles.map Wire.role
  contexts := ContextInheritance.fromWire graph.contexts

def Wire.access (access : WireMemberAccess) : MemberAccess where
  status := access.status
  roleIds := access.roleIds
  overrides := access.overrides.map Wire.entry

/-! ### Splitting the served entries -/

/-- A row as the server stores it: the key normalized in the mode, the context folded. -/
structure StoredRow (mode : PermissionMode) (row : EntryRow) : Prop where
  key : normalizePermissionKey mode row.permissionKey = row.permissionKey
  context : ∀ context, row.context = some context → FoldedContext context

private lemma StoredRow.foldedContext {mode : PermissionMode} {row : EntryRow}
    (h : StoredRow mode row) {context : PermissionContext}
    (hcontext : row.entryContext = some context) : FoldedContext context := by
  obtain ⟨stored, hstored, -, rfl⟩ := EntryRow.entryContext_eq_some.mp hcontext
  rw [FoldedContext, ← Dict.sorted_mapValues, h.context stored hstored]

private lemma isGlobal_fromWire (row : EntryRow) :
    (Context.fromWire row.entryContext).isGlobal = row.entryContext.isNone := by
  cases hcontext : row.entryContext with
  | none => rfl
  | some context =>
    have hkeys := EntryRow.keys_entryContext_ne_nil hcontext
    obtain ⟨key, hkey⟩ := List.exists_mem_of_ne_nil _ hkeys
    obtain ⟨value, hvalue⟩ := Dict.mem_keys_iff.mp hkey
    have hget := Context.get?_values_ofPairs context key
    rw [hvalue, Option.map_some, Dict.get?_eq_some_iff] at hget
    simpa [Context.fromWire, Context.isGlobal] using List.ne_nil_of_mem hget

private lemma splitEntries_append (mode : PermissionMode) (rows : List EntryRow)
    (hrows : ∀ row ∈ rows, StoredRow mode row)
    (acc : Dict Text Bool × List PermissionEntry) :
    (rows.map fun row => Wire.entry (serializeEntry row)).foldl
      (fun acc e =>
        let key := normalizePermissionKey mode e.permission
        if e.context.isGlobal then (acc.1.set key e.value, acc.2)
        else (acc.1, acc.2 ++ [{ permission := key, value := e.value, context := e.context }])) acc
      = ((((rows.filter fun row => row.entryContext.isNone).map fun row =>
          (row.permissionKey, row.value)).foldl (fun d p => d.set p.1 p.2) acc.1),
        acc.2 ++ (contextEntries rows).map PermissionEntry.ofServer) := by
  induction rows generalizing acc with
  | nil => simp [contextEntries]
  | cons row rows ih =>
    have hkey := (hrows row List.mem_cons_self).key
    rw [List.map_cons, List.foldl_cons, ih fun r hr => hrows r (List.mem_cons_of_mem row hr)]
    have hglobal := isGlobal_fromWire row
    cases hcontext : row.entryContext with
    | none =>
      rw [hcontext] at hglobal
      have hnone : row.contextEntry = none := by
        rw [Option.eq_none_iff_forall_ne_some]
        intro entry hentry
        rw [EntryRow.contextEntry_eq_some, hcontext] at hentry
        cases hentry.1
      simp [hglobal, hcontext, contextEntries, hnone, Wire.entry, serializeEntry, hkey]
    | some context =>
      rw [hcontext] at hglobal
      have hsome : row.contextEntry = some ⟨row.permissionKey, row.value, context,
          EntryRow.keys_entryContext_ne_nil hcontext⟩ :=
        EntryRow.contextEntry_eq_some.mpr ⟨hcontext, rfl, rfl⟩
      simp [hglobal, hcontext, contextEntries, hsome, Wire.entry, serializeEntry, hkey,
        PermissionEntry.ofServer]

/-- Splitting served entries gives what the server splits its rows into. -/
private lemma splitEntries_serve {mode : PermissionMode} {rows : List EntryRow}
    (hrows : ∀ row ∈ rows, StoredRow mode row) :
    splitEntries mode ((rows.map serializeEntry).map Wire.entry)
      = (globalEntries rows, (contextEntries rows).map PermissionEntry.ofServer) := by
  rw [splitEntries, List.map_map]
  exact splitEntries_append mode rows hrows (Dict.empty, [])

/-! ### The input behind the served data -/

/-- The tables of a game as the server stores them. -/
structure StoredTables (tables : PermissionTables) (config : GameConfigPermissions) : Prop where
  rolePermissions : ∀ row ∈ tables.rolePermissions, StoredRow config.mode row
  overrides : ∀ row ∈ tables.overrides, StoredRow config.mode row
  contexts : FoldedInheritance config.contexts

section Input

variable (collation : Text → Text → Prop) [DecidableRel collation] (tables : PermissionTables)
  (config : GameConfigPermissions) (member : GroupMemberRow) (context : PermissionContext)

private def servedRole (role : RoleRow) : Junjo.ResolverRole where
  priority := role.priority
  entries := globalEntries (sortedRowsOf collation tables.rolePermissions role.id)
  contextEntries := contextEntries (sortedRowsOf collation tables.rolePermissions role.id)
  parents := sortedParents collation tables.roleParents role.id

/-- The complete data of the group in the order it is served. -/
private def servedInput : ResolverInput where
  mode := config.mode
  overrides := globalEntries (sortedRowsOf collation tables.overrides member.id)
  contextOverrides := contextEntries (sortedRowsOf collation tables.overrides member.id)
  directRoleIds := tables.memberRoleIds member.id
  roles := Dict.ofList (((tables.groupRoles member.groupId).insertionSort (roleOrder collation)).map
    fun role => (role.id, servedRole collation tables role))
  context := context
  contexts := config.contexts

variable {collation tables config member context}

private lemma sortedRowsOf_perm (rows : List EntryRow) (owner : Text) :
    (sortedRowsOf collation rows owner).Perm (rowsOf rows owner) :=
  List.perm_insertionSort _ _

private lemma storedRow_of_mem_sortedRowsOf {mode : PermissionMode} {rows : List EntryRow}
    (hrows : ∀ row ∈ rows, StoredRow mode row) {owner : Text} :
    ∀ row ∈ sortedRowsOf collation rows owner, StoredRow mode row := by
  intro row hrow
  exact hrows row (List.mem_filter.mp ((sortedRowsOf_perm rows owner).mem_iff.mp hrow)).1

private lemma foldedEntries_contextEntries {mode : PermissionMode} {rows : List EntryRow}
    (hrows : ∀ row ∈ rows, StoredRow mode row) : FoldedEntries (contextEntries rows) := by
  intro entry hentry
  obtain ⟨row, hrow, hcontext, -, -⟩ := mem_contextEntries.mp hentry
  exact (hrows row hrow).foldedContext hcontext

private lemma get?_servedInput_roles {id : Text} {role : Junjo.ResolverRole} :
    (servedInput collation tables config member context).roles.get? id = some role ↔
      ∃ row ∈ tables.roles, row.groupId = member.groupId ∧ row.id = id ∧
        role = servedRole collation tables row := by
  have hperm := List.perm_insertionSort (roleOrder collation) (tables.groupRoles member.groupId)
  have hkeys : (((((tables.groupRoles member.groupId).insertionSort (roleOrder collation)).map
      fun role => (role.id, servedRole collation tables role))).map Prod.fst).Nodup := by
    rw [List.map_map]
    exact (hperm.map RoleRow.id).nodup_iff.mpr (tables.nodup_groupRoles member.groupId)
  rw [servedInput, Dict.get?_ofList_eq_some_iff hkeys]
  simp only [List.mem_map, List.mem_insertionSort, PermissionTables.groupRoles, List.mem_filter,
    decide_eq_true_eq, Prod.mk.injEq]
  constructor
  · rintro ⟨row, ⟨hrow, hgroup⟩, rfl, rfl⟩
    exact ⟨row, hrow, hgroup, rfl, rfl⟩
  · rintro ⟨row, hrow, hgroup, rfl, rfl⟩
    exact ⟨row, ⟨hrow, hgroup⟩, rfl, rfl⟩

private lemma storedInput_servedInput (h : StoredTables tables config) :
    StoredInput (servedInput collation tables config member context) where
  contextOverrides := foldedEntries_contextEntries (storedRow_of_mem_sortedRowsOf h.overrides)
  roles := by
    intro id role hrole
    obtain ⟨row, -, -, -, rfl⟩ := get?_servedInput_roles.mp hrole
    exact foldedEntries_contextEntries (storedRow_of_mem_sortedRowsOf h.rolePermissions)
  contexts := h.contexts

/-- Rows in another order give the same entries. -/
private lemma get?_globalEntries_perm {rows rows' : List EntryRow} (hperm : rows.Perm rows')
    (h : OwnRows rows') (key : Text) :
    (globalEntries rows).get? key = (globalEntries rows').get? key := by
  have hown : OwnRows rows := (hperm.map _).nodup_iff.mpr h
  ext value
  rw [get?_globalEntries hown, get?_globalEntries h]
  simp only [hperm.mem_iff]

private lemma rowsWithin_perm {rows rows' : List EntryRow} (hperm : rows.Perm rows') :
    RowsWithin (contextEntries rows) (contextEntries rows') := by
  intro entry hentry
  exact ⟨entry, ((hperm.filterMap _).mem_iff).mp hentry, rfl, rfl, fun _ => rfl⟩

private lemma sameRows_servedInput :
    (servedInput collation tables config member context).SameRows
      (tables.completeInput config member context) where
  mode := rfl
  overrides := get?_globalEntries_perm (sortedRowsOf_perm _ _)
    (ownRows_rowsOf tables.uniqueOverride member.id)
  within := rowsWithin_perm (sortedRowsOf_perm _ _)
  covers := rowsWithin_perm (sortedRowsOf_perm _ _).symm
  directRoleIds := fun _ => Iff.rfl
  keys := by
    intro id
    rw [PermissionTables.mem_keys_completeInput_roles]
    simp only [Dict.mem_keys_iff, get?_servedInput_roles]
    constructor
    · rintro ⟨_, row, hrow, hgroup, hid, -⟩
      exact ⟨row, hrow, hgroup, hid⟩
    · rintro ⟨row, hrow, hgroup, hid⟩
      exact ⟨_, row, hrow, hgroup, hid, rfl⟩
  roles := by
    intro id role role' hrole hrole'
    obtain ⟨row, hrow, -, rfl, rfl⟩ := get?_servedInput_roles.mp hrole
    obtain ⟨row', hrow', -, hid, rfl⟩ := PermissionTables.get?_completeInput_roles.mp hrole'
    obtain rfl : row' = row := List.inj_on_of_nodup_map tables.uniqueRole hrow' hrow hid
    exact ⟨rfl, get?_globalEntries_perm (sortedRowsOf_perm _ _)
      (ownRows_rowsOf tables.uniqueRolePermission _), rowsWithin_perm (sortedRowsOf_perm _ _),
      rowsWithin_perm (sortedRowsOf_perm _ _).symm, fun _ => List.mem_insertionSort _⟩
  context := fun _ => rfl
  contexts := fun _ _ _ => Iff.rfl

/-- Compiling the served graph gives the roles of the input behind it. -/
private lemma roles_compile (h : StoredTables tables config) :
    (compile (Wire.roleGraph (loadRoleGraph collation tables config member.groupId))
      (Wire.roleGraph (loadRoleGraph collation tables config member.groupId)).contexts).roles
      = (servedInput collation tables config member context).roles.mapValues
          ResolverRole.ofServer := by
  rw [servedInput, Dict.mapValues_ofList, compile, List.map_map]
  simp only [Wire.roleGraph, loadRoleGraph, List.map_map]
  congr 1
  apply List.map_congr_left
  intro role _
  simp only [Function.comp_apply, Wire.role, serializeRole,
    splitEntries_serve (storedRow_of_mem_sortedRowsOf h.rolePermissions)]
  rfl

end Input

/-! ### Agreement -/

/-- A check of a served member against the compiled role graph. -/
def checkServed (collation : Text → Text → Prop) [DecidableRel collation]
    (tables : PermissionTables) (config : GameConfigPermissions) (member : GroupMemberRow)
    (permission : Text) (context : PermissionContext) : PermissionCheckResult :=
  let graph := Wire.roleGraph (loadRoleGraph collation tables config member.groupId)
  (compile graph graph.contexts).check (Wire.access (loadMemberAccess collation tables member))
    permission (Context.ofPairs context)

/-- The SDK resolves every stored input as the server does, and a check of a served member
answers what the server answers from the complete data of the group, behind the same status
gate. -/
theorem resolver_agrees :
    (∀ input, StoredInput input → ∀ permission,
      resolve input.mode input.overrides (input.contextOverrides.map PermissionEntry.ofServer)
        input.directRoleIds (input.roles.mapValues ResolverRole.ofServer) permission
        ((ContextInheritance.fromWire input.contexts).chains (Context.ofPairs input.context))
      = PermissionCheckResult.ofServer (resolveMemberPermission input permission)) ∧
    ∀ (collation : Text → Text → Prop) [DecidableRel collation] tables config,
      StoredTables tables config → ∀ member permission context,
      checkServed collation tables config member permission context
        = PermissionCheckResult.ofServer
            (if member.status = .active then
              resolveMemberPermission (tables.completeInput config member context) permission
            else { allowed := false, source := .none }) := by
  refine ⟨fun input hinput permission => resolve_ofServer hinput permission, ?_⟩
  intro collation _ tables config h member permission context
  have hinput : StoredInput (servedInput collation tables config member context) :=
    storedInput_servedInput h
  -- the order in which the rows are served does not matter
  have hsame : resolveMemberPermission (servedInput collation tables config member context)
      permission
      = resolveMemberPermission (tables.completeInput config member context) permission := by
    rw [resolveMemberPermission_eq_iff]
    exact sameRows_servedInput.symm.isAnswer (resolveMemberPermission_isAnswer _ permission)
  unfold checkServed GroupResolver.check
  dsimp only
  rw [show (Wire.access (loadMemberAccess collation tables member)).status = member.status from rfl]
  by_cases hactive : member.status = .active
  · have hoverrides : splitEntries config.mode
        (Wire.access (loadMemberAccess collation tables member)).overrides = _ :=
      splitEntries_serve (storedRow_of_mem_sortedRowsOf h.overrides)
    have hmode : (compile (Wire.roleGraph (loadRoleGraph collation tables config member.groupId))
      (Wire.roleGraph (loadRoleGraph collation tables config member.groupId)).contexts).mode
        = config.mode := rfl
    rw [if_neg (not_not.mpr hactive), if_pos hactive, ← hsame, ← resolve_ofServer hinput permission,
      hmode, hoverrides, @roles_compile collation _ tables config member context h]
    rfl
  · rw [if_pos hactive, if_neg hactive]
    rfl

/-- A member with a role that grants a key in one world. -/
private def netherTables : PermissionTables where
  groupMembers := [⟨text "m", text "g", text "p", .active⟩]
  roles := [⟨text "r", text "g", 1⟩]
  rolePermissions := [{
    owner := text "r", permissionKey := text "chat.*", value := true
    context := some ⟨[(text "world", text "nether")], by decide⟩
    contextKey := text "[[\"world\",\"nether\"]]", canonical := by decide }]
  overrides := []
  roleParents := []
  memberRoles := [⟨text "m", text "r"⟩]
  memberId := by decide
  uniqueMember := by decide
  uniqueRole := by decide
  uniqueRolePermission := by decide
  uniqueOverride := by decide

theorem resolver_agrees_nether :
    let config : GameConfigPermissions := ⟨.nodes, Dict.empty⟩
    let member : GroupMemberRow := ⟨text "m", text "g", text "p", .active⟩
    let context : PermissionContext := ⟨[(text "world", text "Nether")], by decide⟩
    checkServed (· ≤ ·) netherTables config member (text "chat.send") context
      = PermissionCheckResult.ofServer
          (resolveMemberPermission (netherTables.completeInput config member context)
            (text "chat.send")) := by
  intro config member context
  have hstored : StoredTables netherTables config := by
    refine ⟨?_, ?_, ?_⟩
    · intro row hrow
      rw [List.mem_singleton.mp hrow]
      refine ⟨by decide, ?_⟩
      rintro c ⟨⟩
      rfl
    · rintro row ⟨⟩
    · rintro key values ⟨⟩
  have hactive : member.status = .active := rfl
  have hserved := resolver_agrees.2 (· ≤ ·) netherTables config hstored member
    (text "chat.send") context
  rw [if_pos hactive] at hserved
  exact hserved

end Sdk

end Junjo
