import Junjo.Permissions.LoadsCorrect
import Junjo.Permissions.ModeSwitch

/-!
# What a mode switch preserves

A switch to `exact` changes no answer to a lowercase permission. A switch to `nodes` keeps the
verdict of every check that an entry decided, unless an entry of the opposite value that differs
from the permission only by case comes into play. Such entries of one role or member in one context
refuse the switch; on different roles, or in different contexts, they do not.
-/

namespace Junjo

/-! ### Accepted switches -/

lemma checkKey_nil {kind : KeyKind} {target : PermissionMode}
    {acc : List ModeProblem × Dict Text Text} {row : EntryRow}
    (h : (checkKey kind target acc row).1 = []) :
    acc.1 = [] ∧ star ∉ row.permissionKey ∧
      (target = .nodes → acc.2.get? (foldedSlot row) = none ∧
        (checkKey kind target acc row).2 = acc.2.set (foldedSlot row) row.permissionKey) := by
  by_cases hstar : star ∈ row.permissionKey
  · simp [checkKey, hstar] at h
  by_cases hnodes : target = .nodes
  · cases hvalid : validatePermissionKey .nodes row.permissionKey with
    | some reason => simp [checkKey, hstar, hnodes, hvalid] at h
    | none =>
      cases hslot : acc.2.get? (foldedSlot row) with
      | some clash => simp [checkKey, hstar, hnodes, hvalid, hslot] at h
      | none =>
        have hstep : checkKey kind target acc row =
            (acc.1, acc.2.set (foldedSlot row) row.permissionKey) := by
          simp [checkKey, hstar, hnodes, hvalid, hslot]
        rw [hstep] at h ⊢
        exact ⟨h, hstar, fun _ => ⟨rfl, rfl⟩⟩
  · simp only [checkKey, hstar, hnodes, if_false, ne_eq, not_false_eq_true, if_true] at h
    exact ⟨h, hstar, fun htarget => absurd htarget hnodes⟩

/-- Rows without problems hold no wildcard key and, for `nodes`, no two keys in one slot. -/
lemma keyProblems_nil {rows : List EntryRow} {kind : KeyKind} {target : PermissionMode}
    (h : keyProblems rows kind target = []) :
    (∀ row ∈ rows, star ∉ row.permissionKey) ∧
      (target = .nodes → (rows.map foldedSlot).Nodup) := by
  have hloop := @foldl_invariant _ _ (checkKey kind target)
    (fun passed acc => acc.1 = [] → (∀ row ∈ passed, star ∉ row.permissionKey) ∧
      (target = .nodes → (passed.map foldedSlot).Nodup ∧
        ∀ slot, slot ∈ acc.2.keys ↔ slot ∈ passed.map foldedSlot)) ([], Dict.empty)
    (fun _ => by simp) (fun passed row acc ih hnil => by
      obtain ⟨hacc, hstar, hnodes⟩ := checkKey_nil hnil
      obtain ⟨hstars, hslots⟩ := ih hacc
      refine ⟨?_, fun htarget => ?_⟩
      · intro row' hrow'
        rcases List.mem_append.mp hrow' with hold | hnew
        · exact hstars row' hold
        · exact List.mem_singleton.mp hnew ▸ hstar
      · obtain ⟨hnone, hset⟩ := hnodes htarget
        obtain ⟨hnodup, hkeys⟩ := hslots htarget
        have hfresh : foldedSlot row ∉ passed.map foldedSlot := by
          rw [← hkeys, ← Dict.get?_eq_none_iff]
          exact hnone
        refine ⟨?_, fun slot => ?_⟩
        · rw [List.map_append, List.map_singleton]
          exact List.nodup_append.mpr ⟨hnodup, List.nodup_singleton _, fun a ha b hb hab =>
            hfresh (List.mem_singleton.mp hb ▸ hab ▸ ha)⟩
        · rw [hset, Dict.mem_keys_iff, List.map_append, List.mem_append, ← hkeys,
            Dict.mem_keys_iff]
          simp only [Dict.get?_set, List.map_singleton, List.mem_singleton]
          by_cases hslot : slot = foldedSlot row <;> simp [hslot]) rows
  obtain ⟨hstars, hslots⟩ := hloop h
  exact ⟨hstars, fun htarget => (hslots htarget).1⟩

lemma EntryRow.lowered_eq_self {row : EntryRow} (h : row.permissionKey = asciiLower row.permissionKey) :
    row.lowered = row := by
  obtain ⟨owner, permissionKey, value, context, contextKey, canonical⟩ := row
  simp only [EntryRow.lowered, EntryRow.mk.injEq, true_and, and_true]
  exact h.symm

/-- The update lowercases the keys of the game's rows. -/
lemma lowerKeys_eq (inGame : EntryRow → Bool) (rows : List EntryRow) :
    lowerKeys inGame rows = rows.map fun row => if inGame row then row.lowered else row := by
  refine List.map_congr_left fun row _ => ?_
  cases inGame row with
  | false => simp
  | true =>
    by_cases hkey : row.permissionKey = asciiLower row.permissionKey
    · simp [← hkey, EntryRow.lowered_eq_self hkey]
    · simp [hkey]

/-- Keys in different slots stay different rows. -/
lemma nodup_lowerKeys {inGame : EntryRow → Bool} {rows : List EntryRow}
    (howner : ∀ row row', row.owner = row'.owner → inGame row = inGame row')
    (hrows : (rows.map EntryRow.identity).Nodup)
    (hslots : ((rows.filter inGame).map foldedSlot).Nodup) :
    ((lowerKeys inGame rows).map EntryRow.identity).Nodup := by
  rw [List.Nodup, List.pairwise_map] at hrows
  rw [List.Nodup, List.pairwise_map, List.pairwise_filter] at hslots
  rw [lowerKeys_eq, List.map_map, List.Nodup, List.pairwise_map]
  refine (hrows.and hslots).imp ?_
  rintro row row' ⟨hne, hslot⟩ heq
  have howners : row.owner = row'.owner := by
    have := congrArg Prod.fst heq
    simp only [Function.comp_apply, EntryRow.identity] at this
    split_ifs at this <;> exact this
  simp only [Function.comp_apply, howner row row' howners] at heq
  cases hin : inGame row' with
  | false => exact hne (by simpa [hin] using heq)
  | true =>
    simp only [hin, if_true, EntryRow.identity, EntryRow.lowered, Prod.mk.injEq] at heq
    refine hslot ((howner row row' howners).trans hin) hin ?_
    simp only [foldedSlot, normalizePermissionKey]
    rw [heq.1, heq.2.1, heq.2.2]

namespace ModeTables

variable {lower : Text → Text} {game game' : ModeTables} {gameId : Text} {count : ℕ}

lemma ofRole_owner (row row' : EntryRow) (h : row.owner = row'.owner) :
    game.ofRole gameId row = game.ofRole gameId row' := by
  rw [ofRole, ofRole, h]

lemma ofMember_owner (row row' : EntryRow) (h : row.owner = row'.owner) :
    game.ofMember gameId row = game.ofMember gameId row' := by
  rw [ofMember, ofMember, h]

lemma switchProblems_nil {target : PermissionMode}
    (h : switchProblems lower game gameId target = []) :
    keyProblems (game.entryKeys gameId) .role target = [] ∧
      keyProblems (game.overrideKeys gameId) .member target = [] := by
  simp only [switchProblems, List.append_eq_nil_iff] at h
  exact h.1

/-- An accepted switch found no problem. -/
lemma problems_nil {source target : PermissionMode} (hne : source ≠ target)
    (h : applyPermissionModeSwitch lower game gameId source target = .ok (game', count)) :
    switchProblems lower game gameId target = [] := by
  rw [applyPermissionModeSwitch, if_neg hne] at h
  by_contra hproblems
  simp [hproblems] at h

/-- An accepted switch to `exact` changes nothing. -/
lemma accepted_exact
    (h : applyPermissionModeSwitch lower game gameId .nodes .exact = .ok (game', count)) :
    game' = game := by
  have hnil := problems_nil (by decide) h
  simp [applyPermissionModeSwitch, hnil] at h
  exact h.1.symm

/-- The rows of an accepted switch to `nodes` keep different primary keys. -/
lemma nodup_lowered (h : switchProblems lower game gameId .nodes = []) :
    ((lowerKeys (game.ofRole gameId) game.permissions.rolePermissions).map
        EntryRow.identity).Nodup ∧
      ((lowerKeys (game.ofMember gameId) game.permissions.overrides).map
        EntryRow.identity).Nodup := by
  obtain ⟨hentries, hoverrides⟩ := switchProblems_nil h
  exact ⟨nodup_lowerKeys ofRole_owner game.permissions.uniqueRolePermission
      ((keyProblems_nil hentries).2 rfl),
    nodup_lowerKeys ofMember_owner game.permissions.uniqueOverride
      ((keyProblems_nil hoverrides).2 rfl)⟩

/-- An accepted switch to `nodes` lowercases the game's rows and leaves all others. -/
lemma accepted_nodes
    (h : applyPermissionModeSwitch lower game gameId .exact .nodes = .ok (game', count)) :
    ∃ huniqueRole huniqueOverride, game'.permissions =
      { game.permissions with
        rolePermissions := lowerKeys (game.ofRole gameId) game.permissions.rolePermissions
        overrides := lowerKeys (game.ofMember gameId) game.permissions.overrides
        uniqueRolePermission := huniqueRole
        uniqueOverride := huniqueOverride } := by
  have hnil := problems_nil (by decide) h
  have hnodup := nodup_lowered hnil
  refine ⟨hnodup.1, hnodup.2, ?_⟩
  simp only [applyPermissionModeSwitch, hnil, lowerTables, dif_pos hnodup] at h
  cases h
  rfl

/-- The rewrite keeps the primary keys, so a switch is refused for a conflict or not at all. -/
lemma applyPermissionModeSwitch_ne_uniqueViolation (source target : PermissionMode) :
    applyPermissionModeSwitch lower game gameId source target ≠ .error .uniqueViolation := by
  intro h
  by_cases hsame : source = target
  · simp [applyPermissionModeSwitch, hsame] at h
  by_cases hproblems : switchProblems lower game gameId target = []
  · cases target with
    | exact => simp [applyPermissionModeSwitch, hsame, hproblems] at h
    | nodes =>
      simp only [applyPermissionModeSwitch, hsame, hproblems, lowerTables,
        dif_pos (nodup_lowered hproblems)] at h
      cases h
  · simp [applyPermissionModeSwitch, hsame, hproblems] at h

end ModeTables

/-! ### The rows of a holder -/

namespace PermissionTables

variable {tables tables' : PermissionTables} {config config' : GameConfigPermissions}
  {member : GroupMemberRow} {context : PermissionContext} {permission : Text}

/-- A row of a holder of the member's layers: an override of the member (`none`), or an entry of a
role of the member's group. -/
def HolderRow (tables : PermissionTables) (member : GroupMemberRow) (holder : Option Text)
    (row : EntryRow) : Prop :=
  match holder with
  | none => row ∈ tables.overrides ∧ row.owner = member.id
  | some id => row ∈ tables.rolePermissions ∧ row.owner = id ∧
      ∃ role ∈ tables.roles, role.groupId = member.groupId ∧ role.id = id

/-- The applicable entries of a layer, by rows. -/
lemma layerApplies_completeInput {depth layer : ℕ} {holder : Option Text} {value : Bool}
    {entryContext : Option PermissionContext} {score : Score} :
    LayerApplies depth (tables.completeInput config member context) permission layer holder value
        entryContext score ↔
      InLayer depth (tables.completeInput config member context) layer holder ∧
        ∃ row, tables.HolderRow member holder row ∧ row.value = value ∧
          row.entryContext = entryContext ∧
          EntryApplies (candidateKeys config.mode permission) context config.contexts
            row.permissionKey entryContext score := by
  refine and_congr_right fun _ => ?_
  cases holder with
  | none =>
    have hown := ownRows_rowsOf tables.uniqueOverride member.id
    refine (sourceApplies_iff hown).trans ?_
    simp only [HolderRow, rowsOf, List.mem_filter, decide_eq_true_eq]
    rfl
  | some id =>
    have hown := ownRows_rowsOf tables.uniqueRolePermission id
    simp only [HolderApplies, HolderRow, get?_completeInput_roles]
    constructor
    · rintro ⟨_, ⟨role, hrole, hgroup, hid, rfl⟩, happlies⟩
      obtain ⟨row, hrow, hrest⟩ := (sourceApplies_iff hown).mp happlies
      rw [rowsOf, List.mem_filter, decide_eq_true_eq] at hrow
      exact ⟨row, ⟨hrow.1, hrow.2, role, hrole, hgroup, hid⟩, hrest⟩
    · rintro ⟨row, ⟨hrow, howner, role, hrole, hgroup, hid⟩, hrest⟩
      refine ⟨_, ⟨role, hrole, hgroup, hid, rfl⟩, (sourceApplies_iff hown).mpr ⟨row, ?_, hrest⟩⟩
      rw [rowsOf, List.mem_filter, decide_eq_true_eq]
      exact ⟨hrow, howner⟩

/-- The layers of a member do not depend on entries, mode or context. -/
lemma inLayer_completeInput_congr (hroles : tables.roles = tables'.roles)
    (hparents : tables.roleParents = tables'.roleParents)
    (hmembers : tables.memberRoles = tables'.memberRoles) (context' : PermissionContext)
    (depth layer : ℕ) (holder : Option Text) :
    InLayer depth (tables.completeInput config member context) layer holder ↔
      InLayer depth (tables'.completeInput config' member context') layer holder := by
  apply inLayer_congr
  · ext id
    change id ∈ tables.memberRoleIds member.id ∧ _ ↔ id ∈ tables'.memberRoleIds member.id ∧ _
    rw [mem_keys_completeInput_roles, mem_keys_completeInput_roles, memberRoleIds, memberRoleIds,
      hroles, hmembers]
  · funext id parent
    simp only [InheritsFrom, mem_keys_completeInput_roles, get?_completeInput_roles, hroles,
      eq_iff_iff]
    constructor
    · rintro ⟨_, ⟨row, hrow, hgroup, hid, rfl⟩, hparent, hlive⟩
      refine ⟨_, ⟨row, hrow, hgroup, hid, rfl⟩, ?_, hlive⟩
      rw [resolverRole] at hparent ⊢
      rwa [← hparents]
    · rintro ⟨_, ⟨row, hrow, hgroup, hid, rfl⟩, hparent, hlive⟩
      refine ⟨_, ⟨row, hrow, hgroup, hid, rfl⟩, ?_, hlive⟩
      rw [resolverRole] at hparent ⊢
      rwa [hparents]

end PermissionTables

/-! ### Candidates without wildcards -/

/-- Among keys without `*`, a check matches the normalized permission alone. -/
lemma entryApplies_of_star_not_mem {mode : PermissionMode} {permission key : Text}
    (hkey : star ∉ key) {check : PermissionContext} {contexts : ContextInheritance}
    {context : Option PermissionContext} {score : Score} :
    EntryApplies (candidateKeys mode permission) check contexts key context score ↔
      score.rank = 0 ∧ key = normalizePermissionKey mode permission ∧
        ContextApplies check contexts context score.keys score.distance := by
  have hrank : (candidateKeys mode permission)[score.rank]? = some key ↔
      score.rank = 0 ∧ key = normalizePermissionKey mode permission := by
    constructor
    · intro hget
      have heq := (eq_or_star_mem_of_mem_candidateKeys (List.mem_of_getElem? hget)).resolve_right
        hkey
      refine ⟨rank_unique (nodup_candidateKeys mode permission) hget ?_, heq⟩
      rw [heq]
      exact candidateKeys_head mode permission
    · rintro ⟨hzero, rfl⟩
      rw [hzero]
      exact candidateKeys_head mode permission
  rw [EntryApplies, hrank, and_assoc]

/-! ### The switch to nodes -/

namespace PermissionTables

/-- In the layer that decides a check in `exact` mode, or an earlier one, a row whose key differs
from the permission only by case applies with the opposite value. -/
def CaseVariantDissents (tables : PermissionTables) (contexts : ContextInheritance)
    (member : GroupMemberRow) (context : PermissionContext) (permission : Text) (allowed : Bool) :
    Prop :=
  ∃ layer holder row keys distance,
    (∀ earlier < layer, ¬ LayerDecides maxRoleDepth
      (tables.completeInput ⟨.exact, contexts⟩ member context) permission earlier) ∧
    InLayer maxRoleDepth (tables.completeInput ⟨.exact, contexts⟩ member context) layer holder ∧
    tables.HolderRow member holder row ∧
    row.permissionKey ≠ permission ∧
    asciiLower row.permissionKey = asciiLower permission ∧
    ContextApplies context contexts row.entryContext keys distance ∧
    row.value ≠ allowed

end PermissionTables

namespace ModeTables

variable {lower : Text → Text} {game game' : ModeTables} {gameId : Text} {count : ℕ}
  {member : GroupMemberRow} {holder : Option Text} {row : EntryRow}

/-- The rows behind a check in the game are rows of the game. -/
lemma star_not_mem_of_accepted {source target : PermissionMode} (hne : source ≠ target)
    (h : applyPermissionModeSwitch lower game gameId source target = .ok (game', count))
    (hmember : member ∈ game.permissions.groupMembers)
    (hgroup : game.hasGroup gameId member.groupId)
    (hrow : game.permissions.HolderRow member holder row) : star ∉ row.permissionKey := by
  obtain ⟨hentries, hoverrides⟩ := switchProblems_nil (problems_nil hne h)
  cases holder with
  | none =>
    refine (keyProblems_nil hoverrides).1 row (List.mem_filter.mpr ⟨hrow.1, ?_⟩)
    exact List.any_eq_true.mpr ⟨member, hmember, by simp [hrow.2, hgroup]⟩
  | some id =>
    obtain ⟨hmem, rfl, role, hrole, hsame, hid⟩ := hrow
    refine (keyProblems_nil hentries).1 row (List.mem_filter.mpr ⟨hmem, ?_⟩)
    exact List.any_eq_true.mpr ⟨role, hrole, by simp [hid, hsame, hgroup]⟩

/-- After an accepted switch to `nodes` a holder has the lowered rows it had before. -/
lemma holderRow_lowered
    (h : applyPermissionModeSwitch lower game gameId .exact .nodes = .ok (game', count))
    (hmember : member ∈ game.permissions.groupMembers)
    (hgroup : game.hasGroup gameId member.groupId) {row' : EntryRow} :
    game'.permissions.HolderRow member holder row' ↔
      ∃ row, game.permissions.HolderRow member holder row ∧ row' = row.lowered := by
  obtain ⟨_, _, htables⟩ := accepted_nodes h
  cases holder with
  | none =>
    have hin : ∀ row : EntryRow, row.owner = member.id → game.ofMember gameId row = true :=
      fun row howner => List.any_eq_true.mpr ⟨member, hmember, by simp [howner, hgroup]⟩
    simp only [PermissionTables.HolderRow, htables, lowerKeys_eq, List.mem_map]
    constructor
    · rintro ⟨⟨row, hrow, rfl⟩, howner⟩
      have hown : row.owner = member.id := by split_ifs at howner <;> exact howner
      exact ⟨row, ⟨hrow, hown⟩, by rw [if_pos (hin row hown)]⟩
    · rintro ⟨row, ⟨hrow, howner⟩, rfl⟩
      exact ⟨⟨row, hrow, by rw [if_pos (hin row howner)]⟩, howner⟩
  | some id =>
    simp only [PermissionTables.HolderRow, htables, lowerKeys_eq, List.mem_map]
    constructor
    · rintro ⟨⟨row, hrow, rfl⟩, howner, role, hrole, hsame, hid⟩
      have hown : row.owner = id := by split_ifs at howner <;> exact howner
      have hin : game.ofRole gameId row = true :=
        List.any_eq_true.mpr ⟨role, hrole, by simp [hown, hid, hsame, hgroup]⟩
      exact ⟨row, ⟨hrow, hown, role, hrole, hsame, hid⟩, by rw [if_pos hin]⟩
    · rintro ⟨row, ⟨hrow, howner, role, hrole, hsame, hid⟩, rfl⟩
      have hin : game.ofRole gameId row = true :=
        List.any_eq_true.mpr ⟨role, hrole, by simp [howner, hid, hsame, hgroup]⟩
      exact ⟨⟨row, hrow, by rw [if_pos hin]⟩, howner, role, hrole, hsame, hid⟩

variable {context : PermissionContext} {contexts : ContextInheritance} {permission : Text}

lemma inLayer_accepted
    (h : applyPermissionModeSwitch lower game gameId .exact .nodes = .ok (game', count))
    (layer : ℕ) (holder : Option Text) :
    InLayer maxRoleDepth (game.permissions.completeInput ⟨.exact, contexts⟩ member context) layer
        holder ↔
      InLayer maxRoleDepth (game'.permissions.completeInput ⟨.nodes, contexts⟩ member context) layer
        holder := by
  obtain ⟨_, _, htables⟩ := accepted_nodes h
  apply PermissionTables.inLayer_completeInput_congr <;> rw [htables]

/-- The verdict of the resolver across an accepted switch to `nodes`. -/
lemma resolve_nodes
    (h : applyPermissionModeSwitch lower game gameId .exact .nodes = .ok (game', count))
    (hmember : member ∈ game.permissions.groupMembers)
    (hgroup : game.hasGroup gameId member.groupId)
    (hdecided : (resolveMemberPermission
      (game.permissions.completeInput ⟨.exact, contexts⟩ member context) permission).source ≠
        .default)
    (hdissent : ¬ game.permissions.CaseVariantDissents contexts member context permission
      (resolveMemberPermission
        (game.permissions.completeInput ⟨.exact, contexts⟩ member context) permission).allowed) :
    (resolveMemberPermission
        (game'.permissions.completeInput ⟨.nodes, contexts⟩ member context) permission).allowed =
      (resolveMemberPermission
        (game.permissions.completeInput ⟨.exact, contexts⟩ member context) permission).allowed := by
  refine (resolveMemberPermission_isAnswer _ permission).allowed_of_added
    (resolveMemberPermission_isAnswer _ permission) hdecided ?_ ?_
  · intro layer holder value entryContext score happlies
    obtain ⟨hin, row, hrow, hvalue, hcontext, hentry⟩ :=
      PermissionTables.layerApplies_completeInput.mp happlies
    have hstar := star_not_mem_of_accepted (by decide) h hmember hgroup hrow
    obtain ⟨hrank, hkey, hctx⟩ := (entryApplies_of_star_not_mem hstar).mp hentry
    refine PermissionTables.layerApplies_completeInput.mpr ⟨(inLayer_accepted h _ _).mp hin,
      row.lowered, (holderRow_lowered h hmember hgroup).mpr ⟨row, hrow, rfl⟩, hvalue, hcontext, ?_⟩
    refine (entryApplies_of_star_not_mem (by simpa [EntryRow.lowered] using hstar)).mpr
      ⟨hrank, ?_, hctx⟩
    rw [EntryRow.lowered, hkey]
    rfl
  · intro layer hearlier holder value entryContext score happlies
    obtain ⟨hin, row', hrow', hvalue, hcontext, hentry⟩ :=
      PermissionTables.layerApplies_completeInput.mp happlies
    obtain ⟨row, hrow, rfl⟩ := (holderRow_lowered h hmember hgroup).mp hrow'
    have hin' := (inLayer_accepted h layer holder).mpr hin
    have hstar := star_not_mem_of_accepted (by decide) h hmember hgroup hrow
    obtain ⟨hrank, hkey, hctx⟩ :=
      (entryApplies_of_star_not_mem (by simpa [EntryRow.lowered] using hstar)).mp hentry
    by_cases hsame : row.permissionKey = permission
    · refine Or.inl (PermissionTables.layerApplies_completeInput.mpr ⟨hin', row, hrow, hvalue,
        hcontext, (entryApplies_of_star_not_mem hstar).mpr ⟨hrank, hsame, hctx⟩⟩)
    · refine Or.inr ?_
      by_contra hne
      subst hcontext hvalue
      exact hdissent ⟨layer, holder, row, score.keys, score.distance, hearlier, hin', hrow, hsame,
        hkey, hctx, hne⟩

/-- The resolver's answer across an accepted switch to `exact`. -/
lemma resolve_exact
    (h : applyPermissionModeSwitch lower game gameId .nodes .exact = .ok (game', count))
    (hmember : member ∈ game.permissions.groupMembers)
    (hgroup : game.hasGroup gameId member.groupId) (hlower : asciiLower permission = permission) :
    resolveMemberPermission
        (game.permissions.completeInput ⟨.exact, contexts⟩ member context) permission =
      resolveMemberPermission
        (game.permissions.completeInput ⟨.nodes, contexts⟩ member context) permission := by
  have hlayer : ∀ layer holder value entryContext score,
      LayerApplies maxRoleDepth (game.permissions.completeInput ⟨.nodes, contexts⟩ member context)
          permission layer holder value entryContext score ↔
        LayerApplies maxRoleDepth (game.permissions.completeInput ⟨.exact, contexts⟩ member context)
          permission layer holder value entryContext score := by
    intro layer holder value entryContext score
    rw [PermissionTables.layerApplies_completeInput, PermissionTables.layerApplies_completeInput]
    refine and_congr (PermissionTables.inLayer_completeInput_congr rfl rfl rfl context _ _ _) ?_
    refine exists_congr fun row => and_congr_right fun hrow => ?_
    have hstar := star_not_mem_of_accepted (by decide) h hmember hgroup hrow
    rw [entryApplies_of_star_not_mem hstar, entryApplies_of_star_not_mem hstar]
    simp only [normalizePermissionKey, hlower]
  rw [resolveMemberPermission_eq_iff]
  refine (resolveMemberPermission_isAnswer _ permission).transfer ?_ fun layer _ => ⟨?_, ?_⟩
  · intro id role role' hrole hrole'
    exact congrArg ResolverRole.priority (Option.some.inj (hrole.symm.trans hrole'))
  · exact fun holder value entryContext score happlies =>
      ⟨entryContext, rfl, (hlayer _ _ _ _ _).mp happlies⟩
  · exact fun holder value entryContext score happlies =>
      ⟨entryContext, rfl, (hlayer _ _ _ _ _).mpr happlies⟩

end ModeTables

/-! ### Two roles -/

/-- The member who holds both roles. -/
def twoRolesMember : GroupMemberRow := ⟨text "m", text "a", text "j", .active⟩

/-- One member who holds two roles of equal priority, with the given entries. -/
def twoRoles (entries : List EntryRow) (h : (entries.map EntryRow.identity).Nodup) : ModeTables where
  permissions :=
    { groupMembers := [twoRolesMember]
      roles := [⟨text "r1", text "a", 0⟩, ⟨text "r2", text "a", 0⟩]
      rolePermissions := entries
      overrides := []
      roleParents := []
      memberRoles := [⟨text "m", text "r1"⟩, ⟨text "m", text "r2"⟩]
      memberId := List.nodup_singleton _
      uniqueMember := List.nodup_singleton _
      uniqueRole := by decide
      uniqueRolePermission := h
      uniqueOverride := EntryRow.nodup_identity_nil }
  groups := [⟨text "a", text "g", none, false⟩]
  roleNames := Dict.empty
  permissionDefs := []

/-- A global entry. -/
def globalEntry (role key : Text) (value : Bool) : EntryRow := ⟨role, key, value, none, [], canonicalContextKey_none.symm⟩

/-- One role grants `Kick`, the other denies `kick`. -/
def kickBothWays : ModeTables :=
  twoRoles [globalEntry (text "r1") (text "Kick") true, globalEntry (text "r2") (text "kick") false]
    (by decide)

/-- Only one role has an entry for the key. -/
def grantOnly (key : Text) : ModeTables :=
  twoRoles [globalEntry (text "r1") key true] (List.nodup_singleton _)

end Junjo
