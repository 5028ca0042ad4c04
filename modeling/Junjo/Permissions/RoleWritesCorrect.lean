import Junjo.Permissions.RoleWrites
import Junjo.Permissions.Transfer

/-!
# Role parents stay within bounds

Under any interleaving of role writes the parents of a group's roles are roles of that group and
form no cycle and no chain of more than `maxRoleDepth` links. The resolver's walk therefore reaches
every ancestor. The writer that holds a group's graph lock is the only one that adds links in the
group, so a graph checked under the lock covers the links at its commit.
-/

namespace Junjo

namespace RoleDb

/-- A role inherits from a parent. -/
def Inherits (db : RoleDb) (id parent : Text) : Prop := ⟨id, parent⟩ ∈ db.roleParents

/-- Links stay inside a group, and no chain of them is longer than the resolver walks. -/
structure Bounded (db : RoleDb) : Prop where
  sameGroup : ∀ id parent, db.Inherits id parent → db.issued.get? id = db.issued.get? parent
  within : WalksWithin db.Inherits maxRoleDepth

/-- What a role write does at its commit: ids keep their groups, a role that was not there is new,
and links are only added in a group whose graph lock is held. -/
structure Moves (held : List RoleLock) (db db' : RoleDb) : Prop where
  issued : ∀ id groupId, db.issued.get? id = some groupId → db'.issued.get? id = some groupId
  roles : ∀ r ∈ db'.roles, r ∈ db.roles ∨ db.issued.get? r.id = none
  links : ∀ l ∈ db'.roleParents, l ∈ db.roleParents ∨
    ∃ groupId, db'.issued.get? l.roleId = some groupId ∧ .graph groupId ∈ held

lemma Moves.refl (held : List RoleLock) (db : RoleDb) : db.Moves held db :=
  ⟨fun _ _ h => h, fun _ hr => .inl hr, fun _ hl => .inl hl⟩

lemma Moves.mono {held held' : List RoleLock} {db db' : RoleDb} (h : db.Moves held db')
    (hsub : held ⊆ held') : db.Moves held' db' := by
  refine ⟨h.issued, h.roles, fun l hl => (h.links l hl).imp_right ?_⟩
  rintro ⟨groupId, hgroup, hlock⟩
  exact ⟨groupId, hgroup, hsub hlock⟩

lemma issued_of_mem {db : RoleDb} {r : RoleRecord} (hr : r ∈ db.roles) :
    db.issued.get? r.id = some r.groupId := db.issuedRole r hr

/-- Both ends of a link are roles that were issued. -/
lemma Inherits.issued {db : RoleDb} {id parent : Text} (h : db.Inherits id parent) :
    (∃ groupId, db.issued.get? id = some groupId) ∧
      ∃ groupId, db.issued.get? parent = some groupId := by
  obtain ⟨⟨r, hr, hid : r.id = id⟩, r', hr', hid' : r'.id = parent⟩ := db.linked _ h
  exact ⟨⟨r.groupId, hid ▸ issued_of_mem hr⟩, r'.groupId, hid' ▸ issued_of_mem hr'⟩

/-- Fewer links keep the bounds. -/
lemma Bounded.of_subset {db db' : RoleDb} (h : db.Bounded)
    (hlinks : ∀ id parent, db'.Inherits id parent → db.Inherits id parent)
    (hissued : ∀ id groupId, db.issued.get? id = some groupId →
      db'.issued.get? id = some groupId) : db'.Bounded where
  sameGroup := by
    intro id parent hinherits
    have hold := hlinks id parent hinherits
    obtain ⟨⟨g, hg⟩, g', hg'⟩ := hold.issued
    rw [hissued id g hg, hissued parent g' hg', ← hg, ← hg']
    exact h.sameGroup id parent hold
  within := h.within.mono hlinks

/-- Without parents nothing is to be bounded. -/
lemma bounded_of_roleParents_eq_nil {db : RoleDb} (h : db.roleParents = []) : db.Bounded := by
  have hnone : ∀ id parent, ¬ db.Inherits id parent := by
    intro id parent hinherits
    rw [Inherits, h] at hinherits
    cases hinherits
  refine ⟨fun id parent hab => absurd hab (hnone id parent), fun x y n hy => ?_⟩
  cases n with
  | zero => exact Nat.zero_le _
  | succ n =>
    obtain ⟨p, hp, -⟩ := mem_walkTo_succ.mp hy
    exact absurd hp (hnone x p)

end RoleDb

/-- The rule for role writes. -/
def roleDiscipline : Discipline RoleDb RoleLock (List RoleEvent) where
  inv := RoleDb.Bounded
  effect _ := RoleDb.Moves

/-- The store of role writes moved on by commits that go with some locks. -/
abbrev RoleEvolves := Evolves RoleLock.conflicts roleDiscipline

abbrev RoleKeeps : RoleTx (List RoleEvent) → List RoleLock → (RoleDb → Option RoleDb) →
    List RoleDb → RoleDb → Prop := Keeps RoleLock.conflicts roleDiscipline

section Evolves

variable {held : List RoleLock} {db db' : RoleDb}

/-- Ids keep their groups. -/
lemma RoleEvolves.issued (h : RoleEvolves held db db') {id groupId : Text}
    (hid : db.issued.get? id = some groupId) : db'.issued.get? id = some groupId :=
  h.preserves (fun _ _ _ _ _ _ _ heffect hc => heffect.issued id groupId hc) hid

/-- A role that was issued and is not there does not come back. -/
lemma RoleEvolves.roles (h : RoleEvolves held db db') {id : Text}
    (hissued : ∃ groupId, db.issued.get? id = some groupId) {r : RoleRecord} (hr : r ∈ db'.roles)
    (hid : r.id = id) : r ∈ db.roles := by
  obtain ⟨groupId, hgroup⟩ := hissued
  refine (h.preserves (P := fun c => c.issued.get? id = some groupId ∧
    ∀ r ∈ c.roles, r.id = id → r ∈ db.roles) ?_ ⟨hgroup, fun r hr _ => hr⟩).2 r hr hid
  rintro c c' _ _ - - - heffect ⟨hc, hroles⟩
  refine ⟨heffect.issued id groupId hc, fun r hr hid => ?_⟩
  rcases heffect.roles r hr with hold | hnew
  · exact hroles r hold hid
  · rw [hid, hc] at hnew
    cases hnew

/-- Under a group's graph lock no link is added in the group. -/
lemma RoleEvolves.links (h : RoleEvolves held db db') {groupId : Text}
    (hlock : .graph groupId ∈ held) {l : RoleParentRow} (hl : l ∈ db'.roleParents)
    (hgroup : db'.issued.get? l.roleId = some groupId) : l ∈ db.roleParents := by
  refine h.preserves (P := fun c => ∀ l ∈ c.roleParents, c.issued.get? l.roleId = some groupId →
    l ∈ db.roleParents) ?_ (fun l hl _ => hl) l hl hgroup
  intro c c' _ held' _ _ hcompat heffect hc l hl hgroup
  rcases heffect.links l hl with hold | ⟨groupId', hgroup', hlock'⟩
  · obtain ⟨⟨r, hr, hid⟩, -⟩ := c.linked l hold
    have hissued := heffect.issued r.id r.groupId (RoleDb.issued_of_mem hr)
    rw [hid, hgroup] at hissued
    exact hc l hold (by rw [← hid, RoleDb.issued_of_mem hr, ← hissued])
  · rw [hgroup] at hgroup'
    cases hgroup'
    have hconflict := hcompat _ hlock _ hlock'
    simp [RoleLock.conflicts] at hconflict

end Evolves

/-! ### The graph that is checked -/

section Graph

variable {roleId : Text} {requested groupRoles : List Text} {edges : List RoleParentRow}

/-- One link of another role, added to the graph of the new parents. -/
private def addLink (roleId : Text) (graph : RoleGraph) (e : RoleParentRow) : RoleGraph :=
  if e.roleId = roleId then graph
  else match graph.get? e.roleId with
    | none => graph
    | some parents => graph.set e.roleId (parents ++ [e.parentRoleId])

/-- The graph has the requested parents and the links read of the other roles. -/
lemma edge_parentGraph {a b : Text} (ha : a ∈ groupRoles) (hb : b ∈ groupRoles)
    (h : if a = roleId then b ∈ requested else ⟨a, b⟩ ∈ edges) :
    (RoleWrites.parentGraph roleId requested groupRoles edges).Edge a b := by
  have hroles := @foldl_invariant _ _ (fun (graph : RoleGraph) (id : Text) => graph.set id [])
    (fun passed graph => ∀ id ∈ passed, id ∈ graph.keys) Dict.empty (by simp)
    (fun passed id graph ih k hk => by
      rw [Dict.mem_keys_set]
      rcases List.mem_append.mp hk with hk | hk
      · exact .inr (ih k hk)
      · exact .inl (List.mem_singleton.mp hk)) groupRoles
  have hedges := @foldl_invariant _ _ (addLink roleId)
    (fun passed graph => (∀ id ∈ groupRoles, id ∈ graph.keys) ∧ ∀ e ∈ passed, e.roleId ≠ roleId →
      e.roleId ∈ groupRoles → ∃ parents, graph.get? e.roleId = some parents ∧
        e.parentRoleId ∈ parents) _ ⟨hroles, by simp⟩ ?_ edges
  · change RoleGraph.Edge ((edges.foldl (addLink roleId) _).set roleId requested) a b
    rw [RoleGraph.edge_iff, Dict.mem_keys_set]
    refine ⟨?_, .inr (hedges.1 b hb)⟩
    rw [Dict.get?_set]
    split_ifs at h ⊢ with heq
    · exact ⟨requested, rfl, h⟩
    · exact hedges.2 ⟨a, b⟩ h heq ha
  · rintro passed e graph ⟨hkeys, hpassed⟩
    rw [addLink]
    split_ifs with heq
    · refine ⟨hkeys, fun e' he' hne hmem => ?_⟩
      rcases List.mem_append.mp he' with he' | he'
      · exact hpassed e' he' hne hmem
      · exact absurd (List.mem_singleton.mp he' ▸ heq) hne
    · cases hget : graph.get? e.roleId with
      | none =>
        refine ⟨hkeys, fun e' he' hne hmem => ?_⟩
        rcases List.mem_append.mp he' with he' | he'
        · exact hpassed e' he' hne hmem
        · rw [List.mem_singleton.mp he'] at hmem
          exact absurd (hkeys _ hmem) (Dict.get?_eq_none_iff.mp hget)
      | some parents =>
        refine ⟨fun id hid => Dict.mem_keys_set.mpr (.inr (hkeys id hid)), fun e' he' hne hmem => ?_⟩
        rw [Dict.get?_set]
        rcases List.mem_append.mp he' with he' | he'
        · obtain ⟨old, hold, hin⟩ := hpassed e' he' hne hmem
          split_ifs with hrole
          · rw [hrole, hget] at hold
            cases hold
            exact ⟨_, rfl, List.mem_append_left _ hin⟩
          · exact ⟨old, hold, hin⟩
        · rw [List.mem_singleton.mp he', if_pos rfl]
          exact ⟨_, rfl, by simp⟩

/-- When as many roles are found as were requested, all of them are. -/
lemma exists_mem_findRoles {db : RoleDb} {gameId : Text}
    (hlength : (db.findRoles gameId requested).length = requested.length) {p : Text}
    (hp : p ∈ requested) : ∃ r ∈ db.findRoles gameId requested, r.id = p := by
  have hfound : ((db.findRoles gameId requested).map fun r => r.id).Nodup :=
    db.uniqueRole.sublist (List.filter_sublist.map _)
  have hsub : ((db.findRoles gameId requested).map fun r => r.id) ⊆ requested := by
    intro id hid
    obtain ⟨r, hr, rfl⟩ := List.mem_map.mp hid
    have hmem := (List.mem_filter.mp hr).2
    simp only [Bool.and_eq_true, decide_eq_true_eq] at hmem
    exact hmem.1
  have hperm := (List.subperm_of_subset hfound hsub).perm_of_length_le (by simp [hlength])
  exact List.mem_map.mp (hperm.mem_iff.mpr hp)

end Graph

/-! ### The transactions -/

section Programs

variable {held : List RoleLock} {seen : List RoleDb} {db : RoleDb}

lemma RoleDb.findScopedRole_spec {gameId roleId : Text} {r : RoleRecord}
    (h : db.findScopedRole gameId roleId = some r) : r ∈ db.roles ∧ r.id = roleId := by
  refine ⟨List.mem_of_find?_eq_some h, ?_⟩
  have hfound := List.find?_some h
  simp only [Bool.and_eq_true, decide_eq_true_eq] at hfound
  exact hfound.1

lemma RoleDb.findRole_spec {roleId : Text} {r : RoleRecord} (h : db.findRole roleId = some r) :
    r ∈ db.roles ∧ r.id = roleId :=
  ⟨List.mem_of_find?_eq_some h, by simpa using List.find?_some h⟩

/-- Locking a role leaves its row as it was read. -/
lemma keeps_lockScopedRole {gameId roleId : Text} {k : RoleRecord → RoleTx (List RoleEvent)}
    (h : ∀ held' seen' db' role, held ⊆ held' → RoleEvolves held db db' → role.id = roleId →
      db'.issued.get? roleId = some role.groupId → RoleKeeps (k role) held' some seen' db') :
    RoleKeeps (RoleWrites.lockScopedRole gameId roleId >>= k) held some seen db := by
  unfold RoleWrites.lockScopedRole
  rw [bind_assoc, RoleKeeps, keeps_lockQuery]
  rintro - _ ⟨⟩ db₁ h₁
  generalize db.findScopedRole gameId roleId = found at h₁ ⊢
  have hheld := List.subset_append_left held
    (found.toList.map fun r => RoleLock.row r.id .update)
  cases found with
  | none => trivial
  | some found =>
    rw [bind_assoc, keeps_query]
    rintro - _ ⟨⟩ db₂ h₂
    cases hrole : db₁.findRole roleId with
    | none => trivial
    | some role =>
      obtain ⟨hmem, hid⟩ := db₁.findRole_spec hrole
      have hissued := RoleDb.issued_of_mem hmem
      rw [hid] at hissued
      exact h _ _ db₂ role hheld ((h₁.trans h₂).mono hheld) hid (RoleEvolves.issued h₂ hissued)

/-- Replacing the parents of one role in a graph that was checked keeps the bounds, when the links
of its group are among those of the graph. -/
lemma RoleDb.Bounded.replace {db' : RoleDb} (h : db.Bounded) {groupId roleId : Text}
    {requested groupRoles : List Text} {edges : List RoleParentRow}
    (hissued : db'.issued = db.issued) (hrole : db.issued.get? roleId = some groupId)
    (hrequested : ∀ p ∈ requested, db.issued.get? p = some groupId)
    (hlinks : ∀ a b, db'.Inherits a b → if a = roleId then b ∈ requested else db.Inherits a b)
    (hroles : ∀ a b, db'.Inherits a b → db.issued.get? a = some groupId →
      a ∈ groupRoles ∧ b ∈ groupRoles)
    (hedges : ∀ a b, db.Inherits a b → db.issued.get? a = some groupId → ⟨a, b⟩ ∈ edges)
    {longest : ℕ} (hchecked : WalksWithin
      (RoleWrites.parentGraph roleId requested groupRoles edges).Edge longest)
    (hlongest : longest ≤ maxRoleDepth) : db'.Bounded := by
  have hsame : ∀ a b, db'.Inherits a b → db.issued.get? a = db.issued.get? b := by
    intro a b hab
    have hlink := hlinks a b hab
    split_ifs at hlink with ha
    · rw [ha, hrole, hrequested b hlink]
    · exact h.sameGroup a b hlink
  refine ⟨fun a b hab => by rw [hissued]; exact hsame a b hab, fun x y n hy => ?_⟩
  -- A walk stays in the group of its first role.
  by_cases hx : db.issued.get? x = some groupId
  · refine (hchecked x y n (walkTo_of_closed (P := fun a => db.issued.get? a = some groupId)
      ?_ hx hy).2).trans hlongest
    intro a b ha hab
    obtain ⟨hmema, hmemb⟩ := hroles a b hab ha
    refine ⟨(hsame a b hab).symm.trans ha, edge_parentGraph hmema hmemb ?_⟩
    have hlink := hlinks a b hab
    split_ifs at hlink ⊢
    · exact hlink
    · exact hedges a b hlink ha
  · refine h.within x y n (walkTo_of_closed (P := fun a => db.issued.get? a ≠ some groupId)
      ?_ hx hy).2
    intro a b ha hab
    have hlink := hlinks a b hab
    rw [if_neg (by rintro rfl; exact ha hrole)] at hlink
    exact ⟨(hsame a b hab) ▸ ha, hlink⟩

lemma RoleDb.insertParents_spec {roleId : Text} {parents : List Text} {db' : RoleDb}
    (h : db.insertParents roleId parents = some db') :
    db'.roles = db.roles ∧ db'.issued = db.issued ∧
      db'.roleParents = db.roleParents ++ parents.map (RoleParentRow.mk roleId) := by
  unfold RoleDb.insertParents at h
  dsimp only at h
  split_ifs at h
  cases h
  exact ⟨rfl, rfl, rfl⟩

lemma RoleDb.insertRole_spec {role : RoleRecord} {db' : RoleDb}
    (h : db.insertRole role = some db') : db.issued.get? role.id = none ∧
      db'.roles = db.roles ++ [role] ∧ db'.issued = db.issued.set role.id role.groupId ∧
      db'.roleParents = db.roleParents := by
  unfold RoleDb.insertRole at h
  split_ifs at h with hnew
  cases h
  exact ⟨Dict.get?_eq_none_iff.mpr hnew.1, rfl, rfl, rfl⟩

/-- The links after the parents of a role were replaced. -/
lemma RoleDb.inherits_replaced {roleId : Text} {parents : List Text} {db' : RoleDb}
    (h : db'.roleParents = (db.deleteParents roleId).roleParents ++
      parents.map (RoleParentRow.mk roleId)) {a b : Text} (hab : db'.Inherits a b) :
    if a = roleId then b ∈ parents else db.Inherits a b := by
  rw [RoleDb.Inherits, h, List.mem_append] at hab
  rcases hab with hold | hnew
  · obtain ⟨hmem, hne⟩ := List.mem_filter.mp hold
    rw [if_neg (of_decide_eq_true hne)]
    exact hmem
  · obtain ⟨p, hp, heq⟩ := List.mem_map.mp hnew
    cases heq
    rwa [if_pos rfl]

/-- A link of a group under the group's lock was among the edges read. -/
lemma mem_groupEdges_of_evolves {db' : RoleDb} (h : RoleEvolves held db db') {groupId : Text}
    (hlock : .graph groupId ∈ held) {a b : Text} (hab : db'.Inherits a b)
    (ha : db'.issued.get? a = some groupId) :
    db.Inherits a b ∧ ⟨a, b⟩ ∈ db.groupEdges groupId := by
  have hmem := RoleEvolves.links h hlock hab ha
  obtain ⟨⟨r, hr, hid : r.id = a⟩, -⟩ := db.linked _ hmem
  have hissued := RoleEvolves.issued h (RoleDb.issued_of_mem hr)
  rw [hid, ha] at hissued
  refine ⟨hmem, List.mem_filter.mpr ⟨hmem, List.any_eq_true.mpr ⟨r, hr, ?_⟩⟩⟩
  simp [hid, ← Option.some.inj hissued]

/-- A role of a group that is still there was among the roles read. -/
lemma mem_groupRoleIds_of_evolves {db' : RoleDb} (h : RoleEvolves held db db') {groupId id : Text}
    (hissued : db.issued.get? id = some groupId) (hrole : ∃ r ∈ db'.roles, r.id = id) :
    id ∈ db.groupRoleIds groupId := by
  obtain ⟨r, hr, hid⟩ := hrole
  have hmem := RoleEvolves.roles h ⟨groupId, hissued⟩ hr hid
  have hgroup := RoleDb.issued_of_mem hmem
  rw [hid, hissued] at hgroup
  exact List.mem_map.mpr ⟨r, List.mem_filter.mpr ⟨hmem, by simp [← Option.some.inj hgroup]⟩, hid⟩

/-- The commit of new parents that were checked against the edges and roles read under the lock. -/
lemma commit_setRoleParents {db₁ db₂ db' : RoleDb} {groupId roleId : Text} {requested : List Text}
    (h₁ : RoleEvolves held db db₁) (h₂ : RoleEvolves held db₁ db₂) (hlock : .graph groupId ∈ held)
    (hrole : db.issued.get? roleId = some groupId)
    (hrequested : ∀ p ∈ requested, db.issued.get? p = some groupId) {longest : ℕ}
    (hwithin : WalksWithin (RoleWrites.parentGraph roleId requested (db₁.groupRoleIds groupId)
      (db.groupEdges groupId)).Edge longest) (hlongest : longest ≤ maxRoleDepth)
    (hdb₂ : db₂.Bounded)
    (hdb' : db'.roles = db₂.roles ∧ db'.issued = db₂.issued ∧ db'.roleParents =
      (db₂.deleteParents roleId).roleParents ++ requested.map (RoleParentRow.mk roleId)) :
    db'.Bounded ∧ db₂.Moves held db' := by
  obtain ⟨hroles, hissued, hparents⟩ := hdb'
  have h := h₁.trans h₂
  have hlinks : ∀ a b, db'.Inherits a b → if a = roleId then b ∈ requested else db₂.Inherits a b :=
    fun a b hab => RoleDb.inherits_replaced hparents hab
  constructor
  · refine hdb₂.replace hissued (RoleEvolves.issued h hrole)
      (fun p hp => RoleEvolves.issued h (hrequested p hp)) hlinks ?_
      (fun a b hab ha => (mem_groupEdges_of_evolves h hlock hab ha).2) hwithin hlongest
    intro a b hab ha
    have hends : db.issued.get? a = some groupId ∧ db.issued.get? b = some groupId := by
      have hlink := hlinks a b hab
      split_ifs at hlink with heq
      · exact ⟨heq ▸ hrole, hrequested b hlink⟩
      · obtain ⟨hold, -⟩ := mem_groupEdges_of_evolves h hlock hlink ha
        obtain ⟨⟨ga, hga⟩, gb, hgb⟩ := hold.issued
        have hb := hdb₂.sameGroup a b hlink
        rw [RoleEvolves.issued h hga, RoleEvolves.issued h hgb] at hb
        rw [RoleEvolves.issued h hga] at ha
        cases hb
        cases ha
        exact ⟨hga, hgb⟩
    have hends₁ := And.intro (RoleEvolves.issued h₁ hends.1) (RoleEvolves.issued h₁ hends.2)
    obtain ⟨hfrom, hto⟩ := db'.linked _ hab
    rw [hroles] at hfrom hto
    exact ⟨mem_groupRoleIds_of_evolves h₂ hends₁.1 hfrom,
      mem_groupRoleIds_of_evolves h₂ hends₁.2 hto⟩
  · refine ⟨fun id g hid => by rwa [hissued], fun r hr => .inl (hroles ▸ hr), ?_⟩
    rintro ⟨a, b⟩ hab
    have hlink := hlinks a b hab
    split_ifs at hlink with heq
    · refine .inr ⟨groupId, ?_, hlock⟩
      rw [hissued]
      exact heq ▸ RoleEvolves.issued h hrole
    · exact .inl hlink

lemma keeps_setRoleParents (gameId roleId : Text) (parents : List Text) :
    RoleKeeps (RoleWrites.setRoleParents gameId roleId parents) [] some [] db := by
  unfold RoleWrites.setRoleParents
  dsimp only
  generalize parents.eraseDups.insertionSort (· ≤ ·) = requested
  rw [RoleKeeps, keeps_query]
  rintro - _ ⟨⟩ db₁ h₁
  cases hscope : db.findScopedRole gameId roleId with
  | none => trivial
  | some scope =>
    obtain ⟨hscopeMem, hscopeId⟩ := RoleDb.findScopedRole_spec hscope
    have hscopeGroup := RoleEvolves.issued h₁ (RoleDb.issued_of_mem hscopeMem)
    rw [hscopeId] at hscopeGroup
    rw [keeps_lockQuery]
    rintro - _ ⟨⟩ db₂ h₂
    refine keeps_lockScopedRole fun held seen db₃ role hheld h₃ hroleId hroleGroup => ?_
    have hlock : .graph scope.groupId ∈ held := hheld (by simp)
    have hgroup : scope.groupId = role.groupId := by
      have hscopeGroup₃ := RoleEvolves.issued h₃ (RoleEvolves.issued h₂ hscopeGroup)
      rw [hscopeGroup₃] at hroleGroup
      exact Option.some.inj hroleGroup
    rw [hgroup] at hlock
    split
    · trivial
    rw [RoleKeeps, keeps_query]
    rintro - _ ⟨⟩ db₄ h₄
    split
    · trivial
    rename_i hlength
    split
    · trivial
    rename_i hmismatch
    -- Every requested parent was found in the role's group.
    have hrequested : ∀ p ∈ requested, db₃.issued.get? p = some role.groupId := by
      intro p hp
      obtain ⟨r, hr, rfl⟩ := exists_mem_findRoles (not_not.mp hlength) hp
      have hsame : r.groupId = role.groupId := by
        by_contra hne
        exact hmismatch (List.any_eq_true.mpr ⟨r, hr, by simpa using hne⟩)
      rw [RoleDb.issued_of_mem (List.mem_of_mem_filter hr), hsame]
    rw [keeps_query]
    rintro - _ ⟨⟩ db₅ h₅
    split
    · exact fun _ _ _ hc => by cases hc; exact ⟨‹_›, RoleDb.Moves.refl _ _⟩
    rw [keeps_query]
    rintro - _ ⟨⟩ db₆ h₆
    split
    · trivial
    rename_i hcycle
    obtain ⟨longest, hlongest, hwithin⟩ := RoleGraph.longestChain_spec (not_not.mp hcycle)
    rw [hlongest]
    dsimp only
    split
    · trivial
    rename_i hdepth
    rw [keeps_write]
    rintro - _ ⟨⟩ db₇ h₇
    have h₇' : RoleEvolves held db₅ db₇ := (h₆.trans (h₇.mono (List.subset_append_left _ _)))
    have hcommit : ∀ db₈ db', RoleEvolves held db₇ db₈ → db₈.Bounded →
        (db'.roles = db₈.roles ∧ db'.issued = db₈.issued ∧ db'.roleParents =
          (db₈.deleteParents role.id).roleParents ++ requested.map (RoleParentRow.mk role.id)) →
        db'.Bounded ∧ db₈.Moves held db' := by
      intro db₈ db' h₈ hdb₈ hdb'
      refine commit_setRoleParents h₅ (h₇'.trans h₈) hlock ?_
        (fun p hp => RoleEvolves.issued h₄ (hrequested p hp)) ((hwithin longest).mpr le_rfl)
        (not_lt.mp hdepth) hdb₈ hdb'
      rw [hroleId]
      exact RoleEvolves.issued h₄ hroleGroup
    unfold RoleWrites.createParents
    split
    · rename_i hnil
      intro hdb₇ _ db' hdb'
      cases hdb'
      obtain ⟨hbounded, hmoves⟩ := hcommit db₇ (db₇.deleteParents role.id) .refl hdb₇
        ⟨rfl, rfl, by simp [hnil]⟩
      exact ⟨hbounded, hmoves.mono (List.subset_append_left _ _)⟩
    · rw [keeps_write]
      rintro - _ ⟨⟩ db₈ h₈ hdb₈ - db' hdb'
      obtain ⟨hbounded, hmoves⟩ := hcommit db₈ db' (h₈.mono (fun k hk => by simp [hk])) hdb₈
        (RoleDb.insertParents_spec hdb')
      exact ⟨hbounded, hmoves.mono fun k hk => by simp [hk]⟩

lemma keeps_createRole (lower : Text → Text) (gameId groupId fresh name : Text) (priority : ℤ)
    (isDefault : Bool) : RoleKeeps
      (RoleWrites.createRole lower gameId groupId fresh name priority isDefault) [] some [] db := by
  unfold RoleWrites.createRole
  rw [RoleKeeps, keeps_query]
  rintro - _ ⟨⟩ db₁ -
  rw [keeps_lockQuery]
  rintro - _ ⟨⟩ db₂ -
  rw [keeps_query]
  rintro - _ ⟨⟩ db₃ -
  split
  · trivial
  rw [keeps_write]
  rintro - _ ⟨⟩ db₄ - hdb₄ - db' hdb'
  obtain ⟨hfresh, hroles, hissued, hparents⟩ := RoleDb.insertRole_spec hdb'
  have hkeep : ∀ id g, db₄.issued.get? id = some g → db'.issued.get? id = some g := by
    intro id g hid
    have hne : id ≠ fresh := by
      rintro rfl
      rw [hfresh] at hid
      cases hid
    rwa [hissued, Dict.get?_set_of_ne _ _ hne]
  refine ⟨hdb₄.of_subset (fun a b hab => by rwa [RoleDb.Inherits, hparents] at hab) hkeep,
    hkeep, fun r hr => ?_, fun l hl => .inl (hparents ▸ hl)⟩
  rw [hroles] at hr
  rcases List.mem_append.mp hr with hold | hnew
  · exact .inl hold
  · exact .inr (List.mem_singleton.mp hnew ▸ hfresh)

lemma keeps_deleteRole (gameId roleId : Text) :
    RoleKeeps (RoleWrites.deleteRole gameId roleId) [] some [] db := by
  unfold RoleWrites.deleteRole
  refine keeps_lockScopedRole fun held seen db₁ role _ _ _ _ => ?_
  rw [RoleKeeps, keeps_query]
  rintro - _ ⟨⟩ db₂ -
  split
  · trivial
  rw [keeps_query]
  rintro - _ ⟨⟩ db₃ -
  rw [keeps_write]
  rintro - _ ⟨⟩ db₄ - hdb₄ - _ ⟨⟩
  have hlinks : ∀ l ∈ (db₄.deleteRole role.id).roleParents, l ∈ db₄.roleParents :=
    fun l hl => List.mem_of_mem_filter hl
  exact ⟨hdb₄.of_subset (fun a b hab => hlinks _ hab) fun _ _ hid => hid, fun _ _ hid => hid,
    fun r hr => .inl (List.mem_of_mem_filter hr), fun l hl => .inl (hlinks l hl)⟩

lemma keeps_writeElsewhere (groups : List GroupRow) (memberRoles : List MemberRoleRow) :
    RoleKeeps (RoleWrites.writeElsewhere groups memberRoles) [] some [] db := by
  unfold RoleWrites.writeElsewhere
  rw [RoleKeeps, keeps_write]
  rintro - _ ⟨⟩ db₁ - hdb₁ - _ ⟨⟩
  exact ⟨hdb₁.of_subset (fun _ _ hab => hab) fun _ _ hid => hid, fun _ _ hid => hid,
    fun _ hr => .inl hr, fun _ hl => .inl hl⟩

end Programs

/-! ### Every run -/

lemma RoleLock.conflicts_comm (k l : RoleLock) : k.conflicts l = l.conflicts k := by
  cases k <;> cases l <;> simp [RoleLock.conflicts, eq_comm, Bool.or_comm]

lemma keeps_program (lower : Text → Text) (r : RoleRequest) (db : RoleDb) :
    RoleKeeps (r.program lower) [] some [] db := by
  cases r with
  | setRoleParents gameId roleId parents => exact keeps_setRoleParents gameId roleId parents
  | createRole gameId groupId fresh name priority isDefault =>
    exact keeps_createRole lower gameId groupId fresh name priority isDefault
  | deleteRole gameId roleId => exact keeps_deleteRole gameId roleId
  | elsewhere groups memberRoles => exact keeps_writeElsewhere groups memberRoles

abbrev RoleServer := Database RoleDb RoleLock RoleError (List RoleEvent)

/-- Run some events of role writes. -/
def RoleServer.run (lower : Text → Text) (start : RoleDb) (events : List (TxEvent RoleRequest)) :
    Option RoleServer :=
  runSteps (Database.next RoleLock.conflicts (RoleRequest.program lower)) { committed := start }
    events

lemma RoleServer.run_bounded (lower : Text → Text) {start : RoleDb} (hstart : start.Bounded)
    {events : List (TxEvent RoleRequest)} {db : RoleServer}
    (hrun : RoleServer.run lower start events = some db) : db.committed.Bounded :=
  (Database.run_good (J := fun _ _ => True) RoleLock.conflicts_comm (keeps_program lower) hstart
    trivial (fun _ _ _ _ _ _ _ _ _ => trivial) hrun
    (fun _ e _ db₁ _ _ => db₁.admitted (fun _ _ _ => trivial) e)).1.inv

/-- The tables of a check hold the stored roles and parent links. -/
def RoleDb.StoredIn (db : RoleDb) (tables : PermissionTables) : Prop :=
  tables.roles = db.roles.map RoleRecord.toRoleRow ∧ tables.roleParents = db.roleParents

section Walk

variable {db : RoleDb} {tables : PermissionTables} {config : GameConfigPermissions}
  {member : GroupMemberRow} {context : PermissionContext}

lemma inherits_of_inheritsFrom (h : db.StoredIn tables) {id parent : Text}
    (hfrom : InheritsFrom (tables.completeInput config member context).roles id parent) :
    db.Inherits id parent := by
  obtain ⟨role, hrole, hparent, -⟩ := hfrom
  obtain ⟨row, -, -, -, rfl⟩ := PermissionTables.get?_completeInput_roles.mp hrole
  obtain ⟨l, hl, rfl⟩ := List.mem_map.mp hparent
  obtain ⟨hmem, hid⟩ := List.mem_filter.mp hl
  rw [h.2] at hmem
  rw [← of_decide_eq_true hid]
  exact hmem

/-- The layers of a check have no more distance than chains have links. -/
lemma layer_le_of_bounded (hdb : db.Bounded) (h : db.StoredIn tables) {layer : ℕ} {id : Text}
    (hid : id ∈ WalkTo (InheritsFrom (tables.completeInput config member context).roles)
      (heldRoles (tables.completeInput config member context)) layer) : layer ≤ maxRoleDepth := by
  obtain ⟨first, -, hwalk⟩ := exists_mem_walkTo hid
  exact hdb.within first id layer (walkTo_mono (fun _ _ => inherits_of_inheritsFrom h) hwalk)

lemma resolveWithin_eq_of_bounded (hdb : db.Bounded) (h : db.StoredIn tables) {depth : ℕ}
    (hdepth : maxRoleDepth ≤ depth) (permission : Text) :
    resolveWithin depth (tables.completeInput config member context) permission =
      resolveMemberPermission (tables.completeInput config member context) permission := by
  have hlayer : ∀ layer holder,
      InLayer depth (tables.completeInput config member context) layer holder ↔
        InLayer maxRoleDepth (tables.completeInput config member context) layer holder := by
    intro layer holder
    cases layer with
    | zero => exact Iff.rfl
    | succ d =>
      constructor
      · rintro ⟨-, id, hholder, hdistance⟩
        exact ⟨layer_le_of_bounded hdb h hdistance.1, id, hholder, hdistance⟩
      · rintro ⟨hd, hrest⟩
        exact ⟨hd.trans hdepth, hrest⟩
  have hanswer := @IsAnswer.transfer depth maxRoleDepth
    (tables.completeInput config member context) (tables.completeInput config member context)
    permission _ (resolveWithin_isAnswer depth _ permission)
    (fun id role role' hrole hrole' => by rw [hrole] at hrole'; cases hrole'; rfl)
    (fun layer _ => ⟨fun holder value c score happlies => ⟨c, rfl,
        (hlayer layer holder).mp happlies.1, happlies.2⟩,
      fun holder value c score happlies => ⟨c, rfl,
        (hlayer layer holder).mpr happlies.1, happlies.2⟩⟩)
  exact hanswer.unique (resolveMemberPermission_isAnswer _ permission)

end Walk

/-- In every database that role writes reach, in any interleaving of their statements, parents are
roles of the same group, no role is its own ancestor, and no chain has more than `maxRoleDepth`
links. The resolver's walk reaches every ancestor there and answers as any longer walk. -/
theorem roleParents_within_walk (lower : Text → Text) {start : RoleDb} (hstart : start.Bounded)
    {events : List (TxEvent RoleRequest)} {db : RoleServer}
    (hrun : RoleServer.run lower start events = some db) :
    (∀ id parent, db.committed.Inherits id parent →
      ∃ r ∈ db.committed.roles, ∃ r' ∈ db.committed.roles,
        r.id = id ∧ r'.id = parent ∧ r.groupId = r'.groupId) ∧
    Acyclic db.committed.Inherits ∧
    WalksWithin db.committed.Inherits maxRoleDepth ∧
    ∀ tables config member context, db.committed.StoredIn tables →
      (∀ layer id, id ∈ WalkTo
          (InheritsFrom (tables.completeInput config member context).roles)
          (heldRoles (tables.completeInput config member context)) layer →
        layer ≤ maxRoleDepth) ∧
      ∀ depth, maxRoleDepth ≤ depth → ∀ permission,
        resolveWithin depth (tables.completeInput config member context) permission =
          resolveMemberPermission (tables.completeInput config member context) permission := by
  have hbounded := RoleServer.run_bounded lower hstart hrun
  refine ⟨?_, hbounded.within.acyclic, hbounded.within, ?_⟩
  · intro id parent hinherits
    obtain ⟨⟨r, hr, hid : r.id = id⟩, r', hr', hid' : r'.id = parent⟩ :=
      db.committed.linked _ hinherits
    refine ⟨r, hr, r', hr', hid, hid', ?_⟩
    have hsame := hbounded.sameGroup id parent hinherits
    rw [← hid, ← hid', RoleDb.issued_of_mem hr, RoleDb.issued_of_mem hr'] at hsame
    exact Option.some.inj hsame
  · intro tables config member context hstored
    exact ⟨fun layer id hid => layer_le_of_bounded hbounded hstored hid,
      fun depth hdepth permission => resolveWithin_eq_of_bounded hbounded hstored hdepth permission⟩

private lemma nodup_noNames : ([] : List (Text × Text)).Nodup := List.nodup_nil

/-- A game with one group and no roles. -/
private def emptyRoleDb : RoleDb where
  modes := Dict.empty
  groups := [⟨text "guild", text "game", none, false⟩]
  roles := []
  roleParents := []
  memberRoles := []
  issued := Dict.empty
  uniqueRole := List.nodup_nil
  uniqueName := nodup_noNames
  uniqueParent := List.nodup_nil
  linked := fun _ hl => absurd hl (by simp)
  issuedRole := fun _ hr => absurd hr (by simp)

/-- Two roles are created, and each is made the other's parent by two writes that overlap. -/
private def crossingParents : List (TxEvent RoleRequest) :=
  [.start 0 (.createRole (text "game") (text "guild") (text "a") (text "officer") 2 false)] ++
    List.replicate 5 (.advance 0) ++
    [.start 1 (.createRole (text "game") (text "guild") (text "b") (text "member") 1 true)] ++
    List.replicate 5 (.advance 1) ++
    [.start 2 (.setRoleParents (text "game") (text "b") [text "a"]),
      .start 3 (.setRoleParents (text "game") (text "a") [text "b"]), .advance 3] ++
    List.replicate 10 (.advance 2) ++ List.replicate 7 (.advance 3)

theorem roleParents_within_walk_crossing :
    ∃ db, RoleServer.run asciiLower emptyRoleDb crossingParents = some db ∧
      db.committed.roleParents = [⟨text "b", text "a"⟩] ∧ db.sessions.keys = [] ∧
      Acyclic db.committed.Inherits := by
  have hresult : (RoleServer.run asciiLower emptyRoleDb crossingParents).map (fun db =>
      (db.committed.roleParents, db.sessions.keys)) = some ([⟨text "b", text "a"⟩], []) := by
    decide
  obtain ⟨db, hrun, heq⟩ := Option.map_eq_some_iff.mp hresult
  obtain ⟨hparents, hsessions⟩ := Prod.mk.inj heq
  exact ⟨db, hrun, hparents, hsessions, (roleParents_within_walk asciiLower
    (RoleDb.bounded_of_roleParents_eq_nil rfl) hrun).2.1⟩

end Junjo
