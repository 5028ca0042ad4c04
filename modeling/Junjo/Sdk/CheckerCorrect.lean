import Junjo.Sdk.Checker

/-!
# Prepared checks answer as the resolver does

Whatever is kept of earlier checks, a check of the mirror and of a checker gives the answer that
the plain resolver gives on the published group and access, the checker's exclusions taken off.
-/

namespace Junjo.Sdk

/-! ### Prepared inputs -/

lemma findSome?_layersFrom {β : Type*} (succ : Text → List Text) (decide : List Text → Option β)
    (fuel : ℕ) (visited layer : List Text) :
    (layersFrom succ fuel visited layer).findSome? decide =
      searchLayers succ decide fuel visited layer := by
  induction fuel generalizing visited layer with
  | zero => rfl
  | succ fuel ih =>
    rw [layersFrom, searchLayers]
    split_ifs with hempty
    · rfl
    · rw [List.findSome?_cons, ih]
      cases decide layer with
      | none => rfl
      | some b => rfl

/-- A prepared check computes what the resolver answers. -/
lemma compute_prepare (resolver : GroupResolver) (overrides : CompiledOverrides)
    (directRoleIds : List Text) (context : Context) (permission : Text) :
    (resolver.prepare overrides directRoleIds context).compute permission =
      resolve resolver.mode overrides.1 overrides.2 directRoleIds resolver.roles permission
        (resolver.inheritance.chains context) := by
  rw [PreparedInputs.compute, resolve, ← findSome?_layersFrom]
  rfl

/-- The resolver's check of an active member, as a prepared one. -/
lemma check_active (resolver : GroupResolver) {access : MemberAccess}
    (hactive : access.status = .active) (permission : Text) (context : Context) :
    resolver.check access permission context =
      (resolver.prepare (splitEntries resolver.mode access.overrides) access.roleIds
        context).compute permission := by
  rw [compute_prepare, GroupResolver.check, if_neg (by simp [hactive])]

/-- A prepared check whose memo holds nothing but its own answers. -/
def Prepared.Sound (p : Prepared) : Prop := p.memo.Memoizes p.inputs.compute

lemma Prepared.Sound.check {p : Prepared} (h : p.Sound) (permission : Text) :
    (p.check permission).1 = p.inputs.compute permission ∧
      (p.check permission).2.inputs = p.inputs ∧ (p.check permission).2.Sound := by
  obtain ⟨hanswer, hmemo⟩ := Dict.Memoizes.memoized h (fun memo => memoLimit ≤ memo.size) permission
  exact ⟨hanswer, rfl, hmemo⟩

lemma Prepared.sound_fresh (inputs : PreparedInputs) : Prepared.Sound { inputs := inputs } :=
  Dict.memoizes_empty

/-! ### What a check should answer -/

def Exclusion.leavesOutRole (id : Text) : Exclusion → Bool
  | .roles roleIds => id ∈ roleIds
  | .overrides => false

def Exclusion.leavesOutOverrides : Exclusion → Bool
  | .roles _ => false
  | .overrides => true

/-- An access whose role ids lack the excluded ones, without overrides when these are excluded. -/
def MemberAccess.without (access : MemberAccess) (exclusions : List Exclusion) : MemberAccess where
  status := access.status
  roleIds := access.roleIds.filter fun id => !exclusions.any (Exclusion.leavesOutRole id)
  overrides := if exclusions.any Exclusion.leavesOutOverrides then [] else access.overrides

lemma any_leavesOutRole {exclusions : List Exclusion} {id : Text} :
    exclusions.any (Exclusion.leavesOutRole id) = true ↔
      ∃ roleIds, .roles roleIds ∈ exclusions ∧ id ∈ roleIds := by
  rw [List.any_eq_true]
  constructor
  · rintro ⟨e, he, hid⟩
    cases e with
    | roles roleIds => exact ⟨roleIds, he, of_decide_eq_true hid⟩
    | overrides => cases hid
  · rintro ⟨roleIds, he, hid⟩
    exact ⟨_, he, decide_eq_true hid⟩

lemma any_leavesOutOverrides {exclusions : List Exclusion} :
    exclusions.any Exclusion.leavesOutOverrides = true ↔ .overrides ∈ exclusions := by
  rw [List.any_eq_true]
  constructor
  · rintro ⟨e, he, hoverrides⟩
    cases e with
    | roles roleIds => cases hoverrides
    | overrides => exact he
  · exact fun he => ⟨_, he, rfl⟩

namespace CheckMirror

variable {m m' : CheckMirror}

/-- The access that a lookup is checked with: where the default role stands in for a membership, an
active one that holds the default role. -/
def checkedAccess (m : CheckMirror) (l : Lookup) : Option MemberAccess :=
  match l.access with
  | some access => some access
  | none =>
    if m.defaultRoleApplies l.groupState then
      some ⟨.active, l.groupState.defaultRoleId.toList, []⟩
    else none

/-- The resolver's answer on the published group and access. -/
def currentAnswer (m : CheckMirror) (userId groupId permission : Text) (context : Context)
    (exclusions : List Exclusion) : Option PermissionCheckResult :=
  (m.lookup userId groupId).map fun l =>
    match m.checkedAccess l with
    | none => notHeld
    | some access => l.groupState.resolver.check (access.without exclusions) permission context

/-- The answer that an event should give. -/
def expected (m : CheckMirror) : CheckEvent → Option PermissionCheckResult
  | .check userId groupId permission context =>
    m.currentAnswer userId groupId permission context []
  | .checkerCheck handle permission => m.handles[handle]?.bind fun h =>
    m.currentAnswer h.userId h.groupId permission h.context h.exclusions
  | _ => none

/-! ### What the caches hold -/

/-- The object that a nullable reference names. -/
def accessAt (m : CheckMirror) (access : Option Ref) : Option MemberAccess :=
  access.bind (m.accesses[·]?)

/-- A plan is the prepared check of its entry's access in its group state. -/
def PlanOk (m : CheckMirror) (access : Option Ref) (context : Context) (plan : Plan) : Prop :=
  plan.group < m.groups.length ∧ plan.prepared.Sound ∧
    ∀ group, m.groups[plan.group]? = some group →
      plan.prepared.inputs = planInputs group (m.accessAt access) context

/-- A compiled checker is the prepared check of the checker on what it was made from. -/
def CompiledOk (m : CheckMirror) (c : MemberChecker) (compiled : CompiledChecker) : Prop :=
  compiled.group < m.groups.length ∧ compiled.access.all (· < m.accesses.length) ∧
    compiled.prepared.Sound ∧ ∀ group, m.groups[compiled.group]? = some group →
      compiled.prepared.inputs = m.checkerInputs c group (m.accessAt compiled.access)

/-- A handle is on a checker of its member with its exclusions. -/
structure HandleOk (h : CheckerHandle) (c : MemberChecker) : Prop where
  userId : c.userId = h.userId
  groupId : c.groupId = h.groupId
  context : c.context = h.context
  excluded : ∀ id, id ∈ c.excluded ↔ ∃ roleIds, .roles roleIds ∈ h.exclusions ∧ id ∈ roleIds
  noOverrides : c.noOverrides = true ↔ .overrides ∈ h.exclusions

structure Good (m : CheckMirror) : Prop where
  holds : m.Holds m.state
  accesses : ∀ (i : ℕ) e, m.entries[i]? = some e → e.access.all (· < m.accesses.length)
  plans : ∀ (i : ℕ) e, m.entries[i]? = some e → ∀ context plan,
    e.plans.get? context = some plan → m.PlanOk e.access context plan
  compiled : ∀ (i : ℕ) c, m.checkers[i]? = some c → ∀ compiled, c.compiled = some compiled →
    m.CompiledOk c compiled
  handles : ∀ (i : ℕ) h, m.handles[i]? = some h →
    ∃ c, m.checkers[h.checker]? = some c ∧ HandleOk h c

/-! ### Answers from the caches -/

/-- A check of the mirror leaves nothing out. -/
lemma without_nil (access : MemberAccess) : access.without [] = access := by
  simp [MemberAccess.without]

/-- The inputs that a handle's checker prepares are those of the access without its exclusions. -/
lemma HandleOk.held {h : CheckerHandle} {c : MemberChecker} (hok : HandleOk h c)
    (roleIds : List Text) : (roleIds.filter fun id => id ∉ c.excluded) =
      roleIds.filter fun id => !h.exclusions.any (Exclusion.leavesOutRole id) := by
  refine List.filter_congr fun id _ => ?_
  rw [Bool.eq_iff_iff, decide_eq_true_eq, hok.excluded, ← any_leavesOutRole, Bool.not_eq_true']
  simp

/-- What a current plan computes is the resolver's answer. -/
lemma planInputs_compute {l : Lookup} (hgated : m.gated l = false) (permission : Text)
    (context : Context) :
    ∃ access, m.checkedAccess l = some access ∧
      (planInputs l.groupState l.access context).compute permission =
        l.groupState.resolver.check access permission context := by
  cases haccess : l.access with
  | none =>
    simp only [gated, haccess, Bool.not_eq_false'] at hgated
    refine ⟨_, by rw [checkedAccess, haccess, if_pos hgated], ?_⟩
    rw [check_active l.groupState.resolver rfl]
    rfl
  | some access =>
    simp only [gated, haccess, decide_eq_false_iff_not, not_not, ne_eq] at hgated
    refine ⟨access, by rw [checkedAccess, haccess], ?_⟩
    rw [check_active l.groupState.resolver hgated]
    rfl

/-- What a current compiled checker computes is the resolver's answer without the exclusions. -/
lemma checkerInputs_compute {l : Lookup} (hgated : m.gated l = false) {h : CheckerHandle}
    {c : MemberChecker} (hok : HandleOk h c) (permission : Text) :
    ∃ access, m.checkedAccess l = some access ∧
      (m.checkerInputs c l.groupState l.access).compute permission =
        l.groupState.resolver.check (access.without h.exclusions) permission h.context := by
  cases haccess : l.access with
  | none =>
    simp only [gated, haccess, Bool.not_eq_false'] at hgated
    refine ⟨_, by rw [checkedAccess, haccess, if_pos hgated], ?_⟩
    rw [check_active l.groupState.resolver rfl, checkerInputs, heldRoles, hok.held, if_pos hgated,
      hok.context]
    simp only [MemberAccess.without, ite_self]
    rfl
  | some access =>
    simp only [gated, haccess, decide_eq_false_iff_not, not_not, ne_eq] at hgated
    refine ⟨access, by rw [checkedAccess, haccess], ?_⟩
    have hoverrides : checkerOverrides c l.groupState (some access) =
        splitEntries l.groupState.resolver.mode (access.without h.exclusions).overrides := by
      have hsame : c.noOverrides = h.exclusions.any Exclusion.leavesOutOverrides := by
        rw [Bool.eq_iff_iff, hok.noOverrides, any_leavesOutOverrides]
      simp only [checkerOverrides, MemberAccess.without, hsame]
      split_ifs
      · rfl
      · rfl
    rw [@check_active l.groupState.resolver (access.without h.exclusions) hgated,
      checkerInputs, heldRoles, hok.held, hok.context, hoverrides]
    rfl

/-! ### Objects stay as they are -/

/-- The objects of one mirror are among those of another. -/
structure Grows (m m' : CheckMirror) : Prop where
  flag : m'.defaultRoleForNonMembers = m.defaultRoleForNonMembers
  groups : m.groups <+: m'.groups
  accesses : m.accesses <+: m'.accesses

lemma getElem?_prefix_eq {α : Type*} {l l' : List α} (h : l <+: l') {i : ℕ} (hi : i < l.length) :
    l'[i]? = l[i]? := by
  obtain ⟨more, rfl⟩ := h
  exact List.getElem?_append_left hi

lemma Grows.accessAt (h : Grows m m') {access : Option Ref}
    (haccess : access.all (· < m.accesses.length)) : m'.accessAt access = m.accessAt access := by
  cases access with
  | none => rfl
  | some ref => exact getElem?_prefix_eq h.accesses (of_decide_eq_true haccess)

lemma Grows.all_lt (h : Grows m m') {access : Option Ref}
    (haccess : access.all (· < m.accesses.length)) :
    access.all (· < m'.accesses.length) := by
  cases access with
  | none => rfl
  | some ref =>
    exact decide_eq_true ((of_decide_eq_true haccess).trans_le h.accesses.length_le)

lemma PlanOk.grows {access : Option Ref} {context : Context} {plan : Plan}
    (hplan : m.PlanOk access context plan) (h : Grows m m')
    (haccess : access.all (· < m.accesses.length)) : m'.PlanOk access context plan := by
  obtain ⟨hgroup, hsound, hinputs⟩ := hplan
  refine ⟨hgroup.trans_le h.groups.length_le, hsound, ?_⟩
  intro group hget
  rw [h.accessAt haccess]
  exact hinputs group (getElem?_prefix_eq h.groups hgroup ▸ hget)

lemma Grows.heldRoles (h : Grows m m') (c : MemberChecker) (group : GroupState)
    (access : Option MemberAccess) : m'.heldRoles c group access = m.heldRoles c group access := by
  cases access with
  | some access => rfl
  | none =>
    rw [CheckMirror.heldRoles, CheckMirror.heldRoles, defaultRoleApplies, defaultRoleApplies, h.flag]

lemma CompiledOk.grows {c : MemberChecker} {compiled : CompiledChecker}
    (hcompiled : m.CompiledOk c compiled) (h : Grows m m') : m'.CompiledOk c compiled := by
  obtain ⟨hgroup, haccess, hsound, hinputs⟩ := hcompiled
  refine ⟨hgroup.trans_le h.groups.length_le, h.all_lt haccess, hsound, ?_⟩
  intro group hget
  have hsame := hinputs group (getElem?_prefix_eq h.groups hgroup ▸ hget)
  rw [h.accessAt haccess, hsame, checkerInputs, checkerInputs, h.heldRoles]

/-- What a lookup finds. -/
lemma lookup_spec {userId groupId : Text} {l : Lookup}
    (h : m.lookup userId groupId = some l) :
    m.groups[l.group]? = some l.groupState ∧ m.entries[l.entry]? = some l.memberEntry ∧
      l.access = m.accessAt l.memberEntry.access := by
  rw [lookup] at h
  split_ifs at h
  obtain ⟨group, -, h⟩ := Option.bind_eq_some_iff.mp h
  obtain ⟨groupState, hgroup, h⟩ := Option.bind_eq_some_iff.mp h
  obtain ⟨entry, -, h⟩ := Option.bind_eq_some_iff.mp h
  obtain ⟨memberEntry, hentry, h⟩ := Option.bind_eq_some_iff.mp h
  split_ifs at h
  cases h
  exact ⟨hgroup, hentry, rfl⟩

/-! ### Steps -/

/-- The applier makes objects. -/
lemma Good.grows (h : m.Good) (hgrows : Grows m m')
    (hentries : ∃ more, m'.entries = m.entries ++ more ∧ ∀ e ∈ more,
      e.plans = Dict.empty ∧ e.access.all (· < m'.accesses.length))
    (hcheckers : m'.checkers = m.checkers) (hhandles : m'.handles = m.handles)
    (hholds : m'.Holds m'.state) : m'.Good := by
  obtain ⟨more, hmore, hnew⟩ := hentries
  refine ⟨hholds, ?_, ?_, ?_, ?_⟩
  · intro i e he
    rw [hmore, List.getElem?_append] at he
    split_ifs at he
    · exact hgrows.all_lt (h.accesses i e he)
    · exact (hnew e (List.mem_of_getElem? he)).2
  · intro i e he context plan hplan
    rw [hmore, List.getElem?_append] at he
    split_ifs at he
    · exact (h.plans i e he context plan hplan).grows hgrows (h.accesses i e he)
    · rw [(hnew e (List.mem_of_getElem? he)).1] at hplan
      cases hplan
  · intro i c hc compiled hcompiled
    rw [hcheckers] at hc
    exact (h.compiled i c hc compiled hcompiled).grows hgrows
  · rw [hhandles, hcheckers]
    exact h.handles

/-- The prepared check for a context is current and sound. -/
lemma prepared_spec (h : m.Good) {userId groupId : Text} {l : Lookup}
    (hl : m.lookup userId groupId = some l) (context : Context) :
    (prepared l context).1.inputs = planInputs l.groupState l.access context ∧
      (prepared l context).1.Sound ∧
      ∀ context' plan, (prepared l context).2.get? context' = some plan →
        m.PlanOk l.memberEntry.access context' plan := by
  obtain ⟨hgroup, hentry, haccess⟩ := lookup_spec hl
  have hlt : l.group < m.groups.length := (List.getElem?_eq_some_iff.mp hgroup).1
  have hold : ∀ context' plan, l.memberEntry.plans.get? context' = some plan →
      m.PlanOk l.memberEntry.access context' plan := h.plans _ _ hentry
  have hfresh : m.PlanOk l.memberEntry.access context
      ⟨l.group, { inputs := planInputs l.groupState l.access context }⟩ := by
    refine ⟨hlt, Prepared.sound_fresh _, ?_⟩
    intro group hget
    obtain rfl : l.groupState = group := Option.some.inj (hgroup.symm.trans hget)
    rw [haccess]
  have hput : ∀ full context' plan, (l.memberEntry.plans.putOrClear full context
      ⟨l.group, { inputs := planInputs l.groupState l.access context }⟩).get? context' =
        some plan → m.PlanOk l.memberEntry.access context' plan := by
    intro full context' plan hget
    rcases Dict.get?_putOrClear hget with ⟨rfl, rfl⟩ | ⟨-, hget⟩
    · exact hfresh
    · exact hold context' plan hget
  rw [prepared]
  cases hplan : l.memberEntry.plans.get? context with
  | none => exact ⟨rfl, Prepared.sound_fresh _, hput _⟩
  | some plan =>
    dsimp only
    split_ifs with hcurrent
    · obtain ⟨-, hsound, hinputs⟩ := hold context plan hplan
      refine ⟨?_, hsound, hold⟩
      rw [hinputs l.groupState (hcurrent ▸ hgroup), ← haccess]
    · exact ⟨rfl, Prepared.sound_fresh _, hput _⟩

/-- An answer given without a check. -/
lemma checkedAccess_gated {l : Lookup} (hgated : m.gated l = true) (exclusions : List Exclusion)
    (permission : Text) (context : Context) :
    notHeld = match m.checkedAccess l with
      | none => notHeld
      | some access => l.groupState.resolver.check (access.without exclusions) permission context := by
  cases haccess : l.access with
  | none =>
    simp only [gated, haccess, Bool.not_eq_true'] at hgated
    have hnone : m.checkedAccess l = none := by
      rw [checkedAccess, haccess]
      exact if_neg (by simp [hgated])
    rw [hnone]
  | some access =>
    simp only [gated, haccess, ne_eq, decide_not, Bool.not_eq_true', decide_eq_false_iff_not]
      at hgated
    rw [checkedAccess, haccess]
    exact (if_pos hgated).symm

/-- The compiled form of a checker is current and sound. -/
lemma compiled_spec (h : m.Good) {userId groupId : Text} {l : Lookup}
    (hl : m.lookup userId groupId = some l) {i : ℕ} {c : MemberChecker}
    (hc : m.checkers[i]? = some c) : m.CompiledOk c (m.compiled c l) ∧
      (m.compiled c l).prepared.inputs = m.checkerInputs c l.groupState l.access := by
  obtain ⟨hgroup, hentry, haccess⟩ := lookup_spec hl
  have hfresh : m.CompiledOk c ⟨l.group, l.memberEntry.access,
      m.heldRoles c l.groupState l.access, { inputs := m.checkerInputs c l.groupState l.access }⟩ := by
    refine ⟨(List.getElem?_eq_some_iff.mp hgroup).1, h.accesses _ _ hentry,
      Prepared.sound_fresh _, ?_⟩
    intro group hget
    obtain rfl : l.groupState = group := Option.some.inj (hgroup.symm.trans hget)
    rw [haccess]
  rw [compiled]
  cases hcompiled : c.compiled with
  | none => exact ⟨hfresh, rfl⟩
  | some old =>
    have hold := h.compiled i c hc old hcompiled
    dsimp only
    split_ifs with hcurrent
    · refine ⟨hold, ?_⟩
      rw [hold.2.2.2 l.groupState (hcurrent.1 ▸ hgroup), hcurrent.2, ← haccess]
    · exact ⟨hfresh, rfl⟩

/-- The plans of an entry change. -/
lemma Good.setPlans (h : m.Good) {i : ℕ} {e : MemberEntry} (he : m.entries[i]? = some e)
    {plans : Dict Context Plan}
    (hplans : ∀ context plan, plans.get? context = some plan → m.PlanOk e.access context plan) :
    Good { m with entries := m.entries.set i { e with plans := plans } } := by
  refine ⟨⟨h.holds.1, fun p hp => ?_⟩, ?_, ?_, h.compiled, h.handles⟩
  · rw [List.length_set]
    exact h.holds.2 p hp
  · intro j e' he'
    rw [List.getElem?_set] at he'
    split_ifs at he' with hij hlt
    · cases he'
      exact h.accesses i e he
    · exact h.accesses j e' he'
  · intro j e' he' context plan hplan
    rw [List.getElem?_set] at he'
    split_ifs at he' with hij hlt
    · cases he'
      exact hplans context plan hplan
    · exact h.plans j e' he' context plan hplan

/-- The compiled form of a checker changes. -/
lemma Good.setCompiled (h : m.Good) {i : ℕ} {c : MemberChecker} (hc : m.checkers[i]? = some c)
    {compiled : CompiledChecker} (hcompiled : m.CompiledOk c compiled) :
    Good { m with checkers := m.checkers.set i { c with compiled := some compiled } } := by
  refine ⟨h.holds, h.accesses, h.plans, ?_, ?_⟩
  · intro j c' hc' compiled' hcompiled'
    rw [List.getElem?_set] at hc'
    split_ifs at hc' with hij hlt
    · cases hc'
      cases hcompiled'
      exact hcompiled
    · exact h.compiled j c' hc' compiled' hcompiled'
  · intro j handle hj
    obtain ⟨c', hc', hok⟩ := h.handles j handle hj
    by_cases hi : i = handle.checker
    · obtain rfl : c = c' := Option.some.inj (hc.symm.trans (hi ▸ hc'))
      refine ⟨{ c with compiled := some compiled }, ?_,
        ⟨hok.userId, hok.groupId, hok.context, hok.excluded, hok.noOverrides⟩⟩
      rw [← hi]
      exact List.getElem?_set_self (List.getElem?_eq_some_iff.mp hc).1
    · exact ⟨c', (List.getElem?_set_ne hi).trans hc', hok⟩

/-- A check of the mirror. -/
lemma Good.check (h : m.Good) (userId groupId permission : Text) (context : Context) :
    (m.check userId groupId permission context).1 =
        m.currentAnswer userId groupId permission context [] ∧
      (m.check userId groupId permission context).2.Good := by
  rw [CheckMirror.check, currentAnswer]
  cases hl : m.lookup userId groupId with
  | none => exact ⟨rfl, h⟩
  | some l =>
    dsimp only
    split_ifs with hgated
    · exact ⟨congrArg some (checkedAccess_gated hgated [] permission context), h⟩
    · obtain ⟨hinputs, hsound, hplans⟩ := prepared_spec h hl context
      obtain ⟨hgroup, hentry, haccess⟩ := lookup_spec hl
      obtain ⟨access, hchecked, hcompute⟩ :=
        planInputs_compute (Bool.not_eq_true _ ▸ hgated) permission context
      obtain ⟨hanswer, hsame, hsound'⟩ := hsound.check permission
      refine ⟨?_, ?_⟩
      · rw [Option.map_some, hchecked]
        dsimp only
        rw [hanswer, hinputs, hcompute, without_nil]
      · have hplan : m.PlanOk l.memberEntry.access context
            ⟨l.group, ((prepared l context).1.check permission).2⟩ := by
          refine ⟨(List.getElem?_eq_some_iff.mp hgroup).1, hsound', ?_⟩
          intro group hget
          obtain rfl : l.groupState = group := Option.some.inj (hgroup.symm.trans hget)
          rw [hsame, hinputs, haccess]
        refine h.setPlans hentry fun context' plan hget => ?_
        rw [Dict.get?_set] at hget
        split_ifs at hget with hcontext
        · cases hget
          exact hcontext ▸ hplan
        · exact hplans context' plan hget

/-- A check of a checker. -/
lemma Good.checkerCheck (h : m.Good) {i : ℕ} {handle : CheckerHandle} {c : MemberChecker}
    (hc : m.checkers[i]? = some c) (hok : HandleOk handle c) (permission : Text) :
    (m.checkerCheck i c permission).1 =
        m.currentAnswer handle.userId handle.groupId permission handle.context handle.exclusions ∧
      (m.checkerCheck i c permission).2.Good := by
  rw [CheckMirror.checkerCheck, currentAnswer, ← hok.userId, ← hok.groupId]
  cases hl : m.lookup c.userId c.groupId with
  | none => exact ⟨rfl, h⟩
  | some l =>
    dsimp only
    split_ifs with hgated
    · exact ⟨congrArg some (checkedAccess_gated hgated _ permission _), h⟩
    · obtain ⟨hgroup, hentry, haccess⟩ := lookup_spec hl
      obtain ⟨⟨hlt, hvalid, hsound, hinputs⟩, hcurrent⟩ := compiled_spec h hl hc
      obtain ⟨access, hchecked, hcompute⟩ :=
        checkerInputs_compute (Bool.not_eq_true _ ▸ hgated) hok permission
      obtain ⟨hanswer, hsame, hsound'⟩ := hsound.check permission
      refine ⟨?_, h.setCompiled hc ⟨hlt, hvalid, hsound', ?_⟩⟩
      · rw [Option.map_some, hchecked]
        dsimp only
        rw [hanswer, hcurrent, hcompute]
      · intro group hget
        rw [hsame]
        exact hinputs group hget

/-- A caller takes a checker. -/
lemma Good.hold (h : m.Good) {more : List MemberChecker} {handle : CheckerHandle}
    {c : MemberChecker} (hmore : ∀ c ∈ more, c.compiled = none)
    (hc : (m.checkers ++ more)[handle.checker]? = some c) (hok : HandleOk handle c) :
    Good { m with checkers := m.checkers ++ more, handles := m.handles ++ [handle] } := by
  refine ⟨h.holds, h.accesses, h.plans, ?_, ?_⟩
  · intro i c' hc' compiled hcompiled
    rw [List.getElem?_append] at hc'
    split_ifs at hc'
    · exact h.compiled i c' hc' compiled hcompiled
    · rw [hmore c' (List.mem_of_getElem? hc')] at hcompiled
      cases hcompiled
  · intro i handle' hi
    rw [List.getElem?_append] at hi
    split_ifs at hi
    · obtain ⟨c', hc', hok'⟩ := h.handles i handle' hi
      refine ⟨c', ?_, hok'⟩
      rw [List.getElem?_append_left (List.getElem?_eq_some_iff.mp hc').1]
      exact hc'
    · obtain rfl := List.mem_singleton.mp (List.mem_of_getElem? hi)
      exact ⟨c, hc, hok⟩

/-- A checker derived by leaving out more roles. -/
lemma HandleOk.roles {handle : CheckerHandle} {c : MemberChecker} (hok : HandleOk handle c)
    (roleIds : List Text) {ref : Ref} :
    HandleOk { handle with checker := ref, exclusions := handle.exclusions ++ [.roles roleIds] }
      { c with excluded := c.excluded ∪ roleIds.toFinset, compiled := none } := by
  refine ⟨hok.userId, hok.groupId, hok.context, fun id => ?_, ?_⟩
  · rw [Finset.mem_union, List.mem_toFinset, hok.excluded]
    simp only [List.mem_append, List.mem_singleton, Exclusion.roles.injEq]
    constructor
    · rintro (⟨ids, hids, hid⟩ | hid)
      · exact ⟨ids, .inl hids, hid⟩
      · exact ⟨roleIds, .inr rfl, hid⟩
    · rintro ⟨ids, hids | rfl, hid⟩
      · exact .inl ⟨ids, hids, hid⟩
      · exact .inr hid
  · rw [List.mem_append, List.mem_singleton, hok.noOverrides]
    simp

/-- A checker derived by leaving out the overrides. -/
lemma HandleOk.overrides {handle : CheckerHandle} {c : MemberChecker} (hok : HandleOk handle c)
    {ref : Ref} :
    HandleOk { handle with checker := ref, exclusions := handle.exclusions ++ [.overrides] }
      { c with noOverrides := true, compiled := none } := by
  refine ⟨hok.userId, hok.groupId, hok.context, fun id => ?_, ?_⟩
  · rw [hok.excluded]
    simp
  · simp

/-- A handle is on any checker that agrees with its own on what is left out. -/
lemma HandleOk.same {handle : CheckerHandle} {c c' : MemberChecker} (hok : HandleOk handle c')
    (huser : c.userId = c'.userId) (hgroup : c.groupId = c'.groupId)
    (hcontext : c.context = c'.context) (hexcluded : c.excluded = c'.excluded)
    (hoverrides : c.noOverrides = c'.noOverrides) : HandleOk handle c :=
  ⟨huser ▸ hok.userId, hgroup ▸ hok.groupId, hcontext ▸ hok.context, hexcluded ▸ hok.excluded,
    hoverrides ▸ hok.noOverrides⟩

lemma Good.exclude (h : m.Good) {i : ℕ} {handle : CheckerHandle} {c : MemberChecker}
    (hi : m.handles[i]? = some handle) (hc : m.checkers[handle.checker]? = some c)
    (exclusion : Exclusion) :
    Good { (m.exclude handle.checker c exclusion).2 with
      handles := (m.exclude handle.checker c exclusion).2.handles ++
        [{ handle with
            checker := (m.exclude handle.checker c exclusion).1
            exclusions := handle.exclusions ++ [exclusion] }] } := by
  obtain ⟨c', hc', hok⟩ := h.handles i handle hi
  obtain rfl : c = c' := Option.some.inj (hc.symm.trans hc')
  have hsame : m.checkers ++ [] = m.checkers := List.append_nil _
  cases exclusion with
  | roles roleIds =>
    rw [CheckMirror.exclude, excludingRoles]
    split_ifs with hcard
    · -- nothing new is left out, and the checker itself is returned
      have hunion : c.excluded ∪ roleIds.toFinset = c.excluded :=
        (Finset.eq_of_subset_of_card_le Finset.subset_union_left hcard.le).symm
      have hgood := @Good.hold m h [] _ c (by simp) (by rw [hsame]; exact hc)
        ((hok.roles roleIds).same rfl rfl rfl hunion.symm rfl)
      rw [hsame] at hgood
      exact hgood
    · exact h.hold (by simp) (by simp) (hok.roles roleIds)
  | overrides =>
    rw [CheckMirror.exclude, excludingOverrides]
    split_ifs with hno
    · have hgood := @Good.hold m h [] _ c (by simp) (by rw [hsame]; exact hc)
        (hok.overrides.same rfl rfl rfl rfl hno)
      rw [hsame] at hgood
      exact hgood
    · exact h.hold (by simp) (by simp) hok.overrides

/-- Every event keeps the caches sound and answers as expected. -/
lemma Good.next (h : m.Good) {e : CheckEvent} {reply : Option PermissionCheckResult}
    (hnext : m.next e = some (reply, m')) : reply = m.expected e ∧ m'.Good := by
  cases e with
  | newGroup group =>
    cases hnext
    refine ⟨rfl, h.grows ⟨rfl, List.prefix_append _ _, List.prefix_refl _⟩
      ⟨[], (List.append_nil _).symm, by simp⟩ rfl rfl ⟨fun p hp => ?_, h.holds.2⟩⟩
    exact (h.holds.1 p hp).trans_le (List.prefix_append m.groups [group]).length_le
  | newAccess access =>
    cases hnext
    exact ⟨rfl, h.grows ⟨rfl, List.prefix_refl _, List.prefix_append _ _⟩
      ⟨[], (List.append_nil _).symm, by simp⟩ rfl rfl h.holds⟩
  | newEntry loaded access =>
    rw [CheckMirror.next] at hnext
    split_ifs at hnext with hvalid
    cases hnext
    refine ⟨rfl, h.grows ⟨rfl, List.prefix_refl _, List.prefix_refl _⟩ ⟨_, rfl, fun e he => ?_⟩
      rfl rfl ⟨h.holds.1, fun p hp => ?_⟩⟩
    · obtain rfl := List.mem_singleton.mp he
      exact ⟨rfl, hvalid⟩
    · exact (h.holds.2 p hp).trans_le (List.prefix_append m.entries _).length_le
  | publish state =>
    rw [CheckMirror.next] at hnext
    split_ifs at hnext with hholds
    cases hnext
    exact ⟨rfl, hholds, h.accesses, h.plans, h.compiled, h.handles⟩
  | check userId groupId permission context =>
    obtain ⟨hanswer, hgood⟩ := h.check userId groupId permission context
    have hpair : m.check userId groupId permission context = (reply, m') := Option.some.inj hnext
    rw [hpair] at hanswer hgood
    exact ⟨hanswer, hgood⟩
  | checker userId groupId context =>
    cases hnext
    refine ⟨rfl, h.hold (by simp) List.getElem?_concat_length ⟨rfl, rfl, rfl, ?_, ?_⟩⟩
    · simp
    · simp
  | exclude handle exclusion =>
    rw [CheckMirror.next, Option.bind_eq_some_iff] at hnext
    obtain ⟨hd, hi, hnext⟩ := hnext
    obtain ⟨c, hc, hnext⟩ := Option.map_eq_some_iff.mp hnext
    cases hnext
    exact ⟨rfl, h.exclude hi hc exclusion⟩
  | checkerCheck handle permission =>
    rw [CheckMirror.next, Option.bind_eq_some_iff] at hnext
    obtain ⟨hd, hi, hnext⟩ := hnext
    obtain ⟨c, hc, hnext⟩ := Option.map_eq_some_iff.mp hnext
    obtain ⟨c', hc', hok⟩ := h.handles handle hd hi
    obtain rfl : c = c' := Option.some.inj (hc.symm.trans hc')
    obtain ⟨hanswer, hgood⟩ := h.checkerCheck hc hok permission
    rw [hnext] at hanswer hgood
    refine ⟨?_, hgood⟩
    rw [expected, hi, Option.bind_some]
    exact hanswer

lemma good_run {flag : Bool} {events : List CheckEvent}
    (hrun : run { defaultRoleForNonMembers := flag } events = some m) : m.Good := by
  refine runSteps_invariant (P := Good) (fun m₁ e m₂ hgood hnext => ?_) ?_ hrun
  · obtain ⟨⟨reply, m'⟩, hstep, rfl⟩ := Option.map_eq_some_iff.mp hnext
    exact (hgood.next hstep).2
  · refine ⟨⟨?_, ?_⟩, ?_, ?_, ?_, ?_⟩
    · exact fun _ hp => by cases hp
    · exact fun _ hp => by cases hp
    · exact fun _ _ he => by simp at he
    · exact fun _ _ he => by simp at he
    · exact fun _ _ hc => by simp at hc
    · exact fun _ _ hi => by simp at hi

/-- After any reads and any published states, a check of the mirror, and of a checker derived in any
way, answers as the resolver does on the published group and access without what is left out. -/
theorem check_answers_current {flag : Bool} {events : List CheckEvent}
    (hrun : run { defaultRoleForNonMembers := flag } events = some m) {e : CheckEvent}
    {reply : Option PermissionCheckResult} (hnext : m.next e = some (reply, m')) :
    reply = m.expected e :=
  ((good_run hrun).next hnext).1

/-- A member holds `r`, which grants `fly`; a checker leaves the role out, and the member is checked
again once its role is gone. -/
def revokedRole : List CheckEvent :=
  let role : Role := ⟨text "r", 0, [⟨text "fly", true, Context.global⟩], []⟩
  let graph : RoleGraph := ⟨.exact, [role], ⟨Dict.empty⟩⟩
  let state (entry : Ref) : PublishedState :=
    ⟨true, Dict.ofList [(text "g", 0)], Dict.ofList [(⟨text "g", text "u"⟩, entry)], Dict.empty⟩
  [.newGroup ⟨graph, none, ⟨Dict.empty⟩⟩, .newAccess ⟨.active, [text "r"], []⟩,
    .newEntry true (some 0), .publish (state 0),
    .check (text "u") (text "g") (text "fly") Context.global,
    .checker (text "u") (text "g") Context.global, .exclude 0 (.roles [text "r"]),
    .checkerCheck 1 (text "fly"), .newAccess ⟨.active, [], []⟩, .newEntry true (some 1),
    .publish (state 1)]

/-- Once the role is gone, the check that was allowed before is not. -/
theorem check_answers_current_revokedRole : ∃ m m' reply,
    run { defaultRoleForNonMembers := false } revokedRole = some m ∧
      m.next (.check (text "u") (text "g") (text "fly") Context.global) = some (reply, m') ∧
      reply = m.expected (.check (text "u") (text "g") (text "fly") Context.global) ∧
      reply.map PermissionCheckResult.allowed = some false := by
  have hanswer : ((run { defaultRoleForNonMembers := false } revokedRole).bind fun m =>
      (m.next (.check (text "u") (text "g") (text "fly") Context.global)).map fun r =>
        r.1.map PermissionCheckResult.allowed) = some (some false) := by
    decide
  obtain ⟨m, hrun, hmap⟩ := Option.bind_eq_some_iff.mp hanswer
  obtain ⟨⟨reply, m'⟩, hnext, hallowed⟩ := Option.map_eq_some_iff.mp hmap
  exact ⟨m, m', reply, hrun, hnext, check_answers_current hrun hnext, hallowed⟩

end CheckMirror

end Junjo.Sdk
