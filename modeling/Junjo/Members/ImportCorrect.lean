import Junjo.Members.WritesCorrect

/-!
# Imports do what their steps say

An import locks the rows it finds and plans from them, so what it planned for a row is what it does
to it at its commit.
-/

namespace Junjo

open MemberWrites

/-! ### The batch -/

/-- What the statements of a batch do to the row of a plan. -/
def Plan.Wrote (plan : Plan) (now : ℤ) (old new : Option Member) : Prop :=
  match plan.status with
  | .created => old = none ∧ new = some (plan.createRow now)
  | .unchanged => new = old
  | _ => ∃ m, old = some m ∧ new = some (plan.apply m)

/-- The member of a plan. -/
def ImportRequest.keyOf (r : ImportRequest) (plan : Plan) : MemberKey :=
  ⟨r.groupId, plan.input.junjoUserId⟩

section Batch

variable {r : ImportRequest} {plan : Plan} {plans : List Plan} {db db' : MemberDb}

lemma Plan.write_spec {key : MemberKey} {now : ℤ} (h : plan.write key now db = some db') :
    plan.Wrote now (db.findMember key) (db'.findMember key) ∧
    (∀ k, k ≠ key → db'.findMember k = db.findMember k) ∧ db'.groups = db.groups ∧
    db'.invitations = db.invitations ∧ db'.eventLog = db.eventLog := by
  have hupdate : ∀ {data : Member → Member}, db.updateMember key data = some db' →
      (∃ m, db.findMember key = some m ∧ db'.findMember key = some (data m)) ∧
      (∀ k, k ≠ key → db'.findMember k = db.findMember k) ∧ db'.groups = db.groups ∧
      db'.invitations = db.invitations ∧ db'.eventLog = db.eventLog := by
    intro data h
    obtain ⟨m, hm, hwrites⟩ := MemberDb.writesMember_updateMember h
    exact ⟨⟨m, hm, hwrites.member⟩, hwrites.others, hwrites.groups, hwrites.invitations,
      hwrites.eventLog⟩
  rw [Plan.write] at h
  rw [Plan.Wrote]
  cases hstatus : plan.status with
  | created =>
    rw [hstatus] at h
    obtain ⟨hnone, hwrites⟩ := MemberDb.writesMember_insertMember h
    exact ⟨⟨hnone, hwrites.member⟩, hwrites.others, hwrites.groups, hwrites.invitations,
      hwrites.eventLog⟩
  | unchanged =>
    rw [hstatus] at h
    cases h
    exact ⟨rfl, fun _ _ => rfl, rfl, rfl, rfl⟩
  | reactivated =>
    rw [hstatus] at h
    exact hupdate h
  | updated =>
    rw [hstatus] at h
    exact hupdate h

lemma applyPlans_spec (hdistinct : (plans.map r.keyOf).Nodup)
    (h : applyPlans r plans db = some db') :
    (∀ p ∈ plans, p.Wrote r.now (db.findMember (r.keyOf p)) (db'.findMember (r.keyOf p))) ∧
    (∀ k, k ∉ plans.map r.keyOf → db'.findMember k = db.findMember k) ∧ db'.groups = db.groups ∧
    db'.invitations = db.invitations ∧ db'.eventLog = db.eventLog := by
  induction plans generalizing db with
  | nil =>
    cases h
    exact ⟨fun p hp => absurd hp (by simp), fun _ _ => rfl, rfl, rfl, rfl⟩
  | cons plan plans ih =>
    rw [List.map_cons, List.nodup_cons] at hdistinct
    obtain ⟨db₁, hwrite, hrest⟩ := Option.bind_eq_some_iff.mp h
    obtain ⟨hwrote, hothers, hgroups, hinvitations, hlog⟩ := Plan.write_spec hwrite
    obtain ⟨hwrote', hothers', hgroups', hinvitations', hlog'⟩ := ih hdistinct.2 hrest
    refine ⟨fun p hp => ?_, fun k hk => ?_, hgroups'.trans hgroups, hinvitations'.trans hinvitations,
      hlog'.trans hlog⟩
    · rcases List.mem_cons.mp hp with rfl | hp
      · rw [hothers' _ hdistinct.1]
        exact hwrote
      · have hne : r.keyOf p ≠ r.keyOf plan := fun heq =>
          hdistinct.1 (heq ▸ List.mem_map_of_mem hp)
        have hwrote'' := hwrote' p hp
        rwa [hothers _ hne] at hwrote''
    · rw [List.map_cons, List.mem_cons, not_or] at hk
      rw [hothers' k hk.2, hothers k hk.1]

end Batch

/-! ### The plans -/

section Plans

variable {now : ℤ} {input : ImportRow} {existing : Option Member}

lemma Plan.make_input : (Plan.make now input existing).input = input := rfl

lemma Plan.status_created_iff : (Plan.make now input existing).status = .created ↔ existing = none := by
  rw [Plan.make]
  dsimp only
  cases existing with
  | none => simp
  | some m =>
    simp only [Option.isNone_some, Bool.false_eq_true, if_false, reduceCtorEq, iff_false]
    split_ifs <;> simp

/-- A plan that is no empty one leaves the row that it says. -/
lemma Plan.row_of_wrote {new : Option Member}
    (h : (Plan.make now input existing).Wrote now existing new)
    (hchanged : (Plan.make now input existing).status ≠ .unchanged) :
    new = some ((Plan.make now input existing).row existing now) := by
  have hcreated := @Plan.status_created_iff now input existing
  rw [Plan.Wrote] at h
  generalize hplan : Plan.make now input existing = plan at h hchanged hcreated ⊢
  cases existing with
  | none =>
    rw [hcreated.mpr rfl] at h
    exact h.2
  | some m =>
    have hne : plan.status ≠ .created := fun heq => by simpa using hcreated.mp heq
    cases hstatus : plan.status with
    | created => exact absurd hstatus hne
    | unchanged => exact absurd hstatus hchanged
    | reactivated =>
      rw [hstatus] at h
      obtain ⟨_, ⟨⟩, hnew⟩ := h
      exact hnew
    | updated =>
      rw [hstatus] at h
      obtain ⟨_, ⟨⟩, hnew⟩ := h
      exact hnew

/-- An update changes roles, overrides or metadata. -/
lemma Plan.changed_of_updated (h : (Plan.make now input existing).status = .updated) :
    (Plan.make now input existing).rolesChanged = true ∨
      (Plan.make now input existing).changed ≠ [] := by
  by_contra hnone
  rw [not_or, Plan.rolesChanged, Plan.changed, Plan.make] at hnone
  rw [Plan.make] at h
  dsimp only at h hnone
  simp only [Bool.or_eq_true, decide_eq_true_eq, not_or, not_not, List.append_eq_nil_iff,
    ite_eq_right_iff, reduceCtorEq, imp_false] at hnone
  obtain ⟨⟨hadded, hremoved⟩, hmetadata, hset, hcleared⟩ := hnone
  split_ifs at h with hnew hreactivate hchanged
  simp only [Bool.or_eq_true, decide_eq_true_eq] at hchanged
  tauto

lemma Plan.Wrote.unique {plan : Plan} {old new new' : Option Member} (h : plan.Wrote now old new)
    (h' : plan.Wrote now old new') : new = new' := by
  have hupdate : (∃ m, old = some m ∧ new = some (plan.apply m)) →
      (∃ m, old = some m ∧ new' = some (plan.apply m)) → new = new' := by
    rintro ⟨m, hm, hnew⟩ ⟨m', hm', hnew'⟩
    rw [hm, Option.some.injEq] at hm'
    rw [hnew, hnew', hm']
  rw [Plan.Wrote] at h h'
  cases hstatus : plan.status with
  | created =>
    rw [hstatus] at h h'
    exact h.2.trans h'.2.symm
  | unchanged =>
    rw [hstatus] at h h'
    exact h.trans h'.symm
  | reactivated =>
    rw [hstatus] at h h'
    exact hupdate h h'
  | updated =>
    rw [hstatus] at h h'
    exact hupdate h h'

variable {plan : Plan}

/-- The roles of a row after an import. -/
lemma Plan.row_roles (hplan : plan = Plan.make now plan.input existing) :
    (plan.row existing now).roles = plan.finalRoleIds ∧
      (existing.map Member.roles).getD ∅ \ plan.rolesRemoved ∪ plan.rolesAdded = plan.finalRoleIds ∧
      plan.finalRoleIds \ plan.rolesRemoved ∪ plan.rolesAdded = plan.finalRoleIds := by
  have hadded : plan.rolesAdded = plan.finalRoleIds \ (existing.map Member.roles).getD ∅ := by
    rw [hplan]; rfl
  have hremoved : plan.rolesRemoved = (existing.map Member.roles).getD ∅ \ plan.finalRoleIds := by
    rw [hplan]; rfl
  have hfinal : (existing.map Member.roles).getD ∅ \ plan.rolesRemoved ∪ plan.rolesAdded =
      plan.finalRoleIds := by
    rw [hadded, hremoved]
    ext role
    simp only [Finset.mem_union, Finset.mem_sdiff]
    tauto
  refine ⟨?_, hfinal, ?_⟩
  · rw [← hfinal]
    cases existing with
    | none => rfl
    | some m =>
      rw [Plan.row, Plan.apply]
      split <;> rfl
  · rw [hadded, hremoved]
    ext role
    simp only [Finset.mem_union, Finset.mem_sdiff]
    tauto

/-- The status of a row after an import. -/
lemma Plan.row_status (hplan : plan = Plan.make now plan.input existing)
    (hstatus : plan.status ≠ .unchanged) :
    (plan.isJoin = true ∧ (plan.row existing now).status = .active) ∨
      (plan.isJoin = false ∧ ∃ m, existing = some m ∧ (plan.row existing now).status = m.status) := by
  have hcreated : plan.status = .created ↔ existing = none := by
    rw [hplan]
    exact Plan.status_created_iff
  rw [Plan.isJoin]
  cases existing with
  | none => exact .inl ⟨by simp [hcreated], rfl⟩
  | some m =>
    rw [Plan.row, Plan.apply]
    cases hplanned : plan.status with
    | created => exact absurd (hcreated.mp hplanned) (by simp)
    | reactivated => exact .inl ⟨rfl, rfl⟩
    | updated => exact .inr ⟨rfl, m, rfl, rfl⟩
    | unchanged => exact absurd hplanned hstatus

lemma Plan.row_version (hplan : plan = Plan.make now plan.input existing)
    (hstatus : plan.status ≠ .unchanged) :
    (plan.row existing now).version = ((existing.map Member.version).getD 0) + 1 := by
  have hcreated : plan.status = .created ↔ existing = none := by
    rw [hplan]
    exact Plan.status_created_iff
  cases existing with
  | none => rfl
  | some m =>
    rw [Plan.row, Plan.apply]
    cases hplanned : plan.status with
    | created => exact absurd (hcreated.mp hplanned) (by simp)
    | reactivated => rfl
    | updated => rfl
    | unchanged => exact absurd hplanned hstatus

end Plans

/-! ### The events -/

/-- The choice of a list's only element with a key. -/
lemma filterMap_of_unique {α β γ : Type} {l : List α} {key : α → γ} {g : α → Option β} {a : α}
    (ha : a ∈ l) (hl : (l.map key).Nodup) (hg : ∀ b ∈ l, key b ≠ key a → g b = none) :
    l.filterMap g = (g a).toList := by
  induction l with
  | nil => cases ha
  | cons b l ih =>
    rw [List.map_cons, List.nodup_cons] at hl
    rcases List.mem_cons.mp ha with rfl | ha
    · have hrest : l.filterMap g = [] := by
        refine List.filterMap_eq_nil_iff.mpr fun b hb => hg b (List.mem_cons_of_mem _ hb) ?_
        intro heq
        exact hl.1 (heq ▸ List.mem_map_of_mem hb)
      cases hga : g a with
      | none => rw [List.filterMap_cons_none hga, hrest]; rfl
      | some c => rw [List.filterMap_cons_some hga, hrest]; rfl
    · have hne : key b ≠ key a := fun heq => hl.1 (heq ▸ List.mem_map_of_mem ha)
      rw [List.filterMap_cons_none (hg b List.mem_cons_self hne)]
      exact ih ha hl.2 fun c hc => hg c (List.mem_cons_of_mem _ hc)

section Events

variable {r : ImportRequest} {plans : List Plan} {rows : Dict MemberKey Member}

/-- The events of one kind about one member. -/
lemma about_importEvents {event : Plan → Member → Option MemberEventType} {plan : Plan}
    {new : Member} (hplan : plan ∈ plans) (hdistinct : (plans.map r.keyOf).Nodup)
    (hchanged : plan.status ≠ .unchanged) (hnew : rows.get? (r.keyOf plan) = some new) :
    (plans.filterMap fun p => if p.status = .unchanged then none
      else (rows.get? ⟨r.groupId, p.input.junjoUserId⟩).bind fun m => (event p m).map fun type =>
        GroupEvent.member ⟨type, ⟨r.groupId, p.input.junjoUserId⟩, p.input.userId,
          m.version⟩).filterMap (GroupEvent.about (r.keyOf plan)) =
      ((event plan new).map fun type =>
        MemberEvent.mk type (r.keyOf plan) plan.input.userId new.version).toList := by
  rw [List.filterMap_filterMap, filterMap_of_unique hplan hdistinct]
  · rw [if_neg hchanged, ← ImportRequest.keyOf, hnew, Option.bind_some]
    cases event plan new with
    | none => rfl
    | some type =>
      rw [Option.map_some, Option.bind_some, GroupEvent.about, if_pos rfl]
      rfl
  · intro p _ hne
    split_ifs
    · rfl
    · cases rows.get? ⟨r.groupId, p.input.junjoUserId⟩ with
      | none => rfl
      | some m =>
        rw [Option.bind_some]
        cases event p m with
        | none => rfl
        | some type => exact if_neg hne

lemma eventsOf_import {plan : Plan} {new : Member} (hplan : plan ∈ plans)
    (hdistinct : (plans.map r.keyOf).Nodup) (hchanged : plan.status ≠ .unchanged)
    (hnew : rows.get? (r.keyOf plan) = some new) :
    (MemberResult.mk (.importMembers r) r.gameId none (importEvents r plans rows) none).eventsOf
      (r.keyOf plan) = plan.events (r.keyOf plan) r.actorUserId new := by
  rw [MemberResult.eventsOf, importEvents, List.filterMap_append, List.filterMap_append,
    about_importEvents hplan hdistinct hchanged hnew,
    about_importEvents hplan hdistinct hchanged hnew,
    about_importEvents hplan hdistinct hchanged hnew, Plan.events]
  split_ifs <;> rfl

lemma eventsOf_import_others {k : MemberKey}
    (hk : ∀ p ∈ plans, r.keyOf p = k → p.status = .unchanged) :
    (MemberResult.mk (.importMembers r) r.gameId none (importEvents r plans rows) none).eventsOf k =
      [] := by
  refine List.filterMap_eq_nil_iff.mpr fun e he => ?_
  have hmem : ∃ p ∈ plans, p.status ≠ .unchanged ∧ ∃ type version,
      e = .member ⟨type, r.keyOf p, p.input.userId, version⟩ := by
    simp only [importEvents, List.mem_append, List.mem_filterMap] at he
    obtain ((⟨p, hp, he⟩ | ⟨p, hp, he⟩) | ⟨p, hp, he⟩) := he
    all_goals
      by_cases hstatus : p.status = .unchanged
      · rw [if_pos hstatus] at he
        cases he
      · rw [if_neg hstatus] at he
        obtain ⟨m, -, he⟩ := Option.bind_eq_some_iff.mp he
        obtain ⟨type, -, rfl⟩ := Option.map_eq_some_iff.mp he
        exact ⟨p, hp, hstatus, type, m.version, rfl⟩
  obtain ⟨p, hp, hstatus, type, version, rfl⟩ := hmem
  exact if_neg fun heq => hstatus (hk p hp heq)

end Events

/-! ### The transaction -/

section Import

variable {r : ImportRequest} {db : MemberDb}

lemma mem_withEarlier {rows : List ImportRow} {j : ℕ} (hj : j < rows.length) :
    ((rows.zipIdx.take j).map fun e => (e.2, e.1), j, rows[j]) ∈ withEarlier rows := by
  refine List.mem_map.mpr ⟨(rows[j], j), ?_, rfl⟩
  rw [List.mk_mem_zipIdx_iff_getElem?]
  exact List.getElem?_eq_getElem hj

lemma withEarlier_rows (rows : List ImportRow) :
    (withEarlier rows).map (fun e => e.2.2) = rows := by
  rw [withEarlier, List.map_map]
  exact List.zipIdx_map_fst 0 rows

/-- Rows without errors name different people. -/
lemma distinct_of_no_errors (h : ∀ e ∈ withEarlier r.members, ∃ existing,
    importRowError r db e.1 e.2.2 existing = none) :
    (r.members.map ImportRow.junjoUserId).Nodup := by
  have herror : ∀ {earlier : List (ℕ × ImportRow)} {row : ImportRow} {existing : Option Member},
      importRowError r db earlier row existing = none → checkRoles r db row = none ∧
        earlier.find? (fun e => e.2.junjoUserId = row.junjoUserId &&
          (checkRoles r db e.2).isNone) = none := by
    intro earlier row existing herror
    rw [importRowError] at herror
    split at herror
    · cases herror
    · rename_i hroles
      split at herror
      · cases herror
      · rename_i hfind
        exact ⟨hroles, hfind⟩
  rw [List.Nodup, List.pairwise_map, List.pairwise_iff_getElem]
  intro i j hi hj hij heq
  obtain ⟨_, hrowi⟩ := h _ (mem_withEarlier hi)
  obtain ⟨_, hrowj⟩ := h _ (mem_withEarlier hj)
  have hfind := List.find?_eq_none.mp (herror hrowj).2 (i, r.members[i]) ?_
  · rw [heq, (herror hrowi).1] at hfind
    simp at hfind
  · refine List.mem_map.mpr ⟨(r.members[i], i), ?_, rfl⟩
    rw [List.mem_take_iff_getElem]
    exact ⟨i, by simpa using ⟨hij, hi⟩, by simp⟩

lemma reads_afterImport (limits : Option GroupKindLimits) (plans : List Plan) :
    MemberReads (afterImport r limits plans) fun _ => True := by
  rw [afterImport]
  split
  · exact Reads.andThen (reads_afterActivation _ _ _) fun _ => Reads.pure trivial
  · exact Reads.pure trivial

/-- The commit of an import. -/
lemma changed_import {held : List MemberLock} {plans : List Plan} {rows : Dict MemberKey Member}
    {c c' : MemberDb} (hgroup : .group r.groupId ∈ held)
    (hlocks : ∀ p ∈ plans, .member (r.keyOf p) ∈ held)
    (hdistinct : (plans.map r.keyOf).Nodup)
    (hplans : ∀ p ∈ plans, p = Plan.make r.now p.input (c.findMember (r.keyOf p)))
    (hrows : ∀ p ∈ plans, rows.get? (r.keyOf p) = c'.findMember (r.keyOf p))
    (hwrite : applyPlans r plans c = some c') (hgame : c.InGame r.groupId r.gameId) :
    MemberDb.Changed ⟨.importMembers r, r.gameId, none, importEvents r plans rows, none⟩ held c c' := by
  obtain ⟨hwrote, hothers, hgroups, hinvitations, hlog⟩ := applyPlans_spec hdistinct hwrite
  have huntouched : ∀ k, (∀ p ∈ plans, r.keyOf p = k → p.status = .unchanged) →
      c'.findMember k = c.findMember k := by
    intro k hk
    by_cases hmem : k ∈ plans.map r.keyOf
    · obtain ⟨p, hp, rfl⟩ := List.mem_map.mp hmem
      have hsame := hwrote p hp
      rw [Plan.Wrote, hk p hp rfl] at hsame
      exact hsame
    · exact hothers k hmem
  refine ⟨MemberDb.redeems_of_plain rfl hinvitations, fun id g hg => .inl (by rw [hgroups, hg]),
    fun k => ?_, fun k hk => ?_, fun _ _ _ h => (by cases h), hlog⟩
  · by_cases hk : ∀ p ∈ plans, r.keyOf p = k → p.status = .unchanged
    · exact .inl ⟨huntouched k hk, eventsOf_import_others hk⟩
    · push Not at hk
      obtain ⟨p, hp, rfl, hchanged⟩ := hk
      refine .inr ⟨hlocks p hp, .inr hgroup, ?_⟩
      have hplan := hplans p hp
      generalize hold : c.findMember (r.keyOf p) = old at hplan
      have hnew := hwrote p hp
      rw [hold, hplan] at hnew
      have hrow := Plan.row_of_wrote hnew (hplan ▸ hchanged)
      rw [← hplan] at hrow
      refine ⟨_, hrow, ?_⟩
      rw [eventsOf_import hp hdistinct hchanged ((hrows p hp).trans hrow)]
      exact MemberStep.imported rfl hplan hchanged
  · rw [hgroups]
    by_contra hgame'
    refine hk (eventsOf_import_others fun p hp heq => absurd ?_ hgame')
    exact heq ▸ hgame

/-- The rows of the import and what it planned for each. -/
def ImportRequest.plans (r : ImportRequest) (db : MemberDb) : List Plan :=
  r.members.map fun row => Plan.make r.now row (db.findMember ⟨r.groupId, row.junjoUserId⟩)

/-- The plans the handler makes along the rows are the plans of the import. -/
lemma plans_of_rows : ((withEarlier r.members).map fun (earlier, n, row) =>
      (n, row, db.findMember ⟨r.groupId, row.junjoUserId⟩, importRowError r db earlier row
        (db.findMember ⟨r.groupId, row.junjoUserId⟩))).map
      (fun (_, row, existing, _) => Plan.make r.now row existing) = r.plans db := by
  conv_rhs => rw [ImportRequest.plans, ← withEarlier_rows r.members, List.map_map]
  rw [List.map_map]
  rfl

lemma keyOf_plans : (r.plans db).map r.keyOf =
    (r.members.map ImportRow.junjoUserId).map fun person => ⟨r.groupId, person⟩ := by
  rw [ImportRequest.plans, List.map_map, List.map_map]
  rfl

lemma plans_distinct (h : (r.members.map ImportRow.junjoUserId).Nodup) :
    ((r.plans db).map r.keyOf).Nodup := by
  rw [keyOf_plans]
  refine h.map fun x y hxy => ?_
  injection hxy

/-- The rest of an import whose plans were made from the rows of a store. -/
lemma keeps_applyPlans {held : List MemberLock} {seen : List MemberDb} {db₀ db : MemberDb}
    {limits : Option GroupKindLimits} (hgroup : .group r.groupId ∈ held)
    (hdistinct : ((r.plans db₀).map r.keyOf).Nodup)
    (hsame : ∀ db' held', held ⊆ held' → MemberEvolves held' db db' →
      ∀ p ∈ r.plans db₀, db'.findMember (r.keyOf p) = db₀.findMember (r.keyOf p))
    (hgame : db.InGame r.groupId r.gameId) :
    MemberKeeps (do
      write (fun _ => (r.plans db₀).map fun p => .member ⟨r.groupId, p.input.junjoUserId⟩)
        (fun _ => ()) (applyPlans r (r.plans db₀))
      afterImport r limits (r.plans db₀)
      let finalRows ← query fun db => db.members
      finish ⟨.importMembers r, r.gameId, none, importEvents r (r.plans db₀) finalRows, none⟩)
      held some seen db := by
  rw [MemberKeeps, keeps_write]
  rintro - _ ⟨⟩ db₁ h₁
  have hsub : held ⊆ held ++ (r.plans db₀).map fun p => .member ⟨r.groupId, p.input.junjoUserId⟩ :=
    List.subset_append_left _ _
  have hlocks : ∀ p ∈ r.plans db₀, .member (r.keyOf p) ∈
      held ++ (r.plans db₀).map fun p => .member ⟨r.groupId, p.input.junjoUserId⟩ :=
    fun p hp => List.mem_append_right _ (List.mem_map_of_mem hp)
  refine reads_afterImport _ _ _ _ _ _ _ fun _ held₂ seen db₂ _ hheld₂ h₂ => ?_
  rw [keeps_query]
  rintro - view hview db₃ h₃
  refine keeps_memberFinish fun c c' hc hwrite => ?_
  have hto : MemberEvolves _ db db₂ := h₁.trans h₂
  have hto' : MemberEvolves _ db c := (hto.trans ((h₃.trans hc).mono hheld₂))
  have hwrote := (applyPlans_spec hdistinct hview).1
  have hwrote' := (applyPlans_spec hdistinct hwrite).1
  refine changed_import (hheld₂ (hsub hgroup)) (fun p hp => hheld₂ (hlocks p hp)) hdistinct ?_ ?_
    hwrite (hgame.evolves hto')
  · intro p hp
    rw [hsame c _ hsub hto' p hp]
    obtain ⟨row, -, rfl⟩ := List.mem_map.mp hp
    rfl
  · intro p hp
    refine Plan.Wrote.unique (hwrote p hp) ?_
    rw [hsame db₂ _ hsub hto p hp, ← hsame c _ hsub hto' p hp]
    exact hwrote' p hp

lemma keeps_importMembers (r : ImportRequest) :
    MemberKeeps (MemberWrites.importMembers r) [] some [] db := by
  rw [MemberWrites.importMembers]
  refine keeps_findGroup fun group seen db₁ hgame h₁ => ?_
  dsimp only
  rw [MemberKeeps, keeps_query]
  rintro - _ ⟨⟩ db₂ h₂
  refine keeps_lockGroupMembership fun locked held seen db₃ _ hgroup h₃ _ => ?_
  rw [MemberKeeps, keeps_lockQuery]
  rintro - _ ⟨⟩ db₄ h₄
  rw [keeps_query]
  rintro - _ ⟨⟩ db₅ h₅
  refine reads_kindLimitFailures _ _ _ _ _ _ _ _ _ fun failures held₆ seen db₆ _ hheld₆ h₆ => ?_
  have hgame := ((((hgame.evolves h₂).evolves h₃).evolves h₄).evolves h₅).evolves h₆
  split
  · trivial
  rename_i herrors
  simp only [ne_eq, not_not, List.filterMap_eq_nil_iff] at herrors
  have hrows : (r.members.map ImportRow.junjoUserId).Nodup := by
    refine @distinct_of_no_errors r db₄ fun e he =>
      ⟨db₄.findMember ⟨r.groupId, e.2.2.junjoUserId⟩, ?_⟩
    have hnone := herrors _ (List.mem_map_of_mem he)
    revert hnone
    dsimp only
    split
    · simp
    · rename_i herror
      exact fun _ => herror
  rw [plans_of_rows]
  have hto : MemberEvolves _ db₄ db₆ := h₅.trans h₆
  refine keeps_applyPlans (hheld₆ (List.mem_append_left _ hgroup)) (plans_distinct hrows) ?_ hgame
  intro db' held' hheld' hdb' p hp
  obtain ⟨row, hrow, rfl⟩ := List.mem_map.mp hp
  have hlater : MemberEvolves _ db₄ db' := hto.trans (hdb'.mono (List.Subset.trans hheld₆ hheld'))
  by_cases hhas : db₃.members.has ⟨r.groupId, row.junjoUserId⟩
  · refine hlater.member (List.mem_append_right _ ?_)
    exact List.mem_map_of_mem (List.mem_filter.mpr ⟨hrow, hhas⟩)
  · -- A person without a row gets none while the group is locked.
    have hnone : db₃.findMember ⟨r.groupId, row.junjoUserId⟩ = none :=
      Dict.get?_eq_none_iff.mpr fun hmem => hhas (Dict.has_iff.mpr hmem)
    have habsent : ∀ {locks c}, MemberEvolves (held ++ locks) db₃ c →
        c.findMember ⟨r.groupId, row.junjoUserId⟩ = none := by
      intro locks c hc
      rw [← MemberDb.statusOf_eq_none, hc.status (List.mem_append_left _ hgroup),
        MemberDb.statusOf_eq_none, hnone]
    exact (habsent (h₄.trans hlater)).trans (habsent h₄).symm

end Import

end Junjo
