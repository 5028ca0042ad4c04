import Junjo.Identities.People

/-!
# What a merge leaves

After the merge of two people, no column of any table may name the person that was deleted, what
named that person names the one that stays, and no row of either is lost. The merge repoints the
columns one by one, and deletes by foreign key. It reaches neither the issuers of sanctions nor the
actors of the sanction history.
-/

namespace Junjo.Identities

/-! ### The columns that name a person -/

inductive PersonColumn where
  | externalIdentity
  | groupMember
  | auditActor
  | invitationCreator
  | invitationUser
  | relationshipActor
  | relationshipTarget
  | friendTag
  | userVisibility
  | gameBan
  | gameBanIssuer
  | banHistory
  | banHistoryActor
  | sanction
  | sanctionIssuer
  | sanctionHistory
  | sanctionHistoryActor
  | moderationState
deriving DecidableEq

/-- A primary key. -/
inductive RowKey where
  | id (id : Text)
  | person (person : Person)
deriving DecidableEq

namespace PeopleDb

/-- The person that a column of a row names. -/
def cell (db : PeopleDb) : PersonColumn → RowKey → Option Text
  | .externalIdentity, .id id => (db.externalIdentities.get? id).map (·.junjoUserId)
  | .groupMember, .id id => (db.groupMembers.get? id).map (·.junjoUserId)
  | .auditActor, .id id => (db.auditEntries.get? id).bind (·.actorUserId)
  | .invitationCreator, .id id => (db.invitations.get? id).bind (·.createdByUserId)
  | .invitationUser, .id id => (db.invitations.get? id).bind (·.usedByUserId)
  | .relationshipActor, .id id => (db.userRelationships.get? id).map (·.actorJunjoUserId)
  | .relationshipTarget, .id id => (db.userRelationships.get? id).map (·.targetJunjoUserId)
  | .friendTag, .id id => (db.friendTags.get? id).map (·.junjoUserId)
  | .userVisibility, .person p => (db.userVisibilities.get? p).map fun _ => p.junjoUserId
  | .gameBan, .id id => (db.gameBans.get? id).map (·.person.junjoUserId)
  | .gameBanIssuer, .id id => (db.gameBans.get? id).bind (·.bannedByUserId)
  | .banHistory, .id id => (db.banHistory.get? id).map (·.person.junjoUserId)
  | .banHistoryActor, .id id => (db.banHistory.get? id).bind (·.actorJunjoUserId)
  | .sanction, .id id => (db.sanctions.get? id).map (·.person.junjoUserId)
  | .sanctionIssuer, .id id => (db.sanctions.get? id).bind (·.issuedByUserId)
  | .sanctionHistory, .id id => (db.sanctionHistory.get? id).map (·.person.junjoUserId)
  | .sanctionHistoryActor, .id id => (db.sanctionHistory.get? id).bind (·.actorJunjoUserId)
  | .moderationState, .person p => (db.moderationStates.get? p).map fun _ => p.junjoUserId
  | _, _ => none

/-- A membership row in a group that the person also has a row in. -/
def Duplicates (db : PeopleDb) (junjoUserId : Text) (key : RowKey) : Prop :=
  ∃ id m id' m', key = .id id ∧ db.groupMembers.get? id = some m ∧
    db.groupMembers.get? id' = some m' ∧ m'.junjoUserId = junjoUserId ∧ m'.groupId = m.groupId

/-- What a merge of the attached person into the survivor promises. -/
structure Merged (db db' : PeopleDb) (survivorId attachedId : Text) : Prop where
  unnamed : ∀ column key, db'.cell column key ≠ some attachedId
  repointed : ∀ column key, db.cell column key = some attachedId →
    db'.cell column key = some survivorId ∨
      (column = .groupMember ∧ db.Duplicates survivorId key ∧ db'.cell column key = none)
  gameBans : ∀ id b, db.gameBans.get? id = some b →
    ∃ issuer, db'.gameBans.get? id = some { b with bannedByUserId := issuer }
  banHistory : ∀ id h, db.banHistory.get? id = some h →
    ∃ actor, db'.banHistory.get? id = some { h with actorJunjoUserId := actor }
  sanctions : ∀ id s, db.sanctions.get? id = some s →
    ∃ issuer, db'.sanctions.get? id = some { s with issuedByUserId := issuer }
  sanctionHistory : ∀ id h, db.sanctionHistory.get? id = some h →
    ∃ actor, db'.sanctionHistory.get? id = some { h with actorJunjoUserId := actor }
  userRelationships : ∀ id r, db.userRelationships.get? id = some r →
    db'.userRelationships.get? id = some r
  friendTags : ∀ id t, db.friendTags.get? id = some t → db'.friendTags.get? id = some t
  userRelationshipTags : db.userRelationshipTags ⊆ db'.userRelationshipTags
  userVisibilities : ∀ p v, db.userVisibilities.get? p = some v →
    db'.userVisibilities.get? p = some v
  moderationStates : ∀ p version, db.moderationStates.get? p = some version →
    db'.moderationStates.get? p = some version

/-! ### What the footprint says -/

/-- The person has no row of the kinds that are deleted with a person. A moderation row may be left
from a request that changed nothing. -/
structure HoldsNothing (db : PeopleDb) (junjoUserId : Text) : Prop where
  userRelationships : ∀ id r, db.userRelationships.get? id = some r →
    r.actorJunjoUserId ≠ junjoUserId ∧ r.targetJunjoUserId ≠ junjoUserId
  friendTags : ∀ id t, db.friendTags.get? id = some t → t.junjoUserId ≠ junjoUserId
  userVisibilities : ∀ p v, db.userVisibilities.get? p = some v → p.junjoUserId ≠ junjoUserId
  gameBans : ∀ id b, db.gameBans.get? id = some b → b.person.junjoUserId ≠ junjoUserId
  banHistory : ∀ id h, db.banHistory.get? id = some h → h.person.junjoUserId ≠ junjoUserId
  sanctions : ∀ id s, db.sanctions.get? id = some s → s.person.junjoUserId ≠ junjoUserId
  sanctionHistory : ∀ id h, db.sanctionHistory.get? id = some h →
    h.person.junjoUserId ≠ junjoUserId
  moderationStates : ∀ p version, db.moderationStates.get? p = some version →
    p.junjoUserId = junjoUserId → version = 0

variable {db db' : PeopleDb} {gameId issuerId redeemerId survivorId attachedId : Text} {now : ℤ}
  {plan : LinkPlan} {key : RowKey}

lemma holdsNothing_of_footprint
    (h : (db.loadFootprint gameId attachedId now).holdsSomething = false) :
    db.HoldsNothing attachedId := by
  simp only [loadFootprint, Bool.or_eq_false_iff, decide_eq_false_iff_not, ne_eq, not_not,
    Dict.findMany_eq_nil_iff, Bool.and_eq_false_iff, not_lt, Nat.le_zero] at h
  obtain ⟨⟨⟨⟨⟨⟨⟨⟨⟨-, hrelationships⟩, htags⟩, hvisibility⟩, hbans⟩, hhistory⟩, hsanctions⟩,
    hsanctionHistory⟩, hmoderated⟩, -⟩ := h
  refine ⟨hrelationships, htags, hvisibility, hbans, hhistory, hsanctions, hsanctionHistory, ?_⟩
  intro p version hget hp
  exact (hmoderated p version hget).resolve_left fun hne => hne hp

/-- An accepted link attaches the side that holds nothing. -/
lemma planLink_ok (h : db.planLink gameId issuerId redeemerId now = .ok plan) :
    ((plan.survivorId = issuerId ∧ plan.attachedId = redeemerId) ∨
      (plan.survivorId = redeemerId ∧ plan.attachedId = issuerId)) ∧
      db.HoldsNothing plan.attachedId := by
  simp only [planLink] at h
  split_ifs at h with hbanned hboth hover hredeemer
  · cases h
    rw [hredeemer, Bool.and_true, Bool.not_eq_true] at hboth
    exact ⟨.inr ⟨rfl, rfl⟩, holdsNothing_of_footprint hboth⟩
  · cases h
    exact ⟨.inl ⟨rfl, rfl⟩, holdsNothing_of_footprint (Bool.not_eq_true _ ▸ hredeemer)⟩

/-! ### The tables after a merge -/

lemma inGroup_iff {groupId : Text} : db.inGroup survivorId groupId = true ↔
    ∃ id m, db.groupMembers.get? id = some m ∧ m.junjoUserId = survivorId ∧ m.groupId = groupId := by
  simp only [inGroup, List.any_eq_true, Bool.and_eq_true, decide_eq_true_eq]
  constructor
  · rintro ⟨⟨id, m⟩, hm, hmember⟩
    exact ⟨id, m, Dict.get?_eq_some_iff.mpr hm, hmember⟩
  · rintro ⟨id, m, hm, hmember⟩
    exact ⟨(id, m), Dict.get?_eq_some_iff.mp hm, hmember⟩

/-- The row ids of a selection of the attached person's memberships. -/
lemma mem_attachedRows (attachedId : Text) (test : GroupMember → Bool) {id : Text} {m : GroupMember}
    (hm : db.groupMembers.get? id = some m) :
    id ∈ ((db.groupMembers.entries.filter fun e => e.2.junjoUserId = attachedId).filter
        fun e => test e.2).map Prod.fst ↔ m.junjoUserId = attachedId ∧ test m = true := by
  simp only [List.mem_map, List.mem_filter, decide_eq_true_eq]
  constructor
  · rintro ⟨⟨id', m'⟩, ⟨⟨hentry, hperson⟩, htest⟩, rfl⟩
    obtain rfl : m = m' := Option.some.inj (hm.symm.trans (Dict.get?_eq_some_iff.mpr hentry))
    exact ⟨hperson, htest⟩
  · rintro ⟨hperson, htest⟩
    exact ⟨(id, m), ⟨⟨Dict.get?_eq_some_iff.mp hm, hperson⟩, htest⟩, rfl⟩

/-- A membership of another person stays as it is. -/
lemma get?_moveMembers_other {id : Text} {m : GroupMember} (hm : db.groupMembers.get? id = some m)
    (hperson : m.junjoUserId ≠ attachedId) :
    (db.moveMembers survivorId attachedId).groupMembers.get? id = some m := by
  have hdrop := (mem_attachedRows attachedId (fun m => db.inGroup survivorId m.groupId) hm).not.mpr
    fun h => hperson h.1
  have hmove := (mem_attachedRows attachedId (fun m => !db.inGroup survivorId m.groupId) hm).not.mpr
    fun h => hperson h.1
  rw [moveMembers, Dict.get?_updateMany, Dict.get?_deleteMany_of_get? hm (decide_eq_false hdrop),
    Option.map_some, if_neg (by rw [decide_eq_true_eq]; exact hmove)]

/-- A membership of the attached person in a group of the survivor is dropped. -/
lemma get?_moveMembers_drop {id : Text} {m : GroupMember} (hm : db.groupMembers.get? id = some m)
    (hperson : m.junjoUserId = attachedId) (hgroup : db.inGroup survivorId m.groupId = true) :
    (db.moveMembers survivorId attachedId).groupMembers.get? id = none := by
  have hdrop := (mem_attachedRows attachedId (fun m => db.inGroup survivorId m.groupId) hm).mpr
    ⟨hperson, hgroup⟩
  rw [moveMembers, Dict.get?_updateMany, Dict.get?_deleteMany_of_true hm (decide_eq_true hdrop),
    Option.map_none]

/-- Every other membership of the attached person becomes the survivor's. -/
lemma get?_moveMembers_move {id : Text} {m : GroupMember} (hm : db.groupMembers.get? id = some m)
    (hperson : m.junjoUserId = attachedId) (hgroup : db.inGroup survivorId m.groupId = false) :
    (db.moveMembers survivorId attachedId).groupMembers.get? id =
      some { m with junjoUserId := survivorId, version := m.version + 1 } := by
  have hdrop := (mem_attachedRows attachedId (fun m => db.inGroup survivorId m.groupId) hm).not.mpr
    fun h => by simp [hgroup] at h
  have hmove := (mem_attachedRows attachedId (fun m => !db.inGroup survivorId m.groupId) hm).mpr
    ⟨hperson, by simp [hgroup]⟩
  rw [moveMembers, Dict.get?_updateMany, Dict.get?_deleteMany_of_get? hm (decide_eq_false hdrop),
    Option.map_some, if_pos (decide_eq_true hmove)]

lemma get?_moveMembers_none {id : Text} (hm : db.groupMembers.get? id = none) :
    (db.moveMembers survivorId attachedId).groupMembers.get? id = none := by
  rw [moveMembers, Dict.get?_updateMany]
  cases hget : (db.groupMembers.deleteMany _).get? id with
  | none => rfl
  | some m => cases hm.symm.trans (Dict.get?_deleteMany_eq_some_iff.mp hget).1

/-- No membership of the attached person is left. -/
lemma moveMembers_unnamed (hne : survivorId ≠ attachedId) {id : Text} {m' : GroupMember}
    (h : (db.moveMembers survivorId attachedId).groupMembers.get? id = some m') :
    m'.junjoUserId ≠ attachedId := by
  cases hm : db.groupMembers.get? id with
  | none =>
    rw [get?_moveMembers_none hm] at h
    cases h
  | some m =>
    by_cases hperson : m.junjoUserId = attachedId
    · cases hgroup : db.inGroup survivorId m.groupId with
      | true =>
        rw [get?_moveMembers_drop hm hperson hgroup] at h
        cases h
      | false =>
        rw [get?_moveMembers_move hm hperson hgroup] at h
        cases h
        exact hne
    · rw [get?_moveMembers_other hm hperson] at h
      cases h
      exact hperson

/-- A column of a table is repointed. -/
lemma repoint_ne (hne : survivorId ≠ attachedId) (x : Option Text) :
    (if x = some attachedId then some survivorId else x) ≠ some attachedId := by
  split_ifs with h
  · exact fun heq => hne (Option.some.inj heq)
  · exact h

/-- The tables once the person's row is deleted, with what the merge did not move. -/
def afterMerge (db : PeopleDb) (survivorId attachedId : Text) (now : ℤ) : PeopleDb :=
  { ((db.moveIdentities survivorId attachedId now).moveMembers survivorId attachedId
        ).repointAttribution survivorId attachedId with
    people := db.people.erase attachedId
    moderationStates := db.moderationStates.deleteMany fun p _ => p.junjoUserId = attachedId }

/-- Of a person that holds nothing, the deletion takes only the person's row and moderation rows. -/
lemma mergePeople_eq (hnothing : db.HoldsNothing attachedId) (hne : survivorId ≠ attachedId)
    (h : db.mergePeople survivorId attachedId now = some db') :
    db' = db.afterMerge survivorId attachedId now := by
  have hrelated : ∀ id r, db.userRelationships.get? id = some r →
      (r.actorJunjoUserId = attachedId || r.targetJunjoUserId = attachedId : Bool) = false := by
    intro id r hr
    simpa using hnothing.userRelationships id r hr
  have howned : ∀ id t, db.friendTags.get? id = some t →
      (decide (t.junjoUserId = attachedId)) = false :=
    fun id t ht => decide_eq_false (hnothing.friendTags id t ht)
  rw [mergePeople, deletePerson] at h
  split_ifs at h with hperson
  cases h
  simp only [afterMerge, PeopleDb.mk.injEq, true_and, and_true]
  refine ⟨rfl, ?_, ?_, ?_, ?_, ?_, ?_, ?_, ?_, ?_, ?_, ?_, rfl⟩
  · refine Dict.deleteMany_eq_self fun id i hi => decide_eq_false ?_
    obtain ⟨i₀, -, rfl⟩ := Dict.get?_updateMany_eq_some_iff.mp hi
    split_ifs with hperson
    · exact hne
    · exact fun h => hperson (decide_eq_true h)
  · exact Dict.deleteMany_eq_self fun id m hm =>
      decide_eq_false (@moveMembers_unnamed db _ _ hne _ _ hm)
  · refine Dict.updateMany_eq_self fun id e he => decide_eq_false ?_
    obtain ⟨e₀, -, rfl⟩ := Dict.get?_updateMany_eq_some_iff.mp he
    split_ifs with hactor
    · exact fun h => hne (Option.some.inj h)
    · exact fun h => hactor (decide_eq_true h)
  · exact Dict.deleteMany_eq_self hrelated
  · exact Dict.deleteMany_eq_self howned
  · rw [Finset.filter_eq_self]
    intro t _
    exact ⟨Dict.any_get?_eq_false hrelated, Dict.any_get?_eq_false howned⟩
  · exact Dict.deleteMany_eq_self fun p v hv =>
      decide_eq_false (hnothing.userVisibilities p v hv)
  · refine Dict.deleteMany_eq_self fun id b hb => decide_eq_false ?_
    obtain ⟨b₀, hb₀, rfl⟩ := Dict.get?_updateMany_eq_some_iff.mp hb
    have hother := hnothing.gameBans id b₀ hb₀
    split_ifs
    · exact hother
    · exact hother
  · refine Dict.deleteMany_eq_self fun id r hr => decide_eq_false ?_
    obtain ⟨r₀, hr₀, rfl⟩ := Dict.get?_updateMany_eq_some_iff.mp hr
    have hother := hnothing.banHistory id r₀ hr₀
    split_ifs
    · exact hother
    · exact hother
  · exact Dict.deleteMany_eq_self fun id s hs => decide_eq_false (hnothing.sanctions id s hs)
  · exact Dict.deleteMany_eq_self fun id r hr =>
      decide_eq_false (hnothing.sanctionHistory id r hr)

/-- A reference to the attached person becomes one to the survivor. -/
def repoint (survivorId attachedId : Text) (x : Option Text) : Option Text :=
  if x = some attachedId then some survivorId else x

/-- The columns that the merge repoints. -/
lemma cell_repointed (id : Text) : ∀ column ∈ [PersonColumn.externalIdentity, .auditActor,
    .invitationCreator, .invitationUser, .gameBanIssuer, .banHistoryActor],
    (db.afterMerge survivorId attachedId now).cell column (.id id) =
      repoint survivorId attachedId (db.cell column (.id id)) := by
  have hidentity : ∀ i : ExternalIdentity, ({ i with junjoUserId := survivorId, linkedAt := now } :
      ExternalIdentity).junjoUserId = survivorId := fun _ => rfl
  have hcreator : ∀ i : Invitation, ({ i with usedByUserId := some survivorId } :
      Invitation).createdByUserId = i.createdByUserId := fun _ => rfl
  have huser : ∀ i : Invitation, ({ i with createdByUserId := some survivorId } :
      Invitation).usedByUserId = i.usedByUserId := fun _ => rfl
  intro column hcolumn
  simp only [List.mem_cons, List.not_mem_nil, or_false] at hcolumn
  rcases hcolumn with rfl | rfl | rfl | rfl | rfl | rfl
  · exact Dict.column_updateMany ExternalIdentity.junjoUserId hidentity db.externalIdentities id
  · exact Dict.column?_updateMany AuditEntry.actorUserId (fun _ => rfl) db.auditEntries id
  · refine (Dict.column?_updateMany_of_eq Invitation.createdByUserId hcreator _ id).trans ?_
    exact Dict.column?_updateMany Invitation.createdByUserId (fun _ => rfl) db.invitations id
  · refine (Dict.column?_updateMany Invitation.usedByUserId (fun _ => rfl) _ id).trans ?_
    rw [Dict.column?_updateMany_of_eq Invitation.usedByUserId huser _ id]
    rfl
  · exact Dict.column?_updateMany GameBan.bannedByUserId (fun _ => rfl) db.gameBans id
  · exact Dict.column?_updateMany ModerationHistory.actorJunjoUserId (fun _ => rfl)
      db.banHistory id

/-- The columns that the merge leaves as they are. -/
lemma cell_untouched (id : Text) : ∀ column ∈ [PersonColumn.relationshipActor,
    .relationshipTarget, .friendTag, .gameBan, .banHistory, .sanction, .sanctionIssuer,
    .sanctionHistory, .sanctionHistoryActor],
    (db.afterMerge survivorId attachedId now).cell column (.id id) = db.cell column (.id id) := by
  have hban : ∀ b : GameBan, ({ b with bannedByUserId := some survivorId } :
      GameBan).person.junjoUserId = b.person.junjoUserId := fun _ => rfl
  have hhistory : ∀ h : ModerationHistory, ({ h with actorJunjoUserId := some survivorId } :
      ModerationHistory).person.junjoUserId = h.person.junjoUserId := fun _ => rfl
  intro column hcolumn
  simp only [List.mem_cons, List.not_mem_nil, or_false] at hcolumn
  rcases hcolumn with rfl | rfl | rfl | rfl | rfl | rfl | rfl | rfl | rfl
  · rfl
  · rfl
  · rfl
  · exact Dict.column_updateMany_of_eq (fun b : GameBan => b.person.junjoUserId) hban db.gameBans id
  · exact Dict.column_updateMany_of_eq (fun h : ModerationHistory => h.person.junjoUserId) hhistory
      db.banHistory id
  · rfl
  · rfl
  · rfl
  · rfl

/-- A person that holds nothing is named by no row that would be deleted with it, moderation rows
apart. -/
lemma HoldsNothing.cell_ne (h : db.HoldsNothing attachedId) (id : Text) :
    ∀ column ∈ [PersonColumn.relationshipActor, .relationshipTarget, .friendTag, .gameBan,
      .banHistory, .sanction, .sanctionHistory],
    db.cell column (.id id) ≠ some attachedId := by
  intro column hcolumn hcell
  simp only [List.mem_cons, List.not_mem_nil, or_false] at hcolumn
  rcases hcolumn with rfl | rfl | rfl | rfl | rfl | rfl | rfl
  · obtain ⟨r, hr, hperson⟩ := Option.map_eq_some_iff.mp hcell
    exact (h.userRelationships id r hr).1 hperson
  · obtain ⟨r, hr, hperson⟩ := Option.map_eq_some_iff.mp hcell
    exact (h.userRelationships id r hr).2 hperson
  · obtain ⟨t, ht, hperson⟩ := Option.map_eq_some_iff.mp hcell
    exact h.friendTags id t ht hperson
  · obtain ⟨b, hb, hperson⟩ := Option.map_eq_some_iff.mp hcell
    exact h.gameBans id b hb hperson
  · obtain ⟨r, hr, hperson⟩ := Option.map_eq_some_iff.mp hcell
    exact h.banHistory id r hr hperson
  · obtain ⟨s, hs, hperson⟩ := Option.map_eq_some_iff.mp hcell
    exact h.sanctions id s hs hperson
  · obtain ⟨r, hr, hperson⟩ := Option.map_eq_some_iff.mp hcell
    exact h.sanctionHistory id r hr hperson

/-! ### Memberships -/

/-- A membership of the attached person moves to the survivor, or was one of two in its group. -/
lemma cell_groupMember (hcell : db.cell .groupMember key = some attachedId) :
    (db.afterMerge survivorId attachedId now).cell .groupMember key = some survivorId ∨
      (db.Duplicates survivorId key ∧
        (db.afterMerge survivorId attachedId now).cell .groupMember key = none) := by
  cases key with
  | person p => cases hcell
  | id id =>
    obtain ⟨m, hm, hperson⟩ := Option.map_eq_some_iff.mp hcell
    cases hgroup : db.inGroup survivorId m.groupId with
    | true =>
      obtain ⟨id', m', hm', hmember⟩ := inGroup_iff.mp hgroup
      refine .inr ⟨⟨id, m, id', m', rfl, hm, hm', hmember⟩, ?_⟩
      exact congrArg (Option.map _) (get?_moveMembers_drop hm hperson hgroup)
    | false => exact .inl (congrArg (Option.map _) (get?_moveMembers_move hm hperson hgroup))

/-! ### The exact condition -/

/-- No row names the person where the merge does not look: as issuer of a sanction, as actor of the
sanction history, or as owner of a moderation row. -/
structure Reached (db : PeopleDb) (attachedId : Text) : Prop where
  sanctions : ∀ id s, db.sanctions.get? id = some s → s.issuedByUserId ≠ some attachedId
  sanctionHistory : ∀ id h, db.sanctionHistory.get? id = some h →
    h.actorJunjoUserId ≠ some attachedId
  moderationStates : ∀ p version, db.moderationStates.get? p = some version →
    p.junjoUserId ≠ attachedId

/-- A row that is left of a table names another person. -/
lemma unnamed_afterMerge (hne : survivorId ≠ attachedId) (hnothing : db.HoldsNothing attachedId)
    (hreached : db.Reached attachedId) (column : PersonColumn) (key : RowKey) :
    (db.afterMerge survivorId attachedId now).cell column key ≠ some attachedId := by
  have hrepointed : ∀ column id, column ∈ [PersonColumn.externalIdentity, .auditActor,
      .invitationCreator, .invitationUser, .gameBanIssuer, .banHistoryActor] →
      (db.afterMerge survivorId attachedId now).cell column (.id id) ≠ some attachedId := by
    intro column id hcolumn
    rw [cell_repointed id column hcolumn]
    exact repoint_ne hne _
  have howned : ∀ column id, column ∈ [PersonColumn.relationshipActor, .relationshipTarget,
      .friendTag, .gameBan, .banHistory, .sanction, .sanctionHistory] →
      (db.afterMerge survivorId attachedId now).cell column (.id id) ≠ some attachedId := by
    intro column id hcolumn
    rw [cell_untouched id column (by revert column; decide)]
    exact hnothing.cell_ne id column hcolumn
  cases key with
  | id id =>
    cases column with
    | externalIdentity => exact hrepointed _ id (by decide)
    | groupMember =>
      intro hcell
      obtain ⟨m', hm', hperson⟩ := Option.map_eq_some_iff.mp hcell
      exact @moveMembers_unnamed db _ _ hne _ _ hm' hperson
    | auditActor => exact hrepointed _ id (by decide)
    | invitationCreator => exact hrepointed _ id (by decide)
    | invitationUser => exact hrepointed _ id (by decide)
    | relationshipActor => exact howned _ id (by decide)
    | relationshipTarget => exact howned _ id (by decide)
    | friendTag => exact howned _ id (by decide)
    | userVisibility => exact fun hcell => by cases hcell
    | gameBan => exact howned _ id (by decide)
    | gameBanIssuer => exact hrepointed _ id (by decide)
    | banHistory => exact howned _ id (by decide)
    | banHistoryActor => exact hrepointed _ id (by decide)
    | sanction => exact howned _ id (by decide)
    | sanctionIssuer =>
      intro hcell
      obtain ⟨s, hs, hissuer⟩ := Option.bind_eq_some_iff.mp hcell
      exact hreached.sanctions id s hs hissuer
    | sanctionHistory => exact howned _ id (by decide)
    | sanctionHistoryActor =>
      intro hcell
      obtain ⟨r, hr, hactor⟩ := Option.bind_eq_some_iff.mp hcell
      exact hreached.sanctionHistory id r hr hactor
    | moderationState => exact fun hcell => by cases hcell
  | person p =>
    cases column with
    | userVisibility =>
      intro hcell
      obtain ⟨v, hv, hperson⟩ := Option.map_eq_some_iff.mp hcell
      exact hnothing.userVisibilities p v hv hperson
    | moderationState =>
      intro hcell
      obtain ⟨v, hv, hperson⟩ := Option.map_eq_some_iff.mp hcell
      exact hreached.moderationStates p v (Dict.get?_deleteMany_eq_some_iff.mp hv).1 hperson
    | _ => exact fun hcell => by cases hcell

/-- What named the attached person names the survivor. -/
lemma repointed_afterMerge (hnothing : db.HoldsNothing attachedId)
    (hreached : db.Reached attachedId) {column : PersonColumn}
    (hcell : db.cell column key = some attachedId) :
    (db.afterMerge survivorId attachedId now).cell column key = some survivorId ∨
      (column = .groupMember ∧ db.Duplicates survivorId key ∧
        (db.afterMerge survivorId attachedId now).cell column key = none) := by
  have hrepointed : ∀ column id, column ∈ [PersonColumn.externalIdentity, .auditActor,
      .invitationCreator, .invitationUser, .gameBanIssuer, .banHistoryActor] →
      db.cell column (.id id) = some attachedId →
      (db.afterMerge survivorId attachedId now).cell column (.id id) = some survivorId := by
    intro column id hcolumn hcell
    rw [cell_repointed id column hcolumn, hcell]
    exact if_pos rfl
  cases key with
  | id id =>
    cases column with
    | externalIdentity => exact .inl (hrepointed _ id (by decide) hcell)
    | groupMember =>
      rcases @cell_groupMember db survivorId _ now _ hcell with hmoved | hdropped
      · exact .inl hmoved
      · exact .inr ⟨rfl, hdropped⟩
    | auditActor => exact .inl (hrepointed _ id (by decide) hcell)
    | invitationCreator => exact .inl (hrepointed _ id (by decide) hcell)
    | invitationUser => exact .inl (hrepointed _ id (by decide) hcell)
    | relationshipActor => exact absurd hcell (hnothing.cell_ne id _ (by decide))
    | relationshipTarget => exact absurd hcell (hnothing.cell_ne id _ (by decide))
    | friendTag => exact absurd hcell (hnothing.cell_ne id _ (by decide))
    | userVisibility => cases hcell
    | gameBan => exact absurd hcell (hnothing.cell_ne id _ (by decide))
    | gameBanIssuer => exact .inl (hrepointed _ id (by decide) hcell)
    | banHistory => exact absurd hcell (hnothing.cell_ne id _ (by decide))
    | banHistoryActor => exact .inl (hrepointed _ id (by decide) hcell)
    | sanction => exact absurd hcell (hnothing.cell_ne id _ (by decide))
    | sanctionIssuer =>
      obtain ⟨s, hs, hissuer⟩ := Option.bind_eq_some_iff.mp hcell
      exact absurd hissuer (hreached.sanctions id s hs)
    | sanctionHistory => exact absurd hcell (hnothing.cell_ne id _ (by decide))
    | sanctionHistoryActor =>
      obtain ⟨r, hr, hactor⟩ := Option.bind_eq_some_iff.mp hcell
      exact absurd hactor (hreached.sanctionHistory id r hr)
    | moderationState => cases hcell
  | person p =>
    cases column with
    | userVisibility =>
      obtain ⟨v, hv, hperson⟩ := Option.map_eq_some_iff.mp hcell
      exact absurd hperson (hnothing.userVisibilities p v hv)
    | moderationState =>
      obtain ⟨v, hv, hperson⟩ := Option.map_eq_some_iff.mp hcell
      exact absurd hperson (hreached.moderationStates p v hv)
    | _ => cases hcell

/-- A merge that `planLink` accepted does what it promises exactly when no sanction and no row of
the sanction history names the attached person as issuer or actor, and the attached person has no
moderation row. The route does not plan a link of a person with itself. -/
theorem mergePeople_merged_iff {linkedAt : ℤ} (hne : issuerId ≠ redeemerId)
    (hplan : db.planLink gameId issuerId redeemerId now = .ok plan)
    (hmerge : db.mergePeople plan.survivorId plan.attachedId linkedAt = some db') :
    db.Merged db' plan.survivorId plan.attachedId ↔ db.Reached plan.attachedId := by
  obtain ⟨hsides, hnothing⟩ := planLink_ok hplan
  have hdiffer : plan.survivorId ≠ plan.attachedId := by
    rcases hsides with ⟨hsurvivor, hattached⟩ | ⟨hsurvivor, hattached⟩
    · rw [hsurvivor, hattached]
      exact hne
    · rw [hsurvivor, hattached]
      exact hne.symm
  obtain rfl := mergePeople_eq hnothing hdiffer hmerge
  constructor
  · intro h
    refine ⟨fun id s hs hissuer => ?_, fun id r hr hactor => ?_, fun p version hp hperson => ?_⟩
    · exact h.unnamed .sanctionIssuer (.id id) (Option.bind_eq_some_iff.mpr ⟨s, hs, hissuer⟩)
    · exact h.unnamed .sanctionHistoryActor (.id id) (Option.bind_eq_some_iff.mpr ⟨r, hr, hactor⟩)
    · exact h.unnamed .moderationState (.person p)
        (Option.map_eq_some_iff.mpr ⟨version, h.moderationStates p version hp, hperson⟩)
  · intro hreached
    have hbans : ∀ id b, db.gameBans.get? id = some b → ∃ issuer,
        (db.afterMerge plan.survivorId plan.attachedId linkedAt).gameBans.get? id =
          some { b with bannedByUserId := issuer } := by
      intro id b hb
      by_cases hissuer : b.bannedByUserId = some plan.attachedId
      · exact ⟨some plan.survivorId, Dict.get?_updateMany_eq_some_iff.mpr
          ⟨b, hb, if_pos (decide_eq_true hissuer)⟩⟩
      · exact ⟨b.bannedByUserId, Dict.get?_updateMany_eq_some_iff.mpr
          ⟨b, hb, if_neg (by simpa using hissuer)⟩⟩
    have hhistory : ∀ id h, db.banHistory.get? id = some h → ∃ actor,
        (db.afterMerge plan.survivorId plan.attachedId linkedAt).banHistory.get? id =
          some { h with actorJunjoUserId := actor } := by
      intro id h hh
      by_cases hactor : h.actorJunjoUserId = some plan.attachedId
      · exact ⟨some plan.survivorId, Dict.get?_updateMany_eq_some_iff.mpr
          ⟨h, hh, if_pos (decide_eq_true hactor)⟩⟩
      · exact ⟨h.actorJunjoUserId, Dict.get?_updateMany_eq_some_iff.mpr
          ⟨h, hh, if_neg (by simpa using hactor)⟩⟩
    exact
      { unnamed := unnamed_afterMerge hdiffer hnothing hreached
        repointed := fun _ _ => repointed_afterMerge hnothing hreached
        gameBans := hbans
        banHistory := hhistory
        sanctions := fun id s hs => ⟨s.issuedByUserId, hs⟩
        sanctionHistory := fun id h hh => ⟨h.actorJunjoUserId, hh⟩
        userRelationships := fun _ _ hr => hr
        friendTags := fun _ _ ht => ht
        userRelationshipTags := Finset.Subset.refl _
        userVisibilities := fun _ _ hv => hv
        moderationStates := fun p version hp => Dict.get?_deleteMany_of_get? hp
          (decide_eq_false (hreached.moderationStates p version hp)) }

/-- Two people of one game, `p` and `m`, each with one id. -/
def twoPeople : PeopleDb :=
  { empty with
    people := {text "p", text "m"}
    externalIdentities := Dict.ofList
      [(text "i", ⟨text "g", text "p", text "player", 0⟩),
        (text "j", ⟨text "g", text "m", text "moderator", 0⟩)] }

/-- Two people that no sanction knows are merged as promised. -/
theorem mergePeople_merged_twoPeople : ∃ db',
    twoPeople.mergePeople (text "p") (text "m") 5 = some db' ∧
      twoPeople.Merged db' (text "p") (text "m") := by
  have hplan : twoPeople.planLink (text "g") (text "p") (text "m") 5 =
      .ok ⟨text "p", text "m", .issuer⟩ := by decide
  obtain ⟨db', hmerge⟩ := Option.isSome_iff_exists.mp
    (show (twoPeople.mergePeople (text "p") (text "m") 5).isSome = true by decide)
  have hmerged := mergePeople_merged_iff (by decide) hplan hmerge
  refine ⟨db', hmerge, hmerged.mpr ⟨?_, ?_, ?_⟩⟩
  · exact fun id s hs => by cases hs
  · exact fun id h hh => by cases hh
  · exact fun p version hp => by cases hp

/-- `m` has muted `p`. -/
def mutedPlayer : PeopleDb :=
  { twoPeople with
    sanctions := Dict.ofList [(text "s",
      ⟨text "s", ⟨text "g", text "p"⟩, text "mute", none, none, none, some (text "m"), 0⟩)]
    sanctionHistory := Dict.ofList [(text "h",
      ⟨⟨text "g", text "p"⟩, some (text "mute"), false, none, none, some (text "m"), none, some 0⟩)]
    moderationStates := Dict.ofList [(⟨text "g", text "p"⟩, 1)] }

/-- When the ids of a moderator and of a player it muted are linked, the sanction still names the
moderator as its issuer, and that person is gone. -/
theorem mergePeople_leavesIssuer : ∃ db',
    mutedPlayer.planLink (text "g") (text "p") (text "m") 5 =
      .ok ⟨text "p", text "m", .issuer⟩ ∧
    mutedPlayer.mergePeople (text "p") (text "m") 5 = some db' ∧ text "m" ∉ db'.people ∧
    db'.cell .sanctionIssuer (.id (text "s")) = some (text "m") ∧
    ¬ mutedPlayer.Merged db' (text "p") (text "m") := by
  have hplan : mutedPlayer.planLink (text "g") (text "p") (text "m") 5 =
      .ok ⟨text "p", text "m", .issuer⟩ := by decide
  have hrun : (mutedPlayer.mergePeople (text "p") (text "m") 5).map (fun db' =>
      (decide (text "m" ∈ db'.people), db'.cell .sanctionIssuer (.id (text "s")))) =
        some (false, some (text "m")) := by decide
  obtain ⟨db', hmerge, hrest⟩ := Option.map_eq_some_iff.mp hrun
  obtain ⟨hgone, hcell⟩ := Prod.mk.inj hrest
  exact ⟨db', hplan, hmerge, of_decide_eq_false hgone, hcell, fun h => h.unnamed _ _ hcell⟩

end PeopleDb

end Junjo.Identities
