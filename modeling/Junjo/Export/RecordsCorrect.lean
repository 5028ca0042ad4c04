import Junjo.Export.Records

/-!
# What an export holds

The batches of every kind hold the record of each row once, whatever the number of rows, and the
counts of the end record are those of the records written.
-/

namespace Junjo.Export

open IsoDate (Instant toISOString)
open Keyset

/-! ### Rendered ids -/

section

variable {κ α ν : Type} [DecidableEq κ] {key : α → κ} {value : α → ν} {rows : List α} {k : κ}

lemma get?_groupRows_from (rows : List α) (groups : Dict κ (List ν)) :
    ((rows.foldl (fun groups row =>
      groups.set (key row) ((groups.get? (key row)).getD [] ++ [value row])) groups).get? k)
      = if rows.filter (fun row => key row = k) = [] then groups.get? k
        else some ((groups.get? k).getD [] ++ (rows.filter fun row => key row = k).map value) := by
  induction rows generalizing groups with
  | nil => rfl
  | cons row rows ih =>
    rw [List.foldl_cons, ih, Dict.get?_set]
    by_cases hk : key row = k
    · subst hk
      rw [List.filter_cons_of_pos (by simp)]
      by_cases hnil : rows.filter (fun r => key r = key row) = []
      · rw [if_pos hnil, if_pos rfl, hnil]
        rfl
      · rw [if_neg hnil, if_pos rfl, if_neg (List.cons_ne_nil _ _)]
        simp
    · rw [List.filter_cons_of_neg (by simpa using hk), if_neg (Ne.symm hk)]

/-- The rows of a key, in the order they come. -/
lemma get?_groupRows (rows : List α) :
    (groupRows key value rows).get? k
      = if rows.filter (fun row => key row = k) = [] then none
        else some ((rows.filter fun row => key row = k).map value) := by
  rw [groupRows, get?_groupRows_from]
  rfl

end

variable {collation : KeyOrder Text} {db : Database} {preferred : List Text} {gameId : Text}

/-- The ids of a person in the game, in the order they are rendered by. -/
def identitiesOf (collation : KeyOrder Text) (db : Database) (gameId person : Text) :
    List ExternalIdentity :=
  byLinkedAt collation
    (db.externalIdentities.filter fun i => i.gameId = gameId && i.junjoUserId = person)

/-- The id a person is rendered by, if they have one in the game. -/
def renderedId (collation : KeyOrder Text) (db : Database) (preferred : List Text)
    (gameId person : Text) : Option Text :=
  let ordered := (identitiesOf collation db gameId person).map ExternalIdentity.externalUserId
  if ordered.isEmpty then none else some (pickRenderedId ordered preferred)

lemma linkedAt_nodup {rows : List ExternalIdentity}
    (h : rows.Sublist db.externalIdentities) :
    (rows.map fun i => (i.linkedAt, i.id)).Nodup := by
  have hids : (rows.map ExternalIdentity.id).Nodup :=
    db.externalIdentities_ids.sublist (h.map ExternalIdentity.id)
  refine List.Nodup.of_map Prod.snd ?_
  rw [List.map_map]
  exact hids

/-- The sorted rows of one person are those of the person, sorted. -/
lemma filter_sortBy {κ α : Type} {o : KeyOrder κ} {key : α → κ} {rows : List α} {p : α → Bool}
    (h : (rows.map key).Nodup) : (sortBy o key rows).filter p = sortBy o key (rows.filter p) := by
  refine (eq_sortBy (h.sublist (List.filter_sublist.map key)) ?_ ?_).symm
  · exact (sortBy_perm o key rows).filter p
  · exact (sortBy_strict h).filter p

lemma get?_renderUserIds {ids : List Text} {person : Text} (h : person ∈ ids) :
    (renderUserIds collation db preferred gameId ids).get? person
      = renderedId collation db preferred gameId person := by
  have hdedup : person ∈ ids.dedup := List.mem_dedup.mpr h
  have hne : ids.dedup.isEmpty = false := by
    rw [List.isEmpty_eq_false_iff]
    exact List.ne_nil_of_mem hdedup
  rw [renderUserIds, renderedId, identitiesOf]
  dsimp only
  rw [hne, if_neg Bool.false_ne_true, Dict.get?_mapValues, get?_groupRows, byLinkedAt,
    filter_sortBy (linkedAt_nodup List.filter_sublist), List.filter_filter, byLinkedAt]
  have hrows : (db.externalIdentities.filter fun i => decide (i.junjoUserId = person) &&
      (i.gameId = gameId && decide (i.junjoUserId ∈ ids.dedup)))
      = db.externalIdentities.filter fun i => i.gameId = gameId && i.junjoUserId = person := by
    apply List.filter_congr
    intro i _
    by_cases hi : i.junjoUserId = person
    · simp [hi, h]
    · simp [hi]
  rw [hrows]
  by_cases hnil : sortBy (instantOrder.lex collation) (fun i : ExternalIdentity => (i.linkedAt, i.id))
      (db.externalIdentities.filter fun i => i.gameId = gameId && i.junjoUserId = person) = []
  · rw [if_pos hnil, hnil]
    rfl
  · rw [if_neg hnil, if_neg (by simpa using hnil)]
    rfl

/-! ### Batches -/

/-- A reader reads each of these records once. -/
def ReadsAll (read : BatchReader) (table : List JsonValue) : Prop :=
  ∀ fuel, table.length < fuel →
    ∃ batches, readBatches (fun after => ((read after).records, (read after).next)) fuel none
      = some batches ∧ batches.flatten.Perm table

lemma exportBatchSize_pos : 0 < exportBatchSize := by decide

lemma readsAll_of_rows {α κ : Type} (o : KeyOrder κ) (key : α → κ) (cursor : α → Text) {rows : List α}
    {record : α → JsonValue} {read : BatchReader} (h : (rows.map key).Nodup)
    (hread : ∀ after (list : List α), (after = none ∧ list = sortBy o key rows ∨
      ∃ a ∈ rows, after = some (cursor a) ∧ list = sortBy o key (rowsAfter o key rows (some (key a)))) →
      read after = { records := (list.take exportBatchSize).map record
                     next := nextCursor exportBatchSize cursor (list.take exportBatchSize) }) :
    ReadsAll read (rows.map record) := by
  intro fuel hfuel
  rw [List.length_map] at hfuel
  have hperm := sortBy_perm o key rows
  have hafter : ∀ front a rest, sortBy o key rows = front ++ a :: rest →
      ((read (some (cursor a))).records, (read (some (cursor a))).next)
        = ((rest.take exportBatchSize).map record,
          nextCursor exportBatchSize cursor (rest.take exportBatchSize)) := by
    intro front a rest hsplit
    have ha : a ∈ rows := by
      rw [← hperm.mem_iff, hsplit]
      exact List.mem_append_right _ List.mem_cons_self
    rw [hread (some (cursor a)) rest (Or.inr ⟨a, ha, rfl, (sortBy_rowsAfter h hsplit).symm⟩)]
  obtain ⟨batches, hbatches, hflat⟩ := readBatches_rows exportBatchSize_pos
    (fun after => ((read after).records, (read after).next)) cursor record (sortBy o key rows)
    (by rw [hread none _ (Or.inl ⟨rfl, rfl⟩)]) hafter (show _ < fuel by rwa [hperm.length_eq])
  exact ⟨batches, hbatches, hflat ▸ hperm.map record⟩

/-- A table read by id. -/
lemma readsAll_pageById {α : Type} {rows : List α} {key : α → Text} {record : α → JsonValue}
    {toRecords : List α → List JsonValue} (h : (rows.map key).Nodup)
    (hrecords : ∀ list : List α, toRecords list = list.map record) :
    ReadsAll (pageById collation rows key toRecords) (rows.map record) := by
  apply readsAll_of_rows collation key key h
  intro after list hlist
  have hsorted : sortBy collation key (rowsAfter collation key rows after) = list := by
    rcases hlist with ⟨rfl, rfl⟩ | ⟨a, -, rfl, rfl⟩
    · rw [rowsAfter_none]
    · rfl
  rw [pageById, hsorted, page, hrecords]

lemma readsAll_map_shown {α : Type} {rows : List α} {key : α → Text} {record : Option Text → α → JsonValue}
    (person : α → Text) (h : (rows.map key).Nodup) :
    ReadsAll (pageById collation rows key fun list =>
      let shown := renderUserIds collation db preferred gameId (list.map person)
      list.map fun a => record (shown.get? (person a)) a)
      (rows.map fun a => record (renderedId collation db preferred gameId (person a)) a) := by
  apply readsAll_pageById h
  intro list
  apply List.map_congr_left
  intro a ha
  rw [get?_renderUserIds (List.mem_map_of_mem ha)]

/-- Every row of a kind, by its record. -/
def tableRecords (collation : KeyOrder Text) (db : Database) (preferred : List Text) (gameId : Text) :
    ExportRecordKind → List JsonValue :=
  let shown := renderedId collation db preferred gameId
  let inGame (groupId : Text) : Bool := groupInGame db gameId groupId
  fun
  | .game => ((db.games.find? fun game => game.id = gameId).map gameRecord).toList
  | .person =>
    ((db.externalIdentities.filter fun i => i.gameId = gameId).map ExternalIdentity.junjoUserId).dedup.map
      fun id => personRecord id ((identitiesOf collation db gameId id).map identityRecord)
  | .group => (db.groups.filter fun g => g.gameId = gameId).map groupRecord
  | .role => (db.roles.filter fun r => inGame r.groupId).map (roleRecord collation)
  | .member =>
    (db.groupMembers.filter fun m => inGame m.groupId).map fun m =>
      memberRecord collation (shown m.junjoUserId) m
  | .invitation => (db.invitations.filter fun i => inGame i.groupId).map invitationRecord
  | .relationship => (db.groupRelationships.filter fun r => inGame r.groupAId).map relationshipRecord
  | .ban =>
    (db.gameBans.filter fun b => b.gameId = gameId).map fun b => banRecord (shown b.junjoUserId) b
  | .banHistory =>
    (db.banHistory.filter fun b => b.gameId = gameId).map fun b =>
      banHistoryRecord (shown b.junjoUserId) b
  | .sanction =>
    (db.sanctions.filter fun s => s.gameId = gameId).map fun s => sanctionRecord (shown s.junjoUserId) s
  | .sanctionHistory =>
    (db.sanctionHistory.filter fun s => s.gameId = gameId).map fun s =>
      sanctionHistoryRecord (shown s.junjoUserId) s
  | .friendship => relationships (text "friend") .friendship
  | .friendRequest => relationships (text "request") .friendRequest
  | .block => relationships (text "blocked") .block
  | .friendTag => (db.friendTags.filter fun t => t.gameId = gameId).map (friendTagRecord collation)
  | .audit => (db.auditEntries.filter fun a => a.gameId = gameId).map auditRecord
where
  /-- The relationships of one type. -/
  relationships (type : Text) (kind : ExportRecordKind) : List JsonValue :=
    (db.userRelationships.filter fun r => r.gameId = gameId && r.type = type).map fun r =>
      userRelationshipRecord kind (renderedId collation db preferred gameId r.actorJunjoUserId)
        (renderedId collation db preferred gameId r.targetJunjoUserId) r

lemma nodup_filter {α κ : Type} {rows : List α} {key : α → κ} (h : (rows.map key).Nodup)
    (p : α → Bool) : ((rows.filter p).map key).Nodup :=
  h.sublist (List.filter_sublist.map key)

/-- The rows of a person in the order of all rows, and in the order of the person's own. -/
lemma sortBy_person {person : Text} {rows : List ExternalIdentity}
    (hrows : rows.Sublist db.externalIdentities) (hperson : ∀ i ∈ rows, i.junjoUserId = person) :
    sortBy (collation.lex (instantOrder.lex collation)) (fun i => (i.junjoUserId, i.linkedAt, i.id)) rows
      = byLinkedAt collation rows := by
  have hnodup := linkedAt_nodup hrows
  have hkeys : (rows.map fun i => (i.junjoUserId, i.linkedAt, i.id)).Nodup := by
    refine List.Nodup.of_map Prod.snd ?_
    rw [List.map_map]
    exact hnodup
  refine (eq_sortBy hnodup (sortBy_perm _ _ _) ?_).symm
  refine (sortBy_strict hkeys).imp_of_mem ?_
  intro i j hi hj hlt
  rw [(sortBy_perm _ _ _).mem_iff] at hi hj
  rcases KeyOrder.lex_lt.mp hlt with hlt | ⟨-, hlt⟩
  · have hne := (KeyOrder.lt_iff_le_and_ne.mp hlt).2
    exact absurd ((hperson i hi).trans (hperson j hj).symm) hne
  · exact hlt

lemma get?_byPerson {ids : List Text} {person : Text} (h : person ∈ ids) :
    ((groupRows ExternalIdentity.junjoUserId identityRecord
      (sortBy (collation.lex (instantOrder.lex collation)) (fun i => (i.junjoUserId, i.linkedAt, i.id))
        ((db.externalIdentities.filter fun i => i.gameId = gameId).filter fun i =>
          decide (i.junjoUserId ∈ ids)))).get? person).getD []
      = (identitiesOf collation db gameId person).map identityRecord := by
  have hkeys : ∀ rows : List ExternalIdentity, rows.Sublist db.externalIdentities →
      (rows.map fun i => (i.junjoUserId, i.linkedAt, i.id)).Nodup := by
    intro rows hrows
    refine List.Nodup.of_map Prod.snd ?_
    rw [List.map_map]
    exact linkedAt_nodup hrows
  rw [get?_groupRows, List.filter_filter, filter_sortBy (hkeys _ List.filter_sublist),
    List.filter_filter]
  have hrows : (db.externalIdentities.filter fun i => decide (i.junjoUserId = person) &&
      (decide (i.junjoUserId ∈ ids) && i.gameId = gameId))
      = db.externalIdentities.filter fun i => i.gameId = gameId && i.junjoUserId = person := by
    apply List.filter_congr
    intro i _
    by_cases hi : i.junjoUserId = person
    · simp [hi, h]
    · simp [hi]
  have hperson : ∀ i ∈ db.externalIdentities.filter fun i =>
      i.gameId = gameId && i.junjoUserId = person, i.junjoUserId = person := by
    intro i hi
    have hcond := (List.mem_filter.mp hi).2
    simp only [Bool.and_eq_true, decide_eq_true_eq] at hcond
    exact hcond.2
  rw [hrows, sortBy_person List.filter_sublist hperson, identitiesOf]
  split_ifs with hnil
  · rw [hnil]
    rfl
  · rfl

lemma readsAll_person :
    ReadsAll (personReader collation db gameId)
      (tableRecords collation db preferred gameId .person) := by
  have hrows : (((db.externalIdentities.filter fun i => i.gameId = gameId).map
      ExternalIdentity.junjoUserId).dedup.map id).Nodup := by
    rw [List.map_id]
    exact List.nodup_dedup _
  apply readsAll_of_rows collation id id hrows
  intro after list hlist
  have hsorted : sortBy collation id (rowsAfter collation id
      ((db.externalIdentities.filter fun i => i.gameId = gameId).map
        ExternalIdentity.junjoUserId).dedup after) = list := by
    rcases hlist with ⟨rfl, rfl⟩ | ⟨a, -, rfl, rfl⟩
    · rw [rowsAfter_none]
    · rfl
  have hmem : ∀ p ∈ list.take exportBatchSize, p ≠ [] := by
    intro p hp
    have hp' := List.mem_of_mem_take hp
    rw [← hsorted, (sortBy_perm _ _ _).mem_iff] at hp'
    have hp'' := List.mem_dedup.mp (List.mem_of_mem_filter hp')
    obtain ⟨i, hi, rfl⟩ := List.mem_map.mp hp''
    exact db.person_ne_nil i (List.mem_of_mem_filter hi)
  rw [personReader, hsorted, Batch.mk.injEq]
  constructor
  · apply List.map_congr_left
    intro p hp
    rw [get?_byPerson hp]
  · rw [nextCursor]
    split_ifs
    · cases hlast : (list.take exportBatchSize).getLast? with
      | none => rfl
      | some p =>
        dsimp only
        rw [if_neg (hmem p (List.mem_of_getLast? hlast))]
        rfl
    · rfl

lemma splitCursor_relationshipCursor {r : GroupRelationship} (hA : 0 ∉ r.groupAId)
    (hB : 0 ∉ r.groupBId) : splitCursor (relationshipCursor r) = (r.groupAId, r.groupBId) := by
  have hsplit : (relationshipCursor r).splitOn 0 = [r.groupAId, r.groupBId] := by
    rw [relationshipCursor, List.splitOn_append_cons_self_of_not_mem hA, List.splitOn_eq_singleton hB]
  rw [splitCursor, hsplit]
  rfl

lemma readsAll_relationship :
    ReadsAll (relationshipReader collation db gameId)
      (tableRecords collation db preferred gameId .relationship) := by
  have hrows := nodup_filter db.groupRelationships_ids fun r => groupInGame db gameId r.groupAId
  apply readsAll_of_rows (collation.lex collation) _ relationshipCursor hrows
  intro after list hlist
  have hsorted : sortBy (collation.lex collation) (fun r => (r.groupAId, r.groupBId))
      (db.groupRelationships.filter fun r =>
        groupInGame db gameId r.groupAId && after.all fun after =>
          collation.lt (splitCursor after).1 r.groupAId ||
            (r.groupAId = (splitCursor after).1 && collation.lt (splitCursor after).2 r.groupBId))
      = list := by
    rcases hlist with ⟨rfl, rfl⟩ | ⟨a, ha, rfl, rfl⟩
    · congr 1
      apply List.filter_congr
      intro r _
      simp
    · obtain ⟨hA, hB⟩ := db.no_null a (List.mem_of_mem_filter ha)
      rw [rowsAfter, List.filter_filter]
      congr 1
      apply List.filter_congr
      intro r _
      rw [Bool.eq_iff_iff]
      simp only [Option.all_some, splitCursor_relationshipCursor hA hB, Bool.and_eq_true,
        Bool.or_eq_true, decide_eq_true_eq, KeyOrder.lex_lt]
      tauto
  rw [relationshipReader]
  dsimp only
  rw [hsorted]
  rfl

lemma readsAll_userRelationship (type : Text) (kind : ExportRecordKind) :
    ReadsAll (userRelationshipReader collation db preferred gameId type kind)
      (tableRecords.relationships collation db preferred gameId type kind) := by
  apply readsAll_pageById (nodup_filter db.userRelationships_ids _)
  intro list
  apply List.map_congr_left
  intro r hr
  have hactor : r.actorJunjoUserId ∈ list.flatMap fun r => [r.actorJunjoUserId, r.targetJunjoUserId] :=
    List.mem_flatMap.mpr ⟨r, hr, by simp⟩
  have htarget : r.targetJunjoUserId ∈ list.flatMap fun r => [r.actorJunjoUserId, r.targetJunjoUserId] :=
    List.mem_flatMap.mpr ⟨r, hr, by simp⟩
  rw [get?_renderUserIds hactor, get?_renderUserIds htarget]

/-- Every reader reads the rows of its kind once. -/
lemma readsAll_readers {kind : ExportRecordKind} {read : BatchReader}
    (h : readers collation db preferred gameId kind = some read) :
    ReadsAll read (tableRecords collation db preferred gameId kind) := by
  cases kind with
  | game => cases h
  | person =>
    cases h
    exact readsAll_person
  | group =>
    cases h
    exact readsAll_pageById (nodup_filter db.groups_ids _) fun _ => rfl
  | role =>
    cases h
    exact readsAll_pageById (nodup_filter db.roles_ids _) fun _ => rfl
  | member =>
    cases h
    exact readsAll_map_shown GroupMember.junjoUserId (nodup_filter db.groupMembers_ids _)
  | invitation =>
    cases h
    exact readsAll_pageById (nodup_filter db.invitations_ids _) fun _ => rfl
  | relationship =>
    cases h
    exact readsAll_relationship
  | ban =>
    cases h
    exact readsAll_map_shown GameBan.junjoUserId (nodup_filter db.gameBans_ids _)
  | banHistory =>
    cases h
    exact readsAll_map_shown BanHistory.junjoUserId (nodup_filter db.banHistory_ids _)
  | sanction =>
    cases h
    exact readsAll_map_shown Sanction.junjoUserId (nodup_filter db.sanctions_ids _)
  | sanctionHistory =>
    cases h
    exact readsAll_map_shown SanctionHistory.junjoUserId (nodup_filter db.sanctionHistory_ids _)
  | friendship =>
    cases h
    exact readsAll_userRelationship _ _
  | friendRequest =>
    cases h
    exact readsAll_userRelationship _ _
  | block =>
    cases h
    exact readsAll_userRelationship _ _
  | friendTag =>
    cases h
    exact readsAll_pageById (nodup_filter db.friendTags_ids _) fun _ => rfl
  | audit =>
    cases h
    exact readsAll_pageById (nodup_filter db.auditEntries_ids _) fun _ => rfl

/-! ### Chunks -/

lemma addBatch_flatten (p : Progress) (kind : ExportRecordKind) (records : List JsonValue) :
    (p.addBatch kind records).chunks.flatten = p.chunks.flatten ++ records.flatMap jsonLine := by
  cases records with
  | nil => simp [Progress.addBatch]
  | cons r records => simp [Progress.addBatch]

lemma exportKind_spec (kind : ExportRecordKind) (read : BatchReader) {fuel : ℕ} {after : Option Text}
    {batches : List (List JsonValue)} (p : Progress)
    (h : readBatches (fun after => ((read after).records, (read after).next)) fuel after
      = some batches) :
    ∃ p', exportKind kind read fuel after p = some p' ∧
      p'.chunks.flatten = p.chunks.flatten ++ batches.flatten.flatMap jsonLine ∧
      p'.counts = Function.update p.counts kind (p.counts kind + batches.flatten.length) := by
  induction fuel generalizing after batches p with
  | zero => cases h
  | succ fuel ih =>
    rw [readBatches] at h
    rw [exportKind]
    dsimp only at h ⊢
    cases hnext : (read after).next with
    | none =>
      rw [hnext] at h
      cases h
      refine ⟨_, rfl, ?_, ?_⟩
      · rw [addBatch_flatten, List.flatten_singleton]
      · rw [List.flatten_singleton]
        rfl
    | some next =>
      rw [hnext] at h
      obtain ⟨rest, hrest, rfl⟩ := Option.map_eq_some_iff.mp h
      obtain ⟨p', hp', hchunks, hcounts⟩ := ih (p.addBatch kind (read after).records) hrest
      refine ⟨p', hp', ?_, ?_⟩
      · rw [hchunks, addBatch_flatten, List.flatten_cons, List.flatMap_append, List.append_assoc]
      · rw [hcounts, Progress.addBatch, Function.update_idem]
        dsimp only
        rw [Function.update_self, List.flatten_cons, List.length_append, Nat.add_assoc]

lemma exportKinds_spec {fuel : ℕ} {kinds : List ExportRecordKind} (hkinds : kinds.Nodup)
    (hfuel : ∀ kind ∈ kinds, (tableRecords collation db preferred gameId kind).length < fuel)
    (p : Progress) :
    ∃ p' rows, exportKinds collation db preferred gameId fuel kinds p = some p' ∧
      (∀ kind ∈ kinds, kind ≠ .game →
        (rows kind).Perm (tableRecords collation db preferred gameId kind)) ∧
      p'.chunks.flatten
        = p.chunks.flatten ++ ((kinds.filter (· ≠ .game)).flatMap rows).flatMap jsonLine ∧
      ∀ kind, p'.counts kind = p.counts kind
        + if kind ∈ kinds ∧ kind ≠ .game then (rows kind).length else 0 := by
  induction kinds generalizing p with
  | nil => exact ⟨p, fun _ => [], rfl, by simp, by simp, by simp⟩
  | cons kind kinds ih =>
    obtain ⟨hkind, hrestKinds⟩ := List.nodup_cons.mp hkinds
    have hfuel' : ∀ k ∈ kinds, (tableRecords collation db preferred gameId k).length < fuel :=
      fun k hk => hfuel k (List.mem_cons_of_mem _ hk)
    rw [exportKinds]
    by_cases hgame : kind = .game
    · subst hgame
      obtain ⟨p', rows, hp', hperm, hchunks, hcounts⟩ := ih hrestKinds hfuel' p
      refine ⟨p', rows, hp', ?_, ?_, ?_⟩
      · intro k hk hne
        exact hperm k ((List.mem_cons.mp hk).resolve_left hne) hne
      · rw [hchunks, List.filter_cons_of_neg (by simp)]
      · intro k
        rw [hcounts k]
        by_cases hk : k = .game
        · simp [hk]
        · simp [hk]
    · obtain ⟨read, hread⟩ : ∃ read, readers collation db preferred gameId kind = some read := by
        cases kind <;> first | exact absurd rfl hgame | exact ⟨_, rfl⟩
      obtain ⟨batches, hbatches, hflat⟩ := readsAll_readers hread fuel (hfuel kind List.mem_cons_self)
      obtain ⟨p₁, hp₁, hchunks₁, hcounts₁⟩ := exportKind_spec kind read p hbatches
      obtain ⟨p', rows, hp', hperm, hchunks, hcounts⟩ := ih hrestKinds hfuel' p₁
      have hother : ∀ k ∈ kinds, Function.update rows kind batches.flatten k = rows k := by
        intro k hk
        refine Function.update_of_ne ?_ _ _
        rintro rfl
        exact hkind hk
      refine ⟨p', Function.update rows kind batches.flatten, ?_, ?_, ?_, ?_⟩
      · rw [hread]
        dsimp only
        rw [hp₁]
        exact hp'
      · intro k hk hne
        rcases List.mem_cons.mp hk with rfl | hk
        · rw [Function.update_self]
          exact hflat
        · rw [hother k hk]
          exact hperm k hk hne
      · have hrest : (kinds.filter (· ≠ .game)).flatMap (Function.update rows kind batches.flatten)
            = (kinds.filter (· ≠ .game)).flatMap rows :=
          List.flatMap_congr fun k hk => hother k (List.mem_of_mem_filter hk)
        rw [List.filter_cons_of_pos (by simpa using hgame), List.flatMap_cons, hrest,
          Function.update_self, hchunks, hchunks₁, List.flatMap_append, List.append_assoc]
      · intro k
        rw [hcounts k, hcounts₁]
        by_cases hk : k = kind
        · subst hk
          simp [hkind, hgame]
        · rw [Function.update_of_ne hk, Function.update_of_ne hk]
          simp [hk]

lemma all_nodup : ExportRecordKind.all.Nodup := by decide

lemma mem_all (kind : ExportRecordKind) : kind ∈ ExportRecordKind.all := by
  cases kind <;> decide

/-- An export holds its header, the records of every kind, each row once, and an end record with the
number of records of each kind. -/
lemma exportChunks_spec {game : Game} (hgame : db.games.find? (fun game => game.id = gameId) = some game)
    (position : Text) (exportedAt : Instant) {fuel : ℕ}
    (hfuel : ∀ kind, (tableRecords collation db preferred gameId kind).length < fuel) :
    ∃ chunks rows, exportChunks collation db preferred gameId position exportedAt fuel
        = some (chunks, true) ∧
      (∀ kind, (rows kind).Perm (tableRecords collation db preferred gameId kind)) ∧
      chunks.flatten = (headerRecord gameId position exportedAt :: ExportRecordKind.all.flatMap rows
        ++ [endRecord fun kind => (rows kind).length]).flatMap jsonLine := by
  obtain ⟨p', rows, hp', hperm, hchunks, hcounts⟩ := exportKinds_spec
    all_nodup (fun kind _ => hfuel kind)
    { chunks := [jsonLine (headerRecord gameId position exportedAt), jsonLine (gameRecord game)]
      counts := Function.update (fun _ => 0) ExportRecordKind.game 1 }
  have hgameRecords : tableRecords collation db preferred gameId .game = [gameRecord game] := by
    have htable : tableRecords collation db preferred gameId .game
        = ((db.games.find? fun game => game.id = gameId).map gameRecord).toList := rfl
    rw [htable, hgame]
    rfl
  have hall : ExportRecordKind.all = .game :: ExportRecordKind.all.filter (· ≠ .game) := by decide
  refine ⟨p'.chunks ++ [jsonLine (endRecord p'.counts)],
    Function.update rows .game [gameRecord game], ?_, ?_, ?_⟩
  · rw [exportChunks]
    dsimp only
    rw [hgame]
    dsimp only
    rw [hp']
    rfl
  · intro kind
    by_cases hkind : kind = .game
    · subst hkind
      rw [Function.update_self, hgameRecords]
    · rw [Function.update_of_ne hkind]
      exact hperm kind (mem_all kind) hkind
  · have hends : p'.counts = fun kind => (Function.update rows .game [gameRecord game] kind).length := by
      funext kind
      rw [hcounts kind]
      by_cases hkind : kind = .game
      · simp [hkind]
      · simp [hkind, mem_all kind]
    have hrest : (ExportRecordKind.all.filter (· ≠ .game)).flatMap
        (Function.update rows .game [gameRecord game])
        = (ExportRecordKind.all.filter (· ≠ .game)).flatMap rows := by
      apply List.flatMap_congr
      intro kind hkind
      have hne : kind ≠ .game := by simpa using (List.mem_filter.mp hkind).2
      exact Function.update_of_ne hne _ _
    have hrows : ExportRecordKind.all.flatMap (Function.update rows .game [gameRecord game])
        = gameRecord game :: (ExportRecordKind.all.filter (· ≠ .game)).flatMap rows := by
      conv_lhs => rw [hall]
      rw [List.flatMap_cons, hrest, Function.update_self]
      rfl
    rw [List.flatten_append, hchunks, hrows, hends]
    simp

/-! ### Records as values -/

open Json (Valid ValidItems ValidEntries)

/-- A value that can be written and read back, and whose `kind` is `kind`. -/
structure IsRecord (kind : Text) (value : JsonValue) : Prop where
  valid : Valid value
  kindFirst : ∃ entries, value = .obj ((text "kind", .str kind) :: entries)

@[simp] lemma valid_str (t : Text) : Valid (.str t) := by simp [Valid]

@[simp] lemma valid_bool (b : Bool) : Valid (.bool b) := by simp [Valid]

@[simp] lemma valid_nullable (t : Option Text) : Valid (nullable t) := by
  cases t <;> simp [nullable, Valid]

@[simp] lemma valid_date (d : Instant) : Valid (date d) := valid_str _

@[simp] lemma valid_iso (d : Option Instant) : Valid (iso d) := by
  cases d with
  | none => simp [iso, Valid]
  | some d => exact valid_date d

@[simp] lemma valid_integer (z : ℤ) : Valid (integer z) := Json.isNumber_integerText z

@[simp] lemma valid_stored (s : Stored) : Valid s.val := s.property

@[simp] lemma valid_arr_map {α : Type} {f : α → JsonValue} {l : List α} :
    Valid (.arr (l.map f)) ↔ ∀ a ∈ l, Valid (f a) := by
  rw [Valid]
  induction l with
  | nil => simp [ValidItems]
  | cons a l ih => simp [ValidItems, ih]

lemma validEntries_iff {entries : List (Text × JsonValue)} :
    ValidEntries entries ↔ ∀ e ∈ entries, Valid e.2 := by
  induction entries with
  | nil => simp [ValidEntries]
  | cons e entries ih => simp [ValidEntries, ih]

/-- An object whose keys are these, and whose values are valid. -/
lemma valid_object {fields : List (String × JsonValue)} (hkeys : ((fields.map Prod.fst).map text).Nodup)
    (hvalues : ∀ f ∈ fields, Valid f.2) : Valid (object fields) := by
  rw [object, Valid, validEntries_iff, List.map_map]
  rw [List.map_map] at hkeys
  refine ⟨hkeys, ?_⟩
  intro e he
  obtain ⟨f, hf, rfl⟩ := List.mem_map.mp he
  exact hvalues f hf

lemma isRecord_object {kind : Text} {fields : List (String × JsonValue)}
    (hkeys : ((("kind", JsonValue.str kind) :: fields).map Prod.fst |>.map text).Nodup)
    (hvalues : ∀ f ∈ fields, Valid f.2) : IsRecord kind (object (("kind", .str kind) :: fields)) where
  valid := by
    apply valid_object hkeys
    intro f hf
    rcases List.mem_cons.mp hf with rfl | hf
    · exact valid_str _
    · exact hvalues f hf
  kindFirst := ⟨_, rfl⟩

lemma contextFromStored_nodup {context : Option Stored} {out : List (Text × Text)}
    (h : contextFromStored context = some out) : (out.map Prod.fst).Nodup := by
  match context, h with
  | some ⟨.obj entries, hvalid⟩, h =>
    rw [contextFromStored] at h
    split_ifs at h
    obtain rfl := Option.some.inj h
    have hsorted : ((entries.insertionSort fun a b => a.1 ≤ b.1).map Prod.fst).Nodup :=
      ((List.perm_insertionSort _ _).map Prod.fst).nodup_iff.mpr hvalid.1
    refine hsorted.sublist ?_
    induction entries.insertionSort fun a b => a.1 ≤ b.1 with
    | nil => simp
    | cons e l ih =>
      obtain ⟨k, v⟩ := e
      cases v <;> first
        | exact ih.cons _
        | exact ih.cons_cons _

/-- The fields of a contextual row: at most one, and it is valid. -/
lemma rowContextField_cases (context : Option Stored) (contextKey : Text) :
    rowContextField context contextKey = [] ∨
      ∃ value, Valid value ∧ rowContextField context contextKey = [("context", value)] := by
  rw [rowContextField]
  split_ifs
  · exact Or.inl rfl
  · cases hout : contextFromStored context with
    | none => exact Or.inl rfl
    | some out =>
      refine Or.inr ⟨_, ?_, rfl⟩
      rw [Valid, validEntries_iff, List.map_map]
      refine ⟨contextFromStored_nodup hout, ?_⟩
      intro e he
      obtain ⟨f, -, rfl⟩ := List.mem_map.mp he
      exact valid_str _

@[simp] lemma valid_roleEntry (p : RolePermission) : Valid (roleEntry p) := by
  rw [roleEntry]
  rcases rowContextField_cases p.context p.contextKey with h | ⟨value, hvalue, h⟩
  · rw [h]
    exact valid_object (by simp only [List.map, List.cons_append, List.nil_append]; decide) (by simp)
  · rw [h]
    exact valid_object (by simp only [List.map, List.cons_append, List.nil_append]; decide) (by simp [hvalue])

@[simp] lemma valid_overrideEntry (o : PermissionOverride) : Valid (overrideEntry o) := by
  rw [overrideEntry]
  rcases rowContextField_cases o.context o.contextKey with h | ⟨value, hvalue, h⟩
  · rw [h]
    exact valid_object (by simp only [List.map, List.cons_append, List.nil_append]; decide) (by simp)
  · rw [h]
    exact valid_object (by simp only [List.map, List.cons_append, List.nil_append]; decide) (by simp [hvalue])

@[simp] lemma valid_identityRecord (i : ExternalIdentity) : Valid (identityRecord i) := by
  rw [identityRecord]
  exact valid_object (by simp only [List.map]; decide) (by simp)

lemma isRecord_userRelationshipRecord (kind : ExportRecordKind) (actor target : Option Text)
    (r : UserRelationship) : IsRecord kind.name (userRelationshipRecord kind actor target r) :=
  isRecord_object (by simp only [List.map]; decide) (by simp)

/-- Every record of a table is a record of its kind. -/
lemma isRecord_of_mem_tableRecords {kind : ExportRecordKind} {record : JsonValue}
    (h : record ∈ tableRecords collation db preferred gameId kind) : IsRecord kind.name record := by
  cases kind with
  | game =>
    obtain ⟨game, -, rfl⟩ := Option.map_eq_some_iff.mp (Option.mem_toList.mp h)
    exact isRecord_object (by simp only [List.map]; decide) (by simp)
  | person =>
    obtain ⟨p, -, rfl⟩ := List.mem_map.mp h
    exact isRecord_object (by simp only [List.map]; decide) (by simp)
  | group =>
    obtain ⟨g, -, rfl⟩ := List.mem_map.mp h
    exact isRecord_object (by simp only [List.map]; decide) (by simp)
  | role =>
    obtain ⟨r, -, rfl⟩ := List.mem_map.mp h
    exact isRecord_object (by simp only [List.map]; decide) (by simp)
  | member =>
    obtain ⟨m, -, rfl⟩ := List.mem_map.mp h
    exact isRecord_object (by simp only [List.map]; decide) (by simp)
  | invitation =>
    obtain ⟨i, -, rfl⟩ := List.mem_map.mp h
    exact isRecord_object (by simp only [List.map]; decide) (by simp)
  | relationship =>
    obtain ⟨r, -, rfl⟩ := List.mem_map.mp h
    exact isRecord_object (by simp only [List.map]; decide) (by simp)
  | ban =>
    obtain ⟨b, -, rfl⟩ := List.mem_map.mp h
    exact isRecord_object (by simp only [List.map]; decide) (by simp)
  | banHistory =>
    obtain ⟨b, -, rfl⟩ := List.mem_map.mp h
    exact isRecord_object (by simp only [List.map]; decide) (by simp)
  | sanction =>
    obtain ⟨s, -, rfl⟩ := List.mem_map.mp h
    exact isRecord_object (by simp only [List.map]; decide) (by simp)
  | sanctionHistory =>
    obtain ⟨s, -, rfl⟩ := List.mem_map.mp h
    exact isRecord_object (by simp only [List.map]; decide) (by simp)
  | friendship =>
    obtain ⟨r, -, rfl⟩ := List.mem_map.mp h
    exact isRecord_userRelationshipRecord _ _ _ _
  | friendRequest =>
    obtain ⟨r, -, rfl⟩ := List.mem_map.mp h
    exact isRecord_userRelationshipRecord _ _ _ _
  | block =>
    obtain ⟨r, -, rfl⟩ := List.mem_map.mp h
    exact isRecord_userRelationshipRecord _ _ _ _
  | friendTag =>
    obtain ⟨t, -, rfl⟩ := List.mem_map.mp h
    exact isRecord_object (by simp only [List.map]; decide) (by simp)
  | audit =>
    obtain ⟨a, -, rfl⟩ := List.mem_map.mp h
    exact isRecord_object (by simp only [List.map]; decide) (by simp)

lemma isRecord_headerRecord (gameId position : Text) (exportedAt : Instant) :
    IsRecord (text "header") (headerRecord gameId position exportedAt) := by
  have hversion : Valid (.num (text "1")) := by
    rw [Valid]
    decide
  exact isRecord_object (by simp only [List.map]; decide) (by simp [hversion])

lemma isRecord_endRecord (counts : ExportRecordKind → ℕ) :
    IsRecord (text "end") (endRecord counts) := by
  have hcounts : Valid (.obj (ExportRecordKind.all.map fun kind =>
      (kind.name, JsonValue.num (decimal (counts kind))))) := by
    rw [Valid, validEntries_iff, List.map_map]
    refine ⟨by simp only [Function.comp_def]; decide, ?_⟩
    intro e he
    obtain ⟨kind, -, rfl⟩ := List.mem_map.mp he
    exact Json.isNumber_decimal _
  exact isRecord_object (by simp only [List.map]; decide) (by simp [hcounts])

end Junjo.Export
