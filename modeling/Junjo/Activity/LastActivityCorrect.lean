import Junjo.Activity.LastActivity

/-!
# Last activity is not lost

An entry that commits after the cursor has moved past it is at most the overlap late, so the batch
that moved the cursor to a time more than the overlap after it has seen it. Hence every batch leaves
the identities at least as recent as every entry that it sees behind the cursor.
-/

namespace Junjo.Activity

/-! ### Identities that rise -/

/-- The same identity, seen at least as recently. -/
structure Identity.RaisedTo (i i' : Identity) : Prop where
  gameId : i'.gameId = i.gameId
  junjoUserId : i'.junjoUserId = i.junjoUserId
  externalUserId : i'.externalUserId = i.externalUserId
  lastActivityAt : ∀ t, i.lastActivityAt = some t → ∃ t', i'.lastActivityAt = some t' ∧ t ≤ t'

lemma Identity.RaisedTo.refl (i : Identity) : i.RaisedTo i :=
  ⟨rfl, rfl, rfl, fun t ht => ⟨t, ht, le_rfl⟩⟩

lemma Identity.RaisedTo.trans {i i' i'' : Identity} (h : i.RaisedTo i') (h' : i'.RaisedTo i'') :
    i.RaisedTo i'' where
  gameId := h'.gameId.trans h.gameId
  junjoUserId := h'.junjoUserId.trans h.junjoUserId
  externalUserId := h'.externalUserId.trans h.externalUserId
  lastActivityAt t ht := by
    obtain ⟨t', ht', hle⟩ := h.lastActivityAt t ht
    obtain ⟨t'', ht'', hle'⟩ := h'.lastActivityAt t' ht'
    exact ⟨t'', ht'', hle.trans hle'⟩

/-- The same identities, none of which fell. -/
structure Raised (before after : Dict Text Identity) : Prop where
  kept : ∀ id i, before.get? id = some i → ∃ i', after.get? id = some i' ∧ i.RaisedTo i'
  known : ∀ id i', after.get? id = some i' → ∃ i, before.get? id = some i ∧ i.RaisedTo i'

lemma Raised.refl (identities : Dict Text Identity) : Raised identities identities :=
  ⟨fun _ i hi => ⟨i, hi, .refl i⟩, fun _ i hi => ⟨i, hi, .refl i⟩⟩

lemma Raised.trans {before middle after : Dict Text Identity} (h : Raised before middle)
    (h' : Raised middle after) : Raised before after where
  kept id i hi := by
    obtain ⟨i', hi', hraised⟩ := h.kept id i hi
    obtain ⟨i'', hi'', hraised'⟩ := h'.kept id i' hi'
    exact ⟨i'', hi'', hraised.trans hraised'⟩
  known id i'' hi'' := by
    obtain ⟨i', hi', hraised'⟩ := h'.known id i'' hi''
    obtain ⟨i, hi, hraised⟩ := h.known id i' hi'
    exact ⟨i, hi, hraised.trans hraised'⟩

/-- Every identity that an entry names is as recent as the entry. -/
def Reached (identities : Dict Text Identity) (e : AuditEntry) : Prop :=
  ∀ id i, identities.get? id = some i → e.names i = true →
    ∃ t, i.lastActivityAt = some t ∧ e.createdAt ≤ t

lemma Identity.RaisedTo.names {i i' : Identity} (h : i.RaisedTo i') (e : AuditEntry) :
    e.names i' = e.names i := by
  rw [AuditEntry.names, AuditEntry.names, h.gameId, h.junjoUserId, h.externalUserId]

lemma Reached.mono {before after : Dict Text Identity} {e : AuditEntry} (h : Reached before e)
    (hraised : Raised before after) : Reached after e := by
  intro id i' hi' hnames
  obtain ⟨i, hi, hto⟩ := hraised.known id i' hi'
  obtain ⟨t, ht, hle⟩ := h id i hi ((hto.names e).symm.trans hnames)
  obtain ⟨t', ht', hle'⟩ := hto.lastActivityAt t ht
  exact ⟨t', ht', hle.trans hle'⟩

/-! ### What a batch raises -/

/-- Every row is at most as new as what is kept for its key. -/
lemma le_newestBy {κ : Type} [DecidableEq κ] {rows : List (κ × ℕ)} {k : κ} {t : ℕ}
    (h : (k, t) ∈ rows) : ∃ m, (newestBy rows).get? k = some m ∧ t ≤ m := by
  have hgo : ∀ (rows : List (κ × ℕ)) (newest : Dict κ ℕ) (k : κ) (t : ℕ),
      ((k, t) ∈ rows ∨ ∃ m, newest.get? k = some m ∧ t ≤ m) →
      ∃ m, (rows.foldl (fun newest row =>
        newest.set row.1 (max ((newest.get? row.1).getD 0) row.2)) newest).get? k = some m ∧
          t ≤ m := by
    intro rows
    induction rows with
    | nil =>
      rintro newest k t (hmem | hkept)
      · cases hmem
      · exact hkept
    | cons row rows ih =>
      rintro newest k t h
      refine ih _ k t ?_
      rw [List.mem_cons, or_assoc] at h
      rcases h with rfl | hmem | ⟨m, hm, hle⟩
      · exact .inr ⟨_, Dict.get?_set_self _ _ _, le_max_right _ _⟩
      · exact .inl hmem
      · by_cases hk : k = row.1
        · subst hk
          refine .inr ⟨_, Dict.get?_set_self _ _ _, ?_⟩
          rw [hm]
          exact hle.trans (le_max_left _ _)
        · exact .inr ⟨m, by rw [Dict.get?_set_of_ne _ _ hk, hm], hle⟩
  exact hgo rows Dict.empty k t (.inl h)

/-- The newest of some entries that name an identity is as new as each of them. -/
lemma le_newest {entries : List AuditEntry} {e : AuditEntry} {i : Identity} (he : e ∈ entries)
    (hnames : e.names i = true) : ∃ m, newest entries i = some m ∧ e.createdAt ≤ m := by
  rw [AuditEntry.names, Bool.and_eq_true, Bool.or_eq_true, decide_eq_true_eq, decide_eq_true_eq,
    decide_eq_true_eq] at hnames
  obtain ⟨hgame, htarget | hactor⟩ := hnames
  · have hrow : ((i.gameId, i.externalUserId), e.createdAt) ∈
        entries.filterMap fun e => e.targetId.map fun targetId => ((e.gameId, targetId), e.createdAt) :=
      List.mem_filterMap.mpr ⟨e, he, by rw [htarget, hgame]; rfl⟩
    obtain ⟨m, hm, hle⟩ := le_newestBy hrow
    rw [newest, targets, hm]
    cases (actors entries).get? (i.gameId, i.junjoUserId) with
    | none => exact ⟨m, rfl, hle⟩
    | some t => exact ⟨max m t, rfl, hle.trans (le_max_left _ _)⟩
  · have hrow : ((i.gameId, i.junjoUserId), e.createdAt) ∈
        entries.filterMap fun e => e.actorUserId.map fun actorUserId =>
          ((e.gameId, actorUserId), e.createdAt) :=
      List.mem_filterMap.mpr ⟨e, he, by rw [hactor, hgame]; rfl⟩
    obtain ⟨m, hm, hle⟩ := le_newestBy hrow
    rw [newest, actors, hm]
    cases (targets entries).get? (i.gameId, i.externalUserId) with
    | none => exact ⟨m, rfl, hle⟩
    | some t => exact ⟨max t m, rfl, hle.trans (le_max_right _ _)⟩

section Raise

variable {entries : List AuditEntry} {snapshot identities : Dict Text Identity}

lemma raisedTo_raise (i : Identity) (at_ : ℕ) :
    i.RaisedTo { i with lastActivityAt := some (max (i.lastActivityAt.getD 0) at_) } where
  gameId := rfl
  junjoUserId := rfl
  externalUserId := rfl
  lastActivityAt t ht := by
    refine ⟨_, rfl, ?_⟩
    rw [ht]
    exact le_max_left _ _

lemma raisedTo_raiseRow (entries : List AuditEntry) (shown : Option Identity) (i : Identity) :
    i.RaisedTo (raiseRow entries shown i) := by
  rw [raiseRow]
  split
  · exact .refl i
  · split_ifs
    · exact raisedTo_raise i _
    · exact .refl i

/-- A batch lets no identity fall. -/
lemma raised_raise (entries : List AuditEntry) (snapshot identities : Dict Text Identity) :
    Raised identities (raise entries snapshot identities) := by
  constructor
  · intro id i hi
    refine ⟨raiseRow entries (snapshot.get? id) i, ?_, raisedTo_raiseRow entries _ i⟩
    rw [raise, Dict.get?_mapEntries, hi]
    rfl
  · intro id i' hi'
    rw [raise, Dict.get?_mapEntries, Option.map_eq_some_iff] at hi'
    obtain ⟨i, hi, rfl⟩ := hi'
    exact ⟨i, hi, raisedTo_raiseRow entries _ i⟩

/-- A value that is not before a time. -/
lemma exists_of_not_isBefore {lastActivityAt : Option ℕ} {at_ : ℕ}
    (h : isBefore lastActivityAt at_ ≠ true) : ∃ t, lastActivityAt = some t ∧ at_ ≤ t := by
  cases lastActivityAt with
  | none => exact absurd rfl h
  | some t =>
    rw [isBefore, Option.all_some, ne_eq, decide_eq_true_eq, not_lt] at h
    exact ⟨t, rfl, h⟩

/-- A batch reaches the entries that it applies. -/
lemma reached_raise (hshown : Raised snapshot identities) {e : AuditEntry} (he : e ∈ entries) :
    Reached (raise entries snapshot identities) e := by
  intro id i' hi' hnames
  rw [raise, Dict.get?_mapEntries, Option.map_eq_some_iff] at hi'
  obtain ⟨i, hi, hi'⟩ := hi'
  obtain ⟨shown, hsnapshot, hto⟩ := hshown.known id i hi
  have hto' : i.RaisedTo i' := hi' ▸ raisedTo_raiseRow entries _ i
  have hnamed : e.names shown = true := by rw [← hto.names, ← hto'.names, hnames]
  obtain ⟨m, hm, hle⟩ := le_newest he hnamed
  rw [raiseRow, hsnapshot, Option.bind_some, hm, Option.filter_some] at hi'
  split_ifs at hi' with hshownBefore
  · dsimp only at hi'
    split_ifs at hi' with hbefore
    · rw [← hi']
      exact ⟨_, rfl, hle.trans (le_max_right _ _)⟩
    · obtain ⟨t, ht, hlate⟩ := exists_of_not_isBefore hbefore
      rw [← hi']
      exact ⟨t, ht, hle.trans hlate⟩
  · obtain ⟨t, ht, hlate⟩ := exists_of_not_isBefore hshownBefore
    obtain ⟨t', ht', hrisen⟩ := hto.lastActivityAt t ht
    dsimp only at hi'
    rw [← hi']
    exact ⟨t', ht', hle.trans (hlate.trans hrisen)⟩

end Raise

/-! ### What a batch sees -/

section Positions

variable {ids : KeyOrder Text}

lemma timeOrder_le {a b : ℕ} : timeOrder.le a b = true ↔ a ≤ b := decide_eq_true_iff

lemma timeOrder_lt {a b : ℕ} : timeOrder.lt a b = true ↔ a < b := by
  rw [KeyOrder.lt_iff, timeOrder_le, not_le]

lemma positionOrder_le {p q : AuditPosition} : (positionOrder ids).le p q = true ↔
    p.1 < q.1 ∨ (p.1 ≤ q.1 ∧ ids.le p.2 q.2 = true) := by
  rw [← timeOrder_lt, ← timeOrder_le, ← Bool.and_eq_true, ← Bool.or_eq_true]
  rfl

lemma positionOrder_le_of_lt {p q : AuditPosition} (h : p.1 < q.1) :
    (positionOrder ids).le p q = true :=
  positionOrder_le.mpr (.inl h)

lemma time_le_of_positionOrder_le {p q : AuditPosition} (h : (positionOrder ids).le p q = true) :
    p.1 ≤ q.1 :=
  (positionOrder_le.mp h).elim le_of_lt And.left

variable {batch : Batch} {cursor : AuditPosition}

lemma mem_fresh {batchSize : ℕ} {entries : List AuditEntry} {e : AuditEntry}
    (h : e ∈ fresh ids batchSize cursor entries) :
    e ∈ entries ∧ (positionOrder ids).lt cursor e.position = true :=
  List.mem_filter.mp ((Keyset.sortBy_perm _ _ _).mem_iff.mp (List.mem_of_mem_take h))

variable (ids) in
/-- The cursor that a batch leaves is the one that it claimed or the position of an entry that it
sees. -/
lemma moved_cases (batch : Batch) (cursor : AuditPosition) :
    batch.moved ids cursor = cursor ∨ ∃ e ∈ batch.snapshot.entries,
      batch.moved ids cursor = e.position ∧ (positionOrder ids).lt cursor e.position = true := by
  cases hlast : (fresh ids batch.batchSize cursor batch.snapshot.entries).getLast? with
  | none =>
    rw [Batch.moved, hlast]
    exact .inl rfl
  | some e =>
    obtain ⟨hmem, hlt⟩ := mem_fresh (List.mem_of_getLast? hlast)
    refine .inr ⟨e, hmem, ?_, hlt⟩
    rw [Batch.moved, hlast]
    rfl

lemma le_moved (batch : Batch) (cursor : AuditPosition) :
    (positionOrder ids).le cursor (batch.moved ids cursor) = true := by
  rcases moved_cases ids batch cursor with hsame | ⟨e, -, hmoved, hlt⟩
  · rw [hsame]
    exact KeyOrder.le_refl _ _
  · rw [hmoved]
    exact (KeyOrder.lt_iff_le_and_ne.mp hlt).1

/-- Positions tell entries apart. -/
lemma nodup_positions {entries : List AuditEntry} (h : (entries.map AuditEntry.id).Nodup) :
    (entries.map AuditEntry.position).Nodup := by
  have hids : (entries.map AuditEntry.position).map Prod.snd = entries.map AuditEntry.id := by
    rw [List.map_map]
    rfl
  rw [← hids] at h
  exact h.of_map

/-- A batch applies every entry that it sees between the cursor that it claimed and the one that it
leaves. -/
lemma mem_fresh_of_le (hnodup : (batch.snapshot.entries.map AuditEntry.id).Nodup) {e : AuditEntry}
    (he : e ∈ batch.snapshot.entries) (hlt : (positionOrder ids).lt cursor e.position = true)
    (hle : (positionOrder ids).le e.position (batch.moved ids cursor) = true) :
    e ∈ fresh ids batch.batchSize cursor batch.snapshot.entries := by
  have hrows : ((batch.snapshot.entries.filter fun e =>
      (positionOrder ids).lt cursor e.position).map AuditEntry.position).Nodup :=
    (nodup_positions hnodup).sublist (List.filter_sublist.map _)
  have hstrict := Keyset.sortBy_strict (o := positionOrder ids) hrows
  have hmem : e ∈ Keyset.sortBy (positionOrder ids) AuditEntry.position
      (batch.snapshot.entries.filter fun e => (positionOrder ids).lt cursor e.position) :=
    (Keyset.sortBy_perm _ _ _).mem_iff.mpr (List.mem_filter.mpr ⟨he, hlt⟩)
  rw [← List.take_append_drop batch.batchSize (Keyset.sortBy _ _ _)] at hmem hstrict
  rcases List.mem_append.mp hmem with hfresh | hlater
  · exact hfresh
  · exfalso
    cases hlast : (fresh ids batch.batchSize cursor batch.snapshot.entries).getLast? with
    | none =>
      rw [Batch.moved, hlast] at hle
      exact (KeyOrder.lt_iff.mp hlt) hle
    | some f =>
      have hbefore := (List.pairwise_append.mp hstrict).2.2 f (List.mem_of_getLast? hlast) e hlater
      rw [Batch.moved, hlast] at hle
      exact (KeyOrder.lt_iff.mp hbefore) hle

end Positions

/-! ### The invariant -/

/-- What a runner's snapshot still is of what is committed: entries that came since are at most the
overlap older than any that it shows, and no identity fell. -/
structure ShownBy (snapshot db : ActivityDb) : Prop where
  seen : ∀ e ∈ snapshot.entries, e ∈ db.entries
  nodup : (snapshot.entries.map AuditEntry.id).Nodup
  late : ∀ e ∈ db.entries, e ∈ snapshot.entries ∨
    ∀ f ∈ snapshot.entries, f.createdAt ≤ e.createdAt + lastActivityOverlapMs
  identities : Raised snapshot.identities db.identities

def Runner.snapshot : Runner → Option ActivityDb
  | .starting _ snapshot => some snapshot
  | .applying batch => some batch.snapshot
  | .restarting => none

/-- The cursor that a runner holds. -/
def Runner.holds : Runner → Option AuditPosition
  | .applying batch => batch.claimed
  | _ => none

/-- Entries more than the overlap behind the cursor have been applied, and whoever holds the cursor
holds the stored one. -/
structure ActivityServer.Inv (s : ActivityServer) : Prop where
  overlap : ∀ cursor, s.db.cursor = some cursor → ∀ e ∈ s.db.entries,
    e.createdAt + lastActivityOverlapMs < cursor.1 → Reached s.db.identities e
  clock : ∀ cursor, s.db.cursor = some cursor → cursor.1 ≤ s.now
  entries : ∀ e ∈ s.db.entries, e.createdAt ≤ s.now
  nodup : (s.db.entries.map AuditEntry.id).Nodup
  shown : ∀ id runner snapshot, s.runners.get? id = some runner →
    runner.snapshot = some snapshot → ShownBy snapshot s.db
  holds : ∀ id runner cursor, s.runners.get? id = some runner → runner.holds = some cursor →
    s.db.cursor = some cursor ∧ ∀ id' runner', s.runners.get? id' = some runner' →
      runner'.holds.isSome = true → id' = id

namespace ActivityServer

variable {ids : KeyOrder Text} {s s' : ActivityServer}

lemma isClaimed_iff : s.isClaimed = true ↔
    ∃ id runner, s.runners.get? id = some runner ∧ runner.holds.isSome = true := by
  rw [isClaimed, List.any_eq_true]
  constructor
  · rintro ⟨⟨id, runner⟩, hmem, hholds⟩
    refine ⟨id, runner, Dict.get?_eq_some_iff.mpr hmem, ?_⟩
    cases runner with
    | applying batch => exact hholds
    | starting _ _ => cases hholds
    | restarting => cases hholds
  · rintro ⟨id, runner, hget, hholds⟩
    refine ⟨(id, runner), Dict.get?_eq_some_iff.mp hget, ?_⟩
    cases runner with
    | applying batch => exact hholds
    | starting _ _ => cases hholds
    | restarting => cases hholds

/-! ### Batches -/

section Write

variable {batch : Batch} {cursor : AuditPosition}

/-- After the commit of a batch every entry that it sees behind the cursor that it leaves is
reached. -/
lemma Inv.reached (h : s.Inv) {id : ℕ} (hrunner : s.runners.get? id = some (.applying batch))
    (hclaimed : batch.claimed = some cursor) {e : AuditEntry} (he : e ∈ batch.snapshot.entries)
    (hle : (positionOrder ids).le e.position (batch.moved ids cursor) = true) :
    Reached (batch.write ids cursor s.db).identities e := by
  have hshown := h.shown id _ _ hrunner rfl
  obtain ⟨hcursor, -⟩ := h.holds id _ cursor hrunner hclaimed
  by_cases hlt : (positionOrder ids).lt cursor e.position = true
  · exact reached_raise hshown.identities
      (List.mem_append_left _ (mem_fresh_of_le hshown.nodup he hlt hle))
  · rw [KeyOrder.lt_iff, not_not] at hlt
    by_cases hwindow : cursor.1 - lastActivityOverlapMs ≤ e.createdAt
    · refine reached_raise hshown.identities (List.mem_append_right _ ?_)
      exact List.mem_filter.mpr ⟨he, Bool.and_eq_true_iff.mpr ⟨decide_eq_true hwindow, hlt⟩⟩
    · -- the batch that moved the cursor here had seen the entry
      have hbefore := h.overlap cursor hcursor e (hshown.seen e he) (by omega)
      exact hbefore.mono (raised_raise _ _ _)

/-- What a batch leaves more than the overlap behind the cursor has been applied. -/
lemma Inv.overlap_write (h : s.Inv) {id : ℕ}
    (hrunner : s.runners.get? id = some (.applying batch)) (hclaimed : batch.claimed = some cursor)
    {e : AuditEntry} (he : e ∈ s.db.entries)
    (hearly : e.createdAt + lastActivityOverlapMs < (batch.moved ids cursor).1) :
    Reached (batch.write ids cursor s.db).identities e := by
  have hshown := h.shown id _ _ hrunner rfl
  obtain ⟨hcursor, -⟩ := h.holds id _ cursor hrunner hclaimed
  rcases hshown.late e he with hseen | hlate
  · exact h.reached hrunner hclaimed hseen
      (positionOrder_le_of_lt ((Nat.le_add_right _ _).trans_lt hearly))
  · rcases moved_cases ids batch cursor with hsame | ⟨f, hf, hmoved, -⟩
    · rw [hsame] at hearly
      exact (h.overlap cursor hcursor e he hearly).mono (raised_raise _ _ _)
    · rw [hmoved] at hearly
      exact absurd (hlate f hf) (not_le.mpr hearly)

end Write

/-! ### Steps -/

/-- A snapshot that shows a store shows what a batch makes of it. -/
lemma shownBy_raised {snapshot db db' : ActivityDb} (h : ShownBy snapshot db)
    (hentries : db'.entries = db.entries) (hraised : Raised db.identities db'.identities) :
    ShownBy snapshot db' where
  seen e he := by
    rw [hentries]
    exact h.seen e he
  nodup := h.nodup
  late e he := h.late e (hentries ▸ he)
  identities := h.identities.trans hraised

/-- Fewer runners, over the same tables. -/
lemma Inv.delete (h : s.Inv) (id : ℕ) : Inv { s with runners := s.runners.delete id } where
  overlap := h.overlap
  clock := h.clock
  entries := h.entries
  nodup := h.nodup
  shown id' runner snapshot hget hsnapshot := by
    rw [Dict.get?_delete] at hget
    split_ifs at hget
    exact h.shown id' runner snapshot hget hsnapshot
  holds id' runner cursor hget hholds := by
    rw [Dict.get?_delete] at hget
    split_ifs at hget
    obtain ⟨hcursor, hone⟩ := h.holds id' runner cursor hget hholds
    refine ⟨hcursor, fun id'' runner' hget' hholds' => ?_⟩
    rw [Dict.get?_delete] at hget'
    split_ifs at hget'
    exact hone id'' runner' hget' hholds'

/-- A runner that holds nothing. -/
lemma Inv.set (h : s.Inv) {id : ℕ} {runner : Runner} (hholds : runner.holds = none)
    (hshown : ∀ snapshot, runner.snapshot = some snapshot → ShownBy snapshot s.db) :
    Inv { s with runners := s.runners.set id runner } where
  overlap := h.overlap
  clock := h.clock
  entries := h.entries
  nodup := h.nodup
  shown id' runner' snapshot hget hsnapshot := by
    rw [Dict.get?_set] at hget
    split_ifs at hget
    · cases hget
      exact hshown snapshot hsnapshot
    · exact h.shown id' runner' snapshot hget hsnapshot
  holds id' runner' cursor hget hholds' := by
    rw [Dict.get?_set] at hget
    split_ifs at hget
    · cases hget
      rw [hholds] at hholds'
      cases hholds'
    · obtain ⟨hcursor, hone⟩ := h.holds id' runner' cursor hget hholds'
      refine ⟨hcursor, fun id'' runner'' hget' hsome => ?_⟩
      rw [Dict.get?_set] at hget'
      split_ifs at hget'
      · cases hget'
        rw [hholds] at hsome
        cases hsome
      · exact hone id'' runner'' hget' hsome

lemma Inv.commitEntry (h : s.Inv) {e : AuditEntry} (hpast : e.createdAt ≤ s.now)
    (hlate : s.now ≤ e.createdAt + lastActivityOverlapMs)
    (hid : e.id ∉ s.db.entries.map AuditEntry.id) :
    Inv { s with db := { s.db with entries := s.db.entries ++ [e] } } where
  overlap cursor hcursor f hf hearly := by
    rcases List.mem_append.mp hf with hf | hf
    · exact h.overlap cursor hcursor f hf hearly
    · rw [List.mem_singleton.mp hf] at hearly
      exact absurd ((h.clock cursor hcursor).trans hlate) (not_le.mpr hearly)
  clock := h.clock
  entries f hf := by
    rcases List.mem_append.mp hf with hf | hf
    · exact h.entries f hf
    · rwa [List.mem_singleton.mp hf]
  nodup := by
    rw [List.map_append, List.nodup_append]
    refine ⟨h.nodup, List.nodup_singleton _, ?_⟩
    rintro id hmem id' hmem' rfl
    rw [List.map_singleton, List.mem_singleton] at hmem'
    exact hid (hmem' ▸ hmem)
  shown id runner snapshot hget hsnapshot := by
    have hold := h.shown id runner snapshot hget hsnapshot
    refine ⟨fun f hf => List.mem_append_left _ (hold.seen f hf), hold.nodup, fun f hf => ?_,
      hold.identities⟩
    rcases List.mem_append.mp hf with hf | hf
    · exact hold.late f hf
    · rw [List.mem_singleton.mp hf]
      exact .inr fun f' hf' => (h.entries f' (hold.seen f' hf')).trans hlate
  holds := h.holds

lemma Inv.claim (h : s.Inv) {id batchSize : ℕ} {snapshot : ActivityDb}
    (hrunner : s.runners.get? id = some (.starting batchSize snapshot)) :
    Inv { s with
      runners := s.runners.set id (.applying ⟨batchSize, snapshot, s.claims snapshot⟩) } := by
  have hshown := h.shown id _ snapshot hrunner rfl
  cases hclaims : s.claims snapshot with
  | none => exact h.set rfl fun _ hsome => Option.some.inj hsome ▸ hshown
  | some cursor =>
    rw [claims] at hclaims
    split_ifs at hclaims with hskip
    rw [Bool.or_eq_true, not_or] at hskip
    have hfree : ∀ id' runner', s.runners.get? id' = some runner' →
        runner'.holds.isSome = true → False :=
      fun id' runner' hget hsome => hskip.2 (isClaimed_iff.mpr ⟨id', runner', hget, hsome⟩)
    refine ⟨h.overlap, h.clock, h.entries, h.nodup, fun id' runner' snapshot' hget hsnapshot => ?_,
      fun id' runner' cursor' hget hholds => ?_⟩
    · rw [Dict.get?_set] at hget
      split_ifs at hget
      · cases hget
        cases hsnapshot
        exact hshown
      · exact h.shown id' runner' snapshot' hget hsnapshot
    · rw [Dict.get?_set] at hget
      split_ifs at hget with hid
      · cases hget
        cases hholds
        refine ⟨hclaims, fun id'' runner'' hget' hsome => ?_⟩
        rw [Dict.get?_set] at hget'
        split_ifs at hget' with hid'
        · rw [hid, hid']
        · exact (hfree id'' runner'' hget' hsome).elim
      · exact (hfree id' runner' hget (by rw [hholds]; rfl)).elim

lemma Inv.commit (h : s.Inv) {id : ℕ} {batch : Batch} {cursor : AuditPosition}
    (hrunner : s.runners.get? id = some (.applying batch)) (hclaimed : batch.claimed = some cursor) :
    Inv { s with db := batch.write ids cursor s.db, runners := s.runners.delete id } := by
  have hshown := h.shown id _ _ hrunner rfl
  obtain ⟨hcursor, hone⟩ := h.holds id _ cursor hrunner hclaimed
  refine ⟨fun cursor' hcursor' e he hearly => ?_, fun cursor' hcursor' => ?_, h.entries, h.nodup,
    fun id' runner snapshot hget hsnapshot => ?_, fun id' runner cursor' hget hholds => ?_⟩
  · cases hcursor'
    exact h.overlap_write hrunner hclaimed he hearly
  · cases hcursor'
    rcases moved_cases ids batch cursor with hsame | ⟨e, he, hmoved, -⟩
    · rw [hsame]
      exact h.clock cursor hcursor
    · rw [hmoved]
      exact h.entries e (hshown.seen e he)
  · rw [Dict.get?_delete] at hget
    split_ifs at hget
    exact shownBy_raised (h.shown id' runner snapshot hget hsnapshot) rfl (raised_raise _ _ _)
  · rw [Dict.get?_delete] at hget
    split_ifs at hget with hid
    exact absurd (hone id' runner hget (by rw [hholds]; rfl)) hid

lemma Inv.restart (h : s.Inv) (id : ℕ) : Inv { s with
    db := { s.db with cursor := some (s.db.cursor.getD (0, [])) }
    runners := s.runners.delete id } := by
  cases hcursor : s.db.cursor with
  | some cursor =>
    have hdelete := h.delete id
    rw [Option.getD_some, ← hcursor]
    exact hdelete
  | none =>
    refine ⟨fun cursor hcursor' e he hearly => ?_, fun cursor hcursor' => ?_, h.entries, h.nodup,
      fun id' runner snapshot hget hsnapshot => ?_, fun id' runner cursor hget hholds => ?_⟩
    · cases hcursor'
      exact absurd hearly (Nat.not_lt_zero _)
    · cases hcursor'
      exact Nat.zero_le _
    · rw [Dict.get?_delete] at hget
      split_ifs at hget
      exact shownBy_raised (h.shown id' runner snapshot hget hsnapshot) rfl (.refl _)
    · rw [Dict.get?_delete] at hget
      split_ifs at hget
      obtain ⟨hsome, -⟩ := h.holds id' runner cursor hget hholds
      rw [hcursor] at hsome
      cases hsome

/-- The cursor after a step is not before the one before it. -/
def CursorLe (ids : KeyOrder Text) (before after : Option AuditPosition) : Prop :=
  ∀ cursor, before = some cursor → ∃ cursor', after = some cursor' ∧
    (positionOrder ids).le cursor cursor' = true

lemma CursorLe.refl (cursor : Option AuditPosition) : CursorLe ids cursor cursor :=
  fun c hc => ⟨c, hc, KeyOrder.le_refl _ _⟩

lemma CursorLe.trans {a b c : Option AuditPosition} (h : CursorLe ids a b) (h' : CursorLe ids b c) :
    CursorLe ids a c := by
  intro cursor hcursor
  obtain ⟨cursor', hcursor', hle⟩ := h cursor hcursor
  obtain ⟨cursor'', hcursor'', hle'⟩ := h' cursor' hcursor'
  exact ⟨cursor'', hcursor'', (positionOrder ids).trans _ _ _ hle hle'⟩

/-- What one step keeps, and that nothing falls. -/
lemma Inv.next (h : s.Inv) {step : ActivityStep} (hnext : s.next ids step = some s') :
    s'.Inv ∧ Raised s.db.identities s'.db.identities ∧ CursorLe ids s.db.cursor s'.db.cursor := by
  cases step with
  | tick now =>
    rw [ActivityServer.next] at hnext
    split_ifs at hnext with hnow
    cases hnext
    exact ⟨⟨h.overlap, fun cursor hcursor => (h.clock cursor hcursor).trans hnow,
      fun e he => (h.entries e he).trans hnow, h.nodup, h.shown, h.holds⟩, .refl _, .refl _⟩
  | commitEntry e =>
    rw [ActivityServer.next] at hnext
    split_ifs at hnext with hin
    cases hnext
    exact ⟨h.commitEntry hin.1 hin.2.1 hin.2.2, .refl _, .refl _⟩
  | start id batchSize =>
    rw [ActivityServer.next] at hnext
    split_ifs at hnext
    cases hnext
    refine ⟨h.set rfl ?_, .refl _, .refl _⟩
    rintro _ ⟨⟩
    exact ⟨fun _ he => he, h.nodup, fun _ he => .inl he, .refl _⟩
  | claim id =>
    rw [ActivityServer.next] at hnext
    split at hnext
    · rename_i batchSize snapshot hrunner
      cases hnext
      exact ⟨h.claim hrunner, .refl _, .refl _⟩
    · cases hnext
  | commit id =>
    rw [ActivityServer.next] at hnext
    split at hnext
    · rename_i batch hrunner
      split at hnext
      · cases hnext
        exact ⟨h.set rfl nofun, .refl _, .refl _⟩
      · rename_i cursor hclaimed
        cases hnext
        obtain ⟨hcursor, -⟩ := h.holds id _ cursor hrunner hclaimed
        refine ⟨h.commit hrunner hclaimed, raised_raise _ _ _, fun cursor' hcursor' => ?_⟩
        rw [hcursor, Option.some.injEq] at hcursor'
        exact ⟨_, rfl, hcursor' ▸ le_moved batch cursor⟩
    · cases hnext
  | rollback id =>
    rw [ActivityServer.next] at hnext
    split at hnext
    · cases hnext
      exact ⟨h.delete id, .refl _, .refl _⟩
    · cases hnext
  | restart id =>
    rw [ActivityServer.next] at hnext
    split at hnext
    · cases hnext
      refine ⟨h.restart id, .refl _, fun cursor hcursor => ⟨cursor, ?_, KeyOrder.le_refl _ _⟩⟩
      show some (s.db.cursor.getD (0, [])) = some cursor
      rw [hcursor]
      rfl
    · cases hnext

end ActivityServer

/-! ### Runs -/

/-- A server whose runners are yet to start: what it stores behind the cursor has been applied. -/
structure ActivityServer.Settled (s : ActivityServer) (ids : KeyOrder Text) : Prop where
  applied : ∀ cursor, s.db.cursor = some cursor → ∀ e ∈ s.db.entries,
    (positionOrder ids).le e.position cursor = true → Reached s.db.identities e
  clock : ∀ cursor, s.db.cursor = some cursor → cursor.1 ≤ s.now
  entries : ∀ e ∈ s.db.entries, e.createdAt ≤ s.now
  nodup : (s.db.entries.map AuditEntry.id).Nodup
  idle : s.runners = Dict.empty

lemma ActivityServer.Settled.inv {s : ActivityServer} {ids : KeyOrder Text} (h : s.Settled ids) :
    s.Inv where
  overlap cursor hcursor e he hearly :=
    h.applied cursor hcursor e he (positionOrder_le_of_lt ((Nat.le_add_right _ _).trans_lt hearly))
  clock := h.clock
  entries := h.entries
  nodup := h.nodup
  shown id runner snapshot hget := by
    rw [h.idle, Dict.get?_empty] at hget
    cases hget
  holds id runner cursor hget := by
    rw [h.idle, Dict.get?_empty] at hget
    cases hget

/-- What holds of the job in a run: each batch that claimed the cursor and commits leaves the
identities at least as recent as the entries that it sees behind the cursor that it leaves, and no
identity and no cursor falls. -/
structure ActivityKept (ids : KeyOrder Text) (start : ActivityServer) (steps : List ActivityStep)
    (s : ActivityServer) : Prop where
  batches : ∀ before runner after s₁ s₂ batch cursor,
    steps = before ++ .commit runner :: after → start.run ids before = some s₁ →
    s₁.next ids (.commit runner) = some s₂ → s₁.runners.get? runner = some (.applying batch) →
    batch.claimed = some cursor → ∃ left, s₂.db.cursor = some left ∧
      ∀ e ∈ batch.snapshot.entries, (positionOrder ids).le e.position left = true →
        Reached s₂.db.identities e
  identities : ∀ before after s₁, steps = before ++ after → start.run ids before = some s₁ →
    Raised s₁.db.identities s.db.identities
  cursor : ∀ before after s₁, steps = before ++ after → start.run ids before = some s₁ →
    ActivityServer.CursorLe ids s₁.db.cursor s.db.cursor

/-- Whatever runners, batches and commits there are, no activity is lost or taken back. -/
theorem lastActivity_kept {ids : KeyOrder Text} {start s : ActivityServer}
    (hstart : start.Settled ids) {steps : List ActivityStep} (hrun : start.run ids steps = some s) :
    ActivityKept ids start steps s := by
  have hinv : ∀ before s₁, start.run ids before = some s₁ → s₁.Inv := fun before s₁ hbefore =>
    runSteps_invariant (fun _ _ _ h hnext => (h.next hnext).1) hstart.inv hbefore
  have hrises : ∀ before after s₁, steps = before ++ after → start.run ids before = some s₁ →
      Raised s₁.db.identities s.db.identities ∧
        ActivityServer.CursorLe ids s₁.db.cursor s.db.cursor := by
    rintro before after s₁ rfl hbefore
    have hafter : runSteps (ActivityServer.next ids) s₁ after = some s := by
      rw [ActivityServer.run, runSteps_append] at hrun
      rw [ActivityServer.run] at hbefore
      rwa [hbefore, Option.bind_some] at hrun
    have hall : s.Inv ∧ Raised s₁.db.identities s.db.identities ∧
        ActivityServer.CursorLe ids s₁.db.cursor s.db.cursor := by
      refine runSteps_invariant (P := fun s' => s'.Inv ∧ Raised s₁.db.identities s'.db.identities ∧
        ActivityServer.CursorLe ids s₁.db.cursor s'.db.cursor) ?_
        ⟨hinv before s₁ hbefore, .refl _, .refl _⟩ hafter
      rintro s₂ step s₃ ⟨h, hraised, hcursor⟩ hnext
      obtain ⟨h', hraised', hcursor'⟩ := h.next hnext
      exact ⟨h', hraised.trans hraised', hcursor.trans hcursor'⟩
    exact hall.2
  refine ⟨?_, fun before after s₁ hsplit hbefore => (hrises before after s₁ hsplit hbefore).1,
    fun before after s₁ hsplit hbefore => (hrises before after s₁ hsplit hbefore).2⟩
  intro before runner after s₁ s₂ batch cursor _ hbefore hnext hrunner hclaimed
  rw [ActivityServer.next, hrunner] at hnext
  dsimp only at hnext
  rw [hclaimed] at hnext
  cases hnext
  exact ⟨_, rfl, fun e he hle => (hinv before s₁ hbefore).reached hrunner hclaimed he hle⟩

/-! ### An entry that commits late -/

/-- By code unit. -/
private def byUnit : KeyOrder Text where
  le a b := decide (a ≤ b)
  total a b := by simp [le_total]
  trans a b c hab hbc := decide_eq_true ((of_decide_eq_true hab).trans (of_decide_eq_true hbc))
  antisymm a b hab hba := le_antisymm (of_decide_eq_true hab) (of_decide_eq_true hba)

private def oneIdentity : ActivityServer where
  db := ⟨[], Dict.empty.set (text "identity") ⟨text "game", text "ann", text "steam-1", none⟩, none⟩
  now := 1000

private lemma settled_oneIdentity : oneIdentity.Settled byUnit where
  applied cursor hcursor := by cases hcursor
  clock cursor hcursor := by cases hcursor
  entries e he := absurd he List.not_mem_nil
  nodup := List.nodup_nil
  idle := rfl

private def early : AuditEntry := ⟨text "a", 900, text "game", some (text "steam-1"), none⟩

private def later : AuditEntry := ⟨text "b", 1000, text "game", none, some (text "bob")⟩

/-- The first batch finds no cursor, the second moves it past an entry that is yet to commit, and
the third rereads that one. -/
private def commitsLate : List ActivityStep :=
  [.start 0 5, .claim 0, .commit 0, .restart 0, .commitEntry later, .start 1 5, .claim 1,
    .start 2 5, .claim 2, .commit 1, .commitEntry early, .rollback 2, .tick 1500, .start 0 5,
    .claim 0, .commit 0]

theorem lastActivity_kept_commitsLate : ∃ s, oneIdentity.run byUnit commitsLate = some s ∧
    ((s.db.identities.get? (text "identity")).bind Identity.lastActivityAt) = some 900 ∧
      ActivityKept byUnit oneIdentity commitsLate s := by
  have hdone : (oneIdentity.run byUnit commitsLate).map (fun s =>
      (s.db.identities.get? (text "identity")).bind Identity.lastActivityAt) = some (some 900) := by
    decide
  obtain ⟨s, hrun, hraised⟩ := Option.map_eq_some_iff.mp hdone
  refine ⟨s, hrun, hraised, lastActivity_kept settled_oneIdentity hrun⟩

end Junjo.Activity
