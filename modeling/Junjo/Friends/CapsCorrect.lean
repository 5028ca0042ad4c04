import Junjo.Friends.Writes

/-!
# The friend caps

Each cap is checked by a count of its own before the transaction that inserts. A run in which no
check has become stale by the time its rows are committed keeps every cap; two requests that check
at the same time can pass one together (`caps_overrun`).
-/

namespace Junjo

/-! ### Tallies -/

/-- The cap of a game. -/
def FriendsConfig.capOf (config : FriendsConfig) : CapKind → ℕ
  | .friends => config.maxFriends
  | .pending => config.maxPendingRequests
  | .tags => config.maxPerUser

/-- The games over which a game counts towards a cap. -/
def FriendsGames.capScope (games : FriendsGames) (kind : CapKind) (gameId : Text)
    (game : FriendsGame) : List Text :=
  match kind with
  | .tags => [gameId]
  | _ => games.gameIdsInScope gameId game

/-- The cap a row counts towards. -/
def RelationshipType.capKind : RelationshipType → Option CapKind
  | .request => some .pending
  | .friend => some .friends
  | .blocked => none

/-- The rows of a person that count towards a cap, over some games. -/
def FriendDb.tally (db : FriendDb) (kind : CapKind) (gameIds : List Text) (person : Text) : ℕ :=
  match kind with
  | .friends => db.count gameIds person .friend
  | .pending => db.count gameIds person .request
  | .tags =>
    (db.tags.findMany fun _ t => t.gameId ∈ gameIds && t.junjoUserId = person).length

/-- The relationship counts towards the cap for the person. -/
def UserRelationship.CountsFor (row : UserRelationship) (kind : CapKind) (gameIds : List Text)
    (person : Text) : Prop :=
  row.type.capKind = some kind ∧ row.gameId ∈ gameIds ∧ row.actorJunjoUserId = person

instance decidableCountsFor (row : UserRelationship) (kind : CapKind) (gameIds : List Text)
    (person : Text) : Decidable (row.CountsFor kind gameIds person) :=
  inferInstanceAs (Decidable (_ ∧ _ ∧ _))

namespace Dict

variable {κ ν : Type*} [DecidableEq κ] {d : Dict κ ν} {p : κ → ν → Bool} {k : κ} {v : ν}

lemma length_findMany_delete_le : ((d.delete k).findMany p).length ≤ (d.findMany p).length := by
  rw [findMany, findMany, List.length_map, List.length_map]
  exact (List.filter_sublist.filter _).length_le

/-- Setting a row adds at most that row. -/
lemma length_findMany_set_le :
    ((d.set k v).findMany p).length ≤ (d.findMany p).length + if p k v = true then 1 else 0 := by
  have hperm := ((entries_set_perm d k v).filter fun e => p e.1 e.2).length_eq
  have hdelete : ((d.delete k).findMany p).length ≤ (d.findMany p).length :=
    length_findMany_delete_le
  rw [findMany, List.length_map, hperm, List.filter_append, List.length_append]
  rw [findMany, List.length_map] at hdelete
  refine Nat.add_le_add hdelete ?_
  split_ifs with hp
  · simp [hp]
  · simp [hp]

lemma length_findMany_deleteMany_le {q : κ → ν → Bool} :
    ((d.deleteMany q).findMany p).length ≤ (d.findMany p).length := by
  rw [findMany, findMany, List.length_map, List.length_map]
  exact (List.filter_sublist.filter _).length_le

end Dict

section Statements

variable {db db' : FriendDb} {kind : CapKind} {gameIds : List Text} {person : Text}

/-- What a change leaves: ids keep the parties they were issued for, and no person has more rows
under a cap, apart from those that `adds` says. -/
structure FriendDb.Grows (adds : CapKind → List Text → Text → Prop) (db db' : FriendDb) : Prop where
  issued : ∀ id parties, db.issued.get? id = some parties → db'.issued.get? id = some parties
  tally_le : ∀ kind gameIds person, db'.tally kind gameIds person ≤ db.tally kind gameIds person + 1
  tally_le_of_not : ∀ kind gameIds person, ¬ adds kind gameIds person →
    db'.tally kind gameIds person ≤ db.tally kind gameIds person

/-- A change that adds no row under any cap. -/
abbrev FriendDb.Stays : FriendDb → FriendDb → Prop := FriendDb.Grows fun _ _ _ => False

lemma FriendDb.Grows.mono {adds adds' : CapKind → List Text → Text → Prop}
    (h : FriendDb.Grows adds db db') (hsub : ∀ kind gameIds person, adds kind gameIds person →
      adds' kind gameIds person) : FriendDb.Grows adds' db db' :=
  ⟨h.issued, h.tally_le, fun kind gameIds person hnot =>
    h.tally_le_of_not kind gameIds person fun hadds => hnot (hsub kind gameIds person hadds)⟩

/-- Two changes that do not both add rows of one person. -/
lemma FriendDb.Grows.trans {adds adds' : CapKind → List Text → Text → Prop} {db'' : FriendDb}
    (h : FriendDb.Grows adds db db') (h' : FriendDb.Grows adds' db' db'')
    (hone : ∀ kind gameIds person, adds kind gameIds person → ¬ adds' kind gameIds person) :
    FriendDb.Grows (fun kind gameIds person => adds kind gameIds person ∨ adds' kind gameIds person)
      db db'' where
  issued id parties hget := h'.issued id parties (h.issued id parties hget)
  tally_le kind gameIds person := by
    by_cases hadds : adds kind gameIds person
    · exact (h'.tally_le_of_not _ _ _ (hone kind gameIds person hadds)).trans
        (h.tally_le kind gameIds person)
    · have hfirst := h.tally_le_of_not kind gameIds person hadds
      exact (h'.tally_le kind gameIds person).trans (Nat.add_le_add_right hfirst 1)
  tally_le_of_not kind gameIds person hnot := by
    rw [not_or] at hnot
    exact (h'.tally_le_of_not _ _ _ hnot.2).trans (h.tally_le_of_not _ _ _ hnot.1)

lemma FriendDb.Stays.refl (db : FriendDb) : db.Stays db :=
  ⟨fun _ _ h => h, fun _ _ _ => Nat.le_succ _, fun _ _ _ _ => le_rfl⟩

lemma FriendDb.Stays.trans {db'' : FriendDb} (h : db.Stays db') (h' : db'.Stays db'') :
    db.Stays db'' :=
  (FriendDb.Grows.trans h h' fun _ _ _ hadds => hadds.elim).mono fun _ _ _ hadds => hadds.elim id id

/-- A change that sets one relationship. -/
lemma FriendDb.grows_of_set {id : Text} {row : UserRelationship}
    (hissued : ∀ id parties, db.issued.get? id = some parties → db'.issued.get? id = some parties)
    (hset : db'.relationships = db.relationships.set id row) (htags : db'.tags = db.tags) :
    FriendDb.Grows row.CountsFor db db' := by
  have hcount : ∀ gameIds person type, db'.count gameIds person type
      ≤ db.count gameIds person type + if row.gameId ∈ gameIds ∧ row.actorJunjoUserId = person ∧
        row.type = type then 1 else 0 := by
    intro gameIds person type
    rw [FriendDb.count, hset]
    refine Dict.length_findMany_set_le.trans (Nat.add_le_add le_rfl (le_of_eq ?_))
    simp only [Bool.and_eq_true, decide_eq_true_eq, and_assoc]
  have htally : ∀ kind gameIds person, db'.tally kind gameIds person
      ≤ db.tally kind gameIds person + if row.CountsFor kind gameIds person then 1 else 0 := by
    intro kind gameIds person
    cases kind with
    | friends =>
      refine (hcount gameIds person .friend).trans (Nat.add_le_add le_rfl ?_)
      split_ifs with hfriend hcounts
      · exact le_rfl
      · exact absurd ⟨by rw [hfriend.2.2]; rfl, hfriend.1, hfriend.2.1⟩ hcounts
      · exact Nat.zero_le _
      · exact le_rfl
    | pending =>
      refine (hcount gameIds person .request).trans (Nat.add_le_add le_rfl ?_)
      split_ifs with hrequest hcounts
      · exact le_rfl
      · exact absurd ⟨by rw [hrequest.2.2]; rfl, hrequest.1, hrequest.2.1⟩ hcounts
      · exact Nat.zero_le _
      · exact le_rfl
    | tags =>
      rw [FriendDb.tally, htags]
      exact Nat.le_add_right _ _
  refine ⟨hissued, fun kind gameIds person => ?_, fun kind gameIds person hnot => ?_⟩
  · refine (htally kind gameIds person).trans (Nat.add_le_add le_rfl ?_)
    split_ifs
    · exact le_rfl
    · exact Nat.zero_le _
  · have hle := htally kind gameIds person
    rwa [if_neg hnot] at hle

lemma FriendDb.create_grows {id : Text} {row : UserRelationship} (h : db.create id row = some db') :
    FriendDb.Grows row.CountsFor db db' := by
  unfold FriendDb.create at h
  split_ifs at h with hnew
  obtain rfl := Option.some.inj h
  refine FriendDb.grows_of_set (fun id' parties hget => ?_) rfl rfl
  have hne : id' ≠ id := by
    rintro rfl
    exact hnew.1 (Dict.mem_keys_iff.mpr ⟨parties, hget⟩)
  exact (Dict.get?_set_of_ne _ _ hne).trans hget

/-- The friendship that a row under the id of a request becomes. -/
lemma FriendDb.friend_of_issued (db : FriendDb) {id : Text} {request row : UserRelationship}
    (hissued : db.issued.get? id = some request.parties)
    (hget : db.relationships.get? id = some row) :
    { row with type := RelationshipType.friend }
      = { request with type := RelationshipType.friend } := by
  have hparties : row.parties = request.parties :=
    Option.some.inj ((db.issuedRow id row hget).symm.trans hissued)
  simp only [UserRelationship.parties, Prod.mk.injEq] at hparties
  rw [UserRelationship.mk.injEq]
  exact ⟨hparties.1, hparties.2.1, hparties.2.2, rfl⟩

/-- A promotion of a row, which the id was issued for, adds a friendship of its actor. -/
lemma FriendDb.promote_grows {id : Text} {request : UserRelationship}
    (hissued : db.issued.get? id = some request.parties) (h : db.promote id = some db') :
    FriendDb.Grows { request with type := .friend }.CountsFor db db' := by
  unfold FriendDb.promote at h
  split at h
  · rw [← Option.some.inj h]
    exact (FriendDb.Stays.refl db).mono fun _ _ _ hadds => hadds.elim
  · rename_i row hget
    split_ifs at h
    · rw [← Option.some.inj h]
      exact (FriendDb.Stays.refl db).mono fun _ _ _ hadds => hadds.elim
    · rw [← Option.some.inj h, ← db.friend_of_issued hissued hget]
      exact FriendDb.grows_of_set (fun _ _ hget => hget) rfl rfl

/-- A promotion that changes something leaves the friendship under the id. -/
lemma FriendDb.promote_cases {id : Text} {request : UserRelationship}
    (hissued : db.issued.get? id = some request.parties) (h : db.promote id = some db') :
    db' = db ∨ db'.relationships.get? id = some { request with type := .friend } := by
  unfold FriendDb.promote at h
  split at h
  · exact .inl (Option.some.inj h).symm
  · rename_i row hget
    split_ifs at h
    · exact .inl (Option.some.inj h).symm
    · rw [← db.friend_of_issued hissued hget, ← Option.some.inj h]
      exact .inr (Dict.get?_set_self _ _ _)

/-- An accepted request adds one friendship to each of its people. -/
lemma FriendDb.accept_grows {id fresh : Text} {request : UserRelationship} {db'' : FriendDb}
    (hissued : db.issued.get? id = some request.parties) (h : db.promote id = some db')
    (h' : db'.create fresh
      ⟨request.gameId, request.targetJunjoUserId, request.actorJunjoUserId, .friend⟩ = some db'') :
    FriendDb.Grows (fun kind gameIds person => kind = .friends ∧ request.gameId ∈ gameIds ∧
      (request.targetJunjoUserId = person ∨ request.actorJunjoUserId = person)) db db'' := by
  have hmirror := FriendDb.create_grows h'
  by_cases hself : request.actorJunjoUserId = request.targetJunjoUserId
  · rcases FriendDb.promote_cases hissued h with rfl | hpromoted
    · refine hmirror.mono ?_
      rintro kind gameIds person ⟨hkind, hgame, hactor⟩
      exact ⟨(Option.some.inj hkind).symm, hgame, .inl hactor⟩
    · -- both rows would be the same
      have hrefused : db'.create fresh
          ⟨request.gameId, request.targetJunjoUserId, request.actorJunjoUserId, .friend⟩ = none := by
        rw [FriendDb.create, dif_neg]
        rintro ⟨-, hnone⟩
        rw [Dict.findMany_eq_nil_iff] at hnone
        have hrow := hnone id _ hpromoted
        rw [decide_eq_false_iff_not, UserRelationship.mk.injEq] at hrow
        exact hrow ⟨rfl, hself, hself.symm, rfl⟩
      rw [hrefused] at h'
      cases h'
  · refine (FriendDb.Grows.trans (FriendDb.promote_grows hissued h) hmirror ?_).mono ?_
    · rintro kind gameIds person ⟨-, -, hactor⟩ ⟨-, -, htarget⟩
      exact hself (hactor.trans htarget.symm)
    · rintro kind gameIds person (⟨hkind, hgame, hactor⟩ | ⟨hkind, hgame, htarget⟩)
      · exact ⟨(Option.some.inj hkind).symm, hgame, .inr hactor⟩
      · exact ⟨(Option.some.inj hkind).symm, hgame, .inl htarget⟩

/-- Two rows of different people made together. -/
lemma FriendDb.befriend_grows {gameId a b fresh freshMirror : Text} {db'' : FriendDb} (hne : a ≠ b)
    (h : db.create fresh ⟨gameId, a, b, .friend⟩ = some db')
    (h' : db'.create freshMirror ⟨gameId, b, a, .friend⟩ = some db'') :
    FriendDb.Grows (fun kind gameIds person => kind = .friends ∧ gameId ∈ gameIds ∧
      (a = person ∨ b = person)) db db'' := by
  refine (FriendDb.Grows.trans (FriendDb.create_grows h) (FriendDb.create_grows h') ?_).mono ?_
  · rintro kind gameIds person ⟨-, -, ha⟩ ⟨-, -, hb⟩
    exact hne (ha.trans hb.symm)
  · rintro kind gameIds person (⟨hkind, hgame, ha⟩ | ⟨hkind, hgame, hb⟩)
    · exact ⟨(Option.some.inj hkind).symm, hgame, .inl ha⟩
    · exact ⟨(Option.some.inj hkind).symm, hgame, .inr hb⟩

lemma FriendDb.createTag_grows {id : Text} {tag : FriendTag} (h : db.createTag id tag = some db') :
    FriendDb.Grows (fun kind gameIds person => kind = .tags ∧ tag.gameId ∈ gameIds ∧
      tag.junjoUserId = person) db db' := by
  unfold FriendDb.createTag at h
  split_ifs at h
  obtain rfl := Option.some.inj h
  have htags : ∀ gameIds person, FriendDb.tally { db with tags := db.tags.set id tag } .tags gameIds
      person ≤ db.tally .tags gameIds person +
        if tag.gameId ∈ gameIds ∧ tag.junjoUserId = person then 1 else 0 := by
    intro gameIds person
    refine Dict.length_findMany_set_le.trans (Nat.add_le_add le_rfl (le_of_eq ?_))
    simp only [Bool.and_eq_true, decide_eq_true_eq]
  refine ⟨fun _ _ hget => hget, fun kind gameIds person => ?_, fun kind gameIds person hnot => ?_⟩
  · cases kind with
    | friends => exact Nat.le_succ _
    | pending => exact Nat.le_succ _
    | tags =>
      refine (htags gameIds person).trans (Nat.add_le_add le_rfl ?_)
      split_ifs
      · exact le_rfl
      · exact Nat.zero_le _
  · cases kind with
    | friends => exact le_rfl
    | pending => exact le_rfl
    | tags =>
      have hle := htags gameIds person
      rwa [if_neg fun hcounts => hnot ⟨rfl, hcounts⟩] at hle

lemma FriendDb.deleteMany_stays (p : Text → UserRelationship → Bool) :
    db.Stays (db.deleteMany p) := by
  have hcount : ∀ gameIds person type, (db.deleteMany p).count gameIds person type
      ≤ db.count gameIds person type := fun _ _ _ => Dict.length_findMany_deleteMany_le
  have htally : ∀ kind gameIds person, (db.deleteMany p).tally kind gameIds person
      ≤ db.tally kind gameIds person := by
    intro kind gameIds person
    cases kind with
    | friends => exact hcount gameIds person .friend
    | pending => exact hcount gameIds person .request
    | tags => exact le_rfl
  exact ⟨fun _ _ h => h, fun kind gameIds person => (htally kind gameIds person).trans (Nat.le_succ _),
    fun kind gameIds person _ => htally kind gameIds person⟩

end Statements

/-! ### The discipline -/

/-- The check of a committing request is not stale: no more rows count towards the cap than it
counted, and every game that sees the row has a cap at least as high as that of the game called. -/
def CapCheck.Current (games : FriendsGames) (check : CapCheck) (db : FriendDb) : Prop :=
  ∀ game ∈ games.get? check.caller,
    db.tally check.kind (games.capScope check.kind check.caller game) check.person ≤ check.counted ∧
    ∀ other ∈ games.entries, check.gameId ∈ games.capScope check.kind other.1 other.2 →
      game.config.capOf check.kind ≤ other.2.config.capOf check.kind

instance decidableCurrent (games : FriendsGames) (check : CapCheck) (db : FriendDb) :
    Decidable (check.Current games db) :=
  inferInstanceAs (Decidable (∀ game ∈ games.get? check.caller, _ ∧ _))

/-- What a request that returns its checks does when it commits: each of them was passed, and it
adds rows only for people it checked. -/
structure CapEffect (games : FriendsGames) (checks : List CapCheck) (db db' : FriendDb) : Prop where
  passed : ∀ check ∈ checks, ∃ game, games.get? check.caller = some game ∧
    check.gameId ∈ games.capScope check.kind check.caller game ∧
    check.counted < game.config.capOf check.kind
  grows : FriendDb.Grows (fun kind gameIds person => ∃ check ∈ checks, check.kind = kind ∧
    check.gameId ∈ gameIds ∧ check.person = person) db db'

def capsDiscipline (games : FriendsGames) : Discipline FriendDb Text (List CapCheck) where
  inv _ := True
  effect checks _ db db' := CapEffect games checks db db'
  admits checks _ db := ∀ check ∈ checks, check.Current games db

/-- If the event commits a request, none of its checks is stale. -/
def FriendServer.CapsCurrent (games : FriendsGames) (server : FriendServer)
    (e : TxEvent FriendRequest) : Prop :=
  ∀ checks ∈ server.commitOf e, ∀ check ∈ checks, check.Current games server.committed

instance decidableCapsCurrent (games : FriendsGames) (server : FriendServer)
    (e : TxEvent FriendRequest) : Decidable (server.CapsCurrent games e) :=
  inferInstanceAs (Decidable (∀ checks ∈ server.commitOf e, _))

lemma FriendServer.CapsCurrent.admitted {games : FriendsGames} {server : FriendServer}
    {e : TxEvent FriendRequest} (h : server.CapsCurrent games e) :
    server.Admitted (capsDiscipline games) e := by
  cases e with
  | advance id =>
    intro session checks hsession hprog hchange
    refine h checks ?_
    rw [Database.commitOf, hsession, Option.bind_some, hprog]
    exact if_pos hchange
  | start id request => trivial
  | rollback id => trivial

abbrev CapsKeeps (games : FriendsGames) : FriendTx (List CapCheck) → List Text →
    (FriendDb → Option FriendDb) → List FriendDb → FriendDb → Prop :=
  Keeps friendLockConflicts (capsDiscipline games)

abbrev CapsEvolves (games : FriendsGames) (held : List Text) : FriendDb → FriendDb → Prop :=
  Evolves friendLockConflicts (capsDiscipline games) held

/-! ### The programs -/

namespace FriendRoutes

section Programs

variable {games : FriendsGames} {held : List Text} {change : FriendDb → Option FriendDb}
  {seen : List FriendDb} {c : FriendDb}

lemma capsKeeps_assert {condition : Bool} {error : FriendError} {k : Unit → FriendTx (List CapCheck)}
    (h : condition = true → CapsKeeps games (k ()) held change seen c) :
    CapsKeeps games (assert condition error >>= k) held change seen c := by
  unfold assert
  split_ifs with hcondition
  · exact h hcondition
  · trivial

lemma capsKeeps_loadGameConfig {gameId : Text} {k : FriendsGame → FriendTx (List CapCheck)}
    (h : ∀ game, games.get? gameId = some game → CapsKeeps games (k game) held change seen c) :
    CapsKeeps games (loadGameConfig games gameId >>= k) held change seen c := by
  unfold loadGameConfig
  cases hget : games.get? gameId with
  | none => trivial
  | some game => exact h game hget

/-- What every commit keeps. -/
def Stable (games : FriendsGames) (P : FriendDb → Prop) : Prop :=
  ∀ checks db db', CapEffect games checks db db' → P db → P db'

lemma stable_true (games : FriendsGames) : Stable games fun _ => True := fun _ _ _ _ h => h

lemma stable_issued (games : FriendsGames) (id : Text) (parties : Text × Text × Text) :
    Stable games fun db => db.issued.get? id = some parties :=
  fun _ _ _ heffect hget => heffect.grows.issued id parties hget

variable {P : FriendDb → Prop}

lemma Stable.evolves (hP : Stable games P) {c' : FriendDb} (h : CapsEvolves games held c c')
    (hc : P c) : P c' :=
  h.preserves (fun db db' checks _ _ _ _ heffect => hP checks db db' heffect) hc

/-- A read whose answer may be any. -/
lemma capsKeeps_query (hP : Stable games P) (hc : P c) {ρ : Type} {reply : FriendDb → ρ}
    {k : ρ → FriendTx (List CapCheck)}
    (h : ∀ answer seen' c', P c' → CapsKeeps games (k answer) held change seen' c') :
    CapsKeeps games (query reply >>= k) held change seen c := by
  rw [CapsKeeps, keeps_query]
  intro _ view _ c' hc'
  exact h _ _ c' (hP.evolves hc' hc)

lemma capsKeeps_countBelow (hP : Stable games P) (hc : P c) {gameIds : List Text} {person : Text}
    {type : RelationshipType} {cap : ℕ} {message : String} {k : ℕ → FriendTx (List CapCheck)}
    (h : ∀ rows seen' c', rows < cap → P c' → CapsKeeps games (k rows) held change seen' c') :
    CapsKeeps games (countBelow gameIds person type cap message >>= k) held change seen c := by
  rw [countBelow, bind_assoc]
  refine capsKeeps_query hP hc fun rows seen' c' hc' => ?_
  rw [bind_assoc]
  refine capsKeeps_assert fun hrows => ?_
  exact h rows seen' c' (of_decide_eq_true hrows) hc'

/-- A change, which is made again at the commit. -/
lemma capsKeeps_write (hP : Stable games P) (hc : P c) {ρ : Type} {locks : FriendDb → List Text}
    {reply : FriendDb → ρ} {w : FriendDb → Option FriendDb} {k : ρ → FriendTx (List CapCheck)}
    (h : ∀ answer held' seen' c', P c' →
      CapsKeeps games (k answer) held' (fun c => (change c).bind w) seen' c') :
    CapsKeeps games (write locks reply w >>= k) held change seen c := by
  rw [CapsKeeps, keeps_write]
  intro _ view _ c' hc'
  exact h _ _ _ c' (hP.evolves hc' hc)

lemma capsKeeps_pure {checks : List CapCheck}
    (hpassed : ∀ check ∈ checks, ∃ game, games.get? check.caller = some game ∧
      check.gameId ∈ games.capScope check.kind check.caller game ∧
      check.counted < game.config.capOf check.kind)
    (hgrows : ∀ c', change c = some c' → FriendDb.Grows (fun kind gameIds person =>
      ∃ check ∈ checks, check.kind = kind ∧ check.gameId ∈ gameIds ∧ check.person = person) c c') :
    CapsKeeps games (pure checks) held change seen c :=
  fun _ _ c' hc' => ⟨trivial, hpassed, hgrows c' hc'⟩

/-- A program that only leaves rows under the caps or deletes them. -/
abbrev CapFree : FriendTx (List CapCheck) → Prop :=
  Within FriendDb.Stays fun checks => checks = []

lemma CapFree.keeps {p : FriendTx (List CapCheck)} (h : CapFree p) :
    CapsKeeps games p [] some [] c := by
  refine Within.keeps h (fun _ _ _ => FriendDb.Stays.trans) ?_ ?_
  · rintro _ _ db db' rfl _ hstays
    exact ⟨trivial, fun check hcheck => absurd hcheck (by simp),
      hstays.mono fun _ _ _ hadds => hadds.elim⟩
  · intro db db' h
    rw [← Option.some.inj h]
    exact FriendDb.Stays.refl db

lemma mem_gameIdsInScope_self (games : FriendsGames) (gameId : Text) (game : FriendsGame) :
    gameId ∈ games.gameIdsInScope gameId game := by
  unfold FriendsGames.gameIdsInScope
  split_ifs with hscope
  · exact List.mem_singleton_self _
  · dsimp only
    split_ifs with hmem
    · exact hmem
    · exact List.mem_append_right _ (List.mem_singleton_self _)

lemma keeps_sendFriendRequest (gameId actorJid targetJid fresh freshMirror : Text) :
    CapsKeeps games (sendFriendRequest games gameId actorJid targetJid fresh freshMirror) [] some []
      c := by
  have hP := stable_true games
  have hself := mem_gameIdsInScope_self games gameId
  unfold sendFriendRequest existing
  refine capsKeeps_loadGameConfig fun game hgame => ?_
  refine capsKeeps_assert fun _ => ?_
  refine capsKeeps_assert fun hne => ?_
  refine capsKeeps_query hP trivial fun _ _ c _ => ?_
  refine capsKeeps_assert fun _ => ?_
  refine capsKeeps_query hP trivial fun _ _ c _ => ?_
  refine capsKeeps_assert fun _ => ?_
  refine capsKeeps_query hP trivial fun _ _ c _ => ?_
  refine capsKeeps_assert fun _ => ?_
  refine capsKeeps_query hP trivial fun _ _ c _ => ?_
  refine capsKeeps_assert fun _ => ?_
  refine capsKeeps_countBelow hP trivial fun pending _ c hpending _ => ?_
  refine capsKeeps_countBelow hP trivial fun friends _ c hfriends _ => ?_
  split_ifs
  · refine capsKeeps_write hP trivial fun _ _ _ c _ => ?_
    refine capsKeeps_pure ?_ ?_
    · intro check hcheck
      obtain rfl := List.mem_singleton.mp hcheck
      exact ⟨game, hgame, hself game, hpending⟩
    · intro c' hc'
      refine (FriendDb.create_grows hc').mono ?_
      rintro kind gameIds person ⟨hkind, hmem, hactor⟩
      exact ⟨_, List.mem_singleton_self _, Option.some.inj hkind, hmem, hactor⟩
  · refine capsKeeps_countBelow hP trivial fun targetFriends _ c htarget _ => ?_
    refine capsKeeps_write hP trivial fun _ _ _ c _ => ?_
    refine capsKeeps_write hP trivial fun _ _ _ c _ => ?_
    refine capsKeeps_pure ?_ ?_
    · intro check hcheck
      rcases List.mem_pair.mp hcheck with rfl | rfl
      · exact ⟨game, hgame, hself game, hfriends⟩
      · exact ⟨game, hgame, hself game, htarget⟩
    · intro c'' hc''
      obtain ⟨c', hc', hc''⟩ := Option.bind_eq_some_iff.mp hc''
      refine (FriendDb.befriend_grows (of_decide_eq_true hne) hc' hc'').mono ?_
      rintro kind gameIds person ⟨rfl, hmem, rfl | rfl⟩
      · exact ⟨_, List.mem_cons_self, rfl, hmem, rfl⟩
      · exact ⟨_, List.mem_cons_of_mem _ (List.mem_singleton_self _), rfl, hmem, rfl⟩

lemma keeps_acceptFriendRequest (gameId id fresh : Text) :
    CapsKeeps games (acceptFriendRequest games gameId id fresh) [] some [] c := by
  unfold acceptFriendRequest
  refine capsKeeps_loadGameConfig fun game hgame => ?_
  refine capsKeeps_assert fun _ => ?_
  rw [CapsKeeps, keeps_query]
  intro _ view hview c₁ hc₁
  obtain rfl := Option.some.inj hview
  cases hfound : c.findUnique id with
  | none => trivial
  | some request =>
    unfold pendingRequest
    dsimp only
    split_ifs with hpending
    · have hP := stable_issued games id request.parties
      have hissued : c₁.issued.get? id = some request.parties :=
        hP.evolves hc₁ (c.issuedRow id request hfound)
      refine capsKeeps_countBelow hP hissued fun accepterFriends _ c₂ haccepter hc₂ => ?_
      refine capsKeeps_countBelow hP hc₂ fun senderFriends _ c₃ hsender hc₃ => ?_
      refine capsKeeps_write hP hc₃ fun promoted _ _ c₄ hc₄ => ?_
      refine capsKeeps_assert fun _ => ?_
      refine capsKeeps_write hP hc₄ fun _ _ _ c₅ hc₅ => ?_
      refine capsKeeps_pure ?_ ?_
      · intro check hcheck
        rcases List.mem_pair.mp hcheck with rfl | rfl
        · exact ⟨game, hgame, hpending.1, haccepter⟩
        · exact ⟨game, hgame, hpending.1, hsender⟩
      · intro c'' hc''
        obtain ⟨c', hc', hc''⟩ := Option.bind_eq_some_iff.mp hc''
        refine (FriendDb.accept_grows hc₅ hc' hc'').mono ?_
        rintro kind gameIds person ⟨rfl, hmem, rfl | rfl⟩
        · exact ⟨_, List.mem_cons_self, rfl, hmem, rfl⟩
        · exact ⟨_, List.mem_cons_of_mem _ (List.mem_singleton_self _), rfl, hmem, rfl⟩
    · trivial

lemma keeps_createFriendTag (gameId actorJid name : Text) (color : Option Text) (fresh : Text) :
    CapsKeeps games (createFriendTag games gameId actorJid name color fresh) [] some [] c := by
  have hP := stable_true games
  unfold createFriendTag
  refine capsKeeps_loadGameConfig fun game hgame => ?_
  refine capsKeeps_assert fun _ => ?_
  refine capsKeeps_query hP trivial fun tags _ c _ => ?_
  refine capsKeeps_assert fun htags => ?_
  refine capsKeeps_write hP trivial fun _ _ _ c _ => ?_
  refine capsKeeps_pure ?_ ?_
  · intro check hcheck
    obtain rfl := List.mem_singleton.mp hcheck
    exact ⟨game, hgame, List.mem_singleton_self _, of_decide_eq_true htags⟩
  · intro c' hc'
    refine (FriendDb.createTag_grows hc').mono ?_
    rintro kind gameIds person ⟨rfl, hmem, hperson⟩
    exact ⟨_, List.mem_singleton_self _, rfl, hmem, hperson⟩

/-! ### Programs that add no row under a cap -/

lemma capFree_assert {condition : Bool} {error : FriendError} {k : Unit → FriendTx (List CapCheck)}
    (h : CapFree (k ())) : CapFree (assert condition error >>= k) := by
  unfold assert
  split_ifs
  · exact h
  · trivial

lemma capFree_loadGameConfig {gameId : Text} {k : FriendsGame → FriendTx (List CapCheck)}
    (h : ∀ game, CapFree (k game)) : CapFree (loadGameConfig games gameId >>= k) := by
  unfold loadGameConfig
  cases games.get? gameId with
  | none => trivial
  | some game => exact h game

lemma capFree_query {ρ : Type} {reply : FriendDb → ρ} {k : ρ → FriendTx (List CapCheck)}
    (h : ∀ answer, CapFree (k answer)) : CapFree (query reply >>= k) :=
  (Within.query FriendDb.Stays.refl reply).bind fun answer _ => h answer

lemma capFree_deleteWhere {p : Text → UserRelationship → Bool} {k : ℕ → FriendTx (List CapCheck)}
    (h : ∀ deleted, CapFree (k deleted)) : CapFree (deleteWhere p >>= k) := by
  refine Within.bind (Within.write _ _ ?_) fun deleted _ => h deleted
  intro db db' hdelete
  rw [← Option.some.inj hdelete]
  exact FriendDb.deleteMany_stays p

lemma within_deletePendingRequest (visible : List Text) (id : Text) :
    Within FriendDb.Stays (fun _ => True) (deletePendingRequest visible id) := by
  unfold deletePendingRequest
  refine Within.bind (Within.query FriendDb.Stays.refl _) fun found _ => ?_
  have hpending : Within FriendDb.Stays (fun _ => True) (pendingRequest visible found) := by
    unfold pendingRequest
    cases found with
    | none => exact Within.throw _ _
    | some request =>
      dsimp only
      split_ifs
      · exact Within.pure trivial
      · exact Within.throw _ _
  refine Within.bind hpending fun request _ => ?_
  refine Within.bind (Within.write _ _ ?_) fun deleted _ => ?_
  · intro db db' hdelete
    rw [← Option.some.inj hdelete]
    exact FriendDb.deleteMany_stays _
  · unfold assert
    split_ifs
    · exact Within.pure trivial
    · exact Within.throw _ _

lemma capFree_endFriendRequest (gameId id : Text) : CapFree (endFriendRequest games gameId id) := by
  unfold endFriendRequest
  refine capFree_loadGameConfig fun game => ?_
  refine capFree_assert ?_
  exact Within.bind (within_deletePendingRequest _ id) fun _ _ => Within.pure rfl

lemma capFree_unfriend (gameId actorJid otherJid : Text) :
    CapFree (FriendRoutes.unfriend games gameId actorJid otherJid) := by
  unfold FriendRoutes.unfriend existing
  refine capFree_loadGameConfig fun game => ?_
  refine capFree_assert ?_
  refine capFree_query fun forward => ?_
  cases forward with
  | none => trivial
  | some forward =>
    refine capFree_deleteWhere fun deleted => ?_
    refine capFree_assert ?_
    exact Within.pure rfl

lemma capFree_addBlock (gameId actorJid targetJid fresh : Text) :
    CapFree (addBlock games gameId actorJid targetJid fresh) := by
  unfold addBlock existing
  refine capFree_loadGameConfig fun game => ?_
  refine capFree_assert ?_
  refine capFree_assert ?_
  refine capFree_query fun block => ?_
  cases block with
  | some block => exact Within.pure rfl
  | none =>
    refine Within.bind (Within.write _ _ ?_) fun _ _ => ?_
    · intro db db' hcreate
      refine (FriendDb.create_grows hcreate).mono ?_
      rintro kind gameIds person ⟨hkind, -⟩
      cases hkind
    · exact capFree_deleteWhere fun deleted => Within.pure rfl

end Programs

end FriendRoutes

open FriendRoutes in
lemma keeps_friendRequest (games : FriendsGames) (r : FriendRequest) (c : FriendDb) :
    CapsKeeps games (r.program games) [] some [] c := by
  cases r with
  | send gameId actorJid targetJid fresh freshMirror =>
    exact keeps_sendFriendRequest gameId actorJid targetJid fresh freshMirror
  | accept gameId id fresh => exact keeps_acceptFriendRequest gameId id fresh
  | decline gameId id => exact (capFree_endFriendRequest gameId id).keeps
  | cancel gameId id => exact (capFree_endFriendRequest gameId id).keeps
  | unfriend gameId actorJid otherJid => exact (capFree_unfriend gameId actorJid otherJid).keeps
  | block gameId actorJid targetJid fresh =>
    exact (capFree_addBlock gameId actorJid targetJid fresh).keeps
  | createTag gameId actorJid name color fresh =>
    exact keeps_createFriendTag gameId actorJid name color fresh

/-! ### Scopes -/

section Scopes

variable {games : FriendsGames} {kind : CapKind} {gameId other x : Text} {game otherGame : FriendsGame}

/-- Besides itself, a game in a network sees the games of the network that opted in as well. -/
lemma mem_gameIdsInScope (hgame : games.get? gameId = some game) :
    x ∈ games.gameIdsInScope gameId game ↔ x = gameId ∨
      (game.config.scope = .network ∧ game.networkId.getD [] ≠ [] ∧ ∃ peer,
        games.get? x = some peer ∧ peer.networkId = game.networkId ∧
          peer.config.scope = .network) := by
  have hids : ∀ y, y ∈ (games.entries.filter fun peer =>
      peer.2.networkId = game.networkId && peer.2.config.scope = .network).map Prod.fst ↔
      ∃ peer, games.get? y = some peer ∧ peer.networkId = game.networkId ∧
        peer.config.scope = .network := by
    intro y
    simp only [List.mem_map, List.mem_filter, Bool.and_eq_true, decide_eq_true_eq]
    constructor
    · rintro ⟨⟨id, peer⟩, ⟨hentry, hnetwork, hscope⟩, rfl⟩
      exact ⟨peer, Dict.get?_eq_some_iff.mpr hentry, hnetwork, hscope⟩
    · rintro ⟨peer, hpeer, hnetwork, hscope⟩
      exact ⟨(y, peer), ⟨Dict.get?_eq_some_iff.mp hpeer, hnetwork, hscope⟩, rfl⟩
  unfold FriendsGames.gameIdsInScope
  split_ifs with hscope
  · rw [List.mem_singleton]
    refine ⟨.inl, ?_⟩
    rintro (rfl | ⟨hnetwork, hid, -⟩)
    · rfl
    · exact absurd hscope (by simp [hnetwork, hid])
  · rw [not_or, not_not] at hscope
    have hself : gameId ∈ (games.entries.filter fun peer =>
        peer.2.networkId = game.networkId && peer.2.config.scope = .network).map Prod.fst :=
      (hids gameId).mpr ⟨game, hgame, rfl, hscope.1⟩
    dsimp only
    rw [if_pos hself, hids]
    constructor
    · exact fun hpeer => .inr ⟨hscope.1, hscope.2, hpeer⟩
    · rintro (rfl | ⟨-, -, hpeer⟩)
      · exact (hids x).mp hself
      · exact hpeer

/-- Games that see one row see the same rows. -/
lemma capScope_eq (hgame : games.get? gameId = some game) (hother : games.get? other = some otherGame)
    (hx : x ∈ games.capScope kind gameId game) (hx' : x ∈ games.capScope kind other otherGame)
    (y : Text) : y ∈ games.capScope kind gameId game ↔ y ∈ games.capScope kind other otherGame := by
  have hscope : x ∈ games.gameIdsInScope gameId game → x ∈ games.gameIdsInScope other otherGame →
      (y ∈ games.gameIdsInScope gameId game ↔ y ∈ games.gameIdsInScope other otherGame) := by
    simp only [mem_gameIdsInScope hgame, mem_gameIdsInScope hother]
    -- both games opted in to one network
    have hsame : game.config.scope = .network → otherGame.config.scope = .network →
        game.networkId.getD [] ≠ [] → game.networkId = otherGame.networkId →
        ((y = gameId ∨ game.config.scope = .network ∧ game.networkId.getD [] ≠ [] ∧
          ∃ peer, games.get? y = some peer ∧ peer.networkId = game.networkId ∧
            peer.config.scope = .network) ↔
        (y = other ∨ otherGame.config.scope = .network ∧ otherGame.networkId.getD [] ≠ [] ∧
          ∃ peer, games.get? y = some peer ∧ peer.networkId = otherGame.networkId ∧
            peer.config.scope = .network)) := by
      intro hscope hscope' hid hnetwork
      rw [← hnetwork]
      constructor
      · rintro (rfl | ⟨-, -, hpeer⟩)
        · exact .inr ⟨hscope', hid, game, hgame, rfl, hscope⟩
        · exact .inr ⟨hscope', hid, hpeer⟩
      · rintro (rfl | ⟨-, -, hpeer⟩)
        · exact .inr ⟨hscope, hid, otherGame, hother, hnetwork.symm, hscope'⟩
        · exact .inr ⟨hscope, hid, hpeer⟩
    rintro (rfl | ⟨hscope, hid, peer, hpeer, hnetwork, hpeerScope⟩)
    · rintro (rfl | ⟨hscope', hid', peer', hpeer', hnetwork', hpeerScope'⟩)
      · obtain rfl : game = otherGame := Option.some.inj (hgame.symm.trans hother)
        rfl
      · obtain rfl : game = peer' := Option.some.inj (hgame.symm.trans hpeer')
        exact hsame hpeerScope' hscope' (hnetwork' ▸ hid') hnetwork'
    · rintro (rfl | ⟨hscope', -, peer', hpeer', hnetwork', -⟩)
      · obtain rfl : otherGame = peer := Option.some.inj (hother.symm.trans hpeer)
        exact hsame hscope hpeerScope hid hnetwork.symm
      · obtain rfl : peer = peer' := Option.some.inj (hpeer.symm.trans hpeer')
        exact hsame hscope hscope' hid (hnetwork.symm.trans hnetwork')
  cases kind with
  | friends => exact hscope hx hx'
  | pending => exact hscope hx hx'
  | tags =>
    obtain rfl := List.mem_singleton.mp hx
    obtain rfl := List.mem_singleton.mp hx'
    rfl

lemma FriendDb.tally_congr (db : FriendDb) (kind : CapKind) {gameIds gameIds' : List Text}
    (person : Text) (h : ∀ y, y ∈ gameIds ↔ y ∈ gameIds') :
    db.tally kind gameIds person = db.tally kind gameIds' person := by
  cases kind <;> simp only [FriendDb.tally, FriendDb.count, h]

end Scopes

/-! ### The caps over a run -/

/-- Nobody has more rows than a cap allows that had not more at the start. -/
def CapsKept (games : FriendsGames) (start db : FriendDb) : Prop :=
  ∀ kind gameId game person, games.get? gameId = some game →
    game.config.capOf kind < db.tally kind (games.capScope kind gameId game) person →
    game.config.capOf kind < start.tally kind (games.capScope kind gameId game) person

/-- A commit whose checks are not stale passes no cap. -/
lemma CapsKept.step {games : FriendsGames} {start db db' : FriendDb} {checks : List CapCheck}
    (h : CapsKept games start db) (heffect : CapEffect games checks db db')
    (hcurrent : ∀ check ∈ checks, check.Current games db) : CapsKept games start db' := by
  intro kind gameId game person hgame hover
  by_cases hadds : ∃ check ∈ checks, check.kind = kind ∧
      check.gameId ∈ games.capScope kind gameId game ∧ check.person = person
  · obtain ⟨check, hcheck, rfl, hmem, rfl⟩ := hadds
    obtain ⟨caller, hcaller, hseen, hpassed⟩ := heffect.passed check hcheck
    obtain ⟨hcounted, hcaps⟩ := hcurrent check hcheck caller hcaller
    have hcap : caller.config.capOf check.kind ≤ game.config.capOf check.kind :=
      hcaps (gameId, game) (Dict.get?_eq_some_iff.mp hgame) hmem
    have htally := heffect.grows.tally_le check.kind
      (games.capScope check.kind gameId game) check.person
    rw [db.tally_congr check.kind check.person (capScope_eq hgame hcaller hmem hseen)] at htally
    omega
  · exact h kind gameId game person hgame
      (lt_of_lt_of_le hover (heffect.grows.tally_le_of_not _ _ _ hadds))

/-- One game in which everyone may have one friend, and a request is the acceptance. -/
private def oneFriendEach : FriendsGames :=
  Dict.ofList [(text "g", ⟨⟨true, .perGame, false, 1, 1, true, 1, true⟩, none⟩)]

/-- Some steps of each of some requests in turn. -/
private def inTurn (ids : List ℕ) : ℕ → List (TxEvent FriendRequest)
  | 0 => []
  | steps + 1 => ids.map .advance ++ inTurn ids steps

/-- One person sends requests to two others. -/
private def twoRequests : List (TxEvent FriendRequest) :=
  [.start 1 (.send (text "g") (text "a") (text "b") (text "r1") (text "r2")),
    .start 2 (.send (text "g") (text "a") (text "c") (text "r3") (text "r4"))] ++ inTurn [1, 2] 10

end Junjo
