import Junjo.Core.Transactions
import Junjo.Events.EventLog

/-!
# Bans and sanctions

The tables of game bans and sanctions with each person's moderation version, and the statements
that moderation writes make on them.
-/

namespace Junjo

/-- A person of a game. -/
structure Person where
  gameId : Text
  junjoUserId : Text
deriving DecidableEq

/-- No end, or one after `now`. -/
def isActiveUntil (expiresAt : Option ℤ) (now : ℤ) : Bool :=
  match expiresAt with
  | none => true
  | some t => now < t

structure GameBan where
  id : Text
  person : Person
  bannedAt : ℤ
  expiresAt : Option ℤ
  reason : Option Text
  bannedByUserId : Option Text
  issuer : Option Text
deriving DecidableEq

structure Sanction where
  id : Text
  person : Person
  type : Text
  reason : Option Text
  expiresAt : Option ℤ
  issuer : Option Text
  issuedByUserId : Option Text
  startedAt : ℤ
deriving DecidableEq

inductive ModerationEventType where
  | banned (reason : Option Text) (expiresAt : Option ℤ)
  | unbanned
  | sanctioned (type : Text) (reason : Option Text) (expiresAt : Option ℤ)
  | unsanctioned (type : Text)
deriving DecidableEq

/-- An event about a person, whom it names by `userId`. -/
structure ModerationEvent where
  type : ModerationEventType
  person : Person
  userId : Text
  moderationVersion : ℕ
deriving DecidableEq

/-- A row of the ban history (without a type) or of the sanction history. -/
structure ModerationHistory where
  person : Person
  type : Option Text
  lifted : Bool
  reason : Option Text
  expiresAt : Option ℤ
  actorJunjoUserId : Option Text
  issuer : Option Text
  eventAt : Option ℤ
deriving DecidableEq

/-- The tables of moderation writes. The fields after the rows are the unique keys, and that the id
generator, which keeps the person it issued each row id for, never issues an id twice. -/
structure ModerationDb where
  versions : Dict Person ℕ
  bans : List GameBan
  sanctions : List Sanction
  history : List ModerationHistory
  eventLog : EventLog ModerationEvent
  issued : Dict Text Person
  uniqueBan : (bans.map GameBan.person).Nodup
  uniqueSanction : (sanctions.map fun s => (s.person, s.type)).Nodup
  issuedBan : ∀ b ∈ bans, issued.get? b.id = some b.person
  issuedSanction : ∀ s ∈ sanctions, issued.get? s.id = some s.person

inductive ModerationLock where
  /-- The person's row of the version table. -/
  | state (person : Person)
  /-- The game's row of the event counters. -/
  | counter (gameId : Text)
deriving DecidableEq

def ModerationLock.conflicts (k l : ModerationLock) : Bool := k = l

namespace ModerationDb

/-- A store without rows. -/
def empty : ModerationDb where
  versions := Dict.empty
  bans := []
  sanctions := []
  history := []
  eventLog := EventLog.empty
  issued := Dict.empty
  uniqueBan := List.nodup_nil
  uniqueSanction := List.nodup_nil
  issuedBan := fun _ h => absurd h (by simp)
  issuedSanction := fun _ h => absurd h (by simp)

variable (db : ModerationDb)

/-! ### Reads -/

/-- A person's version, zero while there is no row. -/
def version (person : Person) : ℕ := (db.versions.get? person).getD 0

def findBan (person : Person) : Option GameBan := db.bans.find? fun b => b.person = person

def findSanction (person : Person) (type : Text) : Option Sanction :=
  db.sanctions.find? fun s => s.person = person && s.type = type

/-! ### Changes -/

/-- `INSERT INTO "ModerationState" ... ON CONFLICT DO NOTHING` -/
def insertState (person : Person) : ModerationDb :=
  if db.versions.has person then db else { db with versions := db.versions.set person 0 }

def bumpVersion (person : Person) : ModerationDb :=
  { db with versions := db.versions.set person (db.version person + 1) }

/-- Insert a ban; refused when the person has one or its id was issued before. -/
def insertBan (ban : GameBan) : Option ModerationDb :=
  if h : ban.id ∉ db.issued.keys ∧ ((db.bans ++ [ban]).map GameBan.person).Nodup then
    some { db with
      bans := db.bans ++ [ban]
      issued := db.issued.set ban.id ban.person
      uniqueBan := h.2
      issuedBan := by
        intro b hb
        rw [Dict.get?_set]
        rcases List.mem_append.mp hb with hb | hb
        · have hissued := db.issuedBan b hb
          have hne : b.id ≠ ban.id := fun heq =>
            h.1 (heq ▸ Dict.mem_keys_iff.mpr ⟨_, hissued⟩)
          rwa [if_neg hne]
        · obtain rfl := List.mem_singleton.mp hb
          rw [if_pos rfl]
      issuedSanction := by
        intro s hs
        have hissued := db.issuedSanction s hs
        have hne : s.id ≠ ban.id := fun heq => h.1 (heq ▸ Dict.mem_keys_iff.mpr ⟨_, hissued⟩)
        rwa [Dict.get?_set_of_ne _ _ hne] }
  else none

/-- The columns of the ban with an id replaced, except the key. -/
def withBan (id : Text) (data : GameBan → GameBan)
    (hdata : ∀ b, (data b).id = b.id ∧ (data b).person = b.person) : ModerationDb :=
  { db with
    bans := db.bans.map fun b => if b.id = id then data b else b
    uniqueBan := by
      have hpersons : (db.bans.map fun b => if b.id = id then data b else b).map GameBan.person =
          db.bans.map GameBan.person := by
        rw [List.map_map]
        refine List.map_congr_left fun b _ => ?_
        show (if b.id = id then data b else b).person = b.person
        split_ifs
        · exact (hdata b).2
        · rfl
      rw [hpersons]
      exact db.uniqueBan
    issuedBan := by
      intro b hb
      obtain ⟨b', hb', rfl⟩ := List.mem_map.mp hb
      have hissued := db.issuedBan b' hb'
      split_ifs
      · rwa [(hdata b').1, (hdata b').2]
      · exact hissued }

/-- Update the ban with an id; refused when there is none. -/
def updateBan (id : Text) (data : GameBan → GameBan)
    (hdata : ∀ b, (data b).id = b.id ∧ (data b).person = b.person) : Option ModerationDb :=
  if db.bans.any fun b => b.id = id then some (db.withBan id data hdata) else none

def deleteBan (id : Text) : ModerationDb :=
  { db with
    bans := db.bans.filter fun b => b.id ≠ id
    uniqueBan := db.uniqueBan.sublist (List.filter_sublist.map _)
    issuedBan := fun b hb => db.issuedBan b (List.mem_of_mem_filter hb) }

/-- Insert a sanction; refused when the person has one of the type or its id was issued before. -/
def insertSanction (sanction : Sanction) : Option ModerationDb :=
  if h : sanction.id ∉ db.issued.keys ∧
      ((db.sanctions ++ [sanction]).map fun s => (s.person, s.type)).Nodup then
    some { db with
      sanctions := db.sanctions ++ [sanction]
      issued := db.issued.set sanction.id sanction.person
      uniqueSanction := h.2
      issuedBan := by
        intro b hb
        have hissued := db.issuedBan b hb
        have hne : b.id ≠ sanction.id := fun heq => h.1 (heq ▸ Dict.mem_keys_iff.mpr ⟨_, hissued⟩)
        rwa [Dict.get?_set_of_ne _ _ hne]
      issuedSanction := by
        intro s hs
        rw [Dict.get?_set]
        rcases List.mem_append.mp hs with hs | hs
        · have hissued := db.issuedSanction s hs
          have hne : s.id ≠ sanction.id := fun heq =>
            h.1 (heq ▸ Dict.mem_keys_iff.mpr ⟨_, hissued⟩)
          rwa [if_neg hne]
        · obtain rfl := List.mem_singleton.mp hs
          rw [if_pos rfl] }
  else none

def withSanction (id : Text) (data : Sanction → Sanction)
    (hdata : ∀ s, (data s).id = s.id ∧ (data s).person = s.person ∧ (data s).type = s.type) :
    ModerationDb :=
  { db with
    sanctions := db.sanctions.map fun s => if s.id = id then data s else s
    uniqueSanction := by
      have hkeys : ((db.sanctions.map fun s => if s.id = id then data s else s).map
          fun s => (s.person, s.type)) = db.sanctions.map fun s => (s.person, s.type) := by
        rw [List.map_map]
        refine List.map_congr_left fun s _ => ?_
        show ((if s.id = id then data s else s).person, (if s.id = id then data s else s).type) = _
        split_ifs
        · rw [(hdata s).2.1, (hdata s).2.2]
        · rfl
      rw [hkeys]
      exact db.uniqueSanction
    issuedSanction := by
      intro s hs
      obtain ⟨s', hs', rfl⟩ := List.mem_map.mp hs
      have hissued := db.issuedSanction s' hs'
      split_ifs
      · rwa [(hdata s').1, (hdata s').2.1]
      · exact hissued }

def updateSanction (id : Text) (data : Sanction → Sanction)
    (hdata : ∀ s, (data s).id = s.id ∧ (data s).person = s.person ∧ (data s).type = s.type) :
    Option ModerationDb :=
  if db.sanctions.any fun s => s.id = id then some (db.withSanction id data hdata) else none

/-- Delete the sanction with an id while it is active. -/
def deleteActiveSanction (id : Text) (now : ℤ) : ModerationDb :=
  { db with
    sanctions := db.sanctions.filter fun s => !(s.id = id && isActiveUntil s.expiresAt now)
    uniqueSanction := db.uniqueSanction.sublist (List.filter_sublist.map _)
    issuedSanction := fun s hs => db.issuedSanction s (List.mem_of_mem_filter hs) }

end ModerationDb

end Junjo
