import Junjo.Moderation.Writes

/-!
# Versions, events and effective moderation writes go together

Under any interleaving of moderation writes, a person's version counts the effective writes, the
game's log has one event of the person for each of them in the order of the versions, and a write
with `If-Match` commits only on the version that it names. The lock of the version row carries all
of it: what a write reads of the person under the lock is still so when it commits.
-/

namespace Junjo

namespace ModerationDb

/-- A person's ban and sanctions. -/
def rowsOf (db : ModerationDb) (person : Person) : List GameBan × List Sanction :=
  (db.bans.filter fun b => b.person = person, db.sanctions.filter fun s => s.person = person)

/-- Only rows of one person are changed, and neither versions nor histories. -/
structure RowChange (person : Person) (db db' : ModerationDb) : Prop where
  version : ∀ k, db'.version k = db.version k
  rows : ∀ k, k ≠ person → db'.rowsOf k = db.rowsOf k
  issued : ∀ id k, db.issued.get? id = some k → db'.issued.get? id = some k
  eventLog : db'.eventLog = db.eventLog
  history : db'.history = db.history

lemma RowChange.trans {person : Person} {db₁ db₂ db₃ : ModerationDb}
    (h : RowChange person db₁ db₂) (h' : RowChange person db₂ db₃) : RowChange person db₁ db₃ where
  version k := (h'.version k).trans (h.version k)
  rows k hk := (h'.rows k hk).trans (h.rows k hk)
  issued id k hid := h'.issued id k (h.issued id k hid)
  eventLog := h'.eventLog.trans h.eventLog
  history := h'.history.trans h.history

/-- What a committed write did: nothing to others, nothing at all without an event, and with one
exactly one step of version, log and history. -/
structure Written (result : ModerationResult) (held : List ModerationLock) (db db' : ModerationDb) :
    Prop where
  locked : .state result.person ∈ held
  ifMatch : ∀ v, result.ifMatch = some v → db.version result.person = v
  others : ∀ k, k ≠ result.person → db'.version k = db.version k ∧ db'.rowsOf k = db.rowsOf k
  issued : ∀ id k, db.issued.get? id = some k → db'.issued.get? id = some k
  refused : result.event = none → db'.version result.person = db.version result.person ∧
    db'.rowsOf result.person = db.rowsOf result.person ∧ db'.eventLog = db.eventLog ∧
    db'.history = db.history ∧ result.version = db.version result.person
  effective : ∀ event, result.event = some event →
    db'.version result.person = db.version result.person + 1 ∧
    db'.eventLog = db.eventLog.write result.person.gameId [event] ∧
    (∃ entry, db'.history = db.history ++ [entry]) ∧ event.person = result.person ∧
    event.moderationVersion = db.version result.person + 1 ∧
    result.version = db.version result.person + 1

/-! ### What the statements change -/

variable {db : ModerationDb} {person : Person}

lemma version_insertState (k : Person) : (db.insertState person).version k = db.version k := by
  rw [insertState]
  split_ifs with h
  · rfl
  · rw [version, version, Dict.get?_set]
    split_ifs with hk
    · have hnone : db.versions.get? person = none :=
        Dict.get?_eq_none_iff.mpr fun hmem => h (Dict.has_iff.mpr hmem)
      rw [hk, hnone]
      rfl
    · rfl

lemma insertState_same : (db.insertState person).bans = db.bans ∧
    (db.insertState person).sanctions = db.sanctions ∧
    (db.insertState person).issued = db.issued ∧
    (db.insertState person).eventLog = db.eventLog ∧
    (db.insertState person).history = db.history := by
  rw [insertState]
  split_ifs <;> simp

lemma rowsOf_insertState (k : Person) : (db.insertState person).rowsOf k = db.rowsOf k := by
  obtain ⟨hbans, hsanctions, -⟩ := @insertState_same db person
  rw [rowsOf, rowsOf, hbans, hsanctions]

lemma rowChange_insertState : RowChange person db (db.insertState person) := by
  obtain ⟨-, -, hissued, hlog, hhistory⟩ := @insertState_same db person
  exact ⟨version_insertState, fun k _ => rowsOf_insertState k, fun id k h => by rwa [hissued],
    hlog, hhistory⟩

lemma version_bumpVersion (k : Person) : (db.bumpVersion person).version k =
    if k = person then db.version person + 1 else db.version k := by
  rw [version, bumpVersion, Dict.get?_set]
  split_ifs <;> rfl

lemma rowChange_insertBan {ban : GameBan} (hban : ban.person = person) {db' : ModerationDb}
    (h : db.insertBan ban = some db') : RowChange person db db' := by
  rw [insertBan] at h
  split_ifs at h with hfresh
  cases h
  refine ⟨fun _ => rfl, fun k hk => ?_, fun id k hid => ?_, rfl, rfl⟩
  · have hother : ¬ person = k := fun heq => hk heq.symm
    simp [rowsOf, hban, hother]
  · have hne : id ≠ ban.id := fun heq => hfresh.1 (heq ▸ Dict.mem_keys_iff.mpr ⟨_, hid⟩)
    show (db.issued.set ban.id ban.person).get? id = some k
    rwa [Dict.get?_set_of_ne _ _ hne]

lemma rowChange_insertSanction {sanction : Sanction} (hsanction : sanction.person = person)
    {db' : ModerationDb} (h : db.insertSanction sanction = some db') : RowChange person db db' := by
  rw [insertSanction] at h
  split_ifs at h with hfresh
  cases h
  refine ⟨fun _ => rfl, fun k hk => ?_, fun id k hid => ?_, rfl, rfl⟩
  · have hother : ¬ person = k := fun heq => hk heq.symm
    simp [rowsOf, hsanction, hother]
  · have hne : id ≠ sanction.id := fun heq => hfresh.1 (heq ▸ Dict.mem_keys_iff.mpr ⟨_, hid⟩)
    show (db.issued.set sanction.id sanction.person).get? id = some k
    rwa [Dict.get?_set_of_ne _ _ hne]

/-- Rows that a change of one person's rows leaves alone. -/
lemma filter_map_of_owner {α : Type} {l : List α} {owner : α → Person} {p : α → Bool} {f : α → α}
    {k : Person} (howner : ∀ a ∈ l, p a = true → owner a ≠ k ∧ owner (f a) ≠ k) :
    (l.map fun a => if p a then f a else a).filter (fun a => owner a = k) =
      l.filter fun a => owner a = k := by
  induction l with
  | nil => rfl
  | cons a l ih =>
    have ih := ih fun b hb => howner b (List.mem_cons_of_mem _ hb)
    rw [List.map_cons, List.filter_cons, List.filter_cons, ih]
    cases hp : p a with
    | false => simp
    | true =>
      obtain ⟨hold, hnew⟩ := howner a List.mem_cons_self hp
      simp [hold, hnew]

lemma filter_filter_of_owner {α : Type} {l : List α} {owner : α → Person} {p : α → Bool}
    {k : Person} (howner : ∀ a ∈ l, p a = false → owner a ≠ k) :
    (l.filter p).filter (fun a => owner a = k) = l.filter fun a => owner a = k := by
  rw [List.filter_filter]
  refine List.filter_congr fun a ha => ?_
  cases hp : p a with
  | true => simp
  | false => simp [howner a ha hp]

lemma rowChange_updateBan {id : Text} (hid : db.issued.get? id = some person)
    {data : GameBan → GameBan} (hdata : ∀ b, (data b).id = b.id ∧ (data b).person = b.person)
    {db' : ModerationDb} (h : db.updateBan id data hdata = some db') : RowChange person db db' := by
  rw [updateBan] at h
  split_ifs at h
  cases h
  refine ⟨fun _ => rfl, fun k hk => ?_, fun _ _ h => h, rfl, rfl⟩
  refine Prod.ext ?_ rfl
  show ((db.bans.map fun b => if b.id = id then data b else b).filter _) = _
  have howner : ∀ b ∈ db.bans, decide (b.id = id) = true →
      b.person ≠ k ∧ (data b).person ≠ k := by
    intro b hb hbid
    have hissued := db.issuedBan b hb
    rw [of_decide_eq_true hbid, hid] at hissued
    rw [(hdata b).2, ← Option.some.inj hissued]
    exact ⟨hk.symm, hk.symm⟩
  simpa [rowsOf] using filter_map_of_owner howner

lemma rowChange_updateSanction {id : Text} (hid : db.issued.get? id = some person)
    {data : Sanction → Sanction}
    (hdata : ∀ s, (data s).id = s.id ∧ (data s).person = s.person ∧ (data s).type = s.type)
    {db' : ModerationDb} (h : db.updateSanction id data hdata = some db') : RowChange person db db' := by
  rw [updateSanction] at h
  split_ifs at h
  cases h
  refine ⟨fun _ => rfl, fun k hk => ?_, fun _ _ h => h, rfl, rfl⟩
  refine Prod.ext rfl ?_
  show ((db.sanctions.map fun s => if s.id = id then data s else s).filter _) = _
  have howner : ∀ s ∈ db.sanctions, decide (s.id = id) = true →
      s.person ≠ k ∧ (data s).person ≠ k := by
    intro s hs hsid
    have hissued := db.issuedSanction s hs
    rw [of_decide_eq_true hsid, hid] at hissued
    rw [(hdata s).2.1, ← Option.some.inj hissued]
    exact ⟨hk.symm, hk.symm⟩
  simpa [rowsOf] using filter_map_of_owner howner

lemma rowChange_deleteBan {id : Text} (hid : db.issued.get? id = some person) :
    RowChange person db (db.deleteBan id) := by
  refine ⟨fun _ => rfl, fun k hk => ?_, fun _ _ h => h, rfl, rfl⟩
  refine Prod.ext (filter_filter_of_owner fun b hb hdeleted => ?_) rfl
  have hissued := db.issuedBan b hb
  rw [show b.id = id by simpa using hdeleted, hid] at hissued
  rw [← Option.some.inj hissued]
  exact hk.symm

lemma rowChange_deleteActiveSanction {id : Text} {now : ℤ}
    (hid : db.issued.get? id = some person) :
    RowChange person db (db.deleteActiveSanction id now) := by
  refine ⟨fun _ => rfl, fun k hk => ?_, fun _ _ h => h, rfl, rfl⟩
  refine Prod.ext rfl (filter_filter_of_owner fun s hs hdeleted => ?_)
  have hissued := db.issuedSanction s hs
  simp only [Bool.not_eq_false', Bool.and_eq_true, decide_eq_true_eq] at hdeleted
  rw [hdeleted.1, hid] at hissued
  rw [← Option.some.inj hissued]
  exact hk.symm

lemma findBan_spec {ban : GameBan} (h : db.findBan person = some ban) :
    db.issued.get? ban.id = some person := by
  rw [db.issuedBan ban (List.mem_of_find?_eq_some h)]
  exact congrArg some (by simpa using List.find?_some h)

lemma findSanction_spec {type : Text} {sanction : Sanction}
    (h : db.findSanction person type = some sanction) :
    db.issued.get? sanction.id = some person := by
  have hfound := List.find?_some h
  simp only [Bool.and_eq_true, decide_eq_true_eq] at hfound
  rw [db.issuedSanction sanction (List.mem_of_find?_eq_some h), hfound.1]

end ModerationDb

/-- The rule for moderation writes. -/
def moderationDiscipline : Discipline ModerationDb ModerationLock ModerationResult where
  inv _ := True
  effect := ModerationDb.Written

abbrev ModerationEvolves := Evolves ModerationLock.conflicts moderationDiscipline

abbrev ModerationKeeps : ModerationTx ModerationResult → List ModerationLock →
    (ModerationDb → Option ModerationDb) → List ModerationDb → ModerationDb → Prop :=
  Keeps ModerationLock.conflicts moderationDiscipline

section Evolves

variable {held : List ModerationLock} {db db' : ModerationDb} {person : Person}

lemma ModerationEvolves.issued (h : ModerationEvolves held db db') {id : Text} {k : Person}
    (hid : db.issued.get? id = some k) : db'.issued.get? id = some k :=
  h.preserves (fun _ _ _ _ _ _ _ heffect hc => heffect.issued id k hc) hid

/-- Under the lock of a person's version row, the person's version and rows stay. -/
lemma ModerationEvolves.locked (h : ModerationEvolves held db db')
    (hlock : .state person ∈ held) :
    db'.version person = db.version person ∧ db'.rowsOf person = db.rowsOf person := by
  refine h.preserves (P := fun c => c.version person = db.version person ∧
    c.rowsOf person = db.rowsOf person) ?_ ⟨rfl, rfl⟩
  rintro c c' result held' - - hcompat heffect ⟨hversion, hrows⟩
  have hne : person ≠ result.person := by
    rintro rfl
    exact absurd (hcompat _ hlock _ heffect.locked) (by simp [ModerationLock.conflicts])
  obtain ⟨hversion', hrows'⟩ := heffect.others person hne
  exact ⟨hversion'.trans hversion, hrows'.trans hrows⟩

end Evolves

/-! ### The transactions -/

section Programs

open ModerationDb

variable {held : List ModerationLock} {change : ModerationDb → Option ModerationDb}
  {seen : List ModerationDb} {db : ModerationDb}

/-- So far only rows of a person were changed. -/
def ChangesRows (person : Person) (held : List ModerationLock)
    (change : ModerationDb → Option ModerationDb) (db : ModerationDb) : Prop :=
  ∀ c c', ModerationEvolves held db c → change c = some c' → RowChange person c c'

lemma ChangesRows.evolves {person : Person} {db' : ModerationDb}
    (h : ChangesRows person held change db) (hdb : ModerationEvolves held db db')
    {held' : List ModerationLock} (hsub : held ⊆ held') : ChangesRows person held' change db' :=
  fun c c' hc => h c c' (hdb.trans (hc.mono hsub))

lemma ChangesRows.bind {person : Person} (h : ChangesRows person held change db)
    {w : ModerationDb → Option ModerationDb} (hw : ∀ c c' c'', ModerationEvolves held db c →
      RowChange person c c' → w c' = some c'' → RowChange person c' c'') :
    ChangesRows person held (fun c => (change c).bind w) db := by
  intro c c'' hc hchange
  obtain ⟨c', hc', hw'⟩ := Option.bind_eq_some_iff.mp hchange
  have hfirst := h c c' hc hc'
  exact hfirst.trans (hw c c' c'' hc hfirst hw')

/-- The end of an effective write. -/
lemma keeps_finish {result : ModerationResult} {userId : Text} {type : ModerationEventType}
    {entry : ModerationHistory} (hlock : .state result.person ∈ held)
    (hchange : ChangesRows result.person held change db)
    (hmatch : ∀ v, result.ifMatch = some v → db.version result.person = v) :
    ModerationKeeps (ModerationWrites.finish result userId type entry) held change seen db := by
  rw [ModerationWrites.finish, ModerationWrites.bumpModerationVersion, ModerationKeeps, keeps_write]
  intro _ view hview db₁ h₁
  rw [keeps_write]
  intro _ _ _ db₂ h₂
  dsimp only [ModerationWrites.writeEventLog]
  rw [keeps_write]
  intro _ _ _ db₃ h₃ _ _ db' hdb'
  have hevolves : ModerationEvolves held db db₃ :=
    (h₁.mono (by simp)).trans ((h₂.mono (by simp)).trans (h₃.mono (by simp)))
  obtain ⟨hversion, hrows⟩ := hevolves.locked hlock
  have hviewed := (hchange db view .refl hview).version result.person
  simp only [Option.bind_eq_some_iff, Option.some.injEq] at hdb'
  obtain ⟨_, ⟨_, ⟨c, hc, rfl⟩, rfl⟩, rfl⟩ := hdb'
  have hrow := hchange db₃ c hevolves hc
  have hbumped : (c.bumpVersion result.person).version result.person =
      db₃.version result.person + 1 := by
    rw [version_bumpVersion, if_pos rfl, hrow.version]
  refine ⟨trivial, by simp [hlock], fun v hv => hversion.trans (hmatch v hv), ?_, hrow.issued,
    (fun hnone => by cases hnone), ?_⟩
  · intro k hk
    refine ⟨?_, hrow.rows k hk⟩
    have hother := @version_bumpVersion c result.person k
    rw [if_neg hk, hrow.version] at hother
    exact hother
  · rintro _ ⟨⟩
    refine ⟨hbumped, ?_, ⟨entry, ?_⟩, rfl, ?_, ?_⟩
    · show c.eventLog.write _ _ = _
      rw [hrow.eventLog]
    · show c.history ++ [entry] = _
      rw [hrow.history]
    · show view.version result.person + 1 = _
      rw [hviewed, hversion]
    · show view.version result.person + 1 = _
      rw [hviewed, hversion]

/-- What a transaction does once it holds the person's version row at the version it read. -/
lemma keeps_lockModerationVersion {person : Person} {expected : Option ℕ}
    {k : ℕ → ModerationTx ModerationResult}
    (hk : ∀ held seen db', .state person ∈ held → ModerationEvolves [] db db' →
      (∀ v, expected = some v → db'.version person = v) →
      ModerationKeeps (k (db'.version person)) held (fun c => some (c.insertState person)) seen db') :
    ModerationKeeps (ModerationWrites.lockModerationVersion person expected >>= k) [] some seen
      db := by
  rw [ModerationWrites.lockModerationVersion, ModerationKeeps]
  simp only [bind_assoc, pure_bind]
  rw [keeps_write]
  rintro - _ ⟨⟩ db₁ h₁
  rw [keeps_lockQuery]
  rintro - view hview db₂ h₂
  have hlock : ModerationLock.state person ∈ [] ++ (if db.versions.has person then []
      else [.state person]) ++ [.state person] := by simp
  obtain ⟨hversion, -⟩ := ModerationEvolves.locked h₂ hlock
  have hviewed : view.version person = db₁.version person := by
    simp only [Option.bind_some, Option.some.injEq] at hview
    rw [← hview, version_insertState]
  have hread : view.version person = db₂.version person := hviewed.trans hversion.symm
  have hevolves : ModerationEvolves [] db db₂ :=
    (h₁.mono (List.nil_subset _)).trans (h₂.mono (List.nil_subset _))
  rw [hread]
  generalize ([] ++ (if db.versions.has person then [] else [ModerationLock.state person]) ++
    [.state person]) = held at hlock ⊢
  cases expected with
  | none => exact hk _ _ db₂ hlock hevolves (fun v hv => by cases hv)
  | some v =>
    rw [ModerationWrites.assertVersion]
    split_ifs with heq
    · exact hk _ _ db₂ hlock hevolves (fun v' hv' => by cases hv'; exact heq.symm)
    · trivial

lemma changesRows_insertState {person : Person} :
    ChangesRows person held (fun c => some (c.insertState person)) db := by
  rintro c _ - ⟨⟩
  exact rowChange_insertState

/-- Every effective write, from its change of the person's rows on. -/
lemma keeps_write_finish {person : Person} {ρ : Type} {reply : ModerationDb → ρ}
    {w : ModerationDb → Option ModerationDb} {k : ρ → ModerationTx ModerationResult}
    {db₁ view : ModerationDb} (ids : List Text)
    (hview : some (db₁.insertState person) = some view)
    (hids : ∀ id ∈ ids, view.issued.get? id = some person)
    (hdb : ModerationEvolves held db₁ db)
    (hw : ∀ c c', (∀ id ∈ ids, c.issued.get? id = some person) → w c = some c' →
      RowChange person c c')
    (hk : ∀ x seen db₂, ModerationEvolves held db₁ db₂ →
      ChangesRows person held (fun c => (some (c.insertState person)).bind w) db₂ →
      ModerationKeeps (k x) held (fun c => (some (c.insertState person)).bind w) seen db₂) :
    ModerationKeeps (write (fun _ => []) reply w >>= k) held
      (fun c => some (c.insertState person)) seen db := by
  rw [ModerationKeeps, keeps_write]
  rintro - _ - db₂ h₂
  rw [List.append_nil] at h₂ ⊢
  refine hk _ _ db₂ (hdb.trans h₂) (changesRows_insertState.bind fun c c' c'' hc hrow hwc => ?_)
  refine hw c' c'' (fun id hid => hrow.issued id person ?_) hwc
  have hissued := hids id hid
  cases hview
  rw [insertState_same.2.2.1] at hissued
  exact ModerationEvolves.issued ((hdb.trans h₂).trans hc) hissued

lemma keeps_postBan (r : BanRequest) :
    ModerationKeeps (ModerationWrites.postBan r) [] some [] db := by
  rw [ModerationWrites.postBan]
  split_ifs
  · trivial
  refine keeps_lockModerationVersion fun held seen db₁ hlock _ hmatch => ?_
  rw [ModerationKeeps, keeps_query]
  intro _ view hview db₂ h₂
  have hversion : ∀ {c : ModerationDb}, ModerationEvolves held db₁ c →
      ∀ v, r.ifMatch = some v → c.version r.person = v := fun hc v hv =>
    (ModerationEvolves.locked hc hlock).1.trans (hmatch v hv)
  cases hexisting : view.findBan r.person with
  | some existing =>
    refine keeps_write_finish [existing.id] hview ?_ h₂ ?_ ?_
    · simpa using findBan_spec hexisting
    · exact fun c c' hissued hw => rowChange_updateBan (hissued existing.id (by simp)) _ hw
    · exact fun _ _ db₃ h₃ hchange => keeps_finish hlock hchange (hversion h₃)
  | none =>
    refine keeps_write_finish [] hview (by simp) h₂ ?_ ?_
    · exact fun c c' _ hw => rowChange_insertBan rfl hw
    · exact fun _ _ db₃ h₃ hchange => keeps_finish hlock hchange (hversion h₃)

lemma keeps_postSanction (r : SanctionRequest) :
    ModerationKeeps (ModerationWrites.postSanction r) [] some [] db := by
  rw [ModerationWrites.postSanction]
  split_ifs
  · trivial
  refine keeps_lockModerationVersion fun held seen db₁ hlock _ hmatch => ?_
  rw [ModerationKeeps, keeps_query]
  intro _ view hview db₂ h₂
  have hversion : ∀ {c : ModerationDb}, ModerationEvolves held db₁ c →
      ∀ v, r.ifMatch = some v → c.version r.person = v := fun hc v hv =>
    (ModerationEvolves.locked hc hlock).1.trans (hmatch v hv)
  dsimp only
  generalize (view.findSanction r.person r.type).any _ = wasActive
  generalize (view.findSanction r.person r.type).any _ = same
  split
  · -- a request that would store what is stored
    rintro - - _ ⟨⟩
    have hlocked := (ModerationEvolves.locked h₂ hlock).1
    refine ⟨trivial, hlock, hversion h₂, fun k _ => ⟨version_insertState k, rowsOf_insertState k⟩,
      fun id k hid => ?_, fun _ => ?_, fun _ hnone => by cases hnone⟩
    · rwa [insertState_same.2.2.1]
    · obtain ⟨-, -, -, hlog, hhistory⟩ := @insertState_same db₂ r.person
      exact ⟨version_insertState _, rowsOf_insertState _, hlog, hhistory, hlocked.symm⟩
  cases hexisting : view.findSanction r.person r.type with
  | some existing =>
    refine keeps_write_finish [existing.id] hview ?_ h₂ ?_ ?_
    · simpa using findSanction_spec hexisting
    · exact fun c c' hissued hw => rowChange_updateSanction (hissued existing.id (by simp)) _ hw
    · exact fun _ _ db₃ h₃ hchange => keeps_finish hlock hchange (hversion h₃)
  | none =>
    refine keeps_write_finish [] hview (by simp) h₂ ?_ ?_
    · exact fun c c' _ hw => rowChange_insertSanction rfl hw
    · exact fun _ _ db₃ h₃ hchange => keeps_finish hlock hchange (hversion h₃)

lemma keeps_assertVersion {expected : Option ℕ} {current : ℕ}
    {k : Unit → ModerationTx ModerationResult}
    (hk : (∀ v, expected = some v → current = v) → ModerationKeeps (k ()) held change seen db) :
    ModerationKeeps (ModerationWrites.assertVersion expected current >>= k) held change seen
      db := by
  cases expected with
  | none => exact hk fun v hv => by cases hv
  | some v =>
    rw [ModerationWrites.assertVersion]
    split_ifs with heq
    · exact hk fun v' hv' => by cases hv'; exact heq.symm
    · trivial

/-- A lift: the rows with the id found before, then the precondition. -/
lemma keeps_lift {person : Person} {expected : Option ℕ} {userId : Text}
    {type : ModerationEventType} {entry : ModerationHistory} {error : ModerationError} {id : Text}
    {count : ModerationDb → ℕ} {w : ModerationDb → ModerationDb}
    {result : ℕ → ModerationResult} (hresult : ∀ n, (result n).person = person ∧
      (result n).ifMatch = expected) (hid : db.issued.get? id = some person)
    (hw : ∀ c, c.issued.get? id = some person → RowChange person c (w c)) :
    ModerationKeeps (do
      let current ← ModerationWrites.lockModerationVersion person none
      let deleted ← write (fun _ => []) count fun db => some (w db)
      if deleted = 0 then throw error
      else do
      ModerationWrites.assertVersion expected current
      ModerationWrites.finish (result current) userId type entry) [] some seen db := by
  refine keeps_lockModerationVersion fun held seen db₁ hlock h₁ _ => ?_
  have hissued := ModerationEvolves.issued h₁ hid
  have hview : (db₁.insertState person).issued.get? id = some person := by
    rwa [insertState_same.2.2.1]
  refine keeps_write_finish [id] rfl (by simpa using hview) .refl ?_ ?_
  · rintro c _ hc ⟨⟩
    exact hw c (hc id (by simp))
  · intro deleted seen db₂ h₂ hchange
    split_ifs
    · trivial
    refine keeps_assertVersion fun hmatch => ?_
    obtain ⟨hperson, hifMatch⟩ := hresult (db₁.version person)
    refine keeps_finish (by rw [hperson]; exact hlock) (by rw [hperson]; exact hchange) fun v hv => ?_
    rw [hperson, (ModerationEvolves.locked h₂ hlock).1]
    exact hmatch v (hifMatch ▸ hv)

lemma keeps_deleteBan (r : UnbanRequest) :
    ModerationKeeps (ModerationWrites.deleteBan r) [] some [] db := by
  rw [ModerationWrites.deleteBan, ModerationKeeps, keeps_query]
  rintro - _ ⟨⟩ db₁ h₁
  cases hexisting : db.findBan r.person with
  | none => trivial
  | some existing =>
    have hid := ModerationEvolves.issued h₁ (findBan_spec hexisting)
    exact keeps_lift (fun _ => ⟨rfl, rfl⟩) hid fun _ => rowChange_deleteBan

lemma keeps_deleteSanction (r : UnsanctionRequest) :
    ModerationKeeps (ModerationWrites.deleteSanction r) [] some [] db := by
  rw [ModerationWrites.deleteSanction, ModerationKeeps, keeps_query]
  rintro - _ ⟨⟩ db₁ h₁
  split
  · trivial
  · rename_i existing hexisting
    have hfound := (Option.filter_eq_some_iff.mp hexisting).1
    have hid := ModerationEvolves.issued h₁ (findSanction_spec hfound)
    exact keeps_lift (fun _ => ⟨rfl, rfl⟩) hid fun _ => rowChange_deleteActiveSanction

end Programs

/-! ### Every run -/

lemma ModerationLock.conflicts_comm (k l : ModerationLock) : k.conflicts l = l.conflicts k :=
  decide_eq_decide.mpr eq_comm

lemma keeps_moderation (r : ModerationRequest) (db : ModerationDb) :
    ModerationKeeps r.program [] some [] db := by
  cases r with
  | postBan r => exact keeps_postBan r
  | deleteBan r => exact keeps_deleteBan r
  | postSanction r => exact keeps_postSanction r
  | deleteSanction r => exact keeps_deleteSanction r

/-- The effective writes of a person among those committed. -/
def effectiveWrites (person : Person) (log : List ModerationResult) : List ModerationResult :=
  log.filter fun a => a.person = person && a.event.isSome

/-- The versions of a person's events in a game's log, in the order of the log. -/
def loggedVersions (person : Person) (log : EventLog ModerationEvent) : List ℕ :=
  ((log.read person.gameId).filter fun e => e.person = person).map ModerationEvent.moderationVersion

/-- Commits between two points of a run. -/
lemma ModerationServer.commits_between {start : ModerationDb}
    {before after : List (TxEvent ModerationRequest)} {db₁ db₂ : ModerationServer}
    (hbefore : ModerationServer.run start before = some db₁)
    (hrun : ModerationServer.run start (before ++ after) = some db₂) :
    Commits moderationDiscipline (db₁.committed, db₁.log) (db₂.committed, db₂.log) := by
  have hadmitted : ∀ (db : ModerationServer) (e : TxEvent ModerationRequest),
      db.Admitted moderationDiscipline e :=
    Database.admitted fun _ _ _ => trivial
  have hgood := (Database.run_commits ModerationLock.conflicts_comm keeps_moderation
    (Database.good_start trivial) hbefore fun _ e _ db _ _ => hadmitted db e).1
  rw [ModerationServer.run, runSteps_append] at hrun
  rw [ModerationServer.run] at hbefore
  rw [hbefore, Option.bind_some] at hrun
  exact (Database.run_commits ModerationLock.conflicts_comm keeps_moderation hgood hrun
    fun _ e _ db _ _ => hadmitted db e).2

/-- A committed write is effective for its own person at most, and each effective one is a step. -/
lemma ModerationDb.Written.effectiveWrites {result : ModerationResult} {held : List ModerationLock}
    {db db' : ModerationDb} (h : db.Written result held db') (person : Person) :
    (effectiveWrites person [result] = [] ∧ db'.version person = db.version person ∧
      db'.rowsOf person = db.rowsOf person ∧
      loggedVersions person db'.eventLog = loggedVersions person db.eventLog) ∨
    (effectiveWrites person [result] = [result] ∧
      db'.version person = db.version person + 1 ∧
      loggedVersions person db'.eventLog =
        loggedVersions person db.eventLog ++ [db.version person + 1]) := by
  cases hevent : result.event with
  | none =>
    refine .inl ⟨by simp [Junjo.effectiveWrites, hevent], ?_⟩
    obtain ⟨hversion, hrows, hlog, -, -⟩ := h.refused hevent
    by_cases hperson : person = result.person
    · subst hperson
      exact ⟨hversion, hrows, by rw [hlog]⟩
    · obtain ⟨hversion, hrows⟩ := h.others person hperson
      exact ⟨hversion, hrows, by rw [hlog]⟩
  | some event =>
    obtain ⟨hversion, hlog, -, heventPerson, heventVersion, -⟩ := h.effective event hevent
    by_cases hperson : person = result.person
    · subst hperson
      refine .inr ⟨by simp [Junjo.effectiveWrites, hevent], hversion, ?_⟩
      rw [loggedVersions, hlog, EventLog.read_write, if_pos rfl, List.filter_append,
        List.map_append, ← loggedVersions]
      simp [heventPerson, heventVersion]
    · have hother : ¬ result.person = person := fun heq => hperson heq.symm
      obtain ⟨hversion, hrows⟩ := h.others person hperson
      refine .inl ⟨by simp [Junjo.effectiveWrites, hother], hversion, hrows, ?_⟩
      rw [loggedVersions, hlog, EventLog.read_write, List.filter_append, List.map_append,
        ← loggedVersions]
      split_ifs
      · simp [heventPerson, hother]
      · simp

lemma effectiveWrites_append (person : Person) (log log' : List ModerationResult) :
    effectiveWrites person (log ++ log') = effectiveWrites person log ++ effectiveWrites person log' :=
  List.filter_append _ _

/-- The version and the logged versions after some commits. -/
lemma versions_of_commits {p q : ModerationDb × List ModerationResult}
    (h : Commits moderationDiscipline p q) (person : Person) : ∃ new, q.2 = p.2 ++ new ∧
    q.1.version person = p.1.version person + (effectiveWrites person new).length ∧
    loggedVersions person q.1.eventLog = loggedVersions person p.1.eventLog ++
      List.range' (p.1.version person + 1) (effectiveWrites person new).length := by
  refine h.preserves (J := fun c log => ∃ new, log = p.2 ++ new ∧
    c.version person = p.1.version person + (effectiveWrites person new).length ∧
    loggedVersions person c.eventLog = loggedVersions person p.1.eventLog ++
      List.range' (p.1.version person + 1) (effectiveWrites person new).length) ?_ ?_
  · rintro c c' log result held - - ⟨new, rfl, hversion, hlogged⟩ heffect
    refine ⟨new ++ [result], List.append_assoc _ _ _, ?_⟩
    rw [effectiveWrites_append]
    rcases heffect.effectiveWrites person with ⟨hnone, hversion', -, hlogged'⟩ |
      ⟨hone, hversion', hlogged'⟩
    · rw [hnone, List.append_nil, hversion', hlogged']
      exact ⟨hversion, hlogged⟩
    · rw [hone, List.length_append, List.length_singleton, hversion', hlogged', hversion, hlogged,
        List.range'_1_concat, List.append_assoc]
      exact ⟨by omega, by rw [Nat.add_right_comm]⟩
  · exact ⟨[], by simp [effectiveWrites]⟩

/-- Equal versions show equal rows. -/
lemma rows_of_commits {p q : ModerationDb × List ModerationResult}
    (h : Commits moderationDiscipline p q) (person : Person) :
    p.1.version person ≤ q.1.version person ∧
      (q.1.version person = p.1.version person → q.1.rowsOf person = p.1.rowsOf person) := by
  refine h.preserves (J := fun c _ => p.1.version person ≤ c.version person ∧
    (c.version person = p.1.version person → c.rowsOf person = p.1.rowsOf person)) ?_
    ⟨le_rfl, fun _ => rfl⟩
  rintro c c' _ result held - - ⟨hle, hrows⟩ heffect
  rcases heffect.effectiveWrites person with ⟨-, hversion', hrows', -⟩ | ⟨-, hversion', -⟩
  · rw [hversion', hrows']
    exact ⟨hle, hrows⟩
  · exact ⟨by omega, fun heq => by omega⟩

/-- A committed write with `If-Match` found the version that it names. -/
lemma ifMatch_of_commits {p q : ModerationDb × List ModerationResult}
    (h : Commits moderationDiscipline p q) (hp : p.2 = []) :
    ∀ before result after, q.2 = before ++ result :: after → ∀ v, result.ifMatch = some v →
      p.1.version result.person + (effectiveWrites result.person before).length = v := by
  induction h with
  | refl =>
    intro before result after hlog
    rw [hp] at hlog
    simp at hlog
  | @tail c q hcommits hlast ih =>
    obtain ⟨-, -, written, held, heffect, hlog⟩ := hlast
    intro before result after hsplit v hv
    rw [hlog] at hsplit
    rcases List.eq_nil_or_concat after with rfl | ⟨after, last, rfl⟩
    · obtain ⟨rfl, hwritten⟩ := List.append_inj' hsplit rfl
      obtain rfl : written = result := by simpa using hwritten
      obtain ⟨new, hnew, hversion, -⟩ := versions_of_commits hcommits written.person
      rw [hp, List.nil_append] at hnew
      rw [hnew, ← hversion]
      exact heffect.ifMatch v hv
    · rw [List.concat_eq_append, ← List.cons_append, ← List.append_assoc] at hsplit
      exact ih before result after (List.append_inj' hsplit rfl).1 v hv

/-- In every run of moderation writes, with any interleaving of their statements: a person's version
counts the effective writes among those committed; the person's events have entered the game's log
in the order of consecutive versions; a write with `If-Match` was committed on the version that it
names, that is after as many effective writes; and the person's ban and sanctions are the same
wherever the version is. -/
theorem moderation_lockstep {start : ModerationDb} {events : List (TxEvent ModerationRequest)}
    {db : ModerationServer} (hrun : ModerationServer.run start events = some db)
    (person : Person) :
    db.committed.version person =
      start.version person + (effectiveWrites person db.log).length ∧
    loggedVersions person db.committed.eventLog = loggedVersions person start.eventLog ++
      List.range' (start.version person + 1) (effectiveWrites person db.log).length ∧
    (∀ before result after, db.log = before ++ result :: after → result.person = person →
      ∀ v, result.ifMatch = some v →
        start.version person + (effectiveWrites person before).length = v) ∧
    ∀ before after db₁, events = before ++ after → ModerationServer.run start before = some db₁ →
      db.committed.version person = db₁.committed.version person →
      db.committed.rowsOf person = db₁.committed.rowsOf person := by
  have hempty : ModerationServer.run start [] = some { committed := start } := rfl
  have hcommits : Commits moderationDiscipline (start, []) (db.committed, db.log) :=
    ModerationServer.commits_between hempty hrun
  obtain ⟨new, hnew, hversion, hlogged⟩ := versions_of_commits hcommits person
  obtain rfl : db.log = new := hnew
  refine ⟨hversion, hlogged, ?_, ?_⟩
  · rintro before result after hlog rfl v hv
    exact ifMatch_of_commits hcommits rfl before result after hlog v hv
  · rintro before after db₁ rfl hbefore heq
    exact (rows_of_commits (ModerationServer.commits_between hbefore hrun) person).2 heq

private def player : Person := ⟨text "game", text "player"⟩

/-- A first ban and a sanction that names the version it leaves, started while the ban is under
way. -/
private def banAndSanction : List (TxEvent ModerationRequest) :=
  [.start 0 (.postBan ⟨player, text "p", none, none, none, none, none, none, 0, text "ban"⟩),
    .advance 0, .advance 0,
    .start 1 (.postSanction ⟨player, text "p", text "mute", none, none, none, none, none, some 1, 0,
      text "sanction"⟩)] ++
    List.replicate 6 (.advance 0) ++ List.replicate 8 (.advance 1)

theorem moderation_lockstep_banAndSanction :
    ∃ db, ModerationServer.run ModerationDb.empty banAndSanction = some db ∧
      db.committed.version player = 2 ∧
      loggedVersions player db.committed.eventLog = [1, 2] := by
  have hresult : (ModerationServer.run ModerationDb.empty banAndSanction).map (fun db =>
      (effectiveWrites player db.log).length) = some 2 := by
    decide
  obtain ⟨db, hrun, hcount⟩ := Option.map_eq_some_iff.mp hresult
  obtain ⟨hversion, hlogged, -⟩ := moderation_lockstep hrun player
  rw [hcount] at hversion hlogged
  exact ⟨db, hrun, hversion, hlogged⟩

end Junjo
