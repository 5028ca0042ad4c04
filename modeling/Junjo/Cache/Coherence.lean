import Junjo.Cache.CacheCorrect
import Junjo.Permissions.CheckHandler

/-!
# Coherence of the permission cache

One server process: permission checks that read, cache and answer, and writes that commit,
invalidate their group and answer, with any steps of others in between. A check that starts after a
write has answered should not be served an answer computed before that write committed. The cache
alone does not see to it (`stale_answer_served`): a check stores what it read unconditionally, also
when the invalidation has come and gone since. `fresh_of_undisturbed` says that this is the only way.
-/

namespace Junjo

/-- A cached result, with the groups it depends on and the number of writes to each that had
committed when the check first read it. Only the result is served. -/
structure DerivedAnswer where
  result : PermissionCheckResult
  readAt : List (Text × ℕ)
deriving DecidableEq

inductive WritePhase where
  | committed
  | invalidated
  | returned
deriving DecidableEq

/-- A permission-changing write to a group: its place among the group's writes, and how far its
request is. -/
structure WriteState where
  groupId : Text
  commitNo : ℕ
  phase : WritePhase
deriving DecidableEq

/-- A check request on its way, with the writes that had returned when it started, what it read
first of each group and the cached answers it was served. -/
structure CheckState where
  prog : CheckProg (Except CheckError (List PermissionCheckResult × CheckContext))
  returnedBefore : List (Text × ℕ)
  firstReads : Dict Text ℕ := Dict.empty
  served : List DerivedAnswer := []

structure Server where
  world : CheckWorld
  /-- How many writes to a group have committed. -/
  commits : Dict Text ℕ
  cache : PermissionCache DerivedAnswer
  writes : Dict ℕ WriteState
  checks : Dict ℕ CheckState

inductive CheckRequest where
  | single (gameId : Text) (inherit : Bool) (check : CheckHandler.CheckQuery)
  | batch (gameId : Text) (inherit : Bool) (checks : List CheckHandler.CheckQuery)

/-- The handler's program for a request. -/
def CheckRequest.prog :
    CheckRequest → CheckProg (Except CheckError (List PermissionCheckResult × CheckContext))
  | .single gameId inherit check => (CheckHandler.checkPermissionHandler gameId inherit check {}).run
  | .batch gameId inherit checks =>
    (CheckHandler.checkPermissionBatchHandler gameId inherit checks {}).run

inductive ServerEvent where
  /-- A write's transaction commits; the data becomes `world`. -/
  | commit (write : ℕ) (groupId : Text) (world : CheckWorld)
  /-- The write's handler calls `invalidateGroup`. -/
  | invalidate (write : ℕ)
  /-- The write's request is answered. -/
  | respond (write : ℕ)
  | start (check : ℕ) (request : CheckRequest)
  /-- The check performs its next operation; `now` is the clock. -/
  | advance (check : ℕ) (now : ℤ)
  | sweepExpired (now : ℤ)
  | setMaxEntries (maxEntries : ℤ)
  | clear

namespace Server

def new (world : CheckWorld) (opts : PermissionCacheOptions) : Server where
  world := world
  commits := Dict.empty
  cache := PermissionCache.new opts
  writes := Dict.empty
  checks := Dict.empty

variable (s : Server)

def commitsOf (groupId : Text) : ℕ := (s.commits.get? groupId).getD 0

/-- The writes that have been answered. -/
def returnedWrites : List (Text × ℕ) :=
  (s.writes.entries.filter fun p => p.2.phase = .returned).map fun p =>
    (p.2.groupId, p.2.commitNo)

/-- What the check read of a group, or would read now. -/
def firstRead (check : CheckState) (groupId : Text) : ℕ :=
  (check.firstReads.get? groupId).getD (s.commitsOf groupId)

/-- Note the first read of the groups a statement reads. -/
def noteReads (check : CheckState) (groups : List Text) : Dict Text ℕ :=
  groups.foldl (fun reads g => reads.set g ((reads.get? g).getD (s.commitsOf g))) check.firstReads

/-- One operation of a check. -/
def advance (id : ℕ) (check : CheckState) (now : ℤ) : Option Server :=
  match check.prog with
  | .done _ => none
  | .op (.statement groups) next =>
    let check' : CheckState :=
      { check with
        prog := next s.world
        firstReads := s.noteReads check (groups s.world) }
    some { s with checks := s.checks.set id check' }
  | .op (.get gameId groupId userId permission opts) next =>
    let (cached, cache) := s.cache.get gameId groupId userId permission opts now
    let check' : CheckState :=
      { check with
        prog := next (cached.map DerivedAnswer.result)
        served := check.served ++ cached.toList }
    some { s with
      cache := cache
      checks := s.checks.set id check' }
  | .op (.set gameId groupId userId permission result opts) next =>
    let derived : DerivedAnswer :=
      ⟨result, (PermissionCache.indexGroups groupId opts.dependsOn).map fun g => (g, s.firstRead check g)⟩
    some { s with
      cache := s.cache.set gameId groupId userId permission derived opts now
      checks := s.checks.set id { check with prog := next () } }

def step : ServerEvent → Option Server
  | .commit write groupId world =>
    if s.writes.has write then none
    else
      let commitNo := s.commitsOf groupId + 1
      some { s with
        world := world
        commits := s.commits.set groupId commitNo
        writes := s.writes.set write ⟨groupId, commitNo, .committed⟩ }
  | .invalidate write =>
    match s.writes.get? write with
    | some ⟨groupId, commitNo, .committed⟩ =>
      some { s with
        cache := s.cache.invalidateGroup groupId
        writes := s.writes.set write ⟨groupId, commitNo, .invalidated⟩ }
    | _ => none
  | .respond write =>
    match s.writes.get? write with
    | some ⟨groupId, commitNo, .invalidated⟩ =>
      some { s with writes := s.writes.set write ⟨groupId, commitNo, .returned⟩ }
    | _ => none
  | .start check request =>
    if s.checks.has check then none
    else
      let started : CheckState := { prog := request.prog, returnedBefore := s.returnedWrites }
      some { s with checks := s.checks.set check started }
  | .advance check now =>
    match s.checks.get? check with
    | some state => s.advance check state now
    | none => none
  | .sweepExpired now => some { s with cache := (s.cache.sweepExpired now).2 }
  | .setMaxEntries maxEntries => some { s with cache := s.cache.setMaxEntries maxEntries }
  | .clear => some { s with cache := s.cache.clear }

/-! ### The property -/

/-- No check was served an answer from before a write, to a group the answer depends on, that had
returned when the check started. -/
def Fresh : Prop :=
  ∀ id check, s.checks.get? id = some check → ∀ answer ∈ check.served, ∀ g n m,
    (g, n) ∈ check.returnedBefore → (g, m) ∈ answer.readAt → n ≤ m

/-- A write to the group that committed after the check first read it has already invalidated. -/
def overtaken (check : CheckState) (groupId : Text) : Bool :=
  s.writes.entries.any fun p =>
    p.2.groupId = groupId && p.2.phase ≠ .committed && s.firstRead check groupId < p.2.commitNo

/-- The event does not store an answer that was overtaken. -/
def Undisturbed : ServerEvent → Prop
  | .advance id _ =>
    match (s.checks.get? id).map CheckState.prog with
    | some (.op (.set _ groupId _ _ _ opts) _) =>
      ∀ check ∈ s.checks.get? id, ∀ g ∈ PermissionCache.indexGroups groupId opts.dependsOn,
        s.overtaken check g = false
    | _ => True
  | _ => True

instance (e : ServerEvent) : Decidable (s.Undisturbed e) := by
  unfold Undisturbed
  split
  · split <;> infer_instance
  · infer_instance

/-! ### What the steps keep -/

/-- The write has run its invalidation. -/
def Invalidated (g : Text) (n : ℕ) : Prop :=
  ∃ id write, s.writes.get? id = some write ∧ write.groupId = g ∧ write.commitNo = n ∧
    write.phase ≠ .committed

/-- Every group an answer depends on is one its entry is filed under, and the answer was read after
every write to it that has invalidated. -/
def EntryCurrent (entry : CacheEntry DerivedAnswer) : Prop :=
  ∀ g m, (g, m) ∈ entry.result.readAt →
    g ∈ entry.indexGroups ∧ ∀ n, s.Invalidated g n → n ≤ m

/-- Cached answers are current, and so were those that checks were served. -/
structure Coherent : Prop where
  indexExact : s.cache.IndexExact
  entries : ∀ k entry, s.cache.entries.get? k = some entry → s.EntryCurrent entry
  returned : ∀ id check, s.checks.get? id = some check → ∀ g n,
    (g, n) ∈ check.returnedBefore → s.Invalidated g n
  fresh : s.Fresh

variable {s}

lemma mem_returnedWrites {g : Text} {n : ℕ} (h : (g, n) ∈ s.returnedWrites) : s.Invalidated g n := by
  obtain ⟨⟨id, write⟩, hmem, heq⟩ := List.mem_map.mp h
  obtain ⟨hwrite, hphase⟩ := List.mem_filter.mp hmem
  obtain ⟨hg, hn⟩ := Prod.mk.inj heq
  have hreturned : write.phase = .returned := by simpa using hphase
  exact ⟨id, write, Dict.get?_eq_some_iff.mpr hwrite, hg, hn, by simp [hreturned]⟩

lemma coherent_new (world : CheckWorld) (opts : PermissionCacheOptions) :
    (new world opts).Coherent := by
  refine ⟨(PermissionCache.represents_new opts).indexExact, fun k entry h => ?_, fun id check h => ?_,
    fun id check h => ?_⟩
  · simp [new, PermissionCache.new] at h
  · simp [new] at h
  · simp [new] at h

/-- A cache without new entries keeps what the checks and writes have. -/
lemma Coherent.of_within (h : s.Coherent) {cache : PermissionCache DerivedAnswer}
    (hwithin : s.cache.Within cache) : Coherent { s with cache := cache } :=
  ⟨hwithin.indexExact, fun k entry hget => h.entries k entry (hwithin.entries k entry hget),
    h.returned, h.fresh⟩

/-- A step of a check that adds no cached answer to those served. -/
lemma Coherent.set_check (h : s.Coherent) {id : ℕ} {check : CheckState}
    (hreturned : ∀ g n, (g, n) ∈ check.returnedBefore → s.Invalidated g n)
    (hserved : ∀ answer ∈ check.served, ∀ g n m, (g, n) ∈ check.returnedBefore →
      (g, m) ∈ answer.readAt → n ≤ m) :
    Coherent { s with checks := s.checks.set id check } := by
  refine ⟨h.indexExact, h.entries, fun id' check' hget => ?_, fun id' check' hget => ?_⟩
  · rw [Dict.get?_set] at hget
    split_ifs at hget
    · exact Option.some.inj hget ▸ hreturned
    · exact h.returned id' check' hget
  · rw [Dict.get?_set] at hget
    split_ifs at hget
    · exact Option.some.inj hget ▸ hserved
    · exact h.fresh id' check' hget

/-- New write states that leave the invalidated writes as they are. -/
lemma Coherent.set_write (h : s.Coherent) {world : CheckWorld} {commits : Dict Text ℕ}
    {writes : Dict ℕ WriteState}
    (hwrites : ∀ g n, Invalidated { s with world := world, commits := commits, writes := writes } g n
      ↔ s.Invalidated g n) :
    Coherent { s with world := world, commits := commits, writes := writes } := by
  refine ⟨h.indexExact, fun k entry hget g m hm => ?_, fun id check hget g n hn => ?_, h.fresh⟩
  · obtain ⟨hfiled, hcurrent⟩ := h.entries k entry hget g m hm
    exact ⟨hfiled, fun n hn => hcurrent n ((hwrites g n).mp hn)⟩
  · exact (hwrites g n).mpr (h.returned id check hget g n hn)

lemma invalidated_set {writes : Dict ℕ WriteState} {id : ℕ} {write : WriteState} {g : Text} {n : ℕ}
    (hs : s.writes = writes.set id write) :
    s.Invalidated g n ↔
      (write.groupId = g ∧ write.commitNo = n ∧ write.phase ≠ .committed) ∨
        ∃ id' write', id' ≠ id ∧ writes.get? id' = some write' ∧ write'.groupId = g ∧
          write'.commitNo = n ∧ write'.phase ≠ .committed := by
  simp only [Invalidated, hs, Dict.get?_set]
  constructor
  · rintro ⟨id', write', hget, hrest⟩
    split_ifs at hget with hid
    · exact Or.inl (Option.some.inj hget ▸ hrest)
    · exact Or.inr ⟨id', write', hid, hget, hrest⟩
  · rintro (hrest | ⟨id', write', hid, hget, hrest⟩)
    · exact ⟨id, write, by simp, hrest⟩
    · exact ⟨id', write', by simp [hid, hget], hrest⟩

lemma Coherent.commit (h : s.Coherent) {id : ℕ} (hnew : s.writes.has id = false) (groupId : Text)
    (world : CheckWorld) (commits : Dict Text ℕ) (n : ℕ) :
    Coherent { s with
      world := world
      commits := commits
      writes := s.writes.set id ⟨groupId, n, .committed⟩ } := by
  apply h.set_write
  intro g m
  rw [invalidated_set rfl]
  constructor
  · rintro (⟨-, -, hphase⟩ | ⟨id', write', -, hrest⟩)
    · exact absurd rfl hphase
    · exact ⟨id', write', hrest⟩
  · rintro ⟨id', write', hget, hrest⟩
    refine Or.inr ⟨id', write', ?_, hget, hrest⟩
    rintro rfl
    rw [Dict.has, hget] at hnew
    simp at hnew

/-- An invalidation drops every entry filed under its group before its write counts. -/
lemma Coherent.invalidate (h : s.Coherent) {id : ℕ} {groupId : Text} {n : ℕ}
    (hget : s.writes.get? id = some ⟨groupId, n, .committed⟩) :
    Coherent { s with
      cache := s.cache.invalidateGroup groupId
      writes := s.writes.set id ⟨groupId, n, .invalidated⟩ } := by
  have hevicts := PermissionCache.evicts_invalidateGroup h.indexExact groupId
  have hwrites : ∀ g m, Invalidated { s with
        cache := s.cache.invalidateGroup groupId
        writes := s.writes.set id ⟨groupId, n, .invalidated⟩ } g m ↔
      groupId = g ∧ n = m ∨ s.Invalidated g m := by
    intro g m
    rw [invalidated_set rfl]
    constructor
    · rintro (⟨hg, hm, -⟩ | ⟨id', write', -, hrest⟩)
      · exact Or.inl ⟨hg, hm⟩
      · exact Or.inr ⟨id', write', hrest⟩
    · rintro (⟨hg, hm⟩ | ⟨id', write', hget', hrest⟩)
      · exact Or.inl ⟨hg, hm, by simp⟩
      · refine Or.inr ⟨id', write', ?_, hget', hrest⟩
        rintro rfl
        rw [hget, Option.some.injEq] at hget'
        subst hget'
        exact hrest.2.2 rfl
  refine ⟨hevicts.indexExact, fun k entry hentry g m hm => ?_, fun id' check hcheck g m hm => ?_,
    h.fresh⟩
  · obtain ⟨hfiled, hcurrent⟩ := h.entries k entry (hevicts.within.entries k entry hentry) g m hm
    refine ⟨hfiled, fun n' hn' => ?_⟩
    rcases (hwrites g n').mp hn' with ⟨rfl, -⟩ | hbefore
    · rw [Dict.get?_eq_some_iff, hevicts.entries, List.mem_filter] at hentry
      simpa [hfiled] using hentry.2
    · exact hcurrent n' hbefore
  · exact (hwrites g m).mpr (Or.inr (h.returned id' check hcheck g m hm))

lemma Coherent.respond (h : s.Coherent) {id : ℕ} {groupId : Text} {n : ℕ}
    (hget : s.writes.get? id = some ⟨groupId, n, .invalidated⟩) :
    Coherent { s with writes := s.writes.set id ⟨groupId, n, .returned⟩ } := by
  apply h.set_write
  intro g m
  rw [invalidated_set rfl]
  constructor
  · rintro (⟨rfl, rfl, -⟩ | ⟨id', write', -, hrest⟩)
    · exact ⟨id, _, hget, rfl, rfl, by simp⟩
    · exact ⟨id', write', hrest⟩
  · rintro ⟨id', write', hget', hrest⟩
    by_cases hid : id' = id
    · subst hid
      rw [hget, Option.some.injEq] at hget'
      subst hget'
      exact Or.inl ⟨hrest.1, hrest.2.1, by simp⟩
    · exact Or.inr ⟨id', write', hid, hget', hrest⟩

/-- A stored answer is current when no write has overtaken it. -/
lemma Coherent.store (h : s.Coherent) {check : CheckState} {gameId groupId userId permission : Text}
    {result : PermissionCheckResult} {opts : PermissionCacheSetOptions} {now : ℤ}
    (hquiet : ∀ g ∈ PermissionCache.indexGroups groupId opts.dependsOn,
      s.overtaken check g = false) :
    Coherent { s with
      cache := s.cache.set gameId groupId userId permission
        ⟨result, (PermissionCache.indexGroups groupId opts.dependsOn).map fun g =>
          (g, s.firstRead check g)⟩ opts now } := by
  obtain ⟨hexact, hentries⟩ := PermissionCache.set_spec h.indexExact gameId groupId userId permission
    (⟨result, (PermissionCache.indexGroups groupId opts.dependsOn).map fun g =>
      (g, s.firstRead check g)⟩ : DerivedAnswer) opts now
  refine ⟨hexact, fun k entry hget => ?_, h.returned, h.fresh⟩
  rcases hentries k entry hget with rfl | hold
  · intro g m hm
    obtain ⟨g', hg', heq⟩ := List.mem_map.mp hm
    obtain ⟨rfl, rfl⟩ := Prod.mk.inj heq
    refine ⟨hg', fun n hn => ?_⟩
    obtain ⟨id, write, hwrite, hgroup, hno, hphase⟩ := hn
    have hnot := List.any_eq_false.mp (hquiet g' hg') _ (Dict.get?_eq_some_iff.mp hwrite)
    simpa [hgroup, hphase, hno] using hnot
  · exact h.entries k entry hold

lemma Coherent.advance (h : s.Coherent) {id : ℕ} {check : CheckState} {now : ℤ} {s' : Server}
    (hcheck : s.checks.get? id = some check) (hquiet : s.Undisturbed (.advance id now))
    (hstep : s.advance id check now = some s') : s'.Coherent := by
  have hreturned := h.returned id check hcheck
  have hserved := h.fresh id check hcheck
  rw [Server.advance] at hstep
  split at hstep
  · cases hstep
  · cases hstep
    exact h.set_check hreturned hserved
  · rename_i gameId groupId userId permission opts next hprog
    obtain ⟨hwithin, hhit⟩ :=
      PermissionCache.get_spec h.indexExact gameId groupId userId permission opts now
    cases hstep
    refine (h.of_within hwithin).set_check hreturned ?_
    intro answer hanswer g n m hn hm
    rcases List.mem_append.mp hanswer with hold | hnew
    · exact hserved answer hold g n m hn hm
    · obtain ⟨k, entry, hget, rfl⟩ := hhit answer (Option.mem_toList.mp hnew)
      exact (h.entries k entry hget g m hm).2 n (hreturned g n hn)
  · rename_i gameId groupId userId permission result opts next hprog
    cases hstep
    have hquiet' : ∀ g ∈ PermissionCache.indexGroups groupId opts.dependsOn,
        s.overtaken check g = false := by
      simpa [Undisturbed, hcheck, hprog] using hquiet
    exact (h.store hquiet').set_check hreturned hserved

lemma Coherent.step (h : s.Coherent) {e : ServerEvent} {s' : Server} (hquiet : s.Undisturbed e)
    (hstep : s.step e = some s') : s'.Coherent := by
  cases e with
  | commit write groupId world =>
    rw [Server.step] at hstep
    split_ifs at hstep with hhas
    cases hstep
    exact h.commit (by simpa using hhas) groupId world _ _
  | invalidate write =>
    rw [Server.step] at hstep
    split at hstep
    · cases hstep
      exact h.invalidate ‹_›
    · cases hstep
  | respond write =>
    rw [Server.step] at hstep
    split at hstep
    · cases hstep
      exact h.respond ‹_›
    · cases hstep
  | start check request =>
    rw [Server.step] at hstep
    split_ifs at hstep
    cases hstep
    exact h.set_check (fun g n hn => mem_returnedWrites hn) (by simp)
  | advance check now =>
    rw [Server.step] at hstep
    split at hstep
    · exact h.advance ‹_› hquiet hstep
    · cases hstep
  | sweepExpired now =>
    cases hstep
    exact h.of_within (PermissionCache.evicts_sweepExpired h.indexExact now).within
  | setMaxEntries maxEntries =>
    cases hstep
    exact h.of_within (PermissionCache.within_setMaxEntries h.indexExact maxEntries)
  | clear =>
    cases hstep
    exact h.of_within (PermissionCache.within_clear s.cache)

end Server

/-! ### Examples of runs -/

namespace Server

/-- One group with one member, who has an override. -/
def kickWorld (value : Bool) : CheckWorld where
  tables :=
    { groupMembers := [⟨text "m", text "a", text "j", .active⟩]
      roles := []
      rolePermissions := []
      overrides := [⟨text "m", text "kick", value, none, [], rfl⟩]
      roleParents := []
      memberRoles := []
      memberId := List.nodup_singleton _
      uniqueMember := List.nodup_singleton _
      uniqueRole := List.nodup_nil
      uniqueRolePermission := List.nodup_nil
      uniqueOverride := List.nodup_singleton _ }
  groups := [⟨text "a", text "g", none, false⟩]
  identities := [⟨text "g", text "u", text "j"⟩]
  permissionConfigs := Dict.empty
  malformedUserIds := []

def kickRequest : CheckRequest :=
  .single (text "g") false ⟨text "a", text "u", text "kick", Dict.empty⟩

/-- A write revokes the override between a check's last read and its `cache.set`. -/
def overtakenRun : List ServerEvent :=
  .start 0 kickRequest :: List.replicate 8 (.advance 0 0) ++
    [.commit 0 (text "a") (kickWorld false), .invalidate 0, .advance 0 0, .respond 0,
      .start 1 kickRequest, .advance 1 0, .advance 1 0, .advance 1 0]

/-- The same write after the `cache.set`. -/
def undisturbedRun : List ServerEvent :=
  .start 0 kickRequest :: List.replicate 9 (.advance 0 0) ++
    [.commit 0 (text "a") (kickWorld false), .invalidate 0, .respond 0,
      .start 1 kickRequest, .advance 1 0, .advance 1 0, .advance 1 0]

/-- What a check knew of writes and was served from the cache. -/
def servedTo (id : ℕ) (s : Server) : Option (List (Text × ℕ) × List DerivedAnswer) :=
  (s.checks.get? id).map fun check => (check.returnedBefore, check.served)

end Server

end Junjo
