import Junjo.Moderation.Reads
import Junjo.Moderation.WritesCorrect

/-!
# When a read's version is as old as its rows

A read shows rows of one moment with a version of another. The rows reflect every write up to the
version exactly when no effective write of the person commits after the rows were read and before
the version was.
-/

namespace Junjo

namespace ReadRequest

/-- Every version that a successful read reports for a person was reached in each store that it
shows rows of: the rows reflect every write of the person up to that version. -/
def Current (r : ReadRequest) (views : Views) : Prop :=
  ∀ response, r.run views = .ok response → ∀ statement person version,
    (statement, person, version) ∈ r.reports response → ∀ shown ∈ r.shows,
      version ≤ (views shown).version person

/-- No effective write of a person for whom a version is reported commits after the rows and before
the version. `place` says where in the run a statement stands, `at` what was reached there. -/
def Undisturbed (r : ReadRequest) (place : ReadStatement → ℕ)
    (reached : ReadStatement → ModerationServer) : Prop :=
  ∀ response, r.run (fun s => (reached s).committed) = .ok response →
    ∀ statement person version, (statement, person, version) ∈ r.reports response →
      ∀ shown ∈ r.shows, place shown < place statement →
        effectiveWrites person ((reached statement).log.drop (reached shown).log.length) = []

/-- A reported version is the person's version in the store that its statement saw. -/
lemma version_of_mem_reports {r : ReadRequest} {views : Views} {response : ReadResponse}
    (hrun : r.run views = .ok response) {statement : ReadStatement} {person : Person} {version : ℕ}
    (h : (statement, person, version) ∈ r.reports response) :
    version = (views statement).version person := by
  have hattached : ∀ {α : Type} {owner : α → Person} {rows : List α} {x : α × ℕ},
      x ∈ attachVersions owner (views .versions) rows →
        x.2 = (views .versions).version (owner x.1) := by
    intro α owner rows x hx
    obtain ⟨a, -, rfl⟩ := List.mem_map.mp hx
    rfl
  cases r with
  | listBans q =>
    simp only [run, runListBans] at hrun
    split at hrun
    · cases hrun
    · cases hrun
      obtain ⟨x, hx, heq⟩ := List.mem_map.mp h
      cases heq
      exact hattached hx
  | getBan k now =>
    simp only [run, runGetBan] at hrun
    split at hrun
    · cases hrun
    · split_ifs at hrun
      cases hrun
      simp only [reports, Option.toList_some, List.map_cons, List.map_nil, List.mem_singleton] at h
      cases h
      rfl
  | listSanctions q =>
    simp only [run, runListSanctions] at hrun
    split at hrun
    · cases hrun
    · cases hrun
      obtain ⟨x, hx, heq⟩ := List.mem_map.mp h
      cases heq
      exact hattached hx
  | listUserSanctions k now =>
    cases hrun
    rcases List.mem_append.mp h with h | h
    · obtain ⟨v, hv, heq⟩ := List.mem_map.mp h
      cases heq
      exact (List.mem_singleton.mp hv)
    · obtain ⟨x, hx, heq⟩ := List.mem_map.mp h
      cases heq
      exact hattached hx
  | getUserModeration k now banNow =>
    cases hrun
    rcases List.mem_append.mp h with h | h
    · rcases List.mem_append.mp h with h | h
      · obtain ⟨v, hv, heq⟩ := List.mem_map.mp h
        cases heq
        exact (List.mem_singleton.mp hv)
      · obtain ⟨x, hx, heq⟩ := List.mem_map.mp h
        cases heq
        obtain ⟨b, hb, rfl⟩ := List.mem_map.mp hx
        have hfound := (Option.filter_eq_some_iff.mp (Option.mem_toList.mp hb)).1
        have hperson : b.person = k := by simpa using List.find?_some hfound
        show _ = (views .version).version b.person
        rw [hperson]
    · obtain ⟨x, hx, heq⟩ := List.mem_map.mp h
      cases heq
      exact hattached hx

end ReadRequest

/-- In a run of moderation writes, a read whose statements stand at some places of the run reports
no version newer than the rows it shows exactly when no effective write of the person commits after
the rows and before the version. -/
theorem moderationRead_current_iff {start : ModerationDb}
    {events : List (TxEvent ModerationRequest)} {place : ReadStatement → ℕ}
    {reached : ReadStatement → ModerationServer}
    (hreached : ∀ s, ModerationServer.run start (events.take (place s)) = some (reached s))
    (r : ReadRequest) :
    r.Current (fun s => (reached s).committed) ↔ r.Undisturbed place reached := by
  have hbetween : ∀ s s', place s ≤ place s' → Commits moderationDiscipline
      ((reached s).committed, (reached s).log) ((reached s').committed, (reached s').log) := by
    intro s s' hle
    have hsplit : events.take (place s') =
        events.take (place s) ++ (events.take (place s')).drop (place s) := by
      conv_lhs => rw [← List.take_append_drop (place s) (events.take (place s'))]
      rw [List.take_take, Nat.min_eq_left hle]
    have hlast := hreached s'
    rw [hsplit] at hlast
    exact ModerationServer.commits_between (hreached s) hlast
  refine forall₂_congr fun response hrun => forall₃_congr fun statement person version => ?_
  refine forall_congr' fun hreports => forall₂_congr fun shown _ => ?_
  obtain rfl := ReadRequest.version_of_mem_reports hrun hreports
  rcases Nat.lt_or_ge (place shown) (place statement) with hlt | hge
  · obtain ⟨new, hlog, hversion, -⟩ := versions_of_commits (hbetween shown statement hlt.le) person
    dsimp only at hlog hversion
    have hnew : (reached statement).log.drop (reached shown).log.length = new := by
      rw [hlog, List.drop_left]
    rw [hnew]
    constructor
    · intro hle _
      have hzero : (effectiveWrites person new).length = 0 := by
        dsimp only at hle
        omega
      exact List.eq_nil_of_length_eq_zero hzero
    · intro hnone
      rw [hnone hlt, List.length_nil, Nat.add_zero] at hversion
      exact hversion.le
  · have hle := (rows_of_commits (hbetween statement shown hge) person).1
    exact iff_of_true hle fun hlt => absurd hlt (Nat.not_lt.mpr hge)

/-! ### A ban that is edited while it is read -/

private def bannedPlayer : Person := ⟨text "game", text "player"⟩

/-- A ban for a day and, after it has committed, the same person's ban for good. -/
private def editedBan : List (TxEvent ModerationRequest) :=
  [.start 0 (.postBan ⟨bannedPlayer, text "p", none, some 86400000, none, none, none, none, 0,
      text "ban"⟩)] ++ List.replicate 8 (.advance 0) ++
    [.start 1 (.postBan ⟨bannedPlayer, text "p", none, none, none, none, none, none, 0, text "other"⟩)] ++
    List.replicate 8 (.advance 1)

/-- The ban is read before the edit commits, the version after it. -/
private def acrossEdit : ReadStatement → ℕ
  | .version => 18
  | _ => 9

private def reachedAt (before after : ModerationServer) : ReadStatement → ModerationServer
  | .version => after
  | _ => before

/-- Both before the edit. -/
private def beforeEdit : ReadStatement → ℕ := fun _ => 9

private lemma reached_editedBan : ∃ before after,
    ModerationServer.run ModerationDb.empty (editedBan.take 9) = some before ∧
    ModerationServer.run ModerationDb.empty (editedBan.take 18) = some after ∧
    before.committed.version bannedPlayer = 1 ∧ after.committed.version bannedPlayer = 2 ∧
    (before.committed.findBan bannedPlayer).any (fun b => b.expiresAt = some 86400000) = true := by
  have hresult : (ModerationServer.run ModerationDb.empty (editedBan.take 9)).bind (fun before =>
      (ModerationServer.run ModerationDb.empty (editedBan.take 18)).map fun after =>
        (before.committed.version bannedPlayer, after.committed.version bannedPlayer,
          (before.committed.findBan bannedPlayer).any fun b => b.expiresAt = some 86400000)) =
      some (1, 2, true) := by
    decide
  obtain ⟨before, hbefore, hmap⟩ := Option.bind_eq_some_iff.mp hresult
  obtain ⟨after, hafter, heq⟩ := Option.map_eq_some_iff.mp hmap
  simp only [Prod.mk.injEq] at heq
  exact ⟨before, after, hbefore, hafter, heq⟩

theorem moderationRead_current_before_edit : ∃ before : ModerationServer,
    ModerationServer.run ModerationDb.empty (editedBan.take 9) = some before ∧
      (ReadRequest.getBan bannedPlayer 0).Current fun _ => before.committed := by
  obtain ⟨before, -, hbefore, -⟩ := reached_editedBan
  refine ⟨before, hbefore, ?_⟩
  have hreached : ∀ s : ReadStatement, ModerationServer.run ModerationDb.empty
      (editedBan.take (beforeEdit s)) = some before := fun _ => hbefore
  refine (moderationRead_current_iff hreached (.getBan bannedPlayer 0)).mpr ?_
  exact fun _ _ _ _ _ _ _ _ hlt => absurd hlt (Nat.lt_irrefl _)

/-- The version of the edit is reported with the ban as it was before. -/
theorem moderationRead_not_current : ¬ ∀ (start : ModerationDb)
    (events : List (TxEvent ModerationRequest)) (place : ReadStatement → ℕ)
    (reached : ReadStatement → ModerationServer) (r : ReadRequest),
    (∀ s, ModerationServer.run start (events.take (place s)) = some (reached s)) →
    r.InOrder place → r.Current fun s => (reached s).committed := by
  intro h
  obtain ⟨before, after, hbefore, hafter, hone, htwo, hban⟩ := reached_editedBan
  have hreached : ∀ s, ModerationServer.run ModerationDb.empty (editedBan.take (acrossEdit s)) =
      some (reachedAt before after s) := by
    intro s
    cases s with
    | version => exact hafter
    | cursor => exact hbefore
    | ban => exact hbefore
    | rows => exact hbefore
    | versions => exact hbefore
  have hcurrent := h ModerationDb.empty editedBan acrossEdit (reachedAt before after)
    (.getBan bannedPlayer 0) hreached (by decide : 9 ≤ 18)
  obtain ⟨ban, hfind, hexpires⟩ := (Option.any_eq_true _ _).mp hban
  have hactive : isActiveUntil ban.expiresAt 0 = true := by
    rw [of_decide_eq_true hexpires]
    decide
  have hrun : (ReadRequest.getBan bannedPlayer 0).run
      (fun s => (reachedAt before after s).committed) =
      .ok { bans := [(ban, 2)], etag := some 2 } := by
    simp only [ReadRequest.run, ReadRequest.runGetBan, reachedAt, hfind, htwo, hactive, if_true]
  have hle := hcurrent _ hrun .version bannedPlayer 2 (by simp [ReadRequest.reports]) .ban
    (by simp [ReadRequest.shows])
  have hone' : (reachedAt before after .ban).committed.version bannedPlayer = 1 := hone
  rw [hone'] at hle
  exact absurd hle (by decide)

end Junjo
