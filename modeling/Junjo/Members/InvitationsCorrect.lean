import Junjo.Members.Runs

/-!
# Invitations are used once

An invitation is used by at most one accept or decline, and an accept makes someone a member in the
transaction that uses it. A revocation deletes a row that it found unused by the row's key alone,
so it deletes a used one when someone used it in between.
-/

namespace Junjo

namespace MemberResult

/-- Whether a write is an accept or a decline of an invitation. -/
def redeems (a : MemberResult) (code : Text) : Bool :=
  match a.request with
  | .accept r => r.code = code
  | .decline r => r.code = code
  | _ => false

/-- A revocation that deletes a row commits while the row is as it found it. -/
def RevokesAsFound (a : MemberResult) (db : MemberDb) : Prop :=
  ∀ r found, a.request = .revoke r → a.revoked = some found →
    db.invitations.get? r.code = some found

end MemberResult

/-! ### One commit -/

section Commits

variable {a : MemberResult} {held : List MemberLock} {db db' : MemberDb} {code : Text}

lemma MemberDb.Written.redeems (h : MemberDb.Written a held db db') :
    MemberDb.Redeems a held db db' := by
  obtain ⟨db₁, hchanged, rfl⟩ := h
  refine ⟨fun code => ?_, fun r hr => ?_, fun r hr => ?_, fun r found hr hfound => ?_⟩
  · rw [MemberDb.invitations_logged]
    exact hchanged.invitations code
  · obtain ⟨i, hi⟩ := hchanged.accepted r hr
    exact ⟨i, hi.congr (fun key => db₁.findMember_logged a key) (db₁.invitations_logged a)⟩
  · rw [MemberDb.invitations_logged]
    exact hchanged.declined r hr
  · rw [MemberDb.invitations_logged]
    exact hchanged.revoked r found hr hfound

/-- A redemption uses its invitation, which nobody used before. -/
lemma MemberDb.Redeems.used (h : MemberDb.Redeems a held db db') (hcode : a.redeems code = true) :
    ∃ i i', db.invitations.get? code = some i ∧ i.usedAt = none ∧
      db'.invitations.get? code = some i' ∧ i'.usedAt ≠ none := by
  rw [MemberResult.redeems] at hcode
  split at hcode
  · rename_i r hr
    obtain rfl : r.code = code := by simpa using hcode
    obtain ⟨i, hi⟩ := h.accepted r hr
    exact ⟨i, _, hi.found, hi.unused, hi.used, by simp⟩
  · rename_i r hr
    obtain rfl : r.code = code := by simpa using hcode
    obtain ⟨i, hi, hunused, hused⟩ := h.declined r hr
    exact ⟨i, _, hi, hunused, hused, by simp⟩
  · cases hcode

/-- Other writes at most delete it. -/
lemma MemberDb.Redeems.others (h : MemberDb.Redeems a held db db') (hcode : a.redeems code = false) :
    db'.invitations.get? code = db.invitations.get? code ∨ db'.invitations.get? code = none := by
  rcases h.invitations code with hsame | ⟨-, hstep⟩
  · exact .inl hsame
  · right
    generalize db.invitations.get? code = old at hstep
    generalize db'.invitations.get? code = new at hstep
    cases hstep with
    | accepted hrequest hr _ =>
      rw [MemberResult.redeems, hrequest] at hcode
      simp [hr] at hcode
    | declined hrequest hr _ =>
      rw [MemberResult.redeems, hrequest] at hcode
      simp [hr] at hcode
    | revoked _ _ _ _ _ => rfl

/-- A used invitation stays, but for a revocation that found it unused. -/
lemma MemberDb.Redeems.kept (h : MemberDb.Redeems a held db db') (hfound : a.RevokesAsFound db)
    {i : Invitation} (hi : db.invitations.get? code = some i) (hused : i.usedAt ≠ none) :
    db'.invitations.get? code = some i := by
  rcases h.invitations code with hsame | ⟨-, hstep⟩
  · rw [hsame, hi]
  · rw [hi] at hstep
    generalize hnew : db'.invitations.get? code = new at hstep
    cases hstep with
    | accepted _ _ hunused => exact absurd hunused hused
    | declined _ _ hunused => exact absurd hunused hused
    | revoked hrequest hr hrevoked hunused _ =>
      have hsame := hfound _ _ hrequest hrevoked
      rw [hr, hi, Option.some.injEq] at hsame
      rw [hsame] at hused
      exact absurd hunused hused

end Commits

/-! ### Runs -/

/-- Each invitation is used once, by the accept that makes someone a member or by a decline, and
stays then; what does not commit leaves the store. -/
structure SingleUse (verifySecret : Text → Text → Bool) (start : MemberDb)
    (events : List (TxEvent MemberRequest)) (server : MemberServer) : Prop where
  once : ∀ code, (server.log.filter (·.redeems code)).length ≤ 1
  accepts : ∀ c ∈ MemberServer.commits verifySecret start events, ∀ r,
    c.result.request = .accept r → ∃ i, MemberDb.Accepts r i c.before c.after ∧
      c.after.IsActive ⟨i.groupId, r.junjoUserId⟩
  uses : ∀ c ∈ MemberServer.commits verifySecret start events, ∀ code i i',
    c.before.invitations.get? code = some i → i.usedAt = none →
    c.after.invitations.get? code = some i' → i'.usedAt ≠ none → c.result.redeems code = true
  kept : ∀ c ∈ MemberServer.commits verifySecret start events, ∀ code i,
    c.before.invitations.get? code = some i → i.usedAt ≠ none →
    c.after.invitations.get? code = some i
  refused : ∀ before e after server₁ server₂, events = before ++ e :: after →
    MemberServer.run verifySecret start before = some server₁ →
    MemberServer.next verifySecret server₁ e = some server₂ → server₁.commitOf e = none →
    server₂.committed = server₁.committed

section Runs

variable {verifySecret : Text → Text → Bool} {start : MemberDb}
  {events : List (TxEvent MemberRequest)} {server : MemberServer}

lemma redeemed_once (hrun : MemberServer.run verifySecret start events = some server)
    (code : Text) : (server.log.filter (·.redeems code)).length ≤ 1 := by
  have hcount : (server.log.filter (·.redeems code)).length = 0 ∨
      ((server.log.filter (·.redeems code)).length = 1 ∧
        ∀ i, server.committed.invitations.get? code = some i → i.usedAt ≠ none) := by
    refine MemberServer.run_induct (J := fun db log => (log.filter (·.redeems code)).length = 0 ∨
      ((log.filter (·.redeems code)).length = 1 ∧
        ∀ i, db.invitations.get? code = some i → i.usedAt ≠ none)) hrun ?_ (.inl rfl)
    rintro c - log ⟨held, hwritten⟩ hbefore
    rw [List.filter_append, List.length_append]
    cases hcode : c.result.redeems code with
    | true =>
      obtain ⟨i, i', hi, hunused, hi', hused⟩ := hwritten.redeems.used hcode
      have hnone : (log.filter (·.redeems code)).length = 0 := by
        rcases hbefore with hzero | ⟨-, hbefore⟩
        · exact hzero
        · exact absurd hunused (hbefore i hi)
      refine .inr ⟨by simp [hnone, hcode], fun i₁ hi₁ => ?_⟩
      rw [hi', Option.some.injEq] at hi₁
      exact hi₁ ▸ hused
    | false =>
      have hsame : ([c.result].filter (·.redeems code)).length = 0 := by simp [hcode]
      rw [hsame, Nat.add_zero]
      refine hbefore.imp_right fun ⟨hone, hbefore⟩ => ⟨hone, fun i hi => ?_⟩
      rcases hwritten.redeems.others hcode with hkept | hdeleted
      · exact hbefore i (hkept ▸ hi)
      · rw [hdeleted] at hi
        cases hi
  rcases hcount with hzero | ⟨hone, -⟩
  · exact hzero.le.trans (Nat.zero_le 1)
  · exact hone.le

/-- Invitations are used once exactly in the runs whose revocations delete rows as they found
them. -/
theorem invitation_singleUse_iff (hrun : MemberServer.run verifySecret start events = some server) :
    SingleUse verifySecret start events server ↔
      ∀ c ∈ MemberServer.commits verifySecret start events, c.result.RevokesAsFound c.before := by
  constructor
  · intro h c hc r found hr hfound
    obtain ⟨held, hwritten⟩ := MemberServer.commit_written hc
    obtain ⟨hdeleted, i, hi, rfl | hused⟩ := hwritten.redeems.revoked r found hr hfound
    · exact hi
    · have hkept := h.kept c hc r.code i hi hused
      rw [hdeleted] at hkept
      cases hkept
  · intro h
    refine ⟨redeemed_once hrun, fun c hc r hr => ?_, fun c hc code i i' hi hunused hi' hused => ?_,
      fun c hc code i hi hused => ?_, ?_⟩
    · obtain ⟨held, hwritten⟩ := MemberServer.commit_written hc
      obtain ⟨i, hi⟩ := hwritten.redeems.accepted r hr
      exact ⟨i, hi, _, hi.member, activated_status _ _⟩
    · obtain ⟨held, hwritten⟩ := MemberServer.commit_written hc
      by_contra hcode
      rcases hwritten.redeems.others (by simpa using hcode) with hsame | hdeleted
      · rw [hi', hi, Option.some.injEq] at hsame
        exact hused (hsame ▸ hunused)
      · rw [hi'] at hdeleted
        cases hdeleted
    · obtain ⟨held, hwritten⟩ := MemberServer.commit_written hc
      exact hwritten.redeems.kept (h c hc) hi hused
    · intro before e after server₁ server₂ _ _ hnext hnone
      rcases Database.next_commitOf hnext with ⟨-, hsame, -⟩ | ⟨a, ha, -⟩
      · exact hsame
      · rw [hnone] at ha
        cases ha

end Runs

/-! ### A revocation that comes late -/

/-- A group with one invitation. -/
private def invitingGroup : MemberDb where
  __ := MemberDb.empty
  groups := Dict.empty.set (text "guild") ⟨text "game", text "clan", .isPublic, none, none, none⟩
  invitations := Dict.empty.set (text "code") ⟨text "guild", none, none, none, none⟩

/-- Someone accepts the invitation. -/
private def acceptCode : List (TxEvent MemberRequest) :=
  .start 1 (.accept ⟨text "game", text "code", text "ann", text "ann", 1, 2⟩) ::
    List.replicate 11 (.advance 1)

/-- A revocation finds the invitation unused, and deletes it after it was accepted. -/
private def revokeLate : List (TxEvent MemberRequest) :=
  [.start 0 (.revoke ⟨text "game", text "code"⟩), .advance 0] ++ acceptCode ++
    [.advance 0, .advance 0]

theorem invitation_singleUse_accepted : ∃ server,
    MemberServer.run (fun _ _ => true) invitingGroup acceptCode = some server ∧
      server.log.length = 1 ∧ SingleUse (fun _ _ => true) invitingGroup acceptCode server := by
  have haccepted : (MemberServer.run (fun _ _ => true) invitingGroup acceptCode).map (fun server =>
      server.log.length) = some 1 := by
    decide
  have hnone : (MemberServer.commits (fun _ _ => true) invitingGroup acceptCode).all (fun c =>
      c.result.revoked.isNone) = true := by
    decide
  obtain ⟨server, hrun, hlog⟩ := Option.map_eq_some_iff.mp haccepted
  refine ⟨server, hrun, hlog, (invitation_singleUse_iff hrun).mpr ?_⟩
  intro c hc r found _ hfound
  have hrevoked := List.all_eq_true.mp hnone c hc
  rw [hfound] at hrevoked
  cases hrevoked

/-- The used row is gone. -/
theorem invitation_deleted_after_use : ¬ ∀ (verifySecret : Text → Text → Bool) (start : MemberDb)
    (events : List (TxEvent MemberRequest)) (server : MemberServer),
    MemberServer.run verifySecret start events = some server →
      SingleUse verifySecret start events server := by
  intro h
  have hboth : (MemberServer.run (fun _ _ => true) invitingGroup revokeLate).map (fun server =>
      server.log.length) = some 2 := by
    decide
  have hgone : (MemberServer.commits (fun _ _ => true) invitingGroup revokeLate).any (fun c =>
      ((c.before.invitations.get? (text "code")).any fun i => i.usedAt.isSome) &&
        (c.after.invitations.get? (text "code")).isNone) = true := by
    decide
  obtain ⟨server, hrun, -⟩ := Option.map_eq_some_iff.mp hboth
  obtain ⟨c, hc, hdeleted⟩ := List.any_eq_true.mp hgone
  rw [Bool.and_eq_true, Option.any_eq_true, Option.isNone_iff_eq_none] at hdeleted
  obtain ⟨⟨i, hi, hused⟩, hnone⟩ := hdeleted
  have hkept := (h _ _ _ server hrun).kept c hc _ i hi fun hunused => by
    rw [hunused] at hused
    cases hused
  rw [hnone] at hkept
  cases hkept

end Junjo
