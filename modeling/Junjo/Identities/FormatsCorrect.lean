import Junjo.Identities.Writes

/-!
# Stored ids match the declared formats

A new id is checked under a share lock on the game's row, and a config write scans the stored ids
with that row locked for update, so neither can miss the other. Every other write leaves the set of
ids and the formats as they are. In every committed store each id is therefore well formed under the
formats of its game, and is found by its own spelling (`storedIds_wellFormed`).
-/

namespace Junjo.Identities

/-! ### Changes that leave ids and formats -/

/-- No new id and no other format. -/
structure KeepsIds (c c' : IdentityRows) : Prop where
  formats : c'.formats = c.formats
  ids : ∀ k row', c'.externalIdentities.get? k = some row' → ∃ row,
    c.externalIdentities.get? k = some row ∧ row.gameId = row'.gameId ∧
      row.externalUserId = row'.externalUserId

namespace KeepsIds

variable {c c' c'' : IdentityRows}

lemma of_eq (hformats : c'.formats = c.formats)
    (hids : c'.externalIdentities = c.externalIdentities) : KeepsIds c c' :=
  ⟨hformats, fun _ row' h => ⟨row', hids ▸ h, rfl, rfl⟩⟩

lemma refl (c : IdentityRows) : KeepsIds c c := of_eq rfl rfl

lemma trans (h : KeepsIds c c') (h' : KeepsIds c' c'') : KeepsIds c c'' := by
  refine ⟨h'.formats.trans h.formats, fun k row'' hrow'' => ?_⟩
  obtain ⟨row', hrow', hgame', hid'⟩ := h'.ids k row'' hrow''
  obtain ⟨row, hrow, hgame, hid⟩ := h.ids k row' hrow'
  exact ⟨row, hrow, hgame.trans hgame', hid.trans hid'⟩

lemma of_updateMany {p : Text → ExternalIdentity → Bool}
    {f : ExternalIdentity → ExternalIdentity}
    (hids : c'.externalIdentities = c.externalIdentities.updateMany p f)
    (hf : ∀ i, (f i).gameId = i.gameId ∧ (f i).externalUserId = i.externalUserId)
    (hformats : c'.formats = c.formats) : KeepsIds c c' := by
  refine ⟨hformats, fun k row' hrow' => ?_⟩
  rw [hids, Dict.get?_updateMany, Option.map_eq_some_iff] at hrow'
  obtain ⟨row, hrow, rfl⟩ := hrow'
  refine ⟨row, hrow, ?_⟩
  split_ifs
  · exact ⟨(hf row).1.symm, (hf row).2.symm⟩
  · exact ⟨rfl, rfl⟩

lemma insertPerson {id : Text} (h : c.insertPerson id = some c') : KeepsIds c c' := by
  rw [IdentityRows.insertPerson] at h
  split_ifs at h
  cases h
  exact of_eq rfl rfl

lemma insertLinkCode {id : Text} {row : LinkCode} (h : c.insertLinkCode id row = some c') :
    KeepsIds c c' := by
  rw [IdentityRows.insertLinkCode] at h
  split_ifs at h
  cases h
  exact of_eq rfl rfl

lemma updateIdentity (c : IdentityRows) (id person : Text) (now : ℤ) :
    KeepsIds c (c.updateIdentity id person now) :=
  of_updateMany (p := fun k _ => k = id)
    (f := fun i => { i with junjoUserId := person, linkedAt := now }) rfl (fun _ => ⟨rfl, rfl⟩) rfl

lemma mergeRows {survivorId attachedId : Text} {now : ℤ}
    (h : c.mergeRows survivorId attachedId now = some c') : KeepsIds c c' := by
  rw [IdentityRows.mergeRows, Option.map_eq_some_iff] at h
  obtain ⟨people, hpeople, rfl⟩ := h
  rw [PeopleDb.mergePeople, PeopleDb.deletePerson] at hpeople
  split_ifs at hpeople
  cases hpeople
  refine ⟨rfl, fun k row' hrow' => ?_⟩
  obtain ⟨hrow, -⟩ := Dict.get?_deleteMany_eq_some_iff.mp hrow'
  have hmoved : KeepsIds c
      { c with toPeopleDb := c.moveIdentities survivorId attachedId now } :=
    of_updateMany (p := fun _ i => i.junjoUserId = attachedId)
      (f := fun i => { i with junjoUserId := survivorId, linkedAt := now }) rfl
      (fun _ => ⟨rfl, rfl⟩) rfl
  exact hmoved.ids k row' hrow

end KeepsIds

/-- What a statement changes. -/
lemma update_keepsIds {f : IdentityRows → Option IdentityRows}
    (hf : ∀ c c', f c = some c' → KeepsIds c c') (locks : List IdentityLock) :
    Within (fun c c' : IdentityDb => KeepsIds c.toIdentityRows c'.toIdentityRows) (fun _ => True)
      (update locks f) :=
  Within.write _ _ fun _ _ h => hf _ _ (IdentityDb.change_eq_some.mp h)

/-! ### Programs that leave ids and formats -/

section Programs

/-- A program all of whose changes leave ids and formats. -/
abbrev LeavesIds {ρ : Type} (p : IdentityTx ρ) : Prop :=
  Within (fun c c' : IdentityDb => KeepsIds c.toIdentityRows c'.toIdentityRows) (fun _ => True) p

lemma leavesIds_query {ρ : Type} (reply : IdentityDb → ρ) :
    LeavesIds (query reply : IdentityTx ρ) :=
  Within.query (fun c : IdentityDb => KeepsIds.refl c.toIdentityRows) reply

lemma leavesIds_lockQuery {ρ : Type} (locks : IdentityDb → List IdentityLock)
    (reply : IdentityDb → ρ) : LeavesIds (lockQuery locks reply : IdentityTx ρ) :=
  Within.lockQuery (fun c : IdentityDb => KeepsIds.refl c.toIdentityRows) locks reply

lemma leavesIds_bind {ρ τ : Type} {p : IdentityTx ρ} {f : ρ → IdentityTx τ} (hp : LeavesIds p)
    (hf : ∀ a, LeavesIds (f a)) : LeavesIds (p >>= f) :=
  hp.bind fun a _ => hf a

lemma leavesIds_pure {ρ : Type} (a : ρ) : LeavesIds (pure a : IdentityTx ρ) := trivial

lemma leavesIds_throw {ρ : Type} (e : IdentityError) : LeavesIds (throw e : IdentityTx ρ) :=
  trivial

lemma leavesIds_assert (declared : DeclaredFormats) (userId : Text) :
    LeavesIds (assertUserIdWellFormed declared userId) := by
  unfold assertUserIdWellFormed
  split
  · exact leavesIds_pure _
  · exact leavesIds_throw _

lemma leavesIds_deleteLinkCodesWhere (p : LinkCode → Bool) :
    LeavesIds (deleteLinkCodesWhere p) := by
  refine leavesIds_bind (leavesIds_lockQuery _ _) fun ids => ?_
  apply update_keepsIds
  rintro c c' h
  cases h
  exact .of_eq rfl rfl

lemma leavesIds_issue (hashLinkCode : Text → Text) (memo : Option DeclaredFormats)
    (gameId userId code linkCodeId : Text) (now : ℤ) :
    LeavesIds (issue hashLinkCode memo gameId userId code linkCodeId now) := by
  unfold issue
  refine leavesIds_bind (leavesIds_query _) fun declared => ?_
  refine leavesIds_bind (leavesIds_assert _ _) fun _ => ?_
  refine leavesIds_bind (leavesIds_query _) fun resolved => ?_
  cases resolved with
  | none => exact leavesIds_throw _
  | some junjoUserId =>
    refine leavesIds_bind (leavesIds_query _) fun identity => ?_
    cases identity with
    | none => exact leavesIds_throw _
    | some identity =>
      dsimp only
      split
      · exact leavesIds_throw _
      refine leavesIds_bind (leavesIds_query _) fun banned => ?_
      split
      · exact leavesIds_throw _
      refine leavesIds_bind (leavesIds_deleteLinkCodesWhere _) fun _ => ?_
      refine leavesIds_bind ?_ fun _ => leavesIds_pure _
      exact update_keepsIds (fun _ _ => KeepsIds.insertLinkCode) _

lemma leavesIds_lockPeople (ids : List Text) : LeavesIds (lockPeople ids) := by
  induction ids with
  | nil => exact leavesIds_pure _
  | cons id ids ih => exact leavesIds_bind (leavesIds_lockQuery _ _) fun _ => ih

lemma leavesIds_planLink (gameId issuerId redeemerId : Text) (now : ℤ) :
    LeavesIds (planLink gameId issuerId redeemerId now) := by
  unfold planLink
  refine leavesIds_bind (leavesIds_query _) fun overflow => ?_
  refine leavesIds_bind (leavesIds_lockPeople _) fun _ => ?_
  refine leavesIds_bind (leavesIds_query _) fun footprints => ?_
  unfold decideLink
  split_ifs
  all_goals first
    | exact leavesIds_throw _
    | exact leavesIds_pure _

lemma leavesIds_consume (linkCodeId : Text) (now : ℤ) : LeavesIds (consume linkCodeId now) := by
  apply Within.write
  intro c c' h
  have hrows := IdentityDb.change_eq_some.mp h
  rw [← Option.some.inj hrows]
  exact .of_eq rfl rfl

lemma leavesIds_redeem (hashLinkCode : Text → Text) (memo : Option DeclaredFormats)
    (gameId userId code : Text) (now : ℤ) :
    LeavesIds (redeem hashLinkCode memo gameId userId code now) := by
  unfold redeem
  refine leavesIds_bind (leavesIds_query _) fun declared => ?_
  refine leavesIds_bind (leavesIds_assert _ _) fun _ => ?_
  refine leavesIds_bind (leavesIds_query _) fun live => ?_
  split
  · exact leavesIds_throw _
  refine leavesIds_bind (leavesIds_query _) fun resolved => ?_
  cases resolved with
  | none => exact leavesIds_throw _
  | some redeemerId =>
    refine leavesIds_bind (leavesIds_query _) fun found => ?_
    cases found with
    | none => exact leavesIds_throw _
    | some c =>
      dsimp only
      split
      · exact leavesIds_throw _
      refine leavesIds_bind (leavesIds_query _) fun issuer => ?_
      cases issuer with
      | none => exact leavesIds_throw _
      | some issuer =>
        dsimp only
        split
        · exact leavesIds_throw _
        refine leavesIds_bind (leavesIds_consume _ _) fun consumed => ?_
        split_ifs
        · exact leavesIds_throw _
        · exact leavesIds_pure _
        · refine leavesIds_bind (leavesIds_planLink _ _ _ _) fun plan => ?_
          refine leavesIds_bind ?_ fun _ => leavesIds_pure _
          exact update_keepsIds (fun _ _ => KeepsIds.mergeRows) _

lemma leavesIds_findJunjoUserId (memo : Option DeclaredFormats) (gameId userId : Text) :
    LeavesIds (findJunjoUserId memo gameId userId) := by
  unfold findJunjoUserId
  refine leavesIds_bind (leavesIds_query _) fun declared => ?_
  exact leavesIds_bind (leavesIds_assert _ _) fun _ => leavesIds_query _

lemma leavesIds_unlink (memo : Option DeclaredFormats) (gameId userId newPersonId : Text)
    (now : ℤ) : LeavesIds (unlink memo gameId userId newPersonId now) := by
  unfold unlink
  refine leavesIds_bind (leavesIds_findJunjoUserId _ _ _) fun resolved => ?_
  cases resolved with
  | none => exact leavesIds_throw _
  | some junjoUserId =>
    refine leavesIds_bind (leavesIds_lockQuery _ _) fun _ => ?_
    refine leavesIds_bind (leavesIds_query _) fun ids => ?_
    split
    · exact leavesIds_throw _
    split
    · exact leavesIds_throw _
    refine leavesIds_bind (leavesIds_query _) fun footprint => ?_
    split
    · exact leavesIds_throw _
    refine leavesIds_bind ?_ fun _ => leavesIds_pure _
    unfold splitIdentity
    refine leavesIds_bind (update_keepsIds (fun _ _ => KeepsIds.insertPerson) _) fun _ => ?_
    refine leavesIds_bind ?_ fun _ => leavesIds_deleteLinkCodesWhere _
    apply update_keepsIds
    intro c c' h
    rw [← Option.some.inj h]
    exact KeepsIds.updateIdentity c _ _ now

end Programs

/-! ### What every commit keeps -/

/-- Every stored id matches the formats of its game. -/
def StoredWellFormed (c : IdentityDb) : Prop :=
  ∀ k row, c.externalIdentities.get? k = some row →
    isUserIdWellFormed (c.formatsOf row.gameId) row.externalUserId = true

/-- Formats change under the lock for update of the game's row only, and an id is new under a share
lock on it only. -/
structure FormatsEffect (held : List IdentityLock) (c c' : IdentityDb) : Prop where
  formats : ∀ gameId, IdentityLock.game gameId .update ∉ held →
    c'.formats.get? gameId = c.formats.get? gameId
  ids : ∀ k row', c'.externalIdentities.get? k = some row' →
    (∃ row, c.externalIdentities.get? k = some row ∧ row.gameId = row'.gameId ∧
      row.externalUserId = row'.externalUserId) ∨ IdentityLock.game row'.gameId .share ∈ held

def formatsDiscipline : Discipline IdentityDb IdentityLock IdentityResult where
  inv := StoredWellFormed
  effect _ := FormatsEffect

lemma KeepsIds.commit {c c' : IdentityDb} (h : KeepsIds c.toIdentityRows c'.toIdentityRows)
    (held : List IdentityLock) (hinv : StoredWellFormed c) :
    StoredWellFormed c' ∧ FormatsEffect held c c' := by
  refine ⟨fun k row' hrow' => ?_, fun gameId _ => by rw [h.formats],
    fun k row' hrow' => .inl (h.ids k row' hrow')⟩
  obtain ⟨row, hrow, hgame, hid⟩ := h.ids k row' hrow'
  have hwell := hinv k row hrow
  rw [IdentityRows.formatsOf] at hwell ⊢
  rwa [h.formats, ← hgame, ← hid]

/-- A program that leaves ids and formats keeps every stored id well formed. -/
lemma LeavesIds.keeps {p : IdentityTx IdentityResult} (h : LeavesIds p)
    (held : List IdentityLock) (seen : List IdentityDb) (c : IdentityDb) :
    Keeps IdentityLock.conflicts formatsDiscipline p held some seen c :=
  Within.keeps h (fun _ _ _ => KeepsIds.trans)
    (fun _ held _ _ _ hinv hkeeps => hkeeps.commit held hinv)
    fun _ _ hc => Option.some.inj hc ▸ KeepsIds.refl _

section Evolution

variable {held : List IdentityLock} {c c' : IdentityDb}

/-- A lock on a game's row keeps its formats. -/
lemma formats_evolves (h : Evolves IdentityLock.conflicts formatsDiscipline held c c')
    {gameId : Text} {mode : GameRowLock} (hlock : IdentityLock.game gameId mode ∈ held) :
    c'.formats.get? gameId = c.formats.get? gameId := by
  refine h.preserves (P := fun x => x.formats.get? gameId = c.formats.get? gameId) ?_ rfl
  intro c₁ c₂ _ held' _ _ hcompat heffect hsame
  rw [← hsame]
  apply heffect.formats
  intro hmem
  have hconflict := hcompat _ hlock _ hmem
  simp [IdentityLock.conflicts] at hconflict

/-- A lock for update on a game's row keeps new ids out. -/
lemma ids_evolves (h : Evolves IdentityLock.conflicts formatsDiscipline held c c')
    {gameId : Text} (hlock : IdentityLock.game gameId .update ∈ held) :
    ∀ k row', c'.externalIdentities.get? k = some row' → row'.gameId = gameId →
      ∃ row, c.externalIdentities.get? k = some row ∧ row.gameId = gameId ∧
        row.externalUserId = row'.externalUserId := by
  refine h.preserves (P := fun x => ∀ k row', x.externalIdentities.get? k = some row' →
    row'.gameId = gameId → ∃ row, c.externalIdentities.get? k = some row ∧ row.gameId = gameId ∧
      row.externalUserId = row'.externalUserId) ?_ fun k row' hrow' hgame => ⟨row', hrow', hgame, rfl⟩
  intro c₁ c₂ _ held' _ _ hcompat heffect ih k row' hrow' hgame
  rcases heffect.ids k row' hrow' with ⟨row, hrow, hgame', hid⟩ | hshare
  · obtain ⟨row₀, hrow₀, hgame₀, hid₀⟩ := ih k row hrow (hgame'.trans hgame)
    exact ⟨row₀, hrow₀, hgame₀, hid₀.trans hid⟩
  · have hconflict := hcompat _ hlock _ hshare
    simp [IdentityLock.conflicts, hgame] at hconflict

end Evolution

/-! ### The config write -/

/-- No stored id of the game is in the way of the format. -/
def Unopposed (gameId : Text) (previous : DeclaredFormats) (entry : Text × UserIdFormat)
    (c : IdentityDb) : Prop :=
  previous.formats.get? entry.1 = some entry.2 ∨ ∀ k row,
    c.externalIdentities.get? k = some row → row.gameId = gameId →
      isConflict entry.1 entry.2 row.externalUserId = false

lemma Unopposed.evolves {held : List IdentityLock} {c c' : IdentityDb} {gameId : Text}
    {previous : DeclaredFormats} {entry : Text × UserIdFormat}
    (h : Unopposed gameId previous entry c)
    (hevolves : Evolves IdentityLock.conflicts formatsDiscipline held c c')
    (hlock : IdentityLock.game gameId .update ∈ held) : Unopposed gameId previous entry c' := by
  refine h.imp id fun h k row' hrow' hgame => ?_
  obtain ⟨row, hrow, hgame', hid⟩ := ids_evolves hevolves hlock k row' hrow' hgame
  rw [← hid]
  exact h k row hrow hgame'

lemma unopposed_of_formatConflicts_eq_nil {c : IdentityDb} {gameId ns : Text}
    {format : UserIdFormat} (h : c.formatConflicts gameId ns format = [])
    (previous : DeclaredFormats) : Unopposed gameId previous (ns, format) c := by
  refine .inr fun k row hrow hgame => ?_
  by_contra hconflict
  rw [IdentityRows.formatConflicts, List.map_eq_nil_iff, List.filter_eq_nil_iff] at h
  apply h (k, row) (Dict.get?_eq_some_iff.mp hrow)
  rw [Bool.and_eq_true]
  exact ⟨decide_eq_true hgame, Bool.eq_true_of_not_eq_false hconflict⟩

/-- What follows the scan starts, when the scan found nothing, on a store in which no id is in the
way of a format. -/
lemma keeps_findFormatConflicts (collation : Text → Text → Bool) {gameId : Text}
    {previous : DeclaredFormats} {held : List IdentityLock}
    (hlock : IdentityLock.game gameId .update ∈ held)
    (k : List Text → IdentityTx IdentityResult) :
    ∀ (entries : List (Text × UserIdFormat)) (conflicts : List Text) (seen : List IdentityDb)
      (c : IdentityDb), conflicts.length < conflictLimit →
      (∀ found seen' c',
        (found = [] → conflicts = [] ∧ ∀ e ∈ entries, Unopposed gameId previous e c') →
        Evolves IdentityLock.conflicts formatsDiscipline held c c' →
        Keeps IdentityLock.conflicts formatsDiscipline (k found) held some seen' c') →
      Keeps IdentityLock.conflicts formatsDiscipline
        (findFormatConflicts collation gameId previous entries conflicts >>= k) held some seen c := by
  intro entries
  induction entries with
  | nil =>
    intro conflicts seen c _ hk
    exact hk conflicts seen c (fun hnil => ⟨hnil, fun e he => absurd he List.not_mem_nil⟩) .refl
  | cons entry entries ih =>
    intro conflicts seen c hroom hk
    obtain ⟨ns, format⟩ := entry
    rw [findFormatConflicts]
    split_ifs with hsame
    · refine ih conflicts seen c hroom fun found seen' c' hfound hc' => hk found seen' c' ?_ hc'
      intro hnil
      obtain ⟨hconflicts, hrest⟩ := hfound hnil
      refine ⟨hconflicts, fun e he => ?_⟩
      rcases List.mem_cons.mp he with rfl | he
      · exact .inl hsame
      · exact hrest e he
    · rw [bind_assoc, keeps_query]
      intro _ view hview c₁ hc₁
      obtain rfl := Option.some.inj hview
      have hhead : ((c.formatConflicts gameId ns format).mergeSort collation).take
          (conflictLimit - conflicts.length) = [] → ∀ c', Evolves IdentityLock.conflicts
            formatsDiscipline held c c' → Unopposed gameId previous (ns, format) c' := by
        intro hnil c' hc'
        refine Unopposed.evolves (unopposed_of_formatConflicts_eq_nil ?_ previous) hc' hlock
        rw [List.take_eq_nil_iff] at hnil
        rcases hnil with hzero | hnil
        · omega
        · exact List.perm_nil.mp (hnil ▸ (List.mergeSort_perm _ _).symm)
      dsimp only
      split_ifs with hfull
      · refine hk _ _ c₁ (fun hnil => ?_) hc₁
        rw [hnil] at hfull
        exact absurd hfull (by decide)
      · refine ih _ _ c₁ (not_le.mp hfull) fun found seen' c' hfound hc' => ?_
        refine hk found seen' c' (fun hnil => ?_) (hc₁.trans hc')
        obtain ⟨hconflicts, hrest⟩ := hfound hnil
        obtain ⟨hconflicts, hrows⟩ := List.append_eq_nil_iff.mp hconflicts
        refine ⟨hconflicts, fun e he => ?_⟩
        rcases List.mem_cons.mp he with rfl | he
        · exact hhead hrows c' (hc₁.trans hc')
        · exact hrest e he

lemma keeps_updateGameConfig (collation : Text → Text → Bool) (gameId : Text)
    (formats : Option DeclaredFormats) (c : IdentityDb) :
    Keeps IdentityLock.conflicts formatsDiscipline (updateGameConfig collation gameId formats) []
      some [] c := by
  rw [updateGameConfig, keeps_lockQuery]
  intro _ view hview c₁ hc₁
  obtain rfl := Option.some.inj hview
  cases hbefore : c.formats.get? gameId with
  | none => trivial
  | some before =>
    have hlock : IdentityLock.game gameId .update ∈ [] ++ [IdentityLock.game gameId .update] :=
      List.mem_append_right _ List.mem_cons_self
    dsimp only
    apply keeps_findFormatConflicts collation hlock
    · decide
    intro found seen c₂ hfound hc₂
    split_ifs with hnil
    · trivial
    obtain ⟨-, hunopposed⟩ := hfound (not_not.mp hnil)
    rw [update, keeps_write]
    intro _ _ _ c₃ hc₃
    have hc : Evolves IdentityLock.conflicts formatsDiscipline
        ([] ++ [IdentityLock.game gameId .update]) c c₃ :=
      hc₁.trans (hc₂.trans (hc₃.mono (List.subset_append_left _ _)))
    have hc₂₃ : Evolves IdentityLock.conflicts formatsDiscipline
        ([] ++ [IdentityLock.game gameId .update]) c₂ c₃ :=
      hc₃.mono (List.subset_append_left _ _)
    rw [keeps_pure]
    intro hinv _ c' hc'
    rw [Option.bind_some, IdentityDb.change_eq_some] at hc'
    have hrows := Option.some.inj hc'
    have hids : c'.externalIdentities = c₃.externalIdentities := by rw [← hrows]; rfl
    have hformats : c'.formats = c₃.formats.set gameId (formats.getD before) := by
      rw [← hrows]; rfl
    refine ⟨fun k row hrow => ?_, fun g hg => ?_, fun k row hrow => .inl ⟨row, hids ▸ hrow, rfl, rfl⟩⟩
    · rw [hids] at hrow
      rw [IdentityRows.formatsOf, hformats, Dict.get?_set]
      split_ifs with hgame
      · refine isUserIdWellFormed_of_scanned (?_ : isUserIdWellFormed before _ = true) ?_
        · have hwell := hinv k row hrow
          rwa [IdentityRows.formatsOf, hgame, formats_evolves hc hlock, hbefore] at hwell
        · intro ns format hformat
          have hentry := (hunopposed (ns, format) (Dict.get?_eq_some_iff.mp hformat)).evolves hc₂₃
            hlock
          exact hentry.imp id fun h => h k row hrow hgame
      · exact hinv k row hrow
    · rw [hformats, Dict.get?_set]
      split_ifs with hgame
      · subst hgame
        exact absurd (List.mem_append_left _ hlock) hg
      · rfl

/-! ### New ids -/

/-- Some ids of a game were added, each matching its formats. -/
structure AddsIds (gameId : Text) (good : Text → Prop) (c c' : IdentityRows) : Prop where
  formats : c'.formats = c.formats
  ids : ∀ k row', c'.externalIdentities.get? k = some row' →
    c.externalIdentities.get? k = some row' ∨ row'.gameId = gameId ∧ good row'.externalUserId

lemma AddsIds.refl (gameId : Text) (good : Text → Prop) (c : IdentityRows) :
    AddsIds gameId good c c :=
  ⟨rfl, fun _ _ h => .inl h⟩

lemma AddsIds.insertPerson {gameId : Text} {good : Text → Prop} {c₁ c c' : IdentityRows}
    (h : AddsIds gameId good c₁ c) {id : Text} (hc' : c.insertPerson id = some c') :
    AddsIds gameId good c₁ c' := by
  rw [IdentityRows.insertPerson] at hc'
  split_ifs at hc'
  cases hc'
  exact ⟨h.formats, h.ids⟩

lemma AddsIds.insertIdentity {gameId : Text} {good : Text → Prop} {c₁ c c' : IdentityRows}
    (h : AddsIds gameId good c₁ c) {id : Text} {row : ExternalIdentity}
    (hrow : row.gameId = gameId ∧ good row.externalUserId)
    (hc' : c.insertIdentity id row = some c') : AddsIds gameId good c₁ c' := by
  rw [IdentityRows.insertIdentity] at hc'
  split_ifs at hc'
  cases hc'
  refine ⟨h.formats, fun k row' hrow' => ?_⟩
  rw [Dict.get?_set] at hrow'
  split_ifs at hrow'
  · cases hrow'
    exact .inr hrow
  · exact h.ids k row' hrow'

/-- A commit that adds ids under the formats of the locked row. -/
lemma AddsIds.commit {gameId : Text} {c c' : IdentityDb}
    (h : AddsIds gameId (fun id => isUserIdWellFormed (c.formatsOf gameId) id = true)
      c.toIdentityRows c'.toIdentityRows) {held : List IdentityLock}
    (hlock : IdentityLock.game gameId .share ∈ held) (hinv : StoredWellFormed c) :
    StoredWellFormed c' ∧ FormatsEffect held c c' := by
  refine ⟨fun k row' hrow' => ?_, fun g _ => by rw [h.formats], fun k row' hrow' => ?_⟩
  · rw [IdentityRows.formatsOf, h.formats]
    rcases h.ids k row' hrow' with hrow | ⟨hgame, hwell⟩
    · exact hinv k row' hrow
    · rw [hgame]
      exact hwell
  · rcases h.ids k row' hrow' with hrow | ⟨hgame, -⟩
    · exact .inl ⟨row', hrow, rfl, rfl⟩
    · exact .inr (hgame ▸ hlock)

/-- What follows the check under the lock. -/
lemma keeps_recheckFormat {gameId userId : Text} {k : Unit → IdentityTx IdentityResult}
    {held : List IdentityLock} {seen : List IdentityDb} {c : IdentityDb}
    (h : ∀ held' seen' c', (∀ c'', Evolves IdentityLock.conflicts formatsDiscipline held' c' c'' →
        isUserIdWellFormed (c''.formatsOf gameId) userId = true) →
      Keeps IdentityLock.conflicts formatsDiscipline (k ()) held' some seen' c') :
    Keeps IdentityLock.conflicts formatsDiscipline (recheckFormat gameId userId >>= k) held some
      seen c := by
  rw [recheckFormat]
  split_ifs with hns
  · rw [bind_assoc, lockFormats, keeps_lockQuery]
    intro _ view hview c₁ hc₁
    obtain rfl := Option.some.inj hview
    have hlock : IdentityLock.game gameId .share ∈ held ++ [IdentityLock.game gameId .share] :=
      List.mem_append_right _ List.mem_cons_self
    refine keeps_assert fun hwell => h _ _ c₁ fun c₂ hc₂ => ?_
    rwa [IdentityRows.formatsOf, formats_evolves (hc₁.trans hc₂) hlock]
  · refine h _ _ c fun c' _ => ?_
    rw [Option.not_isSome_iff_eq_none] at hns
    rw [isUserIdWellFormed, hns]

lemma keeps_findOrCreateJunjoUser (memo : Option DeclaredFormats) (gameId userId : Text)
    (new : NewPerson) (now : ℤ) (c : IdentityDb) :
    Keeps IdentityLock.conflicts formatsDiscipline
      (findOrCreateJunjoUser memo gameId userId new now) [] some [] c := by
  rw [findOrCreateJunjoUser, idFormatsFor, keeps_query]
  intro _ view hview c₁ _
  obtain rfl := Option.some.inj hview
  refine keeps_assert fun _ => ?_
  rw [keeps_query]
  intro _ view hview c₂ _
  obtain rfl := Option.some.inj hview
  cases c₁.personOf gameId userId with
  | some junjoUserId =>
    exact LeavesIds.keeps (leavesIds_pure (.person junjoUserId)) _ _ c₂
  | none =>
    refine keeps_recheckFormat fun held seen c₃ hwell => ?_
    rw [update, keeps_write]
    intro _ _ _ c₄ hc₄
    rw [update, keeps_write]
    intro _ _ _ c₅ hc₅
    rw [keeps_pure]
    intro hinv _ c' hc'
    obtain ⟨c₆, hperson, hidentity⟩ := Option.bind_eq_some_iff.mp hc'
    rw [Option.bind_some, IdentityDb.change_eq_some] at hperson
    rw [IdentityDb.change_eq_some] at hidentity
    have hc : Evolves IdentityLock.conflicts formatsDiscipline held c₃ c₅ :=
      (hc₄.mono (List.subset_append_left _ _)).trans
        (hc₅.mono fun _ h => List.mem_append_left _ (List.mem_append_left _ h))
    refine AddsIds.commit ?_ (List.mem_append_right _ List.mem_cons_self) hinv
    exact ((AddsIds.refl _ _ _).insertPerson hperson).insertIdentity ⟨rfl, hwell c₅ hc⟩ hidentity

/-- The ids of an import. -/
lemma AddsIds.createPeople {gameId : Text} {good : Text → Prop} {c₁ : IdentityRows} {now : ℤ}
    {unknown : List ImportRow} (hgood : ∀ row ∈ unknown, good row.userId) {c c' : IdentityRows}
    (h : AddsIds gameId good c₁ c)
    (hc' : unknown.foldlM (fun r row => r.insertIdentity row.new.externalIdentityId
      ⟨gameId, row.new.junjoUserId, row.userId, now⟩) c = some c') : AddsIds gameId good c₁ c' := by
  induction unknown generalizing c with
  | nil =>
    obtain rfl := Option.some.inj hc'
    exact h
  | cons row unknown ih =>
    rw [List.foldlM_cons] at hc'
    obtain ⟨c₂, hc₂, hrest⟩ := Option.bind_eq_some_iff.mp hc'
    refine ih (fun r hr => hgood r (List.mem_cons_of_mem _ hr)) ?_ hrest
    exact h.insertIdentity ⟨rfl, hgood row List.mem_cons_self⟩ hc₂

/-- The people of an import. -/
lemma AddsIds.insertPeople {gameId : Text} {good : Text → Prop} {c₁ : IdentityRows}
    {unknown : List ImportRow} {c c' : IdentityRows} (h : AddsIds gameId good c₁ c)
    (hc' : unknown.foldlM (fun r row => r.insertPerson row.new.junjoUserId) c = some c') :
    AddsIds gameId good c₁ c' := by
  induction unknown generalizing c with
  | nil =>
    obtain rfl := Option.some.inj hc'
    exact h
  | cons row unknown ih =>
    rw [List.foldlM_cons] at hc'
    obtain ⟨c₂, hc₂, hrest⟩ := Option.bind_eq_some_iff.mp hc'
    exact ih (h.insertPerson hc₂) hrest

lemma keeps_runImport (gameId : Text) (rows : List ImportRow) (fails : IdentityDb → Bool)
    (now : ℤ) (c : IdentityDb) :
    Keeps IdentityLock.conflicts formatsDiscipline (runImport gameId rows fails now) [] some []
      c := by
  rw [runImport, lockFormats, keeps_lockQuery]
  intro _ view hview c₁ hc₁
  obtain rfl := Option.some.inj hview
  have hlock : IdentityLock.game gameId .share ∈ [] ++ [IdentityLock.game gameId .share] :=
    List.mem_append_right _ List.mem_cons_self
  split_ifs with hrows
  · trivial
  swap
  · trivial
  rw [keeps_query]
  intro _ view hview c₂ hc₂
  obtain rfl := Option.some.inj hview
  rw [keeps_query]
  intro _ view hview c₃ hc₃
  obtain rfl := Option.some.inj hview
  split
  · trivial
  rw [createPeople, bind_assoc, update, keeps_write]
  intro _ _ _ c₄ hc₄
  rw [update, keeps_write]
  intro _ _ _ c₅ hc₅
  rw [keeps_pure]
  intro hinv _ c' hc'
  obtain ⟨c₆, hpeople, hidentities⟩ := Option.bind_eq_some_iff.mp hc'
  rw [Option.bind_some, IdentityDb.change_eq_some] at hpeople
  rw [IdentityDb.change_eq_some] at hidentities
  have hc : Evolves IdentityLock.conflicts formatsDiscipline
      ([] ++ [IdentityLock.game gameId .share]) c c₅ :=
    hc₁.trans (hc₂.trans (hc₃.trans ((hc₄.mono (List.subset_append_left _ _)).trans
      (hc₅.mono fun _ h => List.mem_append_left _ (List.mem_append_left _ h)))))
  refine AddsIds.commit ?_ (List.mem_append_right _ List.mem_cons_self) hinv
  refine AddsIds.createPeople ?_ ((AddsIds.refl _ _ _).insertPeople hpeople) hidentities
  intro row hrow
  have hwell : ∀ row ∈ rows, isUserIdWellFormed (c.formatsOf gameId) row.userId = true := by
    simpa using hrows
  rw [IdentityRows.formatsOf, formats_evolves hc hlock]
  exact hwell row (List.mem_of_mem_filter hrow)

/-! ### Runs -/

section Runs

variable (hashLinkCode : Text → Text) (collation : Text → Text → Bool)

lemma keeps_program_formats (request : IdentityRequest) (c : IdentityDb) :
    Keeps IdentityLock.conflicts formatsDiscipline (program hashLinkCode collation request) []
      some [] c := by
  cases request with
  | updateGameConfig gameId formats => exact keeps_updateGameConfig collation gameId formats c
  | findOrCreateJunjoUser memo gameId userId new now =>
    exact keeps_findOrCreateJunjoUser memo gameId userId new now c
  | runImport gameId rows fails now => exact keeps_runImport gameId rows fails now c
  | issue memo gameId userId code linkCodeId now =>
    exact LeavesIds.keeps (leavesIds_issue ..) _ _ c
  | redeem memo gameId userId code now => exact LeavesIds.keeps (leavesIds_redeem ..) _ _ c
  | unlink memo gameId userId newPersonId now => exact LeavesIds.keeps (leavesIds_unlink ..) _ _ c
  | other w =>
    refine LeavesIds.keeps (leavesIds_bind ?_ fun _ => leavesIds_pure _) _ _ c
    apply update_keepsIds
    intro c c' h
    rw [← Option.some.inj h]
    exact .of_eq rfl (w.externalIdentities _)

/-- The lookup of a well-formed id answers its person. -/
lemma answerOn_findJunjoUserId {c : IdentityDb} {k : Text} {row : ExternalIdentity}
    (hrow : c.externalIdentities.get? k = some row)
    (hwell : isUserIdWellFormed (c.formatsOf row.gameId) row.externalUserId = true) :
    answerOn c (findJunjoUserId none row.gameId row.externalUserId) =
      .ok (some row.junjoUserId) := by
  have hperson : c.personOf row.gameId row.externalUserId = some row.junjoUserId :=
    (IdentityRows.personOf_eq_some c.constraints).mpr ⟨k, row, hrow, rfl, rfl, rfl⟩
  have hassert : assertUserIdWellFormed (c.formatsOf row.gameId) row.externalUserId = pure () :=
    if_pos hwell
  have hanswer : answerOn c (findJunjoUserId none row.gameId row.externalUserId) =
      answerOn c (do
        assertUserIdWellFormed (c.formatsOf row.gameId) row.externalUserId
        query fun db => db.personOf row.gameId row.externalUserId) := rfl
  rw [hanswer, hassert, pure_bind]
  exact congrArg Except.ok hperson

/-- In every committed store every id matches the formats of its game, and a lookup by it finds its
person. -/
theorem storedIds_wellFormed (hashLinkCode : Text → Text) (collation : Text → Text → Bool)
    {start : IdentityDb} (hstart : StoredWellFormed start)
    {events : List (TxEvent IdentityRequest)} {server : IdentityServer}
    (hrun : IdentityServer.run hashLinkCode collation start events = some server) :
    ∀ k row, server.committed.externalIdentities.get? k = some row →
      isUserIdWellFormed (server.committed.formatsOf row.gameId) row.externalUserId = true ∧
        answerOn server.committed (findJunjoUserId none row.gameId row.externalUserId) =
          .ok (some row.junjoUserId) := by
  obtain ⟨hgood, -⟩ := Database.run_commits IdentityLock.conflicts_symm
    (keeps_program_formats hashLinkCode collation) (Database.good_start hstart) hrun
    fun _ e _ db₁ _ _ => Database.admitted (fun _ _ _ => trivial) db₁ e
  intro k row hrow
  have hwell := hgood.inv k row hrow
  exact ⟨hwell, answerOn_findJunjoUserId hrow hwell⟩

/-- A game without ids and formats. -/
def newGame : IdentityDb :=
  ⟨{ PeopleDb.empty with
      formats := Dict.empty.set (text "game") .none, linkCodes := Dict.empty, issued := ∅ },
    ⟨List.nodup_nil, fun _ h => absurd h List.not_mem_nil, List.nodup_nil,
      fun _ h => absurd h List.not_mem_nil, Finset.Subset.refl _,
      fun _ h => absurd h List.not_mem_nil, fun _ h => absurd h List.not_mem_nil⟩⟩

/-- Ids of the namespace `mc` are UUIDs. -/
def uuidFormats : DeclaredFormats where
  formats := Dict.empty.set (text "mc") .uuid
  bounded := by decide
  valid := by
    intro ns hns
    obtain rfl := List.mem_singleton.mp hns
    exact ⟨by decide, by decide, List.all_eq_true.mp (by decide)⟩

/-- A new id is checked before a format is declared for its namespace, and again after. -/
def declareWhileCreating : List (TxEvent IdentityRequest) :=
  [.start 0 (.findOrCreateJunjoUser none (text "game") (text "steam:7")
      ⟨text "ann", text "id-1"⟩ 0),
    .start 1 (.updateGameConfig (text "game") (some uuidFormats))] ++
    List.replicate 2 (.advance 0) ++ List.replicate 4 (.advance 1) ++ List.replicate 4 (.advance 0)

theorem storedIds_wellFormed_declareWhileCreating : ∃ server : IdentityServer,
    IdentityServer.run id (fun _ _ => true) newGame declareWhileCreating = some server ∧
      ∀ k row, server.committed.externalIdentities.get? k = some row →
        isUserIdWellFormed (server.committed.formatsOf row.gameId) row.externalUserId = true ∧
          answerOn server.committed (findJunjoUserId none row.gameId row.externalUserId) =
            .ok (some row.junjoUserId) := by
  have hrun : (IdentityServer.run id (fun _ _ => true) newGame declareWhileCreating).isSome =
      true := by decide +kernel
  obtain ⟨server, hserver⟩ := Option.isSome_iff_exists.mp hrun
  have hstart : StoredWellFormed newGame := fun k row hrow => absurd hrow (by simp [newGame, PeopleDb.empty])
  exact ⟨server, hserver, storedIds_wellFormed id (fun _ _ => true) hstart hserver⟩

end Runs

end Junjo.Identities
