import Junjo.Identities.Writes

/-!
# Links by code

A redemption consumes its code under a row lock and merges the two people whose rows it locks. It
found the person of the redeeming id before its transaction and does not look again, so an unlink of
that id in between makes it merge the wrong people. The codes of an id are deleted by statements
that do not see a code under way, so two requests for one id leave two codes, and a code that is
issued while its id is unlinked outlives the unlink. Where no commit is disturbed like this, links
are as promised (`links_hold`).
-/

namespace Junjo.Identities

/-! ### What every commit does -/

namespace IdentityRows

variable (r : IdentityRows)

/-- The codes issued for an id. -/
def linkCodesOf (externalIdentityId : Text) : List Text :=
  r.linkCodesWhere fun c => c.externalIdentityId = externalIdentityId

/-- The person who holds an id, by its row. -/
def holder (externalIdentityId : Text) : Option Text :=
  (r.externalIdentities.get? externalIdentityId).map ExternalIdentity.junjoUserId

variable {r}

lemma mem_linkCodesWhere {p : LinkCode → Bool} {k : Text} :
    k ∈ r.linkCodesWhere p ↔ ∃ c, r.linkCodes.get? k = some c ∧ p c = true := by
  rw [linkCodesWhere, List.mem_map]
  constructor
  · rintro ⟨⟨k, c⟩, he, rfl⟩
    obtain ⟨hmem, hp⟩ := List.mem_filter.mp he
    exact ⟨c, Dict.get?_eq_some_iff.mpr hmem, hp⟩
  · rintro ⟨c, hc, hp⟩
    exact ⟨(k, c), List.mem_filter.mpr ⟨Dict.get?_eq_some_iff.mp hc, hp⟩, rfl⟩

lemma mem_linkCodesOf {i k : Text} :
    k ∈ r.linkCodesOf i ↔ ∃ c, r.linkCodes.get? k = some c ∧ c.externalIdentityId = i := by
  rw [linkCodesOf, mem_linkCodesWhere]
  simp only [decide_eq_true_eq]

lemma holder_eq_some {i p : Text} :
    r.holder i = some p ↔ ∃ row, r.externalIdentities.get? i = some row ∧ row.junjoUserId = p :=
  Option.map_eq_some_iff

/-- The holder of an id is a person. -/
lemma mem_people_of_holder (h : r.Constraints) {i p : Text} (hp : r.holder i = some p) :
    p ∈ r.people := by
  obtain ⟨row, hrow, rfl⟩ := holder_eq_some.mp hp
  exact h.ownedId (i, row) (Dict.get?_eq_some_iff.mp hrow)

end IdentityRows

/-- What a commit with some locks may do: a code changes under its lock only, and an id leaves its
person when that person is merged into another, or when its codes go. -/
structure LinksMove (held : List IdentityLock) (c c' : IdentityRows) : Prop where
  issued : c.issued ⊆ c'.issued
  people : ∀ p ∈ c'.people, p ∈ c.people ∨ p ∉ c.issued
  codes : ∀ k row', c'.linkCodes.get? k = some row' → k ∉ c.issued ∨
    ∃ row, c.linkCodes.get? k = some row ∧ row'.codeHash = row.codeHash ∧
      row'.externalIdentityId = row.externalIdentityId ∧ (row.usedAt ≠ none → row'.usedAt ≠ none)
  kept : ∀ k row, c.linkCodes.get? k = some row → IdentityLock.linkCode k ∉ held →
    c'.linkCodes.get? k = some row
  ids : ∀ i row, c.externalIdentities.get? i = some row → ∃ row',
    c'.externalIdentities.get? i = some row' ∧ row'.gameId = row.gameId ∧
      row'.externalUserId = row.externalUserId ∧ (row'.junjoUserId = row.junjoUserId ∨
        row.junjoUserId ∉ c'.people ∨ ∀ k ∈ c.linkCodesOf i,
          IdentityLock.linkCode k ∈ held ∧ c'.linkCodes.get? k = none)

/-- No id has two codes. -/
def SingleCode (c : IdentityDb) : Prop :=
  ∀ k k' row row', c.linkCodes.get? k = some row → c.linkCodes.get? k' = some row' →
    row.externalIdentityId = row'.externalIdentityId → k = k'

/-- The ids of one person go to another, and no other id moves: `issuerId` and the redeeming id are
on one person afterwards, and the ids that moved were on the people who held these two. -/
structure Links (c c' : IdentityRows) (issuerId gameId userId : Text) : Prop where
  together : ∃ redeemerId row, c.externalIdentities.get? redeemerId = some row ∧
    row.gameId = gameId ∧ row.externalUserId = userId ∧ c'.holder issuerId ≠ none ∧
      c'.holder redeemerId = c'.holder issuerId
  others : ∀ i p, c.holder i = some p → c'.holder i ≠ some p →
    c.holder issuerId = some p ∨ c.personOf gameId userId = some p

/-- A redemption consumes an unused code and links its id. -/
structure Redeems (hashLinkCode : Text → Text) (linkCodeId code gameId userId : Text)
    (c c' : IdentityRows) : Prop where
  consumes : ∃ row row', c.linkCodes.get? linkCodeId = some row ∧ row.usedAt = none ∧
    row.codeHash = hashLinkCode code ∧ c'.linkCodes.get? linkCodeId = some row' ∧ row'.usedAt ≠ none
  links : ∀ row, c.linkCodes.get? linkCodeId = some row →
    Links c c' row.externalIdentityId gameId userId

/-- A new code is the only one of its id. -/
def Issues (hashLinkCode : Text → Text) (linkCodeId code externalIdentityId : Text)
    (c c' : IdentityRows) : Prop :=
  linkCodeId ∉ c.issued ∧ ∃ row, c'.linkCodes.get? linkCodeId = some row ∧
    row.externalIdentityId = externalIdentityId ∧ row.codeHash = hashLinkCode code

def LinksEffect (hashLinkCode : Text → Text) (a : IdentityResult) (held : List IdentityLock)
    (c c' : IdentityDb) : Prop :=
  LinksMove held c.toIdentityRows c'.toIdentityRows ∧
    match a with
    | .issued k code i => Issues hashLinkCode k code i c.toIdentityRows c'.toIdentityRows
    | .redeemed k code gameId userId =>
      Redeems hashLinkCode k code gameId userId c.toIdentityRows c'.toIdentityRows
    | .unlinked i => c'.linkCodesOf i = []
    | _ => True

/-- What may not happen between the statements of a transaction and its commit. The redeeming id
of a redemption keeps the person whom the request found for it, and no code comes for the id of an
issue or an unlink after the statement that deletes its codes. -/
def Undisturbed : IdentityResult → List IdentityDb → IdentityDb → Prop
  | .redeemed _ _ gameId userId, seen, c => ∀ view ∈ seen[2]?,
    c.personOf gameId userId = view.personOf gameId userId
  | .issued _ _ i, seen, c => ∀ view ∈ seen[4]?, c.linkCodesOf i ⊆ view.linkCodesOf i
  | .unlinked i, seen, c => ∀ view ∈ seen[7]?, c.linkCodesOf i ⊆ view.linkCodesOf i
  | _, _, _ => True

instance decidableUndisturbed : ∀ a seen c, Decidable (Undisturbed a seen c)
  | .redeemed _ _ gameId userId, seen, c => inferInstanceAs
    (Decidable (∀ view ∈ seen[2]?, c.personOf gameId userId = view.personOf gameId userId))
  | .issued _ _ i, seen, c =>
    inferInstanceAs (Decidable (∀ view ∈ seen[4]?, c.linkCodesOf i ⊆ view.linkCodesOf i))
  | .unlinked i, seen, c =>
    inferInstanceAs (Decidable (∀ view ∈ seen[7]?, c.linkCodesOf i ⊆ view.linkCodesOf i))
  | .configured _, _, _ => inferInstanceAs (Decidable True)
  | .person _, _, _ => inferInstanceAs (Decidable True)
  | .imported _, _, _ => inferInstanceAs (Decidable True)
  | .other, _, _ => inferInstanceAs (Decidable True)

def linksDiscipline (hashLinkCode : Text → Text) :
    Discipline IdentityDb IdentityLock IdentityResult where
  inv := SingleCode
  effect := LinksEffect hashLinkCode
  admits := Undisturbed

/-! ### Writes that leave codes and holders -/

/-- No change of a code, and no id leaves its person. -/
structure LeavesLinks (c c' : IdentityRows) : Prop where
  issued : c.issued ⊆ c'.issued
  people : ∀ p ∈ c'.people, p ∈ c.people ∨ p ∉ c.issued
  linkCodes : c'.linkCodes = c.linkCodes
  ids : ∀ i row, c.externalIdentities.get? i = some row → c'.externalIdentities.get? i = some row

namespace LeavesLinks

variable {c c' c'' : IdentityRows}

lemma refl (c : IdentityRows) : LeavesLinks c c :=
  ⟨Finset.Subset.refl _, fun _ hp => .inl hp, rfl, fun _ _ h => h⟩

lemma trans (h : LeavesLinks c c') (h' : LeavesLinks c' c'') : LeavesLinks c c'' := by
  refine ⟨h.issued.trans h'.issued, fun p hp => ?_, h'.linkCodes.trans h.linkCodes,
    fun i row hrow => h'.ids i row (h.ids i row hrow)⟩
  rcases h'.people p hp with hp | hp
  · exact h.people p hp
  · exact .inr fun hissued => hp (h.issued hissued)

lemma move (h : LeavesLinks c c') (held : List IdentityLock) : LinksMove held c c' where
  issued := h.issued
  people := h.people
  codes _ row' hrow' := .inr ⟨row', h.linkCodes ▸ hrow', rfl, rfl, id⟩
  kept _ _ hrow _ := h.linkCodes ▸ hrow
  ids i row hrow := ⟨row, h.ids i row hrow, rfl, rfl, .inl rfl⟩

lemma insertPerson {id : Text} (h : c.insertPerson id = some c') : LeavesLinks c c' := by
  rw [IdentityRows.insertPerson] at h
  split_ifs at h with hid
  cases h
  refine ⟨Finset.subset_insert _ _, fun p hp => ?_, rfl, fun _ _ h => h⟩
  rcases Finset.mem_insert.mp hp with rfl | hp
  · exact .inr hid
  · exact .inl hp

lemma insertIdentity {id : Text} {row : ExternalIdentity} (hc : ∀ i ∈ c.externalIdentities.keys,
    i ∈ c.issued) (h : c.insertIdentity id row = some c') :
    LeavesLinks c c' ∧ ∀ i ∈ c'.externalIdentities.keys, i ∈ c'.issued := by
  rw [IdentityRows.insertIdentity] at h
  split_ifs at h with hid
  cases h
  refine ⟨⟨Finset.subset_insert _ _, fun p hp => .inl hp, rfl, fun i row hrow => ?_⟩,
    fun i hi => ?_⟩
  · have hne : i ≠ id := by
      rintro rfl
      exact hid (hc i (Dict.mem_keys_iff.mpr ⟨row, hrow⟩))
    exact (Dict.get?_set_of_ne _ _ hne).trans hrow
  · rcases Dict.mem_keys_set.mp hi with rfl | hi
    · exact Finset.mem_insert_self _ _
    · exact Finset.mem_insert_of_mem (hc i hi)

lemma insertPeople {rows : List ImportRow} {c c' : IdentityRows}
    (h : rows.foldlM (fun r row => r.insertPerson row.new.junjoUserId) c = some c') :
    LeavesLinks c c' := by
  induction rows generalizing c with
  | nil =>
    obtain rfl := Option.some.inj h
    exact refl c
  | cons row rows ih =>
    rw [List.foldlM_cons] at h
    obtain ⟨c₁, hc₁, hrest⟩ := Option.bind_eq_some_iff.mp h
    exact (insertPerson hc₁).trans (ih hrest)

lemma createPeople {gameId : Text} {now : ℤ} {rows : List ImportRow} {c c' : IdentityRows}
    (hc : ∀ i ∈ c.externalIdentities.keys, i ∈ c.issued)
    (h : rows.foldlM (fun r row => r.insertIdentity row.new.externalIdentityId
      ⟨gameId, row.new.junjoUserId, row.userId, now⟩) c = some c') : LeavesLinks c c' := by
  induction rows generalizing c with
  | nil =>
    obtain rfl := Option.some.inj h
    exact refl c
  | cons row rows ih =>
    rw [List.foldlM_cons] at h
    obtain ⟨c₁, hc₁, hrest⟩ := Option.bind_eq_some_iff.mp h
    obtain ⟨hstep, hkeys⟩ := insertIdentity hc hc₁
    exact hstep.trans (ih hkeys hrest)

/-- What a commit keeps that leaves codes and holders. -/
lemma single {c c' : IdentityDb} (h : LeavesLinks c.toIdentityRows c'.toIdentityRows)
    (hc : SingleCode c) : SingleCode c' := by
  intro k k' row row' hrow hrow' hsame
  rw [h.linkCodes] at hrow hrow'
  exact hc k k' row row' hrow hrow' hsame

end LeavesLinks

section Programs

/-- A result that issues, redeems and unlinks nothing. -/
def IdentityResult.IsPlain : IdentityResult → Prop
  | .issued .. | .redeemed .. | .unlinked .. => False
  | _ => True

/-- A program all of whose changes leave codes and holders. -/
abbrev Elsewhere {ρ : Type} (post : ρ → Prop) (p : IdentityTx ρ) : Prop :=
  Within (fun c c' : IdentityDb => LeavesLinks c.toIdentityRows c'.toIdentityRows) post p

lemma elsewhere_query {ρ : Type} (reply : IdentityDb → ρ) :
    Elsewhere (fun _ => True) (query reply : IdentityTx ρ) :=
  Within.query (fun c : IdentityDb => LeavesLinks.refl c.toIdentityRows) reply

lemma elsewhere_lockQuery {ρ : Type} (locks : IdentityDb → List IdentityLock)
    (reply : IdentityDb → ρ) : Elsewhere (fun _ => True) (lockQuery locks reply : IdentityTx ρ) :=
  Within.lockQuery (fun c : IdentityDb => LeavesLinks.refl c.toIdentityRows) locks reply

lemma elsewhere_bind {ρ τ : Type} {p : IdentityTx ρ} {f : ρ → IdentityTx τ} {post : τ → Prop}
    (hp : Elsewhere (fun _ => True) p) (hf : ∀ a, Elsewhere post (f a)) :
    Elsewhere post (p >>= f) :=
  Within.bind hp fun a _ => hf a

lemma elsewhere_throw {ρ : Type} {post : ρ → Prop} (e : IdentityError) :
    Elsewhere post (throw e : IdentityTx ρ) := trivial

lemma elsewhere_update {f : IdentityRows → Option IdentityRows}
    (hf : ∀ c : IdentityDb, ∀ c', f c.toIdentityRows = some c' → LeavesLinks c.toIdentityRows c')
    (locks : List IdentityLock) : Elsewhere (fun _ => True) (update locks f) :=
  Within.write _ _ fun c _ h => hf c _ (IdentityDb.change_eq_some.mp h)

lemma elsewhere_assert (declared : DeclaredFormats) (userId : Text) :
    Elsewhere (fun _ => True) (assertUserIdWellFormed declared userId) := by
  unfold assertUserIdWellFormed
  split
  · trivial
  · exact elsewhere_throw _

lemma elsewhere_findFormatConflicts (collation : Text → Text → Bool) (gameId : Text)
    (previous : DeclaredFormats) (entries : List (Text × UserIdFormat)) (conflicts : List Text) :
    Elsewhere (fun _ => True) (findFormatConflicts collation gameId previous entries conflicts) := by
  induction entries generalizing conflicts with
  | nil => trivial
  | cons entry entries ih =>
    rw [findFormatConflicts]
    split
    · exact ih _
    · refine elsewhere_bind (elsewhere_query _) fun rows => ?_
      dsimp only
      split
      · trivial
      · exact ih _

lemma elsewhere_updateGameConfig (collation : Text → Text → Bool) (gameId : Text)
    (formats : Option DeclaredFormats) :
    Elsewhere IdentityResult.IsPlain (updateGameConfig collation gameId formats) := by
  unfold updateGameConfig
  refine elsewhere_bind (elsewhere_lockQuery _ _) fun existing => ?_
  cases existing with
  | none => exact elsewhere_throw _
  | some before =>
    refine elsewhere_bind (elsewhere_findFormatConflicts _ _ _ _ _) fun conflicts => ?_
    split
    · exact elsewhere_throw _
    · refine elsewhere_bind (elsewhere_update ?_ _) fun _ => trivial
      intro c c' h
      rw [← Option.some.inj h]
      exact ⟨Finset.Subset.refl _, fun _ hp => .inl hp, rfl, fun _ _ h => h⟩

lemma elsewhere_recheckFormat (gameId userId : Text) :
    Elsewhere (fun _ => True) (recheckFormat gameId userId) := by
  unfold recheckFormat
  split
  · exact elsewhere_bind (elsewhere_lockQuery _ _) fun declared => elsewhere_assert _ _
  · trivial

lemma elsewhere_findOrCreateJunjoUser (memo : Option DeclaredFormats) (gameId userId : Text)
    (new : NewPerson) (now : ℤ) :
    Elsewhere IdentityResult.IsPlain (findOrCreateJunjoUser memo gameId userId new now) := by
  unfold findOrCreateJunjoUser
  refine elsewhere_bind (elsewhere_query _) fun declared => ?_
  refine elsewhere_bind (elsewhere_assert _ _) fun _ => ?_
  refine elsewhere_bind (elsewhere_query _) fun existing => ?_
  cases existing with
  | some person => trivial
  | none =>
    refine elsewhere_bind (elsewhere_recheckFormat _ _) fun _ => ?_
    refine elsewhere_bind (elsewhere_update (fun _ _ => LeavesLinks.insertPerson) _) fun _ => ?_
    refine elsewhere_bind (elsewhere_update ?_ _) fun _ => trivial
    exact fun c c' h => (LeavesLinks.insertIdentity c.constraints.issuedIds h).1

lemma elsewhere_runImport (gameId : Text) (rows : List ImportRow) (fails : IdentityDb → Bool)
    (now : ℤ) : Elsewhere IdentityResult.IsPlain (runImport gameId rows fails now) := by
  unfold runImport
  refine elsewhere_bind (elsewhere_lockQuery _ _) fun declared => ?_
  split
  · exact elsewhere_throw _
  split
  · exact elsewhere_throw _
  refine elsewhere_bind (elsewhere_query _) fun unknown => ?_
  refine elsewhere_bind (elsewhere_query _) fun failed => ?_
  split
  · exact elsewhere_throw _
  refine elsewhere_bind ?_ fun _ => trivial
  unfold createPeople
  refine elsewhere_bind (elsewhere_update (fun _ _ => LeavesLinks.insertPeople) _) fun _ => ?_
  exact elsewhere_update (fun c _ => LeavesLinks.createPeople c.constraints.issuedIds) _

end Programs

section Rule

variable (hashLinkCode : Text → Text)

/-- A program that leaves codes and holders does what it should. -/
lemma Elsewhere.keeps {p : IdentityTx IdentityResult} (h : Elsewhere IdentityResult.IsPlain p)
    (c : IdentityDb) :
    Keeps IdentityLock.conflicts (linksDiscipline hashLinkCode) p [] some [] c := by
  refine Within.keeps h (fun _ _ _ => LeavesLinks.trans) ?_ ?_
  · intro a held c c' ha hinv hleaves
    refine ⟨hleaves.single hinv, hleaves.move held, ?_⟩
    cases a with
    | issued k code i => exact ha.elim
    | redeemed k code gameId userId => exact ha.elim
    | unlinked i => exact ha.elim
    | configured gameId => trivial
    | person junjoUserId => trivial
    | imported gameId => trivial
    | other => trivial
  · exact fun _ _ hc => Option.some.inj hc ▸ LeavesLinks.refl _

/-! ### What stays while others commit -/

variable {hashLinkCode} {held : List IdentityLock} {c c' : IdentityDb}

/-- What each commit that goes with the locks keeps. -/
lemma links_evolves (h : Evolves IdentityLock.conflicts (linksDiscipline hashLinkCode) held c c')
    {P : IdentityDb → Prop} (hstep : ∀ c₁ c₂ held',
      Compatible IdentityLock.conflicts held held' →
      LinksMove held' c₁.toIdentityRows c₂.toIdentityRows → P c₁ → P c₂) (hc : P c) : P c' :=
  h.preserves (fun c₁ c₂ _ held' _ _ hcompat heffect hP => hstep c₁ c₂ held' hcompat heffect.1 hP) hc

/-- What is known of a code once it was found: the id and the hash it is for. -/
def CodeFor (k i codeHash : Text) (c : IdentityDb) : Prop :=
  k ∈ c.issued ∧ ∀ row, c.linkCodes.get? k = some row →
    row.externalIdentityId = i ∧ row.codeHash = codeHash

lemma CodeFor.evolves {k i codeHash : Text} (hc : CodeFor k i codeHash c)
    (h : Evolves IdentityLock.conflicts (linksDiscipline hashLinkCode) held c c') :
    CodeFor k i codeHash c' := by
  refine links_evolves h (P := CodeFor k i codeHash) ?_ hc
  intro c₁ c₂ _ _ hmove ⟨hissued, hcode⟩
  refine ⟨hmove.issued hissued, fun row' hrow' => ?_⟩
  rcases hmove.codes k row' hrow' with hnew | ⟨row, hrow, hhash, hid, -⟩
  · exact absurd hissued hnew
  · rw [hid, hhash]
    exact hcode row hrow

lemma codeFor_of_get? {k : Text} {row : LinkCode} (hrow : c.linkCodes.get? k = some row) :
    CodeFor k row.externalIdentityId row.codeHash c := by
  refine ⟨c.constraints.issuedCodes k (Dict.mem_keys_iff.mpr ⟨row, hrow⟩), fun row' hrow' => ?_⟩
  obtain rfl := Option.some.inj (hrow.symm.trans hrow')
  exact ⟨rfl, rfl⟩

/-- While its code is there, an id stays with a person who is not merged into another. -/
def HeldBy (k i p : Text) (c : IdentityDb) : Prop :=
  k ∈ c.issued ∧ p ∈ c.issued ∧ ∀ row, c.linkCodes.get? k = some row →
    row.externalIdentityId = i ∧ (p ∈ c.people → c.holder i = some p)

lemma HeldBy.evolves {k i p : Text} (hc : HeldBy k i p c)
    (h : Evolves IdentityLock.conflicts (linksDiscipline hashLinkCode) held c c') :
    HeldBy k i p c' := by
  refine links_evolves h (P := HeldBy k i p) ?_ hc
  intro c₁ c₂ _ _ hmove ⟨hk, hp, hcode⟩
  refine ⟨hmove.issued hk, hmove.issued hp, fun row' hrow' => ?_⟩
  rcases hmove.codes k row' hrow' with hnew | ⟨row, hrow, -, hid, -⟩
  · exact absurd hk hnew
  obtain ⟨hi, hholder⟩ := hcode row hrow
  refine ⟨hid.trans hi, fun hpeople => ?_⟩
  have hp₁ : p ∈ c₁.people := (hmove.people p hpeople).resolve_right (not_not.mpr hp)
  obtain ⟨row₁, hrow₁, hperson⟩ := IdentityRows.holder_eq_some.mp (hholder hp₁)
  obtain ⟨row₂, hrow₂, -, -, hsame | hmerged | hgone⟩ := hmove.ids i row₁ hrow₁
  · exact IdentityRows.holder_eq_some.mpr ⟨row₂, hrow₂, hsame.trans hperson⟩
  · exact absurd (hperson ▸ hpeople) hmerged
  · have hnone := (hgone k (IdentityRows.mem_linkCodesOf.mpr ⟨row, hrow, hi⟩)).2
    rw [hnone] at hrow'
    cases hrow'

/-- A locked code stays as it is. -/
lemma code_evolves {k : Text} {row : LinkCode}
    (h : Evolves IdentityLock.conflicts (linksDiscipline hashLinkCode) held c c')
    (hlock : IdentityLock.linkCode k ∈ held) (hrow : c.linkCodes.get? k = some row) :
    c'.linkCodes.get? k = some row := by
  refine links_evolves h (P := fun c => c.linkCodes.get? k = some row) ?_ hrow
  intro c₁ c₂ held' hcompat hmove hrow
  apply hmove.kept k row hrow
  intro hmem
  have hconflict := hcompat _ hlock _ hmem
  simp [IdentityLock.conflicts] at hconflict

/-! ### Issuing a code -/

/-- What follows the deletion of codes: they are locked, and gone at the commit. -/
lemma keeps_deleteLinkCodesWhere {q : LinkCode → Bool} {k : Unit → IdentityTx IdentityResult}
    {change : IdentityDb → Option IdentityDb} {seen : List IdentityDb}
    (h : ∀ view c' seen', change c = some view →
      Keeps IdentityLock.conflicts (linksDiscipline hashLinkCode) (k ())
        (held ++ (view.linkCodesWhere q).map .linkCode)
        (fun c => (change c).bind
          (IdentityDb.change fun r => some (r.deleteLinkCodes (view.linkCodesWhere q))))
        (seen ++ view :: seen') c') :
    Keeps IdentityLock.conflicts (linksDiscipline hashLinkCode) (deleteLinkCodesWhere q >>= k) held
      change seen c := by
  rw [deleteLinkCodesWhere, bind_assoc, keeps_lockQuery]
  intro _ view hview c₁ _
  rw [update, keeps_write]
  intro _ view₁ _ c₂ _
  rw [List.append_nil, List.append_assoc]
  exact h view c₂ [view₁] hview

lemma get?_deleteLinkCodes {r : IdentityRows} {ids : List Text} {k : Text} {row : LinkCode} :
    (r.deleteLinkCodes ids).linkCodes.get? k = some row ↔
      r.linkCodes.get? k = some row ∧ k ∉ ids := by
  rw [IdentityRows.deleteLinkCodes, Dict.get?_deleteMany_eq_some_iff, decide_eq_false_iff_not]

/-- A commit that deletes locked codes, among them all of an id, and adds one for it. -/
lemma issued_effect {c' : IdentityDb} {r : IdentityRows} {ids : List Text}
    {k code i : Text} {row : LinkCode} (hids : ∀ k ∈ ids, IdentityLock.linkCode k ∈ held)
    (hall : ∀ k ∈ c.linkCodesOf i, k ∈ ids) (hrow : row.externalIdentityId = i)
    (hhash : row.codeHash = hashLinkCode code) (hinv : SingleCode c)
    (hdelete : c.toIdentityRows.deleteLinkCodes ids = r)
    (hinsert : r.insertLinkCode k row = some c'.toIdentityRows) :
    SingleCode c' ∧ LinksEffect hashLinkCode (.issued k code i) held c c' := by
  subst hdelete
  rw [IdentityRows.insertLinkCode] at hinsert
  split_ifs at hinsert with hk
  have hc' := (Option.some.inj hinsert).symm
  have hcodes : ∀ j row', c'.linkCodes.get? j = some row' →
      (j = k ∧ row' = row) ∨ (j ≠ k ∧ c.linkCodes.get? j = some row' ∧ j ∉ ids) := by
    intro j row' hrow'
    rw [hc', Dict.get?_set] at hrow'
    split_ifs at hrow' with hj
    · exact .inl ⟨hj, (Option.some.inj hrow').symm⟩
    · exact .inr ⟨hj, get?_deleteLinkCodes.mp hrow'⟩
  have hnew : ∀ j row', c.linkCodes.get? j = some row' → j ≠ k := by
    rintro j row' hj rfl
    exact hk (c.constraints.issuedCodes j (Dict.mem_keys_iff.mpr ⟨row', hj⟩))
  have hother : ∀ j row', c.linkCodes.get? j = some row' → j ∉ ids →
      row'.externalIdentityId ≠ i := fun j row' hj hids hi =>
    hids (hall j (IdentityRows.mem_linkCodesOf.mpr ⟨row', hj, hi⟩))
  refine ⟨?_, ⟨?_, ?_, ?_, ?_, ?_⟩, hk, row, ?_, hrow, hhash⟩
  · intro j j' row₁ row₂ h₁ h₂ hsame
    rcases hcodes j row₁ h₁ with ⟨rfl, rfl⟩ | ⟨-, h₁, hj⟩
    · rcases hcodes j' row₂ h₂ with ⟨rfl, rfl⟩ | ⟨-, h₂, hj'⟩
      · rfl
      · exact absurd (hsame.symm.trans hrow) (hother j' row₂ h₂ hj')
    · rcases hcodes j' row₂ h₂ with ⟨rfl, rfl⟩ | ⟨-, h₂, hj'⟩
      · exact absurd (hsame.trans hrow) (hother j row₁ h₁ hj)
      · exact hinv j j' row₁ row₂ h₁ h₂ hsame
  · rw [hc']
    exact Finset.subset_insert _ _
  · intro p hp
    rw [hc'] at hp
    exact .inl hp
  · intro j row' hrow'
    rcases hcodes j row' hrow' with ⟨rfl, -⟩ | ⟨-, hold, -⟩
    · exact .inl hk
    · exact .inr ⟨row', hold, rfl, rfl, id⟩
  · intro j row' hold hlock
    rw [hc', Dict.get?_set_of_ne _ _ (hnew j row' hold)]
    exact get?_deleteLinkCodes.mpr ⟨hold, fun hj => hlock (hids j hj)⟩
  · intro j row' hold
    exact ⟨row', by rw [hc']; exact hold, rfl, rfl, .inl rfl⟩
  · rw [hc', Dict.get?_set_self]

lemma keeps_issue (memo : Option DeclaredFormats) (gameId userId code linkCodeId : Text) (now : ℤ)
    (c : IdentityDb) : Keeps IdentityLock.conflicts (linksDiscipline hashLinkCode)
      (issue hashLinkCode memo gameId userId code linkCodeId now) [] some [] c := by
  rw [issue, idFormatsFor, keeps_query]
  intro _ view hview c₁ _
  obtain rfl := Option.some.inj hview
  refine keeps_assert fun _ => ?_
  rw [keeps_query]
  intro _ view hview c₂ _
  obtain rfl := Option.some.inj hview
  cases c₁.personOf gameId userId with
  | none => trivial
  | some junjoUserId =>
    rw [keeps_query]
    intro _ view hview c₃ _
    obtain rfl := Option.some.inj hview
    cases c₂.findIdentity gameId userId with
    | none => trivial
    | some identity =>
      dsimp only
      split_ifs
      · trivial
      rw [keeps_query]
      intro _ view hview c₄ _
      obtain rfl := Option.some.inj hview
      split
      · trivial
      refine keeps_deleteLinkCodesWhere fun view c₅ seen' hview => ?_
      obtain rfl := Option.some.inj hview
      rw [update, keeps_write]
      intro _ view _ c₆ _
      rw [keeps_pure]
      intro hinv hadmits c' hc'
      obtain ⟨r, hdelete, hinsert⟩ := Option.bind_eq_some_iff.mp hc'
      rw [Option.bind_some, IdentityDb.change_eq_some] at hdelete
      rw [IdentityDb.change_eq_some] at hinsert
      refine issued_effect (fun k hk => ?_) (fun k hk => ?_) rfl rfl hinv
        (Option.some.inj hdelete) hinsert
      · simp [List.mem_map_of_mem hk]
      · have hmem := hadmits c₄ rfl hk
        obtain ⟨row, hrow, hi⟩ := IdentityRows.mem_linkCodesOf.mp hmem
        exact IdentityRows.mem_linkCodesWhere.mpr ⟨row, hrow, by simp [hi]⟩

/-! ### Unlinking an id -/

/-- A commit that moves an id to a new person and deletes its codes, all of them locked. -/
lemma unlinked_effect (hashLinkCode : Text → Text) {c' : IdentityDb} {r : IdentityRows} {ids : List Text} {i p : Text}
    {now : ℤ} (hids : ∀ k ∈ ids, IdentityLock.linkCode k ∈ held)
    (hall : ∀ k ∈ c.linkCodesOf i, k ∈ ids) (hinv : SingleCode c)
    (hperson : c.insertPerson p = some r)
    (hdelete : (r.updateIdentity i p now).deleteLinkCodes ids = c'.toIdentityRows) :
    SingleCode c' ∧ LinksEffect hashLinkCode (.unlinked i) held c c' := by
  rw [IdentityRows.insertPerson] at hperson
  split_ifs at hperson with hp
  obtain rfl := Option.some.inj hperson
  have hcodes : ∀ j row', c'.linkCodes.get? j = some row' ↔
      c.linkCodes.get? j = some row' ∧ j ∉ ids := by
    intro j row'
    rw [← hdelete]
    exact get?_deleteLinkCodes
  refine ⟨?_, ⟨?_, ?_, ?_, ?_, ?_⟩, ?_⟩
  · intro j j' row₁ row₂ h₁ h₂ hsame
    exact hinv j j' row₁ row₂ ((hcodes j row₁).mp h₁).1 ((hcodes j' row₂).mp h₂).1 hsame
  · rw [← hdelete]
    exact Finset.subset_insert _ _
  · intro q hq
    rw [← hdelete] at hq
    rcases Finset.mem_insert.mp hq with rfl | hq
    · exact .inr hp
    · exact .inl hq
  · intro j row' hrow'
    exact .inr ⟨row', ((hcodes j row').mp hrow').1, rfl, rfl, id⟩
  · intro j row' hold hlock
    exact (hcodes j row').mpr ⟨hold, fun hj => hlock (hids j hj)⟩
  · intro j row hrow
    have hnew : c'.externalIdentities.get? j = some (if j = i then
        { row with junjoUserId := p, linkedAt := now } else row) := by
      rw [← hdelete]
      exact (Dict.get?_updateMany _ _ _ j).trans (by simp [hrow])
    refine ⟨_, hnew, ?_⟩
    split_ifs with hj
    · refine ⟨rfl, rfl, .inr (.inr fun k hk => ⟨hids k (hall k (hj ▸ hk)), ?_⟩)⟩
      rw [Option.eq_none_iff_forall_ne_some]
      exact fun row' hrow' => ((hcodes k row').mp hrow').2 (hall k (hj ▸ hk))
    · exact ⟨rfl, rfl, .inl rfl⟩
  · show c'.linkCodesOf i = []
    rw [List.eq_nil_iff_forall_not_mem]
    intro k hk
    obtain ⟨row, hrow, hi⟩ := IdentityRows.mem_linkCodesOf.mp hk
    obtain ⟨hold, hgone⟩ := (hcodes k row).mp hrow
    exact hgone (hall k (IdentityRows.mem_linkCodesOf.mpr ⟨row, hold, hi⟩))

lemma keeps_unlink (memo : Option DeclaredFormats) (gameId userId newPersonId : Text) (now : ℤ)
    (c : IdentityDb) : Keeps IdentityLock.conflicts (linksDiscipline hashLinkCode)
      (unlink memo gameId userId newPersonId now) [] some [] c := by
  rw [unlink, findJunjoUserId, idFormatsFor, bind_assoc, keeps_query]
  intro _ view hview c₁ _
  obtain rfl := Option.some.inj hview
  rw [bind_assoc]
  refine keeps_assert fun _ => ?_
  rw [keeps_query]
  intro _ view hview c₂ _
  obtain rfl := Option.some.inj hview
  cases c₁.personOf gameId userId with
  | none => trivial
  | some junjoUserId =>
    rw [keeps_lockQuery]
    intro _ view hview c₃ _
    obtain rfl := Option.some.inj hview
    rw [keeps_query]
    intro _ view hview c₄ _
    obtain rfl := Option.some.inj hview
    split
    · trivial
    rename_i leaving _
    split_ifs
    · trivial
    rw [keeps_query]
    intro _ view hview c₅ _
    obtain rfl := Option.some.inj hview
    split
    · trivial
    rw [splitIdentity, bind_assoc, update, keeps_write]
    intro _ view₅ hview₅ c₆ _
    rw [bind_assoc, update, keeps_write]
    intro _ view₆ _ c₇ _
    refine keeps_deleteLinkCodesWhere fun view c₈ seen' hview => ?_
    rw [keeps_pure]
    intro hinv hadmits c' hc'
    obtain ⟨r₂, hupdate, hdelete⟩ := Option.bind_eq_some_iff.mp hc'
    obtain ⟨r₁, hperson, hupdate⟩ := Option.bind_eq_some_iff.mp hupdate
    rw [Option.bind_some, IdentityDb.change_eq_some] at hperson
    rw [IdentityDb.change_eq_some] at hupdate hdelete
    have hrows := Option.some.inj hdelete
    rw [← Option.some.inj hupdate] at hrows
    refine unlinked_effect hashLinkCode (fun k hk => ?_) (fun k hk => ?_) hinv hperson hrows
    · simp [List.mem_map_of_mem hk]
    · exact hadmits view rfl hk

/-! ### Redeeming a code -/

lemma keeps_lockPeople {k : Unit → IdentityTx IdentityResult}
    {change : IdentityDb → Option IdentityDb} (ids : List Text) {seen : List IdentityDb}
    (h : ∀ held' seen' c', held ⊆ held' →
      Evolves IdentityLock.conflicts (linksDiscipline hashLinkCode) held c c' →
      Keeps IdentityLock.conflicts (linksDiscipline hashLinkCode) (k ()) held' change
        (seen ++ seen') c') :
    Keeps IdentityLock.conflicts (linksDiscipline hashLinkCode) (lockPeople ids >>= k) held change
      seen c := by
  induction ids generalizing held seen c with
  | nil =>
    have hk := h held [] c (List.Subset.refl _) .refl
    rwa [List.append_nil] at hk
  | cons id ids ih =>
    rw [lockPeople, bind_assoc, keeps_lockQuery]
    intro _ view _ c₁ hc₁
    refine ih fun held' seen' c' hheld hc' => ?_
    rw [List.append_assoc]
    exact h held' (view :: seen') c' (List.Subset.trans (List.subset_append_left _ _) hheld)
      ((hc₁.mono (List.subset_append_left _ _)).trans (hc'.mono (List.subset_append_left _ _)))

/-- What follows the plan of a link: one of the two people survives. -/
lemma keeps_planLink {k : PeopleDb.LinkPlan → IdentityTx IdentityResult}
    {change : IdentityDb → Option IdentityDb} {seen : List IdentityDb}
    {gameId issuerId redeemerId : Text} {now : ℤ}
    (h : ∀ plan : PeopleDb.LinkPlan, ∀ held' seen' c',
      (plan.survivorId = issuerId ∧ plan.attachedId = redeemerId ∨
        plan.survivorId = redeemerId ∧ plan.attachedId = issuerId) → held ⊆ held' →
      Evolves IdentityLock.conflicts (linksDiscipline hashLinkCode) held c c' →
      Keeps IdentityLock.conflicts (linksDiscipline hashLinkCode) (k plan) held' change
        (seen ++ seen') c') :
    Keeps IdentityLock.conflicts (linksDiscipline hashLinkCode)
      (planLink gameId issuerId redeemerId now >>= k) held change seen c := by
  rw [planLink, bind_assoc, keeps_query]
  intro _ view₁ _ c₁ hc₁
  rw [bind_assoc]
  refine keeps_lockPeople _ fun held' seen' c₂ hheld hc₂ => ?_
  rw [bind_assoc, keeps_query]
  intro _ view₂ _ c₃ hc₃
  have hc : Evolves IdentityLock.conflicts (linksDiscipline hashLinkCode) held c c₃ :=
    hc₁.trans (hc₂.trans (hc₃.mono hheld))
  have hseen : seen ++ [view₁] ++ seen' ++ [view₂] = seen ++ (view₁ :: seen' ++ [view₂]) := by
    simp
  rw [hseen]
  unfold decideLink
  split_ifs
  · trivial
  · trivial
  · trivial
  · exact h _ held' _ c₃ (.inr ⟨rfl, rfl⟩) hheld hc
  · exact h _ held' _ c₃ (.inl ⟨rfl, rfl⟩) hheld hc

lemma mergeRows_spec {r r' : IdentityRows} {survivorId attachedId : Text} {now : ℤ}
    (h : r.mergeRows survivorId attachedId now = some r') (hne : survivorId ≠ attachedId) :
    r'.linkCodes = r.linkCodes ∧ r'.issued = r.issued ∧ attachedId ∈ r.people ∧
      r'.people = r.people.erase attachedId ∧ ∀ i, r'.externalIdentities.get? i =
        (r.externalIdentities.get? i).map fun row =>
          if row.junjoUserId = attachedId then
            { row with junjoUserId := survivorId, linkedAt := now }
          else row := by
  rw [IdentityRows.mergeRows, Option.map_eq_some_iff] at h
  obtain ⟨people, hpeople, rfl⟩ := h
  rw [PeopleDb.mergePeople, PeopleDb.deletePerson] at hpeople
  split_ifs at hpeople with hmem
  obtain rfl := Option.some.inj hpeople
  refine ⟨rfl, rfl, hmem, rfl, fun i => ?_⟩
  have hmoved : ∀ row, (r.moveIdentities survivorId attachedId now).externalIdentities.get? i =
      some row → row.junjoUserId ≠ attachedId := by
    intro row hrow
    rw [PeopleDb.moveIdentities, Dict.get?_updateMany, Option.map_eq_some_iff] at hrow
    obtain ⟨old, -, rfl⟩ := hrow
    split_ifs with hold
    · exact hne
    · simpa using hold
  have hget : (r.moveIdentities survivorId attachedId now).externalIdentities.get? i =
      (r.externalIdentities.get? i).map fun row =>
        if row.junjoUserId = attachedId then
          { row with junjoUserId := survivorId, linkedAt := now }
        else row := by
    simp [PeopleDb.moveIdentities, Dict.get?_updateMany]
  rw [← hget]
  cases hrow : (r.moveIdentities survivorId attachedId now).externalIdentities.get? i with
  | none =>
    rw [Option.eq_none_iff_forall_ne_some]
    intro row hdeleted
    have hold := (Dict.get?_deleteMany_eq_some_iff.mp hdeleted).1
    cases hrow.symm.trans hold
  | some row =>
    exact Dict.get?_deleteMany_of_get? hrow (decide_eq_false (hmoved row hrow))

/-- A commit that consumes a locked code and links its id. -/
lemma redeemed_effect {c' : IdentityDb} {k code gameId userId : Text} {now : ℤ} {row : LinkCode}
    (hlock : IdentityLock.linkCode k ∈ held) (hrow : c.linkCodes.get? k = some row)
    (hunused : row.usedAt = none) (hhash : row.codeHash = hashLinkCode code) (hinv : SingleCode c)
    (hcodes : c'.linkCodes = (c.useLinkCode k now).linkCodes) (hissued : c'.issued = c.issued)
    (hpeople : c'.people ⊆ c.people)
    (hids : ∀ i old, c.externalIdentities.get? i = some old → ∃ new,
      c'.externalIdentities.get? i = some new ∧ new.gameId = old.gameId ∧
        new.externalUserId = old.externalUserId ∧
        (new.junjoUserId = old.junjoUserId ∨ old.junjoUserId ∉ c'.people))
    (hlinks : Links c.toIdentityRows c'.toIdentityRows row.externalIdentityId gameId userId) :
    SingleCode c' ∧ LinksEffect hashLinkCode (.redeemed k code gameId userId) held c c' := by
  have hget : ∀ j, c'.linkCodes.get? j = (c.linkCodes.get? j).map fun old =>
      if (decide (j = k) && old.usedAt.isNone) = true then { old with usedAt := some now }
      else old := by
    intro j
    rw [hcodes, IdentityRows.useLinkCode, Dict.get?_updateMany]
  have hback : ∀ j new, c'.linkCodes.get? j = some new → ∃ old, c.linkCodes.get? j = some old ∧
      new.codeHash = old.codeHash ∧ new.externalIdentityId = old.externalIdentityId ∧
        (old.usedAt ≠ none → new.usedAt ≠ none) := by
    intro j new hnew
    rw [hget j, Option.map_eq_some_iff] at hnew
    obtain ⟨old, hold, rfl⟩ := hnew
    refine ⟨old, hold, ?_⟩
    split_ifs
    · exact ⟨rfl, rfl, fun _ => by simp⟩
    · exact ⟨rfl, rfl, id⟩
  refine ⟨?_, ⟨?_, ?_, ?_, ?_, ?_⟩, ⟨row, { row with usedAt := some now }, hrow, hunused, hhash,
    ?_, by simp⟩, fun row' hrow' => ?_⟩
  · intro j j' row₁ row₂ h₁ h₂ hsame
    obtain ⟨old₁, hold₁, -, hid₁, -⟩ := hback j row₁ h₁
    obtain ⟨old₂, hold₂, -, hid₂, -⟩ := hback j' row₂ h₂
    exact hinv j j' old₁ old₂ hold₁ hold₂ (hid₁.symm.trans (hsame.trans hid₂))
  · rw [hissued]
  · exact fun p hp => .inl (hpeople hp)
  · exact fun j new hnew => .inr (hback j new hnew)
  · intro j old hold hfree
    have hj : j ≠ k := fun hj => hfree (hj ▸ hlock)
    rw [hget j, hold]
    simp [hj]
  · intro i old hold
    obtain ⟨new, hnew, hgame, hid, hperson⟩ := hids i old hold
    exact ⟨new, hnew, hgame, hid, hperson.imp_right .inl⟩
  · rw [hget k, hrow]
    simp [hunused]
  · obtain rfl := Option.some.inj (hrow.symm.trans hrow')
    exact hlinks

lemma mem_people_of_personOf {gameId userId p : Text} (h : c.personOf gameId userId = some p) :
    p ∈ c.people := by
  obtain ⟨j, row, hrow, -, -, hperson⟩ := (IdentityRows.personOf_eq_some c.constraints).mp h
  exact IdentityRows.mem_people_of_holder c.constraints
    (IdentityRows.holder_eq_some.mpr ⟨row, hrow, hperson⟩)

/-- Two ids of one person are linked by a commit that moves no id. -/
lemma links_same {c' : IdentityDb} {i p gameId userId : Text}
    (hids : c'.externalIdentities = c.externalIdentities) (hissuer : c.holder i = some p)
    (hredeemer : c.personOf gameId userId = some p) :
    Links c.toIdentityRows c'.toIdentityRows i gameId userId := by
  have hholder : ∀ j, c'.holder j = c.holder j := fun j => by
    rw [IdentityRows.holder, IdentityRows.holder, hids]
  obtain ⟨j, row, hrow, hgame, hid, hperson⟩ :=
    (IdentityRows.personOf_eq_some c.constraints).mp hredeemer
  refine ⟨⟨j, row, hrow, hgame, hid, ?_, ?_⟩, fun m q hq hmoved => ?_⟩
  · rw [hholder, hissuer]
    simp
  · rw [hholder, hholder, hissuer]
    exact IdentityRows.holder_eq_some.mpr ⟨row, hrow, hperson⟩
  · rw [hholder] at hmoved
    exact absurd hq hmoved

/-- A merge of the people of two ids links them. -/
lemma links_merged {c' : IdentityDb} {r : IdentityRows} {i p q survivorId attachedId gameId
    userId : Text} {now : ℤ} (hids : r.externalIdentities = c.externalIdentities)
    (hmerge : r.mergeRows survivorId attachedId now = some c'.toIdentityRows)
    (hplan : survivorId = p ∧ attachedId = q ∨ survivorId = q ∧ attachedId = p) (hne : p ≠ q)
    (hissuer : c.holder i = some p) (hredeemer : c.personOf gameId userId = some q) :
    Links c.toIdentityRows c'.toIdentityRows i gameId userId := by
  have hsurvives : survivorId ≠ attachedId := by
    rcases hplan with ⟨rfl, rfl⟩ | ⟨rfl, rfl⟩
    · exact hne
    · exact hne.symm
  obtain ⟨-, -, -, -, hget⟩ := mergeRows_spec hmerge hsurvives
  have hholder : ∀ j, c'.holder j = (c.holder j).map fun x =>
      if x = attachedId then survivorId else x := by
    intro j
    rw [IdentityRows.holder, IdentityRows.holder, hget, hids, Option.map_map, Option.map_map]
    congr 1
    funext row
    simp only [Function.comp_apply]
    split_ifs <;> rfl
  have hboth : ∀ x, x = p ∨ x = q → (if x = attachedId then survivorId else x) = survivorId := by
    rintro x hx
    split_ifs with h
    · rfl
    · rcases hplan with ⟨rfl, rfl⟩ | ⟨rfl, rfl⟩
      · exact hx.resolve_right h
      · exact hx.resolve_left h
  obtain ⟨j, row, hrow, hgame, hid, hperson⟩ :=
    (IdentityRows.personOf_eq_some c.constraints).mp hredeemer
  have hj : c.holder j = some q := IdentityRows.holder_eq_some.mpr ⟨row, hrow, hperson⟩
  refine ⟨⟨j, row, hrow, hgame, hid, ?_, ?_⟩, fun m x hx hmoved => ?_⟩
  · rw [hholder, hissuer]
    simp
  · rw [hholder, hholder, hissuer, hj, Option.map_some, Option.map_some, hboth p (.inl rfl),
      hboth q (.inr rfl)]
  · rw [hholder, hx, Option.map_some] at hmoved
    have hattached : x = attachedId := by
      by_contra h
      exact hmoved (congrArg some (if_neg h))
    rw [hissuer, hredeemer, hattached]
    rcases hplan with ⟨-, rfl⟩ | ⟨-, rfl⟩
    · exact .inr rfl
    · exact .inl rfl

/-- A merge fails when the issuer of the code is no longer there. -/
lemma mem_people_of_merge {c' : IdentityDb} {r : IdentityRows} {p q survivorId attachedId gameId
    userId : Text} {now : ℤ} (hids : r.externalIdentities = c.externalIdentities)
    (hpeople : r.people = c.people)
    (hmerge : r.mergeRows survivorId attachedId now = some c'.toIdentityRows)
    (hplan : survivorId = p ∧ attachedId = q ∨ survivorId = q ∧ attachedId = p) (hne : p ≠ q)
    (hredeemer : c.personOf gameId userId = some q) : p ∈ c.people := by
  rcases hplan with ⟨rfl, rfl⟩ | ⟨rfl, rfl⟩
  · obtain ⟨-, -, -, herase, hget⟩ := mergeRows_spec hmerge hne
    obtain ⟨j, row, hrow, -, -, hperson⟩ :=
      (IdentityRows.personOf_eq_some c.constraints).mp hredeemer
    have hj : c'.holder j = some survivorId := by
      rw [IdentityRows.holder, hget, hids, hrow]
      simp [hperson]
    have hmem := IdentityRows.mem_people_of_holder c'.constraints hj
    rw [herase, hpeople] at hmem
    exact Finset.mem_of_mem_erase hmem
  · obtain ⟨-, -, hmem, -, -⟩ := mergeRows_spec hmerge hne.symm
    exact hpeople ▸ hmem

lemma keeps_redeem (memo : Option DeclaredFormats) (gameId userId code : Text) (now : ℤ)
    (c : IdentityDb) : Keeps IdentityLock.conflicts (linksDiscipline hashLinkCode)
      (redeem hashLinkCode memo gameId userId code now) [] some [] c := by
  rw [redeem, idFormatsFor, keeps_query]
  intro _ view hview c₁ _
  obtain rfl := Option.some.inj hview
  refine keeps_assert fun _ => ?_
  rw [keeps_query]
  intro _ view hview c₂ _
  obtain rfl := Option.some.inj hview
  split
  · trivial
  rw [keeps_query]
  intro _ view hview c₃ hc₃
  obtain rfl := Option.some.inj hview
  cases hresolved : c₂.personOf gameId userId with
  | none => trivial
  | some redeemerId =>
    rw [keeps_query]
    intro _ view hview c₄ hc₄
    obtain rfl := Option.some.inj hview
    cases hfound : c₃.findLinkCode gameId (hashLinkCode code) with
    | none => trivial
    | some found =>
      obtain ⟨k, found⟩ := found
      obtain ⟨hget, -, hhash⟩ :=
        (IdentityRows.findLinkCode_eq_some c₃.constraints).mp hfound
      have hfor := hhash ▸ codeFor_of_get? hget
      dsimp only
      split
      · trivial
      rw [keeps_query]
      intro _ view hview c₅ hc₅
      obtain rfl := Option.some.inj hview
      cases hissuer : c₄.externalIdentities.get? found.externalIdentityId with
      | none => trivial
      | some issuer =>
        have hfor₄ := hfor.evolves hc₄
        have hissuer₄ : c₄.holder found.externalIdentityId = some issuer.junjoUserId :=
          IdentityRows.holder_eq_some.mpr ⟨issuer, hissuer, rfl⟩
        have hheld : HeldBy k found.externalIdentityId issuer.junjoUserId c₄ :=
          ⟨hfor₄.1, c₄.constraints.issuedPeople
            (IdentityRows.mem_people_of_holder c₄.constraints hissuer₄),
            fun row hrow => ⟨(hfor₄.2 row hrow).1, fun _ => hissuer₄⟩⟩
        dsimp only
        split
        · trivial
        rw [consume, keeps_write]
        intro _ view hview c₆ hc₆
        obtain rfl := Option.some.inj hview
        cases hconsumed : (c₅.linkCodes.get? k).any fun c => c.usedAt.isNone with
        | false => trivial
        | true =>
          rw [hconsumed, if_pos rfl] at hc₆
          obtain ⟨row, hrow, hunused⟩ := (Option.any_eq_true _ _).mp hconsumed
          have hlock : IdentityLock.linkCode k ∈ [] ++ [IdentityLock.linkCode k] :=
            List.mem_append_right _ List.mem_cons_self
          have hrow₆ := code_evolves hc₆ hlock hrow
          have hheld₆ := (hheld.evolves hc₅).evolves hc₆
          have hfor₆ := (hfor₄.evolves hc₅).evolves hc₆
          rw [if_neg (by decide), if_pos rfl]
          split_ifs with hsame
          · rw [keeps_pure]
            intro hinv hadmits c' hc'
            rw [Option.bind_some, IdentityDb.change_eq_some] at hc'
            have hrows := Option.some.inj hc'
            have hredeemer := (hadmits c₂ rfl).trans hresolved
            rw [← hsame] at hredeemer
            have hissuer₆ := (hheld₆.2.2 row hrow₆).2 (mem_people_of_personOf hredeemer)
            have hids : c'.externalIdentities = c₆.externalIdentities := by rw [← hrows]; rfl
            rw [← (hheld₆.2.2 row hrow₆).1] at hissuer₆
            refine redeemed_effect hlock hrow₆ (Option.isNone_iff_eq_none.mp hunused)
              (hfor₆.2 row hrow₆).2 hinv (by rw [← hrows]) (by rw [← hrows]; rfl)
              (by rw [← hrows]; exact Finset.Subset.refl _) (fun i old hold => ?_)
              (links_same hids hissuer₆ hredeemer)
            exact ⟨old, hids ▸ hold, rfl, rfl, .inl rfl⟩
          · refine keeps_planLink fun plan held' seen' c₇ hplan hheld' hc₇ => ?_
            rw [update, keeps_write]
            intro _ view _ c₈ hc₈
            rw [keeps_pure]
            intro hinv hadmits c' hc'
            have hc₆₈ : Evolves IdentityLock.conflicts (linksDiscipline hashLinkCode)
                ([] ++ [IdentityLock.linkCode k]) c₆ c₈ :=
              hc₇.trans ((hc₈.mono (List.subset_append_left _ _)).mono hheld')
            have hrow₈ := code_evolves hc₆₈ hlock hrow₆
            have hheld₈ := hheld₆.evolves hc₆₈
            have hfor₈ := hfor₆.evolves hc₆₈
            have hredeemer := (hadmits c₂ rfl).trans hresolved
            obtain ⟨r, hused, hmerge⟩ := Option.bind_eq_some_iff.mp hc'
            rw [Option.bind_some, IdentityDb.change_eq_some] at hused
            rw [IdentityDb.change_eq_some] at hmerge
            have hrows := Option.some.inj hused
            have hids : r.externalIdentities = c₈.externalIdentities := by rw [← hrows]; rfl
            have hpeople : r.people = c₈.people := by rw [← hrows]; rfl
            have hne : issuer.junjoUserId ≠ redeemerId := hsame
            have hissuer₈ := (hheld₈.2.2 row hrow₈).2
              (mem_people_of_merge hids hpeople hmerge hplan hne hredeemer)
            rw [← (hheld₈.2.2 row hrow₈).1] at hissuer₈
            have hsurvives : plan.survivorId ≠ plan.attachedId := by
              rcases hplan with ⟨h, h'⟩ | ⟨h, h'⟩
              · rw [h, h']
                exact hne
              · rw [h, h']
                exact hne.symm
            obtain ⟨hcodes, hissued, -, herase, hget'⟩ := mergeRows_spec hmerge hsurvives
            refine redeemed_effect (List.mem_append_left _ (hheld' hlock)) hrow₈
              (Option.isNone_iff_eq_none.mp hunused) (hfor₈.2 row hrow₈).2 hinv
              (hcodes.trans (by rw [← hrows])) (hissued.trans (by rw [← hrows]; rfl)) ?_
              (fun i old hold => ?_) (links_merged hids hmerge hplan hne hissuer₈ hredeemer)
            · rw [herase, hpeople]
              exact Finset.erase_subset _ _
            · rw [hget', hids, hold, Option.map_some]
              refine ⟨_, rfl, ?_⟩
              split_ifs with hattached
              · refine ⟨rfl, rfl, .inr fun hmem => ?_⟩
                rw [herase, hattached] at hmem
                exact Finset.notMem_erase _ _ hmem
              · exact ⟨rfl, rfl, .inl rfl⟩

end Rule

/-! ### Runs -/

def IdentityResult.redeemedCode : IdentityResult → Option Text
  | .redeemed k _ _ _ => some k
  | _ => none

/-- What is promised of links by code. A code is consumed once, by the code that was shown for it;
a link leaves both ids on one person and moves ids of their two people only; a code of an id that
was unlinked since links nothing; and no id has two codes that can be redeemed. -/
structure LinksHold (hashLinkCode : Text → Text) (collation : Text → Text → Bool)
    (start : IdentityDb) (events : List (TxEvent IdentityRequest)) (server : IdentityServer) :
    Prop where
  once : (server.log.filterMap IdentityResult.redeemedCode).Nodup
  presented : ∀ k code i code' gameId userId, .issued k code i ∈ server.log →
    .redeemed k code' gameId userId ∈ server.log → code' = code
  links : ∀ c ∈ IdentityServer.commits hashLinkCode collation start events,
    ∀ k code gameId userId, c.result = .redeemed k code gameId userId → ∃ row,
      c.before.linkCodes.get? k = some row ∧ Links c.before.toIdentityRows c.after.toIdentityRows
        row.externalIdentityId gameId userId
  unlinked : ∀ l₁ l₂ i, server.log = l₁ ++ .unlinked i :: l₂ → ∀ k code, .issued k code i ∈ l₁ →
    ∀ code' gameId userId, .redeemed k code' gameId userId ∉ l₂
  single : ∀ now k k' row row', server.committed.linkCodes.get? k = some row →
    server.committed.linkCodes.get? k' = some row' → isLive now row = true →
    isLive now row' = true → row.externalIdentityId = row'.externalIdentityId → k = k'

/-- What the commits so far leave of the codes that they issued and redeemed. -/
structure Recorded (hashLinkCode : Text → Text) (c : IdentityDb) (log : List IdentityResult) :
    Prop where
  redeemed : ∀ k code gameId userId, .redeemed k code gameId userId ∈ log →
    k ∈ c.issued ∧ ∀ row, c.linkCodes.get? k = some row → row.usedAt ≠ none
  issued : ∀ k code i, .issued k code i ∈ log → k ∈ c.issued ∧
    ∀ row, c.linkCodes.get? k = some row →
      row.externalIdentityId = i ∧ row.codeHash = hashLinkCode code
  once : (log.filterMap IdentityResult.redeemedCode).Nodup
  presented : ∀ k code i code' gameId userId, .issued k code i ∈ log →
    .redeemed k code' gameId userId ∈ log → code' = code
  unlinked : ∀ l₁ l₂ i, log = l₁ ++ .unlinked i :: l₂ → ∀ k code, .issued k code i ∈ l₁ →
    c.linkCodes.get? k = none ∧ ∀ code' gameId userId, .redeemed k code' gameId userId ∉ l₂

section Runs

variable {hashLinkCode : Text → Text} {c c' : IdentityDb} {log : List IdentityResult}
  {a : IdentityResult} {held : List IdentityLock}

lemma redeemedCode_eq_some {k : Text} : a.redeemedCode = some k ↔
    ∃ code gameId userId, a = .redeemed k code gameId userId := by
  constructor
  · intro hk
    cases a with
    | redeemed k' code gameId userId =>
      obtain rfl := Option.some.inj hk
      exact ⟨code, gameId, userId, rfl⟩
    | issued _ _ _ => cases hk
    | unlinked _ => cases hk
    | configured _ => cases hk
    | person _ => cases hk
    | imported _ => cases hk
    | other => cases hk
  · rintro ⟨code, gameId, userId, rfl⟩
    rfl

/-- A code that was issued and is gone does not come back. -/
lemma LinksMove.get?_eq_none (h : LinksMove held c.toIdentityRows c'.toIdentityRows) {k : Text}
    (hk : k ∈ c.issued) (hnone : c.linkCodes.get? k = none) : c'.linkCodes.get? k = none := by
  rw [Option.eq_none_iff_forall_ne_some]
  intro row' hrow'
  rcases h.codes k row' hrow' with hnew | ⟨row, hrow, -⟩
  · exact hnew hk
  · rw [hnone] at hrow
    cases hrow

lemma Recorded.redeemed_step (h : Recorded hashLinkCode c log)
    (heffect : LinksEffect hashLinkCode a held c c') (k code gameId userId : Text)
    (hmem : .redeemed k code gameId userId ∈ log ++ [a]) :
    k ∈ c'.issued ∧ ∀ row, c'.linkCodes.get? k = some row → row.usedAt ≠ none := by
  rcases List.mem_append.mp hmem with hmem | hmem
  · obtain ⟨hk, hused⟩ := h.redeemed k code gameId userId hmem
    refine ⟨heffect.1.issued hk, fun row' hrow' => ?_⟩
    rcases heffect.1.codes k row' hrow' with hnew | ⟨row, hrow, -, -, hstays⟩
    · exact absurd hk hnew
    · exact hstays (hused row hrow)
  · obtain rfl := List.mem_singleton.mp hmem
    obtain ⟨row, row', -, -, -, hrow', hused⟩ := heffect.2.consumes
    refine ⟨c'.constraints.issuedCodes k (Dict.mem_keys_iff.mpr ⟨row', hrow'⟩),
      fun row'' hrow'' => ?_⟩
    obtain rfl := Option.some.inj (hrow'.symm.trans hrow'')
    exact hused

lemma Recorded.issued_step (h : Recorded hashLinkCode c log)
    (heffect : LinksEffect hashLinkCode a held c c') (k code i : Text)
    (hmem : .issued k code i ∈ log ++ [a]) : k ∈ c'.issued ∧
      ∀ row, c'.linkCodes.get? k = some row →
        row.externalIdentityId = i ∧ row.codeHash = hashLinkCode code := by
  rcases List.mem_append.mp hmem with hmem | hmem
  · obtain ⟨hk, hcode⟩ := h.issued k code i hmem
    refine ⟨heffect.1.issued hk, fun row' hrow' => ?_⟩
    rcases heffect.1.codes k row' hrow' with hnew | ⟨row, hrow, hhash, hid, -⟩
    · exact absurd hk hnew
    · rw [hid, hhash]
      exact hcode row hrow
  · obtain rfl := List.mem_singleton.mp hmem
    obtain ⟨-, row, hrow, hid, hhash⟩ := heffect.2
    refine ⟨c'.constraints.issuedCodes k (Dict.mem_keys_iff.mpr ⟨row, hrow⟩), fun row' hrow' => ?_⟩
    obtain rfl := Option.some.inj (hrow.symm.trans hrow')
    exact ⟨hid, hhash⟩

/-- A redemption consumes a code that none consumed before. -/
lemma Recorded.once_step (h : Recorded hashLinkCode c log)
    (heffect : LinksEffect hashLinkCode a held c c') :
    ((log ++ [a]).filterMap IdentityResult.redeemedCode).Nodup := by
  rw [List.filterMap_append]
  cases ha : a.redeemedCode with
  | none =>
    have hnil : [a].filterMap IdentityResult.redeemedCode = [] := by simp [ha]
    rw [hnil, List.append_nil]
    exact h.once
  | some k =>
    have hone : [a].filterMap IdentityResult.redeemedCode = [k] := by simp [ha]
    rw [hone]
    refine h.once.append (List.nodup_singleton k) (List.disjoint_singleton.mpr fun hk => ?_)
    obtain ⟨b, hb, hbk⟩ := List.mem_filterMap.mp hk
    obtain ⟨code, gameId, userId, rfl⟩ := redeemedCode_eq_some.mp hbk
    obtain ⟨code', gameId', userId', rfl⟩ := redeemedCode_eq_some.mp ha
    obtain ⟨row, -, hrow, hunused, -⟩ := heffect.2.consumes
    exact (h.redeemed k code gameId userId hb).2 row hrow hunused

lemma Recorded.presented_step (hhash : Function.Injective hashLinkCode)
    (h : Recorded hashLinkCode c log) (heffect : LinksEffect hashLinkCode a held c c')
    (k code i code' gameId userId : Text) (hissued : .issued k code i ∈ log ++ [a])
    (hredeemed : .redeemed k code' gameId userId ∈ log ++ [a]) : code' = code := by
  rcases List.mem_append.mp hissued with hold | hnew
  · rcases List.mem_append.mp hredeemed with hold' | hnew'
    · exact h.presented k code i code' gameId userId hold hold'
    · obtain rfl := List.mem_singleton.mp hnew'
      obtain ⟨row, -, hrow, -, hcode, -⟩ := heffect.2.consumes
      exact hhash (hcode.symm.trans ((h.issued k code i hold).2 row hrow).2)
  · obtain rfl := List.mem_singleton.mp hnew
    rcases List.mem_append.mp hredeemed with hold' | hnew'
    · exact absurd (h.redeemed k code' gameId userId hold').1 heffect.2.1
    · cases List.mem_singleton.mp hnew'

lemma Recorded.unlinked_step (h : Recorded hashLinkCode c log)
    (heffect : LinksEffect hashLinkCode a held c c') (l₁ l₂ : List IdentityResult) (i : Text)
    (hlog : log ++ [a] = l₁ ++ .unlinked i :: l₂) (k code : Text)
    (hissued : .issued k code i ∈ l₁) : c'.linkCodes.get? k = none ∧
      ∀ code' gameId userId, .redeemed k code' gameId userId ∉ l₂ := by
  rcases List.eq_nil_or_concat l₂ with rfl | ⟨l₂, b, rfl⟩
  · obtain ⟨rfl, hlast⟩ := List.append_inj' hlog rfl
    obtain rfl : a = .unlinked i := by simpa using hlast
    refine ⟨?_, fun code' gameId userId hmem => absurd hmem List.not_mem_nil⟩
    rw [Option.eq_none_iff_forall_ne_some]
    intro row hrow
    have hid := ((h.issued_step heffect k code i (List.mem_append_left _ hissued)).2 row hrow).1
    have hmem := IdentityRows.mem_linkCodesOf.mpr ⟨row, hrow, hid⟩
    have hnone : c'.linkCodesOf i = [] := heffect.2
    rw [hnone] at hmem
    exact absurd hmem List.not_mem_nil
  · have hsplit : log ++ [a] = (l₁ ++ .unlinked i :: l₂) ++ [b] := by
      rw [hlog]
      simp
    obtain ⟨rfl, hlast⟩ := List.append_inj' hsplit rfl
    obtain rfl : a = b := by simpa using hlast
    obtain ⟨hnone, hnever⟩ := h.unlinked l₁ l₂ i rfl k code hissued
    have hk := (h.issued k code i (List.mem_append_left _ hissued)).1
    refine ⟨heffect.1.get?_eq_none hk hnone, fun code' gameId userId hmem => ?_⟩
    rw [List.concat_eq_append] at hmem
    rcases List.mem_append.mp hmem with hmem | hmem
    · exact hnever code' gameId userId hmem
    · obtain rfl := List.mem_singleton.mp hmem
      obtain ⟨row, -, hrow, -⟩ := heffect.2.consumes
      rw [hnone] at hrow
      cases hrow

lemma Recorded.step (hhash : Function.Injective hashLinkCode) (h : Recorded hashLinkCode c log)
    (heffect : LinksEffect hashLinkCode a held c c') :
    Recorded hashLinkCode c' (log ++ [a]) where
  redeemed := h.redeemed_step heffect
  issued := h.issued_step heffect
  once := h.once_step heffect
  presented := h.presented_step hhash heffect
  unlinked := h.unlinked_step heffect

lemma keeps_program_links (hashLinkCode : Text → Text) (collation : Text → Text → Bool)
    (request : IdentityRequest) (c : IdentityDb) :
    Keeps IdentityLock.conflicts (linksDiscipline hashLinkCode)
      (program hashLinkCode collation request) [] some [] c := by
  cases request with
  | updateGameConfig gameId formats =>
    exact Elsewhere.keeps hashLinkCode (elsewhere_updateGameConfig collation gameId formats) c
  | findOrCreateJunjoUser memo gameId userId new now =>
    exact Elsewhere.keeps hashLinkCode (elsewhere_findOrCreateJunjoUser memo gameId userId new now) c
  | runImport gameId rows fails now =>
    exact Elsewhere.keeps hashLinkCode (elsewhere_runImport gameId rows fails now) c
  | issue memo gameId userId code linkCodeId now =>
    exact keeps_issue memo gameId userId code linkCodeId now c
  | redeem memo gameId userId code now => exact keeps_redeem memo gameId userId code now c
  | unlink memo gameId userId newPersonId now =>
    exact keeps_unlink memo gameId userId newPersonId now c
  | other w =>
    refine Elsewhere.keeps hashLinkCode (elsewhere_bind (elsewhere_update ?_ _) fun _ => ?_) c
    swap
    · trivial
    intro c c' h
    rw [← Option.some.inj h]
    refine ⟨Finset.Subset.refl _, fun p hp => .inl ?_, rfl, fun i row hrow => ?_⟩
    · rwa [w.people] at hp
    · rwa [w.externalIdentities]

/-- Ann holds two ids and Bob one. -/
def twoPeople : IdentityDb :=
  ⟨{ PeopleDb.empty with
      people := {text "ann", text "bob"}
      externalIdentities := ((Dict.empty.set (text "id-a1")
          ⟨text "game", text "ann", text "a1", 0⟩).set (text "id-a2")
          ⟨text "game", text "ann", text "a2", 0⟩).set (text "id-b1")
          ⟨text "game", text "bob", text "b1", 0⟩
      formats := Dict.empty.set (text "game") .none
      linkCodes := Dict.empty
      issued := {text "ann", text "bob", text "id-a1", text "id-a2", text "id-b1"} },
    by decide⟩

def issueFor (userId linkCodeId code : Text) : IdentityRequest :=
  .issue none (text "game") userId code linkCodeId 0

def redeemAs (userId code : Text) : IdentityRequest := .redeem none (text "game") userId code 1

def unlinkOf (userId newPersonId : Text) : IdentityRequest :=
  .unlink none (text "game") userId newPersonId 1

/-- Statements of a session. -/
def advances (n id : ℕ) : List (TxEvent IdentityRequest) := List.replicate n (.advance id)

/-- Bob shows a code, and Ann redeems it with one of her ids. -/
def linkTwoPeople : List (TxEvent IdentityRequest) :=
  .start 0 (issueFor (text "b1") (text "k") (text "code")) :: advances 8 0 ++
    .start 1 (redeemAs (text "a2") (text "code")) :: advances 12 1

/-- The redeeming id is unlinked after the request found its person. -/
def unlinkWhileRedeeming : List (TxEvent IdentityRequest) :=
  .start 0 (issueFor (text "b1") (text "k") (text "code")) :: advances 8 0 ++
    .start 1 (redeemAs (text "a2") (text "code")) :: advances 3 1 ++
    .start 2 (unlinkOf (text "a2") (text "eve")) :: advances 10 2 ++ advances 9 1

/-- A code is issued for an id after its unlink deleted the codes and before it commits. -/
def issueWhileUnlinking : List (TxEvent IdentityRequest) :=
  .start 0 (unlinkOf (text "a2") (text "eve")) :: advances 9 0 ++
    .start 1 (issueFor (text "a2") (text "k") (text "code")) :: advances 8 1 ++ advances 1 0 ++
    .start 2 (redeemAs (text "b1") (text "code")) :: advances 12 2

/-- Two codes are requested for one id at once. -/
def issueTwice : List (TxEvent IdentityRequest) :=
  .start 0 (issueFor (text "b1") (text "k1") (text "code1")) :: advances 6 0 ++
    .start 1 (issueFor (text "b1") (text "k2") (text "code2")) :: advances 8 1 ++ advances 2 0

/-- The redeeming id is left with the person it was moved to. -/
def leavesApart (c : Commit IdentityDb IdentityResult) : Bool :=
  c.result = .redeemed (text "k") (text "code") (text "game") (text "a2") &&
    ((c.before.linkCodes.get? (text "k")).any fun row => row.externalIdentityId = text "id-b1") &&
    ((c.before.externalIdentities.get? (text "id-a2")).any fun row =>
      row.gameId = text "game" && row.externalUserId = text "a2") &&
    c.after.holder (text "id-a2") ≠ c.after.holder (text "id-b1")

lemma not_linksHold_of_leavesApart {collation : Text → Text → Bool} {start : IdentityDb}
    {events : List (TxEvent IdentityRequest)} {server : IdentityServer}
    (h : (IdentityServer.commits hashLinkCode collation start events).any leavesApart = true) :
    ¬ LinksHold hashLinkCode collation start events server := by
  intro hholds
  obtain ⟨c, hc, happart⟩ := List.any_eq_true.mp h
  simp only [leavesApart, Bool.and_eq_true, decide_eq_true_eq] at happart
  obtain ⟨⟨⟨hresult, hcode⟩, hid⟩, hne⟩ := happart
  obtain ⟨row, hrow, hlinks⟩ := hholds.links c hc _ _ _ _ hresult
  obtain ⟨j, redeemer, hj, hgame, huser, -, hsame⟩ := hlinks.together
  obtain ⟨row', hrow', hissuer⟩ := (Option.any_eq_true _ _).mp hcode
  obtain rfl := Option.some.inj (hrow.symm.trans hrow')
  obtain ⟨row₂, hrow₂, hrow₂'⟩ := (Option.any_eq_true _ _).mp hid
  simp only [Bool.and_eq_true, decide_eq_true_eq] at hrow₂'
  have hfind := (IdentityRows.findIdentity_eq_some c.before.constraints).mpr ⟨hj, hgame, huser⟩
  have hfind' := (IdentityRows.findIdentity_eq_some c.before.constraints).mpr
    ⟨hrow₂, hrow₂'.1, hrow₂'.2⟩
  obtain rfl : j = text "id-a2" := congrArg Prod.fst (Option.some.inj (hfind.symm.trans hfind'))
  rw [of_decide_eq_true hissuer] at hsame
  exact hne hsame

end Runs

end Junjo.Identities
