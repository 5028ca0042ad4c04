import Junjo.Mirror.Applier

/-!
# Retained members

A retained entry is kept apart from the person's other entries of its group: this holds for the
people that the state knows, and every operation that records a person says when it is kept.
-/

namespace Junjo.Mirror

namespace State

variable {s s' : State} {g : Text} {ids : List Text} {p : Person}

/-- Two entries of the group, one of them retained, are under these ids. -/
def ClashIn (s : State) (g : Text) (ids : List Text) : Prop :=
  ∃ x ∈ ids, ⟨g, x⟩ ∈ s.retained.keys ∧
    ∃ y ∈ ids, ⟨g, y⟩ ∈ s.members.keys ∨ ⟨g, y⟩ ∈ s.retained.keys ∧ y ≠ x

/-- No person has a retained entry in the group when they are tracked in it, nor two. -/
def ApartIn (s : State) (g : Text) : Prop := ∀ id, ¬s.ClashIn g (s.idsWith id)

def Apart (s : State) : Prop := ∀ g, s.ApartIn g

lemma ClashIn.mono {ids' : List Text} (h : s'.ClashIn g ids') (hids : ids' ⊆ ids)
    (hretained : ∀ x ∈ ids', ⟨g, x⟩ ∈ s'.retained.keys → ⟨g, x⟩ ∈ s.retained.keys)
    (hmembers : ∀ x ∈ ids', ⟨g, x⟩ ∈ s'.members.keys → ⟨g, x⟩ ∈ s.members.keys) : s.ClashIn g ids := by
  obtain ⟨x, hx, hkept, y, hy, hother⟩ := h
  refine ⟨x, hids hx, hretained x hx hkept, y, hids hy, ?_⟩
  rcases hother with hmember | ⟨hkept', hne⟩
  · exact .inl (hmembers y hy hmember)
  · exact .inr ⟨hretained y hy hkept', hne⟩

/-! ### Ids -/

lemma mem_idsWith {id x : Text} : x ∈ s.idsWith id ↔ x = id ∨ x ∈ s.idsOf id := by
  rw [idsWith, List.mem_cons, List.mem_filter, decide_eq_true_iff]
  constructor
  · rintro (h | ⟨h, -⟩)
    · exact .inl h
    · exact .inr h
  · rintro (h | h)
    · exact .inl h
    · by_cases hx : x = id
      · exact .inl hx
      · exact .inr ⟨h, hx⟩

lemma self_mem_idsWith (id : Text) : id ∈ s.idsWith id := List.mem_cons_self

lemma idsWith_congr (h : s'.people = s.people) (id : Text) : s'.idsWith id = s.idsWith id := by
  rw [idsWith, idsWith, idsOf, idsOf, h]

/-- The ids of a known person are among those under each id that names them. -/
lemma ids_subset_idsWith {id : Text} (h : s.people.get? id = some p) : p.ids ⊆ s.idsWith id := by
  intro x hx
  rw [mem_idsWith, idsOf, h]
  exact .inr hx

lemma get?_foldl_person (l : List Text) (d : Dict Text Person) (z : Text) :
    (l.foldl (fun d id => d.set id p) d).get? z = if z ∈ l then some p else d.get? z := by
  induction l generalizing d with
  | nil => simp
  | cons id l ih =>
    rw [List.foldl_cons, ih, Dict.get?_set]
    by_cases hl : z ∈ l
    · simp [hl]
    · by_cases hz : z = id
      · simp [hz]
      · simp [hl, hz]

lemma get?_withPerson (s : State) (p : Person) (z : Text) :
    (s.withPerson p).people.get? z = if z ∈ p.ids then some p else s.people.get? z :=
  get?_foldl_person p.ids s.people z

lemma mem_idsWith_withPerson {z x : Text} (hz : z ∈ p.ids) :
    x ∈ (s.withPerson p).idsWith z ↔ x ∈ p.ids := by
  rw [mem_idsWith, idsOf, get?_withPerson, if_pos hz]
  exact ⟨fun h => h.elim (fun hx => hx ▸ hz) id, .inr⟩

lemma idsWith_withPerson_of_not_mem {z : Text} (hz : z ∉ p.ids) :
    (s.withPerson p).idsWith z = s.idsWith z := by
  rw [idsWith, idsWith, idsOf, idsOf, get?_withPerson, if_neg hz]

/-! ### People -/

/-- A person recorded over none but one of its entries in the group. -/
lemma ApartIn.withPerson (h : s.ApartIn g) (hp : ¬s.ClashIn g p.ids) : (s.withPerson p).ApartIn g := by
  intro id hclash
  by_cases hid : id ∈ p.ids
  · exact hp (hclash.mono (fun x hx => (mem_idsWith_withPerson hid).mp hx) (fun _ _ h => h)
      fun _ _ h => h)
  · rw [idsWith_withPerson_of_not_mem hid] at hclash
    exact h id (hclash.mono (List.Subset.refl _) (fun _ _ h => h) fun _ _ h => h)

lemma not_clashIn_of_get? (h : s.ApartIn g) {id : Text} (hp : s.people.get? id = some p) :
    ¬s.ClashIn g p.ids := fun hclash =>
  h id (hclash.mono (ids_subset_idsWith hp) (fun _ _ h => h) fun _ _ h => h)

lemma ApartIn.of_eq (h : s.ApartIn g) (hpeople : s'.people = s.people)
    (hretained : ∀ x, ⟨g, x⟩ ∈ s'.retained.keys → ⟨g, x⟩ ∈ s.retained.keys)
    (hmembers : ∀ x, ⟨g, x⟩ ∈ s'.members.keys → ⟨g, x⟩ ∈ s.members.keys) : s'.ApartIn g := by
  intro id hclash
  rw [idsWith_congr hpeople] at hclash
  exact h id (hclash.mono (List.Subset.refl _) (fun x _ => hretained x) fun x _ => hmembers x)

lemma ApartIn.withRendered (h : s.ApartIn g) (id : Text) : (s.withRendered id).ApartIn g := by
  dsimp only [State.withRendered]
  have hadd : (s.addRendered id).ApartIn g := h.of_eq rfl (fun _ h => h) fun _ h => h
  split
  · exact hadd
  · rename_i p hp
    split_ifs
    · exact hadd
    · exact hadd.withPerson (p := ⟨p.ids, some id⟩) (not_clashIn_of_get? (p := p) hadd hp)

/-! ### Steps that keep no more -/

/-- No entry is kept that was not, and entries stay apart. -/
structure Tame (s s' : State) : Prop where
  retained : ∀ key r, s'.retained.get? key = some r → s.retained.get? key = some r
  apart : s.Apart → s'.Apart

namespace Tame

lemma refl (s : State) : s.Tame s := ⟨fun _ _ h => h, id⟩

lemma trans {s'' : State} (h : s.Tame s') (h' : s'.Tame s'') : s.Tame s'' :=
  ⟨fun key r hr => h.retained key r (h'.retained key r hr), h'.apart ∘ h.apart⟩

lemma of_subset (hpeople : s'.people = s.people)
    (hretained : ∀ key r, s'.retained.get? key = some r → s.retained.get? key = some r)
    (hmembers : s'.members.keys ⊆ s.members.keys) : s.Tame s' := by
  refine ⟨hretained, fun h g => (h g).of_eq hpeople (fun x hx => ?_) fun x hx => hmembers hx⟩
  obtain ⟨r, hr⟩ := Dict.mem_keys_iff.mp hx
  exact Dict.mem_keys_iff.mpr ⟨r, hretained _ r hr⟩

lemma of_eq (hpeople : s'.people = s.people) (hretained : s'.retained = s.retained)
    (hmembers : s'.members = s.members) : s.Tame s' :=
  of_subset hpeople (fun _ _ h => hretained ▸ h) fun _ h => hmembers ▸ h

lemma foldl {α : Type} {f : State → α → State} (hf : ∀ (s : State) x, s.Tame (f s x)) (l : List α)
    (s : State) : s.Tame (l.foldl f s) := by
  induction l generalizing s with
  | nil => exact refl s
  | cons x l ih => exact (hf s x).trans (ih (f s x))

lemma withRendered (s : State) (id : Text) : s.Tame (s.withRendered id) := by
  refine ⟨fun key r h => ?_, fun h g => (h g).withRendered id⟩
  rwa [retained_withRendered] at h

lemma filterRetained {q : MemberKey → Bool}
    (h : s'.retained = s.retained.filter fun e => q e.1) (hpeople : s'.people = s.people)
    (hmembers : s'.members.keys ⊆ s.members.keys) : s.Tame s' := by
  refine of_subset hpeople (fun key r hr => ?_) hmembers
  rw [h, Dict.get?_filter] at hr
  split_ifs at hr
  exact hr

lemma withoutRetained (s : State) (keys : List MemberKey) : s.Tame (s.withoutRetained keys) :=
  filterRetained (q := fun key => decide (key ∉ keys)) rfl rfl fun _ h => h

lemma dropRetainedOf (s : State) (ids : List Text) : s.Tame (s.dropRetainedOf ids) :=
  filterRetained (q := fun key => decide (key.userId ∉ ids)) rfl rfl fun _ h => h

lemma withoutGroup (s : State) (groupId : Text) : s.Tame (s.withoutGroup groupId) :=
  filterRetained (q := fun key => decide (key.groupId ≠ groupId)) rfl rfl fun _ h =>
    (Dict.mem_keys_filter (q := fun key => decide (key.groupId ≠ groupId))).mp h |>.1

lemma withoutMember (s : State) (key : MemberKey) : s.Tame (s.withoutMember key) :=
  of_subset rfl (fun _ _ h => h) fun _ h => (Dict.mem_keys_delete.mp h).2

lemma applyBan (s : State) (userId : Text) (version : ℕ) (ban : Option Ban) :
    s.Tame (s.applyBan userId version ban) := by
  unfold State.applyBan
  split_ifs
  · exact refl s
  · exact (of_eq rfl rfl rfl : s.Tame (s.withBan userId ban version)).trans (withRendered _ userId)

lemma applySanction (s : State) (userId type : Text) (version : ℕ)
    (event : Option (ℤ × Option ℤ × Option Text)) :
    s.Tame (s.applySanction userId type version event) := by
  unfold State.applySanction
  split_ifs
  · exact refl s
  · exact (of_eq rfl rfl rfl : s.Tame (s.withSanctions _)).trans (withRendered _ userId)

lemma withServerContexts (override : Option Sdk.ContextInheritance) (s : State)
    (next : Sdk.ContextInheritance) : s.Tame (Applier.withServerContexts override s next) := by
  unfold Applier.withServerContexts
  split_ifs <;> exact of_eq rfl rfl rfl

lemma loadGroup {r : Reads} {override : Option Sdk.ContextInheritance} {groupId : Text}
    (h : Applier.loadGroup r override s groupId = some s') : s.Tame s' := by
  unfold Applier.loadGroup at h
  cases hread : r.graph groupId with
  | ok v =>
    rw [hread] at h
    obtain rfl := Option.some.inj h
    exact (withServerContexts override s v.1.contexts).trans (of_eq rfl rfl rfl)
  | notFound =>
    rw [hread] at h
    obtain rfl := Option.some.inj h
    exact withoutGroup s groupId
  | failed =>
    rw [hread] at h
    cases h

end Tame

/-! ### Links -/

/-- A person none of whose ids holds a retained entry may be recorded. -/
lemma withPerson_apart (h : s.Apart) (hp : ∀ x ∈ p.ids, ∀ key ∈ s.retained.keys, key.userId ≠ x) :
    (s.withPerson p).Apart := fun g =>
  (h g).withPerson fun ⟨x, hx, hkept, _⟩ => hp x hx ⟨g, x⟩ hkept rfl

/-- A link or unlink is recorded where the retained entries of those involved are dropped. -/
lemma relinked_tame (s : State) {ids involved : List Text} {rendered : Text}
    {splitOff : Option Text} (hids : ids ⊆ involved) (hsplit : ∀ x ∈ splitOff, x ∈ involved) :
    s.Tame ((match splitOff with
      | none => s.withPerson ⟨ids, some rendered⟩
      | some split => (s.withPerson ⟨ids, some rendered⟩).withPerson ⟨[split], some split⟩).dropRetainedOf
        involved) := by
  have hdropped := Tame.dropRetainedOf s involved
  have hnone : ∀ x ∈ involved, ∀ key ∈ (s.dropRetainedOf involved).retained.keys,
      key.userId ≠ x := by
    rintro x hx key hkey rfl
    exact of_decide_eq_true ((Dict.mem_keys_filter
      (q := fun k : MemberKey => decide (k.userId ∉ involved))).mp hkey).2 hx
  cases hsplitOff : splitOff with
  | none =>
    refine ⟨hdropped.retained, fun h => ?_⟩
    exact withPerson_apart (p := ⟨ids, some rendered⟩) (hdropped.apart h)
      fun x hx => hnone x (hids hx)
  | some split =>
    refine ⟨hdropped.retained, fun h => ?_⟩
    have hfirst := withPerson_apart (p := ⟨ids, some rendered⟩) (hdropped.apart h)
      fun x hx => hnone x (hids hx)
    refine withPerson_apart (p := ⟨[split], some split⟩) hfirst fun x hx => ?_
    rw [List.mem_singleton.mp hx]
    exact hnone split (hsplit split hsplitOff)

/-! ### Loaded members -/

/-- A person recorded over their entries of the group, whose retained ones are dropped. -/
lemma ApartIn.withPerson_withoutRetained (h : s.ApartIn g) {id : Text} (hid : id ∈ p.ids) :
    ((s.withPerson p).withoutRetained ((s.withPerson p).personKeys id g)).ApartIn g := by
  intro z hclash
  have hclash : ((s.withPerson p).withoutRetained ((s.withPerson p).personKeys id g)).ClashIn g
      ((s.withPerson p).idsWith z) := hclash
  by_cases hz : z ∈ p.ids
  · obtain ⟨x, hx, hkept, -⟩ := hclash
    have hdropped := ((Dict.mem_keys_filter
      (q := fun key => decide (key ∉ (s.withPerson p).personKeys id g))).mp hkept).2
    refine of_decide_eq_true hdropped (List.mem_map_of_mem ?_)
    exact (mem_idsWith_withPerson hid).mpr ((mem_idsWith_withPerson hz).mp hx)
  · rw [idsWith_withPerson_of_not_mem hz] at hclash
    refine h z (hclash.mono (List.Subset.refl _) (fun x _ hx => ?_) fun _ _ h => h)
    exact ((Dict.mem_keys_filter
      (q := fun key => decide (key ∉ (s.withPerson p).personKeys id g))).mp hx).1

/-- The ids of the person that an access read under an id shows. -/
def mergedIds (s : State) (id renderedId : Text) : List Text := s.idsWith id ++ s.idsWith renderedId

lemma mem_ids_personMerged {id renderedId x : Text} :
    x ∈ ((((s.people.get? id).map Person.ids).getD []) ++
        (((s.people.get? renderedId).map Person.ids).getD []) ++ [id, renderedId]).eraseDups ↔
      x ∈ s.mergedIds id renderedId := by
  have hids : ∀ z, x ∈ s.idsWith z ↔ x = z ∨ x ∈ ((s.people.get? z).map Person.ids).getD [] := by
    intro z
    rw [mem_idsWith, idsOf]
    cases s.people.get? z with
    | none => simp
    | some q => rfl
  rw [List.mem_eraseDups, mergedIds, List.mem_append, List.mem_append, List.mem_append, hids, hids]
  simp only [List.mem_cons, List.not_mem_nil, or_false]
  tauto

lemma withRendered_of_get? {id : Text} (hp : s.people.get? id = some p)
    (hrendered : p.rendered = some id) : s.withRendered id = s.addRendered id := by
  dsimp only [State.withRendered]
  have hp : (s.addRendered id).people.get? id = some p := hp
  simp only [hp, hrendered, if_true]

/-- Reading an access keeps entries apart, when what it shows of the person does so outside the
member's own group. -/
lemma putLoaded_apart (h : s.Apart) {key : MemberKey} {entry : MemberEntry}
    (hkey : key ∈ s.members.keys)
    (hread : ∀ access ∈ entry.access, access.userId ≠ key.userId →
      ∀ g, g ≠ key.groupId → ¬s.ClashIn g (s.mergedIds key.userId access.userId)) :
    (Applier.putLoaded s key entry).Apart := by
  have hmembers : ∀ k, k ∈ (s.withMember key entry).members.keys → k ∈ s.members.keys := by
    intro k hk
    rcases Dict.mem_keys_set.mp hk with rfl | hk
    · exact hkey
    · exact hk
  have hput : ∀ g, (s.withMember key entry).ApartIn g :=
    fun g => (h g).of_eq rfl (fun _ h => h) fun x hx => hmembers _ hx
  unfold Applier.putLoaded
  cases hentry : entry.access with
  | none => exact (Tame.withoutRetained _ _).apart hput
  | some access =>
    dsimp only
    split_ifs with hsame
    · exact (Tame.withoutRetained _ _).apart fun g => (hput g).withRendered access.userId
    · -- the access shows that the two ids name one person
      intro g
      let p : Person := ⟨(((((s.people.get? key.userId).map Person.ids).getD []) ++
        (((s.people.get? access.userId).map Person.ids).getD []) ++
        [key.userId, access.userId]).eraseDups), some access.userId⟩
      have hmerged : (s.withMember key entry).personMerged key.userId access.userId =
          (s.withMember key entry).withPerson p := rfl
      have hids : ∀ x, x ∈ p.ids ↔ x ∈ s.mergedIds key.userId access.userId :=
        fun x => mem_ids_personMerged
      have hkeyId : key.userId ∈ p.ids :=
        (hids _).mpr (List.mem_append_left _ (self_mem_idsWith _))
      have hrenderedId : access.userId ∈ p.ids :=
        (hids _).mpr (List.mem_append_right _ (self_mem_idsWith _))
      rw [hmerged, withRendered_of_get? (p := p)
        (by rw [get?_withPerson, if_pos hrenderedId]) rfl]
      by_cases hg : g = key.groupId
      · subst hg
        exact ((hput key.groupId).withPerson_withoutRetained hkeyId).of_eq rfl (fun _ h => h)
          fun _ h => h
      · have hclash : ¬(s.withMember key entry).ClashIn g p.ids := fun hclash =>
          hread access hentry hsame g hg (hclash.mono (fun x hx => (hids x).mp hx)
            (fun _ _ h => h) fun x _ hx => hmembers _ hx)
        refine ((hput g).withPerson hclash).of_eq rfl (fun x hx => ?_) fun _ h => h
        exact (Dict.mem_keys_filter (q := fun k => decide (k ∉ _))).mp hx |>.1

lemma retained_putLoaded {key k : MemberKey} {entry : MemberEntry} {kept : RetainedMember}
    (h : (Applier.putLoaded s key entry).retained.get? k = some kept) :
    s.retained.get? k = some kept := by
  unfold Applier.putLoaded at h
  have h := (Tame.withoutRetained _ _).retained k kept h
  cases hentry : entry.access with
  | none => rwa [hentry] at h
  | some access =>
    rw [hentry] at h
    dsimp only at h
    rw [retained_withRendered] at h
    split_ifs at h <;> exact h

/-! ### Tracks -/

/-- A fresh member is put where no retained entry of its person is left. -/
lemma withMember_apart (h : s.Apart) {groupId : Text} {key : MemberKey} {entry : MemberEntry}
    (hgroup : key.groupId = groupId)
    (htaken : ∀ id, key.userId ∈ s.idsWith id → ∀ x ∈ s.idsWith id,
      ⟨groupId, x⟩ ∈ s.retained.keys → x ∈ ids) :
    ((s.withoutRetained (ids.map (MemberKey.mk groupId))).withMember key entry).Apart := by
  intro g id hclash
  have hclash : ((s.withoutRetained (ids.map (MemberKey.mk groupId))).withMember key entry).ClashIn g
      (s.idsWith id) := hclash
  obtain ⟨x, hx, hleft, y, hy, hother⟩ := hclash
  obtain ⟨hkept, hnot⟩ := (Dict.mem_keys_filter
    (q := fun k => decide (k ∉ ids.map (MemberKey.mk groupId)))).mp hleft
  have hnot : (⟨g, x⟩ : MemberKey) ∉ ids.map (MemberKey.mk groupId) := of_decide_eq_true hnot
  rcases hother with hmember | ⟨hkept', hne⟩
  · rcases Dict.mem_keys_set.mp hmember with heq | hmember
    · obtain rfl : g = groupId := hgroup ▸ congrArg MemberKey.groupId heq
      obtain rfl : y = key.userId := congrArg MemberKey.userId heq
      exact hnot (List.mem_map_of_mem (htaken id hy x hx hkept))
    · exact h g id ⟨x, hx, hkept, y, hy, .inl hmember⟩
  · have hkept' := ((Dict.mem_keys_filter
      (q := fun k => decide (k ∉ ids.map (MemberKey.mk groupId)))).mp hkept').1
    exact h g id ⟨x, hx, hkept, y, hy, .inr ⟨hkept', hne⟩⟩

/-- An untracked member is kept where no other member of the group is its person's. -/
lemma withRetained_apart (h : s.Apart) {key : MemberKey} {kept : RetainedMember}
    {keys : List MemberKey} (hkey : key ∈ s.members.keys)
    (hsole : ∀ id, key.userId ∈ s.idsWith id → ∀ y ∈ s.idsWith id,
      ⟨key.groupId, y⟩ ∈ s.members.keys → y = key.userId) :
    (((s.withoutMember key).withoutRetained keys).withRetained key kept).Apart := by
  intro g id hclash
  have hclash : (((s.withoutMember key).withoutRetained keys).withRetained key kept).ClashIn g
      (s.idsWith id) := hclash
  -- a retained entry is the new one, or was retained before
  have hcases : ∀ x, (⟨g, x⟩ : MemberKey) ∈
      (((s.withoutMember key).withoutRetained keys).withRetained key kept).retained.keys →
      (g = key.groupId ∧ x = key.userId) ∨ (⟨g, x⟩ : MemberKey) ∈ s.retained.keys := by
    intro x hx
    rcases Dict.mem_keys_set.mp hx with heq | hx
    · exact .inl ⟨congrArg MemberKey.groupId heq, congrArg MemberKey.userId heq⟩
    · exact .inr ((Dict.mem_keys_filter (q := fun k => decide (k ∉ keys))).mp hx).1
  obtain ⟨x, hx, hkept, y, hy, hother⟩ := hclash
  rcases hcases x hkept with ⟨rfl, rfl⟩ | hkept
  · rcases hother with hmember | ⟨hkept', hne⟩
    · obtain ⟨hne, hmember⟩ := Dict.mem_keys_delete.mp hmember
      exact hne (congrArg (MemberKey.mk key.groupId) (hsole id hx y hy hmember))
    · rcases hcases y hkept' with ⟨-, heq⟩ | hkept'
      · exact hne heq
      · exact h _ id ⟨y, hy, hkept', key.userId, hx, .inl hkey⟩
  · rcases hother with hmember | ⟨hkept', hne⟩
    · exact h g id ⟨x, hx, hkept, y, hy, .inl (Dict.mem_keys_delete.mp hmember).2⟩
    · rcases hcases y hkept' with ⟨rfl, rfl⟩ | hkept'
      · exact h _ id ⟨x, hx, hkept, key.userId, hy, .inl hkey⟩
      · exact h g id ⟨x, hx, hkept, y, hy, .inr ⟨hkept', hne⟩⟩

end State

end Junjo.Mirror
