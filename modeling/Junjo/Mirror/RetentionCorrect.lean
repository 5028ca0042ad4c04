import Junjo.Mirror.PositionCorrect
import Junjo.Mirror.Retention

/-!
# Retention

What holds of the retained entries in every state that a run reaches, read off the record of the
run, and the turns that the mirror gets wrong.
-/

namespace Junjo.Mirror

/-! ### What the record says -/

/-- The ids of the persons that an identity event names. -/
def Event.namedIds (before : State) : Event → List Text
  | .identityUpdated userId changedUserId => before.idsWith userId ++ before.idsWith changedUserId
  | .identityLinked userId identities linkedUserId =>
    (identities ++ [userId, linkedUserId]).flatMap before.idsWith
  | .identityUnlinked userId identities unlinkedUserId =>
    (identities ++ [userId, unlinkedUserId]).flatMap before.idsWith
  | _ => []

/-- A member event of the key's person and group is no newer than the version. -/
def Event.within (before : State) (key : MemberKey) (version : ℕ) : Event → Prop
  | .member _ userId groupId memberVersion =>
    key ∈ before.personKeys userId groupId → 0 < memberVersion ∧ memberVersion ≤ version
  | _ => True

/-- An access that is known under a key, with a version, is at least as new as every member event
of its person and group: it was read after the event, or has its version. -/
def Fresh : List Mark → MemberKey → ℕ → Prop
  | [], _, _ => True
  | .loaded _ k _ :: log, key, version => k = key ∨ Fresh log key version
  | .applied before _ event :: log, key, version =>
    event.within before key version ∧ Fresh log key version
  -- the access of a member tracked again was kept under one of the person's ids
  | .tracked before _ ids k (some kept) :: log, key, version =>
    if k = key then
      ∃ x ∈ ids, before.retained.get? ⟨k.groupId, x⟩ = some kept ∧
        Fresh log ⟨k.groupId, x⟩ version
    else Fresh log key version
  | _ :: log, key, version => Fresh log key version

/-- Since the entry under the key was retained, no identity event named any id of its person, its
group was not deleted, and nothing was loaded in full. -/
def Survives : List Mark → MemberKey → Prop
  | [], _ => True
  | .retained _ k _ :: log, key => k = key ∨ Survives log key
  | .applied before _ event :: log, key => key.userId ∉ event.namedIds before ∧ Survives log key
  | .dropped groupId :: log, key => key.groupId ≠ groupId ∧ Survives log key
  | .answered .everything :: _, _ => False
  | _ :: log, key => Survives log key

/-- A member tracked again answers from an entry whose window has not passed. -/
def Mark.InWindow (cfg : Config) : Mark → Prop
  | .tracked _ now _ _ (some kept) => Applier.withinWindow cfg now kept = true
  | _ => True

/-- What is promised of the retained entries of a state, after what the record says. -/
structure Retention (cfg : Config) (s : State) (log : List Mark) : Prop where
  apart : s.Apart
  fresh : ∀ key kept, s.retained.get? key = some kept → Fresh log key kept.version
  survives : ∀ key ∈ s.retained.keys, Survives log key
  window : ∀ m ∈ log, m.InWindow cfg

/-! ### The turns that the mirror gets wrong -/

/-- What a turn meets so that retention holds after it. -/
def Mark.Regular (log : List Mark) : Mark → Prop
  /- No entry is retained under an id of a person that an identity update names. -/
  | .applied before _ (.identityUpdated userId changedUserId) => ∀ key ∈ before.retained.keys,
    key.userId ∉ before.idsWith userId ++ before.idsWith changedUserId
  /- The ids read are not those of two entries of a group, one of them retained. -/
  | .resolved before person => ∀ g, ¬before.ClashIn g person.ids
  /- Nor are the ids that an access shows to be one person's, outside the member's own group. -/
  | .loaded before key (some access) => access.userId ≠ key.userId →
    ∀ g, g ≠ key.groupId → ¬before.ClashIn g (before.mergedIds key.userId access.userId)
  /- The person is known by the same ids under each of them. -/
  | .tracked before _ ids key _ => ∀ id, key.userId ∈ before.idsWith id →
    ∀ x ∈ before.idsWith id, ⟨key.groupId, x⟩ ∈ before.retained.keys → x ∈ ids
  /- The untracked member's access is as new as its events, and no other member of the group is
  its person's. -/
  | .retained before key kept => Fresh log key kept.version ∧
    ∀ id, key.userId ∈ before.idsWith id → ∀ y ∈ before.idsWith id,
      ⟨key.groupId, y⟩ ∈ before.members.keys → y = key.userId
  | _ => True

def Regular : List Mark → Prop
  | [] => True
  | m :: log => m.Regular log ∧ Regular log

namespace Applier

variable {cfg : Config} {a b c : Applier} {r : Reads}

/-- `b` comes from `a` by what keeps retention, when what it meets is regular. -/
structure Retains (cfg : Config) (a b : Applier) : Prop where
  file : b.file = a.file
  regular : Regular b.log → Regular a.log
  retention : Regular b.log → Retention cfg a.state a.log → Retention cfg b.state b.log

namespace Retains

lemma refl (a : Applier) : Retains cfg a a := ⟨rfl, id, fun _ h => h⟩

lemma trans (h : Retains cfg a b) (h' : Retains cfg b c) : Retains cfg a c :=
  ⟨h'.file.trans h.file, h.regular ∘ h'.regular,
    fun hr ha => h'.retention hr (h.retention (h'.regular hr) ha)⟩

lemma foldl {α : Type} {f : Applier → α → Applier} (hf : ∀ (a : Applier) x, Retains cfg a (f a x))
    (l : List α) (a : Applier) : Retains cfg a (l.foldl f a) := by
  induction l generalizing a with
  | nil => exact refl a
  | cons x l ih => exact (hf a x).trans (ih (f a x))

end Retains

lemma Retention_tame {s s' : State} {log : List Mark} (h : Retention cfg s log) (hs : s.Tame s') :
    Retention cfg s' log where
  apart := hs.apart h.apart
  fresh key kept hk := h.fresh key kept (hs.retained key kept hk)
  survives key hk := by
    obtain ⟨kept, hkept⟩ := Dict.mem_keys_iff.mp hk
    exact h.survives key (Dict.mem_keys_iff.mpr ⟨kept, hs.retained key kept hkept⟩)
  window := h.window

lemma Retains.of_tame (hs : a.state.Tame b.state) (hlog : b.log = a.log) (hfile : b.file = a.file) :
    Retains cfg a b :=
  ⟨hfile, fun h => hlog ▸ h, fun _ h => hlog ▸ Retention_tame h hs⟩

/-- A record of what retention does not depend on. -/
def quiet : Mark → Bool
  | .asked _ _ => true
  | .answered target => target ≠ .everything
  | .untracked _ => true
  | _ => false

lemma mark_retains (a : Applier) {m : Mark} (hm : quiet m = true) : Retains cfg a (a.mark m) := by
  refine ⟨rfl, fun h => h.2, fun _ h => ⟨h.apart, fun key kept hk => ?_, fun key hk => ?_, ?_⟩⟩
  · cases m with
    | asked p t => exact h.fresh key kept hk
    | answered t => exact h.fresh key kept hk
    | untracked k => exact h.fresh key kept hk
    | _ => cases hm
  · cases m with
    | asked p t => exact h.survives key hk
    | answered t =>
      cases t with
      | everything => cases hm
      | _ => exact h.survives key hk
    | untracked k => exact h.survives key hk
    | _ => cases hm
  · intro m' hm'
    rcases List.mem_cons.mp hm' with rfl | hm'
    · cases m' with
      | asked p t => trivial
      | answered t => trivial
      | untracked k => trivial
      | _ => cases hm
    · exact h.window m' hm'

lemma withState_retains {s : State} (hs : a.state.Tame s) : Retains cfg a (a.withState s) :=
  .of_tame hs rfl rfl

/-! ### Reloads -/

/-- A dropped group takes its retained entries with it. -/
lemma dropped_retains (a : Applier) (groupId : Text) :
    Retains cfg a ((a.withState (a.state.withoutGroup groupId)).mark (.dropped groupId)) := by
  have htame := State.Tame.withoutGroup a.state groupId
  refine ⟨rfl, fun h => h.2, fun _ h => ⟨htame.apart h.apart, fun key kept hk => ?_,
    fun key hk => ⟨?_, ?_⟩, fun m hm => ?_⟩⟩
  · exact h.fresh key kept (htame.retained key kept hk)
  · exact of_decide_eq_true ((Dict.mem_keys_filter
      (q := fun k : MemberKey => decide (k.groupId ≠ groupId))).mp hk).2
  · exact (Retention_tame h htame).survives key hk
  · rcases List.mem_cons.mp hm with rfl | hm
    · trivial
    · exact h.window m hm

lemma loadedGroup_retains {s : State} {groupId : Text}
    (h : loadGroup r a.override a.state groupId = some s) :
    Retains cfg a ((a.withState s).markGroup r groupId) := by
  unfold markGroup
  cases hread : r.graph groupId with
  | ok v => exact (withState_retains (.loadGroup h)).trans (mark_retains _ rfl)
  | notFound =>
    rw [loadGroup, hread] at h
    obtain rfl := Option.some.inj h
    exact dropped_retains a groupId
  | failed => exact withState_retains (.loadGroup h)

lemma retryLater_retains (a : Applier) (task : Later) : Retains cfg a (a.retryLater task) :=
  .of_tame (.refl a.state) rfl rfl

lemma reloadGroup_retains (a : Applier) (r : Reads) (groupId : Text) :
    Retains cfg a (a.reloadGroup r groupId) := by
  unfold reloadGroup
  cases hload : loadGroup r a.override a.state groupId with
  | some s => exact loadedGroup_retains hload
  | none => exact a.retryLater_retains _

lemma reloadGroupIfHeld_retains (a : Applier) (r : Reads) (groupId : Text) :
    Retains cfg a (a.reloadGroupIfHeld r groupId) := by
  unfold reloadGroupIfHeld
  split_ifs
  · exact a.reloadGroup_retains r groupId
  · exact .refl a

lemma applyOne_retains (a : Applier) (key : MemberKey) (entry : MemberEntry) :
    Retains cfg a (a.applyOne key entry) := by
  unfold applyOne
  split_ifs with hheld
  · refine ⟨rfl, fun h => h.2, fun hr h => ⟨?_, fun k kept hk => .inr ?_, fun k hk => ?_,
      fun m hm => ?_⟩⟩
    · refine State.putLoaded_apart h.apart (Dict.has_iff.mp hheld) fun access haccess => ?_
      have hregular : Mark.Regular a.log (.loaded a.state key entry.access) := hr.1
      rw [show entry.access = some access from haccess] at hregular
      exact hregular
    · exact h.fresh k kept (State.retained_putLoaded hk)
    · obtain ⟨kept, hkept⟩ := Dict.mem_keys_iff.mp hk
      exact h.survives k (Dict.mem_keys_iff.mpr ⟨kept, State.retained_putLoaded hkept⟩)
    · rcases List.mem_cons.mp hm with rfl | hm
      · trivial
      · exact h.window m hm
  · exact .refl a

lemma applyLoaded_retains (a : Applier) (keys : List MemberKey) (entry : MemberKey → MemberEntry) :
    Retains cfg a (a.applyLoaded keys entry) :=
  .foldl (fun a key => a.applyOne_retains key (entry key)) keys a

lemma reloadMember_retains (a : Applier) (r : Reads) (key : MemberKey) :
    Retains cfg a (a.reloadMember r key) := by
  unfold reloadMember
  split_ifs
  · cases r.access key with
    | ok access => exact a.applyLoaded_retains _ _
    | notFound => exact a.applyLoaded_retains _ _
    | failed => exact a.retryLater_retains _
  · exact .refl a

lemma loadMembers_retains (a : Applier) (r : Reads) (groupId : Text) (requested : List MemberKey) :
    Retains cfg a (a.loadMembers r groupId requested) := by
  unfold loadMembers
  dsimp only
  split_ifs
  · exact .refl a
  · cases r.accessMany groupId _ with
    | ok answer => exact a.applyLoaded_retains _ _
    | notFound => exact a.applyLoaded_retains _ _
    | failed => exact .foldl (fun a key => a.retryLater_retains _) _ a

lemma loadBatches_retains (a : Applier) (r : Reads) (groupId : Text) (keys : List MemberKey) :
    Retains cfg a (a.loadBatches r groupId keys) :=
  .foldl (fun a batch => a.loadMembers_retains r groupId batch) _ a

lemma reloadMembers_retains (a : Applier) (r : Reads) (keys : List MemberKey) :
    Retains cfg a (a.reloadMembers r keys) := by
  refine .foldl (fun a group => ?_) _ a
  split
  · exact a.reloadMember_retains r _
  · exact a.loadBatches_retains r group.1 _

lemma flushTrackLoads_retains (a : Applier) (r : Reads) : Retains cfg a (a.flushTrackLoads r) := by
  unfold flushTrackLoads
  refine .trans ?_ (.foldl (fun (a : Applier) (group : Text × List MemberKey) =>
    a.loadBatches_retains r group.1 group.2) _ _)
  exact .of_tame (.refl a.state) rfl rfl

lemma flushDeferred_retains (a : Applier) (r : Reads) : Retains cfg a (a.flushDeferred r) := by
  have hgroups : Retains cfg a (a.reloadDeferred r) := by
    unfold reloadDeferred
    refine .trans (.trans ?_ (.foldl (fun a groupId => a.reloadGroupIfHeld_retains r groupId) _ _))
      (reloadMembers_retains _ r _)
    exact .of_tame (.refl a.state) rfl rfl
  rw [flushDeferred_eq]
  cases a.deferredPosition with
  | none => exact hgroups
  | some p => exact hgroups.trans (withState_retains (.of_eq rfl rfl rfl))

lemma reloadBan_retains (a : Applier) (r : Reads) (userId : Text) :
    Retains cfg a (a.reloadBan r userId) := by
  unfold reloadBan
  cases r.ban userId with
  | none => exact a.retryLater_retains _
  | some ban =>
    refine .trans (withState_retains ?_) (mark_retains _ rfl)
    cases ban with
    | none => exact .of_eq rfl rfl rfl
    | some b =>
      refine .trans ?_ (.withRendered _ b.userId)
      exact .of_eq rfl rfl rfl

lemma reloadSanctions_retains (a : Applier) (r : Reads) (userId : Text) :
    Retains cfg a (a.reloadSanctions r userId) := by
  unfold reloadSanctions
  cases r.sanctions userId with
  | none => exact a.retryLater_retains _
  | some found =>
    refine .trans (withState_retains ?_) (mark_retains _ rfl)
    exact .of_eq rfl rfl rfl

/-! ### Events -/

/-- An event is recorded, when the entries that it outdates are dropped. -/
lemma applied_retains (a : Applier) {p : ℕ} {e : Event} {s : State} (hs : a.state.Tame s)
    (hnamed : Mark.Regular a.log (.applied a.state p e) →
      ∀ key ∈ s.retained.keys, key.userId ∉ e.namedIds a.state)
    (hwithin : a.state.Apart →
      ∀ key kept, s.retained.get? key = some kept → e.within a.state key kept.version) :
    Retains cfg a ((a.mark (.applied a.state p e)).withState s) := by
  refine ⟨rfl, fun h => h.2, fun hr h => ⟨hs.apart h.apart, fun key kept hk => ?_,
    fun key hk => ⟨hnamed hr.1 key hk, ?_⟩, fun m hm => ?_⟩⟩
  · exact ⟨hwithin h.apart key kept hk, h.fresh key kept (hs.retained key kept hk)⟩
  · exact (Retention_tame h hs).survives key hk
  · rcases List.mem_cons.mp hm with rfl | hm
    · trivial
    · exact h.window m hm

lemma deferGroupReload_retains (a : Applier) (p : ℕ) (groupId : Text) :
    Retains cfg a (a.deferGroupReload p groupId) := by
  unfold deferGroupReload
  split_ifs
  · refine (a.mark_retains (m := .asked p (.graph groupId)) rfl).trans ?_
    dsimp only
    split_ifs
    · exact .refl _
    · exact .of_tame (.refl _) rfl rfl
  · exact .refl a

lemma deferMemberReload_retains (a : Applier) (p : ℕ) (key : MemberKey) :
    Retains cfg a (a.deferMemberReload p key) := by
  unfold deferMemberReload
  refine (a.mark_retains (m := .asked p (.member key)) rfl).trans ?_
  dsimp only
  split_ifs
  · exact .refl _
  · exact .of_tame (.refl _) rfl rfl

lemma reloadMembersOf_retains (a : Applier) (p : ℕ) (ids : List Text) :
    Retains cfg a (a.reloadMembersOf p ids) :=
  .foldl (fun a key => a.deferMemberReload_retains p key) _ a

lemma applyConfig_retains (a : Applier) (p : ℕ) (mode : PermissionMode)
    (contexts : Sdk.ContextInheritance) : Retains cfg a (a.applyConfig p mode contexts) := by
  unfold applyConfig
  refine .trans (withState_retains (.withServerContexts a.override a.state contexts)) ?_
  exact .foldl (fun a groupId => a.deferGroupReload_retains p groupId) _ _

/-- A member event drops the retained entry that it may be newer than, and finds none of a person
whose member is tracked. -/
lemma applyMember_retains (a : Applier) (p : ℕ) (type : MemberEvent) (userId groupId : Text)
    (version : ℕ) :
    Retains cfg a ((a.mark (.applied a.state p (.member type userId groupId version))).applyMember p
      userId groupId version) := by
  unfold applyMember
  have hstate : (a.mark (.applied a.state p (.member type userId groupId version))).state = a.state :=
    rfl
  rw [hstate]
  cases hkey : a.state.findMemberKey userId groupId with
  | none =>
    refine a.applied_retains (.withoutRetained _ _) (fun _ _ _ h => by cases h) ?_
    intro _ key kept hk hperson
    rw [State.dropOutdatedRetained, State.withoutRetained] at hk
    dsimp only at hk
    have hleft := Dict.mem_keys_iff.mpr ⟨kept, hk⟩
    rw [Dict.mem_keys_filter (q := fun k => decide (k ∉ _))] at hleft
    have hkept : a.state.retained.get? key = some kept :=
      (State.Tame.withoutRetained a.state _).retained key kept hk
    have hnot := of_decide_eq_true hleft.2
    rw [List.mem_filter, hkept] at hnot
    have hnew : ¬(version = 0 ∨ kept.version < version) := by simpa [hperson] using hnot
    omega
  | some key =>
    obtain ⟨hmember, hgroup, hid⟩ := State.findMemberKey_eq_some hkey
    have hrecorded : Retains cfg a (a.mark (.applied a.state p (.member type userId groupId version))) := by
      refine a.applied_retains (.refl a.state) (fun _ _ _ h => by cases h) ?_
      intro hapart k kept hk hperson
      obtain ⟨x, hx, rfl⟩ := List.mem_map.mp hperson
      refine (hapart groupId userId ⟨x, hx, Dict.mem_keys_iff.mpr ⟨kept, hk⟩, key.userId, hid,
        .inl ?_⟩).elim
      rw [← hgroup]
      exact hmember
    dsimp only
    split_ifs
    · exact hrecorded
    · exact hrecorded.trans (deferMemberReload_retains _ p key)

/-- A link or unlink drops the retained entries of every person that it names. -/
lemma relink_retains (a : Applier) (r : Reads) (p : ℕ) {e : Event} (rendered : Text)
    (identities : List Text) (changedId : Text) (splitOff : Option Text)
    (hsplit : ∀ split ∈ splitOff, split = changedId)
    (hnamed : e.namedIds a.state = (identities ++ [rendered, changedId]).flatMap a.state.idsWith)
    (hwithin : ∀ key version, e.within a.state key version) :
    Retains cfg a ((a.mark (.applied a.state p e)).relink r p rendered identities changedId
      splitOff) := by
  unfold relink
  dsimp only
  refine .trans (.trans (a.applied_retains ?_ ?_ fun _ key kept _ => hwithin key kept.version)
    (.foldl (fun a id => ?_) _ _)) (reloadMembersOf_retains _ p _)
  · refine State.relinked_tame a.state (fun x hx => ?_) fun x hx => ?_
    · exact List.mem_flatMap.mpr ⟨x, List.mem_eraseDups.mpr (List.mem_append_left _ hx),
        State.self_mem_idsWith x⟩
    · refine List.mem_flatMap.mpr ⟨x, List.mem_eraseDups.mpr (List.mem_append_right _ ?_),
        State.self_mem_idsWith x⟩
      exact List.mem_singleton.mpr (hsplit x hx)
  · intro _ key hkey hkeyId
    have hkept := (Dict.mem_keys_filter (q := fun k : MemberKey => decide (k.userId ∉ _))).mp hkey
    refine of_decide_eq_true hkept.2 ?_
    rw [hnamed] at hkeyId
    obtain ⟨x, hx, hkeyId⟩ := List.mem_flatMap.mp hkeyId
    refine List.mem_flatMap.mpr ⟨x, List.mem_eraseDups.mpr ?_, hkeyId⟩
    have hx : x ∈ identities ++ [rendered] ∨ x = changedId := by
      simp only [List.mem_append, List.mem_cons, List.not_mem_nil, or_false] at hx ⊢
      tauto
    by_cases hchanged : x = changedId
    · exact List.mem_append_right _ (List.mem_singleton.mpr hchanged)
    · refine List.mem_append_left _ ?_
      have hx := List.mem_eraseDups.mpr (hx.resolve_right hchanged)
      cases hsplitOff : splitOff with
      | none => exact List.mem_eraseDups.mpr (List.mem_append_left _ hx)
      | some split =>
        refine List.mem_filter.mpr ⟨hx, decide_eq_true fun heq => hchanged ?_⟩
        exact heq.trans (hsplit split hsplitOff)
  · exact (((mark_retains a rfl).trans (reloadBan_retains _ r id)).trans (mark_retains _ rfl)).trans
      (reloadSanctions_retains _ r id)

lemma handle_retains (a : Applier) (r : Reads) (p : ℕ) (e : Event) :
    Retains cfg a ((a.mark (.applied a.state p e)).handle r p e) := by
  -- an event that names neither a person nor a member leaves the entries as they are
  have hplain : ∀ {s : State}, e.namedIds a.state = [] → (∀ key version, e.within a.state key version) →
      a.state.Tame s → Retains cfg a ((a.mark (.applied a.state p e)).withState s) := by
    intro s hnamed hwithin hs
    refine a.applied_retains hs (fun _ key _ h => ?_) fun _ key kept _ => hwithin key kept.version
    rw [hnamed] at h
    cases h
  cases e with
  | graph type groupId =>
    exact (hplain rfl (fun _ _ => trivial) (.refl a.state)).trans
      (deferGroupReload_retains _ p groupId)
  | groupDeleted groupId =>
    refine (hplain rfl (fun _ _ => trivial) (.refl a.state)).trans ((dropped_retains _ groupId).trans ?_)
    exact .of_tame (.refl _) rfl rfl
  | member type userId groupId version => exact a.applyMember_retains p type userId groupId version
  | gameUserBanned userId occurredAt expiresAt reason version =>
    exact hplain rfl (fun _ _ => trivial) (.applyBan ..)
  | gameUserUnbanned userId version => exact hplain rfl (fun _ _ => trivial) (.applyBan ..)
  | gameUserSanctioned userId type occurredAt expiresAt reason version =>
    exact hplain rfl (fun _ _ => trivial) (.applySanction ..)
  | gameUserUnsanctioned userId type version =>
    exact hplain rfl (fun _ _ => trivial) (.applySanction ..)
  | identityUpdated userId changedUserId =>
    have hrecorded : Retains cfg a (a.mark (.applied a.state p (.identityUpdated userId changedUserId))) :=
      a.applied_retains (.refl a.state) (fun hregular key hkey => hregular key hkey)
        fun _ _ _ _ => trivial
    exact hrecorded.trans (reloadMembersOf_retains _ p _)
  | identityLinked userId identities linkedUserId =>
    exact a.relink_retains r p userId identities linkedUserId none (fun _ h => by cases h) rfl
      fun _ _ => trivial
  | identityUnlinked userId identities unlinkedUserId =>
    refine a.relink_retains r p userId identities unlinkedUserId (some unlinkedUserId) ?_ rfl
      fun _ _ => trivial
    exact fun split h => (Option.some.inj h).symm
  | permissionsConfigUpdated mode contexts =>
    exact (hplain rfl (fun _ _ => trivial) (.refl a.state)).trans
      (applyConfig_retains _ p mode contexts)

lemma apply_retains (a : Applier) (r : Reads) (e : Event) (p : ℕ) :
    Retains cfg a (a.apply r e p) := by
  unfold apply
  split_ifs
  · refine (a.handle_retains r p e).trans ?_
    dsimp only
    split_ifs
    · exact .of_tame (.refl _) rfl rfl
    · exact withState_retains (.of_eq rfl rfl rfl)
  · exact .refl a

/-! ### Loads -/

lemma askMembers_retains (a : Applier) (p : ℕ) (keys : List MemberKey) :
    Retains cfg a (a.askMembers p keys) :=
  .foldl (fun a _ => a.mark_retains rfl) keys a

lemma tame_foldlM {f : State → Text → Option State}
    (hf : ∀ s groupId s', f s groupId = some s' → s.Tame s') {l : List Text} {s s' : State}
    (h : l.foldlM f s = some s') : s.Tame s' := by
  induction l generalizing s with
  | nil => exact Option.some.inj h ▸ .refl s
  | cons groupId l ih =>
    rw [List.foldlM_cons, Option.bind_eq_bind, Option.bind_eq_some_iff] at h
    obtain ⟨s₁, hstep, hrest⟩ := h
    exact (hf s groupId s₁ hstep).trans (ih hrest)

/-- A full load keeps no retained entry. -/
lemma retained_fullLoad {p : ℕ} {s : State} (h : a.fullLoad cfg r p = some s) (key : MemberKey) :
    key ∉ s.retained.keys := by
  simp only [fullLoad, Option.bind_eq_bind, Option.bind_eq_some_iff, Option.pure_def,
    Option.some.injEq] at h
  obtain ⟨next, hgroups, bans, -, sanctions, -, rfl⟩ := h
  intro hkey
  obtain ⟨kept, hkept⟩ := Dict.mem_keys_iff.mp hkey
  have hempty := (tame_foldlM (fun s groupId s' h => .loadGroup h) hgroups).retained key kept hkept
  cases hempty

lemma loadAll_retains {p : ℕ} (h : a.loadAll cfg r p = some b) : Retains cfg a b := by
  obtain ⟨s, hs, rfl⟩ := Option.map_eq_some_iff.mp h
  rw [reloadAllMembers_eq]
  refine .trans (.trans ?_ (askMembers_retains _ p _)) (reloadMembers_retains _ r _)
  have hempty := retained_fullLoad hs
  refine ⟨rfl, fun h => h.2, fun _ h => ⟨fun g id hclash => ?_, fun key kept hk => ?_,
    fun key hk => (hempty key hk).elim, fun m hm => ?_⟩⟩
  · obtain ⟨x, -, hkept, -⟩ := hclash
    exact hempty _ hkept
  · exact (hempty key (Dict.mem_keys_iff.mpr ⟨kept, hk⟩)).elim
  · rcases List.mem_cons.mp hm with rfl | hm
    · trivial
    · exact h.window m hm

lemma resync_retains (a : Applier) (r : Reads) (p : ℕ) : Retains cfg a (a.resync cfg r p) := by
  unfold resync
  refine (a.mark_retains (m := .asked p .everything) rfl).trans ?_
  dsimp only
  cases hload : (a.mark (.asked p .everything)).loadAll cfg r p with
  | none => exact retryLater_retains _ _
  | some b => exact loadAll_retains hload

lemma attemptLoad_retains (a : Applier) (r : Reads) : Retains cfg a (a.attemptLoad cfg r) := by
  unfold attemptLoad
  cases r.position with
  | none => exact .refl a
  | some p =>
    dsimp only
    cases hload : a.loadAll cfg r p with
    | none => exact .refl a
    | some b =>
      dsimp only
      split_ifs
      · exact (loadAll_retains hload).trans (.of_tame (.refl _) rfl rfl)
      · exact loadAll_retains hload

lemma attemptStart_retains (a : Applier) (r again : Reads) :
    Retains cfg a (a.attemptStart cfg r again) := by
  unfold attemptStart
  split_ifs
  · dsimp only
    split
    · exact .refl a
    · rename_i s hs
      have htame : a.state.Tame s := by
        refine tame_foldlM (fun s groupId s' h => ?_) hs
        split_ifs at h
        · exact Option.some.inj h ▸ .refl s
        · exact .loadGroup h
      refine (withState_retains htame).trans ?_
      cases r.subscribe with
      | ok => exact .of_tame (.refl _) rfl rfl
      | gone =>
        refine .trans ?_ (attemptLoad_retains _ again)
        exact .of_tame (.refl _) rfl rfl
      | failed => exact .refl _
  · exact a.attemptLoad_retains r

/-! ### Tracks -/

lemma ensurePerson_retains {userId : Text} {found : Person × Applier}
    (h : a.ensurePerson r userId = some found) : Retains cfg a found.2 := by
  unfold ensurePerson at h
  cases hp : a.state.people.get? userId with
  | some p =>
    rw [hp] at h
    obtain rfl := Option.some.inj h
    exact .refl a
  | none =>
    rw [hp] at h
    obtain ⟨list, -, rfl⟩ := Option.map_eq_some_iff.mp h
    refine ⟨rfl, fun h => h.2, fun hr h => ⟨fun g => (h.apart g).withPerson (hr.1 g), h.fresh,
      h.survives, fun m hm => ?_⟩⟩
    rcases List.mem_cons.mp hm with rfl | hm
    · trivial
    · exact h.window m hm

lemma queueTrackLoad_retains (a : Applier) (key : MemberKey) : Retains cfg a (a.queueTrackLoad key) := by
  unfold queueTrackLoad scheduleTrackFlush
  dsimp only
  split_ifs <;> exact .of_tame (.refl _) rfl rfl

/-- What a track of a fresh member takes is in its window, and leaves none of the person's. -/
lemma tracked_retains (a : Applier) (now : ℤ) (p : Person) (userId groupId : Text)
    (entry : MemberEntry) :
    let taken := takeRetained cfg now a.state p userId groupId
    Retains cfg a ((a.withState (taken.2.withMember ⟨groupId, p.key⟩ entry)).mark
      (.tracked a.state now (userId :: p.ids) ⟨groupId, p.key⟩ taken.1)) := by
  intro taken
  refine ⟨rfl, fun h => h.2, fun hr h => ?_⟩
  have hsub := (State.Tame.withoutRetained a.state
    ((userId :: p.ids).map (MemberKey.mk groupId))).retained
  have hapart : (taken.2.withMember ⟨groupId, p.key⟩ entry).Apart := by
    apply State.withMember_apart h.apart
    · exact rfl
    · exact hr.1
  refine ⟨hapart, fun key kept hk => ?_, fun key hk => ?_, fun m hm => ?_⟩
  · have hfresh := h.fresh key kept (hsub key kept hk)
    show Fresh (.tracked a.state now (userId :: p.ids) ⟨groupId, p.key⟩ taken.1 :: a.log) key _
    cases taken.1 with
    | none => exact hfresh
    | some restored =>
      rw [Fresh, if_neg]
      · exact hfresh
      · rintro rfl
        refine hapart groupId p.key ⟨p.key, State.self_mem_idsWith _, ?_, p.key,
          State.self_mem_idsWith _, .inl ?_⟩
        · exact Dict.mem_keys_iff.mpr ⟨kept, hk⟩
        · exact Dict.mem_keys_set.mpr (.inl rfl)
  · obtain ⟨kept, hkept⟩ := Dict.mem_keys_iff.mp hk
    have hsurvives := h.survives key (Dict.mem_keys_iff.mpr ⟨kept, hsub key kept hkept⟩)
    exact hsurvives
  · rcases List.mem_cons.mp hm with rfl | hm
    · show Mark.InWindow cfg (.tracked a.state now (userId :: p.ids) ⟨groupId, p.key⟩ taken.1)
      cases htaken : taken.1 with
      | none => trivial
      | some kept => exact (Option.filter_eq_some_iff.mp htaken).2
    · exact h.window m hm

lemma loadUnheld_retains (a : Applier) (r : Reads) (groupId : Text) :
    Retains cfg a (if a.state.groups.has groupId then a else a.reloadGroup r groupId) := by
  split_ifs
  · exact .refl a
  · exact a.reloadGroup_retains r groupId

lemma track_retains (a : Applier) (r : Reads) (now : ℤ) (userId groupId : Text) :
    Retains cfg a (a.track cfg r now userId groupId) := by
  unfold track
  cases hfound : a.ensurePerson r userId with
  | none => exact .refl a
  | some found =>
    obtain ⟨p, b⟩ := found
    refine (ensurePerson_retains hfound).trans ?_
    dsimp only
    cases b.state.findMemberKey userId groupId with
    | some key => exact .refl b
    | none =>
      exact .trans (.trans (b.tracked_retains now p userId groupId _)
        (loadUnheld_retains _ r groupId)) (queueTrackLoad_retains _ _)

lemma untrack_retains (a : Applier) (now : ℤ) (userId groupId : Text) :
    Retains cfg a (a.untrack cfg now userId groupId) := by
  unfold untrack
  cases hkey : a.state.findMemberKey userId groupId with
  | none => exact .refl a
  | some key =>
    dsimp only
    cases hm : a.state.members.get? key with
    | none => exact .refl a
    | some m =>
      have hdropped : Retains cfg a ((a.withState (a.state.withoutMember key)).mark (.untracked key)) :=
        (withState_retains (.withoutMember a.state key)).trans (mark_retains _ rfl)
      dsimp only
      split_ifs
      · refine ⟨rfl, fun h => h.2.2, fun hr h => ?_⟩
        have hdropped := hdropped.retention hr.2 h
        have hcases : ∀ k kept, (((a.state.withoutMember key).withoutRetained
            ((a.state.withoutMember key).personKeys key.userId groupId)).withRetained key
            ⟨m.access, now⟩).retained.get? k = some kept →
            k = key ∧ kept = ⟨m.access, now⟩ ∨ a.state.retained.get? k = some kept := by
          intro k kept hk
          have hk : (Dict.set _ key _).get? k = some kept := hk
          rw [Dict.get?_set] at hk
          split_ifs at hk with heq
          · exact .inl ⟨heq, (Option.some.inj hk).symm⟩
          · exact .inr ((State.Tame.withoutRetained (a.state.withoutMember key) _).retained k kept hk)
        refine ⟨?_, fun k kept hk => ?_, fun k hk => ?_, fun mark hmark => ?_⟩
        · exact State.withRetained_apart h.apart (State.findMemberKey_eq_some hkey).1 hr.1.2
        · rcases hcases k kept hk with ⟨rfl, rfl⟩ | hk
          · exact hr.1.1
          · exact hdropped.fresh k kept hk
        · obtain ⟨kept, hkept⟩ := Dict.mem_keys_iff.mp hk
          rcases hcases k kept hkept with ⟨rfl, -⟩ | hk
          · exact .inl rfl
          · exact .inr (hdropped.survives k (Dict.mem_keys_iff.mpr ⟨kept, hk⟩))
        · rcases List.mem_cons.mp hmark with rfl | hmark
          · trivial
          · exact hdropped.window mark hmark
      · exact hdropped

/-! ### Runs -/

lemma runLater_retains (a : Applier) (r : Reads) (task : Later) :
    Retains cfg a (a.runLater cfg r task) := by
  cases task with
  | reloadGroup groupId => exact a.reloadGroup_retains r groupId
  | reloadMember key => exact a.reloadMember_retains r key
  | reloadBan userId => exact a.reloadBan_retains r userId
  | reloadSanctions userId => exact a.reloadSanctions_retains r userId
  | resync p => exact a.resync_retains r p
  | flushTrackLoads => exact a.flushTrackLoads_retains r

lemma settle_retains (a : Applier) (t : Turn) : Retains cfg a (a.settle t) := by
  unfold settle
  split_ifs
  · exact .of_tame (.refl _) rfl rfl
  · exact (a.flushDeferred_retains t.reads).trans (.of_tame (.refl _) rfl rfl)
  · exact .of_tame (.refl _) rfl rfl

lemma pruneRetained_tame (now : ℤ) (s : State) : s.Tame (pruneRetained cfg now s) := by
  refine .of_subset rfl (fun key kept h => ?_) fun _ h => h
  have hmem := Dict.get?_eq_some_iff.mp h
  exact Dict.get?_eq_some_iff.mpr (List.mem_filter.mp hmem).1

/-- Every task but the saving of the file. -/
lemma runTask_retains (a : Applier) {t : Turn} (ht : t.task ≠ .saveSnapshot) :
    Retains cfg a (a.runTask cfg t) := by
  obtain ⟨task, r, again, now, due, next⟩ := t
  cases task with
  | event e p =>
    have hmoved : Retains cfg a { a with streamAt := p } := .of_tame (.refl a.state) rfl rfl
    exact hmoved.trans (apply_retains _ r e p)
  | resync p =>
    have hmoved : Retains cfg a { a with streamAt := p } := .of_tame (.refl a.state) rfl rfl
    exact hmoved.trans (resync_retains _ r p)
  | start => exact a.attemptStart_retains r again
  | later task =>
    have htaken : Retains cfg a { a with later := a.later.erase task } :=
      .of_tame (.refl a.state) rfl rfl
    exact htaken.trans (runLater_retains _ r task)
  | track userId groupId => exact a.track_retains r now userId groupId
  | untrack userId groupId => exact a.untrack_retains now userId groupId
  | trackGroup groupId =>
    simp only [runTask, trackGroup]
    cases hload : loadGroup r a.override a.state groupId with
    | some s => exact loadedGroup_retains hload
    | none => exact .refl a
  | resolve userId =>
    simp only [runTask]
    cases hfound : a.ensurePerson r userId with
    | none => exact .refl a
    | some found => exact ensurePerson_retains hfound
  | pruneRetained => exact withState_retains (pruneRetained_tame now a.state)
  | saveSnapshot => exact absurd rfl ht
  | setContextInheritance inheritance => exact .of_tame (.of_eq rfl rfl rfl) rfl rfl

/-- Retention holds, of the state and of the file, when what was met before is regular. -/
structure Retaining (cfg : Config) (a : Applier) : Prop where
  state : Regular a.log → Retention cfg a.state a.log
  file : ∀ saved ∈ a.file, Regular saved.2 → Retention cfg saved.1 saved.2

lemma Retaining.retains (h : a.Retaining cfg) (hab : Retains cfg a b) : b.Retaining cfg :=
  ⟨fun hr => hab.retention hr (h.state (hab.regular hr)), fun saved hs => h.file saved (hab.file ▸ hs)⟩

lemma saved_tame (s : State) : s.Tame (saved s) := by
  refine .of_subset rfl (fun _ _ h => h) fun key hkey => ?_
  obtain ⟨e, he, rfl⟩ := List.mem_map.mp hkey
  exact List.mem_map_of_mem (List.mem_filter.mp he).1

/-- A saved state read back keeps entries apart, in whatever order its people come. -/
lemma loadSnapshot_tame (override : Option Sdk.ContextInheritance) (s : State)
    {people : List Person} (hpeople : ∀ p ∈ people, p ∈ s.people.entries.map Prod.snd)
    (rendered : List Text) : s.Tame (loadSnapshot override s people rendered) := by
  -- the entries are those saved, while the people are recorded one by one
  have hfold : ∀ (l : List Person) (t : State), l ⊆ people → t.retained = s.retained →
      t.members.keys ⊆ s.members.keys → (s.Apart → t.Apart) →
      s.Tame (l.foldl State.withPerson t) := by
    intro l
    induction l with
    | nil =>
      intro t _ hretained _ hapart
      exact ⟨fun key kept h => hretained ▸ h, hapart⟩
    | cons p l ih =>
      intro t hl hretained hmembers hapart
      refine ih (t.withPerson p) (fun q hq => hl (.tail p hq)) hretained hmembers fun hs g => ?_
      refine (hapart hs g).withPerson fun hclash => ?_
      obtain ⟨e, he, rfl⟩ := List.mem_map.mp (hpeople p (hl List.mem_cons_self))
      refine State.not_clashIn_of_get? (hs g) (Dict.get?_eq_some_iff.mpr he) ?_
      exact hclash.mono (List.Subset.refl _) (fun x _ h => hretained ▸ h) fun x _ h => hmembers h
  refine .trans ?_ (.foldl .withRendered rendered _)
  refine hfold people _ (List.Subset.refl _) rfl (fun key hkey => ?_) fun hs g id hclash => ?_
  · simpa [recompiled] using hkey
  · obtain ⟨x, hx, hkept, y, hy, hother⟩ := hclash
    obtain rfl : x = id := by simpa [State.idsWith, State.idsOf, recompiled] using hx
    obtain rfl : y = x := by simpa [State.idsWith, State.idsOf, recompiled] using hy
    rcases hother with hmember | ⟨-, hne⟩
    · exact hs g y ⟨y, State.self_mem_idsWith y, hkept, y, State.self_mem_idsWith y,
        .inl (by simpa [recompiled] using hmember)⟩
    · exact hne rfl

lemma boot_retaining (h : a.Retaining cfg) (override : Option Sdk.ContextInheritance) (now : ℤ)
    {people : List Person} {rendered : List Text} (hholds : a.holds people rendered = true) :
    (a.boot cfg override now people rendered).Retaining cfg := by
  unfold boot
  cases hfile : a.file with
  | none =>
    refine ⟨fun _ => ⟨fun g id hclash => ?_, fun key kept hk => (by cases hk), fun key hk => (by cases hk),
      fun m hm => (by cases hm)⟩, fun saved hs => (by cases hs)⟩
    obtain ⟨x, -, hkept, -⟩ := hclash
    cases hkept
  | some saved =>
    obtain ⟨s, log⟩ := saved
    have hpeople : ∀ p ∈ people, p ∈ s.people.entries.map Prod.snd := by
      intro p hp
      rw [holds, hfile] at hholds
      have heq := of_decide_eq_true (Bool.and_eq_true_iff.mp hholds).1
      exact List.mem_toFinset.mp (heq ▸ List.mem_toFinset.mpr hp)
    refine ⟨fun hr => Retention_tame (h.file (s, log) hfile hr) ?_, fun saved hs => ?_⟩
    · exact (loadSnapshot_tame override s hpeople rendered).trans (pruneRetained_tame now _)
    · exact h.file saved (hfile.trans hs)

lemma step_retaining {s : Step} (h : a.Retaining cfg) (hstep : step cfg a s = some b) :
    b.Retaining cfg := by
  cases s with
  | turn t =>
    simp only [step, Option.ite_none_right_eq_some] at hstep
    obtain ⟨-, heq⟩ := hstep
    obtain rfl := Option.some.inj heq
    refine Retaining.retains ?_ (settle_retains _ t)
    by_cases ht : t.task = .saveSnapshot
    · simp only [runTask, ht, saveSnapshot]
      split_ifs
      · refine ⟨h.state, fun saved hs hr => ?_⟩
        obtain rfl := Option.some.inj hs
        exact Retention_tame (h.state hr) (saved_tame a.state)
      · exact h
    · exact h.retains (a.runTask_retains ht)
  | restart override now people rendered =>
    simp only [step, Option.ite_none_right_eq_some] at hstep
    obtain ⟨hholds, heq⟩ := hstep
    obtain rfl := Option.some.inj heq
    exact boot_retaining h override now hholds

/-- In every state reached through turns that meet what is regular, the retained entries are as
promised, and no read answers from them. -/
theorem retention_holds (cfg : Config) (steps : List Step) (a : Applier)
    (hrun : runSteps (step cfg) (initial none) steps = some a) (hregular : Regular a.log) :
    Retention cfg a.state a.log ∧ ∀ kept userId groupId,
      ({ a.state with retained := kept } : State).lookup userId groupId =
        a.state.lookup userId groupId := by
  have hempty : (initial none).Retaining cfg :=
    ⟨fun _ => ⟨fun g id ⟨x, _, hkept, _⟩ => (by cases hkept), fun key kept hk => (by cases hk),
      fun key hk => (by cases hk), fun m hm => (by cases hm)⟩, fun saved hs => (by cases hs)⟩
  have hholds : (initial none).holds [] [] = true := rfl
  have hinitial : (initial none).Retaining cfg := boot_retaining hempty none 0 hholds
  have hretaining := runSteps_invariant (fun a s b h hstep => step_retaining h hstep) hinitial hrun
  exact ⟨hretaining.state hregular, fun _ _ _ => rfl⟩

/-- Reads of a game in which Ann is a member of the crew. -/
def crewReads : Reads :=
  { quietReads with
    access := fun _ => .ok ⟨text "ann", 1, ⟨.active, [], []⟩⟩
    accessMany := fun _ _ => .ok fun _ => some ⟨text "ann", 1, ⟨.active, [], []⟩⟩
    identities := fun _ => some [text "ann"] }

def crewTurn (now : ℤ) (task : Task) : Step := .turn ⟨task, crewReads, crewReads, now, false, false⟩

/-- Ann is tracked, loaded and untracked again. -/
def untrackedAnn : List Step :=
  [crewTurn 0 .start, crewTurn 0 (.track (text "ann") (text "crew")),
    crewTurn 0 (.later .flushTrackLoads), crewTurn 10 (.untrack (text "ann") (text "crew"))]

theorem retention_holds_untrackedAnn : ∃ a,
    runSteps (step ⟨[text "crew"], some 1000⟩) (initial none) untrackedAnn = some a ∧
      a.state.retained.keys = [⟨text "crew", text "ann"⟩] ∧
      Retention ⟨[text "crew"], some 1000⟩ a.state a.log ∧ ∀ kept userId groupId,
        ({ a.state with retained := kept } : State).lookup userId groupId =
          a.state.lookup userId groupId := by
  refine ⟨_, rfl, rfl, retention_holds _ untrackedAnn _ rfl ?_⟩
  refine ⟨⟨.inl rfl, fun id _ y _ hy => ?_⟩, trivial, fun hne => ?_, fun id _ x _ hx => ?_,
    fun g => ?_, trivial, trivial⟩
  · exact congrArg MemberKey.userId (List.mem_singleton.mp hy)
  · exact absurd rfl hne
  · cases hx
  · rintro ⟨x, _, hkept, _⟩
    cases hkept

/-- An update of Ann's identity leaves her retained entry in place. -/
theorem retention_survivesIdentityUpdate : ∃ a,
    runSteps (step ⟨[text "crew"], some 1000⟩) (initial none)
      (untrackedAnn ++ [crewTurn 20 (.event (.identityUpdated (text "ann") (text "ann")) 5)]) = some a ∧
      ⟨text "crew", text "ann"⟩ ∈ a.state.retained.keys ∧
      ¬Retention ⟨[text "crew"], some 1000⟩ a.state a.log := by
  refine ⟨_, rfl, ?_, fun h => ?_⟩
  · exact List.mem_singleton_self _
  · exact (h.survives ⟨text "crew", text "ann"⟩ (List.mem_singleton_self _)).1
      (List.mem_append_left _ (State.self_mem_idsWith _))

end Applier

end Junjo.Mirror
