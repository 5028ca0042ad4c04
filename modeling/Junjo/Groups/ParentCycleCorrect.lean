import Junjo.Groups.ParentCycle

/-!
# When the group hierarchy stays without cycles
-/

namespace Junjo

namespace GroupStore

variable {store : GroupStore}

/-- `b` is the parent of `a`. -/
def ParentOf (store : GroupStore) (a b : Text) : Prop :=
  ∃ g, store.findUnique a = some g ∧ g.parentGroupId = some b

lemma parentOf_unique (a b b' : Text) (h : store.ParentOf a b) (h' : store.ParentOf a b') :
    b = b' := by
  obtain ⟨g, hg, hb⟩ := h
  obtain ⟨g', hg', hb'⟩ := h'
  rw [hg] at hg'
  cases hg'
  exact Option.some.inj (hb.symm.trans hb')

lemma findUnique_eq_some {id : Text} {g : GroupRow} :
    store.findUnique id = some g ↔ g ∈ store.groups ∧ g.id = id := by
  constructor
  · intro h
    exact ⟨List.mem_of_find?_eq_some h, by simpa using List.find?_some h⟩
  · rintro ⟨hg, rfl⟩
    cases hfind : store.findUnique g.id with
    | none => simpa using List.find?_eq_none.mp hfind g hg
    | some g' =>
      have hg' : g' ∈ store.groups := List.mem_of_find?_eq_some hfind
      have hid : g'.id = g.id := by simpa using List.find?_some hfind
      exact congrArg some (List.inj_on_of_nodup_map store.uniqueGroup hg' hg hid)

lemma findUnique_of_findGroup {gameId id : Text} {g : GroupRow}
    (h : findGroup store.groups gameId id = some g) : store.findUnique id = some g := by
  have hfound := List.find?_some h
  simp only [Bool.and_eq_true, decide_eq_true_eq] at hfound
  exact findUnique_eq_some.mpr ⟨List.mem_of_find?_eq_some h, hfound.1.1⟩

/-! ### The walk of the check -/

/-- The walk finds the group when it is an ancestor within the bound. -/
lemma walkFinds_iff {groupId : Text} {fuel : ℕ} {id : Text} {cursor : GroupRow}
    (hcursor : store.findUnique id = some cursor) :
    store.walkFinds groupId fuel cursor = true ↔
      ∃ n < fuel, groupId ∈ WalkTo store.ParentOf {id} (n + 1) := by
  induction fuel generalizing id cursor with
  | zero => simp [walkFinds]
  | succ fuel ih =>
    have hparent : ∀ p, store.ParentOf id p ↔ cursor.parentGroupId = some p := by
      intro p
      simp [ParentOf, hcursor]
    rw [walkFinds]
    cases hp : cursor.parentGroupId with
    | none =>
      refine iff_of_false (by simp) ?_
      rintro ⟨n, -, hn⟩
      obtain ⟨q, hq, -⟩ := mem_walkTo_succ.mp hn
      rw [hparent, hp] at hq
      cases hq
    | some parent =>
      have hfirst : ∀ n, groupId ∈ WalkTo store.ParentOf {id} (n + 1) ↔
          groupId ∈ WalkTo store.ParentOf {parent} n := by
        intro n
        rw [mem_walkTo_succ]
        simp only [hparent, hp, Option.some.injEq, exists_eq_left']
      simp only [hfirst]
      split_ifs with heq
      · exact iff_of_true rfl ⟨0, Nat.succ_pos fuel, heq.symm⟩
      · have hzero : groupId ∉ WalkTo store.ParentOf {parent} 0 := fun h => heq (Eq.symm h)
        cases hrow : store.findUnique parent with
        | none =>
          refine iff_of_false (by simp) ?_
          rintro ⟨n, -, hn⟩
          cases n with
          | zero => exact hzero hn
          | succ n =>
            obtain ⟨q, ⟨g, hg, -⟩, -⟩ := mem_walkTo_succ.mp hn
            rw [hrow] at hg
            cases hg
        | some row =>
          dsimp only
          rw [ih hrow]
          constructor
          · rintro ⟨n, hn, hwalk⟩
            exact ⟨n + 1, Nat.succ_lt_succ hn, hwalk⟩
          · rintro ⟨n, hn, hwalk⟩
            cases n with
            | zero => exact absurd hwalk hzero
            | succ n => exact ⟨n, Nat.lt_of_succ_lt_succ hn, hwalk⟩

/-! ### One call -/

lemma findUnique_setParent {groupId : Text} {parent : Option Text} {id : Text} :
    (store.setParent groupId parent).findUnique id =
      (store.findUnique id).map fun g =>
        if g.id = groupId then { g with parentGroupId := parent } else g := by
  rw [findUnique, setParent, List.find?_map]
  congr 1
  refine congrArg (fun p => List.find? p store.groups) (funext fun g => ?_)
  change decide ((if g.id = groupId then { g with parentGroupId := parent } else g).id = id) = _
  split_ifs <;> rfl

/-- The parents after a group's parent was set. -/
lemma parentOf_setParent {group : GroupRow} {parent : Option Text} {a b : Text}
    (hgroup : store.findUnique group.id = some group) :
    (store.setParent group.id parent).ParentOf a b ↔
      if a = group.id then parent = some b else store.ParentOf a b := by
  rw [ParentOf, findUnique_setParent]
  split_ifs with ha
  · subst ha
    simp [hgroup]
  · constructor
    · rintro ⟨g, hg, hb⟩
      obtain ⟨g', hg', rfl⟩ := Option.map_eq_some_iff.mp hg
      have hid := (findUnique_eq_some.mp hg').2
      rw [if_neg (by rw [hid]; exact ha)] at hb
      exact ⟨g', hg', hb⟩
    · rintro ⟨g, hg, hb⟩
      have hid := (findUnique_eq_some.mp hg).2
      refine ⟨g, ?_, hb⟩
      rw [hg, Option.map_some, if_neg (by rw [hid]; exact ha)]

end GroupStore

namespace ParentCall

variable {store : GroupStore} {call : ParentCall}

/-- The call moves a live group under a live one that is a descendant of it, more links below it
than the check follows. -/
def Overlong (call : ParentCall) (store : GroupStore) : Prop :=
  ∃ parent, call.parentGroupId = some parent ∧
    (findGroup store.groups call.gameId call.groupId).isSome ∧
    (findGroup store.groups call.gameId parent).isSome ∧
    ∃ n, maxParentDepth < n ∧ call.groupId ∈ WalkTo store.ParentOf {parent} n

/-- A call leaves the store as it is, or sets the parent after the checks passed. -/
lemma step_cases (call : ParentCall) (store : GroupStore) : (call.step store).1 = store ∨
    ∃ group, findGroup store.groups call.gameId call.groupId = some group ∧
      (call.step store).1 = store.setParent group.id call.parentGroupId ∧
      ∀ parent, call.parentGroupId = some parent →
        store.assertNoParentCycle call.gameId group.id parent = .ok () := by
  unfold ParentCall.step GroupStore.setGroupParentSafely
  cases hgroup : findGroup store.groups call.gameId call.groupId with
  | none => exact .inl rfl
  | some group =>
    cases hparent : call.parentGroupId with
    | none =>
      dsimp only
      split_ifs
      · exact .inl rfl
      · exact .inr ⟨group, rfl, rfl, fun _ h => by cases h⟩
    | some parent =>
      cases hcheck : store.assertNoParentCycle call.gameId group.id parent with
      | error e =>
        simp only [hcheck]
        exact .inl rfl
      | ok u =>
        simp only [hcheck]
        split_ifs
        · exact .inl rfl
        · exact .inr ⟨group, rfl, rfl, fun _ h => by cases h; exact hcheck⟩

/-- A check that passed found no ancestor of the parent within the bound. -/
lemma assertNoParentCycle_ok {gameId groupId parent : Text}
    (h : store.assertNoParentCycle gameId groupId parent = .ok ()) :
    parent ≠ groupId ∧ (findGroup store.groups gameId parent).isSome ∧
      ∀ n < maxParentDepth, groupId ∉ WalkTo store.ParentOf {parent} (n + 1) := by
  unfold GroupStore.assertNoParentCycle at h
  split_ifs at h with heq
  cases hrow : findGroup store.groups gameId parent with
  | none =>
    rw [hrow] at h
    cases h
  | some row =>
    rw [hrow] at h
    dsimp only at h
    split_ifs at h with hfinds
    refine ⟨heq, rfl, fun n hn hwalk => hfinds ?_⟩
    exact (GroupStore.walkFinds_iff (GroupStore.findUnique_of_findGroup hrow)).mpr ⟨n, hn, hwalk⟩

/-- An overlong move passes the check and closes a cycle. -/
lemma not_acyclic_of_overlong (hstore : Acyclic store.ParentOf) (h : call.Overlong store) :
    ¬ Acyclic (call.step store).1.ParentOf := by
  obtain ⟨parent, hparent, hlive, hlive', n, hn, hwalk⟩ := h
  obtain ⟨group, hgroup⟩ := Option.isSome_iff_exists.mp hlive
  obtain ⟨row, hrow⟩ := Option.isSome_iff_exists.mp hlive'
  have hfind := GroupStore.findUnique_of_findGroup hgroup
  have hid : group.id = call.groupId := (GroupStore.findUnique_eq_some.mp hfind).2
  rw [← hid] at hwalk hfind
  have hlength : ∀ m, group.id ∈ WalkTo store.ParentOf {parent} m → m = n :=
    fun m hm => hstore.walk_length_eq GroupStore.parentOf_unique hm hwalk
  have hreach : Relation.ReflTransGen store.ParentOf parent group.id := by
    obtain ⟨k, rfl⟩ := Nat.exists_eq_succ_of_ne_zero (Nat.ne_zero_of_lt hn)
    exact (transGen_iff_walkTo.mpr ⟨k, hwalk⟩).to_reflTransGen
  have hself : parent ≠ group.id := by
    rintro rfl
    exact absurd (hlength 0 rfl) (Nat.ne_zero_of_lt hn).symm
  have hfinds : store.walkFinds group.id maxParentDepth row = false := by
    refine Bool.eq_false_iff.mpr fun hfinds => ?_
    obtain ⟨m, hm, hwalk'⟩ :=
      (GroupStore.walkFinds_iff (GroupStore.findUnique_of_findGroup hrow)).mp hfinds
    exact absurd (hlength _ hwalk') (by omega)
  have hchecked : store.assertNoParentCycle call.gameId group.id parent = .ok () := by
    rw [GroupStore.assertNoParentCycle, if_neg hself, hrow]
    simp [hfinds]
  have hchanged : group.parentGroupId ≠ some parent := by
    intro heq
    exact hstore group.id (Relation.TransGen.head' ⟨group, hfind, heq⟩ hreach)
  have hstep : (call.step store).1 = store.setParent group.id (some parent) := by
    simp [step, GroupStore.setGroupParentSafely, hgroup, hparent, hchecked, hchanged]
  rw [hstep]
  refine not_acyclic_of_repoint (fun a b ha hab => ?_) ?_ hreach
  · exact (GroupStore.parentOf_setParent hfind).mpr (by rwa [if_neg ha])
  · exact (GroupStore.parentOf_setParent hfind).mpr (by rw [if_pos rfl])

/-- A call keeps the hierarchy without cycles exactly when it is no overlong move. -/
lemma acyclic_step_iff (hstore : Acyclic store.ParentOf) (call : ParentCall) :
    Acyclic (call.step store).1.ParentOf ↔ ¬ call.Overlong store := by
  refine ⟨fun h hover => not_acyclic_of_overlong hstore hover h, fun hover => ?_⟩
  rcases step_cases call store with hsame | ⟨group, hgroup, hset, hchecked⟩
  · rwa [hsame]
  · have hfind := GroupStore.findUnique_of_findGroup hgroup
    have hid : group.id = call.groupId := (GroupStore.findUnique_eq_some.mp hfind).2
    rw [← hid] at hfind
    rw [hset]
    cases hparent : call.parentGroupId with
    | none =>
      intro x hx
      refine hstore x (Relation.TransGen.mono (fun a b hab => ?_) x x hx)
      rw [GroupStore.parentOf_setParent hfind] at hab
      split_ifs at hab
      exact hab
    | some parent =>
      obtain ⟨hself, hlive, hwithin⟩ := assertNoParentCycle_ok (hchecked parent hparent)
      refine hstore.repoint (x := group.id) (p := parent) (fun a b hab => ?_) fun hreach => ?_
      · rw [GroupStore.parentOf_setParent hfind] at hab
        split_ifs at hab with ha
        · exact .inl ⟨ha, (Option.some.inj hab).symm⟩
        · exact .inr ⟨ha, hab⟩
      · rcases Relation.reflTransGen_iff_eq_or_transGen.mp hreach with heq | htrans
        · exact hself heq.symm
        · obtain ⟨n, hn⟩ := transGen_iff_walkTo.mp htrans
          have hfar : maxParentDepth ≤ n := not_lt.mp fun hlt => hwithin n hlt hn
          exact hover ⟨parent, hparent, by rw [hgroup]; rfl, hlive, n + 1, by omega,
            hid ▸ hn⟩

end ParentCall

/-- The states of a run are all without cycles exactly when no call of it is an overlong move. -/
theorem groupParents_acyclic_iff {start : GroupStore} (hstart : Acyclic start.ParentOf)
    (calls : List ParentCall) :
    (∀ before after, calls = before ++ after →
        Acyclic (runOn (fun s (c : ParentCall) => c.step s) start before).ParentOf) ↔
      ∀ before call after, calls = before ++ call :: after →
        ¬ call.Overlong (runOn (fun s (c : ParentCall) => c.step s) start before) := by
  constructor
  · intro h before call after hcalls
    have hnow := h before (call :: after) hcalls
    have hnext := h (before ++ [call]) after (by simpa using hcalls)
    rw [runOn_concat] at hnext
    exact (ParentCall.acyclic_step_iff hnow call).mp hnext
  · intro h before
    induction before using List.reverseRecOn with
    | nil => exact fun _ _ => hstart
    | append_singleton before call ih =>
      intro after hcalls
      have hcalls' : calls = before ++ call :: after := by simpa using hcalls
      rw [runOn_concat]
      exact (ParentCall.acyclic_step_iff (ih _ hcalls') call).mpr (h before call after hcalls')

/-! ### A hierarchy of 102 groups -/

/-- Group `n` of a chain in which every group's parent is the next one. -/
private def chainGroup (n : Fin 102) : GroupRow :=
  ⟨[Fin.ofNat 65536 n], text "game",
    if n.val < 101 then some [Fin.ofNat 65536 (n + 1)] else none, false⟩

private def chainStore : GroupStore where
  groups := (List.finRange 102).map chainGroup
  members := []
  uniqueGroup := by decide

/-- The top group is moved under the bottom one. -/
private def moveTop : ParentCall := ⟨text "game", [101], some [0]⟩

private lemma acyclic_chainStore : Acyclic chainStore.ParentOf := by
  have hup : ∀ g ∈ chainStore.groups, ∀ b ∈ g.parentGroupId, g.id < b := by decide
  have hlt : ∀ a b, Relation.TransGen chainStore.ParentOf a b → a < b := by
    intro a b hab
    induction hab with
    | single h =>
      obtain ⟨g, hg, hb⟩ := h
      obtain ⟨hmem, rfl⟩ := GroupStore.findUnique_eq_some.mp hg
      exact hup g hmem _ hb
    | tail _ h ih =>
      obtain ⟨g, hg, hb⟩ := h
      obtain ⟨hmem, rfl⟩ := GroupStore.findUnique_eq_some.mp hg
      exact ih.trans (hup g hmem _ hb)
  exact fun x hx => lt_irrefl x (hlt x x hx)

/-- A group in the middle is made a root. -/
private def freeMiddle : ParentCall := ⟨text "game", [50], none⟩

theorem groupParents_acyclic_iff_chain :
    ¬ freeMiddle.Overlong chainStore ∧
      Acyclic (runOn (fun s (c : ParentCall) => c.step s) chainStore [freeMiddle]).ParentOf := by
  have hshort : ¬ freeMiddle.Overlong chainStore := by
    rintro ⟨parent, hparent, -⟩
    cases hparent
  refine ⟨hshort, (groupParents_acyclic_iff acyclic_chainStore [freeMiddle]).mpr ?_ _ [] rfl⟩
  intro before call after hcalls
  obtain rfl : before = [] := by
    cases before with
    | nil => rfl
    | cons c before => simp at hcalls
  obtain ⟨rfl, -⟩ : freeMiddle = call ∧ [] = after := by simpa using hcalls
  exact hshort

/-- The check follows 100 links of the 101 and lets the move close a cycle. -/
theorem groupParents_cycle_of_102 :
    ¬ ∀ (start : GroupStore) (calls : List ParentCall), Acyclic start.ParentOf →
      Acyclic (runOn (fun s (c : ParentCall) => c.step s) start calls).ParentOf := by
  intro h
  refine h chainStore [moveTop] acyclic_chainStore [101] ?_
  have hbottom : (runOn (fun s (c : ParentCall) => c.step s) chainStore [moveTop]).ParentOf
      [101] [0] :=
    ⟨⟨[101], text "game", some [0], false⟩, by decide, rfl⟩
  have hup : ∀ n : ℕ, n < 102 →
      Relation.ReflTransGen (runOn (fun s (c : ParentCall) => c.step s) chainStore
        [moveTop]).ParentOf [0] [Fin.ofNat 65536 n] := by
    intro n hn
    induction n with
    | zero => exact .refl
    | succ n ih =>
      refine (ih (by omega)).tail ⟨chainGroup ⟨n, by omega⟩, ?_, ?_⟩
      · have hall : ∀ n : Fin 101, (runOn (fun s (c : ParentCall) => c.step s) chainStore
            [moveTop]).findUnique [Fin.ofNat 65536 n] = some (chainGroup n.castSucc) := by
          decide +kernel
        exact hall ⟨n, by omega⟩
      · simp only [chainGroup]
        rw [if_pos (by omega)]
  exact Relation.TransGen.head' hbottom (hup 101 (by omega))

end Junjo
