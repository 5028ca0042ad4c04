import Junjo.Friends.SetTags

/-!
# Which tags a friendship is left with

The rows that stand are those of calls whose requested sets have no tag in common: each delete
statement saw either all rows of a call or none of them. Any such selection of the calls can be left
standing, so the friendship ends with a requested set however the statements come exactly when the
union of every such selection is requested by one of the calls.
-/

namespace Junjo.Friends

open SetTagsState

variable {s s' : SetTagsState} {i j : ℕ} {call call' : SetTagsCall} {r r' : RowVersion Text}

lemma setCall_setCall (table table' : VersionedTable Text) (c c' : SetTagsCall) :
    (s.setCall i c table).setCall i c' table' = s.setCall i c' table' := by
  rw [setCall, setCall, List.set_set, setCall]

lemma setCall_self (hcall : s.calls[i]? = some call) : s.setCall i call s.table = s := by
  obtain ⟨hlt, rfl⟩ := List.getElem?_eq_some_iff.mp hcall
  rw [setCall, List.set_getElem_self]

/-! ### Steps -/

/-- Everything a step of a call does. -/
inductive CallStep (s : SetTagsState) (i : ℕ) (call : SetTagsCall) : SetTagsState → Prop
  | begin (h : call.phase = .waiting) :
    CallStep s i call (s.setCall i { call with phase := .deleting s.table.rows } s.table)
  | deleteRow (todo : List (RowVersion Text)) (r : RowVersion Text) (table : VersionedTable Text)
      (h : call.phase = .deleting todo) (hr : r ∈ todo)
      (htable : s.table.deleteRow i r = some table) :
    CallStep s i call (s.setCall i { call with phase := .deleting (todo.erase r) } table)
  | deleted (h : call.phase = .deleting []) :
    CallStep s i call (s.setCall i { call with phase := .inserting call.requestedTagIds } s.table)
  | insert (tagId : Text) (todo : List Text) (table : VersionedTable Text)
      (h : call.phase = .inserting (tagId :: todo))
      (htable : s.table.insert i tagId = .inserted table) :
    CallStep s i call (s.setCall i { call with phase := .inserting todo } table)
  | rollback (call' : SetTagsCall) (hids : call'.tagIds = call.tagIds)
      (hopen : call.phase ≠ .committed) (h : call'.phase = .waiting ∨ call'.phase = .failed) :
    CallStep s i call (s.setCall i call' (s.table.rollback i))
  | commit (h : call.phase = .inserting []) :
    CallStep s i call (s.setCall i { call with phase := .committed } (s.table.commit i))

lemma callStep_of_next {step : SetTagsStep} (h : s.next step = some s') :
    ∃ call, s.calls[step.call]? = some call ∧ CallStep s step.call call s' := by
  unfold SetTagsState.next at h
  cases hcall : s.calls[step.call]? with
  | none =>
    rw [hcall] at h
    cases h
  | some call =>
    rw [hcall] at h
    refine ⟨call, rfl, ?_⟩
    dsimp only at h
    cases step with
    | begin i =>
      rw [nextOf] at h
      cases hphase : call.phase with
      | waiting =>
        rw [hphase] at h
        cases h
        exact .begin hphase
      | _ =>
        rw [hphase] at h
        cases h
    | deleteRow i r =>
      rw [nextOf] at h
      cases hphase : call.phase with
      | deleting todo =>
        rw [hphase] at h
        dsimp only at h
        split_ifs at h with hr
        obtain ⟨table, htable, rfl⟩ := Option.map_eq_some_iff.mp h
        exact .deleteRow todo r table hphase hr htable
      | _ =>
        rw [hphase] at h
        cases h
    | deleted i =>
      rw [nextOf] at h
      match hphase : call.phase with
      | .deleting [] =>
        rw [hphase] at h
        cases h
        exact .deleted hphase
      | .deleting (r :: todo) | .waiting | .inserting todo | .committed | .failed =>
        rw [hphase] at h
        cases h
    | insert i =>
      rw [nextOf] at h
      match hphase : call.phase with
      | .inserting (tagId :: todo) =>
        rw [hphase] at h
        dsimp only at h
        match hinsert : s.table.insert i tagId with
        | .waits =>
          rw [hinsert] at h
          cases h
        | .violation =>
          rw [hinsert] at h
          cases h
          refine .rollback _ ?_ (by simp [hphase]) ?_
          · split_ifs <;> rfl
          · split_ifs
            · exact Or.inr rfl
            · exact Or.inl rfl
        | .inserted table =>
          rw [hinsert] at h
          cases h
          exact .insert tagId todo table hphase hinsert
      | .inserting [] | .deleting todo | .waiting | .committed | .failed =>
        rw [hphase] at h
        cases h
    | commit i =>
      rw [nextOf] at h
      match hphase : call.phase with
      | .inserting [] =>
        rw [hphase] at h
        cases h
        exact .commit hphase
      | .inserting (tagId :: todo) | .deleting todo | .waiting | .committed | .failed =>
        rw [hphase] at h
        cases h
    | abort i =>
      rw [nextOf] at h
      match hphase : call.phase with
      | .committed | .failed =>
        rw [hphase] at h
        cases h
      | .waiting | .deleting todo | .inserting todo =>
        rw [hphase] at h
        cases h
        exact .rollback _ rfl (by simp [hphase]) (Or.inr rfl)

/-! ### What holds of every state -/

/-- A call whose transaction is open. -/
def SetTagsCall.IsOpen (call : SetTagsCall) : Prop :=
  (∃ todo, call.phase = .deleting todo) ∨ ∃ todo, call.phase = .inserting todo

/-- A call that has committed. -/
def Committed (calls : List SetTagsCall) (j : ℕ) : Prop :=
  ∃ call, calls[j]? = some call ∧ call.phase = .committed

/-- The versions that the delete statement of a call deleted or has not come to. -/
def Seen (table : VersionedTable Text) (i : ℕ) (call : SetTagsCall) (r : RowVersion Text) : Prop :=
  (r, i) ∈ table.deleting ∨ ∃ todo, call.phase = .deleting todo ∧ r ∈ todo

/-- What the delete statement of a call saw of the rows that stand: all rows of a writer or none, all
rows before a first commit, and no rows of calls that have not committed. -/
structure SawWhole (s : SetTagsState) (i : ℕ) (call : SetTagsCall) : Prop where
  whole : ∀ r ∈ s.table.rows, ∀ r' ∈ s.table.rows, r.writer = r'.writer → Seen s.table i call r →
    Seen s.table i call r'
  first : (∀ j, ¬Committed s.calls j) → ∀ r ∈ s.table.rows, Seen s.table i call r
  known : ∀ r j, Seen s.table i call r → r.writer = some j → Committed s.calls j

/-- The open changes of a call go with where it is. -/
structure CallOk (table : VersionedTable Text) (i : ℕ) (call : SetTagsCall) : Prop where
  deleting : ∀ r, (r, i) ∈ table.deleting → call.IsOpen
  inserting : ∀ key, (key, i) ∈ table.inserting ↔
    ∃ todo, call.phase = .inserting todo ∧ key ∈ call.requestedTagIds ∧ key ∉ todo
  tail : ∀ todo, call.phase = .inserting todo → todo <:+ call.requestedTagIds

structure SetTagsInv (s : SetTagsState) : Prop where
  unique : s.table.Unique
  ok : ∀ i call, s.calls[i]? = some call → CallOk s.table i call
  saw : ∀ i call, s.calls[i]? = some call → call.IsOpen → SawWhole s i call
  written : ∀ r ∈ s.table.rows, ∀ i, r.writer = some i →
    ∃ call : SetTagsCall, s.calls[i]? = some call ∧ call.phase = .committed ∧
      r.key ∈ call.requestedTagIds ∧ ∀ key ∈ call.requestedTagIds, ⟨key, some i⟩ ∈ s.table.rows
  initial : ∀ r ∈ s.table.rows, r.writer = none → ∀ j, ¬Committed s.calls j
  empty : (∃ j, Committed s.calls j) → s.table.rows = [] →
    ∃ (j : ℕ) (call : SetTagsCall), s.calls[j]? = some call ∧ call.phase = .committed ∧
      call.requestedTagIds = []

lemma committed_setCall (hcall : s.calls[i]? = some call) (h : call.phase ≠ .committed)
    (h' : call'.phase ≠ .committed) (table : VersionedTable Text) :
    Committed (s.setCall i call' table).calls j ↔ Committed s.calls j := by
  unfold Committed setCall
  by_cases hj : i = j
  · subst hj
    dsimp only
    rw [getElem?_set_of_some hcall, hcall]
    simp [h, h']
  · dsimp only
    rw [List.getElem?_set_ne hj]

/-- The rows stay as they are. -/
lemma SetTagsInv.keepRows (h : SetTagsInv s) (hcall : s.calls[i]? = some call)
    {table : VersionedTable Text} (hrows : table.rows = s.table.rows) (hunique : table.Unique)
    (hopen : call.phase ≠ .committed) (hopen' : call'.phase ≠ .committed)
    (hdeleting : ∀ r j, j ≠ i → ((r, j) ∈ table.deleting ↔ (r, j) ∈ s.table.deleting))
    (hinserting : ∀ key j, j ≠ i → ((key, j) ∈ table.inserting ↔ (key, j) ∈ s.table.inserting))
    (hok : CallOk table i call') (hsaw : call'.IsOpen → SawWhole (s.setCall i call' table) i call') :
    SetTagsInv (s.setCall i call' table) := by
  have hcommitted : ∀ j, Committed (s.setCall i call' table).calls j ↔ Committed s.calls j :=
    fun j => committed_setCall hcall hopen hopen' table
  refine ⟨hunique, ?_, ?_, ?_, ?_, ?_⟩
  · intro j c hc
    rcases getElem?_set_cases hc with ⟨rfl, rfl⟩ | ⟨hj, hc⟩
    · exact hok
    · have hold := h.ok j c hc
      exact ⟨fun r hr => hold.deleting r ((hdeleting r j hj).mp hr),
        fun key => (hinserting key j hj).trans (hold.inserting key), hold.tail⟩
  · intro j c hc hcopen
    rcases getElem?_set_cases hc with ⟨rfl, rfl⟩ | ⟨hj, hc⟩
    · exact hsaw hcopen
    · have hold := h.saw j c hc hcopen
      have hseen : ∀ r, Seen table j c r ↔ Seen s.table j c r := fun r =>
        or_congr_left (hdeleting r j hj)
      refine ⟨?_, ?_, ?_⟩
      · intro r hr r' hr' heq
        rw [setCall, hrows] at hr hr'
        rw [setCall, hseen, hseen]
        exact hold.whole r hr r' hr' heq
      · intro hnone r hr
        rw [setCall, hrows] at hr
        rw [setCall, hseen]
        exact hold.first (fun k hk => hnone k ((hcommitted k).mpr hk)) r hr
      · intro r k hr hwriter
        rw [setCall, hseen] at hr
        exact (hcommitted k).mpr (hold.known r k hr hwriter)
  · intro r hr k hwriter
    rw [setCall, hrows] at hr
    obtain ⟨c, hc, hphase, hkey, hall⟩ := h.written r hr k hwriter
    have hk : i ≠ k := by
      rintro rfl
      rw [hcall] at hc
      cases hc
      exact hopen hphase
    refine ⟨c, by rw [setCall, List.getElem?_set_ne hk]; exact hc, hphase, hkey, ?_⟩
    rw [setCall, hrows]
    exact hall
  · intro r hr hwriter k hk
    rw [setCall, hrows] at hr
    exact h.initial r hr hwriter k ((hcommitted k).mp hk)
  · rintro ⟨k, hk⟩ hempty
    rw [setCall, hrows] at hempty
    obtain ⟨m, c, hc, hphase, hnil⟩ := h.empty ⟨k, (hcommitted k).mp hk⟩ hempty
    have hm : i ≠ m := by
      rintro rfl
      rw [hcall] at hc
      cases hc
      exact hopen hphase
    exact ⟨m, c, by rw [setCall, List.getElem?_set_ne hm]; exact hc, hphase, hnil⟩

/-- A transaction is rolled back. -/
lemma SetTagsInv.rollback (h : SetTagsInv s) (hcall : s.calls[i]? = some call) (hopen : call.phase ≠ .committed)
    (hclosed : call'.phase = .waiting ∨ call'.phase = .failed) :
    SetTagsInv (s.setCall i call' (s.table.rollback i)) := by
  have hnot : ¬call'.IsOpen := by
    rintro (⟨todo, hphase⟩ | ⟨todo, hphase⟩) <;> rcases hclosed with hc | hc <;>
      · rw [hc] at hphase
        cases hphase
  refine h.keepRows hcall rfl (h.unique.rollback i) hopen ?_ ?_ ?_ ⟨?_, ?_, ?_⟩ fun ho => absurd ho hnot
  · rcases hclosed with hc | hc <;> simp [hc]
  · intro r j hj
    simp [hj]
  · intro key j hj
    simp [hj]
  · intro r hr
    simp at hr
  · intro key
    simp only [VersionedTable.mem_inserting_rollback, ne_eq, not_true_eq_false, and_false,
      false_iff, not_exists, not_and]
    exact fun todo hphase => absurd (Or.inr ⟨todo, hphase⟩) hnot
  · exact fun todo hphase => absurd (Or.inr ⟨todo, hphase⟩) hnot

/-- A delete statement begins. -/
lemma SetTagsInv.begin (h : SetTagsInv s) (hcall : s.calls[i]? = some call) (hphase : call.phase = .waiting) :
    SetTagsInv (s.setCall i { call with phase := .deleting s.table.rows } s.table) := by
  have hold := h.ok i call hcall
  have hfree : ∀ r, (r, i) ∉ s.table.deleting := by
    intro r hr
    rcases hold.deleting r hr with ⟨todo, hopen⟩ | ⟨todo, hopen⟩ <;>
      · rw [hphase] at hopen
        cases hopen
  have hcommitted : ∀ j, Committed
      (s.setCall i { call with phase := .deleting s.table.rows } s.table).calls j
        ↔ Committed s.calls j := fun j => committed_setCall hcall (by simp [hphase]) (by simp) s.table
  have hall : ∀ r, Seen s.table i { call with phase := .deleting s.table.rows } r
      ↔ r ∈ s.table.rows := by
    intro r
    simp [Seen, hfree]
  refine h.keepRows hcall rfl h.unique (by simp [hphase]) (by simp) (fun _ _ _ => Iff.rfl)
    (fun _ _ _ => Iff.rfl) ⟨fun r hr => absurd hr (hfree r), ?_, by simp⟩ fun _ => ⟨?_, ?_, ?_⟩
  · intro key
    rw [hold.inserting key, hphase]
    simp
  · intro r _ r' hr' _ _
    exact (hall r').mpr hr'
  · intro _ r hr
    exact (hall r).mpr hr
  · intro r j hr hwriter
    obtain ⟨c, hc, hcphase, -, -⟩ := h.written r ((hall r).mp hr) j hwriter
    exact (hcommitted j).mpr ⟨c, hc, hcphase⟩

/-- A delete statement comes to a version. -/
lemma SetTagsInv.deleteRow (h : SetTagsInv s) (hcall : s.calls[i]? = some call)
    {todo : List (RowVersion Text)} {table : VersionedTable Text}
    (hphase : call.phase = .deleting todo) (hr : r ∈ todo)
    (htable : s.table.deleteRow i r = some table) :
    SetTagsInv (s.setCall i { call with phase := .deleting (todo.erase r) } table) := by
  obtain ⟨hrows, hinserting, hsub, hnew, hdeleted⟩ := VersionedTable.deleteRow_rows htable
  have hold := h.ok i call hcall
  have hsaw := h.saw i call hcall (Or.inl ⟨todo, hphase⟩)
  have hcommitted : ∀ j, Committed
      (s.setCall i { call with phase := .deleting (todo.erase r) } table).calls j
        ↔ Committed s.calls j := fun j => committed_setCall hcall (by simp [hphase]) (by simp) table
  -- Nothing it saw before is unseen now, but for the version when it is gone.
  have hseen : ∀ x, Seen table i { call with phase := .deleting (todo.erase r) } x →
      Seen s.table i call x := by
    rintro x (hx | ⟨todo', htodo, hx⟩)
    · rcases hnew _ hx with hx | ⟨heq, -⟩
      · exact Or.inl hx
      · obtain ⟨rfl, -⟩ := Prod.mk.inj heq
        exact Or.inr ⟨todo, hphase, hr⟩
    · cases htodo
      exact Or.inr ⟨todo, hphase, List.mem_of_mem_erase hx⟩
  have hstill : ∀ x ∈ s.table.rows, Seen s.table i call x →
      Seen table i { call with phase := .deleting (todo.erase r) } x := by
    rintro x hx (hdel | ⟨todo', htodo, hmem⟩)
    · exact Or.inl (hsub hdel)
    · rw [hphase] at htodo
      cases htodo
      by_cases heq : x = r
      · subst heq
        exact Or.inl (hdeleted hx)
      · exact Or.inr ⟨_, rfl, (List.mem_erase_of_ne heq).mpr hmem⟩
  refine h.keepRows hcall hrows (h.unique.deleteRow htable) (by simp [hphase]) (by simp) ?_ ?_
    ⟨fun _ _ => Or.inl ⟨_, rfl⟩, ?_, by simp⟩ fun _ => ⟨?_, ?_, ?_⟩
  · intro x j hj
    refine ⟨fun hx => ?_, fun hx => hsub hx⟩
    rcases hnew _ hx with hx | ⟨heq, -⟩
    · exact hx
    · exact absurd (Prod.mk.inj heq).2 hj
  · intro key j _
    rw [hinserting]
  · intro key
    rw [hinserting, hold.inserting key, hphase]
    simp
  · intro x hx x' hx' heq hx_seen
    rw [setCall, hrows] at hx hx'
    exact hstill x' hx' (hsaw.whole x hx x' hx' heq (hseen x hx_seen))
  · intro hnone x hx
    rw [setCall, hrows] at hx
    exact hstill x hx (hsaw.first (fun k hk => hnone k ((hcommitted k).mpr hk)) x hx)
  · intro x k hx hwriter
    exact (hcommitted k).mpr (hsaw.known x k (hseen x hx) hwriter)

/-- A transaction that goes on with its inserts saw what it saw. -/
lemma SawWhole.keep (h : SawWhole s i call) (hcall : s.calls[i]? = some call)
    {table : VersionedTable Text} (hrows : table.rows = s.table.rows)
    (hdeleting : table.deleting = s.table.deleting)
    (hopen : call.phase ≠ .committed) (hopen' : call'.phase ≠ .committed)
    (hseen : ∀ r, (∃ todo, call'.phase = .deleting todo ∧ r ∈ todo)
      ↔ ∃ todo, call.phase = .deleting todo ∧ r ∈ todo) :
    SawWhole (s.setCall i call' table) i call' := by
  have hcommitted : ∀ j, Committed (s.setCall i call' table).calls j ↔ Committed s.calls j :=
    fun j => committed_setCall hcall hopen hopen' table
  have hsame : ∀ r, Seen table i call' r ↔ Seen s.table i call r := by
    intro r
    unfold Seen
    rw [hdeleting, hseen]
  refine ⟨?_, ?_, ?_⟩
  · intro r hr r' hr' heq
    rw [setCall, hrows] at hr hr'
    rw [setCall, hsame, hsame]
    exact h.whole r hr r' hr' heq
  · intro hnone r hr
    rw [setCall, hrows] at hr
    rw [setCall, hsame]
    exact h.first (fun k hk => hnone k ((hcommitted k).mpr hk)) r hr
  · intro r k hr hwriter
    rw [setCall, hsame] at hr
    exact (hcommitted k).mpr (h.known r k hr hwriter)

/-- A delete statement ends. -/
lemma SetTagsInv.deleted (h : SetTagsInv s) (hcall : s.calls[i]? = some call) (hphase : call.phase = .deleting []) :
    SetTagsInv (s.setCall i { call with phase := .inserting call.requestedTagIds } s.table) := by
  have hold := h.ok i call hcall
  have hsaw := h.saw i call hcall (Or.inl ⟨[], hphase⟩)
  refine h.keepRows hcall rfl h.unique (by simp [hphase]) (by simp) (fun _ _ _ => Iff.rfl)
    (fun _ _ _ => Iff.rfl) ⟨fun _ _ => Or.inr ⟨_, rfl⟩, ?_, ?_⟩ fun _ => ?_
  · intro key
    rw [hold.inserting key, hphase]
    simp [SetTagsCall.requestedTagIds]
  · rintro todo htodo
    cases htodo
    exact List.suffix_refl _
  · exact hsaw.keep hcall rfl rfl (by simp [hphase]) (by simp) (by simp [hphase])

lemma nodup_requestedTagIds (call : SetTagsCall) : call.requestedTagIds.Nodup := nodup_eraseDups _

/-- A tag is inserted. -/
lemma SetTagsInv.insert (h : SetTagsInv s) (hcall : s.calls[i]? = some call) {tagId : Text} {todo : List Text}
    {table : VersionedTable Text} (hphase : call.phase = .inserting (tagId :: todo))
    (htable : s.table.insert i tagId = .inserted table) :
    SetTagsInv (s.setCall i { call with phase := .inserting todo } table) := by
  obtain ⟨rfl, -, -⟩ := VersionedTable.insert_inserted htable
  have hold := h.ok i call hcall
  have hsaw := h.saw i call hcall (Or.inr ⟨_, hphase⟩)
  have hsuffix := hold.tail _ hphase
  have hnodup : (tagId :: todo).Nodup := (nodup_requestedTagIds call).sublist hsuffix.sublist
  refine h.keepRows hcall rfl (h.unique.insert htable) (by simp [hphase]) (by simp)
    (fun _ _ _ => Iff.rfl) ?_ ⟨fun _ _ => Or.inr ⟨_, rfl⟩, ?_, ?_⟩ fun _ => ?_
  · intro key j hj
    simp [hj]
  · intro key
    have hmem : tagId ∈ call.requestedTagIds := hsuffix.subset List.mem_cons_self
    dsimp only
    rw [List.mem_append, hold.inserting key, hphase, List.mem_singleton, Prod.mk.injEq]
    simp only [SetTagsPhase.inserting.injEq, exists_eq_left', and_true]
    constructor
    · rintro (⟨hkey, hnot⟩ | rfl)
      · exact ⟨hkey, fun hin => hnot (List.mem_cons_of_mem _ hin)⟩
      · exact ⟨hmem, (List.nodup_cons.mp hnodup).1⟩
    · rintro ⟨hkey, hnot⟩
      by_cases heq : key = tagId
      · exact Or.inr heq
      · refine Or.inl ⟨hkey, fun hin => ?_⟩
        rcases List.mem_cons.mp hin with hin | hin
        · exact heq hin
        · exact hnot hin
  · rintro todo' htodo
    cases htodo
    exact (List.suffix_cons _ _).trans hsuffix
  · exact hsaw.keep hcall rfl rfl (by simp [hphase]) (by simp) (by simp [hphase])

/-- A call commits. -/
lemma SetTagsInv.commit (h : SetTagsInv s) (hcall : s.calls[i]? = some call)
    (hphase : call.phase = .inserting []) :
    SetTagsInv (s.setCall i { call with phase := .committed } (s.table.commit i)) := by
  have hold := h.ok i call hcall
  have hsaw := h.saw i call hcall (Or.inr ⟨[], hphase⟩)
  have hadded : ∀ r, r ∈ s.table.added i ↔ r.key ∈ call.requestedTagIds ∧ r.writer = some i := by
    intro r
    rw [VersionedTable.mem_added, hold.inserting, hphase]
    simp
  have hseen : ∀ r, Seen s.table i call r ↔ (r, i) ∈ s.table.deleting := by
    intro r
    simp [Seen, hphase]
  have hnot : ¬Committed s.calls i := by
    rintro ⟨c, hc, hcommitted⟩
    rw [hcall] at hc
    cases hc
    rw [hphase] at hcommitted
    cases hcommitted
  have hcommitted : ∀ j, Committed
      (s.setCall i { call with phase := .committed } (s.table.commit i)).calls j
        ↔ j = i ∨ Committed s.calls j := by
    intro j
    unfold Committed setCall
    dsimp only
    by_cases hj : i = j
    · subst hj
      rw [getElem?_set_of_some hcall]
      simp
    · rw [List.getElem?_set_ne hj]
      simp [Ne.symm hj]
  -- The rows of a writer that stand are all deleted or all kept.
  have hkept : ∀ r ∈ s.table.kept i, ∀ r' ∈ s.table.rows, r.writer = r'.writer →
      r' ∈ s.table.kept i := by
    intro r hr r' hr' heq
    obtain ⟨hr, hnot⟩ := VersionedTable.mem_kept.mp hr
    refine VersionedTable.mem_kept.mpr ⟨hr', fun hdel => hnot ?_⟩
    exact (hseen r).mp (hsaw.whole r' hr' r hr heq.symm ((hseen r').mpr hdel))
  have hothers : ∀ j, j ≠ i → ∀ c, ∀ r, Seen (s.table.commit i) j c r ↔ Seen s.table j c r := by
    intro j hj c r
    refine or_congr_left ?_
    rw [VersionedTable.deleting_commit, VersionedTable.mem_deleting_rollback]
    exact and_iff_left hj
  refine ⟨h.unique.commit i, ?_, ?_, ?_, ?_, ?_⟩
  · intro j c hc
    rcases getElem?_set_cases hc with ⟨rfl, rfl⟩ | ⟨hj, hc⟩
    · refine ⟨?_, ?_, by simp⟩
      · intro r hr
        rw [setCall, VersionedTable.deleting_commit, VersionedTable.mem_deleting_rollback] at hr
        exact absurd rfl hr.2
      · intro key
        rw [setCall, VersionedTable.inserting_commit, VersionedTable.mem_inserting_rollback]
        simp
    · have hok := h.ok j c hc
      refine ⟨?_, ?_, hok.tail⟩
      · intro r hr
        rw [setCall, VersionedTable.deleting_commit, VersionedTable.mem_deleting_rollback] at hr
        exact hok.deleting r hr.1
      · intro key
        rw [setCall, VersionedTable.inserting_commit, VersionedTable.mem_inserting_rollback]
        exact (and_iff_left hj).trans (hok.inserting key)
  · intro j c hc hopen
    rcases getElem?_set_cases hc with ⟨rfl, rfl⟩ | ⟨hj, hc⟩
    · rcases hopen with ⟨todo, hopen⟩ | ⟨todo, hopen⟩ <;> cases hopen
    · have hold' := h.saw j c hc hopen
      refine ⟨?_, ?_, ?_⟩
      · intro r hr r' hr' heq hr_seen
        rw [setCall, hothers j hj] at hr_seen ⊢
        rw [setCall, VersionedTable.rows_commit, List.mem_append] at hr hr'
        have hunwritten : r.writer ≠ some i := fun hw => hnot (hold'.known r i hr_seen hw)
        have hr : r ∈ s.table.kept i :=
          hr.resolve_right fun hr => hunwritten ((hadded r).mp hr).2
        have hr' : r' ∈ s.table.kept i :=
          hr'.resolve_right fun hr' => hunwritten (heq.trans ((hadded r').mp hr').2)
        exact hold'.whole r (VersionedTable.mem_kept.mp hr).1 r' (VersionedTable.mem_kept.mp hr').1
          heq hr_seen
      · intro hnone
        exact absurd ((hcommitted i).mpr (Or.inl rfl)) (hnone i)
      · intro r k hr hwriter
        rw [setCall, hothers j hj] at hr
        exact (hcommitted k).mpr (Or.inr (hold'.known r k hr hwriter))
  · intro r hr k hwriter
    rw [setCall, VersionedTable.rows_commit, List.mem_append] at hr
    rcases hr with hr | hr
    · obtain ⟨c, hc, hcphase, hkey, hall⟩ :=
        h.written r (VersionedTable.mem_kept.mp hr).1 k hwriter
      have hk : i ≠ k := by
        rintro rfl
        exact hnot ⟨c, hc, hcphase⟩
      refine ⟨c, by rw [setCall, List.getElem?_set_ne hk]; exact hc, hcphase, hkey, ?_⟩
      intro key hin
      exact List.mem_append_left _ (hkept r hr _ (hall key hin) hwriter)
    · obtain ⟨hkey, hw⟩ := (hadded r).mp hr
      obtain rfl : i = k := Option.some.inj (hw.symm.trans hwriter)
      refine ⟨_, getElem?_set_of_some hcall, rfl, hkey, ?_⟩
      intro key hin
      exact List.mem_append_right _ ((hadded _).mpr ⟨hin, rfl⟩)
  · intro r hr hwriter
    rw [setCall, VersionedTable.rows_commit, List.mem_append] at hr
    rcases hr with hr | hr
    · obtain ⟨hr, hstays⟩ := VersionedTable.mem_kept.mp hr
      exact absurd ((hseen r).mp (hsaw.first (h.initial r hr hwriter) r hr)) hstays
    · rw [((hadded r).mp hr).2] at hwriter
      cases hwriter
  · rintro - hempty
    rw [setCall, VersionedTable.rows_commit, List.append_eq_nil_iff] at hempty
    refine ⟨i, _, getElem?_set_of_some hcall, rfl, ?_⟩
    rw [List.eq_nil_iff_forall_not_mem]
    intro key hkey
    have hrow : (⟨key, some i⟩ : RowVersion Text) ∈ s.table.added i := (hadded _).mpr ⟨hkey, rfl⟩
    rw [hempty.2] at hrow
    cases hrow

lemma SetTagsInv.step (h : SetTagsInv s) {step : SetTagsStep} (hstep : s.next step = some s') :
    SetTagsInv s' := by
  obtain ⟨call, hcall, hdone⟩ := callStep_of_next hstep
  cases hdone with
  | begin hphase => exact h.begin hcall hphase
  | deleteRow todo r table hphase hr htable => exact h.deleteRow hcall hphase hr htable
  | deleted hphase => exact h.deleted hcall hphase
  | insert tagId todo table hphase htable => exact h.insert hcall hphase htable
  | rollback call' _ hopen hclosed => exact h.rollback hcall hopen hclosed
  | commit hphase => exact h.commit hcall hphase

variable {tags : List Text} {calls : List (List Text)} {steps : List SetTagsStep}

lemma start_call (h : (start tags calls).calls[i]? = some call) : call.phase = .waiting := by
  rw [start, List.getElem?_map] at h
  obtain ⟨tagIds, -, rfl⟩ := Option.map_eq_some_iff.mp h
  rfl

lemma not_committed_start : ¬Committed (start tags calls).calls i := by
  rintro ⟨call, hcall, hphase⟩
  rw [start_call hcall] at hphase
  cases hphase

lemma writer_start (h : r ∈ (start tags calls).table.rows) : r.writer = none := by
  rw [start] at h
  obtain ⟨tag, -, rfl⟩ := List.mem_map.mp h
  rfl

lemma setTagsInv_start (tags : List Text) (calls : List (List Text)) :
    SetTagsInv (start tags calls) := by
  refine ⟨⟨?_, List.nodup_nil, by simp [start]⟩, ?_, ?_, ?_, ?_, ?_⟩
  · have hkeys : (start tags calls).table.rows.map RowVersion.key = tags.eraseDups := by
      simp [start, Function.comp_def]
    rw [hkeys]
    exact nodup_eraseDups tags
  · intro i call hcall
    have hphase := start_call hcall
    exact ⟨fun r hr => absurd hr (by simp [start]), by simp [start, hphase], by simp [hphase]⟩
  · intro i call hcall hopen
    have hphase := start_call hcall
    rcases hopen with ⟨todo, hopen⟩ | ⟨todo, hopen⟩ <;>
      · rw [hphase] at hopen
        cases hopen
  · intro r hr i hwriter
    rw [writer_start hr] at hwriter
    cases hwriter
  · exact fun r _ _ i => not_committed_start
  · rintro ⟨i, hi⟩
    exact absurd hi not_committed_start

/-- What the calls request does not change. -/
lemma tagIds_step {step : SetTagsStep} (hstep : s.next step = some s') :
    s'.calls.map SetTagsCall.tagIds = s.calls.map SetTagsCall.tagIds := by
  obtain ⟨call, hcall, hdone⟩ := callStep_of_next hstep
  have hset : ∀ call' : SetTagsCall, call'.tagIds = call.tagIds → ∀ table : VersionedTable Text,
      (s.setCall step.call call' table).calls.map SetTagsCall.tagIds
        = s.calls.map SetTagsCall.tagIds := by
    intro call' hids table
    have hget : (s.calls.map SetTagsCall.tagIds)[step.call]? = some call.tagIds := by
      rw [List.getElem?_map, hcall]
      rfl
    obtain ⟨hlt, hval⟩ := List.getElem?_eq_some_iff.mp hget
    rw [setCall, List.map_set, hids, ← hval, List.set_getElem_self]
  cases hdone with
  | rollback call' hids _ _ => exact hset call' hids _
  | _ =>
    refine hset _ ?_ _
    rfl

lemma setTagsInv_run (hrun : runSteps SetTagsState.next (start tags calls) steps = some s) :
    SetTagsInv s ∧ s.calls.map SetTagsCall.tagIds = calls := by
  refine runSteps_invariant (P := fun s => SetTagsInv s ∧ s.calls.map SetTagsCall.tagIds = calls)
    (fun s e s' h hstep => ⟨h.1.step hstep, (tagIds_step hstep).trans h.2⟩) ?_ hrun
  refine ⟨setTagsInv_start tags calls, ?_⟩
  simp [start, Function.comp_def]

/-! ### Which sets can be left -/

/-- The union of every selection of requested sets without common tags is requested. -/
def UnionsRequested (calls : List (List Text)) : Prop :=
  ∀ chosen, chosen.Sublist calls → chosen ≠ [] → chosen.Pairwise List.Disjoint →
    ∃ tagIds ∈ calls, ∀ tag, tag ∈ tagIds ↔ ∃ c ∈ chosen, tag ∈ c

lemma allCommitted_iff : s.allCommitted = true ↔ ∀ j < s.calls.length, Committed s.calls j := by
  unfold allCommitted
  rw [List.all_eq_true]
  constructor
  · intro h j hj
    exact ⟨_, List.getElem?_eq_getElem hj, by simpa using h _ (List.getElem_mem hj)⟩
  · intro h call hcall
    obtain ⟨j, hj, rfl⟩ := List.mem_iff_getElem.mp hcall
    obtain ⟨c, hc, hphase⟩ := h j hj
    rw [List.getElem?_eq_getElem hj] at hc
    cases hc
    simpa using hphase

lemma mem_requestedTagIds {tag : Text} : tag ∈ call.requestedTagIds ↔ tag ∈ call.tagIds :=
  List.mem_eraseDups

/-- The calls that have rows standing, with their positions. -/
def standing (s : SetTagsState) : List (SetTagsCall × ℕ) :=
  s.calls.zipIdx.filter fun c => s.table.rows.any fun r => r.writer = some c.2

/-- A call that has a row standing has all its rows standing. -/
lemma SetTagsInv.rows_standing (h : SetTagsInv s) {c : SetTagsCall × ℕ} (hc : c ∈ standing s) :
    ∀ key ∈ c.1.tagIds, ⟨key, some c.2⟩ ∈ s.table.rows := by
  obtain ⟨hmem, hany⟩ := List.mem_filter.mp hc
  obtain ⟨r, hr, hwriter⟩ := List.any_eq_true.mp hany
  obtain ⟨call, hcall, -, -, hkeys⟩ := h.written r hr c.2 (by simpa using hwriter)
  rw [List.mem_zipIdx_iff_getElem?, hcall] at hmem
  cases hmem
  intro key hkey
  exact hkeys key (mem_requestedTagIds.mpr hkey)

/-- What stands is a selection of requested sets without common tags. -/
lemma SetTagsInv.exists_chosen (h : SetTagsInv s) (hall : s.allCommitted = true)
    (hne : s.calls ≠ []) :
    ∃ chosen, chosen.Sublist (s.calls.map SetTagsCall.tagIds) ∧ chosen ≠ [] ∧
      chosen.Pairwise List.Disjoint ∧ ∀ tag, tag ∈ s.tags ↔ ∃ c ∈ chosen, tag ∈ c := by
  have hfirst : Committed s.calls 0 := allCommitted_iff.mp hall 0 (List.length_pos_iff.mpr hne)
  by_cases hrows : s.table.rows = []
  · obtain ⟨j, call, hcall, -, hnil⟩ := h.empty ⟨0, hfirst⟩ hrows
    have hids : call.tagIds = [] := by
      rw [List.eq_nil_iff_forall_not_mem]
      intro tag htag
      rw [← mem_requestedTagIds, hnil] at htag
      cases htag
    refine ⟨[[]], ?_, by simp, List.pairwise_singleton _ _, ?_⟩
    · rw [List.singleton_sublist]
      exact List.mem_map.mpr ⟨call, List.mem_of_getElem? hcall, hids⟩
    · simp [SetTagsState.tags, hrows]
  · have hwriter : ∀ r ∈ s.table.rows, ∃ c ∈ standing s, r.key ∈ c.1.tagIds := by
      intro r hr
      cases hw : r.writer with
      | none => exact absurd hfirst (h.initial r hr hw 0)
      | some j =>
        obtain ⟨call, hcall, -, hkey, -⟩ := h.written r hr j hw
        refine ⟨(call, j), List.mem_filter.mpr ⟨?_, ?_⟩, mem_requestedTagIds.mp hkey⟩
        · exact List.mem_zipIdx_iff_getElem?.mpr hcall
        · exact List.any_eq_true.mpr ⟨r, hr, by simpa using hw⟩
    have hpositions : (standing s).Pairwise fun a b => a.2 ≠ b.2 := by
      refine List.Pairwise.filter _ ?_
      rw [← List.pairwise_map (f := Prod.snd) (R := (· ≠ ·))]
      exact List.nodup_zipIdx_map_snd s.calls
    refine ⟨(standing s).map fun c => c.1.tagIds, ?_, ?_, ?_, ?_⟩
    · have hsub : ((standing s).map fun c => c.1.tagIds).Sublist
          ((s.calls.zipIdx.map Prod.fst).map SetTagsCall.tagIds) := by
        rw [List.map_map]
        exact List.filter_sublist.map _
      rwa [List.zipIdx_map_fst] at hsub
    · obtain ⟨r, hr⟩ := List.exists_mem_of_ne_nil _ hrows
      obtain ⟨c, hc, -⟩ := hwriter r hr
      exact List.ne_nil_of_mem (List.mem_map_of_mem hc)
    · rw [List.pairwise_map]
      refine hpositions.imp_of_mem ?_
      intro a b ha hb hne tag hta htb
      have heq := List.inj_on_of_nodup_map h.unique.rows (h.rows_standing ha tag hta)
        (h.rows_standing hb tag htb) rfl
      exact hne (Option.some.inj (RowVersion.mk.inj heq).2)
    · intro tag
      simp only [SetTagsState.tags, List.mem_map, exists_exists_and_eq_and]
      constructor
      · rintro ⟨r, hr, rfl⟩
        exact hwriter r hr
      · rintro ⟨c, hc, htag⟩
        exact ⟨_, h.rows_standing hc tag htag, rfl⟩

/-! ### Every selection can be left standing -/

/-- The state `s'` can be reached from `s`. -/
def Reaches (s s' : SetTagsState) : Prop := ∃ steps, runSteps SetTagsState.next s steps = some s'

lemma Reaches.refl (s : SetTagsState) : Reaches s s := ⟨[], rfl⟩

lemma Reaches.trans {s₁ s₂ s₃ : SetTagsState} (h : Reaches s₁ s₂) (h' : Reaches s₂ s₃) :
    Reaches s₁ s₃ := by
  obtain ⟨before, hbefore⟩ := h
  obtain ⟨after, hafter⟩ := h'
  exact ⟨before ++ after, by rw [runSteps_append, hbefore]; exact hafter⟩

lemma Reaches.step (step : SetTagsStep) (hcall : s.calls[step.call]? = some call)
    (hstep : s.nextOf call step = some s') : Reaches s s' := by
  refine ⟨[step], ?_⟩
  rw [runSteps_cons, SetTagsState.next, hcall]
  dsimp only
  rw [hstep]
  rfl

/-- A delete statement comes to its versions while no other transaction is open. -/
lemma reaches_deleted {todo : List (RowVersion Text)} (hcall : s.calls[i]? = some call)
    (hphase : call.phase = .deleting todo) (hown : ∀ e ∈ s.table.deleting, e.2 = i) :
    ∃ table, Reaches s (s.setCall i { call with phase := .deleting [] } table) ∧
      table.rows = s.table.rows ∧ table.inserting = s.table.inserting ∧
      (∀ e ∈ table.deleting, e.2 = i) ∧
      ∀ r ∈ s.table.rows, (r, i) ∈ table.deleting ↔ (r, i) ∈ s.table.deleting ∨ r ∈ todo := by
  induction todo generalizing s call with
  | nil =>
    refine ⟨s.table, ?_, rfl, rfl, hown, by simp⟩
    rw [← hphase, setCall_self hcall]
    exact .refl s
  | cons r todo ih =>
    have hwait : ¬∃ e ∈ s.table.deleting, e.1 = r ∧ e.2 ≠ i := by
      rintro ⟨e, he, -, hne⟩
      exact hne (hown e he)
    obtain ⟨table₁, htable₁⟩ : ∃ table, s.table.deleteRow i r = some table := by
      unfold VersionedTable.deleteRow
      rw [if_neg hwait]
      split_ifs <;> exact ⟨_, rfl⟩
    obtain ⟨hrows, hinserting, hsub, hnew, hdeleted⟩ := VersionedTable.deleteRow_rows htable₁
    have hstep : s.nextOf call (.deleteRow i r)
        = some (s.setCall i { call with phase := .deleting todo } table₁) := by
      rw [nextOf, hphase]
      dsimp only
      rw [if_pos List.mem_cons_self, htable₁, List.erase_cons_head]
      rfl
    obtain ⟨table, hreach, hrows', hinserting', hown', hdeleting⟩ :=
      ih (s := s.setCall i { call with phase := .deleting todo } table₁)
        (getElem?_set_of_some hcall) rfl (by
          intro e he
          rcases hnew e he with he | ⟨rfl, -⟩
          · exact hown e he
          · rfl)
    refine ⟨table, ?_, hrows'.trans hrows, hinserting'.trans hinserting, hown', ?_⟩
    · refine (Reaches.step (.deleteRow i r) hcall hstep).trans ?_
      rwa [setCall_setCall] at hreach
    · intro x hx
      rw [hdeleting x (by rw [setCall, hrows]; exact hx), List.mem_cons]
      constructor
      · rintro (hx' | hx')
        · rcases hnew _ hx' with hx' | ⟨heq, -⟩
          · exact Or.inl hx'
          · exact Or.inr (Or.inl (Prod.mk.inj heq).1)
        · exact Or.inr (Or.inr hx')
      · rintro (hx' | rfl | hx')
        · exact Or.inl (hsub hx')
        · exact Or.inl (hdeleted hx)
        · exact Or.inr hx'

/-- The inserts of a call are made while no other transaction is open. -/
lemma reaches_inserted {todo : List Text} (hcall : s.calls[i]? = some call)
    (hphase : call.phase = .inserting todo) (hnodup : todo.Nodup)
    (hdeleting : ∀ e ∈ s.table.deleting, e.2 = i) (hinserting : ∀ e ∈ s.table.inserting, e.2 = i)
    (hnew : ∀ key ∈ todo, (key, i) ∉ s.table.inserting)
    (hfree : ∀ key ∈ todo, ∀ r ∈ s.table.rows, r.key = key → (r, i) ∈ s.table.deleting) :
    Reaches s (s.setCall i { call with phase := .inserting [] }
      { s.table with inserting := s.table.inserting ++ todo.map fun key => (key, i) }) := by
  induction todo generalizing s call with
  | nil =>
    rw [← hphase, List.map_nil, List.append_nil, setCall_self hcall]
    exact .refl s
  | cons key todo ih =>
    obtain ⟨hkey, hnodup⟩ := List.nodup_cons.mp hnodup
    have hinsert : s.table.insert i key
        = .inserted { s.table with inserting := s.table.inserting ++ [(key, i)] } := by
      unfold VersionedTable.insert
      rw [if_neg, if_neg]
      · rintro (hin | ⟨r, hr, heq, hnot⟩)
        · exact hnew key List.mem_cons_self hin
        · exact hnot (hfree key List.mem_cons_self r hr heq)
      · rintro (⟨e, he, -, hne⟩ | ⟨e, he, -, hne⟩)
        · exact hne (hinserting e he)
        · exact hne (hdeleting e he)
    have hstep : s.nextOf call (.insert i) = some (s.setCall i { call with phase := .inserting todo }
        { s.table with inserting := s.table.inserting ++ [(key, i)] }) := by
      rw [nextOf, hphase]
      dsimp only
      rw [hinsert]
    have hrest := ih (s := s.setCall i { call with phase := .inserting todo }
        { s.table with inserting := s.table.inserting ++ [(key, i)] })
      (getElem?_set_of_some hcall) rfl hnodup hdeleting
      (by
        intro e he
        rcases List.mem_append.mp he with he | he
        · exact hinserting e he
        · rw [List.mem_singleton.mp he])
      (by
        intro k hk hin
        rcases List.mem_append.mp hin with hin | hin
        · exact hnew k (List.mem_cons_of_mem _ hk) hin
        · obtain ⟨rfl, -⟩ := Prod.mk.inj (List.mem_singleton.mp hin)
          exact hkey hk)
      (fun k hk => hfree k (List.mem_cons_of_mem _ hk))
    refine (Reaches.step (.insert i) hcall hstep).trans ?_
    rw [setCall_setCall] at hrest
    simpa [setCall, List.append_assoc] using hrest

/-- No transaction is open. -/
def Idle (s : SetTagsState) : Prop := s.table.deleting = [] ∧ s.table.inserting = []

/-- A call whose delete statement has begun goes on to its commit, where no other row has one of its
tags. -/
lemma reaches_committed {todo : List (RowVersion Text)} (hidle : Idle s)
    (hcall : s.calls[i]? = some call) (hphase : call.phase = .deleting todo)
    (hfree : ∀ r ∈ s.table.rows, r.key ∈ call.requestedTagIds → r ∈ todo) :
    ∃ table, Reaches s (s.setCall i { call with phase := .committed } table) ∧
      table.deleting = [] ∧ table.inserting = [] ∧
      ∀ r, r ∈ table.rows ↔ (r ∈ s.table.rows ∧ r ∉ todo) ∨
        r.key ∈ call.requestedTagIds ∧ r.writer = some i := by
  obtain ⟨table₁, hreach₁, hrows, hinserting, hown, hdeleting⟩ :=
    reaches_deleted hcall hphase (by simp [hidle.1])
  rw [hidle.1] at hdeleting
  rw [hidle.2] at hinserting
  simp only [List.not_mem_nil, false_or] at hdeleting
  have hreach₂ : Reaches (s.setCall i { call with phase := .deleting [] } table₁)
      (s.setCall i { call with phase := .inserting call.requestedTagIds } table₁) := by
    refine Reaches.step (.deleted i) (getElem?_set_of_some hcall) ?_
    rw [nextOf, setCall_setCall]
    rfl
  have hreach₃ := reaches_inserted
    (s := s.setCall i { call with phase := .inserting call.requestedTagIds } table₁)
    (getElem?_set_of_some hcall) rfl (nodup_requestedTagIds call) hown
    (by simp [setCall, hinserting]) (by simp [setCall, hinserting])
    (by
      rintro key hkey r hr rfl
      rw [setCall, hrows] at hr
      exact (hdeleting r hr).mpr (hfree r hr hkey))
  rw [setCall_setCall] at hreach₃
  simp only [setCall, hinserting, List.nil_append] at hreach₃
  have hreach₄ : Reaches
      (s.setCall i { call with phase := .inserting [] }
        { table₁ with inserting := call.requestedTagIds.map fun key => (key, i) })
      (s.setCall i { call with phase := .committed }
        (VersionedTable.commit
          { table₁ with inserting := call.requestedTagIds.map fun key => (key, i) } i)) := by
    refine Reaches.step (.commit i) (getElem?_set_of_some hcall) ?_
    rw [nextOf, setCall_setCall]
    rfl
  refine ⟨_, ((hreach₁.trans hreach₂).trans hreach₃).trans hreach₄, ?_, ?_, ?_⟩
  · rw [VersionedTable.deleting_commit, VersionedTable.rollback, List.filter_eq_nil_iff]
    intro e he
    simpa using hown e he
  · rw [VersionedTable.inserting_commit, VersionedTable.rollback, List.filter_eq_nil_iff]
    simp
  · intro r
    rw [VersionedTable.rows_commit, List.mem_append, VersionedTable.mem_kept, VersionedTable.mem_added]
    dsimp only
    rw [hrows]
    refine or_congr ?_ ?_
    · exact and_congr_right fun hr => not_congr (hdeleting r hr)
    · simp

/-- The calls at some positions wait, and only they can still write. -/
def WaitingAt (s : SetTagsState) (positions : List ℕ) : Prop :=
  ∀ i ∈ positions, ∃ call, s.calls[i]? = some call ∧ call.phase = .waiting

/-- Calls one after the other. -/
lemma reaches_sequence (positions : List ℕ) (hnodup : positions.Nodup) (hidle : Idle s)
    (hwaiting : WaitingAt s positions) :
    ∃ s', Reaches s s' ∧ Idle s' ∧ s'.calls.length = s.calls.length ∧
      (∀ i ∈ positions, Committed s'.calls i) ∧
      (∀ i ∉ positions, s'.calls[i]? = s.calls[i]?) ∧
      ∀ r ∈ s'.table.rows, r ∈ s.table.rows ∨ ∃ i ∈ positions, r.writer = some i := by
  induction positions generalizing s with
  | nil => exact ⟨s, .refl s, hidle, rfl, by simp, fun _ _ => rfl, fun r hr => Or.inl hr⟩
  | cons i positions ih =>
    obtain ⟨hi, hnodup⟩ := List.nodup_cons.mp hnodup
    obtain ⟨call, hcall, hphase⟩ := hwaiting i List.mem_cons_self
    have hbegin : Reaches s (s.setCall i { call with phase := .deleting s.table.rows } s.table) := by
      refine Reaches.step (.begin i) hcall ?_
      rw [nextOf, hphase]
    obtain ⟨table, hcommit, hdeleting, hinserting, hrows⟩ := reaches_committed
      (s := s.setCall i { call with phase := .deleting s.table.rows } s.table) hidle
      (getElem?_set_of_some hcall) rfl fun r hr _ => hr
    rw [setCall_setCall] at hcommit
    have hothers : ∀ j, j ≠ i → (s.setCall i { call with phase := .committed } table).calls[j]?
        = s.calls[j]? := fun j hj => by rw [setCall, List.getElem?_set_ne (Ne.symm hj)]
    obtain ⟨s', hreach, hidle', hlength, hdone, hkeep, hfrom⟩ :=
      ih (s := s.setCall i { call with phase := .committed } table) hnodup ⟨hdeleting, hinserting⟩ (by
        intro j hj
        rw [hothers j fun heq => hi (heq ▸ hj)]
        exact hwaiting j (List.mem_cons_of_mem _ hj))
    refine ⟨s', (hbegin.trans hcommit).trans hreach, hidle', ?_, ?_, ?_, ?_⟩
    · rw [hlength, setCall, List.length_set]
    · intro j hj
      rcases List.mem_cons.mp hj with rfl | hj
      · refine ⟨{ call with phase := .committed }, ?_, rfl⟩
        rw [hkeep j hi]
        exact getElem?_set_of_some hcall
      · exact hdone j hj
    · intro j hj
      have hne := List.ne_of_not_mem_cons hj
      have hj := List.not_mem_of_not_mem_cons hj
      rw [hkeep j hj, hothers j hne]
    · intro r hr
      rcases hfrom r hr with hr | ⟨j, hj, hw⟩
      · rcases (hrows r).mp hr with ⟨hr, -⟩ | ⟨-, hw⟩
        · exact Or.inl hr
        · exact Or.inr ⟨i, List.mem_cons_self, hw⟩
      · exact Or.inr ⟨j, List.mem_cons_of_mem _ hj, hw⟩

/-- The delete statements of calls begin, one after the other. -/
lemma reaches_begun {positions : List ℕ} (hnodup : positions.Nodup)
    (hwaiting : WaitingAt s positions) :
    ∃ s', Reaches s s' ∧ s'.table = s.table ∧ s'.calls.length = s.calls.length ∧
      (∀ i ∈ positions, ∀ call, s.calls[i]? = some call →
        s'.calls[i]? = some { call with phase := .deleting s.table.rows }) ∧
      ∀ i ∉ positions, s'.calls[i]? = s.calls[i]? := by
  induction positions generalizing s with
  | nil => exact ⟨s, .refl s, rfl, rfl, by simp, fun _ _ => rfl⟩
  | cons i positions ih =>
    obtain ⟨hi, hnodup⟩ := List.nodup_cons.mp hnodup
    obtain ⟨call, hcall, hphase⟩ := hwaiting i List.mem_cons_self
    have hbegin : Reaches s (s.setCall i { call with phase := .deleting s.table.rows } s.table) := by
      refine Reaches.step (.begin i) hcall ?_
      rw [nextOf, hphase]
    have hothers : ∀ j, j ≠ i →
        (s.setCall i { call with phase := .deleting s.table.rows } s.table).calls[j]?
          = s.calls[j]? := fun j hj => by rw [setCall, List.getElem?_set_ne (Ne.symm hj)]
    obtain ⟨s', hreach, htable, hlength, hbegun, hkeep⟩ :=
      ih (s := s.setCall i { call with phase := .deleting s.table.rows } s.table) hnodup (by
        intro j hj
        rw [hothers j fun heq => hi (heq ▸ hj)]
        exact hwaiting j (List.mem_cons_of_mem _ hj))
    refine ⟨s', hbegin.trans hreach, htable, ?_, ?_, ?_⟩
    · rw [hlength, setCall, List.length_set]
    · intro j hj c hc
      rcases List.mem_cons.mp hj with rfl | hj
      · rw [hcall] at hc
        cases hc
        rw [hkeep j hi]
        exact getElem?_set_of_some hcall
      · rw [← hothers j fun heq => hi (heq ▸ hj)] at hc
        exact hbegun j hj c hc
    · intro j hj
      have hne := List.ne_of_not_mem_cons hj
      have hj := List.not_mem_of_not_mem_cons hj
      rw [hkeep j hj, hothers j hne]

/-- Calls that saw rows which are gone go on to their commits, when their requested sets have no tags
in common with each other or with the rows that stand: what they insert is added. -/
lemma reaches_merged (seen : List (RowVersion Text)) (positions : List (ℕ × SetTagsCall))
    (hidle : Idle s) (hnodup : (positions.map Prod.fst).Nodup)
    (hcalls : ∀ p ∈ positions, s.calls[p.1]? = some p.2 ∧ p.2.phase = .deleting seen)
    (hdisjoint : positions.Pairwise fun p q => List.Disjoint p.2.tagIds q.2.tagIds)
    (hgone : ∀ r ∈ s.table.rows, r ∉ seen) (hwriters : ∀ r ∈ seen, ∀ p ∈ positions, r.writer ≠ some p.1)
    (hfree : ∀ r ∈ s.table.rows, ∀ p ∈ positions, r.key ∉ p.2.tagIds) :
    ∃ s', Reaches s s' ∧ s'.calls.length = s.calls.length ∧
      (∀ p ∈ positions, Committed s'.calls p.1) ∧
      (∀ i ∉ positions.map Prod.fst, s'.calls[i]? = s.calls[i]?) ∧
      ∀ tag, tag ∈ s'.tags ↔ tag ∈ s.tags ∨ ∃ p ∈ positions, tag ∈ p.2.tagIds := by
  induction positions generalizing s with
  | nil => exact ⟨s, .refl s, rfl, by simp, fun _ _ => rfl, by simp⟩
  | cons p positions ih =>
    obtain ⟨hi, hnodup⟩ := List.nodup_cons.mp hnodup
    obtain ⟨hcall, hphase⟩ := hcalls p List.mem_cons_self
    obtain ⟨hfirst, hdisjoint⟩ := List.pairwise_cons.mp hdisjoint
    obtain ⟨table, hcommit, hdeleting, hinserting, hrows⟩ := reaches_committed hidle hcall hphase
      fun r hr hkey => absurd (mem_requestedTagIds.mp hkey) (hfree r hr p List.mem_cons_self)
    have hothers : ∀ j, j ≠ p.1 → (s.setCall p.1 { p.2 with phase := .committed } table).calls[j]?
        = s.calls[j]? := fun j hj => by rw [setCall, List.getElem?_set_ne (Ne.symm hj)]
    have hrows' : ∀ r, r ∈ table.rows ↔ r ∈ s.table.rows ∨
        r.key ∈ p.2.tagIds ∧ r.writer = some p.1 := by
      intro r
      rw [hrows, mem_requestedTagIds]
      exact or_congr_left (and_iff_left_of_imp (hgone r))
    obtain ⟨s', hreach, hlength, hdone, hkeep, htags⟩ :=
      ih (s := s.setCall p.1 { p.2 with phase := .committed } table) ⟨hdeleting, hinserting⟩ hnodup
        (by
          intro q hq
          rw [hothers q.1 fun heq => hi (heq ▸ List.mem_map_of_mem hq)]
          exact hcalls q (List.mem_cons_of_mem _ hq))
        hdisjoint
        (by
          intro r hr hseen
          rcases (hrows' r).mp hr with hr | ⟨-, hw⟩
          · exact hgone r hr hseen
          · exact hwriters r hseen p List.mem_cons_self hw)
        (fun r hr q hq => hwriters r hr q (List.mem_cons_of_mem _ hq))
        (by
          intro r hr q hq hkey
          rcases (hrows' r).mp hr with hr | ⟨hkey', -⟩
          · exact hfree r hr q (List.mem_cons_of_mem _ hq) hkey
          · exact hfirst q hq hkey' hkey)
    refine ⟨s', hcommit.trans hreach, ?_, ?_, ?_, ?_⟩
    · rw [hlength, setCall, List.length_set]
    · intro q hq
      rcases List.mem_cons.mp hq with rfl | hq
      · refine ⟨{ q.2 with phase := .committed }, ?_, rfl⟩
        rw [hkeep q.1 hi]
        exact getElem?_set_of_some hcall
      · exact hdone q hq
    · intro j hj
      rw [List.map_cons] at hj
      have hne := List.ne_of_not_mem_cons hj
      have hj := List.not_mem_of_not_mem_cons hj
      rw [hkeep j hj, hothers j hne]
    · intro tag
      have htag : tag ∈ table.rows.map RowVersion.key ↔ tag ∈ s.tags ∨ tag ∈ p.2.tagIds := by
        simp only [SetTagsState.tags, List.mem_map, hrows']
        constructor
        · rintro ⟨r, hr | ⟨hkey, -⟩, rfl⟩
          · exact Or.inl ⟨r, hr, rfl⟩
          · exact Or.inr hkey
        · rintro (⟨r, hr, rfl⟩ | hkey)
          · exact ⟨r, Or.inl hr, rfl⟩
          · exact ⟨⟨tag, some p.1⟩, Or.inr ⟨hkey, rfl⟩, rfl⟩
      rw [htags]
      change tag ∈ table.rows.map RowVersion.key ∨ _ ↔ _
      rw [htag, or_assoc]
      simp

/-- Every selection of calls whose requested sets have no common tags can be left standing: the other
calls come first, then the delete statements of these begin together. -/
lemma exists_reaches_of_chosen (tags : List Text) {chosen : List (List Text)}
    (hsub : chosen.Sublist calls) (hne : chosen ≠ []) (hdisjoint : chosen.Pairwise List.Disjoint) :
    ∃ s, Reaches (start tags calls) s ∧ s.allCommitted = true ∧
      ∀ tag, tag ∈ s.tags ↔ ∃ c ∈ chosen, tag ∈ c := by
  obtain ⟨positions, rfl, hincreasing⟩ := List.sublist_eq_map_getElem hsub
  have hnodup : (positions.map Fin.val).Nodup :=
    List.Nodup.map Fin.val_injective (hincreasing.imp fun hlt => ne_of_lt hlt)
  have hstart : ∀ k : Fin calls.length,
      (start tags calls).calls[k.val]? = some { tagIds := calls[k] } := by
    intro k
    simp [start]
  have hchosen : ∀ k ∈ positions,
      k.val ∉ (List.range calls.length).filter fun i => i ∉ positions.map Fin.val := by
    intro k hk hin
    exact of_decide_eq_true (List.mem_filter.mp hin).2 (List.mem_map_of_mem hk)
  -- The calls that are not chosen run one after the other.
  obtain ⟨s₁, hreach₁, hidle₁, hlength₁, hdone₁, hkeep₁, hfrom₁⟩ := reaches_sequence
    (s := start tags calls)
    ((List.range calls.length).filter fun i => i ∉ positions.map Fin.val)
    (List.nodup_range.filter _) ⟨rfl, rfl⟩ (by
      intro i hi
      have hlt := List.mem_range.mp (List.mem_filter.mp hi).1
      exact ⟨_, hstart ⟨i, hlt⟩, rfl⟩)
  have hwriter₁ : ∀ r ∈ s₁.table.rows, ∀ k ∈ positions, r.writer ≠ some k.val := by
    intro r hr k hk hwriter
    rcases hfrom₁ r hr with hr | ⟨i, hi, hw⟩
    · rw [writer_start hr] at hwriter
      cases hwriter
    · obtain rfl := Option.some.inj (hw.symm.trans hwriter)
      exact hchosen k hk hi
  have hcalls₁ : ∀ k ∈ positions, s₁.calls[k.val]? = some { tagIds := calls[k] } := by
    intro k hk
    rw [hkeep₁ k.val (hchosen k hk), hstart]
  -- The delete statements of the chosen ones begin.
  obtain ⟨s₂, hreach₂, htable₂, hlength₂, hbegun₂, hkeep₂⟩ := reaches_begun hnodup (by
    intro i hi
    obtain ⟨k, hk, rfl⟩ := List.mem_map.mp hi
    exact ⟨_, hcalls₁ k hk, rfl⟩)
  have hcalls₂ : ∀ k ∈ positions, s₂.calls[k.val]?
      = some { tagIds := calls[k], phase := .deleting s₁.table.rows } :=
    fun k hk => hbegun₂ k.val (List.mem_map_of_mem hk) _ (hcalls₁ k hk)
  cases positions with
  | nil => exact absurd rfl hne
  | cons k positions =>
    obtain ⟨hfirst, hdisjoint⟩ := List.pairwise_cons.mp hdisjoint
    obtain ⟨hk, hnodup⟩ := List.nodup_cons.mp hnodup
    -- The first of them deletes what all of them saw.
    obtain ⟨table, hcommit, hdeleting, hinserting, hrows⟩ := reaches_committed
      (by rw [Idle, htable₂]; exact hidle₁) (hcalls₂ k List.mem_cons_self) rfl
      (by rw [htable₂]; exact fun r hr _ => hr)
    have hrows' : ∀ r, r ∈ table.rows ↔ r.key ∈ calls[k] ∧ r.writer = some k.val := by
      intro r
      rw [hrows, htable₂, mem_requestedTagIds]
      exact or_iff_right fun h => h.2 h.1
    -- The others only add.
    have hothers : ∀ i, i ≠ k.val → (s₂.setCall k.val { tagIds := calls[k], phase := .committed }
        table).calls[i]? = s₂.calls[i]? :=
      fun i hi => by rw [setCall, List.getElem?_set_ne (Ne.symm hi)]
    have hpositions : (positions.map fun k : Fin calls.length => (k.val, SetTagsCall.mk calls[k] false
        (.deleting s₁.table.rows))).map Prod.fst = positions.map Fin.val := by
      rw [List.map_map]
      rfl
    obtain ⟨s₄, hreach₄, hlength₄, hdone₄, hkeep₄, htags⟩ := reaches_merged
      (s := s₂.setCall k.val { tagIds := calls[k], phase := .committed } table)
      s₁.table.rows
      (positions.map fun k => (k.val, SetTagsCall.mk calls[k] false (.deleting s₁.table.rows)))
      ⟨hdeleting, hinserting⟩ (by rw [hpositions]; exact hnodup)
      (by
        intro p hp
        obtain ⟨m, hm, rfl⟩ := List.mem_map.mp hp
        refine ⟨?_, rfl⟩
        rw [hothers m.val fun heq => hk (heq ▸ List.mem_map_of_mem hm)]
        exact hcalls₂ m (List.mem_cons_of_mem _ hm))
      (by
        rw [List.pairwise_map] at hdisjoint ⊢
        exact hdisjoint)
      (fun r hr hseen => hwriter₁ r hseen k List.mem_cons_self ((hrows' r).mp hr).2)
      (by
        intro r hr p hp
        obtain ⟨m, hm, rfl⟩ := List.mem_map.mp hp
        exact hwriter₁ r hr m (List.mem_cons_of_mem _ hm))
      (by
        intro r hr p hp hkey
        obtain ⟨m, hm, rfl⟩ := List.mem_map.mp hp
        exact hfirst calls[m] (List.mem_map_of_mem hm) ((hrows' r).mp hr).1 hkey)
    refine ⟨s₄, ((hreach₁.trans hreach₂).trans hcommit).trans hreach₄, ?_, ?_⟩
    · rw [allCommitted_iff]
      intro i hi
      by_cases hpos : i ∈ (k :: positions).map Fin.val
      · rw [List.map_cons, List.mem_cons] at hpos
        rcases hpos with rfl | hpos
        · refine ⟨{ tagIds := calls[k], phase := .committed }, ?_, rfl⟩
          rw [hkeep₄ k.val (by rw [hpositions]; exact hk)]
          exact getElem?_set_of_some (hcalls₂ k List.mem_cons_self)
        · obtain ⟨m, hm, rfl⟩ := List.mem_map.mp hpos
          exact hdone₄ _ (List.mem_map_of_mem hm)
      · have hlt : i < calls.length := by
          rw [hlength₄, setCall, List.length_set, hlength₂, hlength₁, start, List.length_map] at hi
          exact hi
        obtain ⟨call, hcall, hphase⟩ := hdone₁ i
          (List.mem_filter.mpr ⟨List.mem_range.mpr hlt, decide_eq_true hpos⟩)
        refine ⟨call, ?_, hphase⟩
        rw [hkeep₄ i (by rw [hpositions]; exact List.not_mem_of_not_mem_cons hpos),
          hothers i (List.ne_of_not_mem_cons hpos), hkeep₂ i hpos]
        exact hcall
    · intro tag
      have htag : tag ∈ table.rows.map RowVersion.key ↔ tag ∈ calls[k] := by
        simp only [List.mem_map, hrows']
        constructor
        · rintro ⟨r, ⟨hkey, -⟩, rfl⟩
          exact hkey
        · exact fun hkey => ⟨⟨tag, some k.val⟩, ⟨hkey, rfl⟩, rfl⟩
      rw [htags]
      change tag ∈ table.rows.map RowVersion.key ∨ _ ↔ _
      rw [htag]
      simp

/-- However the statements of the calls come, the friendship ends with the tags that one of them
requested, exactly when the union of every selection of requested sets without common tags is
requested. -/
theorem setFriendTags_correct_iff (tags : List Text) (calls : List (List Text)) :
    (∀ steps s, runSteps SetTagsState.next (start tags calls) steps = some s →
      s.allCommitted = true → calls ≠ [] → ∃ tagIds ∈ calls, ∀ tag, tag ∈ s.tags ↔ tag ∈ tagIds)
    ↔ UnionsRequested calls := by
  constructor
  · intro hcorrect chosen hsub hne hdisjoint
    obtain ⟨s, ⟨steps, hrun⟩, hall, htags⟩ := exists_reaches_of_chosen tags hsub hne hdisjoint
    have hcalls : calls ≠ [] := by
      rintro rfl
      exact hne (List.sublist_nil.mp hsub)
    obtain ⟨tagIds, hmem, hsame⟩ := hcorrect steps s hrun hall hcalls
    exact ⟨tagIds, hmem, fun tag => (hsame tag).symm.trans (htags tag)⟩
  · intro hunions steps s hrun hall hne
    obtain ⟨hinv, hids⟩ := setTagsInv_run hrun
    have hcalls : s.calls ≠ [] := by
      intro hnil
      rw [hnil] at hids
      exact hne hids.symm
    obtain ⟨chosen, hsub, hchosen, hdisjoint, htags⟩ := hinv.exists_chosen hall hcalls
    rw [hids] at hsub
    obtain ⟨tagIds, hmem, hsame⟩ := hunions chosen hsub hchosen hdisjoint
    exact ⟨tagIds, hmem, fun tag => (htags tag).trans (hsame tag).symm⟩

/-- Two calls whose delete statements see no rows: neither collides, and the friendship ends with the
tags of both. -/
theorem setFriendTags_merge :
    ∃ s, runSteps SetTagsState.next (start [] [[text "1"], [text "2"]])
        [.begin 0, .begin 1, .deleted 0, .deleted 1, .insert 0, .insert 1, .commit 0, .commit 1]
        = some s ∧
      s.allCommitted = true ∧ s.tags = [text "1", text "2"] ∧
      ¬∃ tagIds ∈ [[text "1"], [text "2"]], ∀ tag, tag ∈ s.tags ↔ tag ∈ tagIds := by
  refine ⟨_, rfl, by decide, by decide, ?_⟩
  intro hrequested
  obtain ⟨tagIds, hmem, hsame⟩ := hrequested
  have hfirst : text "1" ∈ tagIds := (hsame _).mp (by decide)
  have hsecond : text "2" ∈ tagIds := (hsame _).mp (by decide)
  clear hsame
  revert tagIds
  decide

end Junjo.Friends
