import Mathlib

/-!
# Row versions under read committed

A table with a unique key, shared by transactions that delete and insert rows. A delete statement
looks at the versions that were committed when it began, and skips those that are gone by then. Both
statements wait where another open transaction deleted the version or inserted the key, and an
insert is refused where a row with the key is committed.
-/

namespace Junjo

/-- A row, and the transaction that wrote it, if it is one of those looked at. -/
structure RowVersion (κ : Type) where
  key : κ
  writer : Option ℕ
deriving DecidableEq

/-- The committed rows, and what open transactions deleted and inserted. -/
structure VersionedTable (κ : Type) where
  rows : List (RowVersion κ)
  deleting : List (RowVersion κ × ℕ) := []
  inserting : List (κ × ℕ) := []

inductive InsertResult (κ : Type)
  | waits
  | violation
  | inserted (t : VersionedTable κ)

namespace VersionedTable

variable {κ : Type} [DecidableEq κ] (t : VersionedTable κ) (i : ℕ)

/-- A delete statement comes to a version it saw; `none` while it waits. -/
def deleteRow (r : RowVersion κ) : Option (VersionedTable κ) :=
  if ∃ e ∈ t.deleting, e.1 = r ∧ e.2 ≠ i then none
  else if r ∈ t.rows then some { t with deleting := t.deleting ++ [(r, i)] }
  else some t

def insert (key : κ) : InsertResult κ :=
  if (∃ e ∈ t.inserting, e.1 = key ∧ e.2 ≠ i) ∨ ∃ e ∈ t.deleting, e.1.key = key ∧ e.2 ≠ i then
    .waits
  else if (key, i) ∈ t.inserting ∨ ∃ r ∈ t.rows, r.key = key ∧ (r, i) ∉ t.deleting then .violation
  else .inserted { t with inserting := t.inserting ++ [(key, i)] }

/-- The table without the open changes of a transaction. -/
def rollback : VersionedTable κ :=
  { t with
    deleting := t.deleting.filter fun e => e.2 ≠ i
    inserting := t.inserting.filter fun e => e.2 ≠ i }

/-- The rows a transaction leaves when it commits. -/
def kept : List (RowVersion κ) := t.rows.filter fun r => (r, i) ∉ t.deleting

/-- The rows it adds. -/
def added : List (RowVersion κ) := (t.inserting.filter fun e => e.2 = i).map fun e => ⟨e.1, some i⟩

def commit : VersionedTable κ := { t.rollback i with rows := t.kept i ++ t.added i }

variable {t i} {t' : VersionedTable κ} {r : RowVersion κ} {key : κ} {j : ℕ}

/-! ### What statements change -/

lemma deleteRow_rows (h : t.deleteRow i r = some t') :
    t'.rows = t.rows ∧ t'.inserting = t.inserting ∧ t.deleting ⊆ t'.deleting ∧
      (∀ e ∈ t'.deleting, e ∈ t.deleting ∨ e = (r, i) ∧ r ∈ t.rows) ∧
      (r ∈ t.rows → (r, i) ∈ t'.deleting) := by
  unfold deleteRow at h
  split_ifs at h with hwait hmem
  · cases h
    refine ⟨rfl, rfl, List.subset_append_left _ _, ?_, fun _ => by simp⟩
    intro e he
    rcases List.mem_append.mp he with he | he
    · exact Or.inl he
    · exact Or.inr ⟨List.mem_singleton.mp he, hmem⟩
  · cases h
    exact ⟨rfl, rfl, List.Subset.refl _, fun e he => Or.inl he, fun hr => absurd hr hmem⟩

lemma insert_inserted (h : t.insert i key = .inserted t') :
    t' = { t with inserting := t.inserting ++ [(key, i)] } ∧
      (∀ e ∈ t.inserting, e.1 ≠ key) ∧ ∀ r ∈ t.rows, r.key = key → (r, i) ∈ t.deleting := by
  unfold insert at h
  split_ifs at h with hwait hviolation
  cases h
  rw [not_or] at hwait hviolation
  refine ⟨rfl, ?_, ?_⟩
  · rintro ⟨k, j⟩ he rfl
    by_cases hj : j = i
    · subst hj
      exact hviolation.1 he
    · exact hwait.1 ⟨(k, j), he, rfl, hj⟩
  · intro r hr hkey
    by_contra hnot
    exact hviolation.2 ⟨r, hr, hkey, hnot⟩

omit [DecidableEq κ] in
@[simp] lemma rows_rollback : (t.rollback i).rows = t.rows := rfl

@[simp] lemma rows_commit : (t.commit i).rows = t.kept i ++ t.added i := rfl

omit [DecidableEq κ] in
@[simp] lemma mem_deleting_rollback :
    (r, j) ∈ (t.rollback i).deleting ↔ (r, j) ∈ t.deleting ∧ j ≠ i := by
  simp [rollback]

omit [DecidableEq κ] in
@[simp] lemma mem_inserting_rollback :
    (key, j) ∈ (t.rollback i).inserting ↔ (key, j) ∈ t.inserting ∧ j ≠ i := by
  simp [rollback]

@[simp] lemma mem_kept : r ∈ t.kept i ↔ r ∈ t.rows ∧ (r, i) ∉ t.deleting := by simp [kept]

omit [DecidableEq κ] in
@[simp] lemma mem_added : r ∈ t.added i ↔ (r.key, i) ∈ t.inserting ∧ r.writer = some i := by
  obtain ⟨key, writer⟩ := r
  simp only [added, List.mem_map, List.mem_filter, decide_eq_true_eq, RowVersion.mk.injEq]
  constructor
  · rintro ⟨⟨k, j⟩, ⟨he, rfl⟩, rfl, rfl⟩
    exact ⟨he, rfl⟩
  · rintro ⟨he, rfl⟩
    exact ⟨(key, i), ⟨he, rfl⟩, rfl, rfl⟩

lemma inserting_commit : (t.commit i).inserting = (t.rollback i).inserting := rfl

lemma deleting_commit : (t.commit i).deleting = (t.rollback i).deleting := rfl

/-! ### Keys stay unique -/

/-- No two rows have one key, no key is being inserted twice, and where a row has a key that is being
inserted, the transaction deletes it. -/
structure Unique (t : VersionedTable κ) : Prop where
  rows : (t.rows.map RowVersion.key).Nodup
  inserting : (t.inserting.map Prod.fst).Nodup
  guarded : ∀ key i, (key, i) ∈ t.inserting → ∀ r ∈ t.rows, r.key = key → (r, i) ∈ t.deleting

lemma Unique.deleteRow (h : t.Unique) (hstep : t.deleteRow i r = some t') : t'.Unique := by
  obtain ⟨hrows, hinserting, hdeleting, -, -⟩ := deleteRow_rows hstep
  refine ⟨by rw [hrows]; exact h.rows, by rw [hinserting]; exact h.inserting, ?_⟩
  intro key j hkey r hr heq
  rw [hinserting] at hkey
  rw [hrows] at hr
  exact hdeleting (h.guarded key j hkey r hr heq)

lemma Unique.insert (h : t.Unique) (hstep : t.insert i key = .inserted t') : t'.Unique := by
  obtain ⟨rfl, hfresh, hguard⟩ := insert_inserted hstep
  refine ⟨h.rows, ?_, ?_⟩
  · dsimp only
    rw [List.map_append]
    refine h.inserting.append (List.nodup_singleton key) ?_
    intro k hk hk'
    obtain ⟨e, he, rfl⟩ := List.mem_map.mp hk
    exact hfresh e he (List.mem_singleton.mp hk')
  · intro k j hk r hr heq
    rcases List.mem_append.mp hk with hk | hk
    · exact h.guarded k j hk r hr heq
    · obtain ⟨rfl, rfl⟩ := Prod.mk.inj (List.mem_singleton.mp hk)
      exact hguard r hr heq

omit [DecidableEq κ] in
lemma Unique.rollback (h : t.Unique) (i : ℕ) : (t.rollback i).Unique := by
  refine ⟨h.rows, h.inserting.sublist (List.filter_sublist.map _), ?_⟩
  intro key j hkey r hr heq
  obtain ⟨hkey, hj⟩ := mem_inserting_rollback.mp hkey
  exact mem_deleting_rollback.mpr ⟨h.guarded key j hkey r hr heq, hj⟩

omit [DecidableEq κ] in
/-- Where a key is inserted, no other transaction inserts it. -/
lemma Unique.writer_eq (h : t.Unique) (hi : (key, i) ∈ t.inserting) (hj : (key, j) ∈ t.inserting) :
    i = j := by
  have hinj := List.inj_on_of_nodup_map h.inserting hi hj rfl
  exact (Prod.mk.inj hinj).2

lemma Unique.commit (h : t.Unique) (i : ℕ) : (t.commit i).Unique := by
  refine ⟨?_, (h.rollback i).inserting, ?_⟩
  · rw [rows_commit, List.map_append]
    refine List.Nodup.append (h.rows.sublist (List.filter_sublist.map _)) ?_ ?_
    · have hadded : (t.added i).map RowVersion.key = (t.inserting.filter fun e => e.2 = i).map Prod.fst := by
        rw [added, List.map_map]
        rfl
      rw [hadded]
      exact h.inserting.sublist (List.filter_sublist.map _)
    · intro k hk hk'
      obtain ⟨r, hr, rfl⟩ := List.mem_map.mp hk
      obtain ⟨r', hr', heq⟩ := List.mem_map.mp hk'
      obtain ⟨hr, hnot⟩ := mem_kept.mp hr
      exact hnot (h.guarded r'.key i (mem_added.mp hr').1 r hr heq.symm)
  · intro key j hkey r hr heq
    rw [inserting_commit, mem_inserting_rollback] at hkey
    rw [rows_commit, List.mem_append, mem_kept, mem_added] at hr
    rw [deleting_commit, mem_deleting_rollback]
    refine ⟨?_, hkey.2⟩
    rcases hr with ⟨hr, -⟩ | ⟨hr, -⟩
    · exact h.guarded key j hkey.1 r hr heq
    · rw [heq] at hr
      exact absurd (h.writer_eq hkey.1 hr) hkey.2

end VersionedTable

end Junjo
