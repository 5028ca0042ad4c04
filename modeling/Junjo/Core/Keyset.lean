import Junjo.Core.Lists

/-!
# Reading a table in batches

A batch takes the first rows after a cursor in the order of a key, and a full batch gives the key of
its last row as the next cursor. Read to the end, the batches hold every row once, in order.
-/

namespace Junjo

/-- The order a store sorts and compares keys by. -/
structure KeyOrder (κ : Type*) where
  le : κ → κ → Bool
  total : ∀ a b, (le a b || le b a) = true
  trans : ∀ a b c, le a b = true → le b c = true → le a c = true
  antisymm : ∀ a b, le a b = true → le b a = true → a = b

namespace KeyOrder

variable {κ ν : Type*}

/-- Strictly before. -/
def lt (o : KeyOrder κ) (a b : κ) : Bool := !o.le b a

variable {o : KeyOrder κ} {a b c : κ}

lemma lt_iff : o.lt a b = true ↔ ¬ o.le b a = true := by
  rw [lt, Bool.not_eq_true', Bool.not_eq_true]

lemma lt_iff_le_and_ne : o.lt a b = true ↔ o.le a b = true ∧ a ≠ b := by
  rw [lt_iff]
  have htotal := Bool.or_eq_true_iff.mp (o.total a b)
  constructor
  · intro h
    refine ⟨htotal.resolve_right h, ?_⟩
    rintro rfl
    exact h (htotal.elim id id)
  · rintro ⟨h, hne⟩ hba
    exact hne (o.antisymm a b h hba)

lemma le_refl (o : KeyOrder κ) (a : κ) : o.le a a = true :=
  (Bool.or_eq_true_iff.mp (o.total a a)).elim id id

lemma lt_trans (hab : o.lt a b = true) (hbc : o.lt b c = true) : o.lt a c = true := by
  rw [lt_iff_le_and_ne] at hab hbc ⊢
  refine ⟨o.trans a b c hab.1 hbc.1, ?_⟩
  rintro rfl
  exact hab.2 (o.antisymm a b hab.1 hbc.1)

/-- By the first key, then by the second. -/
def lex (o : KeyOrder κ) (o' : KeyOrder ν) : KeyOrder (κ × ν) where
  le a b := o.lt a.1 b.1 || (o.le a.1 b.1 && o'.le a.2 b.2)
  total a b := by
    have htotal := Bool.or_eq_true_iff.mp (o.total a.1 b.1)
    have htotal' := Bool.or_eq_true_iff.mp (o'.total a.2 b.2)
    have hba : o.lt a.1 b.1 = true ↔ ¬ o.le b.1 a.1 = true := lt_iff
    have hab : o.lt b.1 a.1 = true ↔ ¬ o.le a.1 b.1 = true := lt_iff
    simp only [Bool.or_eq_true, Bool.and_eq_true]
    tauto
  trans a b c hab hbc := by
    simp only [Bool.or_eq_true, Bool.and_eq_true, lt_iff_le_and_ne] at hab hbc ⊢
    have htrans := o.trans a.1 b.1 c.1
    have htrans' := o'.trans a.2 b.2 c.2
    have hanti : o.le a.1 b.1 = true → o.le b.1 a.1 = true → a.1 = b.1 := o.antisymm a.1 b.1
    rcases hab with ⟨hab, hne⟩ | ⟨hab, hab'⟩ <;> rcases hbc with ⟨hbc, hne'⟩ | ⟨hbc, hbc'⟩
    · refine Or.inl ⟨htrans hab hbc, fun heq => hne (hanti hab (heq ▸ hbc))⟩
    · refine Or.inl ⟨htrans hab hbc, fun heq => hne (hanti hab (heq ▸ hbc))⟩
    · refine Or.inl ⟨htrans hab hbc, fun heq => hne' (o.antisymm b.1 c.1 hbc (heq ▸ hab))⟩
    · exact Or.inr ⟨htrans hab hbc, htrans' hab' hbc'⟩
  antisymm a b hab hba := by
    simp only [Bool.or_eq_true, Bool.and_eq_true, lt_iff_le_and_ne] at hab hba
    have hle : o.le a.1 b.1 = true := hab.elim And.left And.left
    have hle' : o.le b.1 a.1 = true := hba.elim And.left And.left
    have hfst : a.1 = b.1 := o.antisymm _ _ hle hle'
    have hsnd : o'.le a.2 b.2 = true := hab.elim (fun h => absurd hfst h.2) And.right
    have hsnd' : o'.le b.2 a.2 = true := hba.elim (fun h => absurd hfst.symm h.2) And.right
    exact Prod.ext hfst (o'.antisymm _ _ hsnd hsnd')

lemma lex_lt {o : KeyOrder κ} {o' : KeyOrder ν} {a b : κ × ν} :
    (o.lex o').lt a b = true ↔
      o.lt a.1 b.1 = true ∨ (b.1 = a.1 ∧ o'.lt a.2 b.2 = true) := by
  have htotal := Bool.or_eq_true_iff.mp (o.total a.1 b.1)
  have hanti := o.antisymm a.1 b.1
  have hrefl := o.le_refl a.1
  rw [lt_iff]
  simp only [lex, Bool.or_eq_true, Bool.and_eq_true, lt_iff, not_or, not_not, not_and]
  constructor
  · rintro ⟨hab, hle⟩
    by_cases hba : o.le b.1 a.1 = true
    · exact Or.inr ⟨(hanti hab hba).symm, hle hba⟩
    · exact Or.inl hba
  · rintro (hba | ⟨heq, hlt⟩)
    · exact ⟨htotal.resolve_right hba, fun h => absurd h hba⟩
    · rw [heq]
      exact ⟨hrefl, fun _ => hlt⟩

end KeyOrder

namespace Keyset

variable {κ α β γ : Type*}

/-! ### Sorted rows -/

/-- `orderBy` a key, ascending. -/
def sortBy (o : KeyOrder κ) (key : α → κ) (rows : List α) : List α :=
  rows.insertionSort fun r s => o.le (key r) (key s) = true

lemma sortBy_perm (o : KeyOrder κ) (key : α → κ) (rows : List α) : (sortBy o key rows).Perm rows :=
  List.perm_insertionSort _ _

lemma sortBy_pairwise (o : KeyOrder κ) (key : α → κ) (rows : List α) :
    (sortBy o key rows).Pairwise fun r s => o.le (key r) (key s) = true := by
  haveI : Std.Total fun r s : α => o.le (key r) (key s) = true :=
    ⟨fun r s => Bool.or_eq_true_iff.mp (o.total (key r) (key s))⟩
  haveI : IsTrans α fun r s => o.le (key r) (key s) = true :=
    ⟨fun r s t => o.trans (key r) (key s) (key t)⟩
  exact List.pairwise_insertionSort _ _

/-- Rows of different keys are sorted strictly. -/
lemma sortBy_strict {o : KeyOrder κ} {key : α → κ} {rows : List α} (h : (rows.map key).Nodup) :
    (sortBy o key rows).Pairwise fun r s => o.lt (key r) (key s) = true := by
  have hnodup : ((sortBy o key rows).map key).Nodup :=
    ((sortBy_perm o key rows).map key).nodup_iff.mpr h
  have hne := List.pairwise_map.mp hnodup
  refine ((sortBy_pairwise o key rows).and hne).imp ?_
  rintro r s ⟨hle, hkey⟩
  exact KeyOrder.lt_iff_le_and_ne.mpr ⟨hle, hkey⟩

lemma eq_sortBy {o : KeyOrder κ} {key : α → κ} {rows l : List α} (h : (rows.map key).Nodup)
    (hperm : l.Perm rows) (hl : l.Pairwise fun r s => o.lt (key r) (key s) = true) :
    sortBy o key rows = l := by
  refine ((sortBy_perm o key rows).trans hperm.symm).eq_of_pairwise ?_ (sortBy_strict h) hl
  intro r s _ _ hrs hsr
  have hrs' := KeyOrder.lt_iff_le_and_ne.mp hrs
  exact absurd (o.antisymm _ _ hrs'.1 (KeyOrder.lt_iff_le_and_ne.mp hsr).1) hrs'.2

/-- The rows after a cursor. -/
def rowsAfter (o : KeyOrder κ) (key : α → κ) (rows : List α) (after : Option κ) : List α :=
  rows.filter fun r => after.all fun a => o.lt a (key r)

lemma rowsAfter_none (o : KeyOrder κ) (key : α → κ) (rows : List α) :
    rowsAfter o key rows none = rows :=
  List.filter_eq_self.mpr fun _ _ => rfl

/-- The rows after the key of a row are those behind it. -/
lemma sortBy_rowsAfter {o : KeyOrder κ} {key : α → κ} {rows front rest : List α} {a : α}
    (h : (rows.map key).Nodup) (hsplit : sortBy o key rows = front ++ a :: rest) :
    sortBy o key (rowsAfter o key rows (some (key a))) = rest := by
  have hstrict := sortBy_strict (o := o) h
  rw [hsplit, List.pairwise_append, List.pairwise_cons] at hstrict
  obtain ⟨-, ⟨hrest, hsorted⟩, hfront⟩ := hstrict
  apply eq_sortBy
  · exact h.sublist (List.filter_sublist.map key)
  · have hperm : (rowsAfter o key rows (some (key a))).Perm
        ((front ++ a :: rest).filter fun r => o.lt (key a) (key r)) := by
      rw [← hsplit]
      exact ((sortBy_perm o key rows).symm.filter _)
    refine (hperm.trans ?_).symm
    rw [List.filter_append, List.filter_cons_of_neg (by simp [KeyOrder.lt, KeyOrder.le_refl])]
    have hnil : front.filter (fun r => o.lt (key a) (key r)) = [] := by
      rw [List.filter_eq_nil_iff]
      intro r hr hlt
      have hra := hfront r hr a List.mem_cons_self
      exact (KeyOrder.lt_iff_le_and_ne.mp (KeyOrder.lt_trans hlt hra)).2 rfl
    rw [hnil, List.nil_append, List.filter_eq_self.mpr fun r hr => hrest r hr]
  · exact hsorted

/-! ### Batches -/

/-- Read batches until one gives no cursor; none if there are more than `fuel` of them. -/
def readBatches (read : Option γ → List β × Option γ) : ℕ → Option γ → Option (List (List β))
  | 0, _ => none
  | fuel + 1, after =>
    let batch := read after
    match batch.2 with
    | none => some [batch.1]
    | some next => (readBatches read fuel (some next)).map fun batches => batch.1 :: batches

/-- The cursor after some rows: that of the last of them, when they fill the batch. -/
def nextCursor (size : ℕ) (cursor : α → γ) (rows : List α) : Option γ :=
  if rows.length = size then rows.getLast?.map cursor else none

/-- A reader whose batches are the rows behind the cursor reads every row once, in order. -/
lemma readBatches_rows {size : ℕ} (hsize : 0 < size) (read : Option γ → List β × Option γ)
    (cursor : α → γ) (record : α → β) (rows : List α)
    (hfirst : read none = ((rows.take size).map record, nextCursor size cursor (rows.take size)))
    (hafter : ∀ front a rest, rows = front ++ a :: rest →
      read (some (cursor a)) = ((rest.take size).map record, nextCursor size cursor (rest.take size)))
    {fuel : ℕ} (hfuel : rows.length < fuel) :
    ∃ batches, readBatches read fuel none = some batches ∧ batches.flatten = rows.map record := by
  have hgo : ∀ fuel front rest after, rows = front ++ rest → rest.length < fuel →
      read after = ((rest.take size).map record, nextCursor size cursor (rest.take size)) →
      ∃ batches, readBatches read fuel after = some batches ∧
        batches.flatten = rest.map record := by
    intro fuel
    induction fuel with
    | zero =>
      intro front rest after _ hlt
      omega
    | succ fuel ih =>
      intro front rest after hrows hlt hread
      rw [readBatches, hread]
      dsimp only
      by_cases hfull : (rest.take size).length = size
      · have hne : rest.take size ≠ [] := by
          intro hnil
          rw [hnil, List.length_nil] at hfull
          omega
        obtain ⟨init, a, hinit⟩ := List.eq_nil_or_concat (rest.take size) |>.resolve_left hne
        rw [List.concat_eq_append] at hinit
        have hrest : rest = init ++ [a] ++ rest.drop size := by
          rw [← hinit, List.take_append_drop]
        have hsplit : rows = (front ++ init) ++ a :: rest.drop size :=
          calc rows = front ++ rest := hrows
            _ = front ++ (init ++ [a] ++ rest.drop size) := congrArg (front ++ ·) hrest
            _ = (front ++ init) ++ a :: rest.drop size := by simp
        have hlength : (rest.drop size).length < fuel := by
          rw [List.length_drop]
          rw [List.length_take] at hfull
          omega
        obtain ⟨batches, hbatches, hflat⟩ := ih (front ++ init ++ [a]) (rest.drop size)
          (some (cursor a)) (by rw [hsplit, List.append_cons]) hlength (hafter _ a _ hsplit)
        rw [nextCursor, if_pos hfull, hinit, List.getLast?_concat, Option.map_some]
        dsimp only
        rw [hbatches]
        refine ⟨_, rfl, ?_⟩
        rw [List.flatten_cons, hflat, ← hinit, ← List.map_append, List.take_append_drop]
      · rw [nextCursor, if_neg hfull]
        refine ⟨_, rfl, ?_⟩
        rw [List.length_take] at hfull
        rw [List.flatten_singleton, List.take_of_length_le (by omega)]
  exact hgo fuel [] rows none rfl hfuel hfirst

end Keyset

end Junjo
