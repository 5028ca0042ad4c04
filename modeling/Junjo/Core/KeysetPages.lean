import Junjo.Core.Keyset

/-!
# Walks over a changing table

A page holds the first rows behind a position, and one row more is read to see whether there is
another page. A walk reads page after page from tables that change in between, each from a position
of its own. Keys that stay in all the tables are read exactly once and in order, provided that each
of them is on the same side of the last row of a page and of the position of the next.
-/

namespace Junjo

namespace KeyOrder

variable {κ : Type*}

/-- The other way round. -/
def reverse (o : KeyOrder κ) : KeyOrder κ where
  le a b := o.le b a
  total a b := o.total b a
  trans a b c hab hbc := o.trans c b a hbc hab
  antisymm a b hab hba := o.antisymm a b hba hab

@[simp] lemma reverse_lt (o : KeyOrder κ) (a b : κ) : o.reverse.lt a b = o.lt b a := rfl

variable {o : KeyOrder κ} {a b : κ}

lemma lt_irrefl (o : KeyOrder κ) (a : κ) : ¬ o.lt a a = true := by
  rw [lt_iff_le_and_ne]
  exact fun h => h.2 rfl

lemma lt_asymm (h : o.lt a b = true) : ¬ o.lt b a = true :=
  fun h' => lt_irrefl o a (lt_trans h h')

/-- What comes after a key comes after any key that does not come after it. -/
lemma lt_of_not_lt_of_lt {c : κ} (h : ¬ o.lt a c = true) (h' : o.lt a b = true) :
    o.lt c b = true := by
  rw [lt_iff, not_not] at h
  rw [lt_iff] at h' ⊢
  exact fun hbc => h' (o.trans b c a hbc h)

end KeyOrder

namespace Keyset

variable {κ α : Type*} {o : KeyOrder κ} {key : α → κ} {limit : ℕ}

/-! ### Pages -/

structure Page (α : Type*) where
  items : List α
  more : Bool

/-- The first page of some rows: one row more than it holds is read. -/
def pageOf (o : KeyOrder κ) (key : α → κ) (limit : ℕ) (rows : List α) : Page α :=
  let found := (sortBy o key rows).take (limit + 1)
  ⟨found.take limit, decide (limit < found.length)⟩

lemma items_pageOf (rows : List α) :
    (pageOf o key limit rows).items = (sortBy o key rows).take limit := by
  rw [pageOf, List.take_take, Nat.min_eq_left (Nat.le_succ limit)]

lemma more_pageOf (rows : List α) : (pageOf o key limit rows).more = decide (limit < rows.length) := by
  have hlength : (sortBy o key rows).length = rows.length := (sortBy_perm o key rows).length_eq
  rw [pageOf, List.length_take, hlength]
  exact decide_eq_decide.mpr ⟨fun h => by omega, fun h => by omega⟩

lemma mem_of_mem_pageOf {rows : List α} {r : α} (h : r ∈ (pageOf o key limit rows).items) :
    r ∈ rows := by
  rw [items_pageOf] at h
  exact (sortBy_perm o key rows).mem_iff.mp (List.mem_of_mem_take h)

lemma sorted_pageOf {rows : List α} (h : (rows.map key).Nodup) :
    (pageOf o key limit rows).items.Pairwise fun r s => o.lt (key r) (key s) = true := by
  rw [items_pageOf]
  exact (sortBy_strict h).sublist (List.take_sublist _ _)

/-- A page without more holds all rows. -/
lemma mem_pageOf_of_not_more {rows : List α} (h : (pageOf o key limit rows).more = false) {r : α}
    (hr : r ∈ rows) : r ∈ (pageOf o key limit rows).items := by
  rw [more_pageOf, decide_eq_false_iff_not, not_lt] at h
  rw [items_pageOf, List.take_of_length_le]
  · exact (sortBy_perm o key rows).mem_iff.mpr hr
  · rw [(sortBy_perm o key rows).length_eq]
    exact h

/-- A page with more ends with a row that the rows not on it come after. -/
lemma exists_last_pageOf (hlimit : 0 < limit) {rows : List α} (hnodup : (rows.map key).Nodup)
    (h : (pageOf o key limit rows).more = true) :
    ∃ last, (pageOf o key limit rows).items.getLast? = some last ∧
      ∀ r ∈ rows, r ∈ (pageOf o key limit rows).items ∨ o.lt (key last) (key r) = true := by
  rw [more_pageOf, decide_eq_true_eq] at h
  have hlength : (sortBy o key rows).length = rows.length := (sortBy_perm o key rows).length_eq
  have hne : (pageOf o key limit rows).items ≠ [] := by
    rw [items_pageOf, ← List.length_pos_iff, List.length_take, hlength]
    omega
  refine ⟨_, List.getLast?_eq_some_getLast hne, fun r hr => ?_⟩
  have hmem := (sortBy_perm o key rows).mem_iff.mpr hr
  have hstrict := sortBy_strict (o := o) hnodup
  rw [← List.take_append_drop limit (sortBy o key rows)] at hmem hstrict
  rw [← items_pageOf] at hmem hstrict
  rcases List.mem_append.mp hmem with hfirst | hlater
  · exact .inl hfirst
  · exact .inr ((List.pairwise_append.mp hstrict).2.2 _ (List.getLast_mem hne) r hlater)

/-- No row of a page comes after its last. -/
lemma le_last_pageOf {rows : List α} (hnodup : (rows.map key).Nodup) {last r : α}
    (hlast : (pageOf o key limit rows).items.getLast? = some last)
    (hr : r ∈ (pageOf o key limit rows).items) : ¬ o.lt (key last) (key r) = true := by
  have hsorted : (pageOf o key limit rows).items.Pairwise fun r s => o.lt (key r) (key s) = true :=
    sorted_pageOf hnodup
  obtain ⟨front, hfront⟩ := List.getLast?_eq_some_iff.mp hlast
  rw [hfront] at hsorted hr
  rcases List.mem_append.mp hr with hr | hr
  · exact KeyOrder.lt_asymm ((List.pairwise_append.mp hsorted).2.2 r hr last List.mem_cons_self)
  · rw [List.mem_singleton.mp hr]
    exact KeyOrder.lt_irrefl o _

/-! ### Walks -/

/-- Where a walk reads a page: the rows of the table then, and the position that it reads behind. -/
structure Stop (κ α : Type*) where
  rows : List α
  after : Option κ

variable (o key limit) in
def Stop.page (s : Stop κ α) : Page α := pageOf o key limit (rowsAfter o key s.rows s.after)

/-- A key is behind a position. -/
def Behind (o : KeyOrder κ) (after : Option κ) (k : κ) : Prop :=
  after.all (fun a => o.lt a k) = true

variable (o key limit) in
/-- A walk to the end: each page but the last tells that there is another. -/
inductive Walk : List (Stop κ α) → List α → Prop where
  | last {s : Stop κ α} (h : (s.page o key limit).more = false) :
      Walk [s] (s.page o key limit).items
  | step {s : Stop κ α} {stops : List (Stop κ α)} {returned : List α}
      (h : (s.page o key limit).more = true) (hrest : Walk stops returned) :
      Walk (s :: stops) ((s.page o key limit).items ++ returned)

variable (o key limit) in
/-- Some keys are each on the same side of the last row of a page and of the next position. -/
def Aligned (stable : κ → Prop) : List (Stop κ α) → Prop
  | s :: s' :: stops =>
    (∀ last, (s.page o key limit).items.getLast? = some last → ∀ k, stable k →
      (o.lt (key last) k = true ↔ Behind o s'.after k)) ∧ Aligned stable (s' :: stops)
  | _ => True

section Complete

variable {stable : κ → Prop} {s : Stop κ α} {stops : List (Stop κ α)}
  {returned : List α}

lemma mem_rowsAfter {rows : List α} {after : Option κ} {r : α} :
    r ∈ rowsAfter o key rows after ↔ r ∈ rows ∧ Behind o after (key r) := List.mem_filter

lemma nodup_rowsAfter {rows : List α} (h : (rows.map key).Nodup) (after : Option κ) :
    ((rowsAfter o key rows after).map key).Nodup :=
  h.sublist (List.filter_sublist.map key)

lemma strict_page (h : (s.rows.map key).Nodup) :
    ((s.page o key limit).items.map key).Pairwise fun a b => o.lt a b = true :=
  List.pairwise_map.mpr (sorted_pageOf (nodup_rowsAfter h s.after))

/-- What a walk returns was in one of the tables. -/
lemma Walk.exists_rows (h : Walk o key limit stops returned) {r : α} (hr : r ∈ returned) :
    ∃ t ∈ stops, r ∈ t.rows := by
  have hpage : ∀ {t : Stop κ α}, r ∈ (t.page o key limit).items → r ∈ t.rows :=
    fun hr => (mem_rowsAfter.mp (mem_of_mem_pageOf hr)).1
  induction h with
  | @last t hmore => exact ⟨t, List.mem_cons_self, hpage hr⟩
  | @step t stops returned hmore hrest ih =>
    rcases List.mem_append.mp hr with hr | hr
    · exact ⟨t, List.mem_cons_self, hpage hr⟩
    · obtain ⟨t', ht', hr'⟩ := ih hr
      exact ⟨t', List.mem_cons_of_mem _ ht', hr'⟩

variable [DecidableEq κ]

lemma count_page {k : κ} (h : (s.rows.map key).Nodup) :
    ((s.page o key limit).items.map key).count k =
      if k ∈ (s.page o key limit).items.map key then 1 else 0 := by
  have hnodup : ((s.page o key limit).items.map key).Nodup := by
    refine (strict_page (o := o) h).imp fun {a b} hlt heq => ?_
    rw [heq] at hlt
    exact KeyOrder.lt_irrefl o _ hlt
  split_ifs with hmem
  · exact List.count_eq_one_of_mem hnodup hmem
  · exact List.count_eq_zero_of_not_mem hmem

/-- What a walk from a position returns of the keys that stay: each behind the position once, and
no other, in order. -/
theorem Walk.complete (hlimit : 0 < limit) (hwalk : Walk o key limit (s :: stops) returned)
    (hnodup : ∀ t ∈ s :: stops, (t.rows.map key).Nodup)
    (hstays : ∀ k, stable k → ∀ t ∈ s :: stops, ∃ r ∈ t.rows, key r = k)
    (haligned : Aligned o key limit stable (s :: stops)) :
    (∀ k, stable k → Behind o s.after k → (returned.map key).count k = 1) ∧
      (∀ k, stable k → ¬ Behind o s.after k → k ∉ returned.map key) ∧
      (returned.map key).Pairwise fun k k' => stable k → stable k' → o.lt k k' = true := by
  have hpage : ∀ {s : Stop κ α} {k}, k ∈ (s.page o key limit).items.map key →
      Behind o s.after k := by
    intro s k hk
    obtain ⟨r, hr, rfl⟩ := List.mem_map.mp hk
    exact (mem_rowsAfter.mp (mem_of_mem_pageOf hr)).2
  have hrow : ∀ k, stable k → Behind o s.after k →
      ∃ r ∈ rowsAfter o key s.rows s.after, key r = k := by
    intro k hk hbehind
    obtain ⟨r, hr, rfl⟩ := hstays k hk s List.mem_cons_self
    exact ⟨r, mem_rowsAfter.mpr ⟨hr, hbehind⟩, rfl⟩
  have hone := hnodup s List.mem_cons_self
  generalize hstops : s :: stops = all at hwalk hnodup hstays haligned
  induction hwalk generalizing s stops with
  | @last t hmore =>
    obtain ⟨rfl, rfl⟩ := List.cons.inj hstops
    have hall : ∀ k, stable k → Behind o s.after k → k ∈ (s.page o key limit).items.map key := by
      intro k hk hbehind
      obtain ⟨r, hr, rfl⟩ := hrow k hk hbehind
      exact List.mem_map_of_mem (mem_pageOf_of_not_more hmore hr)
    refine ⟨fun k hk hbehind => ?_, fun k _ hbehind hmem => hbehind (hpage hmem),
      (strict_page hone).imp fun hlt _ _ => hlt⟩
    rw [count_page hone, if_pos (hall k hk hbehind)]
  | @step t stops' returned' hmore hrest ih =>
    obtain ⟨rfl, rfl⟩ := List.cons.inj hstops
    obtain ⟨s', stops'', rfl⟩ : ∃ s' stops'', stops = s' :: stops'' := by
      cases hrest with
      | last _ => exact ⟨_, _, rfl⟩
      | step _ _ => exact ⟨_, _, rfl⟩
    have hmem' : s' ∈ s :: s' :: stops'' := List.mem_cons_of_mem _ List.mem_cons_self
    obtain ⟨hside, haligned'⟩ := haligned
    obtain ⟨last, hlast, hcovers⟩ :=
      exists_last_pageOf hlimit (nodup_rowsAfter (o := o) hone s.after) hmore
    have hrow' : ∀ k, stable k → Behind o s'.after k →
        ∃ r ∈ rowsAfter o key s'.rows s'.after, key r = k := by
      intro k hk hbehind
      obtain ⟨r, hr, rfl⟩ := hstays k hk s' hmem'
      exact ⟨r, mem_rowsAfter.mpr ⟨hr, hbehind⟩, rfl⟩
    have hrest' := ih hrow' (hnodup s' hmem') rfl
      (fun t ht => hnodup t (List.mem_cons_of_mem _ ht))
      (fun k hk t ht => hstays k hk t (List.mem_cons_of_mem _ ht)) haligned'
    obtain ⟨honce, hnever, horder⟩ := hrest'
    -- a key on the page is not behind the next position, one that is not on it is
    have hon : ∀ k, stable k → k ∈ (s.page o key limit).items.map key → ¬ Behind o s'.after k := by
      intro k hk hmem hbehind
      obtain ⟨r, hr, rfl⟩ := List.mem_map.mp hmem
      exact le_last_pageOf (nodup_rowsAfter hone s.after) hlast hr
        ((hside last hlast _ hk).mpr hbehind)
    have hoff : ∀ k, stable k → Behind o s.after k → k ∉ (s.page o key limit).items.map key →
        o.lt (key last) k = true := by
      intro k hk hbehind hmem
      obtain ⟨r, hr, rfl⟩ := hrow k hk hbehind
      exact (hcovers r hr).resolve_left fun hr' => hmem (List.mem_map_of_mem hr')
    have hlastmem : last ∈ (s.page o key limit).items := List.mem_of_getLast? hlast
    refine ⟨fun k hk hbehind => ?_, fun k hk hbehind hmem => ?_, ?_⟩
    · rw [List.map_append, List.count_append, count_page hone]
      split_ifs with hmem
      · rw [List.count_eq_zero_of_not_mem (hnever k hk (hon k hk hmem))]
      · rw [honce k hk ((hside last hlast k hk).mp (hoff k hk hbehind hmem))]
    · rw [List.map_append] at hmem
      rcases List.mem_append.mp hmem with hmem | hmem
      · exact hbehind (hpage hmem)
      · refine hnever k hk (fun hbehind' => hbehind ?_) hmem
        have hafter := (hside last hlast k hk).mpr hbehind'
        have hstart : Behind o s.after (key last) := hpage (List.mem_map_of_mem hlastmem)
        rw [Behind] at hstart ⊢
        cases hpos : s.after with
        | none => rfl
        | some a =>
          rw [hpos, Option.all_some] at hstart
          exact KeyOrder.lt_trans hstart hafter
    · rw [List.map_append, List.pairwise_append]
      refine ⟨(strict_page hone).imp fun hlt _ _ => hlt, horder, fun k hmem k' hmem' hk hk' => ?_⟩
      -- what the rest returns comes after the last row of the page, and so after all of the page
      have hbehind' : Behind o s'.after k' :=
        not_not.mp fun hbehind' => hnever k' hk' hbehind' hmem'
      have hlater := (hside last hlast k' hk').mpr hbehind'
      obtain ⟨r, hr, rfl⟩ := List.mem_map.mp hmem
      exact KeyOrder.lt_of_not_lt_of_lt (le_last_pageOf (nodup_rowsAfter hone s.after) hlast hr)
        hlater

end Complete

end Keyset

end Junjo
