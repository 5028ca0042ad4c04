import Mathlib

/-!
# Loops over lists

The rule for a loop that keeps an invariant, and lists that keep each element once.
-/

namespace Junjo

/-- A loop over a list keeps an invariant of the elements passed and the accumulator. -/
lemma foldl_invariant {α β : Type*} {f : β → α → β} {P : List α → β → Prop} {b : β} (h₀ : P [] b)
    (hstep : ∀ passed a acc, P passed acc → P (passed ++ [a]) (f acc a)) (l : List α) :
    P l (l.foldl f b) := by
  induction l using List.reverseRecOn with
  | nil => exact h₀
  | append_singleton l a ih =>
    rw [List.foldl_append, List.foldl_cons, List.foldl_nil]
    exact hstep l a _ ih

/-- A search by index finds the first index with a result. -/
lemma findSome?_range_eq_some_iff {α : Type*} {f : ℕ → Option α} {n : ℕ} {a : α} :
    (List.range n).findSome? f = some a ↔ ∃ m < n, f m = some a ∧ ∀ k < m, f k = none := by
  induction n with
  | zero => simp
  | succ n ih =>
    rw [List.range_succ, List.findSome?_append, Option.or_eq_some_iff, ih,
      List.findSome?_eq_none_iff]
    simp only [List.mem_range, List.findSome?_singleton]
    constructor
    · rintro (⟨m, hm, hfm, hmin⟩ | ⟨hnone, hfn⟩)
      · exact ⟨m, by omega, hfm, hmin⟩
      · exact ⟨n, by omega, hfn, hnone⟩
    · rintro ⟨m, hm, hfm, hmin⟩
      rcases Nat.lt_succ_iff_lt_or_eq.mp hm with h | rfl
      · exact Or.inl ⟨m, h, hfm, hmin⟩
      · exact Or.inr ⟨hmin, hfm⟩

lemma nodup_eraseDups {α : Type*} [BEq α] [LawfulBEq α] (l : List α) : l.eraseDups.Nodup := by
  match l with
  | [] => simp
  | a :: l =>
    rw [List.eraseDups_cons, List.nodup_cons]
    exact ⟨by simp, nodup_eraseDups (l.filter fun b => !b == a)⟩
termination_by l.length
decreasing_by
  exact Nat.lt_succ_of_le (List.length_filter_le _ _)

/-- A maximum taken along a list bounds the list, and is the start or in the list. -/
lemma foldl_max_spec (l : List ℕ) (b : ℕ) :
    b ≤ l.foldl max b ∧ (∀ x ∈ l, x ≤ l.foldl max b) ∧ (l.foldl max b = b ∨ l.foldl max b ∈ l) := by
  induction l generalizing b with
  | nil => simp
  | cons a l ih =>
    obtain ⟨hb, hl, hmem⟩ := ih (max b a)
    rw [List.foldl_cons]
    refine ⟨Nat.le_trans (Nat.le_max_left b a) hb, ?_, ?_⟩
    · intro x hx
      rcases List.mem_cons.mp hx with rfl | hx
      · exact Nat.le_trans (Nat.le_max_right b x) hb
      · exact hl x hx
    · rcases hmem with h | h
      · rw [h]
        rcases Nat.le_total a b with hab | hab
        · exact .inl (Nat.max_eq_left hab)
        · exact .inr (by simp [Nat.max_eq_right hab])
      · exact .inr (List.mem_cons_of_mem _ h)

/-- An element of the first list is related to one of the second. -/
lemma exists_right_of_mem {α β : Type*} {R : α → β → Prop} {l : List α} {l' : List β}
    (h : List.Forall₂ R l l') {a : α} (ha : a ∈ l) : ∃ b ∈ l', R a b := by
  induction h with
  | nil => exact absurd ha (by simp)
  | cons hab _ ih =>
    rcases List.mem_cons.mp ha with rfl | ha
    · exact ⟨_, by simp, hab⟩
    · obtain ⟨b, hb, hrel⟩ := ih ha
      exact ⟨b, List.mem_cons_of_mem _ hb, hrel⟩

/-- An element of the second list is related to one of the first. -/
lemma exists_left_of_mem {α β : Type*} {R : α → β → Prop} {l : List α} {l' : List β}
    (h : List.Forall₂ R l l') {b : β} (hb : b ∈ l') : ∃ a ∈ l, R a b :=
  exists_right_of_mem h.flip hb

/-- A new last element takes the place of its earlier occurrences. -/
lemma dedup_concat {α : Type*} [DecidableEq α] (l : List α) (a : α) :
    (l ++ [a]).dedup = l.dedup.filter (fun b => b ∉ [a]) ++ [a] := by
  induction l with
  | nil => simp
  | cons b l ih =>
    rw [List.cons_append, List.dedup_cons, List.dedup_cons, ih]
    by_cases hb : b = a
    · subst hb
      split_ifs <;> simp_all
    · split_ifs <;> simp_all

/-- Mapping back what a filter kept gives a sublist. -/
lemma map_filterMap_sublist {α β γ : Type*} {f : α → Option β} {g : β → γ} {h : α → γ}
    (hf : ∀ a b, f a = some b → g b = h a) (l : List α) :
    ((l.filterMap f).map g).Sublist (l.map h) := by
  induction l with
  | nil => exact List.Sublist.slnil
  | cons a l ih =>
    cases hfa : f a with
    | none =>
      rw [List.filterMap_cons_none hfa, List.map_cons]
      exact ih.cons _
    | some b =>
      rw [List.filterMap_cons_some hfa, List.map_cons, List.map_cons, hf a b hfa]
      exact ih.cons_cons _

/-- After the first part, every part of an intercalation follows a separator. -/
lemma intercalate_cons {α : Type*} (sep x : List α) (l : List (List α)) :
    List.intercalate sep (x :: l) = x ++ (l.map fun y => sep ++ y).flatten := by
  induction l generalizing x with
  | nil => simp [List.intercalate]
  | cons y l ih =>
    have := ih y
    simp only [List.intercalate, List.intersperse_cons_cons, List.flatten_cons] at this ⊢
    rw [this]
    simp

/-- Erasing the repetitions of a list without any changes nothing. -/
lemma eraseDups_of_nodup {α : Type*} [BEq α] [LawfulBEq α] {l : List α} (h : l.Nodup) :
    l.eraseDups = l := by
  induction l with
  | nil => rfl
  | cons a l ih =>
    obtain ⟨hnot, hl⟩ := List.nodup_cons.mp h
    have hfilter : (l.filter fun b => !b == a) = l := by
      rw [List.filter_eq_self]
      intro b hb
      simpa using fun hba : b = a => hnot (hba ▸ hb)
    rw [List.eraseDups_cons, hfilter, ih hl]

/-- A list whose first part satisfies a test that nothing after it does. -/
lemma takeWhile_dropWhile_append {α : Type*} {p : α → Bool} {l l' : List α}
    (h : ∀ a ∈ l, p a = true) (h' : ∀ a ∈ l', p a = false) :
    (l ++ l').takeWhile p = l ∧ (l ++ l').dropWhile p = l' := by
  rw [List.takeWhile_append_of_pos h, List.dropWhile_append_of_pos h]
  cases l' with
  | nil => exact ⟨List.append_nil _, rfl⟩
  | cons a l' =>
    have ha : ¬ p a = true := by
      rw [h' a List.mem_cons_self]
      exact Bool.false_ne_true
    rw [List.takeWhile_cons_of_neg ha, List.dropWhile_cons_of_neg ha, List.append_nil]
    exact ⟨rfl, rfl⟩

/-- A loop that accepts what it has read so far accepts a list when each step does. -/
lemma foldlM_eq_ok_iff {ε σ α : Type*} {f : σ → α → Except ε σ} {g : σ → α → σ} {s : σ}
    {P : List α → Prop}
    (hnil : P []) (hinit : ∀ l a, P (l ++ [a]) → P l)
    (hstep : ∀ l a s', P l →
      (f (l.foldl g s) a = .ok s' ↔ P (l ++ [a]) ∧ s' = g (l.foldl g s) a))
    (l : List α) (s' : σ) :
    l.foldlM f s = .ok s' ↔ P l ∧ s' = l.foldl g s := by
  induction l using List.reverseRecOn generalizing s' with
  | nil =>
    constructor
    · intro h
      cases h
      exact ⟨hnil, rfl⟩
    · rintro ⟨-, rfl⟩
      rfl
  | append_singleton l a ih =>
    rw [List.foldlM_append, List.foldl_append]
    constructor
    · intro h
      cases hl : l.foldlM f s with
      | error e => rw [hl] at h; cases h
      | ok next =>
        obtain ⟨haccepted, rfl⟩ := (ih next).mp hl
        rw [hl] at h
        simp only [List.foldlM_cons, List.foldlM_nil, bind_pure] at h
        exact (hstep l a s' haccepted).mp h
    · rintro ⟨haccepted, rfl⟩
      have hl := hinit l a haccepted
      have hlast := (hstep l a _ hl).mpr ⟨haccepted, rfl⟩
      rw [(ih _).mpr ⟨hl, rfl⟩]
      simp only [List.foldlM_cons, List.foldlM_nil, bind_pure]
      exact hlast

/-- What a longer list holds at a place, it held before or holds at its end. -/
lemma getElem?_concat_cases {α : Type*} {l : List α} {a b : α} {i : ℕ}
    (h : (l ++ [a])[i]? = some b) : l[i]? = some b ∨ (i = l.length ∧ b = a) := by
  rcases Nat.lt_trichotomy i l.length with hlt | rfl | hgt
  · rw [List.getElem?_append_left hlt] at h
    exact .inl h
  · rw [List.getElem?_concat_length] at h
    exact .inr ⟨rfl, (Option.some.inj h).symm⟩
  · rw [List.getElem?_eq_none (by simpa using hgt)] at h
    cases h

/-- A longer list holds at a place what it held before. -/
lemma getElem?_append_of_some {α : Type*} {l : List α} {a : α} {i : ℕ} (h : l[i]? = some a)
    (more : List α) : (l ++ more)[i]? = some a := by
  rw [List.getElem?_append_left (List.getElem?_eq_some_iff.mp h).1]
  exact h

lemma getElem?_set_of_some {α : Type*} {l : List α} {a b : α} {i : ℕ} (h : l[i]? = some a) :
    (l.set i b)[i]? = some b :=
  List.getElem?_set_self (List.getElem?_eq_some_iff.mp h).1

/-- An element of a list after one was set. -/
lemma getElem?_set_cases {α : Type*} {l : List α} {a b : α} {i j : ℕ}
    (h : (l.set i b)[j]? = some a) : (j = i ∧ a = b) ∨ (j ≠ i ∧ l[j]? = some a) := by
  by_cases heq : i = j
  · subst heq
    obtain ⟨hlt, hval⟩ := List.getElem?_eq_some_iff.mp h
    rw [List.getElem_set_self] at hval
    exact .inl ⟨rfl, hval.symm⟩
  · rw [List.getElem?_set_ne heq] at h
    exact .inr ⟨Ne.symm heq, h⟩

end Junjo
