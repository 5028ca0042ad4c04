import Mathlib

/-!
# Comparing without stopping at the first difference

A comparison in constant time goes through both lists and collects the differences of their items.
-/

namespace Junjo

/-- A fold that keeps a value as long as every item is right. -/
lemma foldl_eq_iff {α β : Type*} {op : β → α → β} {d₀ : β} {ok : α → Prop}
    (h : ∀ d x, op d x = d₀ ↔ d = d₀ ∧ ok x) (l : List α) (d : β) :
    l.foldl op d = d₀ ↔ d = d₀ ∧ ∀ x ∈ l, ok x := by
  induction l generalizing d with
  | nil => simp
  | cons x l ih => rw [List.foldl_cons, ih, h, List.forall_mem_cons, and_assoc]

lemma forall_mem_zip_eq_iff {α : Type*} {a b : List α} (h : a.length = b.length) :
    (∀ p ∈ List.zip a b, p.1 = p.2) ↔ a = b := by
  induction a generalizing b with
  | nil => simp [List.length_eq_zero_iff.mp h.symm]
  | cons x a ih =>
    cases b with
    | nil => cases h
    | cons y b =>
      rw [List.zip_cons_cons, List.forall_mem_cons, ih (Nat.succ.inj h), List.cons.injEq]

/-- The differences of the items say whether lists of one length are equal. -/
lemma foldl_zip_eq_iff {α β : Type*} {op : β → α × α → β} {d₀ : β}
    (h : ∀ d p, op d p = d₀ ↔ d = d₀ ∧ p.1 = p.2) {a b : List α} (hlength : a.length = b.length) :
    (List.zip a b).foldl op d₀ = d₀ ↔ a = b := by
  rw [foldl_eq_iff h, forall_mem_zip_eq_iff hlength]
  exact and_iff_right rfl

end Junjo
