import Mathlib

/-!
# Items handed to a callback

Items are handed to a callback one by one, until a call of it closes the source or throws.
-/

namespace Junjo.Callbacks

variable {α β σ : Type*}

/-- What a call of a callback does besides reading the item. -/
structure Reaction where
  closes : Bool := false
  throws : Bool := false
deriving DecidableEq

/-- How the calls ended. A call that closes and throws has closed. -/
inductive Ending
  | atEnd
  | closed
  | failed
deriving DecidableEq

section

variable (react : List α → Reaction)

/-- The items that are handed over, after some were. A callback reacts to all it was handed. -/
def handOver (handed : List α) : List α → List α × Ending
  | [] => (handed, .atEnd)
  | x :: xs =>
    let r := react (handed ++ [x])
    if r.closes then (handed ++ [x], .closed)
    else if r.throws then (handed ++ [x], .failed)
    else handOver (handed ++ [x]) xs

/-- Every one of these calls goes on. -/
def goesOn (handed : List α) : List α → Bool
  | [] => true
  | x :: xs => react (handed ++ [x]) = {} && goesOn (handed ++ [x]) xs

end

variable (react : List α → Reaction)

/-- What is handed over comes first. -/
lemma prefix_handOver (handed xs : List α) :
    ∃ taken, taken.Sublist xs ∧ (handOver react handed xs).1 = handed ++ taken := by
  induction xs generalizing handed with
  | nil => exact ⟨[], List.Sublist.refl _, (List.append_nil _).symm⟩
  | cons x xs ih =>
    rw [handOver]
    split_ifs
    · exact ⟨[x], List.singleton_sublist.mpr List.mem_cons_self, rfl⟩
    · exact ⟨[x], List.singleton_sublist.mpr List.mem_cons_self, rfl⟩
    · obtain ⟨taken, hsub, heq⟩ := ih (handed ++ [x])
      exact ⟨x :: taken, hsub.cons_cons x, by rw [heq, List.append_assoc, List.singleton_append]⟩

/-- A first item is always handed over. -/
lemma handOver_cons (handed xs : List α) (x : α) :
    ∃ taken, (handOver react handed (x :: xs)).1 = handed ++ x :: taken := by
  rw [handOver]
  split_ifs
  · exact ⟨[], rfl⟩
  · exact ⟨[], rfl⟩
  · obtain ⟨taken, -, heq⟩ := prefix_handOver react (handed ++ [x]) xs
    exact ⟨taken, by rw [heq, List.append_assoc, List.singleton_append]⟩

variable {react}

/-- A source that leaves some items out hands over the same exactly when it leaves out none that
comes before the end of the calls. -/
theorem handOver_filter_iff (known : α → Bool) (handed xs : List α) :
    handOver react handed (xs.filter known) = handOver react handed xs
      ↔ ∀ before x after, xs = before ++ x :: after → goesOn react handed before = true →
          known x = true := by
  induction xs generalizing handed with
  | nil => simp
  | cons x xs ih =>
    cases hknown : known x with
    | false =>
      refine iff_of_false ?_ fun h => ?_
      · intro heq
        obtain ⟨taken, hall⟩ := handOver_cons react handed xs x
        obtain ⟨others, hsub, hfiltered⟩ :=
          prefix_handOver react handed ((x :: xs).filter known)
        rw [heq, hall, List.append_cancel_left_eq] at hfiltered
        have hmem : x ∈ (x :: xs).filter known :=
          hsub.subset (hfiltered ▸ List.mem_cons_self)
        rw [List.mem_filter, hknown] at hmem
        exact Bool.false_ne_true hmem.2
      · rw [h [] x xs rfl rfl] at hknown
        cases hknown
    | true =>
      rw [List.filter_cons_of_pos hknown, handOver, handOver]
      have hrest : (∀ before y after, x :: xs = before ++ y :: after →
            goesOn react handed before = true → known y = true)
          ↔ (react (handed ++ [x]) = {} → ∀ before y after, xs = before ++ y :: after →
              goesOn react (handed ++ [x]) before = true → known y = true) := by
        constructor
        · intro h hon before y after heq hbefore
          refine h (x :: before) y after (by rw [heq, List.cons_append]) ?_
          simp [goesOn, hon, hbefore]
        · intro h before y after heq hbefore
          cases before with
          | nil =>
            cases heq
            exact hknown
          | cons z before =>
            cases heq
            simp only [goesOn, Bool.and_eq_true, decide_eq_true_eq] at hbefore
            exact h hbefore.1 before y after rfl hbefore.2
      rw [hrest]
      split_ifs with hcloses hthrows
      · refine iff_of_true rfl fun hon => ?_
        rw [hon] at hcloses
        cases hcloses
      · refine iff_of_true rfl fun hon => ?_
        rw [hon] at hthrows
        cases hthrows
      · have hon : react (handed ++ [x]) = {} := by
          cases hreact : react (handed ++ [x])
          simp_all
        rw [ih]
        exact ⟨fun h _ => h, fun h => h hon⟩

/-! ### Consumers that close -/

/-- Items taken one by one, up to the first after which the consumer has closed. -/
def takeUpTo (isClosed : List α → Bool) (taken : List α) : List α → List α
  | [] => taken
  | x :: xs => if isClosed taken then taken else takeUpTo isClosed (taken ++ [x]) xs

/-- Steps of a consumer until it has closed. -/
def stepsUpTo (closed : σ → Bool) (step : σ → α → σ) (s : σ) : List α → σ
  | [] => s
  | x :: xs => if closed s then s else stepsUpTo closed step (step s x) xs

variable {isClosed : List α → Bool} {closed : σ → Bool} {step : σ → α → σ}

lemma takeUpTo_of_closed {taken : List α} (h : isClosed taken = true) (xs : List α) :
    takeUpTo isClosed taken xs = taken := by
  cases xs with
  | nil => rfl
  | cons x xs => rw [takeUpTo, if_pos h]

lemma takeUpTo_append (taken xs ys : List α) :
    takeUpTo isClosed taken (xs ++ ys) = takeUpTo isClosed (takeUpTo isClosed taken xs) ys := by
  induction xs generalizing taken with
  | nil => rfl
  | cons x xs ih =>
    rw [List.cons_append, takeUpTo, takeUpTo]
    split_ifs with h
    · rw [takeUpTo_of_closed h]
    · exact ih (taken ++ [x])

lemma stepsUpTo_of_closed {s : σ} (h : closed s = true) (xs : List α) :
    stepsUpTo closed step s xs = s := by
  cases xs with
  | nil => rfl
  | cons x xs => rw [stepsUpTo, if_pos h]

lemma stepsUpTo_append (s : σ) (xs ys : List α) :
    stepsUpTo closed step s (xs ++ ys) = stepsUpTo closed step (stepsUpTo closed step s xs) ys := by
  induction xs generalizing s with
  | nil => rfl
  | cons x xs ih =>
    rw [List.cons_append, stepsUpTo, stepsUpTo]
    split_ifs with h
    · rw [stepsUpTo_of_closed h]
    · exact ih (step s x)

/-- A consumer whose items are taken until it has closed. -/
lemma foldl_takeUpTo (s : σ) (taken xs : List α) :
    (takeUpTo (fun l => closed (l.foldl step s)) taken xs).foldl step s
      = stepsUpTo closed step (taken.foldl step s) xs := by
  induction xs generalizing taken with
  | nil => rfl
  | cons x xs ih =>
    rw [takeUpTo, stepsUpTo]
    split_ifs with h
    · rfl
    · rw [ih, List.foldl_append]
      rfl

end Junjo.Callbacks
