import Junjo.Core.Lists

/-!
# Cutting a stream into pieces

A reader appends what it reads to a buffer and cuts pieces off the front of the buffer. When a cut
is not changed by what follows, the pieces do not depend on how the stream was divided into reads.
-/

namespace Junjo.Framing

variable {α β : Type*} {cut : List α → Option (β × List α)} {s t rest : List α} {x : β}

/-- Cut pieces off the front, at most `fuel` of them. -/
def drainUpTo (cut : List α → Option (β × List α)) : ℕ → List α → List β × List α
  | 0, s => ([], s)
  | fuel + 1, s =>
    match cut s with
    | none => ([], s)
    | some (x, rest) =>
      let r := drainUpTo cut fuel rest
      (x :: r.1, r.2)

/-- All pieces, and what is left. -/
def drain (cut : List α → Option (β × List α)) (s : List α) : List β × List α :=
  drainUpTo cut s.length s

/-- A cut is not changed by what follows and takes something away. -/
structure Stable (cut : List α → Option (β × List α)) : Prop where
  append : ∀ {s x rest} (t), cut s = some (x, rest) → cut (s ++ t) = some (x, rest ++ t)
  shorter : ∀ {s x rest}, cut s = some (x, rest) → rest.length < s.length

lemma drainUpTo_of_none (h : cut s = none) (n : ℕ) : drainUpTo cut n s = ([], s) := by
  cases n with
  | zero => rfl
  | succ n => rw [drainUpTo, h]

lemma drain_of_none (h : cut s = none) : drain cut s = ([], s) := drainUpTo_of_none h _

lemma Stable.cut_nil (h : Stable cut) : cut [] = none := by
  cases hcut : cut [] with
  | none => rfl
  | some p =>
    have := h.shorter hcut
    rw [List.length_nil] at this
    omega

/-- Any bound from the length on gives the same pieces. -/
lemma drainUpTo_eq (h : Stable cut) {m n : ℕ} (hm : s.length ≤ m) (hn : s.length ≤ n) :
    drainUpTo cut m s = drainUpTo cut n s := by
  have hnone : s.length ≤ 0 → cut s = none := by
    intro hs
    rw [List.length_eq_zero_iff.mp (Nat.le_zero.mp hs)]
    exact h.cut_nil
  induction m generalizing n s with
  | zero => rw [drainUpTo_of_none (hnone hm), drainUpTo_of_none (hnone hm)]
  | succ m ih =>
    cases n with
    | zero => rw [drainUpTo_of_none (hnone hn), drainUpTo_of_none (hnone hn)]
    | succ n =>
      rw [drainUpTo, drainUpTo]
      cases hcut : cut s with
      | none => rfl
      | some p =>
        obtain ⟨x, rest⟩ := p
        have hshorter := h.shorter hcut
        have hrest : rest.length ≤ 0 → cut rest = none := by
          intro hs
          rw [List.length_eq_zero_iff.mp (Nat.le_zero.mp hs)]
          exact h.cut_nil
        dsimp only
        rw [ih (s := rest) (n := n) (by omega) (by omega) hrest]

lemma drain_of_some (h : Stable cut) (hcut : cut s = some (x, rest)) :
    drain cut s = (x :: (drain cut rest).1, (drain cut rest).2) := by
  have hshorter := h.shorter hcut
  obtain ⟨n, hn⟩ : ∃ n, s.length = n + 1 := ⟨s.length - 1, by omega⟩
  rw [drain, hn, drainUpTo, hcut]
  dsimp only
  rw [drainUpTo_eq h (show rest.length ≤ n by omega) le_rfl]
  rfl

/-- Cutting every piece off, by cases on the cuts. -/
lemma drain_induction (h : Stable cut) {P : List α → Prop} (hnone : ∀ s, cut s = none → P s)
    (hsome : ∀ s x rest, cut s = some (x, rest) → P rest → P s) (s : List α) : P s := by
  induction hn : s.length using Nat.strong_induction_on generalizing s with
  | _ n ih =>
    cases hcut : cut s with
    | none => exact hnone s hcut
    | some p =>
      obtain ⟨x, rest⟩ := p
      exact hsome s x rest hcut (ih rest.length (hn ▸ h.shorter hcut) rest rfl)

/-- What is left holds no piece. -/
lemma cut_drain (h : Stable cut) (s : List α) : cut (drain cut s).2 = none := by
  induction s using drain_induction h with
  | hnone s hcut => rwa [drain_of_none hcut]
  | hsome s x rest hcut ih => rwa [drain_of_some h hcut]

/-- A stream cut in two: the pieces of the first part, then those of what was left and the rest. -/
lemma drain_append (h : Stable cut) (s t : List α) :
    drain cut (s ++ t) = ((drain cut s).1 ++ (drain cut ((drain cut s).2 ++ t)).1,
      (drain cut ((drain cut s).2 ++ t)).2) := by
  induction s using drain_induction h with
  | hnone s hcut => rw [drain_of_none hcut, List.nil_append]
  | hsome s x rest hcut ih =>
    rw [drain_of_some h (h.append t hcut), drain_of_some h hcut, ih]
    rfl

/-! ### Reads under a cap -/

/-- Reads appended to a buffer whose pieces are cut off after each. A read after which the buffer
holds more than the cap ends it; its index is given. -/
def readAll (cut : List α → Option (β × List α)) (cap : ℕ) :
    List α → List (List α) → List β × Option ℕ
  | _, [] => ([], none)
  | buffer, read :: reads =>
    if cap < (buffer ++ read).length then ([], some 0)
    else
      let d := drain cut (buffer ++ read)
      let r := readAll cut cap d.2 reads
      (d.1 ++ r.1, r.2.map (· + 1))

/-- What the buffer holds after a read, before its pieces are cut off. -/
def held (cut : List α → Option (β × List α)) (buffer : List α) (reads : List (List α)) (k : ℕ) :
    List α :=
  (drain cut (buffer ++ (reads.take k).flatten)).2 ++ reads.getD k []

lemma held_zero {buffer : List α} (hbuffer : cut buffer = none) (reads : List (List α)) :
    held cut buffer reads 0 = buffer ++ reads.getD 0 [] := by
  rw [held, List.take_zero, List.flatten_nil, List.append_nil, drain_of_none hbuffer]

lemma held_succ (h : Stable cut) {buffer read : List α} (reads : List (List α)) (k : ℕ) :
    held cut buffer (read :: reads) (k + 1)
      = held cut (drain cut (buffer ++ read)).2 reads k := by
  rw [held, held, List.take_succ_cons, List.flatten_cons, ← List.append_assoc, drain_append h]
  rfl

/-- Reads that stay within the cap give the pieces of the whole stream. -/
lemma readAll_within (h : Stable cut) {cap : ℕ} {buffer : List α} {reads : List (List α)}
    (hbuffer : cut buffer = none)
    (hcap : ∀ k < reads.length, (held cut buffer reads k).length ≤ cap) :
    readAll cut cap buffer reads = ((drain cut (buffer ++ reads.flatten)).1, none) := by
  induction reads generalizing buffer with
  | nil => rw [readAll, List.flatten_nil, List.append_nil, drain_of_none hbuffer]
  | cons read reads ih =>
    have hfirst := hcap 0 (by simp)
    rw [held_zero hbuffer, List.getD_cons_zero] at hfirst
    have hrest : ∀ k < reads.length,
        (held cut (drain cut (buffer ++ read)).2 reads k).length ≤ cap := by
      intro k hk
      rw [← held_succ h]
      exact hcap (k + 1) (by rw [List.length_cons]; omega)
    rw [readAll, if_neg (not_lt.mpr hfirst)]
    dsimp only
    rw [ih (cut_drain h _) hrest, List.flatten_cons, ← List.append_assoc, drain_append h (buffer ++ read)]
    rfl

/-- The first read after which the buffer holds more than the cap ends it. -/
lemma readAll_over (h : Stable cut) {cap k : ℕ} {buffer : List α} {reads : List (List α)}
    (hbuffer : cut buffer = none) (hk : k < reads.length)
    (hcap : ∀ j < k, (held cut buffer reads j).length ≤ cap)
    (hover : cap < (held cut buffer reads k).length) :
    readAll cut cap buffer reads
      = ((drain cut (buffer ++ (reads.take k).flatten)).1, some k) := by
  induction reads generalizing buffer k with
  | nil => cases hk
  | cons read reads ih =>
    cases k with
    | zero =>
      rw [held_zero hbuffer, List.getD_cons_zero] at hover
      rw [readAll, if_pos hover, List.take_zero, List.flatten_nil, List.append_nil,
        drain_of_none hbuffer]
    | succ k =>
      have hfirst := hcap 0 (Nat.succ_pos k)
      rw [held_zero hbuffer, List.getD_cons_zero] at hfirst
      have hrest : ∀ j < k, (held cut (drain cut (buffer ++ read)).2 reads j).length ≤ cap := by
        intro j hj
        rw [← held_succ h]
        exact hcap (j + 1) (Nat.succ_lt_succ hj)
      rw [held_succ h] at hover
      rw [readAll, if_neg (not_lt.mpr hfirst)]
      dsimp only
      rw [ih (cut_drain h _) (Nat.lt_of_succ_lt_succ hk) hrest hover, List.take_succ_cons,
        List.flatten_cons, ← List.append_assoc, drain_append h (buffer ++ read)]
      rfl

end Junjo.Framing
