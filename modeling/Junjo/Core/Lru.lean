import Junjo.Core.Dict
import Junjo.Core.Run

/-!
# A bounded map that forgets

`Lru κ γ ρ` is what a least-recently-used cache is for: a map of bounded size, whose records
expire and can be dropped by the groups they list. The records stand in the order of their last
use (`keys_run_sublist`), and `get?_run_iff` says from the events alone which records are held.
-/

namespace Junjo

/-- A value, the time from which it no longer counts, and the groups it depends on. -/
structure LruRecord (γ ρ : Type*) where
  value : ρ
  expiresAt : ℤ
  groups : List γ
deriving DecidableEq

/-- At most `capacity` records, the least recently used first. -/
structure Lru (κ γ ρ : Type*) where
  records : Dict κ (LruRecord γ ρ)
  capacity : ℕ
  capacity_pos : 0 < capacity
  bounded : records.size ≤ capacity

inductive LruEvent (κ γ ρ : Type*) where
  | get (key : κ) (now : ℤ)
  | set (key : κ) (record : LruRecord γ ρ)
  | invalidate (group : γ)
  | sweep (now : ℤ)
  | resize (capacity : ℕ)
  | clear

inductive LruReply (ρ : Type*) where
  | value (result : Option ρ)
  | removed (count : ℕ)
  | done
deriving DecidableEq

namespace Lru

variable {κ γ ρ : Type*}

/-- The map without records. -/
def empty (capacity : ℕ) (h : 0 < capacity) : Lru κ γ ρ :=
  ⟨Dict.empty, capacity, h, Nat.zero_le _⟩

/-- Keep the records that satisfy a test. -/
def keep (s : Lru κ γ ρ) (p : κ × LruRecord γ ρ → Bool) : Lru κ γ ρ :=
  { s with
    records := s.records.filter p
    bounded := Nat.le_trans (List.length_filter_le _ _) s.bounded }

/-- How many records are past a capacity. -/
def excess (capacity : ℕ) (records : Dict κ (LruRecord γ ρ)) : ℕ := records.size - capacity

/-- The records past a capacity: the least recently used ones. -/
def overflow (capacity : ℕ) (records : Dict κ (LruRecord γ ρ)) : List (κ × LruRecord γ ρ) :=
  records.entries.take (excess capacity records)

/-- A state with at most `capacity` of the records, the most recently used ones. -/
def trim (capacity : ℕ) (h : 0 < capacity) (records : Dict κ (LruRecord γ ρ)) : Lru κ γ ρ :=
  ⟨records.drop (excess capacity records), capacity, h, by
    rw [Dict.size, Dict.entries_drop, List.length_drop, excess, Dict.size]
    omega⟩

/-- Change the capacity, to one at least. -/
def resize (s : Lru κ γ ρ) (capacity : ℕ) : Lru κ γ ρ := trim (max 1 capacity) (by omega) s.records

section Keys

variable [DecidableEq κ]

/-- Store a record as the most recently used one. -/
def put (s : Lru κ γ ρ) (k : κ) (r : LruRecord γ ρ) : Lru κ γ ρ :=
  trim s.capacity s.capacity_pos (s.records.setLast k r)

lemma get?_keep {s : Lru κ γ ρ} {p : κ × LruRecord γ ρ → Bool} {k : κ} {r : LruRecord γ ρ} :
    (s.keep p).records.get? k = some r ↔ s.records.get? k = some r ∧ p (k, r) = true := by
  simp only [Dict.get?_eq_some_iff, keep, Dict.entries_filter, List.mem_filter]

lemma get?_trim {capacity : ℕ} {h : 0 < capacity} {records : Dict κ (LruRecord γ ρ)} {k : κ}
    {r : LruRecord γ ρ} :
    (trim capacity h records).records.get? k = some r ↔
      records.get? k = some r ∧ (k, r) ∉ overflow capacity records := by
  simp only [Dict.get?_eq_some_iff, trim, Dict.mem_entries_drop, overflow]

/-- What is stored is not past the capacity, since it goes last. -/
lemma not_mem_overflow_setLast (s : Lru κ γ ρ) (k : κ) (r r' : LruRecord γ ρ) :
    (k, r') ∉ overflow s.capacity (s.records.setLast k r) := by
  have hlen : excess s.capacity (s.records.setLast k r) ≤ (s.records.delete k).entries.length := by
    have := s.capacity_pos
    rw [excess, Dict.size, Dict.entries_setLast, List.length_append, List.length_singleton]
    omega
  rw [overflow, Dict.entries_setLast, List.take_append_of_le_length hlen]
  intro hmem
  exact (Dict.mem_entries_delete.mp (List.mem_of_mem_take hmem)).1 rfl

lemma get?_setLast {d : Dict κ (LruRecord γ ρ)} {k k' : κ} {r r' : LruRecord γ ρ} :
    (d.setLast k' r').get? k = some r ↔ k = k' ∧ r = r' ∨ k ≠ k' ∧ d.get? k = some r := by
  rw [Dict.setLast, Dict.get?_set]
  split_ifs with h
  · simp [h, eq_comm]
  · simp [h, Dict.get?_delete_of_ne _ h]

lemma get?_put {s : Lru κ γ ρ} {k k' : κ} {r r' : LruRecord γ ρ} :
    (s.put k' r').records.get? k = some r ↔ k = k' ∧ r = r' ∨
      k ≠ k' ∧ s.records.get? k = some r ∧
        (k, r) ∉ overflow s.capacity (s.records.setLast k' r') := by
  rw [put, get?_trim, get?_setLast]
  constructor
  · rintro ⟨⟨rfl, rfl⟩ | ⟨hne, hget⟩, hover⟩
    · exact Or.inl ⟨rfl, rfl⟩
    · exact Or.inr ⟨hne, hget, hover⟩
  · rintro (⟨rfl, rfl⟩ | ⟨hne, hget, hover⟩)
    · exact ⟨Or.inl ⟨rfl, rfl⟩, s.not_mem_overflow_setLast _ _ _⟩
    · exact ⟨Or.inr ⟨hne, hget⟩, hover⟩

/-- Using a held record again puts nothing past the capacity. -/
lemma excess_setLast_of_get? {s : Lru κ γ ρ} {k : κ} {r : LruRecord γ ρ}
    (h : s.records.get? k = some r) : excess s.capacity (s.records.setLast k r) = 0 := by
  have hlt : (s.records.delete k).entries.length < s.records.entries.length :=
    List.length_filter_lt_length_iff_exists.mpr ⟨(k, r), Dict.get?_eq_some_iff.mp h, by simp⟩
  have hbounded := s.bounded
  rw [excess, Dict.size, Dict.entries_setLast, List.length_append, List.length_singleton]
  rw [Dict.size] at hbounded
  omega

lemma overflow_setLast_of_get? {s : Lru κ γ ρ} {k : κ} {r : LruRecord γ ρ}
    (h : s.records.get? k = some r) : overflow s.capacity (s.records.setLast k r) = [] := by
  rw [overflow, excess_setLast_of_get? h, List.take_zero]

end Keys

section Events

variable [DecidableEq κ] [DecidableEq γ]

/-- One event and its reply. Reading a record that still counts makes it the most recently used
one; reading one that does not removes it. -/
def step (s : Lru κ γ ρ) : LruEvent κ γ ρ → Lru κ γ ρ × LruReply ρ
  | .get k now =>
    match s.records.get? k with
    | none => (s, .value none)
    | some r =>
      if r.expiresAt ≤ now then (s.keep fun p => p.1 ≠ k, .value none)
      else (s.put k r, .value (some r.value))
  | .set k r => (s.put k r, .done)
  | .invalidate g => (s.keep fun p => g ∉ p.2.groups, .done)
  | .sweep now =>
    (s.keep fun p => now < p.2.expiresAt,
      .removed (s.records.entries.countP fun p => p.2.expiresAt ≤ now))
  | .resize capacity => (s.resize capacity, .done)
  | .clear => (s.keep fun _ => false, .done)

/-- The state after some events. -/
def run (s : Lru κ γ ρ) (events : List (LruEvent κ γ ρ)) : Lru κ γ ρ := runOn step s events

@[simp] lemma run_nil (s : Lru κ γ ρ) : s.run [] = s := rfl

lemma run_concat (s : Lru κ γ ρ) (events : List (LruEvent κ γ ρ)) (e : LruEvent κ γ ρ) :
    s.run (events ++ [e]) = ((s.run events).step e).1 := runOn_concat _ _ _ _

/-! ### What one event drops -/

/-- The event removes the record of the key. -/
def Drops (s : Lru κ γ ρ) (k : κ) (r : LruRecord γ ρ) : LruEvent κ γ ρ → Prop
  | .get k' now => k' = k ∧ r.expiresAt ≤ now
  | .set k' r' => k' = k ∨ (k, r) ∈ overflow s.capacity (s.records.setLast k' r')
  | .invalidate g => g ∈ r.groups
  | .sweep now => r.expiresAt ≤ now
  | .resize capacity => (k, r) ∈ overflow (max 1 capacity) s.records
  | .clear => True

/-- After an event, the held records are the one it stored and those it did not drop. -/
lemma get?_step_iff (s : Lru κ γ ρ) (e : LruEvent κ γ ρ) (k : κ) (r : LruRecord γ ρ) :
    (s.step e).1.records.get? k = some r ↔
      e = .set k r ∨ s.records.get? k = some r ∧ ¬ s.Drops k r e := by
  cases e with
  | get k' now =>
    simp only [step, Drops, reduceCtorEq, false_or]
    cases hget : s.records.get? k' with
    | none =>
      refine ⟨fun h => ⟨h, ?_⟩, And.left⟩
      rintro ⟨rfl, -⟩
      simp [hget] at h
    | some r' =>
      by_cases hexp : r'.expiresAt ≤ now
      · simp only [hexp, if_true, get?_keep, decide_eq_true_eq]
        refine and_congr_right fun h => ?_
        constructor
        · rintro hne ⟨rfl, -⟩
          exact hne rfl
        · rintro hnot rfl
          rw [hget, Option.some.injEq] at h
          exact hnot ⟨rfl, h ▸ hexp⟩
      · simp only [hexp, if_false, get?_put, overflow_setLast_of_get? hget, List.not_mem_nil,
          not_false_eq_true, and_true]
        constructor
        · rintro (⟨rfl, rfl⟩ | ⟨hne, h⟩)
          · exact ⟨hget, fun h => hexp h.2⟩
          · exact ⟨h, fun h => hne h.1.symm⟩
        · rintro ⟨h, -⟩
          by_cases hk : k = k'
          · subst hk
            exact Or.inl ⟨rfl, Option.some.inj (h.symm.trans hget)⟩
          · exact Or.inr ⟨hk, h⟩
  | set k' r' =>
    simp only [step, Drops, get?_put, LruEvent.set.injEq, not_or]
    constructor
    · rintro (⟨rfl, rfl⟩ | ⟨hne, h, hover⟩)
      · exact Or.inl ⟨rfl, rfl⟩
      · exact Or.inr ⟨h, hne.symm, hover⟩
    · rintro (⟨rfl, rfl⟩ | ⟨h, hne, hover⟩)
      · exact Or.inl ⟨rfl, rfl⟩
      · exact Or.inr ⟨Ne.symm hne, h, hover⟩
  | invalidate g => simp [step, Drops, get?_keep]
  | sweep now => simp [step, Drops, get?_keep]
  | resize capacity => simp [step, Drops, resize, get?_trim]
  | clear => simp [step, Drops, get?_keep]

/-- A read replies the value of a held record that still counts. -/
lemma reply_get_iff {s : Lru κ γ ρ} {k : κ} {now : ℤ} {v : ρ} :
    (s.step (.get k now)).2 = .value (some v) ↔
      ∃ r, s.records.get? k = some r ∧ r.value = v ∧ now < r.expiresAt := by
  cases hget : s.records.get? k with
  | none => simp [step, hget]
  | some r =>
    by_cases hexp : r.expiresAt ≤ now
    · simp [step, hget, hexp]
    · have hlive : now < r.expiresAt := not_le.mp hexp
      simp [step, hget, hexp, hlive]

/-! ### Runs -/

/-- A record is held after a run exactly when the run stored it and no later event dropped it. -/
theorem get?_run_iff {capacity : ℕ} {h : 0 < capacity} (events : List (LruEvent κ γ ρ)) (k : κ)
    (r : LruRecord γ ρ) :
    ((empty capacity h).run events).records.get? k = some r ↔
      ∃ before after, events = before ++ .set k r :: after ∧
        ∀ mid e rest, after = mid ++ e :: rest →
          ¬ ((empty capacity h).run (before ++ .set k r :: mid)).Drops k r e := by
  induction events using List.reverseRecOn with
  | nil => simp [empty]
  | append_singleton events e ih =>
    rw [run_concat, get?_step_iff]
    constructor
    · rintro (rfl | ⟨hget, hdrop⟩)
      · exact ⟨events, [], rfl, by simp⟩
      · obtain ⟨before, after, rfl, hkept⟩ := ih.mp hget
        refine ⟨before, after ++ [e], by simp, ?_⟩
        intro mid e' rest hsplit
        rcases List.eq_nil_or_concat rest with rfl | ⟨rest, e'', rfl⟩
        · obtain ⟨rfl, he⟩ := List.append_inj' hsplit rfl
          obtain rfl := (List.cons.inj he).1
          exact hdrop
        · rw [List.concat_eq_append, ← List.cons_append, ← List.append_assoc] at hsplit
          exact hkept mid e' rest (List.append_inj' hsplit rfl).1
    · rintro ⟨before, after, hsplit, hkept⟩
      rcases List.eq_nil_or_concat after with rfl | ⟨after, e', rfl⟩
      · exact Or.inl (List.cons.inj (List.append_inj' hsplit rfl).2).1
      · rw [List.concat_eq_append, ← List.cons_append, ← List.append_assoc] at hsplit
        obtain ⟨rfl, he⟩ := List.append_inj' hsplit rfl
        obtain rfl := (List.cons.inj he).1
        refine Or.inr ⟨ih.mpr ⟨before, after, rfl, ?_⟩, hkept after e [] (by simp)⟩
        intro mid e' rest hafter
        exact hkept mid e' (rest ++ [e]) (by simp [hafter])

/-! ### Recency -/

/-- The key that an event uses: the one it stores, or reads with a value in reply. -/
def used (s : Lru κ γ ρ) : LruEvent κ γ ρ → List κ
  | .set k _ => [k]
  | .get k now =>
    match (s.step (.get k now)).2 with
    | .value (some _) => [k]
    | _ => []
  | _ => []

/-- The keys in the order they were used. -/
def uses (s : Lru κ γ ρ) : List (LruEvent κ γ ρ) → List κ
  | [] => []
  | e :: events => s.used e ++ uses (s.step e).1 events

lemma uses_concat (s : Lru κ γ ρ) (events : List (LruEvent κ γ ρ)) (e : LruEvent κ γ ρ) :
    s.uses (events ++ [e]) = s.uses events ++ (s.run events).used e := by
  induction events generalizing s with
  | nil => simp [uses]
  | cons e' events ih =>
    rw [List.cons_append, uses, uses, ih, List.append_assoc]
    rfl

/-- An event moves the key it uses to the end and otherwise keeps the order. -/
lemma keys_step_sublist (s : Lru κ γ ρ) (e : LruEvent κ γ ρ) :
    (s.step e).1.records.keys.Sublist
      (s.records.keys.filter (fun k => k ∉ s.used e) ++ s.used e) := by
  have hkeep : ∀ p, (s.keep p).records.keys.Sublist (s.records.keys.filter (fun k => k ∉ []) ++ []) := by
    intro p
    rw [List.append_nil, List.filter_eq_self.mpr (by simp)]
    exact List.filter_sublist.map Prod.fst
  have hput : ∀ k r, (s.put k r).records.keys.Sublist
      (s.records.keys.filter (fun k' => k' ∉ [k]) ++ [k]) := by
    intro k r
    have hkeys : (s.records.setLast k r).keys = s.records.keys.filter (fun k' => k' ∉ [k]) ++ [k] := by
      simp [Dict.keys, Dict.entries_setLast, Dict.delete, List.filter_map, Function.comp_def]
    rw [← hkeys]
    exact (List.drop_sublist _ _).map Prod.fst
  cases e with
  | get k now =>
    cases hget : s.records.get? k with
    | none => simp [step, used, hget]
    | some r =>
      by_cases hexp : r.expiresAt ≤ now
      · simpa [step, used, hget, hexp] using hkeep fun p => p.1 ≠ k
      · simpa [step, used, hget, hexp] using hput k r
  | set k r => exact hput k r
  | resize capacity =>
    simpa [step, used, resize, trim, Dict.keys, Dict.entries_drop] using
      (List.drop_sublist _ _).map Prod.fst
  | invalidate g => exact hkeep _
  | sweep now => exact hkeep _
  | clear => exact hkeep _

/-- The held keys stand in the order of their last uses, so `overflow` takes those whose last
use lies furthest back. -/
theorem keys_run_sublist {capacity : ℕ} {h : 0 < capacity} (events : List (LruEvent κ γ ρ)) :
    ((empty capacity h).run events).records.keys.Sublist
      ((empty capacity h).uses events).dedup := by
  induction events using List.reverseRecOn with
  | nil => exact List.Sublist.slnil
  | append_singleton events e ih =>
    rw [run_concat, uses_concat]
    refine (keys_step_sublist _ e).trans ?_
    obtain hnone | ⟨k, hk⟩ : ((empty capacity h).run events).used e = [] ∨
        ∃ k, ((empty capacity h).run events).used e = [k] := by
      cases e with
      | get k now =>
        rw [used]
        split
        · exact Or.inr ⟨k, rfl⟩
        · exact Or.inl rfl
      | set k r => exact Or.inr ⟨k, rfl⟩
      | _ => exact Or.inl rfl
    · simpa [hnone] using ih
    · rw [hk, dedup_concat]
      exact (ih.filter _).append_right _

end Events

end Lru

end Junjo
