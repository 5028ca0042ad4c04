import Junjo.Core.Dict

/-!
# Memos

A memo keeps some values of a function by argument, and may be emptied before it takes another.
Whatever is dropped, it holds nothing but values of the function.
-/

namespace Junjo

variable {κ ν : Type*} [DecidableEq κ]

namespace Dict

/-- Store a value, after emptying a memo that is full. -/
def putOrClear (full : Bool) (m : Dict κ ν) (k : κ) (v : ν) : Dict κ ν :=
  (if full then empty else m).set k v

lemma get?_putOrClear {full : Bool} {m : Dict κ ν} {k k' : κ} {v w : ν}
    (h : (m.putOrClear full k v).get? k' = some w) :
    (k' = k ∧ w = v) ∨ (k' ≠ k ∧ m.get? k' = some w) := by
  rw [putOrClear, get?_set] at h
  split_ifs at h with hk hfull
  · exact .inl ⟨hk, (Option.some.inj h).symm⟩
  · cases h
  · exact .inr ⟨hk, h⟩

/-- Every value in the memo is the function's. -/
def Memoizes (m : Dict κ ν) (f : κ → ν) : Prop := ∀ k v, m.get? k = some v → v = f k

variable {m : Dict κ ν} {f : κ → ν}

lemma memoizes_empty : (empty : Dict κ ν).Memoizes f := fun _ _ h => by cases h

lemma Memoizes.putOrClear (h : m.Memoizes f) (full : Bool) (k : κ) :
    (m.putOrClear full k (f k)).Memoizes f := by
  intro k' v hget
  rcases get?_putOrClear hget with ⟨rfl, rfl⟩ | ⟨-, hold⟩
  · rfl
  · exact h k' v hold

/-- The value for an argument, from the memo when it holds one. -/
def memoized (full : Dict κ ν → Bool) (m : Dict κ ν) (f : κ → ν) (k : κ) : ν × Dict κ ν :=
  match m.get? k with
  | some v => (v, m)
  | none => (f k, m.putOrClear (full m) k (f k))

/-- A memo of the function answers as the function does, and stays one. -/
lemma Memoizes.memoized (h : m.Memoizes f) (full : Dict κ ν → Bool) (k : κ) :
    (m.memoized full f k).1 = f k ∧ (m.memoized full f k).2.Memoizes f := by
  rw [Dict.memoized]
  cases hget : m.get? k with
  | none => exact ⟨rfl, h.putOrClear _ k⟩
  | some v => exact ⟨h k v hget, h⟩

end Dict

end Junjo
