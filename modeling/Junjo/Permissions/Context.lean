import Junjo.Core.Json
import Junjo.Core.Layers

/-!
# Permission contexts

A context maps game-defined keys to values. Values are folded like nodes-mode permission keys,
in every mode. The canonical key of a context is the JSON array of its pairs in key order, and a
game can let the values of a key inherit from each other.
-/

namespace Junjo

/-- A context: keys that match the context key pattern, each with one value. -/
abbrev PermissionContext := Dict Text Text

/-- `permissions.contexts`: for each context key, the values that each value inherits from. -/
abbrev ContextInheritance := Dict Text (Dict Text (List Text))

def maxContextInheritDepth : ℕ := 16

def foldContextValue (value : Text) : Text := asciiLower value

@[simp] lemma foldContextValue_idem (value : Text) :
    foldContextValue (foldContextValue value) = foldContextValue value :=
  asciiLower_idem value

/-! ### Canonical keys -/

/-- The canonical form used for storage and uniqueness: empty for the global context (`none`, or
a context without keys), otherwise the JSON array of the pairs sorted by key. -/
def canonicalContextKey (context : Option PermissionContext) : Text :=
  match context with
  | none => []
  | some context => if context.keys = [] then [] else jsonPairs context.sortedEntries

@[simp] lemma canonicalContextKey_none : canonicalContextKey none = [] := rfl

/-- Only contexts without keys are stored as global ones. -/
lemma canonicalContextKey_eq_nil {context : PermissionContext} :
    canonicalContextKey (some context) = [] ↔ context.keys = [] := by
  unfold canonicalContextKey
  dsimp only
  split_ifs with h
  · simp [h]
  · simp [h, jsonPairs_ne_nil]

/-- Contexts with one canonical key are equal as maps. -/
lemma get?_eq_of_canonicalContextKey_eq {c c' : PermissionContext}
    (h : canonicalContextKey (some c) = canonicalContextKey (some c')) (k : Text) :
    c.get? k = c'.get? k := by
  by_cases hc : c.keys = []
  · have hc' : c'.keys = [] := by
      rwa [← canonicalContextKey_eq_nil, ← h, canonicalContextKey_eq_nil]
    rw [Dict.get?_eq_none_iff.mpr (by simp [hc]), Dict.get?_eq_none_iff.mpr (by simp [hc'])]
  · have hc' : c'.keys ≠ [] := by
      rwa [ne_eq, ← canonicalContextKey_eq_nil, ← h, canonicalContextKey_eq_nil]
    simp only [canonicalContextKey, hc, hc', if_false] at h
    exact Dict.get?_eq_of_sortedEntries_eq (jsonPairs_injective h) k

/-- The canonical key forgets the order of the keys. -/
lemma canonicalContextKey_congr {c c' : PermissionContext} (h : ∀ k, c.get? k = c'.get? k) :
    canonicalContextKey (some c) = canonicalContextKey (some c') := by
  have hkeys : c.keys = [] ↔ c'.keys = [] := by
    rw [← List.length_eq_zero_iff, ← List.length_eq_zero_iff,
      (Dict.keys_perm_of_get?_eq h).length_eq]
  simp only [canonicalContextKey, hkeys, Dict.sortedEntries_eq_of_get?_eq h]

/-! ### Inheritance between values -/

/-- The values a value of the key inherits from, folded. -/
def inheritedValues (inherit : Dict Text (List Text)) (value : Text) : List Text :=
  ((inherit.get? value).getD []).map foldContextValue

/-- Every value reachable from `value` through the key's inheritance, mapped to its shortest
distance. `value` must already be folded. -/
def contextChain (inheritance : ContextInheritance) (key value : Text) : Dict Text ℕ :=
  match inheritance.get? key with
  | none => Dict.ofList [(value, 0)]
  | some inherit => distances (inheritedValues inherit) maxContextInheritDepth value

/-- `w` is a parent of `v` among the values of the key. -/
def InheritsValue (inheritance : ContextInheritance) (key v w : Text) : Prop :=
  ∃ inherit, inheritance.get? key = some inherit ∧ w ∈ inheritedValues inherit v

/-- `v` is in the chain of `value` at distance `d`: the shortest walk through the key's
inheritance has `d` steps, and `d` is within the depth bound. -/
def InChain (inheritance : ContextInheritance) (key value v : Text) (d : ℕ) : Prop :=
  d ≤ maxContextInheritDepth ∧ AtDistance (InheritsValue inheritance key) {value} d v

/-- The chain finds exactly the values within the depth bound, at their shortest distances. -/
lemma get?_contextChain {inheritance : ContextInheritance} {key value v : Text} {d : ℕ} :
    (contextChain inheritance key value).get? v = some d ↔ InChain inheritance key value v d := by
  unfold contextChain InChain
  cases h : inheritance.get? key with
  | none =>
    have hstep : ∀ n, n ≠ 0 → ∀ w, ¬ AtDistance (InheritsValue inheritance key) {value} n w := by
      intro n hn w hw
      obtain ⟨n, rfl⟩ := Nat.exists_eq_succ_of_ne_zero hn
      obtain ⟨⟨_, _, _, hinherit, _⟩, _⟩ := atDistance_succ.mp hw
      simp [h] at hinherit
    dsimp only
    rw [Dict.get?_ofList_eq_some_iff (by simp), List.mem_singleton, Prod.mk.injEq]
    constructor
    · rintro ⟨rfl, rfl⟩
      simp
    · rintro ⟨-, hv⟩
      obtain rfl : d = 0 := by_contra fun hd => hstep d hd v hv
      simpa using hv
  | some inherit =>
    apply get?_distances
    intro v w
    simp [InheritsValue, h]

lemma InChain.unique {inheritance : ContextInheritance} {key value v : Text} {d d' : ℕ}
    (h : InChain inheritance key value v d) (h' : InChain inheritance key value v d') : d = d' :=
  h.2.unique h'.2

end Junjo
