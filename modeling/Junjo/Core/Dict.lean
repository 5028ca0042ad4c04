import Junjo.Core.Lists

/-!
# Insertion-ordered dictionaries

`Dict κ ν` is a dictionary that holds one entry a key and iterates in the order the keys were
first inserted. Reading, overwriting and deleting are described by `Dict.get?`, and a dictionary
is determined up to order by its readings.
-/

namespace Junjo

/-- A dictionary with one entry a key, iterated in insertion order. -/
structure Dict (κ ν : Type*) where
  entries : List (κ × ν)
  nodupKeys : (entries.map Prod.fst).Nodup
deriving DecidableEq

namespace Dict

variable {κ ν μ : Type*}

/-- The keys, in insertion order. -/
def keys (d : Dict κ ν) : List κ := d.entries.map Prod.fst

def size (d : Dict κ ν) : ℕ := d.entries.length

/-- The dictionary without entries. -/
def empty : Dict κ ν := ⟨[], List.nodup_nil⟩

@[simp] lemma entries_empty : (empty : Dict κ ν).entries = [] := rfl

@[simp] lemma keys_empty : (empty : Dict κ ν).keys = [] := rfl

lemma ext_entries {d d' : Dict κ ν} (h : d.entries = d'.entries) : d = d' := by
  cases d; cases d'; simp_all

lemma nodup_keys (d : Dict κ ν) : d.keys.Nodup := d.nodupKeys

@[simp] lemma length_keys (d : Dict κ ν) : d.keys.length = d.size := by simp [keys, size]

/-- The entries that satisfy a test. -/
def filter (p : κ × ν → Bool) (d : Dict κ ν) : Dict κ ν :=
  ⟨d.entries.filter p, d.nodupKeys.sublist (List.filter_sublist.map _)⟩

@[simp] lemma entries_filter (p : κ × ν → Bool) (d : Dict κ ν) :
    (d.filter p).entries = d.entries.filter p := rfl

lemma mem_keys_filter {d : Dict κ ν} {q : κ → Bool} {k : κ} :
    k ∈ (d.filter fun e => q e.1).keys ↔ k ∈ d.keys ∧ q k = true := by
  simp only [keys, entries_filter, List.mem_map, List.mem_filter]
  constructor
  · rintro ⟨e, ⟨he, hq⟩, rfl⟩
    exact ⟨⟨e, he, rfl⟩, hq⟩
  · rintro ⟨⟨e, he, rfl⟩, hq⟩
    exact ⟨e, ⟨he, hq⟩, rfl⟩

/-- All but the first `n` entries. -/
def drop (n : ℕ) (d : Dict κ ν) : Dict κ ν :=
  ⟨d.entries.drop n, d.nodupKeys.sublist ((List.drop_sublist _ _).map _)⟩

@[simp] lemma entries_drop (n : ℕ) (d : Dict κ ν) : (d.drop n).entries = d.entries.drop n := rfl

lemma nodup_entries (d : Dict κ ν) : d.entries.Nodup := d.nodupKeys.of_map

/-- An entry lies in the first `n` or among the others. -/
lemma mem_entries_drop {n : ℕ} {d : Dict κ ν} {p : κ × ν} :
    p ∈ (d.drop n).entries ↔ p ∈ d.entries ∧ p ∉ d.entries.take n := by
  have hsplit : p ∈ d.entries ↔ p ∈ d.entries.take n ∨ p ∈ d.entries.drop n := by
    rw [← List.mem_append, List.take_append_drop]
  have hdisjoint : p ∈ d.entries.take n → p ∉ d.entries.drop n := by
    have hnodup := d.nodup_entries
    rw [← List.take_append_drop n d.entries] at hnodup
    exact fun ht hd => List.disjoint_of_nodup_append hnodup ht hd
  rw [entries_drop, hsplit]
  tauto

/-- Apply a function to every value. -/
def mapValues (f : ν → μ) (d : Dict κ ν) : Dict κ μ :=
  ⟨d.entries.map fun p => (p.1, f p.2), by simpa [Function.comp_def] using d.nodupKeys⟩

lemma mapValues_entries (f : ν → μ) (d : Dict κ ν) :
    (d.mapValues f).entries = d.entries.map fun p => (p.1, f p.2) := rfl

lemma mapValues_mapValues {ξ : Type*} (f : ν → μ) (g : μ → ξ) (d : Dict κ ν) :
    (d.mapValues f).mapValues g = d.mapValues fun v => g (f v) := by
  apply ext_entries
  simp [mapValues_entries]

@[simp] lemma keys_mapValues (f : ν → μ) (d : Dict κ ν) : (d.mapValues f).keys = d.keys := by
  simp [mapValues, keys, Function.comp_def]

/-- Apply a function to every entry, and store what it gives under the entry's key. -/
def mapEntries (f : κ → ν → μ) (d : Dict κ ν) : Dict κ μ :=
  ⟨d.entries.map fun p => (p.1, f p.1 p.2), by simpa [Function.comp_def] using d.nodupKeys⟩

@[simp] lemma keys_mapEntries (f : κ → ν → μ) (d : Dict κ ν) : (d.mapEntries f).keys = d.keys := by
  simp [mapEntries, keys, Function.comp_def]

section Lookup

variable [DecidableEq κ]

/-- The value stored under a key. -/
def get? (d : Dict κ ν) (k : κ) : Option ν := d.entries.lookup k

/-- Whether a key is present. -/
def has (d : Dict κ ν) (k : κ) : Bool := (d.get? k).isSome

/-- Store a value: an existing key keeps its place, a new one goes last. -/
def set (d : Dict κ ν) (k : κ) (v : ν) : Dict κ ν :=
  if h : k ∈ d.keys then
    ⟨d.entries.map fun p => if p.1 = k then (p.1, v) else p, by
      have hfst : (fun p : κ × ν => (if p.1 = k then (p.1, v) else p).1) = Prod.fst := by
        funext p; split_ifs <;> rfl
      simpa [Function.comp_def, hfst] using d.nodupKeys⟩
  else
    ⟨d.entries ++ [(k, v)], by
      rw [List.map_append, List.nodup_append]
      refine ⟨d.nodupKeys, by simp, ?_⟩
      intro a ha b hb hab
      simp only [List.map_cons, List.map_nil, List.mem_singleton] at hb
      subst hab hb
      exact h ha⟩

/-- Remove a key. -/
def delete (d : Dict κ ν) (k : κ) : Dict κ ν :=
  ⟨d.entries.filter fun p => p.1 ≠ k,
    d.nodupKeys.sublist ((List.filter_sublist (l := d.entries)).map Prod.fst)⟩

/-- The dictionary built by storing the pairs one after the other. -/
def ofList (l : List (κ × ν)) : Dict κ ν := l.foldl (fun d p => d.set p.1 p.2) empty

lemma lookup_eq_some_iff {l : List (κ × ν)} (hl : (l.map Prod.fst).Nodup) {k : κ} {v : ν} :
    l.lookup k = some v ↔ (k, v) ∈ l := by
  induction l with
  | nil => simp
  | cons p l ih =>
    obtain ⟨k', v'⟩ := p
    simp only [List.map_cons, List.nodup_cons] at hl
    by_cases hk : k = k'
    · subst hk
      have hnot : ∀ w, (k, w) ∉ l := fun w hw => hl.1 (List.mem_map_of_mem hw)
      simp [hnot, eq_comm]
    · have hbeq : (k == k') = false := by simpa using hk
      simp only [List.lookup_cons, hbeq, List.mem_cons, Prod.mk.injEq, hk, false_and, false_or]
      exact ih hl.2

lemma get?_eq_some_iff {d : Dict κ ν} {k : κ} {v : ν} : d.get? k = some v ↔ (k, v) ∈ d.entries :=
  lookup_eq_some_iff d.nodupKeys

lemma mem_keys_iff {d : Dict κ ν} {k : κ} : k ∈ d.keys ↔ ∃ v, d.get? k = some v := by
  simp [keys, get?_eq_some_iff]

lemma has_iff {d : Dict κ ν} {k : κ} : d.has k = true ↔ k ∈ d.keys := by
  rw [has, mem_keys_iff, Option.isSome_iff_exists]

lemma get?_eq_none_iff {d : Dict κ ν} {k : κ} : d.get? k = none ↔ k ∉ d.keys := by
  rw [mem_keys_iff, ← Option.ne_none_iff_exists', not_ne_iff]

/-- A test of keys keeps the readings of the keys that pass it. -/
lemma get?_filter (d : Dict κ ν) (q : κ → Bool) (k : κ) :
    (d.filter fun e => q e.1).get? k = if q k then d.get? k else none := by
  apply Option.ext
  intro v
  rw [get?_eq_some_iff, entries_filter, List.mem_filter]
  split_ifs with hq
  · rw [get?_eq_some_iff, and_iff_left hq]
  · exact iff_of_false (fun h => hq h.2) (fun h => by cases h)

@[simp] lemma get?_empty (k : κ) : (empty : Dict κ ν).get? k = none := rfl

lemma mem_entries_set {d : Dict κ ν} {k : κ} {v : ν} {p : κ × ν} :
    p ∈ (d.set k v).entries ↔ p = (k, v) ∨ p.1 ≠ k ∧ p ∈ d.entries := by
  unfold set
  split_ifs with h
  · simp only [List.mem_map]
    constructor
    · rintro ⟨q, hq, rfl⟩
      split_ifs with hqk
      · exact Or.inl (by rw [hqk])
      · exact Or.inr ⟨hqk, hq⟩
    · rintro (rfl | ⟨hne, hp⟩)
      · obtain ⟨q, hq, rfl⟩ := List.mem_map.mp h
        exact ⟨q, hq, by simp⟩
      · exact ⟨p, hp, by simp [hne]⟩
  · simp only [List.mem_append, List.mem_singleton]
    constructor
    · rintro (hp | rfl)
      · exact Or.inr ⟨fun hk => h (hk ▸ List.mem_map_of_mem hp), hp⟩
      · exact Or.inl rfl
    · rintro (rfl | ⟨-, hp⟩)
      · exact Or.inr rfl
      · exact Or.inl hp

lemma mem_entries_delete {d : Dict κ ν} {k : κ} {p : κ × ν} :
    p ∈ (d.delete k).entries ↔ p.1 ≠ k ∧ p ∈ d.entries := by
  simp [delete, and_comm]

@[simp] lemma get?_set_self (d : Dict κ ν) (k : κ) (v : ν) : (d.set k v).get? k = some v := by
  simp [get?_eq_some_iff, mem_entries_set]

lemma get?_set_of_ne (d : Dict κ ν) {k k' : κ} (v : ν) (h : k' ≠ k) :
    (d.set k v).get? k' = d.get? k' := by
  ext w
  simp [get?_eq_some_iff, mem_entries_set, h]

lemma get?_set (d : Dict κ ν) (k k' : κ) (v : ν) :
    (d.set k v).get? k' = if k' = k then some v else d.get? k' := by
  split_ifs with h
  · rw [h, get?_set_self]
  · exact get?_set_of_ne d v h

lemma mem_keys_set {d : Dict κ ν} {k k' : κ} {v : ν} :
    k' ∈ (d.set k v).keys ↔ k' = k ∨ k' ∈ d.keys := by
  simp only [mem_keys_iff, get?_set]
  split_ifs with h <;> simp [h]

@[simp] lemma get?_delete_self (d : Dict κ ν) (k : κ) : (d.delete k).get? k = none := by
  simp [Option.eq_none_iff_forall_ne_some, get?_eq_some_iff, mem_entries_delete]

lemma get?_delete_of_ne (d : Dict κ ν) {k k' : κ} (h : k' ≠ k) :
    (d.delete k).get? k' = d.get? k' := by
  ext w
  simp [get?_eq_some_iff, mem_entries_delete, h]

lemma get?_delete (d : Dict κ ν) (k k' : κ) :
    (d.delete k).get? k' = if k' = k then none else d.get? k' := by
  split_ifs with h
  · rw [h, get?_delete_self]
  · exact get?_delete_of_ne d h

lemma entries_set_of_not_mem {d : Dict κ ν} {k : κ} (v : ν) (h : k ∉ d.keys) :
    (d.set k v).entries = d.entries ++ [(k, v)] := by
  simp [set, h]

lemma mem_keys_delete {d : Dict κ ν} {k k' : κ} :
    k' ∈ (d.delete k).keys ↔ k' ≠ k ∧ k' ∈ d.keys := by
  rw [mem_keys_iff, mem_keys_iff, get?_delete]
  by_cases h : k' = k
  · simp [h]
  · simp [h]

lemma not_mem_keys_delete (d : Dict κ ν) (k : κ) : k ∉ (d.delete k).keys := by
  rw [← get?_eq_none_iff, get?_delete_self]

/-- Store a value under a key that goes last, whether it was there or not. -/
def setLast (d : Dict κ ν) (k : κ) (v : ν) : Dict κ ν := (d.delete k).set k v

lemma entries_setLast (d : Dict κ ν) (k : κ) (v : ν) :
    (d.setLast k v).entries = (d.delete k).entries ++ [(k, v)] :=
  entries_set_of_not_mem v (not_mem_keys_delete d k)

lemma get?_mapValues (f : ν → μ) (d : Dict κ ν) (k : κ) :
    (d.mapValues f).get? k = (d.get? k).map f := by
  ext w
  simp only [get?_eq_some_iff, mapValues, List.mem_map, Prod.mk.injEq, Option.map_eq_some_iff]
  constructor
  · rintro ⟨⟨k', v⟩, hp, rfl, rfl⟩
    exact ⟨v, hp, rfl⟩
  · rintro ⟨v, hv, rfl⟩
    exact ⟨(k, v), hv, rfl, rfl⟩

lemma get?_mapEntries (f : κ → ν → μ) (d : Dict κ ν) (k : κ) :
    (d.mapEntries f).get? k = (d.get? k).map (f k) := by
  ext w
  simp only [get?_eq_some_iff, mapEntries, List.mem_map, Prod.mk.injEq, Option.map_eq_some_iff]
  constructor
  · rintro ⟨⟨k', v⟩, hp, rfl, rfl⟩
    exact ⟨v, hp, rfl⟩
  · rintro ⟨v, hv, rfl⟩
    exact ⟨(k, v), hv, rfl, rfl⟩

lemma mapValues_set (f : ν → μ) (d : Dict κ ν) (k : κ) (v : ν) :
    (d.set k v).mapValues f = (d.mapValues f).set k (f v) := by
  apply ext_entries
  by_cases hk : k ∈ d.keys
  · simp only [set, hk, keys_mapValues, dif_pos, mapValues_entries, List.map_map]
    refine List.map_congr_left fun p _ => ?_
    simp only [Function.comp_apply]
    split_ifs <;> rfl
  · simp [set, hk, mapValues_entries]

/-- Mapping the values commutes with building the dictionary. -/
lemma mapValues_ofList (f : ν → μ) (l : List (κ × ν)) :
    (ofList l).mapValues f = ofList (l.map fun p => (p.1, f p.2)) := by
  rw [ofList, ofList, List.foldl_map]
  exact (List.foldl_hom (mapValues f) fun d p => (mapValues_set f d p.1 p.2).symm).symm

/-- A map that changes nothing keeps every value. -/
lemma eq_of_mapValues_eq_self {f : ν → ν} {d : Dict κ ν} (h : d.mapValues f = d) {p : κ × ν}
    (hp : p ∈ d.entries) : f p.2 = p.2 := by
  have hget := get?_eq_some_iff.mpr hp
  have hmap := get?_mapValues f d p.1
  rw [h, hget] at hmap
  exact (Option.some.inj hmap).symm

lemma get?_foldl_set (l : List (κ × ν)) (d : Dict κ ν) (hl : (l.map Prod.fst).Nodup) (k : κ) :
    (l.foldl (fun d p => d.set p.1 p.2) d).get? k = (l.lookup k).or (d.get? k) := by
  induction l generalizing d with
  | nil => simp
  | cons p l ih =>
    obtain ⟨k', v'⟩ := p
    simp only [List.map_cons, List.nodup_cons] at hl
    rw [List.foldl_cons, ih _ hl.2, get?_set]
    by_cases hk : k = k'
    · subst hk
      have hnone : l.lookup k = none := by
        rw [Option.eq_none_iff_forall_ne_some]
        intro w hw
        exact hl.1 (List.mem_map_of_mem ((lookup_eq_some_iff hl.2).mp hw))
      simp [hnone]
    · have hbeq : (k == k') = false := by simpa using hk
      simp [List.lookup_cons, hbeq, hk]

lemma get?_foldl_set_of_mem {l : List (κ × ν)} (d : Dict κ ν) (hl : (l.map Prod.fst).Nodup)
    {p : κ × ν} (hp : p ∈ l) :
    (l.foldl (fun d p => d.set p.1 p.2) d).get? p.1 = some p.2 := by
  rw [get?_foldl_set l d hl, (lookup_eq_some_iff hl).mpr hp, Option.some_or]

lemma get?_foldl_set_of_not_mem {l : List (κ × ν)} (d : Dict κ ν) (hl : (l.map Prod.fst).Nodup)
    {k : κ} (hk : k ∉ l.map Prod.fst) :
    (l.foldl (fun d p => d.set p.1 p.2) d).get? k = d.get? k := by
  have hnone : l.lookup k = none := by
    rw [Option.eq_none_iff_forall_ne_some]
    intro v hv
    exact hk (List.mem_map_of_mem ((lookup_eq_some_iff hl).mp hv))
  rw [get?_foldl_set l d hl, hnone, Option.none_or]

/-- What is stored under a key comes from a pair. -/
lemma get?_ofList_map {α : Type*} (l : List α) (f : α → κ) (v : ν) (k : κ) :
    (ofList (l.map fun a => (f a, v))).get? k = if k ∈ l.map f then some v else none := by
  rw [ofList]
  induction l using List.reverseRecOn with
  | nil => rfl
  | append_singleton l a ih =>
    rw [List.map_append, List.foldl_append, List.map_singleton, List.foldl_cons, List.foldl_nil,
      get?_set, ih, List.map_append, List.map_singleton]
    by_cases hk : k = f a
    · simp [hk]
    · simp [hk]

/-- Storing pairs with different keys keeps them all. -/
lemma get?_ofList_eq_some_iff {l : List (κ × ν)} (hl : (l.map Prod.fst).Nodup) {k : κ} {v : ν} :
    (ofList l).get? k = some v ↔ (k, v) ∈ l := by
  rw [ofList, get?_foldl_set l empty hl, get?_empty, Option.or_none, lookup_eq_some_iff hl]

/-- Equal readings give the same entries up to order. -/
lemma entries_perm_of_get?_eq {d d' : Dict κ ν} (h : ∀ k, d.get? k = d'.get? k) :
    d.entries.Perm d'.entries := by
  rw [List.perm_ext_iff_of_nodup d.nodupKeys.of_map d'.nodupKeys.of_map]
  rintro ⟨k, v⟩
  rw [← get?_eq_some_iff, ← get?_eq_some_iff, h]

lemma entries_set_perm (d : Dict κ ν) (k : κ) (v : ν) :
    (d.set k v).entries.Perm ((d.delete k).entries ++ [(k, v)]) := by
  rw [← entries_setLast]
  refine entries_perm_of_get?_eq fun k' => ?_
  rw [setLast, get?_set, get?_set, get?_delete]
  split_ifs <;> rfl

lemma entries_perm_delete {d : Dict κ ν} {k : κ} {v : ν} (h : d.get? k = some v) :
    d.entries.Perm ((d.delete k).entries ++ [(k, v)]) := by
  have hself : ∀ k', d.get? k' = (d.set k v).get? k' := by
    intro k'
    rw [get?_set]
    split_ifs with hk
    · rw [hk, h]
    · rfl
  exact (entries_perm_of_get?_eq hself).trans (entries_set_perm d k v)

/-- An element added to the list under a key is added to all the lists. -/
lemma flatMap_set_concat (d : Dict κ (List ν)) (k : κ) (v : ν) :
    ((d.set k ((d.get? k).getD [] ++ [v])).entries.flatMap Prod.snd).Perm
      (d.entries.flatMap Prod.snd ++ [v]) := by
  refine ((entries_set_perm d k _).flatMap_right _).trans ?_
  rw [List.flatMap_append, List.flatMap_singleton, ← List.append_assoc]
  refine List.Perm.append_right _ ?_
  cases h : d.get? k with
  | none =>
    have hdelete : d.delete k = d := by
      apply ext_entries
      rw [delete, List.filter_eq_self]
      intro p hp
      refine decide_eq_true fun hk => ?_
      exact get?_eq_none_iff.mp h (hk ▸ List.mem_map_of_mem hp)
    rw [hdelete, Option.getD_none, List.append_nil]
  | some l =>
    have hperm := (entries_perm_delete h).flatMap_right Prod.snd
    rw [List.flatMap_append, List.flatMap_singleton] at hperm
    exact hperm.symm

/-- Storing the entries of a dictionary one by one gives it back. -/
lemma ofList_entries (d : Dict κ ν) : ofList d.entries = d := by
  have hfold : ∀ (l l' : List (κ × ν)) (h : ((l ++ l').map Prod.fst).Nodup) (e : Dict κ ν),
      e.entries = l → (l'.foldl (fun d p => d.set p.1 p.2) e).entries = l ++ l' := by
    intro l l'
    induction l' generalizing l with
    | nil => simp
    | cons p l' ih =>
      intro h e he
      have hnot : p.1 ∉ e.keys := by
        rw [List.map_append, List.map_cons, List.nodup_append] at h
        intro hp
        rw [keys, he] at hp
        exact h.2.2 p.1 hp p.1 List.mem_cons_self rfl
      rw [List.foldl_cons, ih (l ++ [p]) (by simpa using h)]
      · simp
      · rw [entries_set_of_not_mem _ hnot, he]
  apply ext_entries
  simpa [ofList] using hfold [] d.entries (by simpa using d.nodupKeys) empty rfl

lemma keys_perm_of_get?_eq {d d' : Dict κ ν} (h : ∀ k, d.get? k = d'.get? k) :
    d.keys.Perm d'.keys :=
  (entries_perm_of_get?_eq h).map Prod.fst

end Lookup

section Sorted

variable [LinearOrder κ] [DecidableEq κ]

/-- The entries in increasing key order. -/
def sortedEntries (d : Dict κ ν) : List (κ × ν) :=
  (d.keys.insertionSort (· ≤ ·)).filterMap fun k => (d.get? k).map fun v => (k, v)

lemma mem_sortedEntries {d : Dict κ ν} {p : κ × ν} : p ∈ d.sortedEntries ↔ p ∈ d.entries := by
  obtain ⟨k, v⟩ := p
  simp only [sortedEntries, List.mem_filterMap, List.mem_insertionSort, Option.map_eq_some_iff,
    Prod.mk.injEq]
  constructor
  · rintro ⟨k', -, v', hv, rfl, rfl⟩
    exact get?_eq_some_iff.mp hv
  · intro h
    have hget := get?_eq_some_iff.mpr h
    exact ⟨k, mem_keys_iff.mpr ⟨v, hget⟩, v, hget, rfl, rfl⟩

/-- Sorting forgets the insertion order. -/
lemma sortedEntries_eq_of_get?_eq {d d' : Dict κ ν} (h : ∀ k, d.get? k = d'.get? k) :
    d.sortedEntries = d'.sortedEntries := by
  have hsort : d.keys.insertionSort (· ≤ ·) = d'.keys.insertionSort (· ≤ ·) :=
    List.Perm.eq_of_pairwise' (List.pairwise_insertionSort _ _) (List.pairwise_insertionSort _ _)
      ((List.perm_insertionSort _ _).trans
        ((keys_perm_of_get?_eq h).trans (List.perm_insertionSort _ _).symm))
  simp [sortedEntries, hsort, h]

lemma get?_eq_of_sortedEntries_eq {d d' : Dict κ ν} (h : d.sortedEntries = d'.sortedEntries)
    (k : κ) : d.get? k = d'.get? k := by
  ext v
  rw [get?_eq_some_iff, get?_eq_some_iff, ← mem_sortedEntries, h, mem_sortedEntries]

lemma map_fst_sortedEntries (d : Dict κ ν) :
    d.sortedEntries.map Prod.fst = d.keys.insertionSort (· ≤ ·) := by
  have hall : ∀ l : List κ, (∀ k ∈ l, k ∈ d.keys) →
      (l.filterMap fun k => (d.get? k).map fun v => (k, v)).map Prod.fst = l := by
    intro l
    induction l with
    | nil => simp
    | cons k l ih =>
      intro hl
      obtain ⟨v, hv⟩ := mem_keys_iff.mp (hl k List.mem_cons_self)
      simp [hv, ih fun k' hk' => hl k' (List.mem_cons_of_mem k hk')]
  exact hall _ fun k hk => by simpa using hk

/-- The dictionary that iterates in increasing key order. -/
def sorted (d : Dict κ ν) : Dict κ ν :=
  ⟨d.sortedEntries, by
    rw [map_fst_sortedEntries]
    exact (List.perm_insertionSort _ _).nodup_iff.mpr d.nodup_keys⟩

/-- Sorted keys are strictly increasing. -/
lemma keys_sorted (d : Dict κ ν) : d.sorted.keys.Pairwise (· < ·) := by
  have hsort : d.sorted.keys.Pairwise (· ≤ ·) := by
    rw [keys, sorted, map_fst_sortedEntries]
    exact List.pairwise_insertionSort _ _
  exact (hsort.and d.sorted.nodup_keys).imp fun h => lt_of_le_of_ne h.1 h.2

/-- Sorting commutes with a map of the values. -/
lemma sorted_mapValues (f : ν → μ) (d : Dict κ ν) :
    (d.mapValues f).sorted = d.sorted.mapValues f := by
  apply ext_entries
  simp only [sorted, sortedEntries, mapValues_entries, keys_mapValues, get?_mapValues,
    List.map_filterMap, Option.map_map, Function.comp_def]

@[simp] lemma get?_sorted (d : Dict κ ν) (k : κ) : d.sorted.get? k = d.get? k := by
  ext v
  rw [get?_eq_some_iff, get?_eq_some_iff]
  exact mem_sortedEntries

/-- A dictionary with increasing keys is its own sorted form. -/
lemma sorted_eq_self {d : Dict κ ν} (h : d.keys.Pairwise (· < ·)) : d.sorted = d := by
  apply ext_entries
  apply @List.Perm.eq_of_pairwise _ fun p q : κ × ν => p.1 < q.1
  · intro p q _ _ hpq hqp
    exact absurd hqp (lt_asymm hpq)
  · exact List.pairwise_map.mp (keys_sorted d)
  · exact List.pairwise_map.mp h
  · exact entries_perm_of_get?_eq (get?_sorted d)

lemma sorted_eq_of_get?_eq {d d' : Dict κ ν} (h : ∀ k, d.get? k = d'.get? k) :
    d.sorted = d'.sorted :=
  ext_entries (sortedEntries_eq_of_get?_eq h)

end Sorted

end Dict

end Junjo
