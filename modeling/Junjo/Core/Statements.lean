import Junjo.Core.Dict

/-!
# Statements on a table

A table is a dictionary from primary keys to rows. `findMany` reads the rows that meet a condition,
`updateMany` rewrites them and `deleteMany` removes them. Neither change touches a row that does not
meet its condition.
-/

namespace Junjo

namespace Dict

variable {κ ν : Type*}

/-- `SELECT ... WHERE p` -/
def findMany (d : Dict κ ν) (p : κ → ν → Bool) : List ν :=
  (d.entries.filter fun e => p e.1 e.2).map Prod.snd

/-- `UPDATE ... SET f WHERE p` -/
def updateMany (d : Dict κ ν) (p : κ → ν → Bool) (f : ν → ν) : Dict κ ν :=
  d.mapEntries fun k v => if p k v then f v else v

/-- `DELETE ... WHERE p` -/
def deleteMany (d : Dict κ ν) (p : κ → ν → Bool) : Dict κ ν := d.filter fun e => !p e.1 e.2

variable [DecidableEq κ] {d : Dict κ ν} {p : κ → ν → Bool} {k : κ} {v : ν}

lemma mem_findMany : v ∈ d.findMany p ↔ ∃ k, d.get? k = some v ∧ p k v = true := by
  rw [findMany, List.mem_map]
  constructor
  · rintro ⟨⟨k, v'⟩, he, rfl⟩
    obtain ⟨hentry, hp⟩ := List.mem_filter.mp he
    exact ⟨k, get?_eq_some_iff.mpr hentry, hp⟩
  · rintro ⟨k, hget, hp⟩
    exact ⟨(k, v), List.mem_filter.mpr ⟨get?_eq_some_iff.mp hget, hp⟩, rfl⟩

/-- No row is found when none meets the condition. -/
lemma findMany_eq_nil_iff : d.findMany p = [] ↔ ∀ k v, d.get? k = some v → p k v = false := by
  rw [List.eq_nil_iff_forall_not_mem]
  constructor
  · intro h k v hget
    by_contra hp
    exact h v (mem_findMany.mpr ⟨k, hget, Bool.not_eq_false _ ▸ hp⟩)
  · intro h v hmem
    obtain ⟨k, hget, hp⟩ := mem_findMany.mp hmem
    exact absurd hp (by simp [h k v hget])

/-- The row found by a condition that no two rows meet. -/
lemma find?_entries_eq_some_iff {q : ν → Bool}
    (hunique : ∀ e ∈ d.entries, ∀ e' ∈ d.entries, q e.2 = true → q e'.2 = true → e = e') :
    d.entries.find? (fun e => q e.2) = some (k, v) ↔ d.get? k = some v ∧ q v = true := by
  rw [get?_eq_some_iff]
  constructor
  · intro h
    have hq := List.find?_some h
    exact ⟨List.mem_of_find?_eq_some h, hq⟩
  · rintro ⟨hmem, hq⟩
    cases hfind : d.entries.find? (fun e => q e.2) with
    | none => exact absurd hq (List.find?_eq_none.mp hfind (k, v) hmem)
    | some e =>
      have hfound := List.find?_some hfind
      rw [hunique e (List.mem_of_find?_eq_some hfind) (k, v) hmem hfound hq]

lemma get?_updateMany (d : Dict κ ν) (p : κ → ν → Bool) (f : ν → ν) (k : κ) :
    (d.updateMany p f).get? k = (d.get? k).map fun v => if p k v then f v else v :=
  get?_mapEntries _ d k

lemma get?_deleteMany_eq_some_iff :
    (d.deleteMany p).get? k = some v ↔ d.get? k = some v ∧ p k v = false := by
  rw [get?_eq_some_iff, get?_eq_some_iff, deleteMany, entries_filter, List.mem_filter]
  simp

/-- A row that does not meet the condition stays. -/
lemma get?_deleteMany_of_get? (hget : d.get? k = some v) (hp : p k v = false) :
    (d.deleteMany p).get? k = some v :=
  get?_deleteMany_eq_some_iff.mpr ⟨hget, hp⟩

lemma get?_deleteMany_of_true (hget : d.get? k = some v) (hp : p k v = true) :
    (d.deleteMany p).get? k = none := by
  rw [Option.eq_none_iff_forall_ne_some]
  intro v' h
  obtain ⟨hget', hp'⟩ := get?_deleteMany_eq_some_iff.mp h
  obtain rfl : v = v' := Option.some.inj (hget.symm.trans hget')
  rw [hp] at hp'
  cases hp'

/-- A row found by key does not meet a condition that no row meets. -/
lemma any_get?_eq_false {q : ν → Bool} (h : ∀ k v, d.get? k = some v → q v = false) :
    (d.get? k).any q = false := by
  cases hget : d.get? k with
  | none => rfl
  | some v => exact h k v hget

/-- A condition that no row meets deletes nothing. -/
lemma deleteMany_eq_self (h : ∀ k v, d.get? k = some v → p k v = false) : d.deleteMany p = d := by
  apply ext_entries
  rw [deleteMany, entries_filter, List.filter_eq_self]
  intro e he
  simp [h e.1 e.2 (get?_eq_some_iff.mpr he)]

/-- An update whose condition no row meets changes nothing. -/
lemma updateMany_eq_self {f : ν → ν} (h : ∀ k v, d.get? k = some v → p k v = false) :
    d.updateMany p f = d := by
  apply ext_entries
  have hsame : ∀ e ∈ d.entries, (e.1, if p e.1 e.2 then f e.2 else e.2) = e := by
    intro e he
    rw [if_neg (by simp [h e.1 e.2 (get?_eq_some_iff.mpr he)])]
  exact (List.map_congr_left hsame).trans (List.map_id _)

/-- A row after an update, with the row it was. -/
lemma get?_updateMany_eq_some_iff {f : ν → ν} {v' : ν} :
    (d.updateMany p f).get? k = some v' ↔
      ∃ v, d.get? k = some v ∧ (if p k v then f v else v) = v' := by
  rw [get?_updateMany, Option.map_eq_some_iff]

/-! ### One column of a table -/

section Column

variable {π : Type*} {f : ν → ν} {x y : π}

/-- An update of the rows that hold `x` in a column, which sets the column to `y`. -/
lemma column_updateMany [DecidableEq π] (column : ν → π) (hf : ∀ v, column (f v) = y)
    (d : Dict κ ν) (k : κ) :
    ((d.updateMany (fun _ v => column v = x) f).get? k).map column =
      if (d.get? k).map column = some x then some y else (d.get? k).map column := by
  rw [get?_updateMany]
  cases d.get? k with
  | none => rfl
  | some v =>
    by_cases hv : column v = x
    · simp [hv, hf]
    · simp [hv]

/-- The same for a column that may be empty. -/
lemma column?_updateMany [DecidableEq π] (column : ν → Option π)
    (hf : ∀ v, column (f v) = some y) (d : Dict κ ν) (k : κ) :
    ((d.updateMany (fun _ v => column v = some x) f).get? k).bind column =
      if (d.get? k).bind column = some x then some y else (d.get? k).bind column := by
  rw [get?_updateMany]
  cases d.get? k with
  | none => rfl
  | some v =>
    by_cases hv : column v = some x
    · simp [hv, hf]
    · simp [hv]

/-- An update that leaves a column alone. -/
lemma column_updateMany_of_eq {α : Type*} (column : ν → α) (hf : ∀ v, column (f v) = column v)
    (d : Dict κ ν) (k : κ) : ((d.updateMany p f).get? k).map column = (d.get? k).map column := by
  rw [get?_updateMany, Option.map_map]
  congr 1
  funext v
  rw [Function.comp_apply, apply_ite column, hf, ite_self]

/-- The same for a column that may be empty. -/
lemma column?_updateMany_of_eq (column : ν → Option π) (hf : ∀ v, column (f v) = column v)
    (d : Dict κ ν) (k : κ) : ((d.updateMany p f).get? k).bind column = (d.get? k).bind column := by
  rw [get?_updateMany]
  cases d.get? k with
  | none => rfl
  | some v =>
    rw [Option.map_some, Option.bind_some, Option.bind_some, apply_ite column, hf, ite_self]

end Column

end Dict

end Junjo
