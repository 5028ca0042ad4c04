import Junjo.Sdk.Candidates

/-!
# The keys that match a permission

A stored key matches a permission when it is the permission, `*`, or a wildcard `q.*` whose `q.` the
permission starts with. The candidate keys of a permission are the keys that match it, the permission
first and the wildcards from the longest to `*`.
-/

namespace Junjo

/-- Whether an entry of a stored key applies to a folded permission. -/
def MatchesKey (key permission : Text) : Prop :=
  key = permission ∨ key = wildcard ∨
    ∃ q, key = q ++ [dot] ++ wildcard ∧ q ++ [dot] <+: permission

/-- The permission itself is the most specific key, and a longer wildcard is more specific than a
shorter one. -/
def MoreSpecific (permission key key' : Text) : Prop :=
  key' ≠ permission ∧ (key = permission ∨ key'.length < key.length)

lemma MoreSpecific.asymm {permission key key' : Text} (h : MoreSpecific permission key key') :
    ¬ MoreSpecific permission key' key := by
  rintro ⟨hkey, hkey' | hlength⟩
  · exact h.1 hkey'
  · rcases h.2 with hperm | hlength'
    · exact hkey hperm
    · omega

lemma MoreSpecific.ne {permission key key' : Text} (h : MoreSpecific permission key key') :
    key ≠ key' := by
  rintro rfl
  exact h.asymm h

namespace Sdk

/-- The cuts of a key are the wildcards that it starts with the beginning of. -/
lemma mem_cutsDown_iff {key cut : Text} :
    cut ∈ cutsDown key key.length ↔ ∃ q, cut = q ++ [dot] ++ wildcard ∧ q ++ [dot] <+: key := by
  constructor
  · intro h
    obtain ⟨m, hm, hdot, rfl⟩ := exists_of_mem_cutsDown h
    have htake : key.take (m + 1) = key.take m ++ [dot] := by rw [List.take_add_one, hdot]; rfl
    exact ⟨key.take m, by rw [htake], by rw [← htake]; exact List.take_prefix _ _⟩
  · rintro ⟨q, rfl, rest, rfl⟩
    have hdot : (q ++ [dot] ++ rest)[q.length]? = some dot := by simp
    have htake : (q ++ [dot] ++ rest).take (q.length + 1) = q ++ [dot] := by
      rw [List.take_left' (by simp)]
    have hmem := mem_cutsDown (List.getElem?_eq_some_iff.mp hdot).1 hdot
    rwa [htake] at hmem

lemma one_lt_length_cut {key cut : Text} {i : ℕ} (h : cut ∈ cutsDown key i) : 1 < cut.length := by
  obtain ⟨m, -, hdot, rfl⟩ := exists_of_mem_cutsDown h
  rw [length_cut hdot]
  omega

/-- The cuts get shorter from the right. -/
lemma pairwise_cutsDown (key : Text) (i : ℕ) :
    (cutsDown key i).Pairwise fun cut cut' => cut'.length < cut.length := by
  induction i with
  | zero => exact List.Pairwise.nil
  | succ i ih =>
    rw [cutsDown]
    split_ifs with hdot
    · refine List.Pairwise.cons (fun cut hcut => ?_) ih
      obtain ⟨m, hm, hdot', rfl⟩ := exists_of_mem_cutsDown hcut
      rw [length_cut hdot, length_cut hdot']
      omega
    · exact ih

end Sdk

section Candidates

open Sdk (cutsDown candidateKeys_nodes)

variable (permission : Text)

lemma mem_candidateKeys_nodes {key : Text} :
    key ∈ candidateKeys .nodes permission ↔ MatchesKey key (asciiLower permission) := by
  by_cases hwild : asciiLower permission = wildcard
  · have hcandidates : candidateKeys .nodes permission = [wildcard] := by
      simp [candidateKeys, normalizePermissionKey, hwild]
    rw [hcandidates, MatchesKey, hwild, List.mem_singleton]
    refine ⟨Or.inl, ?_⟩
    rintro (h | h | ⟨q, -, hq⟩)
    · exact h
    · exact h
    · have hmem : dot ∈ wildcard := hq.subset (by simp)
      exact absurd hmem (by decide)
  · rw [candidateKeys_nodes hwild rfl, MatchesKey, ← Sdk.mem_cutsDown_iff]
    simp only [List.mem_cons, List.mem_append, List.mem_filter, List.not_mem_nil, or_false,
      decide_eq_true_eq]
    constructor
    · rintro (h | ⟨h, -⟩ | h)
      · exact Or.inl h
      · exact Or.inr (Or.inr h)
      · exact Or.inr (Or.inl h)
    · rintro (h | h | h)
      · exact Or.inl h
      · exact Or.inr (Or.inr h)
      · by_cases hkey : key = asciiLower permission
        · exact Or.inl hkey
        · exact Or.inr (Or.inl ⟨h, hkey⟩)

lemma pairwise_candidateKeys :
    (candidateKeys .nodes permission).Pairwise (MoreSpecific (asciiLower permission)) := by
  by_cases hwild : asciiLower permission = wildcard
  · simp [candidateKeys, normalizePermissionKey, hwild]
  · rw [candidateKeys_nodes hwild rfl]
    have hcuts : ((cutsDown (asciiLower permission) (asciiLower permission).length).filter
        (· ≠ asciiLower permission)).Pairwise (MoreSpecific (asciiLower permission)) := by
      refine ((Sdk.pairwise_cutsDown _ _).filter _).imp_of_mem fun {_ cut'} _ hcut' hlt => ?_
      exact ⟨of_decide_eq_true (List.mem_filter.mp hcut').2, Or.inr hlt⟩
    refine List.Pairwise.cons (fun key hkey => ⟨?_, Or.inl rfl⟩) (List.pairwise_append.mpr
      ⟨hcuts, List.pairwise_singleton _ _, fun cut hcut key hkey => ?_⟩)
    · rcases List.mem_append.mp hkey with h | h
      · exact of_decide_eq_true (List.mem_filter.mp h).2
      · rw [List.mem_singleton.mp h]
        exact Ne.symm hwild
    · rw [List.mem_singleton.mp hkey]
      exact ⟨Ne.symm hwild, Or.inr (Sdk.one_lt_length_cut (List.mem_filter.mp hcut).1)⟩

lemma getLast?_candidateKeys : (candidateKeys .nodes permission).getLast? = some wildcard := by
  by_cases hwild : asciiLower permission = wildcard
  · simp [candidateKeys, normalizePermissionKey, hwild]
  · rw [candidateKeys_nodes hwild rfl, ← List.cons_append, List.getLast?_concat]

/-- The order of the ranks is the order of specificity. -/
lemma rank_lt_iff {key key' : Text} {i j : ℕ}
    (hi : (rankOf (candidateKeys .nodes permission)).get? key = some i)
    (hj : (rankOf (candidateKeys .nodes permission)).get? key' = some j) :
    i < j ↔ MoreSpecific (asciiLower permission) key key' := by
  have hnodup := nodup_candidateKeys .nodes permission
  rw [get?_rankOf hnodup] at hi hj
  obtain ⟨hi', rfl⟩ := List.getElem?_eq_some_iff.mp hi
  obtain ⟨hj', rfl⟩ := List.getElem?_eq_some_iff.mp hj
  have hpairwise := List.pairwise_iff_getElem.mp (pairwise_candidateKeys permission)
  constructor
  · exact hpairwise i j hi' hj'
  · intro h
    rcases Nat.lt_trichotomy i j with hlt | heq | hgt
    · exact hlt
    · subst heq
      exact absurd rfl h.ne
    · exact absurd h (hpairwise j i hj' hi' hgt).asymm

/-- Two candidates share a rank only when they are one key. -/
lemma rank_injective {key key' : Text} {i : ℕ}
    (hi : (rankOf (candidateKeys .nodes permission)).get? key = some i)
    (hj : (rankOf (candidateKeys .nodes permission)).get? key' = some i) : key = key' := by
  rw [get?_rankOf (nodup_candidateKeys .nodes permission)] at hi hj
  exact Option.some.inj (hi.symm.trans hj)

/-- In `nodes` mode the candidates of a permission are the stored keys that match it, each once and
from the most specific to `*`; their ranks are in that order and differ. The SDK lists the same
candidates. -/
theorem candidateKeys_correct :
    (∀ stored, validatePermissionKey .nodes stored = none →
      (normalizePermissionKey .nodes stored ∈ candidateKeys .nodes permission ↔
        MatchesKey (normalizePermissionKey .nodes stored) (asciiLower permission))) ∧
    (candidateKeys .nodes permission).Nodup ∧
    (candidateKeys .nodes permission).Pairwise (MoreSpecific (asciiLower permission)) ∧
    (candidateKeys .nodes permission).getLast? = some wildcard ∧
    (∀ key key' i j, (rankOf (candidateKeys .nodes permission)).get? key = some i →
      (rankOf (candidateKeys .nodes permission)).get? key' = some j →
      (i < j ↔ MoreSpecific (asciiLower permission) key key') ∧ (i = j → key = key')) ∧
    Sdk.candidates .nodes permission = candidateKeys .nodes permission := by
  refine ⟨fun stored _ => mem_candidateKeys_nodes permission, nodup_candidateKeys _ _,
    pairwise_candidateKeys permission, getLast?_candidateKeys permission,
    fun key key' i j hi hj => ⟨rank_lt_iff permission hi hj, ?_⟩, Sdk.candidates_eq _ _⟩
  rintro rfl
  exact rank_injective permission hi hj

end Candidates

end Junjo
