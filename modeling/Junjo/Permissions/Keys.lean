import Junjo.Core.Text
import Junjo.Core.Dict

/-!
# Permission keys

Keys are opaque in `exact` mode. In `nodes` mode they are dot-separated, compared after the ASCII
fold, and a final `*` segment stands for one or more further segments. `candidateKeys` lists the
stored keys that could decide a check, most specific first.
-/

namespace Junjo

inductive PermissionMode where
  | exact
  | nodes
deriving DecidableEq

/-- `*` as a key. -/
def wildcard : Text := [star]

def normalizePermissionKey (mode : PermissionMode) (key : Text) : Text :=
  match mode with
  | .nodes => asciiLower key
  | .exact => key

def isPrintableAscii (c : CodeUnit) : Bool := 0x21 ≤ c.val && c.val ≤ 0x7e

/-- The reason a key is refused in the mode, if it is. -/
def validatePermissionKey (mode : PermissionMode) (key : Text) : Option String :=
  match mode with
  | .exact => none
  | .nodes =>
    if key = [] || !key.all isPrintableAscii then
      some "must be printable ASCII with no whitespace"
    else if key.head? = some 45 then
      some "must not start with '-'; set the entry's value to deny instead"
    else if key = wildcard then none
    else
      let segments := key.splitOn dot
      if segments.any List.isEmpty then some "must not contain an empty segment"
      else if segments.zipIdx.any fun (segment, i) =>
          segment.contains star && (segment ≠ wildcard || i ≠ segments.length - 1) then
        some "'*' is only allowed as the whole final segment or as the whole key"
      else none

/-- The first `i` segments with the wildcard appended. -/
def wildcardCut (segments : List Text) (i : ℕ) : Text :=
  [dot].intercalate (segments.take i) ++ [dot] ++ wildcard

/-- Keys whose entries could decide a check for `permission`, most specific first. The index of
a key is its specificity rank. -/
def candidateKeys (mode : PermissionMode) (permission : Text) : List Text :=
  let key := normalizePermissionKey mode permission
  match mode with
  | .exact => [key]
  | .nodes =>
    if key = wildcard then [key]
    else
      let segments := key.splitOn dot
      let cuts := (List.range (segments.length - 1)).reverse.map fun i =>
        wildcardCut segments (i + 1)
      (key :: cuts ++ [wildcard]).eraseDups

/-- The specificity rank of every candidate. -/
def rankOf (candidates : List Text) : Dict Text ℕ := Dict.ofList candidates.zipIdx

/-! ### Normalization -/

@[simp] lemma normalizePermissionKey_idem (mode : PermissionMode) (key : Text) :
    normalizePermissionKey mode (normalizePermissionKey mode key)
      = normalizePermissionKey mode key := by
  cases mode <;> simp [normalizePermissionKey]

/-! ### Candidates -/

@[simp] lemma candidateKeys_exact (permission : Text) :
    candidateKeys .exact permission = [permission] := rfl

lemma nodup_candidateKeys (mode : PermissionMode) (permission : Text) :
    (candidateKeys mode permission).Nodup := by
  cases mode with
  | exact => simp
  | nodes =>
    unfold candidateKeys
    dsimp only
    split_ifs
    · simp
    · exact nodup_eraseDups _

/-- The normalized permission is the most specific candidate. -/
lemma candidateKeys_head (mode : PermissionMode) (permission : Text) :
    (candidateKeys mode permission)[0]? = some (normalizePermissionKey mode permission) := by
  cases mode with
  | exact => rfl
  | nodes =>
    unfold candidateKeys
    dsimp only
    split_ifs
    · rfl
    · rw [List.cons_append, List.eraseDups_cons]
      rfl

lemma star_mem_wildcardCut (segments : List Text) (i : ℕ) : star ∈ wildcardCut segments i := by
  simp [wildcardCut, wildcard]

/-- Every candidate but the permission itself is a wildcard key. -/
lemma eq_or_star_mem_of_mem_candidateKeys {mode : PermissionMode} {permission key : Text}
    (h : key ∈ candidateKeys mode permission) :
    key = normalizePermissionKey mode permission ∨ star ∈ key := by
  cases mode with
  | exact => exact Or.inl (by simpa [normalizePermissionKey] using h)
  | nodes =>
    unfold candidateKeys at h
    dsimp only at h
    split_ifs at h
    · exact Or.inl (by simpa using h)
    · simp only [List.mem_eraseDups, List.cons_append, List.mem_cons, List.mem_append,
        List.mem_map, List.not_mem_nil, or_false] at h
      rcases h with rfl | ⟨i, -, rfl⟩ | rfl
      · exact Or.inl rfl
      · exact Or.inr (star_mem_wildcardCut _ _)
      · exact Or.inr (by simp [wildcard])

/-- The rank of a key is its index among the candidates. -/
lemma get?_rankOf {candidates : List Text} (hnodup : candidates.Nodup) {key : Text} {i : ℕ} :
    (rankOf candidates).get? key = some i ↔ candidates[i]? = some key := by
  rw [rankOf, Dict.get?_ofList_eq_some_iff (by simpa using hnodup), List.mem_zipIdx_iff_getElem?]

/-- Two candidates with one rank are one key. -/
lemma rank_unique {candidates : List Text} (hnodup : candidates.Nodup) {key : Text} {i j : ℕ}
    (hi : candidates[i]? = some key) (hj : candidates[j]? = some key) : i = j := by
  rw [← get?_rankOf hnodup] at hi hj
  exact Option.some.inj (hi.symm.trans hj)

end Junjo
