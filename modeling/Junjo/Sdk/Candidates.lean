import Junjo.Sdk.Resolver

/-!
# The SDK's candidate keys

The SDK cuts a key at its dots by index, the server joins its segments. Both list the same
candidates in the same order, also when the key itself is a wildcard key.
-/

namespace Junjo.Sdk

/-- The cuts at the dots of a key, from the left. -/
private def cutsOf : Text → List Text
  | [] => []
  | c :: key =>
    if c = dot then (c :: wildcard) :: (cutsOf key).map (List.cons c)
    else (cutsOf key).map (List.cons c)

private lemma wildcardCut_cons_cons (c : CodeUnit) (segment : Text) (segments : List Text)
    (i : ℕ) :
    wildcardCut ((c :: segment) :: segments) (i + 1)
      = c :: wildcardCut (segment :: segments) (i + 1) := by
  simp [wildcardCut, intercalate_cons]

private lemma wildcardCut_nil_cons (segment : Text) (segments : List Text) (i : ℕ) :
    wildcardCut ([] :: segment :: segments) (i + 2)
      = dot :: wildcardCut (segment :: segments) (i + 1) := by
  simp [wildcardCut, intercalate_cons]

/-- The server's cuts are the cuts at the dots. -/
private lemma wildcardCuts_eq_cutsOf (key : Text) :
    (List.range ((key.splitOn dot).length - 1)).map
      (fun i => wildcardCut (key.splitOn dot) (i + 1)) = cutsOf key := by
  induction key with
  | nil => rfl
  | cons c key ih =>
    obtain ⟨segment, segments, hsegments⟩ := List.exists_cons_of_ne_nil
      (List.splitOn_ne_nil dot key)
    rw [hsegments] at ih
    rw [List.splitOn_cons_eq_if_modifyHead, hsegments, cutsOf, ← ih]
    by_cases hc : c = dot
    · subst hc
      simp only [beq_self_eq_true, if_true, List.length_cons, Nat.add_sub_cancel,
        List.range_succ_eq_map, List.map_cons, List.map_map, Function.comp_def]
      refine congrArg₂ List.cons (by simp [wildcardCut, List.intercalate]) ?_
      exact List.map_congr_left fun i _ => wildcardCut_nil_cons segment segments i
    · have hbeq : (c == dot) = false := by simpa using hc
      simp only [hbeq, Bool.false_eq_true, if_false, hc, List.modifyHead_cons, List.length_cons,
        Nat.add_sub_cancel, List.map_map, Function.comp_def]
      exact List.map_congr_left fun i _ => wildcardCut_cons_cons c segment segments i

/-- The cuts at the dots below `i`, from the right. -/
def cutsDown (key : Text) : ℕ → List Text
  | 0 => []
  | i + 1 =>
    if key[i]? = some dot then (key.take (i + 1) ++ wildcard) :: cutsDown key i
    else cutsDown key i

private lemma cutsDown_cons (c : CodeUnit) (key : Text) (i : ℕ) :
    cutsDown (c :: key) (i + 1)
      = (cutsDown key i).map (List.cons c) ++ if c = dot then [c :: wildcard] else [] := by
  induction i with
  | zero =>
    rw [cutsDown]
    by_cases hc : c = dot <;> simp [hc, cutsDown]
  | succ i ih =>
    rw [cutsDown, ih, cutsDown]
    by_cases hdot : key[i]? = some dot <;> simp [hdot]

private lemma cutsDown_length (key : Text) : cutsDown key key.length = (cutsOf key).reverse := by
  induction key with
  | nil => rfl
  | cons c key ih =>
    rw [List.length_cons, cutsDown_cons, ih, cutsOf]
    by_cases hc : c = dot <;> simp [hc]

lemma exists_of_mem_cutsDown {key cut : Text} {i : ℕ} (h : cut ∈ cutsDown key i) :
    ∃ m < i, key[m]? = some dot ∧ cut = key.take (m + 1) ++ wildcard := by
  induction i with
  | zero => cases h
  | succ i ih =>
    have hbelow : cut ∈ cutsDown key i →
        ∃ m < i + 1, key[m]? = some dot ∧ cut = key.take (m + 1) ++ wildcard := by
      intro h
      obtain ⟨m, hm, hcut⟩ := ih h
      exact ⟨m, hm.trans (Nat.lt_succ_self i), hcut⟩
    rw [cutsDown] at h
    split_ifs at h with hdot
    · rcases List.mem_cons.mp h with rfl | h
      · exact ⟨i, Nat.lt_succ_self i, hdot, rfl⟩
      · exact hbelow h
    · exact hbelow h

lemma mem_cutsDown {key : Text} {i m : ℕ} (hm : m < i) (hdot : key[m]? = some dot) :
    key.take (m + 1) ++ wildcard ∈ cutsDown key i := by
  induction i with
  | zero => omega
  | succ i ih =>
    rw [cutsDown]
    by_cases hmi : m = i
    · subst hmi
      rw [if_pos hdot]
      exact List.mem_cons_self
    · have hmem := ih (by omega)
      split_ifs
      · exact List.mem_cons_of_mem _ hmem
      · exact hmem

lemma length_cut {key : Text} {m : ℕ} (h : key[m]? = some dot) :
    (key.take (m + 1) ++ wildcard).length = m + 2 := by
  have hm : m < key.length := (List.getElem?_eq_some_iff.mp h).1
  simp only [wildcard, List.length_append, List.length_take, List.length_singleton]
  omega

lemma wildcard_not_mem_cutsDown (key : Text) (i : ℕ) : wildcard ∉ cutsDown key i := by
  intro h
  obtain ⟨m, -, hdot, hcut⟩ := exists_of_mem_cutsDown h
  have hlen := length_cut hdot
  rw [← hcut] at hlen
  simp [wildcard] at hlen

private lemma nodup_cutsDown (key : Text) (i : ℕ) : (cutsDown key i).Nodup := by
  induction i with
  | zero => exact List.nodup_nil
  | succ i ih =>
    rw [cutsDown]
    split_ifs with hdot
    · refine List.nodup_cons.mpr ⟨fun hmem => ?_, ih⟩
      obtain ⟨m, hm, hdot', hcut⟩ := exists_of_mem_cutsDown hmem
      have hlen := congrArg List.length hcut
      rw [length_cut hdot, length_cut hdot'] at hlen
      omega
    · exact ih

/-- Only the cut at the last dot can repeat the key. -/
private lemma ne_key_of_mem_cutsDown {key cut : Text} {i : ℕ} (hdot : key[i]? = some dot)
    (h : cut ∈ cutsDown key i) : cut ≠ key := by
  rintro rfl
  obtain ⟨m, hm, hdot', hcut⟩ := exists_of_mem_cutsDown h
  -- the key would end in the wildcard right after its dot at `m`
  have hlen : (cut.take (m + 1)).length = m + 1 := by
    have := (List.getElem?_eq_some_iff.mp hdot').1
    rw [List.length_take]
    omega
  rw [hcut, List.getElem?_append_right (by omega), hlen] at hdot
  have hlast : i - (m + 1) = 0 := by
    have := (List.getElem?_eq_some_iff.mp hdot).1
    simp only [wildcard, List.length_singleton] at this
    omega
  rw [hlast] at hdot
  exact absurd hdot (by decide)

private lemma cutsBelow_eq_append (key : Text) (i : ℕ) {out : List Text} (hout : 1 < out.length) :
    cutsBelow key i out = out ++ cutsDown key i := by
  induction i generalizing out with
  | zero => simp [cutsBelow, cutsDown]
  | succ i ih =>
    rw [cutsBelow, cutsDown]
    dsimp only
    split_ifs with hdot hone
    · have : out.length ≠ 1 := hout.ne'
      simp [this] at hone
    · rw [ih (by rw [List.length_append]; omega)]
      simp
    · exact ih hout

private lemma cutsBelow_key (key : Text) (i : ℕ) :
    cutsBelow key i [key] = key :: (cutsDown key i).filter (· ≠ key) := by
  induction i with
  | zero => rfl
  | succ i ih =>
    rw [cutsBelow, cutsDown]
    dsimp only
    split_ifs with hdot hcut
    · have hcut' : key.take (i + 1) ++ wildcard = key := by simpa using hcut
      rw [List.filter_cons_of_neg (by simpa using hcut'), ih]
    · have hcut' : key.take (i + 1) ++ wildcard ≠ key := by simpa using hcut
      have hfilter : (cutsDown key i).filter (· ≠ key) = cutsDown key i := by
        rw [List.filter_eq_self]
        intro cut hmem
        simpa using ne_key_of_mem_cutsDown hdot hmem
      rw [cutsBelow_eq_append key i (by simp), List.filter_cons_of_pos (by simpa using hcut'),
        hfilter]
      rfl
    · exact ih

/-- The server's candidates: the key, its cuts from the right other than itself, and `*`. -/
lemma candidateKeys_nodes {key : Text} (hkey : key ≠ wildcard) {permission : Text}
    (h : normalizePermissionKey .nodes permission = key) :
    candidateKeys .nodes permission
      = key :: ((cutsDown key key.length).filter (· ≠ key) ++ [wildcard]) := by
  subst h
  unfold candidateKeys
  generalize normalizePermissionKey .nodes permission = key at hkey ⊢
  have hcuts : (List.range ((key.splitOn dot).length - 1)).reverse.map
      (fun i => wildcardCut (key.splitOn dot) (i + 1)) = cutsDown key key.length := by
    rw [List.map_reverse, wildcardCuts_eq_cutsOf, cutsDown_length]
  have hfilter : ((cutsDown key key.length ++ [wildcard]).filter fun b => !b == key)
      = (cutsDown key key.length).filter (· ≠ key) ++ [wildcard] := by
    rw [List.filter_append]
    refine congrArg₂ _ (List.filter_congr fun b _ => ?_) (by simp [Ne.symm hkey])
    rw [beq_eq_decide, decide_not]
  have hnodup : ((cutsDown key key.length).filter (· ≠ key) ++ [wildcard]).Nodup := by
    refine List.nodup_append.mpr ⟨(nodup_cutsDown _ _).filter _, by simp, ?_⟩
    rintro a ha b hb rfl
    rw [List.mem_singleton.mp hb] at ha
    exact wildcard_not_mem_cutsDown _ _ (List.mem_filter.mp ha).1
  simp only [hkey, if_false]
  rw [hcuts, List.cons_append, List.eraseDups_cons, hfilter, eraseDups_of_nodup hnodup]

/-- The two ways to cut a key give the same candidates. -/
lemma candidates_eq (mode : PermissionMode) (permission : Text) :
    candidates mode permission = candidateKeys mode permission := by
  cases mode with
  | exact => rfl
  | nodes =>
    by_cases hkey : normalizePermissionKey .nodes permission = wildcard
    · simp [candidates, candidateKeys, hkey]
    · rw [candidateKeys_nodes hkey rfl, candidates]
      simp only [hkey, reduceCtorEq, decide_false, Bool.or_self, Bool.false_eq_true, if_false]
      rw [cutsBelow_key, List.cons_append]

end Junjo.Sdk
