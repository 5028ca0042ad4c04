import Junjo.Core.Dict
import Junjo.Core.Encode

/-!
# Declared formats of user ids

A game may declare a format for the ids of a namespace, the text before the first `:`. An id is
checked by code unit in the server and by character in the scan that a declaration makes of the
stored ids. A namespace is ASCII and a format admits ASCII only, so the two agree
(`isUserIdWellFormed_of_scanned`).
-/

namespace Junjo.Identities

inductive UserIdFormat where
  | uuid
deriving DecidableEq

/-! ### Namespaces -/

/-- `[a-z0-9_-]` -/
def isNamespaceUnit (c : CodeUnit) : Bool :=
  (97 ≤ c.val && c.val ≤ 122) || (48 ≤ c.val && c.val ≤ 57) || c.val = 95 || c.val = 45

/-- `USER_ID_NAMESPACE_PATTERN` -/
structure IsNamespace (s : Text) : Prop where
  nonempty : s ≠ []
  length : s.length ≤ 32
  units : ∀ c ∈ s, isNamespaceUnit c = true

/-- The formats of namespaces that a game's configuration may hold. -/
structure DeclaredFormats where
  formats : Dict Text UserIdFormat
  bounded : formats.size ≤ 16
  valid : ∀ ns ∈ formats.keys, IsNamespace ns

/-- No declared format. -/
def DeclaredFormats.none : DeclaredFormats where
  formats := Dict.empty
  bounded := by decide
  valid := fun _ h => absurd h List.not_mem_nil

/-- The text before the first `:`, unless there is none or it is empty. -/
def userIdNamespace (userId : Text) : Option Text :=
  let i := userId.idxOf colon
  if 0 < i ∧ i < userId.length then some (userId.take i) else none

/-! ### Patterns -/

/-- `[0-9a-f]` -/
def isLowerHex (n : ℕ) : Bool := (48 ≤ n && n ≤ 57) || (97 ≤ n && n ≤ 102)

/-- `-` -/
def isHyphen (n : ℕ) : Bool := n = 45

/-- Whether a whole string matches a pattern, given as a class for each place. -/
def matchesWhole : List (ℕ → Bool) → List ℕ → Bool
  | [], [] => true
  | p :: ps, n :: ns => p n && matchesWhole ps ns
  | _, _ => false

def formatPatterns : UserIdFormat → List (ℕ → Bool)
  | .uuid => List.replicate 8 isLowerHex ++ isHyphen :: List.replicate 4 isLowerHex ++
      isHyphen :: List.replicate 4 isLowerHex ++ isHyphen :: List.replicate 4 isLowerHex ++
      isHyphen :: List.replicate 12 isLowerHex

/-- The patterns as the scan of the stored ids spells them. -/
def formatSqlPatterns : UserIdFormat → List (ℕ → Bool)
  | .uuid => List.replicate 8 isLowerHex ++ isHyphen :: List.replicate 4 isLowerHex ++
      isHyphen :: List.replicate 4 isLowerHex ++ isHyphen :: List.replicate 4 isLowerHex ++
      isHyphen :: List.replicate 12 isLowerHex

def matchesUserIdFormat (format : UserIdFormat) (value : Text) : Bool :=
  matchesWhole (formatPatterns format) (value.map Fin.val)

/-- The id is outside every declared namespace, or matches the format its namespace declares. -/
def isUserIdWellFormed (declared : DeclaredFormats) (userId : Text) : Bool :=
  match userIdNamespace userId with
  | none => true
  | some ns =>
    match declared.formats.get? ns with
    | none => true
    | some format => matchesUserIdFormat format (userId.drop (ns.length + 1))

/-! ### The scan of stored ids -/

/-- The characters of a stored string: a pair of surrogates is one. -/
def characters : Text → List ℕ
  | [] => []
  | [c] => [c.val]
  | c :: d :: rest =>
    if (0xD800 ≤ c.val && c.val ≤ 0xDBFF) && (0xDC00 ≤ d.val && d.val ≤ 0xDFFF) then
      (0x10000 + (c.val - 0xD800) * 0x400 + (d.val - 0xDC00)) :: characters rest
    else c.val :: characters (d :: rest)

/-- The condition of the scan for one namespace: `starts_with`, and `substr` with `!~`. -/
def isConflict (ns : Text) (format : UserIdFormat) (userId : Text) : Bool :=
  let start := ns ++ [colon]
  (start.map Fin.val).isPrefixOf (characters userId) &&
    !matchesWhole (formatSqlPatterns format) ((characters userId).drop start.length)

/-! ### Characters and code units -/

lemma characters_cons {c : CodeUnit} (h : c.val < 0xD800) (s : Text) :
    characters (c :: s) = c.val :: characters s := by
  cases s with
  | nil => rfl
  | cons d rest =>
    have hlow : (decide (0xD800 ≤ c.val)) = false := decide_eq_false (by omega)
    simp [characters, hlow]

lemma characters_append {s : Text} (h : ∀ c ∈ s, c.val < 0xD800) (t : Text) :
    characters (s ++ t) = s.map Fin.val ++ characters t := by
  induction s with
  | nil => rfl
  | cons c s ih =>
    rw [List.cons_append, characters_cons (h c List.mem_cons_self),
      ih fun d hd => h d (List.mem_cons_of_mem _ hd), List.map_cons, List.cons_append]

/-- A string of characters below the surrogates is its code units. -/
lemma characters_eq_map (s : Text) (h : ∀ n ∈ characters s, n < 0xD800) :
    characters s = s.map Fin.val := by
  induction s using characters.induct with
  | case1 => rfl
  | case2 c => rfl
  | case3 c d rest hpair ih =>
    rw [characters, if_pos hpair] at h
    have := h _ List.mem_cons_self
    omega
  | case4 c d rest hpair ih =>
    rw [characters, if_neg hpair] at h ⊢
    rw [ih fun n hn => h n (List.mem_cons_of_mem _ hn)]
    rfl

lemma isNamespaceUnit_lt {c : CodeUnit} (h : isNamespaceUnit c = true) : c.val < 0xD800 := by
  simp only [isNamespaceUnit, Bool.or_eq_true, Bool.and_eq_true, decide_eq_true_eq] at h
  omega

/-! ### What patterns admit -/

/-- What matches is, place by place, in some class of the pattern. -/
lemma exists_of_matchesWhole {ps : List (ℕ → Bool)} {s : List ℕ} (h : matchesWhole ps s = true) :
    ∀ n ∈ s, ∃ p ∈ ps, p n = true := by
  induction ps generalizing s with
  | nil =>
    cases s with
    | nil => simp
    | cons n s => cases h
  | cons p ps ih =>
    cases s with
    | nil => simp
    | cons n s =>
      rw [matchesWhole, Bool.and_eq_true] at h
      intro m hm
      rcases List.mem_cons.mp hm with rfl | hm
      · exact ⟨p, List.mem_cons_self, h.1⟩
      · obtain ⟨q, hq, hqm⟩ := ih h.2 m hm
        exact ⟨q, List.mem_cons_of_mem _ hq, hqm⟩

/-- The formats admit hexadecimal digits and hyphens only. -/
lemma lt_of_mem_formatSqlPatterns {format : UserIdFormat} {p : ℕ → Bool} {n : ℕ}
    (hp : p ∈ formatSqlPatterns format) (hn : p n = true) : n < 128 := by
  cases format with
  | uuid =>
    have hclass : p = isLowerHex ∨ p = isHyphen := by
      simp only [formatSqlPatterns, List.mem_append, List.mem_cons, List.mem_replicate] at hp
      tauto
    rcases hclass with rfl | rfl
    · simp only [isLowerHex, Bool.or_eq_true, Bool.and_eq_true, decide_eq_true_eq] at hn
      omega
    · simp only [isHyphen, decide_eq_true_eq] at hn
      omega

/-- What the scan finds to match, the server does. -/
lemma matchesUserIdFormat_of_sql {format : UserIdFormat} {value : Text}
    (h : matchesWhole (formatSqlPatterns format) (characters value) = true) :
    matchesUserIdFormat format value = true := by
  have hunits : characters value = value.map Fin.val := by
    apply characters_eq_map
    intro n hn
    obtain ⟨p, hp, hpn⟩ := exists_of_matchesWhole h n hn
    have := lt_of_mem_formatSqlPatterns hp hpn
    omega
  rw [hunits] at h
  cases format with
  | uuid => exact h

/-! ### The scan -/

/-- An id in a namespace is the namespace, `:` and the rest. -/
lemma eq_of_userIdNamespace {userId ns : Text} (h : userIdNamespace userId = some ns) :
    userId = (ns ++ [colon]) ++ userId.drop (ns.length + 1) := by
  rw [userIdNamespace] at h
  split_ifs at h with hi
  obtain rfl := Option.some.inj h
  have hlt := hi.2
  have hlength : (userId.take (userId.idxOf colon)).length = userId.idxOf colon := by
    rw [List.length_take]
    omega
  have hcolon : userId[userId.idxOf colon] = colon := List.getElem_idxOf hlt
  rw [hlength, List.append_assoc, List.singleton_append]
  conv_lhs => rw [← List.take_append_drop (userId.idxOf colon) userId]
  rw [List.drop_eq_getElem_cons hlt, hcolon]

/-- An id that was well formed, and that the scan of each namespace whose format is new does not
find, is well formed. -/
theorem isUserIdWellFormed_of_scanned {previous declared : DeclaredFormats} {userId : Text}
    (hprevious : isUserIdWellFormed previous userId = true)
    (hscan : ∀ ns format, declared.formats.get? ns = some format →
      previous.formats.get? ns = some format ∨ isConflict ns format userId = false) :
    isUserIdWellFormed declared userId = true := by
  rw [isUserIdWellFormed] at hprevious ⊢
  cases hns : userIdNamespace userId with
  | none => rfl
  | some ns =>
    rw [hns] at hprevious
    dsimp only at hprevious ⊢
    cases hformat : declared.formats.get? ns with
    | none => rfl
    | some format =>
      dsimp only
      rcases hscan ns format hformat with hsame | hconflict
      · rw [hsame] at hprevious
        exact hprevious
      · have hvalid := declared.valid ns (Dict.mem_keys_iff.mpr ⟨format, hformat⟩)
        have hstart : ∀ c ∈ ns ++ [colon], c.val < 0xD800 := by
          intro c hc
          rcases List.mem_append.mp hc with hc | hc
          · exact isNamespaceUnit_lt (hvalid.units c hc)
          · obtain rfl := List.mem_singleton.mp hc
            decide
        have hcharacters := characters_append hstart (userId.drop (ns.length + 1))
        rw [← eq_of_userIdNamespace hns] at hcharacters
        rw [isConflict, hcharacters, List.isPrefixOf_iff_prefix.mpr (List.prefix_append _ _), Bool.true_and,
          Bool.not_eq_false', List.drop_left' (List.length_map _)] at hconflict
        exact matchesUserIdFormat_of_sql hconflict

end Junjo.Identities
