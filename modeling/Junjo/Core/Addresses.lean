import Junjo.Core.Encode
import Junjo.Core.Json
import Junjo.Core.Lists

/-!
# The texts of internet addresses

An IPv4 address is written as a dotted quad. An IPv6 address is written as its pieces in
lower-case hexadecimal between colons, with the first longest run of two or more zero pieces
written as `::`.
-/

namespace Junjo

/-- `%` -/
def percent : CodeUnit := 37

structure Ipv4 where
  a : Fin 256
  b : Fin 256
  c : Fin 256
  d : Fin 256
deriving DecidableEq

/-- The eight pieces of an IPv6 address. -/
structure Ipv6 where
  pieces : List (Fin 65536)
  length_pieces : pieces.length = 8
deriving DecidableEq

lemma Ipv6.ext {p q : Ipv6} (h : p.pieces = q.pieces) : p = q := by
  cases p
  cases q
  cases h
  rfl

/-! ### Writing -/

def Ipv4.text (q : Ipv4) : Text :=
  [dot].intercalate [decimal q.a, decimal q.b, decimal q.c, decimal q.d]

/-- A piece without leading zeros. -/
def hexPiece (n : Fin 65536) : Text :=
  if n.val < 16 then [hexDigit n]
  else if n.val < 256 then [hexDigit (n / 16), hexDigit (n % 16)]
  else if n.val < 4096 then [hexDigit (n / 256), hexDigit (n / 16 % 16), hexDigit (n % 16)]
  else [hexDigit (n / 4096), hexDigit (n / 256 % 16), hexDigit (n / 16 % 16), hexDigit (n % 16)]

def joinPieces (pieces : List (Fin 65536)) : Text := [colon].intercalate (pieces.map hexPiece)

/-- How many zero pieces stand at the front. -/
def zeroRun (pieces : List (Fin 65536)) : ℕ := (pieces.takeWhile (· = 0)).length

/-- Where the first longest run of zero pieces starts and how long it is, with length 1 when no run
is longer. -/
def longestRun (pieces : List (Fin 65536)) : ℕ × ℕ :=
  (List.range pieces.length).foldl
    (fun best i => if best.2 < zeroRun (pieces.drop i) then (i, zeroRun (pieces.drop i)) else best)
    (0, 1)

def Ipv6.text (p : Ipv6) : Text :=
  let run := longestRun p.pieces
  if run.2 = 1 then joinPieces p.pieces
  else joinPieces (p.pieces.take run.1) ++ colon :: colon ::
    joinPieces (p.pieces.drop (run.1 + run.2))

/-! ### Reading digits -/

def isDigit (c : CodeUnit) : Bool := 48 ≤ c.val && c.val ≤ 57

def isHexUnit (c : CodeUnit) : Bool :=
  isDigit c || (97 ≤ c.val && c.val ≤ 102) || (65 ≤ c.val && c.val ≤ 70)

def digitValue (c : CodeUnit) : ℕ :=
  if c.val < 58 then c.val - 48 else if c.val < 71 then c.val - 55 else c.val - 87

/-- The number that digits stand for. -/
def readDigits (base : ℕ) (s : Text) : ℕ := s.foldl (fun n c => base * n + digitValue c) 0

/-- What a text up to the first `::` and after it, if it has one. -/
def cutDouble : Text → Option (Text × Text)
  | a :: b :: rest =>
    if a = colon ∧ b = colon then some ([], rest)
    else (cutDouble (b :: rest)).map fun p => (a :: p.1, p.2)
  | _ => none

/-! ### Digits that are written can be read -/

lemma decimal_byte (n : Fin 256) :
    (decimal n).all isDigit = true ∧ 1 ≤ (decimal n).length ∧ (decimal n).length ≤ 3 ∧
      ((decimal n).length = 1 ∨ (decimal n).head? ≠ some 48) ∧ readDigits 10 (decimal n) = n := by
  revert n
  decide +kernel

lemma dot_not_mem_decimal (n : Fin 256) : dot ∉ decimal n := by
  intro hmem
  have hdot := List.all_eq_true.mp (decimal_byte n).1 dot hmem
  simp [isDigit, dot] at hdot

lemma hexDigit_spec {n : ℕ} (hn : n < 16) :
    isHexUnit (hexDigit n) = true ∧ digitValue (hexDigit n) = n ∧ hexDigit n ≠ colon ∧
      hexDigit n ≠ dot ∧ hexDigit n ≠ percent ∧ lowerUnit (hexDigit n) = hexDigit n := by
  interval_cases n <;> decide

lemma mem_hexPiece {n : Fin 65536} {c : CodeUnit} (h : c ∈ hexPiece n) :
    ∃ k < 16, c = hexDigit k := by
  have hn := n.isLt
  rw [hexPiece] at h
  split_ifs at h with h₁ h₂ h₃ <;> simp only [List.mem_cons, List.not_mem_nil, or_false] at h
  · exact ⟨_, h₁, h⟩
  · rcases h with h | h <;> exact ⟨_, by omega, h⟩
  · rcases h with h | h | h <;> exact ⟨_, by omega, h⟩
  · rcases h with h | h | h | h <;> exact ⟨_, by omega, h⟩

lemma length_hexPiece (n : Fin 65536) : 1 ≤ (hexPiece n).length ∧ (hexPiece n).length ≤ 4 := by
  rw [hexPiece]
  split_ifs <;> simp

lemma all_hexPiece (n : Fin 65536) : (hexPiece n).all isHexUnit = true := by
  rw [List.all_eq_true]
  intro c hc
  obtain ⟨k, hk, rfl⟩ := mem_hexPiece hc
  exact (hexDigit_spec hk).1

lemma colon_not_mem_hexPiece (n : Fin 65536) : colon ∉ hexPiece n := by
  intro hc
  obtain ⟨k, hk, h⟩ := mem_hexPiece hc
  exact (hexDigit_spec hk).2.2.1 h.symm

lemma readDigits_hexPiece (n : Fin 65536) : readDigits 16 (hexPiece n) = n := by
  have hn := n.isLt
  have hvalue : ∀ {k : ℕ}, k < 16 → digitValue (hexDigit k) = k := fun hk => (hexDigit_spec hk).2.1
  rw [hexPiece]
  split_ifs with h₁ h₂ h₃ <;> simp only [readDigits, List.foldl_cons, List.foldl_nil]
  · rw [hvalue h₁, Nat.mul_zero, Nat.zero_add]
  · rw [hvalue (by omega), hvalue (by omega)]
    omega
  · rw [hvalue (by omega), hvalue (by omega), hvalue (by omega)]
    omega
  · rw [hvalue (by omega), hvalue (by omega), hvalue (by omega), hvalue (by omega)]
    omega

/-! ### Joined pieces -/

/-- A colon or a hexadecimal digit. -/
lemma mem_joinPieces {pieces : List (Fin 65536)} {c : CodeUnit} (h : c ∈ joinPieces pieces) :
    c = colon ∨ ∃ k < 16, c = hexDigit k := by
  cases pieces with
  | nil => simp [joinPieces] at h
  | cons n pieces =>
    rw [joinPieces, List.map_cons, intercalate_cons, List.mem_append] at h
    rcases h with h | h
    · exact .inr (mem_hexPiece h)
    · simp only [List.map_map, List.mem_flatten, List.mem_map, Function.comp_apply] at h
      obtain ⟨_, ⟨m, -, rfl⟩, h⟩ := h
      rcases List.mem_cons.mp h with h | h
      · exact .inl h
      · exact .inr (mem_hexPiece h)

lemma splitOn_joinPieces {pieces : List (Fin 65536)} (h : pieces ≠ []) :
    (joinPieces pieces).splitOn colon = pieces.map hexPiece := by
  apply List.splitOn_intercalate
  · intro l hl
    obtain ⟨n, -, rfl⟩ := List.mem_map.mp hl
    exact colon_not_mem_hexPiece n
  · simpa using h

lemma joinPieces_eq_nil {pieces : List (Fin 65536)} : joinPieces pieces = [] ↔ pieces = [] := by
  constructor
  · intro h
    by_contra hne
    have hsplit := splitOn_joinPieces hne
    rw [h, List.splitOn_nil] at hsplit
    obtain ⟨n, hn⟩ : ∃ n, hexPiece n = [] := by
      cases pieces with
      | nil => exact absurd rfl hne
      | cons n pieces => exact ⟨n, (List.cons.inj hsplit).1.symm⟩
    exact absurd (length_hexPiece n).1 (by simp [hn])
  · rintro rfl
    rfl

/-- No two colons stand side by side. -/
abbrev NoDouble (s : Text) : Prop := s.IsChain fun a b => ¬ (a = colon ∧ b = colon)

lemma noDouble_of_not_mem {s : Text} (h : colon ∉ s) : NoDouble s := by
  refine List.isChain_iff_forall_rel_of_append_cons_cons.mpr ?_
  rintro a b l₁ l₂ rfl ⟨rfl, -⟩
  simp at h

/-- Joined pieces stay without `::` between colons. -/
lemma noDouble_joinPieces (pieces : List (Fin 65536)) (h : pieces ≠ []) :
    NoDouble (colon :: (joinPieces pieces ++ [colon])) := by
  have hflat : ∀ l : List (Fin 65536),
      NoDouble (colon :: (l.map fun n => hexPiece n ++ [colon]).flatten) := by
    intro l
    induction l with
    | nil => exact List.isChain_singleton _
    | cons n l ih =>
      have hn : hexPiece n ≠ [] := List.ne_nil_of_length_pos (length_hexPiece n).1
      have hpiece : NoDouble (colon :: hexPiece n) := by
        obtain ⟨c, rest, hc⟩ := List.exists_cons_of_ne_nil hn
        rw [hc]
        refine List.isChain_cons_cons.mpr ⟨fun hboth => ?_, ?_⟩
        · exact colon_not_mem_hexPiece n (by rw [hc, hboth.2]; exact List.mem_cons_self)
        · exact hc ▸ noDouble_of_not_mem (colon_not_mem_hexPiece n)
      have hsplit : colon :: ((n :: l).map fun n => hexPiece n ++ [colon]).flatten =
          (colon :: hexPiece n) ++ (colon :: (l.map fun n => hexPiece n ++ [colon]).flatten) := by
        simp
      rw [hsplit]
      refine hpiece.append ih ?_
      intro x hx y _ hboth
      rw [List.getLast?_cons_of_ne_nil hn] at hx
      exact colon_not_mem_hexPiece n (hboth.1 ▸ List.mem_of_getLast? hx)
  have hjoin : joinPieces pieces ++ [colon] =
      (pieces.map fun n => hexPiece n ++ [colon]).flatten := by
    clear hflat
    induction pieces with
    | nil => exact absurd rfl h
    | cons n pieces ih =>
      cases pieces with
      | nil => simp [joinPieces]
      | cons m pieces =>
        have ih := ih (by simp)
        rw [joinPieces] at ih ⊢
        rw [List.map_cons, List.map_cons, List.intercalate_cons_cons, ← List.map_cons,
          List.append_assoc, ih]
        simp
  rw [hjoin]
  exact hflat pieces

lemma cutDouble_eq_none {s : Text} (h : NoDouble s) : cutDouble s = none := by
  induction s using cutDouble.induct with
  | case1 a b rest hboth => exact absurd hboth (List.isChain_cons_cons.mp h).1
  | case2 a b rest hne ih =>
    rw [cutDouble, if_neg hne, ih (List.isChain_cons_cons.mp h).2, Option.map_none]
  | case3 s hs =>
    rw [cutDouble]
    exact hs

lemma cutDouble_append {s t : Text} (h : NoDouble (s ++ [colon])) :
    cutDouble (s ++ colon :: colon :: t) = some (s, t) := by
  induction s with
  | nil => simp [cutDouble]
  | cons a s ih =>
    cases s with
    | nil =>
      have hne : ¬ a = colon := by simpa using (List.isChain_cons_cons.mp h).1
      simp [cutDouble, hne]
    | cons b s =>
      obtain ⟨hne, hrest⟩ := List.isChain_cons_cons.mp h
      rw [List.cons_append, List.cons_append, cutDouble, if_neg hne, ← List.cons_append,
        ih hrest, Option.map_some]

/-! ### The text of an IPv6 address -/

/-- The pieces around a run of zeros. -/
lemma eq_append_zeroRun (pieces : List (Fin 65536)) (i : ℕ) :
    pieces = pieces.take i ++ List.replicate (zeroRun (pieces.drop i)) 0 ++
      pieces.drop (i + zeroRun (pieces.drop i)) := by
  have hrun : (pieces.drop i).takeWhile (· = 0) =
      List.replicate (zeroRun (pieces.drop i)) 0 := by
    refine List.eq_replicate_iff.mpr ⟨rfl, fun x hx => ?_⟩
    simpa using List.mem_takeWhile_imp hx
  have hdrop : (pieces.drop i).drop (zeroRun (pieces.drop i)) =
      (pieces.drop i).dropWhile (· = 0) := by
    have hsplit := List.takeWhile_append_dropWhile (p := (· = 0)) (l := pieces.drop i)
    exact (congrArg (List.drop _) hsplit.symm).trans (List.drop_left' rfl)
  rw [List.append_assoc, ← hrun, ← List.drop_drop, hdrop, List.takeWhile_append_dropWhile,
    List.take_append_drop]

lemma longestRun_spec (pieces : List (Fin 65536)) :
    (longestRun pieces).2 = 1 ∨ 1 < (longestRun pieces).2 ∧
      (longestRun pieces).2 = zeroRun (pieces.drop (longestRun pieces).1) := by
  refine foldl_invariant (P := fun _ (best : ℕ × ℕ) => best.2 = 1 ∨ 1 < best.2 ∧
    best.2 = zeroRun (pieces.drop best.1)) (.inl rfl) ?_ (List.range pieces.length)
  intro _ i best hbest
  split_ifs with hlonger
  · exact .inr ⟨by rcases hbest with h | h <;> omega, rfl⟩
  · exact hbest

/-- The pieces stand all between colons, or those around a run of zeros stand around `::`. -/
lemma Ipv6.text_cases (p : Ipv6) : p.text = joinPieces p.pieces ∨
    ∃ head n tail, 1 < n ∧ p.pieces = head ++ List.replicate n 0 ++ tail ∧
      p.text = joinPieces head ++ colon :: colon :: joinPieces tail := by
  rw [Ipv6.text]
  split_ifs with hrun
  · exact .inl rfl
  · obtain h | ⟨hlong, hzeros⟩ := longestRun_spec p.pieces
    · exact absurd h hrun
    · refine .inr ⟨_, (longestRun p.pieces).2, _, hlong, ?_, rfl⟩
      have hpieces := eq_append_zeroRun p.pieces (longestRun p.pieces).1
      rwa [← hzeros] at hpieces

/-- A colon or a hexadecimal digit. -/
lemma Ipv6.mem_text {p : Ipv6} {c : CodeUnit} (h : c ∈ p.text) :
    c = colon ∨ ∃ k < 16, c = hexDigit k := by
  rcases p.text_cases with ht | ⟨head, n, tail, -, -, ht⟩
  · exact mem_joinPieces (ht ▸ h)
  · rw [ht, List.mem_append, List.mem_cons, List.mem_cons] at h
    rcases h with h | h | h | h
    · exact mem_joinPieces h
    · exact .inl h
    · exact .inl h
    · exact mem_joinPieces h

end Junjo
