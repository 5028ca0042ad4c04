import Junjo.Webhooks.Delivery

/-!
# Which registered hosts are delivered to public addresses only

The guard at registration knows fewer ranges than the table at delivery, and a host that is an
address is not looked up. So a delivery stays on public addresses exactly when the host of its URL
is not an address in one of the ranges that the guard leaves out.
-/

namespace Junjo

/-! ### The ranges -/

/-- The IPv4 ranges that the guard knows. -/
def GuardedIpv4 (a b : ℕ) : Prop :=
  a = 0 ∨ a = 10 ∨ a = 127 ∨ (a = 169 ∧ b = 254) ∨ (a = 172 ∧ 16 ≤ b ∧ b ≤ 31) ∨
    (a = 192 ∧ b = 168) ∨ (a = 100 ∧ 64 ≤ b ∧ b ≤ 127)

/-- Those it leaves out: protocol assignments, documentation, relay anycast, benchmarking,
multicast and reserved. -/
def UnguardedIpv4 (a b c : ℕ) : Prop :=
  (a = 192 ∧ b = 0 ∧ c = 0) ∨ (a = 192 ∧ b = 0 ∧ c = 2) ∨ (a = 192 ∧ b = 88 ∧ c = 99) ∨
    (a = 198 ∧ (b = 18 ∨ b = 19)) ∨ (a = 198 ∧ b = 51 ∧ c = 100) ∨
    (a = 203 ∧ b = 0 ∧ c = 113) ∨ 224 ≤ a

namespace Ipv6

def piece (p : Ipv6) (i : ℕ) : ℕ := (p.pieces.getD i 0).val

/-- The pieces from the `i`-th to the `j`-th, that one left out, are zero. -/
def ZeroPieces (p : Ipv6) (i j : ℕ) : Prop := ∀ k, i ≤ k → k < j → p.piece k = 0

/-- `::ffff:0:0/96` -/
def Mapped (p : Ipv6) : Prop := p.ZeroPieces 0 5 ∧ p.piece 5 = 0xffff

/-- `64:ff9b::/96` -/
def Nat64 (p : Ipv6) : Prop := p.piece 0 = 0x64 ∧ p.piece 1 = 0xff9b ∧ p.ZeroPieces 2 6

/-- `64:ff9b:1::/48` -/
def Nat64Local (p : Ipv6) : Prop := p.piece 0 = 0x64 ∧ p.piece 1 = 0xff9b ∧ p.piece 2 = 1

/-- `fc00::/7` -/
def UniqueLocal (p : Ipv6) : Prop := 0xfc00 ≤ p.piece 0 ∧ p.piece 0 < 0xfe00

/-- An IPv4 address of one of the ranges in the last two pieces. -/
def EmbedsSpecial (p : Ipv6) : Prop :=
  GuardedIpv4 (p.piece 6 / 256) (p.piece 6 % 256) ∨
    UnguardedIpv4 (p.piece 6 / 256) (p.piece 6 % 256) (p.piece 7 / 256)

/-- One around the third piece, where a `/48` prefix has it. -/
def EmbedsSpecialLocal (p : Ipv6) : Prop :=
  GuardedIpv4 (p.piece 3 / 256) (p.piece 3 % 256) ∨
    UnguardedIpv4 (p.piece 3 / 256) (p.piece 3 % 256) (p.piece 4 % 256)

/-- The IPv6 ranges that the guard knows. -/
def Guarded (p : Ipv6) : Prop :=
  p.ZeroPieces 0 8 ∨ (p.ZeroPieces 0 7 ∧ p.piece 7 = 1) ∨ p.piece 0 = 0xfe80 ∨ p.UniqueLocal

/-- Those it leaves out: embedded IPv4 addresses of the ranges, discard, documentation, link-local
other than `fe80:`, and multicast. -/
def Unguarded (p : Ipv6) : Prop :=
  (p.Mapped ∧ p.EmbedsSpecial) ∨ (p.Nat64 ∧ p.EmbedsSpecial) ∨
    (p.Nat64Local ∧ p.EmbedsSpecialLocal) ∨ (p.piece 0 = 0x100 ∧ p.ZeroPieces 1 4) ∨
    (p.piece 0 = 0x2001 ∧ p.piece 1 = 0xdb8) ∨ (0xfe80 < p.piece 0 ∧ p.piece 0 < 0xfec0) ∨
    0xff00 ≤ p.piece 0

/-- The ranges in which no IPv4 address is looked at. -/
def PlainSpecial (p : Ipv6) : Prop :=
  (p.piece 0 = 0x100 ∧ p.ZeroPieces 1 4) ∨ (p.piece 0 = 0x2001 ∧ p.piece 1 = 0xdb8) ∨
    p.UniqueLocal ∨ (0xfe80 ≤ p.piece 0 ∧ p.piece 0 < 0xfec0) ∨ 0xff00 ≤ p.piece 0

lemma piece_lt (p : Ipv6) (i : ℕ) : p.piece i < 65536 := Fin.isLt _

end Ipv6

namespace Webhooks

/-- A host that is an address of a range that the guard leaves out. -/
def UnguardedHost (hostname : Text) : Prop :=
  (∃ q : Ipv4, hostname = q.text ∧ UnguardedIpv4 q.a q.b q.c) ∨
    ∃ p : Ipv6, hostname = 91 :: p.text ++ [93] ∧ p.Unguarded

/-! ### IPv4 addresses -/

lemma splitOn_ipv4 (q : Ipv4) :
    q.text.splitOn dot = [decimal q.a, decimal q.b, decimal q.c, decimal q.d] := by
  apply List.splitOn_intercalate
  · intro l hl
    simp only [List.mem_cons, List.not_mem_nil, or_false] at hl
    rcases hl with rfl | rfl | rfl | rfl <;> exact dot_not_mem_decimal _
  · simp

lemma isQuadPart_decimal (n : Fin 256) : isQuadPart (decimal n) = true := by
  obtain ⟨hdigits, hpos, hlength, hlead, hread⟩ := decimal_byte n
  have hle : n.val ≤ 255 := Nat.le_of_lt_succ n.isLt
  simp [isQuadPart, hdigits, hpos, hlength, hlead, hread, hle]

lemma parseQuadPart_decimal (n : Fin 256) : parseQuadPart (decimal n) = some n.val := by
  obtain ⟨hdigits, hpos, hlength, -, hread⟩ := decimal_byte n
  have hle : n.val ≤ 255 := Nat.le_of_lt_succ n.isLt
  simp [parseQuadPart, hdigits, hpos, hlength, hread, hle]

lemma isIP_ipv4 (q : Ipv4) : isIP q.text = 4 := by
  simp [isIP, isIPv4, splitOn_ipv4, isQuadPart_decimal]

lemma parseIpv4_ipv4 (q : Ipv4) :
    parseIpv4 q.text = some [q.a.val, q.b.val, q.c.val, q.d.val] := by
  simp [parseIpv4, splitOn_ipv4, parseQuadPart_decimal]

/-- One line of a table: a range that is refused. -/
lemma refuse_iff {c : Prop} [Decidable c] {rest : Bool} :
    (if c then false else rest) = true ↔ ¬ c ∧ rest = true := by
  by_cases hc : c <;> simp [hc]

lemma isPublic_ipv4_iff (a b c : ℕ) :
    isPublicUnicastIpv4 a b c = true ↔ ¬ (GuardedIpv4 a b ∨ UnguardedIpv4 a b c) := by
  have hhigh : ¬ (224 ≤ a ∧ a ≤ 239) ∧ ¬ 240 ≤ a ↔ ¬ 224 ≤ a := by omega
  simp only [isPublicUnicastIpv4, refuse_iff, and_true, hhigh, GuardedIpv4, UnguardedIpv4, not_or]
  constructor
  · rintro ⟨h₁, h₂, h₃, h₄, h₅, h₆, h₇, h₈, h₉, h₁₀, h₁₁, h₁₂, h₁₃, h₁₄⟩
    exact ⟨⟨h₁, h₂, h₄, h₅, h₆, h₁₀, h₃⟩, h₇, h₈, h₉, h₁₁, h₁₂, h₁₃, h₁₄⟩
  · rintro ⟨⟨h₁, h₂, h₄, h₅, h₆, h₁₀, h₃⟩, h₇, h₈, h₉, h₁₁, h₁₂, h₁₃, h₁₄⟩
    exact ⟨h₁, h₂, h₃, h₄, h₅, h₆, h₇, h₈, h₉, h₁₀, h₁₁, h₁₂, h₁₃, h₁₄⟩

lemma isPublicUnicastAddress_ipv4 (q : Ipv4) :
    isPublicUnicastAddress q.text = true ↔ ¬ (GuardedIpv4 q.a q.b ∨ UnguardedIpv4 q.a q.b q.c) := by
  rw [isPublicUnicastAddress, if_pos (isIP_ipv4 q), parseIpv4_ipv4]
  exact isPublic_ipv4_iff q.a q.b q.c

lemma mem_ipv4_text {q : Ipv4} {c : CodeUnit} (h : c ∈ q.text) : c = dot ∨ isDigit c = true := by
  rw [Ipv4.text, intercalate_cons] at h
  have hdigit : ∀ n : Fin 256, c ∈ decimal n → isDigit c = true := fun n =>
    List.all_eq_true.mp (decimal_byte n).1 c
  simp only [List.map_cons, List.map_nil, List.flatten_cons, List.flatten_nil, List.mem_append,
    List.mem_singleton, List.not_mem_nil, or_false] at h
  rcases h with h | (h | h) | (h | h) | h | h
  all_goals first | exact .inl h | exact .inr (hdigit _ h)

lemma asciiLower_ipv4 (q : Ipv4) : asciiLower q.text = q.text := by
  rw [asciiLower]
  conv_rhs => rw [← List.map_id q.text]
  apply List.map_congr_left
  intro c hc
  rcases mem_ipv4_text hc with rfl | hdigit
  · rfl
  · have hlow : ¬ (65 ≤ c.val ∧ c.val ≤ 90) := by
      simp only [isDigit, Bool.and_eq_true, decide_eq_true_eq] at hdigit
      omega
    exact Fin.ext ((lowerUnit_val c).trans (if_neg hlow))

lemma strip_ipv4 (q : Ipv4) : stripIpv6Brackets q.text = q.text := by
  have hhead : q.text.head? ≠ some 91 := by
    intro h
    rcases mem_ipv4_text (List.mem_of_head? h) with h | h
    · exact absurd h (by decide)
    · exact absurd h (by decide)
  simp [stripIpv6Brackets, hhead]

lemma looksLikeIpv4_ipv4 (q : Ipv4) : looksLikeIpv4 q.text = true := by
  have hpart : ∀ n : Fin 256, decimal n ≠ [] ∧ (decimal n).length ≤ 3 ∧
      (decimal n).all isDigit = true ∧ readDigits 10 (decimal n) ≤ 255 := by
    intro n
    obtain ⟨hdigits, hpos, hlength, -, hread⟩ := decimal_byte n
    exact ⟨List.ne_nil_of_length_pos hpos, hlength, hdigits,
      hread.symm ▸ Nat.le_of_lt_succ n.isLt⟩
  simp [looksLikeIpv4, splitOn_ipv4, hpart, - List.all_eq_true]

/-- The guard refuses what it knows. -/
lemma isPrivateHost_ipv4 {q : Ipv4} (h : GuardedIpv4 q.a q.b) : isPrivateHost q.text = true := by
  have hcollapse : collapseIpv4MappedIpv6 q.text = q.text := by
    have hprefix : (text "::ffff:").isPrefixOf q.text = false := by
      refine Bool.eq_false_iff.mpr fun hpre => ?_
      obtain ⟨t, ht⟩ := List.isPrefixOf_iff_prefix.mp hpre
      have hcolon : colon ∈ q.text := ht ▸ List.mem_append_left _ (by decide)
      rcases mem_ipv4_text hcolon with h | h
      · exact absurd h (by decide)
      · exact absurd h (by decide)
    simp [collapseIpv4MappedIpv6, asciiLower_ipv4, hprefix]
  have hprivate : isPrivateIpv4 q.text = true := by
    have hread : ∀ n : Fin 256, readDigits 10 (decimal n) = n.val := fun n =>
      (decimal_byte n).2.2.2.2
    simp only [isPrivateIpv4, splitOn_ipv4, List.map_cons, hread]
    simp only [GuardedIpv4] at h
    split_ifs <;> first | rfl | omega
  rw [isPrivateHost]
  split_ifs
  · rfl
  · rfl
  · rfl
  · simp [hcollapse, looksLikeIpv4_ipv4, hprivate]

/-! ### IPv6 addresses -/

lemma percent_not_mem (p : Ipv6) : percent ∉ p.text := by
  intro h
  rcases Ipv6.mem_text h with h | ⟨k, hk, h⟩
  · exact absurd h (by decide)
  · exact (hexDigit_spec hk).2.2.2.2.1 h.symm

lemma dot_not_mem (p : Ipv6) : dot ∉ p.text := by
  intro h
  rcases Ipv6.mem_text h with h | ⟨k, hk, h⟩
  · exact absurd h (by decide)
  · exact (hexDigit_spec hk).2.2.2.1 h.symm

lemma asciiLower_ipv6 (p : Ipv6) : asciiLower p.text = p.text := by
  rw [asciiLower]
  conv_rhs => rw [← List.map_id p.text]
  apply List.map_congr_left
  intro c hc
  rcases Ipv6.mem_text hc with rfl | ⟨k, hk, rfl⟩
  · rfl
  · exact (hexDigit_spec hk).2.2.2.2.2

lemma takeWhile_ipv6 (p : Ipv6) : p.text.takeWhile (· ≠ percent) = p.text := by
  rw [List.takeWhile_eq_self_iff]
  intro c hc
  simpa using fun h : c = percent => percent_not_mem p (h ▸ hc)

lemma dropWhile_ipv6 (p : Ipv6) : p.text.dropWhile (· ≠ percent) = [] := by
  rw [List.dropWhile_eq_nil_iff]
  intro c hc
  simpa using fun h : c = percent => percent_not_mem p (h ▸ hc)

lemma isHexGroup_hexPiece (n : Fin 65536) : isHexGroup (hexPiece n) = true := by
  obtain ⟨hpos, hlength⟩ := length_hexPiece n
  simp only [isHexGroup, all_hexPiece, hpos, hlength, decide_true, Bool.and_self]

lemma groupsWidth_pieces (quad : Bool) (pieces : List (Fin 65536)) :
    groupsWidth quad (pieces.map hexPiece) = some pieces.length := by
  induction pieces with
  | nil => rfl
  | cons n pieces ih =>
    cases pieces with
    | nil => simp [groupsWidth, isHexGroup_hexPiece]
    | cons m pieces =>
      rw [List.map_cons, List.map_cons, groupsWidth, if_pos (isHexGroup_hexPiece n),
        ← List.map_cons, ih]
      · rfl
      · simp

lemma splitGroups_joinPieces (pieces : List (Fin 65536)) :
    splitGroups (joinPieces pieces) = pieces.map hexPiece := by
  rw [splitGroups]
  split_ifs with h
  · rw [joinPieces_eq_nil.mp h, List.map_nil]
  · exact splitOn_joinPieces (fun hnil => h (joinPieces_eq_nil.mpr hnil))

/-- The bytes of pieces. -/
def pieceBytes (pieces : List (Fin 65536)) : List ℕ :=
  pieces.flatMap fun n => [n.val / 256 % 256, n.val % 256]

lemma length_pieceBytes (pieces : List (Fin 65536)) :
    (pieceBytes pieces).length = 2 * pieces.length := by
  induction pieces with
  | nil => rfl
  | cons n pieces ih =>
    rw [pieceBytes, List.flatMap_cons, List.length_append, ← pieceBytes, ih, List.length_cons]
    simp only [List.length_cons, List.length_nil]
    omega

lemma groupBytes_hexPiece (last : Bool) (n : Fin 65536) :
    groupBytes last (hexPiece n) = some [n.val / 256 % 256, n.val % 256] := by
  have hdot : dot ∉ hexPiece n := by
    intro h
    obtain ⟨k, hk, h⟩ := mem_hexPiece h
    exact (hexDigit_spec hk).2.2.2.1 h.symm
  rw [groupBytes, if_neg hdot, if_pos (isHexGroup_hexPiece n), readDigits_hexPiece]

lemma pushGroups_pieces (pieces : List (Fin 65536)) :
    pushGroups (pieces.map hexPiece) = some (pieceBytes pieces) := by
  induction pieces with
  | nil => rfl
  | cons n pieces ih =>
    rw [List.map_cons, pushGroups, groupBytes_hexPiece, ih]
    simp [pieceBytes]

lemma pushHextets_joinPieces (pieces : List (Fin 65536)) :
    pushHextets (joinPieces pieces) = some (pieceBytes pieces) := by
  rw [pushHextets]
  split_ifs with h
  · rw [joinPieces_eq_nil.mp h]
    rfl
  · rw [splitOn_joinPieces (fun hnil => h (joinPieces_eq_nil.mpr hnil)), pushGroups_pieces]

/-- The text of an address is cut at its `::`, if it has one. -/
lemma cutDouble_cases (p : Ipv6) :
    (cutDouble p.text = none ∧ p.text = joinPieces p.pieces) ∨
      ∃ head n tail, 1 < n ∧ p.pieces = head ++ List.replicate n 0 ++ tail ∧
        cutDouble p.text = some (joinPieces head, joinPieces tail) ∧
        cutDouble (colon :: joinPieces tail) = none := by
  have hedge : ∀ pieces : List (Fin 65536), NoDouble (joinPieces pieces ++ [colon]) ∧
      NoDouble (colon :: joinPieces pieces) := by
    intro pieces
    by_cases h : pieces = []
    · subst h
      exact ⟨List.isChain_singleton _, List.isChain_singleton _⟩
    · have hboth := noDouble_joinPieces pieces h
      have hleft : NoDouble ([colon] ++ (joinPieces pieces ++ [colon])) := hboth
      have hright : NoDouble (colon :: joinPieces pieces ++ [colon]) := hboth
      exact ⟨hleft.right_of_append, hright.left_of_append⟩
  rcases p.text_cases with ht | ⟨head, n, tail, hn, hpieces, ht⟩
  · refine .inl ⟨?_, ht⟩
    rw [ht]
    exact cutDouble_eq_none (hedge p.pieces).1.left_of_append
  · refine .inr ⟨head, n, tail, hn, hpieces, ?_, cutDouble_eq_none (hedge tail).2⟩
    rw [ht]
    exact cutDouble_append (hedge head).1

lemma isIP_ipv6 (p : Ipv6) : isIP p.text = 6 := by
  have hquad : isIPv4 p.text = false := by
    simp [isIPv4, List.splitOn_eq_singleton (dot_not_mem p)]
  have hsix : isIPv6 p.text = true := by
    simp only [isIPv6, takeWhile_ipv6, dropWhile_ipv6, decide_true, Bool.true_or, Bool.true_and]
    rcases cutDouble_cases p with ⟨hcut, ht⟩ | ⟨head, n, tail, hn, hpieces, hcut, -⟩
    · have hne : p.pieces ≠ [] := List.ne_nil_of_length_pos (by rw [p.length_pieces]; decide)
      rw [hcut]
      simp only [ht, splitOn_joinPieces hne, groupsWidth_pieces, p.length_pieces, decide_true]
    · have hlength := congrArg List.length hpieces
      rw [p.length_pieces, List.length_append, List.length_append, List.length_replicate]
        at hlength
      rw [hcut]
      simp only [splitGroups_joinPieces, groupsWidth_pieces, decide_eq_true_eq]
      omega
  simp [isIP, hquad, hsix]

/-- An address is parsed into the bytes of its pieces. -/
lemma parseIpv6_ipv6 (p : Ipv6) : parseIpv6 p.text = some (pieceBytes p.pieces) := by
  have hlength : (pieceBytes p.pieces).length = 16 := by
    rw [length_pieceBytes, p.length_pieces]
  have hne : p.text ≠ [] := by
    intro h
    have hsix := isIP_ipv6 p
    rw [h] at hsix
    exact absurd hsix (by decide)
  rw [parseIpv6]
  simp only [takeWhile_ipv6, if_neg hne]
  rcases cutDouble_cases p with ⟨hcut, ht⟩ | ⟨head, n, tail, hn, hpieces, hcut, htail⟩
  · rw [hcut]
    simp only [ht, pushHextets_joinPieces, Option.filter_some, hlength, decide_true, if_true]
  · have hbytes : pieceBytes p.pieces =
        pieceBytes head ++ List.replicate (2 * n) 0 ++ pieceBytes tail := by
      have hzeros : pieceBytes (List.replicate n 0) = List.replicate (2 * n) 0 := by
        rw [List.eq_replicate_iff, length_pieceBytes, List.length_replicate]
        refine ⟨rfl, fun b hb => ?_⟩
        obtain ⟨m, hm, hb⟩ := List.mem_flatMap.mp hb
        rw [List.eq_of_mem_replicate hm] at hb
        simpa using hb
      rw [hpieces, pieceBytes, List.flatMap_append, List.flatMap_append, ← hzeros]
      rfl
    have hsum := congrArg List.length hpieces
    rw [p.length_pieces, List.length_append, List.length_append, List.length_replicate] at hsum
    have hgap : 16 - 2 * head.length - 2 * tail.length = 2 * n := by omega
    rw [hcut]
    simp only [htail, Option.isSome_none, Bool.false_eq_true, if_false, pushHextets_joinPieces,
      length_pieceBytes, hgap]
    rw [if_pos (by omega), hbytes]

/-! ### The IPv6 table -/

/-- A range that is decided by the IPv4 address in it. -/
lemma embed_iff {c : Prop} [Decidable c] {inner rest : Bool} :
    (if c then inner else rest) = true ↔ (c ∧ inner = true) ∨ (¬ c ∧ rest = true) := by
  by_cases hc : c <;> simp [hc]

lemma and_fe_eq_fc {n : ℕ} (h : n < 256) : n &&& 0xfe = 0xfc ↔ 0xfc ≤ n ∧ n < 0xfe := by
  have hall : ∀ m : Fin 256, m.val &&& 0xfe = 0xfc ↔ 0xfc ≤ m.val ∧ m.val < 0xfe := by
    decide +kernel
  exact hall ⟨n, h⟩

lemma and_c0_eq_80 {n : ℕ} (h : n < 256) : n &&& 0xc0 = 0x80 ↔ 0x80 ≤ n ∧ n < 0xc0 := by
  have hall : ∀ m : Fin 256, m.val &&& 0xc0 = 0x80 ↔ 0x80 ≤ m.val ∧ m.val < 0xc0 := by
    decide +kernel
  exact hall ⟨n, h⟩

lemma getElem?_pieceBytes (pieces : List (Fin 65536)) (k : ℕ) :
    (pieceBytes pieces)[2 * k]? = pieces[k]?.map (fun n => n.val / 256) ∧
      (pieceBytes pieces)[2 * k + 1]? = pieces[k]?.map (fun n => n.val % 256) := by
  induction pieces generalizing k with
  | nil => simp [pieceBytes]
  | cons n pieces ih =>
    have hn : n.val / 256 % 256 = n.val / 256 := by
      have hlt := n.isLt
      omega
    have hbytes : pieceBytes (n :: pieces) =
        n.val / 256 :: n.val % 256 :: pieceBytes pieces := by
      simp [pieceBytes, hn]
    rw [hbytes]
    cases k with
    | zero => simp
    | succ k => simpa [Nat.mul_succ] using ih k

section Table

variable (p : Ipv6)

lemma byte_even {k : ℕ} (hk : k < 8) :
    (pieceBytes p.pieces)[2 * k]? = some (p.piece k / 256) := by
  have hlt : k < p.pieces.length := p.length_pieces ▸ hk
  rw [(getElem?_pieceBytes p.pieces k).1, Ipv6.piece, List.getD_eq_getElem?_getD,
    List.getElem?_eq_getElem hlt, Option.map_some, Option.getD_some]

lemma byte_odd {k : ℕ} (hk : k < 8) :
    (pieceBytes p.pieces)[2 * k + 1]? = some (p.piece k % 256) := by
  have hlt : k < p.pieces.length := p.length_pieces ▸ hk
  rw [(getElem?_pieceBytes p.pieces k).2, Ipv6.piece, List.getD_eq_getElem?_getD,
    List.getElem?_eq_getElem hlt, Option.map_some, Option.getD_some]

lemma getD_even {k : ℕ} (hk : k < 8) : (pieceBytes p.pieces).getD (2 * k) 0 = p.piece k / 256 := by
  rw [List.getD_eq_getElem?_getD, byte_even p hk, Option.getD_some]

lemma getD_odd {k : ℕ} (hk : k < 8) :
    (pieceBytes p.pieces).getD (2 * k + 1) 0 = p.piece k % 256 := by
  rw [List.getD_eq_getElem?_getD, byte_odd p hk, Option.getD_some]

lemma allZero_iff {i j : ℕ} (hj : j ≤ 8) :
    allZero (pieceBytes p.pieces) (2 * i) (2 * j) = true ↔ p.ZeroPieces i j := by
  simp only [allZero, List.all_eq_true, List.mem_range, decide_eq_true_eq]
  constructor
  · intro h k hik hkj
    have heven := h (2 * (k - i)) (by omega)
    have hodd := h (2 * (k - i) + 1) (by omega)
    rw [show 2 * i + 2 * (k - i) = 2 * k by omega, byte_even p (by omega)] at heven
    rw [show 2 * i + (2 * (k - i) + 1) = 2 * k + 1 by omega, byte_odd p (by omega)] at hodd
    have hhigh := Option.some.inj heven
    have hlow := Option.some.inj hodd
    omega
  · intro h m hm
    have hzero := h (i + m / 2) (by omega) (by omega)
    rcases Nat.mod_two_eq_zero_or_one m with heven | hodd
    · rw [show 2 * i + m = 2 * (i + m / 2) by omega, byte_even p (by omega), hzero]
    · rw [show 2 * i + m = 2 * (i + m / 2) + 1 by omega, byte_odd p (by omega), hzero]

lemma loopback_iff : (allZero (pieceBytes p.pieces) 0 15 = true ∧ p.piece 7 % 256 = 1) ↔
    p.ZeroPieces 0 7 ∧ p.piece 7 = 1 := by
  have hsplit : allZero (pieceBytes p.pieces) 0 15 = true ↔
      allZero (pieceBytes p.pieces) 0 14 = true ∧ p.piece 7 / 256 = 0 := by
    have hbyte : (pieceBytes p.pieces)[14]? = some (p.piece 7 / 256) :=
      byte_even p (by decide : 7 < 8)
    simp only [allZero, Nat.sub_zero, List.range_succ (n := 14), List.all_append, Nat.zero_add,
      List.all_cons, List.all_nil, Bool.and_true, hbyte, Bool.and_eq_true, decide_eq_true_eq,
      Option.some.injEq]
  rw [hsplit, allZero_iff p (i := 0) (j := 7) (by decide)]
  constructor
  · rintro ⟨⟨hzero, hhigh⟩, hlow⟩
    exact ⟨hzero, by omega⟩
  · rintro ⟨hzero, hone⟩
    exact ⟨⟨hzero, by omega⟩, by omega⟩

lemma discard_iff : (p.piece 0 / 256 = 1 ∧ allZero (pieceBytes p.pieces) 1 8 = true) ↔
    p.piece 0 = 0x100 ∧ p.ZeroPieces 1 4 := by
  have hsplit : allZero (pieceBytes p.pieces) 1 8 = true ↔
      p.piece 0 % 256 = 0 ∧ allZero (pieceBytes p.pieces) 2 8 = true := by
    have hbyte : (pieceBytes p.pieces)[1]? = some (p.piece 0 % 256) :=
      byte_odd p (by decide : 0 < 8)
    have hshift : ∀ i : ℕ, 1 + (i + 1) = 2 + i := fun i => by omega
    simp only [allZero, Nat.reduceSub, List.range_succ_eq_map (n := 6), List.all_cons, Nat.add_zero,
      hbyte, List.all_map, Function.comp_def, Nat.succ_eq_add_one, hshift, Bool.and_eq_true,
      decide_eq_true_eq, Option.some.injEq]
  rw [hsplit, allZero_iff p (i := 1) (j := 4) (by decide)]
  constructor
  · rintro ⟨hhigh, hlow, hzero⟩
    exact ⟨by omega, hzero⟩
  · rintro ⟨hone, hzero⟩
    exact ⟨by omega, by omega, hzero⟩

lemma ranges_iff : p.Guarded ∨ p.Unguarded ↔ p.ZeroPieces 0 8 ∨
    (p.ZeroPieces 0 7 ∧ p.piece 7 = 1) ∨ (p.Mapped ∧ p.EmbedsSpecial) ∨
    (p.Nat64 ∧ p.EmbedsSpecial) ∨ (p.Nat64Local ∧ p.EmbedsSpecialLocal) ∨ p.PlainSpecial := by
  have hll : (0xfe80 ≤ p.piece 0 ∧ p.piece 0 < 0xfec0) ↔
      p.piece 0 = 0xfe80 ∨ (0xfe80 < p.piece 0 ∧ p.piece 0 < 0xfec0) := by omega
  rw [Ipv6.Guarded, Ipv6.Unguarded, Ipv6.PlainSpecial, hll]
  constructor
  · rintro ((h | h | h | h) | h | h | h | h | h | h | h) <;> simp [h]
  · rintro (h | h | h | h | h | h | h | h | (h | h) | h) <;> simp [h]

/-- The table on the pieces of an address. -/
lemma isPublic_ipv6_iff :
    isPublicUnicastIpv6 (pieceBytes p.pieces) = true ↔ ¬ (p.Guarded ∨ p.Unguarded) := by
  have hzero : ∀ {i j : ℕ}, j ≤ 8 → (allZero (pieceBytes p.pieces) (2 * i) (2 * j) = true ↔
      p.ZeroPieces i j) := allZero_iff p
  have hall := hzero (i := 0) (j := 8) (by decide)
  have hfive := hzero (i := 0) (j := 5) (by decide)
  have hfour := hzero (i := 2) (j := 6) (by decide)
  simp only [Nat.mul_zero, Nat.reduceMul] at hall hfive hfour
  have hbyte : ∀ {i : ℕ}, i < 16 → (pieceBytes p.pieces).getD i 0 =
      if i % 2 = 0 then p.piece (i / 2) / 256 else p.piece (i / 2) % 256 := by
    intro i hi
    split_ifs with heven
    · rw [← getD_even p (by omega), show 2 * (i / 2) = i by omega]
    · rw [← getD_odd p (by omega), show 2 * (i / 2) + 1 = i by omega]
  have hlt := p.piece_lt 0
  have hunique := and_fe_eq_fc (Nat.div_lt_of_lt_mul hlt : p.piece 0 / 256 < 256)
  have hlink := and_c0_eq_80 (Nat.mod_lt (p.piece 0) (by decide : 0 < 256))
  -- each line of the table, on the pieces
  have hmapped : ((p.ZeroPieces 0 5 ∧ p.piece 5 / 256 = 0xff) ∧ p.piece 5 % 256 = 0xff) ↔
      p.Mapped := by
    rw [Ipv6.Mapped, and_assoc]
    exact and_congr_right fun _ => by omega
  have hnat64 : ((((p.piece 0 / 256 = 0 ∧ p.piece 0 % 256 = 0x64) ∧ p.piece 1 / 256 = 0xff) ∧
      p.piece 1 % 256 = 0x9b) ∧ p.ZeroPieces 2 6) ↔ p.Nat64 := by
    rw [Ipv6.Nat64, ← and_assoc]
    exact and_congr_left fun _ => by omega
  have hlocal : (((((p.piece 0 / 256 = 0 ∧ p.piece 0 % 256 = 0x64) ∧ p.piece 1 / 256 = 0xff) ∧
      p.piece 1 % 256 = 0x9b) ∧ p.piece 2 / 256 = 0) ∧ p.piece 2 % 256 = 1) ↔ p.Nat64Local := by
    rw [Ipv6.Nat64Local]
    omega
  have hdoc : (((p.piece 0 / 256 = 0x20 ∧ p.piece 0 % 256 = 1) ∧ p.piece 1 / 256 = 0x0d) ∧
      p.piece 1 % 256 = 0xb8) ↔ p.piece 0 = 0x2001 ∧ p.piece 1 = 0xdb8 := by omega
  have hul : (0xfc ≤ p.piece 0 / 256 ∧ p.piece 0 / 256 < 0xfe) ↔ p.UniqueLocal := by
    rw [Ipv6.UniqueLocal]
    omega
  have hll : (p.piece 0 / 256 = 0xfe ∧ 0x80 ≤ p.piece 0 % 256 ∧ p.piece 0 % 256 < 0xc0) ↔
      (0xfe80 ≤ p.piece 0 ∧ p.piece 0 < 0xfec0) := by omega
  have hff : p.piece 0 / 256 = 0xff ↔ 0xff00 ≤ p.piece 0 := by omega
  have hspecial : (GuardedIpv4 (p.piece 6 / 256) (p.piece 6 % 256) ∨
      UnguardedIpv4 (p.piece 6 / 256) (p.piece 6 % 256) (p.piece 7 / 256)) ↔ p.EmbedsSpecial :=
    Iff.rfl
  have hspecial' : (GuardedIpv4 (p.piece 3 / 256) (p.piece 3 % 256) ∨
      UnguardedIpv4 (p.piece 3 / 256) (p.piece 3 % 256) (p.piece 4 % 256)) ↔
      p.EmbedsSpecialLocal := Iff.rfl
  simp only [isPublicUnicastIpv6, embeddedIsPublic, embed_iff, Bool.and_eq_true, decide_eq_true_eq,
    hall, hfive, hfour, hbyte, Nat.reduceLT, Nat.reduceDiv, Nat.reduceMod, if_true, one_ne_zero,
    if_false, loopback_iff, discard_iff, isPublic_ipv4_iff, and_true, hunique, hlink,
    Bool.false_eq_true, and_false, false_or, hmapped, hnat64, hlocal, hdoc, hul, hll, hff, hspecial,
    hspecial']
  -- the ranges with embedded addresses start differently from the others
  have hfirst : p.Mapped → p.piece 0 = 0 := fun h => h.1 0 (by decide) (by decide)
  have hsecond : p.Nat64 → p.piece 2 = 0 := fun h => h.2.2 2 (by decide) (by decide)
  have hm : p.Mapped → ¬ p.Nat64 ∧ ¬ p.Nat64Local ∧ ¬ p.PlainSpecial := by
    intro h
    have hzero := hfirst h
    simp [Ipv6.Nat64, Ipv6.Nat64Local, Ipv6.PlainSpecial, Ipv6.UniqueLocal, hzero]
  have hn : p.Nat64 → ¬ p.Nat64Local ∧ ¬ p.PlainSpecial := by
    intro h
    simp [Ipv6.Nat64Local, Ipv6.PlainSpecial, Ipv6.UniqueLocal, h.1, hsecond h]
  have hl : p.Nat64Local → ¬ p.PlainSpecial := by
    intro h
    simp [Ipv6.PlainSpecial, Ipv6.UniqueLocal, h.1]
  rw [ranges_iff, ← not_or, ← not_or, ← not_or, ← not_or, ← Ipv6.PlainSpecial]
  by_cases hA : p.Mapped
  · simp [hA, hm hA]
  · by_cases hB : p.Nat64
    · simp [hA, hB, hn hB]
    · by_cases hC : p.Nat64Local
      · simp [hA, hB, hC, hl hC]
      · simp [hA, hB, hC]

lemma isPublicUnicastAddress_ipv6 :
    isPublicUnicastAddress p.text = true ↔ ¬ (p.Guarded ∨ p.Unguarded) := by
  rw [isPublicUnicastAddress, isIP_ipv6, if_neg (by decide), if_pos rfl, parseIpv6_ipv6]
  exact isPublic_ipv6_iff p

end Table

/-! ### What the guard makes of an IPv6 address -/

lemma strip_ipv6 (s : Text) : stripIpv6Brackets (91 :: s ++ [93]) = s := by
  have hlast : (91 :: s ++ [93]).getLast? = some (93 : CodeUnit) := List.getLast?_concat
  rw [stripIpv6Brackets, hlast]
  simp

/-- The text of an address starts with its first piece, unless that is zero. -/
lemma text_eq_cons {p : Ipv6} {n : Fin 65536} {rest : List (Fin 65536)}
    (hpieces : p.pieces = n :: rest) (hn : n ≠ 0) : ∃ t, p.text = hexPiece n ++ colon :: t := by
  have hjoin : ∀ l, joinPieces (n :: l) =
      hexPiece n ++ ((l.map hexPiece).map fun y => [colon] ++ y).flatten := fun l => by
    rw [joinPieces, List.map_cons, intercalate_cons]
  rcases p.text_cases with ht | ⟨head, k, tail, hk, hsplit, ht⟩
  · cases rest with
    | nil => exact absurd p.length_pieces (by simp [hpieces])
    | cons m rest =>
      rw [ht, hpieces, hjoin]
      simp only [List.map_cons, List.flatten_cons, List.cons_append, List.nil_append]
      exact ⟨_, rfl⟩
  · cases head with
    | nil =>
      obtain ⟨k, rfl⟩ := Nat.exists_eq_succ_of_ne_zero (Nat.ne_zero_of_lt hk)
      rw [hpieces, List.nil_append, List.replicate_succ, List.cons_append] at hsplit
      exact absurd (List.cons.inj hsplit).1 hn
    | cons m head =>
      rw [hpieces, List.cons_append, List.cons_append] at hsplit
      obtain ⟨rfl, -⟩ := List.cons.inj hsplit
      rw [ht, hjoin]
      cases head with
      | nil =>
        simp only [List.map_nil, List.flatten_nil, List.append_nil]
        exact ⟨_, rfl⟩
      | cons m head =>
        simp only [List.map_cons, List.flatten_cons, List.cons_append, List.nil_append,
          List.append_assoc]
        exact ⟨_, rfl⟩

lemma piece_zero_eq {p : Ipv6} {n : Fin 65536} {rest : List (Fin 65536)}
    (hpieces : p.pieces = n :: rest) : p.piece 0 = n.val := by
  rw [Ipv6.piece, hpieces, List.getD_cons_zero]

/-- The first piece of a unique local address has four digits, the first two `fc` or `fd`. -/
lemma isUniqueLocal_hexPiece {n : Fin 65536} (hlow : 0xfc00 ≤ n.val) (hhigh : n.val < 0xfe00)
    (t : Text) : isUniqueLocal (hexPiece n ++ colon :: t) = true := by
  have hf : n.val / 4096 = 15 := by omega
  have hcd : n.val / 256 % 16 = 12 ∨ n.val / 256 % 16 = 13 := by omega
  have hhex : ∀ k, isHexUnit (hexDigit (k % 16)) = true := fun k =>
    (hexDigit_spec (Nat.mod_lt k (by decide))).1
  have htwo : ∀ d e : CodeUnit, isHexUnit d = true → isHexUnit e = true →
      ((List.range 3).any fun m => ((d :: e :: colon :: t).take m).all isHexUnit &&
        (d :: e :: colon :: t)[m]? = some colon) = true := by
    intro d e hd he
    refine List.any_eq_true.mpr ⟨2, by decide, ?_⟩
    simp [hd, he]
  rw [hexPiece, if_neg (by omega), if_neg (by omega), if_neg (by omega), hf]
  have hany := htwo _ _ (hhex (n.val / 16)) (hhex n.val)
  rcases hcd with hcd | hcd
  · rw [hcd]
    simp only [List.cons_append, List.nil_append, isUniqueLocal, hany]
    decide
  · rw [hcd]
    simp only [List.cons_append, List.nil_append, isUniqueLocal, hany]
    decide

lemma pieces_of_zeroPieces {p : Ipv6} (h : p.ZeroPieces 0 7) :
    ∃ n, p.pieces = [0, 0, 0, 0, 0, 0, 0, n] ∧ p.piece 7 = n.val := by
  obtain ⟨pieces, hlength⟩ := p
  match pieces, hlength with
  | [p₀, p₁, p₂, p₃, p₄, p₅, p₆, p₇], _ =>
    refine ⟨p₇, ?_, rfl⟩
    have hzero : ∀ k (hk : k < 7), ([p₀, p₁, p₂, p₃, p₄, p₅, p₆, p₇].getD k 0) = 0 :=
      fun k hk => Fin.ext (h k (Nat.zero_le k) hk)
    have h₀ : p₀ = 0 := hzero 0 (by decide)
    have h₁ : p₁ = 0 := hzero 1 (by decide)
    have h₂ : p₂ = 0 := hzero 2 (by decide)
    have h₃ : p₃ = 0 := hzero 3 (by decide)
    have h₄ : p₄ = 0 := hzero 4 (by decide)
    have h₅ : p₅ = 0 := hzero 5 (by decide)
    have h₆ : p₆ = 0 := hzero 6 (by decide)
    rw [h₀, h₁, h₂, h₃, h₄, h₅, h₆]

lemma isPrivateIpv6_of_guarded {p : Ipv6} (h : p.Guarded) : isPrivateIpv6 p.text = true := by
  have hshort : ∀ m : Fin 65536, m = 0 ∨ m = 1 → p.pieces = [0, 0, 0, 0, 0, 0, 0, m] →
      isPrivateIpv6 p.text = true := by
    intro m hm hpieces
    rcases hm with rfl | rfl
    · obtain rfl : p = ⟨[0, 0, 0, 0, 0, 0, 0, 0], rfl⟩ := Ipv6.ext hpieces
      decide
    · obtain rfl : p = ⟨[0, 0, 0, 0, 0, 0, 0, 1], rfl⟩ := Ipv6.ext hpieces
      decide
  obtain ⟨n, rest, hpieces⟩ : ∃ n rest, p.pieces = n :: rest :=
    List.exists_cons_of_ne_nil (List.ne_nil_of_length_pos (by rw [p.length_pieces]; decide))
  have hfirst := piece_zero_eq hpieces
  have hlower := asciiLower_ipv6 p
  rcases h with hzero | ⟨hzero, hone⟩ | hlink | hunique
  · obtain ⟨m, hm, hseven⟩ := pieces_of_zeroPieces (p := p)
      fun k hk hk' => hzero k hk (Nat.lt_succ_of_lt hk')
    exact hshort m (.inl (Fin.ext (hseven ▸ hzero 7 (by decide) (by decide)))) hm
  · obtain ⟨m, hm, hseven⟩ := pieces_of_zeroPieces hzero
    exact hshort m (.inr (Fin.ext (hseven ▸ hone))) hm
  · obtain rfl : n = 0xfe80 := Fin.ext (hfirst ▸ hlink)
    obtain ⟨t, ht⟩ := text_eq_cons hpieces (by decide)
    have hprefix : (text "fe80:").isPrefixOf p.text = true := by
      rw [ht, List.isPrefixOf_iff_prefix]
      exact ⟨t, rfl⟩
    simp [isPrivateIpv6, hlower, hprefix]
  · have hn : n ≠ 0 := by
      rintro rfl
      exact absurd (hfirst ▸ hunique.1) (by decide)
    obtain ⟨t, ht⟩ := text_eq_cons hpieces hn
    have hlocal : isUniqueLocal p.text = true := by
      rw [ht]
      exact isUniqueLocal_hexPiece (hfirst ▸ hunique.1) (hfirst ▸ hunique.2) t
    simp [isPrivateIpv6, hlower, hlocal]

lemma colon_mem_text (p : Ipv6) : colon ∈ p.text := by
  by_contra h
  have hdouble : cutDouble p.text = none := cutDouble_eq_none (noDouble_of_not_mem h)
  rcases cutDouble_cases p with ⟨-, ht⟩ | ⟨_, _, _, _, _, hcut, _⟩
  · have hne : p.pieces ≠ [] := List.ne_nil_of_length_pos (by rw [p.length_pieces]; decide)
    have hsplit := splitOn_joinPieces hne
    rw [← ht, List.splitOn_eq_singleton h] at hsplit
    have hlength := congrArg List.length hsplit
    rw [List.length_map, p.length_pieces] at hlength
    simp at hlength
  · rw [hdouble] at hcut
    cases hcut

/-- The guard refuses what it knows. -/
lemma isPrivateHost_ipv6 {p : Ipv6} (h : p.Guarded) : isPrivateHost p.text = true := by
  have hquad : ∀ s : Text, dot ∉ s → looksLikeIpv4 s = false := by
    intro s hs
    simp [looksLikeIpv4, List.splitOn_eq_singleton hs]
  have hcollapse : collapseIpv4MappedIpv6 p.text = p.text := by
    have hrest : looksLikeIpv4 (p.text.drop 7) = false :=
      hquad _ fun hdot => dot_not_mem p (List.mem_of_mem_drop hdot)
    simp [collapseIpv4MappedIpv6, asciiLower_ipv6, hrest]
  rw [isPrivateHost]
  split_ifs
  · rfl
  · rfl
  · rfl
  · simp [hcollapse, hquad _ (dot_not_mem p), colon_mem_text, isPrivateIpv6_of_guarded h]

/-! ### Deliveries -/

/-- A host that is no address is connected to at public addresses only. -/
lemma connectTargets_name {dnsLookup : Text → LookupOptions → Except Text (List LookupAddress)}
    {opts : LookupOptions} {hostname address : Text} (hip : isIP hostname = 0)
    (hhead : hostname.head? ≠ some 91)
    (h : address ∈ connectTargets dnsLookup opts hostname) :
    isPublicUnicastAddress address = true := by
  have hstrip : stripIpv6Brackets hostname = hostname := by simp [stripIpv6Brackets, hhead]
  rw [connectTargets, hstrip] at h
  simp only [hip, ne_eq, not_true_eq_false, if_false, safeWebhookLookup] at h
  cases hdns : dnsLookup hostname ⟨some (opts.family.getD 0), opts.hints, some true,
      some (opts.verbatim.getD true)⟩ with
  | error err =>
    simp only [hdns, List.not_mem_nil] at h
  | ok addresses =>
    simp only [hdns] at h
    split_ifs at h with hall hwant
    · obtain ⟨entry, hentry, rfl⟩ := List.mem_map.mp h
      exact List.all_eq_true.mp hall entry hentry
    · cases addresses with
      | nil => simp at h
      | cons first rest =>
        simp only [List.head?_cons, List.map_cons, List.map_nil, List.mem_singleton] at h
        rw [h]
        exact List.all_eq_true.mp hall first List.mem_cons_self
    · simp at h

lemma connectTargets_address {dnsLookup : Text → LookupOptions → Except Text (List LookupAddress)}
    {opts : LookupOptions} {hostname host : Text} (hstrip : stripIpv6Brackets hostname = host)
    (hip : isIP host ≠ 0) : connectTargets dnsLookup opts hostname = [host] := by
  rw [connectTargets, hstrip]
  exact if_pos hip

/-- What the guard accepted. -/
lemma assertSafeWebhookUrl_ok {parseUrl : Text → Option Url} {rawUrl : Text} {parsed : Url}
    (hparsed : parseUrl rawUrl = some parsed)
    (h : assertSafeWebhookUrl parseUrl rawUrl false = .ok ()) :
    (parsed.protocol = text "http:" ∨ parsed.protocol = text "https:") ∧
      isPrivateHost (stripIpv6Brackets (asciiLower parsed.hostname)) = false := by
  rw [assertSafeWebhookUrl, hparsed] at h
  simp only [Bool.false_eq_true, if_false] at h
  split_ifs at h with hprotocol hprivate
  exact ⟨by tauto, Bool.eq_false_iff.mpr hprivate⟩

/-- Every address that deliveries to an accepted URL connect to is public unicast, exactly when its
host is not an address of a range that the guard leaves out. -/
theorem delivery_public_iff {parseUrl : Text → Option Url} (hparse : Normalizes parseUrl)
    {rawUrl : Text} {parsed : Url} (hparsed : parseUrl rawUrl = some parsed)
    (haccepted : assertSafeWebhookUrl parseUrl rawUrl false = .ok ()) :
    (∀ dnsLookup opts, ∀ address ∈ connectTargets dnsLookup opts parsed.hostname,
        isPublicUnicastAddress address = true) ↔ ¬ UnguardedHost parsed.hostname := by
  obtain ⟨hprotocol, hpublic⟩ := assertSafeWebhookUrl_ok hparsed haccepted
  constructor
  · rintro h (⟨q, hhost, hrange⟩ | ⟨p, hhost, hrange⟩)
    · have hconnect : connectTargets (fun _ _ => .ok []) {} q.text = [q.text] :=
        connectTargets_address (strip_ipv4 q) (by rw [isIP_ipv4]; decide)
      have hq := h (fun _ _ => .ok []) {} q.text (by rw [hhost, hconnect]; simp)
      exact (isPublicUnicastAddress_ipv4 q).mp hq (.inr hrange)
    · have hconnect : connectTargets (fun _ _ => .ok []) {} (91 :: p.text ++ [93]) = [p.text] :=
        connectTargets_address (strip_ipv6 p.text) (by rw [isIP_ipv6]; decide)
      have hp := h (fun _ _ => .ok []) {} p.text (by rw [hhost, hconnect]; simp)
      exact (isPublicUnicastAddress_ipv6 p).mp hp (.inr hrange)
  · intro hrange dnsLookup opts address haddress
    have hform := hparse rawUrl parsed hparsed hprotocol
    generalize hhost : parsed.hostname = hostname at *
    cases hform with
    | ipv4 q =>
      rw [connectTargets_address (strip_ipv4 q) (by rw [isIP_ipv4]; decide),
        List.mem_singleton] at haddress
      rw [haddress, isPublicUnicastAddress_ipv4]
      rintro (hguarded | hrange')
      · rw [asciiLower_ipv4, strip_ipv4, isPrivateHost_ipv4 hguarded] at hpublic
        cases hpublic
      · exact hrange (.inl ⟨q, rfl, hrange'⟩)
    | ipv6 p =>
      rw [connectTargets_address (strip_ipv6 p.text) (by rw [isIP_ipv6]; decide),
        List.mem_singleton] at haddress
      rw [haddress, isPublicUnicastAddress_ipv6]
      rintro (hguarded | hrange')
      · have hlower : asciiLower (91 :: p.text ++ [93]) = 91 :: p.text ++ [93] := by
          have hp := asciiLower_ipv6 p
          rw [asciiLower] at hp ⊢
          rw [List.map_append, List.map_cons, hp]
          rfl
        rw [hlower, strip_ipv6, isPrivateHost_ipv6 hguarded] at hpublic
        cases hpublic
      · exact hrange (.inr ⟨p, rfl, hrange'⟩)
    | name _ hip hhead => exact connectTargets_name hip hhead haddress

/-- A parser that knows one URL. -/
private def parseOne (rawUrl : Text) (parsed : Url) (s : Text) : Option Url :=
  if s = rawUrl then some parsed else none

private lemma normalizes_parseOne {rawUrl : Text} {parsed : Url} (h : HostForm parsed.hostname) :
    Normalizes (parseOne rawUrl parsed) := by
  intro s parsed' hparsed _
  rw [parseOne] at hparsed
  split_ifs at hparsed
  cases hparsed
  exact h

private def hookUrl : Text := text "https://hooks.example.com/incoming"

private def hookHost : Url := ⟨text "https:", text "hooks.example.com"⟩

theorem delivery_public_iff_hook : ¬ UnguardedHost hookHost.hostname ∧
    ∀ dnsLookup opts, ∀ address ∈ connectTargets dnsLookup opts hookHost.hostname,
      isPublicUnicastAddress address = true := by
  have hname : ¬ UnguardedHost hookHost.hostname := by
    rintro (⟨q, hhost, -⟩ | ⟨p, hhost, -⟩)
    · have hmem : (104 : CodeUnit) ∈ q.text := hhost ▸ (by decide : 104 ∈ hookHost.hostname)
      rcases mem_ipv4_text hmem with h | h
      · exact absurd h (by decide)
      · exact absurd h (by decide)
    · have hhead := congrArg List.head? hhost
      rw [List.cons_append, List.head?_cons] at hhead
      exact absurd hhead (by decide)
  have hform : HostForm hookHost.hostname := .name _ (by decide) (by decide)
  have hparsed : parseOne hookUrl hookHost hookUrl = some hookHost := if_pos rfl
  exact ⟨hname, (delivery_public_iff (normalizes_parseOne hform) hparsed
    (by decide)).mpr hname⟩

/-- The loopback address as it stands in a parsed URL when it was written as a mapped one. -/
private def loopback : Ipv6 := ⟨[0, 0, 0, 0, 0, 0xffff, 0x7f00, 1], rfl⟩

private def loopbackUrl : Text := text "http://[::ffff:127.0.0.1]:5432/"

private def loopbackHost : Url := ⟨text "http:", text "[::ffff:7f00:1]"⟩

/-- A registered URL that is delivered to the loopback address. -/
theorem delivery_to_loopback : ¬ ∀ (parseUrl : Text → Option Url) (rawUrl : Text) (parsed : Url),
    Normalizes parseUrl → parseUrl rawUrl = some parsed →
    assertSafeWebhookUrl parseUrl rawUrl false = .ok () →
    ∀ dnsLookup opts, ∀ address ∈ connectTargets dnsLookup opts parsed.hostname,
      isPublicUnicastAddress address = true := by
  intro h
  have hform : HostForm loopbackHost.hostname := by
    have htext : loopbackHost.hostname = 91 :: loopback.text ++ [93] := by decide
    exact htext ▸ HostForm.ipv6 loopback
  have hpublic := h (parseOne loopbackUrl loopbackHost) loopbackUrl loopbackHost
    (normalizes_parseOne hform) (if_pos rfl) (by decide) (fun _ _ => .ok []) {}
    (text "::ffff:7f00:1") (by decide)
  exact absurd hpublic (by decide)

end Webhooks

end Junjo
