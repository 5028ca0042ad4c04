import Mathlib

/-!
# SHA-256 and HMAC

SHA-256 on strings of bytes as FIPS 180-4 defines it, with the constants computed from their
definition, and HMAC as RFC 2104 defines it over any hash function.
-/

namespace Junjo.Fips180

abbrev Byte := BitVec 8

abbrev Word := BitVec 32

/-! ### Roots -/

/-- The largest `r'` with `r' ^ k ≤ n` among `r`, …, `r + 2 ^ bits - 1`, when `r` is one. -/
def rootFrom (k n : ℕ) : ℕ → ℕ → ℕ
  | 0, r => r
  | bits + 1, r =>
    if (r + 2 ^ bits) ^ k ≤ n then rootFrom k n bits (r + 2 ^ bits) else rootFrom k n bits r

/-- The largest integer below the `k`-th root, for roots below `2 ^ 40`. -/
def rootFloor (k n : ℕ) : ℕ := rootFrom k n 40 0

lemma rootFrom_spec {k n : ℕ} (bits r : ℕ) (hle : r ^ k ≤ n)
    (hlt : n < (r + 2 ^ bits) ^ k) :
    rootFrom k n bits r ^ k ≤ n ∧ n < (rootFrom k n bits r + 1) ^ k := by
  induction bits generalizing r with
  | zero => exact ⟨hle, hlt⟩
  | succ bits ih =>
    rw [rootFrom]
    split_ifs with h
    · refine ih _ h ?_
      rwa [Nat.add_assoc, ← Nat.two_mul, ← Nat.pow_succ']
    · exact ih r hle (not_le.mp h)

lemma rootFloor_spec {k n : ℕ} (hk : k ≠ 0) (hn : n < (2 ^ 40) ^ k) :
    rootFloor k n ^ k ≤ n ∧ n < (rootFloor k n + 1) ^ k := by
  refine rootFrom_spec 40 0 ?_ ?_
  · rw [Nat.zero_pow (Nat.pos_of_ne_zero hk)]
    exact Nat.zero_le n
  · rwa [Nat.zero_add]

def isPrime (n : ℕ) : Bool := 2 ≤ n && (List.range n).all fun m => m < 2 || n % m != 0

/-- The first sixty-four primes. -/
def primes : List ℕ := (List.range 312).filter isPrime

/-- The first thirty-two bits of the fractional part of a root. -/
def rootFraction (k p : ℕ) : Word := BitVec.ofNat 32 (rootFloor k (p * 2 ^ (32 * k)))

/-- Section 4.2.2: the fractional parts of the cube roots of the first sixty-four primes. -/
def roundConstants : List Word := primes.map (rootFraction 3)

/-- Section 5.3.3: the fractional parts of the square roots of the first eight primes. -/
def initialHash : List Word := (primes.take 8).map (rootFraction 2)

/-! ### Functions of words: sections 3.2 and 4.1.2 -/

def ch (x y z : Word) : Word := (x &&& y) ^^^ (~~~x &&& z)

def maj (x y z : Word) : Word := (x &&& y) ^^^ (x &&& z) ^^^ (y &&& z)

def bigSigma0 (x : Word) : Word := x.rotateRight 2 ^^^ x.rotateRight 13 ^^^ x.rotateRight 22

def bigSigma1 (x : Word) : Word := x.rotateRight 6 ^^^ x.rotateRight 11 ^^^ x.rotateRight 25

def smallSigma0 (x : Word) : Word := x.rotateRight 7 ^^^ x.rotateRight 18 ^^^ x >>> 3

def smallSigma1 (x : Word) : Word := x.rotateRight 17 ^^^ x.rotateRight 19 ^^^ x >>> 10

/-! ### Padding and blocks: sections 5.1.1 and 5.2.1 -/

/-- The fewest zero bytes that leave room for the length at the end of a block: with the bit `1`
and the zero bits, the message is 448 bits long modulo 512. -/
def zeroBytes (length : ℕ) : ℕ := (119 - length % 64) % 64

/-- A number of bits as a string of 64 bits. -/
def lengthBytes (bits : ℕ) : List Byte :=
  (List.range 8).map fun i => BitVec.ofNat 8 (bits / 256 ^ (7 - i))

def pad (message : List Byte) : List Byte :=
  message ++ 0x80#8 :: (List.replicate (zeroBytes message.length) 0#8
    ++ lengthBytes (8 * message.length))

/-- The words of a block, the first byte of each its highest. -/
def wordAt (block : List Byte) (t : ℕ) : Word :=
  block.getD (4 * t) 0 ++ block.getD (4 * t + 1) 0 ++ block.getD (4 * t + 2) 0
    ++ block.getD (4 * t + 3) 0

/-! ### The hash: section 6.2.2 -/

/-- The message schedule of a block. -/
def schedule (block : List Byte) (t : ℕ) : Word :=
  if t < 16 then wordAt block t
  else smallSigma1 (schedule block (t - 2)) + schedule block (t - 7)
    + smallSigma0 (schedule block (t - 15)) + schedule block (t - 16)
termination_by t

/-- The working variables. -/
structure Working where
  a : Word
  b : Word
  c : Word
  d : Word
  e : Word
  f : Word
  g : Word
  h : Word
deriving DecidableEq

/-- One round, with its constant and its word of the schedule. -/
def round (v : Working) (k w : Word) : Working :=
  let t₁ := v.h + bigSigma1 v.e + ch v.e v.f v.g + k + w
  let t₂ := bigSigma0 v.a + maj v.a v.b v.c
  ⟨t₁ + t₂, v.a, v.b, v.c, v.d + t₁, v.e, v.f, v.g⟩

/-- The hash value after a block. -/
def compress (hash : Working) (block : List Byte) : Working :=
  let v := (List.range 64).foldl
    (fun v t => round v (roundConstants.getD t 0) (schedule block t)) hash
  ⟨v.a + hash.a, v.b + hash.b, v.c + hash.c, v.d + hash.d, v.e + hash.e, v.f + hash.f,
    v.g + hash.g, v.h + hash.h⟩

/-- The hash value after the blocks of a padded message. -/
def hashBlocks (hash : Working) (padded : List Byte) : Working :=
  if 64 ≤ padded.length then hashBlocks (compress hash (padded.take 64)) (padded.drop 64) else hash
termination_by padded.length
decreasing_by
  rw [List.length_drop]
  omega

/-- Blocks are hashed one after the other. -/
lemma hashBlocks_append (hash : Working) (blocks more : List Byte) (h : blocks.length % 64 = 0) :
    hashBlocks hash (blocks ++ more) = hashBlocks (hashBlocks hash blocks) more := by
  induction hash, blocks using hashBlocks.induct with
  | case1 hash blocks hlength ih =>
    rw [hashBlocks, hashBlocks.eq_def hash blocks, if_pos hlength,
      if_pos (by rw [List.length_append]; omega), List.take_append_of_le_length hlength,
      List.drop_append_of_le_length hlength]
    exact ih (by rw [List.length_drop]; omega)
  | case2 hash blocks hlength =>
    have hnil : blocks = [] := List.length_eq_zero_iff.mp (by omega)
    rw [hnil, List.nil_append, hashBlocks.eq_def hash [], if_neg (by simp)]

/-- The hash value after one block. -/
lemma hashBlocks_block (hash : Working) {block : List Byte} (h : block.length = 64) :
    hashBlocks hash block = compress hash block := by
  rw [hashBlocks, if_pos h.ge, List.take_of_length_le h.le, hashBlocks, if_neg]
  rw [List.length_drop]
  omega

def initial : Working :=
  ⟨initialHash.getD 0 0, initialHash.getD 1 0, initialHash.getD 2 0, initialHash.getD 3 0,
    initialHash.getD 4 0, initialHash.getD 5 0, initialHash.getD 6 0, initialHash.getD 7 0⟩

/-- The bytes of a word, the highest first. -/
def wordBytes (x : Word) : List Byte :=
  [x.extractLsb' 24 8, x.extractLsb' 16 8, x.extractLsb' 8 8, x.extractLsb' 0 8]

def digest (v : Working) : List Byte :=
  [v.a, v.b, v.c, v.d, v.e, v.f, v.g, v.h].flatMap wordBytes

/-- SHA-256. The standard defines it for messages of fewer than `2 ^ 61` bytes. -/
def sha256 (message : List Byte) : List Byte := digest (hashBlocks initial (pad message))

/-! ### HMAC -/

section Hmac

variable (hash : List Byte → List Byte) (blockSize : ℕ)

/-- The key as one block: a longer key is hashed, a shorter one filled with zeros. -/
def hmacKey (key : List Byte) : List Byte :=
  let key := if blockSize < key.length then hash key else key
  key ++ List.replicate (blockSize - key.length) 0#8

/-- RFC 2104. -/
def hmac (key message : List Byte) : List Byte :=
  let key := hmacKey hash blockSize key
  hash (key.map (· ^^^ 0x5c#8) ++ hash (key.map (· ^^^ 0x36#8) ++ message))

end Hmac

end Junjo.Fips180
