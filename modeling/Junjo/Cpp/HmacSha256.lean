import Junjo.Core.Fips180

/-!
# SHA-256 and HMAC in the C++ SDK

The hasher takes a message in any number of updates and holds back what does not fill a block.
-/

namespace Junjo.Cpp

open Fips180 (Byte Word)

def kRoundConstants : List Word := [
  0x428a2f98, 0x71374491, 0xb5c0fbcf, 0xe9b5dba5, 0x3956c25b, 0x59f111f1, 0x923f82a4,
  0xab1c5ed5, 0xd807aa98, 0x12835b01, 0x243185be, 0x550c7dc3, 0x72be5d74, 0x80deb1fe,
  0x9bdc06a7, 0xc19bf174, 0xe49b69c1, 0xefbe4786, 0x0fc19dc6, 0x240ca1cc, 0x2de92c6f,
  0x4a7484aa, 0x5cb0a9dc, 0x76f988da, 0x983e5152, 0xa831c66d, 0xb00327c8, 0xbf597fc7,
  0xc6e00bf3, 0xd5a79147, 0x06ca6351, 0x14292967, 0x27b70a85, 0x2e1b2138, 0x4d2c6dfc,
  0x53380d13, 0x650a7354, 0x766a0abb, 0x81c2c92e, 0x92722c85, 0xa2bfe8a1, 0xa81a664b,
  0xc24b8b70, 0xc76c51a3, 0xd192e819, 0xd6990624, 0xf40e3585, 0x106aa070, 0x19a4c116,
  0x1e376c08, 0x2748774c, 0x34b0bcb5, 0x391c0cb3, 0x4ed8aa4a, 0x5b9cca4f, 0x682e6ff3,
  0x748f82ee, 0x78a5636f, 0x84c87814, 0x8cc70208, 0x90befffa, 0xa4506ceb, 0xbef9a3f7,
  0xc67178f2]

def rotr (value : Word) (n : ℕ) : Word := value >>> n ||| value <<< (32 - n)

/-! ### Compression -/

/-- The word of a block that is read into the schedule. -/
def readWord (block : List Byte) (t : ℕ) : Word :=
  (block.getD (4 * t) 0).setWidth 32 <<< 24 ||| (block.getD (4 * t + 1) 0).setWidth 32 <<< 16
    ||| (block.getD (4 * t + 2) 0).setWidth 32 <<< 8 ||| (block.getD (4 * t + 3) 0).setWidth 32

/-- The schedule with its next word. -/
def extendSchedule (schedule : List Word) (t : ℕ) : List Word :=
  let w := fun i => schedule.getD i 0
  let s0 := rotr (w (t - 15)) 7 ^^^ rotr (w (t - 15)) 18 ^^^ w (t - 15) >>> 3
  let s1 := rotr (w (t - 2)) 17 ^^^ rotr (w (t - 2)) 19 ^^^ w (t - 2) >>> 10
  schedule ++ [w (t - 16) + s0 + w (t - 7) + s1]

def schedule (block : List Byte) : List Word :=
  (List.range' 16 48).foldl extendSchedule ((List.range 16).map (readWord block))

/-- The variables of the rounds. -/
structure Registers where
  a : Word
  b : Word
  c : Word
  d : Word
  e : Word
  f : Word
  g : Word
  h : Word
deriving DecidableEq

def round (schedule : List Word) (r : Registers) (t : ℕ) : Registers :=
  let bigS1 := rotr r.e 6 ^^^ rotr r.e 11 ^^^ rotr r.e 25
  let choose := (r.e &&& r.f) ^^^ (~~~r.e &&& r.g)
  let temp1 := r.h + bigS1 + choose + kRoundConstants.getD t 0 + schedule.getD t 0
  let bigS0 := rotr r.a 2 ^^^ rotr r.a 13 ^^^ rotr r.a 22
  let majority := (r.a &&& r.b) ^^^ (r.a &&& r.c) ^^^ (r.b &&& r.c)
  let temp2 := bigS0 + majority
  { h := r.g, g := r.f, f := r.e, e := r.d + temp1, d := r.c, c := r.b, b := r.a,
    a := temp1 + temp2 }

/-- The state after a block is added to it. -/
def compress (state : Registers) (block : List Byte) : Registers :=
  let r := (List.range 64).foldl (round (schedule block)) state
  { a := state.a + r.a, b := state.b + r.b, c := state.c + r.c, d := state.d + r.d,
    e := state.e + r.e, f := state.f + r.f, g := state.g + r.g, h := state.h + r.h }

/-! ### The hasher -/

structure Sha256 where
  state : Registers := ⟨0x6a09e667, 0xbb67ae85, 0x3c6ef372, 0xa54ff53a,
    0x510e527f, 0x9b05688c, 0x1f83d9ab, 0x5be0cd19⟩
  buffer : List Byte := List.replicate 64 0
  buffered : ℕ := 0
  totalBytes : BitVec 64 := 0
deriving DecidableEq

/-- Bytes copied into a buffer. -/
def memcpy (buffer : List Byte) (offset : ℕ) (bytes : List Byte) : List Byte :=
  buffer.take offset ++ bytes ++ buffer.drop (offset + bytes.length)

namespace Sha256

/-- One round of the loop of `update`: as many bytes as the buffer has space for. -/
def fill (s : Sha256) (bytes : List Byte) : Sha256 :=
  let filled := { s with
    buffer := memcpy s.buffer s.buffered bytes
    buffered := s.buffered + bytes.length }
  if filled.buffered = 64 then
    { filled with state := compress filled.state filled.buffer, buffered := 0 }
  else filled

/-- The loop of `update`. `fuel` bounds its rounds. -/
def absorb : ℕ → Sha256 → List Byte → Sha256
  | 0, s, _ => s
  | fuel + 1, s, data =>
    if data.isEmpty then s
    else
      let space := 64 - s.buffered
      let take := if data.length < space then data.length else space
      absorb fuel (s.fill (data.take take)) (data.drop take)

def update (s : Sha256) (data : List Byte) : Sha256 :=
  absorb data.length { s with totalBytes := s.totalBytes + BitVec.ofNat 64 data.length } data

/-- The zeros of the padding. `fuel` bounds their number. -/
def padZeros : ℕ → Sha256 → Sha256
  | 0, s => s
  | fuel + 1, s => if s.buffered ≠ 56 then padZeros fuel (s.update [0x00]) else s

def lengthBytes (bitLength : BitVec 64) : List Byte :=
  (List.range 8).map fun i => (bitLength >>> (56 - 8 * i)).setWidth 8

/-- The bytes of a word of the state. -/
def stateBytes (x : Word) : List Byte :=
  [(x >>> 24).setWidth 8, (x >>> 16).setWidth 8, (x >>> 8).setWidth 8, x.setWidth 8]

def finish (s : Sha256) : List Byte :=
  let bitLength := s.totalBytes * 8
  let padded := padZeros 64 (s.update [0x80])
  let state := compress padded.state (memcpy padded.buffer padded.buffered (lengthBytes bitLength))
  [state.a, state.b, state.c, state.d, state.e, state.f, state.g, state.h].flatMap stateBytes

end Sha256

def sha256 (data : List Byte) : List Byte := (Sha256.update {} data).finish

/-! ### HMAC -/

def blockSize : ℕ := 64

/-- The key in a block of zeros; a longer key is hashed first. -/
def paddedKey (key : List Byte) : List Byte :=
  memcpy (List.replicate blockSize 0) 0 (if blockSize < key.length then sha256 key else key)

def innerPad (key : List Byte) : List Byte := (paddedKey key).map (· ^^^ 0x36)

def outerPad (key : List Byte) : List Byte := (paddedKey key).map (· ^^^ 0x5c)

/-- The hash over the outer pad and the digest of the inner hasher. -/
def outerDigest (key : List Byte) (inner : Sha256) : List Byte :=
  ((Sha256.update {} (outerPad key)).update inner.finish).finish

def hmacSha256 (key message : List Byte) : List Byte :=
  outerDigest key ((Sha256.update {} (innerPad key)).update message)

def hexDigitByte (n : ℕ) : Byte := if n < 10 then BitVec.ofNat 8 (48 + n) else BitVec.ofNat 8 (87 + n)

def toHex (bytes : List Byte) : List Byte :=
  bytes.flatMap fun b => [hexDigitByte (b.toNat / 16), hexDigitByte (b.toNat % 16)]

end Junjo.Cpp
