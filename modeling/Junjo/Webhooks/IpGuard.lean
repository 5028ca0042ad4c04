import Junjo.Core.Addresses

/-!
# Public unicast addresses

`isPublicUnicastAddress` is the table of addresses that a webhook may be delivered to. It parses
the text of an address into bytes and refuses the reserved, private and special-use ranges. `isIP`
is Node's: 4 for a dotted quad without leading zeros, 6 for an IPv6 address with an optional zone,
and 0 for anything else.
-/

namespace Junjo.Webhooks

/-! ### `isIP` -/

/-- A number up to 255 without leading zeros. -/
def isQuadPart (part : Text) : Bool :=
  part.all isDigit && 1 ≤ part.length && part.length ≤ 3 &&
    (part.length = 1 || part.head? ≠ some 48) && readDigits 10 part ≤ 255

def isIPv4 (s : Text) : Bool :=
  (s.splitOn dot).length = 4 && (s.splitOn dot).all isQuadPart

def isHexGroup (group : Text) : Bool :=
  group.all isHexUnit && 1 ≤ group.length && group.length ≤ 4

/-- How many pieces groups stand for, the last of which may be a dotted quad. -/
def groupsWidth (quad : Bool) : List Text → Option ℕ
  | [] => some 0
  | [group] =>
    if isHexGroup group then some 1 else if quad && isIPv4 group then some 2 else none
  | group :: rest => if isHexGroup group then (groupsWidth quad rest).map (· + 1) else none

/-- The groups of a part between colons, none for the empty part. -/
def splitGroups (part : Text) : List Text := if part = [] then [] else part.splitOn colon

/-- A unit that may stand in a zone. -/
def isZoneUnit (c : CodeUnit) : Bool :=
  isDigit c || (97 ≤ c.val && c.val ≤ 122) || (65 ≤ c.val && c.val ≤ 90) || c = 45 || c = dot ||
    c = colon

def isIPv6 (s : Text) : Bool :=
  let body := s.takeWhile (· ≠ percent)
  let zone := s.dropWhile (· ≠ percent)
  (zone = [] || (2 ≤ zone.length && (zone.drop 1).all isZoneUnit)) &&
    match cutDouble body with
    | none => groupsWidth true (body.splitOn colon) = some 8
    | some (head, tail) =>
      match groupsWidth false (splitGroups head), groupsWidth true (splitGroups tail) with
      | some m, some n => m + n ≤ 7
      | _, _ => false

def isIP (s : Text) : ℕ := if isIPv4 s then 4 else if isIPv6 s then 6 else 0

/-! ### Parsing -/

def parseQuadPart (part : Text) : Option ℕ :=
  if part.all isDigit && 1 ≤ part.length && part.length ≤ 3 && readDigits 10 part ≤ 255 then
    some (readDigits 10 part)
  else none

def parseIpv4 (input : Text) : Option (List ℕ) :=
  if (input.splitOn dot).length = 4 then (input.splitOn dot).mapM parseQuadPart else none

/-- The bytes of one group. A dotted quad is only legal as the last one. -/
def groupBytes (last : Bool) (group : Text) : Option (List ℕ) :=
  if dot ∈ group then if last then parseIpv4 group else none
  else if isHexGroup group then
    some [readDigits 16 group / 256 % 256, readDigits 16 group % 256]
  else none

def pushGroups : List Text → Option (List ℕ)
  | [] => some []
  | group :: rest =>
    (groupBytes (rest = []) group).bind fun bytes => (pushGroups rest).map (bytes ++ ·)

def pushHextets (part : Text) : Option (List ℕ) :=
  if part = [] then some [] else pushGroups (part.splitOn colon)

/-- The 16 bytes of an IPv6 address. -/
def parseIpv6 (input : Text) : Option (List ℕ) :=
  let str := input.takeWhile (· ≠ percent)
  if str = [] then none
  else
    match cutDouble str with
    | none => (pushHextets str).filter fun head => head.length = 16
    | some (headPart, tailPart) =>
      -- a second `::`, which may share a colon with the first
      if (cutDouble (colon :: tailPart)).isSome then none
      else
        match pushHextets headPart, pushHextets tailPart with
        | some head, some tail =>
          if head.length + tail.length < 16 then
            some (head ++ List.replicate (16 - head.length - tail.length) 0 ++ tail)
          else none
        | _, _ => none

/-! ### The tables -/

def isPublicUnicastIpv4 (a b c : ℕ) : Bool :=
  if a = 0 then false
  else if a = 10 then false
  else if a = 100 ∧ 64 ≤ b ∧ b ≤ 127 then false
  else if a = 127 then false
  else if a = 169 ∧ b = 254 then false
  else if a = 172 ∧ 16 ≤ b ∧ b ≤ 31 then false
  else if a = 192 ∧ b = 0 ∧ c = 0 then false
  else if a = 192 ∧ b = 0 ∧ c = 2 then false
  else if a = 192 ∧ b = 88 ∧ c = 99 then false
  else if a = 192 ∧ b = 168 then false
  else if a = 198 ∧ (b = 18 ∨ b = 19) then false
  else if a = 198 ∧ b = 51 ∧ c = 100 then false
  else if a = 203 ∧ b = 0 ∧ c = 113 then false
  else if 224 ≤ a ∧ a ≤ 239 then false
  else if 240 ≤ a then false
  else true

def allZero (bytes : List ℕ) (start stop : ℕ) : Bool :=
  (List.range (stop - start)).all fun i => bytes[start + i]? = some 0

/-- The IPv4 table on the bytes at three places (the table does not look at the fourth byte). -/
def embeddedIsPublic (bytes : List ℕ) (i₀ i₁ i₂ : ℕ) : Bool :=
  isPublicUnicastIpv4 (bytes.getD i₀ 0) (bytes.getD i₁ 0) (bytes.getD i₂ 0)

def isPublicUnicastIpv6 (bytes : List ℕ) : Bool :=
  let byte i := bytes.getD i 0
  if allZero bytes 0 16 then false
  else if allZero bytes 0 15 && byte 15 = 1 then false
  else if allZero bytes 0 10 && byte 10 = 0xff && byte 11 = 0xff then
    embeddedIsPublic bytes 12 13 14
  else if byte 0 = 0 && byte 1 = 0x64 && byte 2 = 0xff && byte 3 = 0x9b && allZero bytes 4 12 then
    embeddedIsPublic bytes 12 13 14
  else if byte 0 = 0 && byte 1 = 0x64 && byte 2 = 0xff && byte 3 = 0x9b && byte 4 = 0 &&
      byte 5 = 1 then
    embeddedIsPublic bytes 6 7 9
  else if byte 0 = 1 && allZero bytes 1 8 then false
  else if byte 0 = 0x20 && byte 1 = 1 && byte 2 = 0x0d && byte 3 = 0xb8 then false
  else if byte 0 &&& 0xfe = 0xfc then false
  else if byte 0 = 0xfe && byte 1 &&& 0xc0 = 0x80 then false
  else if byte 0 = 0xff then false
  else true

def isPublicUnicastAddress (ip : Text) : Bool :=
  if isIP ip = 4 then
    match parseIpv4 ip with
    | some [a, b, c, _] => isPublicUnicastIpv4 a b c
    | _ => false
  else if isIP ip = 6 then
    match parseIpv6 ip with
    | some bytes => isPublicUnicastIpv6 bytes
    | none => false
  else false

end Junjo.Webhooks
