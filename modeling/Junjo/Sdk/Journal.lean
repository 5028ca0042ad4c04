import Junjo.Core.Crc32
import Junjo.Core.Dict
import Junjo.Core.Json
import Junjo.Core.Run
import Junjo.Core.Utf8

/-!
# The journal of the write queue

The bytes of the journal: one line for each record, with the CRC32 of its JSON text before it. What
a queue replays when it opens is read from these bytes, whatever a crash left of them.
-/

namespace Junjo.Journal

open Utf8 (Byte)

/-! ### Strings of the JVM -/

/-- The characters of a string, with `?` for an unpaired surrogate. -/
def writtenChars : Text → List Char
  | [] => []
  | [c] => [if 0xD800 ≤ c.val ∧ c.val ≤ 0xDFFF then '?' else Char.ofNat c.val]
  | c :: d :: rest =>
    if 0xD800 ≤ c.val ∧ c.val ≤ 0xDBFF ∧ 0xDC00 ≤ d.val ∧ d.val ≤ 0xDFFF then
      Char.ofNat (0x10000 + (c.val - 0xD800) * 1024 + (d.val - 0xDC00)) :: writtenChars rest
    else
      (if 0xD800 ≤ c.val ∧ c.val ≤ 0xDFFF then '?' else Char.ofNat c.val)
        :: writtenChars (d :: rest)

/-- `getBytes(UTF_8)` -/
def getBytes (t : Text) : List Byte := Utf8.encode (writtenChars t)

/-- `new String(bytes, UTF_8)` -/
def newString (bytes : List Byte) : Text :=
  let r := ({} : Utf8.Decoder).run bytes
  Utf8.utf16 (r.2 ++ r.1.flush)

/-- `Character.isWhitespace` -/
def isWhitespace (c : CodeUnit) : Bool :=
  (9 ≤ c.val && c.val ≤ 13) || (28 ≤ c.val && c.val ≤ 32) || c.val = 0x1680 ||
    (0x2000 ≤ c.val && c.val ≤ 0x200A && c.val ≠ 0x2007) || c.val = 0x2028 || c.val = 0x2029 ||
    c.val = 0x205F || c.val = 0x3000

def isBlank (t : Text) : Bool := t.all isWhitespace

/-! ### Lines -/

def lineFeed : CodeUnit := 10

def carriageReturn : CodeUnit := 13

def space : CodeUnit := 32

def leftBrace : CodeUnit := 123

def crcHexDigits : ℕ := 8

/-- `HexFormat.of().toHexDigits` of an `int`. -/
def toHexDigits (v : BitVec 32) : Text :=
  (List.range crcHexDigits).map fun i => hexDigit (v.toNat / 16 ^ (crcHexDigits - 1 - i) % 16)

def crc (json : Text) : Text := toHexDigits (Crc32.crc32 (getBytes json))

/-- The line of a JSON text, without its line feed. -/
def checkedLine (json : Text) : Text := crc json ++ space :: json

def line (json : Text) : Text := checkedLine json ++ [lineFeed]

/-- A `ChecksumException`, or another exception of reading a line. -/
inductive LineError
  | checksum
  | unreadable
deriving DecidableEq

/-- The JSON text of a line. Lines from before the checksums begin with a brace. -/
def checkedJson (raw : Text) : Except LineError Text :=
  if raw.head? = some leftBrace then .ok raw
  else if raw.length < crcHexDigits + 1 ∨ raw[crcHexDigits]? ≠ some space then .error .checksum
  else
    let json := raw.drop (crcHexDigits + 1)
    if crc json ≠ raw.take crcHexDigits then .error .checksum else .ok json

/-- The members of a JSON object. -/
abbrev JsonObject := List (Text × JsonValue)

def parseLine (parseString : Text → Option JsonValue) (raw : Text) :
    Except LineError JsonObject := do
  let json ← checkedJson raw
  match parseString json with
  | some (.obj o) => .ok o
  | _ => .error .unreadable

/-! ### Fields -/

/-- An optional string field; the outer option is the exception. -/
def optStr (o : JsonObject) (name : String) : Option (Option Text) :=
  match o.lookup (text name) with
  | none => some none
  | some .null => some none
  | some (.str t) => some (some t)
  | some _ => none

/-- A required string field. -/
def str (o : JsonObject) (name : String) : Option Text := (optStr o name).bind id

def optBool (o : JsonObject) (name : String) (fallback : Bool) : Option Bool :=
  match o.lookup (text name) with
  | none => some fallback
  | some .null => some fallback
  | some (.bool b) => some b
  | some _ => none

def optJson : Option Text → JsonValue
  | none => .null
  | some t => .str t

/-! ### Entries -/

def writeMethods : List Text := [text "POST", text "PUT", text "PATCH", text "DELETE"]

def pathStart : Text := text "/v1/"

/-- A write that the queue can persist. -/
structure QueuedWrite where
  method : Text
  path : Text
  body : Option Text
  ifMatch : Option Text
  lift : Bool
  label : Text
  method_mem : method ∈ writeMethods
  path_start : pathStart <+: path

/-- The constructor, which refuses other methods and paths and makes up a label. -/
def newQueuedWrite (method path : Text) (body ifMatch : Option Text) (lift : Bool)
    (label : Option Text) : Option QueuedWrite :=
  if h : method ∈ writeMethods ∧ pathStart <+: path then
    some ⟨method, path, body, ifMatch, lift, label.getD (method ++ [space] ++ path), h.1, h.2⟩
  else none

/-- One pending entry, with the time of its enqueue. -/
structure Entry (ι : Type) where
  id : Text
  idempotencyKey : Text
  write : QueuedWrite
  enqueuedAt : ι

/-- `Instant` of the JVM. -/
structure Instants (ι : Type) where
  toText : ι → Text
  parse : Text → Option ι
  epoch : ι
  parse_toText : ∀ t, parse (toText t) = some t

/-- A record of the journal. -/
inductive Record (ι : Type)
  | put (entry : Entry ι)
  | done (id outcome : Text)

section

variable {ι : Type} (instants : Instants ι)

def putObject (e : Entry ι) : JsonObject :=
  [(text "op", .str (text "put")), (text "id", .str e.id), (text "key", .str e.idempotencyKey),
    (text "method", .str e.write.method), (text "path", .str e.write.path),
    (text "body", optJson e.write.body), (text "ifMatch", optJson e.write.ifMatch),
    (text "lift", .bool e.write.lift), (text "label", .str e.write.label),
    (text "at", .str (instants.toText e.enqueuedAt))]

def doneObject (id outcome : Text) : JsonObject :=
  [(text "op", .str (text "done")), (text "id", .str id), (text "outcome", .str outcome)]

def Record.object : Record ι → JsonObject
  | .put e => putObject instants e
  | .done id outcome => doneObject id outcome

def entryFrom (o : JsonObject) : Option (Entry ι) := do
  let method ← str o "method"
  let path ← str o "path"
  let body ← optStr o "body"
  let ifMatch ← optStr o "ifMatch"
  let lift ← optBool o "lift" false
  let label ← optStr o "label"
  let write ← newQueuedWrite method path body ifMatch lift label
  let at? ← optStr o "at"
  let enqueuedAt ←
    match at? with
    | none => some instants.epoch
    | some t => instants.parse t
  let id ← str o "id"
  let idempotencyKey ← str o "key"
  some { id, idempotencyKey, write, enqueuedAt }

/-! ### Replay -/

inductive QuarantineReason
  | tornLine
  | checksumMismatch
  | unreadable
deriving DecidableEq

/-- A line in the dead-letter file. -/
structure Quarantined where
  reason : QuarantineReason
  lineNumber : ℕ
  line : Text
deriving DecidableEq

/-- What a replay has read. -/
structure Replay (ι : Type) where
  puts : Dict Text (Entry ι) := Dict.empty
  done : List Text := []
  quarantine : List Quarantined := []

def reasonOf (torn : Bool) (e : LineError) : QuarantineReason :=
  if torn then .tornLine
  else
    match e with
    | .checksum => .checksumMismatch
    | .unreadable => .unreadable

/-- A line that goes to the dead letters. -/
def Replay.refuse (s : Replay ι) (torn : Bool) (e : LineError) (number : ℕ) (raw : Text) :
    Replay ι :=
  { s with quarantine := s.quarantine ++ [⟨reasonOf torn e, number, raw⟩] }

def stripReturn (t : Text) : Text :=
  if t.getLast? = some carriageReturn then t.dropLast else t

variable (parseString : Text → Option JsonValue)

/-- The body of the loop, on the line with a number. -/
def readLine (torn : Bool) (number : ℕ) (l : Text) (s : Replay ι) : Replay ι :=
  let raw := stripReturn l
  if isBlank raw then s
  else
    match parseLine parseString raw with
    | .error e => s.refuse torn e number raw
    | .ok o =>
      match str o "op" with
      | none => s.refuse torn .unreadable number raw
      | some op =>
        if op = text "put" then
          match entryFrom instants o with
          | none => s.refuse torn .unreadable number raw
          | some e => { s with puts := s.puts.set e.id e }
        else if op = text "done" then
          match str o "id" with
          | none => s.refuse torn .unreadable number raw
          | some id => { s with done := s.done ++ [id] }
        else s

/-- The lines from one on. The last one is torn when no line feed ends it. -/
def readLines (endsClean : Bool) : ℕ → List Text → Replay ι → Replay ι
  | _, [], s => s
  | number, l :: lines, s =>
    readLines endsClean (number + 1) lines
      (readLine instants parseString (!endsClean && lines.isEmpty) number l s)

/-- The entries that are pending, in the order of their puts. -/
def Replay.pending (s : Replay ι) : List (Entry ι) :=
  (s.puts.entries.map Prod.snd).filter fun e => e.id ∉ s.done

def readFile (bytes : List Byte) : Replay ι :=
  let content := newString bytes
  let endsClean := content = [] || content.getLast? = some lineFeed
  let lines := content.splitOn lineFeed
  let count := if endsClean then lines.length - 1 else lines.length
  readLines instants parseString endsClean 1 (lines.take count) {}

/-- The pending entries and the quarantined lines of a journal. -/
def replay (bytes : List Byte) : List (Entry ι) × List Quarantined :=
  let s := readFile instants parseString bytes
  (s.pending, s.quarantine)

/-! ### The file -/

variable (toJson : JsonValue → Text)

def recordBytes (r : Record ι) : List Byte := getBytes (line (toJson (.obj (r.object instants))))

/-- The journal after some records. -/
def fileOf (records : List (Record ι)) : List Byte :=
  records.flatMap (recordBytes instants toJson)

/-- A journal on disk. A force covered its first `forced` bytes, and the queue takes the first
`durable` ones for covered. -/
structure Disk where
  bytes : List Byte := []
  opened : Bool := true
  forcing : Option ℕ := none
  durable : ℕ := 0
  forced : ℕ := 0

inductive DiskEvent (ι : Type)
  | append (record : Record ι)
  /-- A thread begins to force what is written. -/
  | startForce
  | endForce
  /-- The force fails. The one after the truncation may fail too. -/
  | rollBack
  /-- What was written past the last force may be lost, from any byte on. -/
  | crash (length : ℕ)
  /-- A queue opens the journal and replaces it by the pending entries, or fails to. -/
  | reopen (compacted : Bool)

def Disk.next (d : Disk) : DiskEvent ι → Option Disk
  | .append r =>
    if d.opened then some { d with bytes := d.bytes ++ recordBytes instants toJson r } else none
  | .startForce =>
    if d.opened ∧ d.forcing = none then some { d with forcing := some d.bytes.length } else none
  | .endForce =>
    if d.opened then
      d.forcing.map fun target => { d with forcing := none, durable := target, forced := target }
    else none
  | .rollBack =>
    if d.opened ∧ d.forcing ≠ none then
      some { d with bytes := d.bytes.take d.durable, forcing := none }
    else none
  | .crash length =>
    if d.forced ≤ length then some { d with bytes := d.bytes.take length, opened := false }
    else none
  | .reopen compacted =>
    if d.opened then none
    else if compacted then
      let bytes := fileOf instants toJson
        ((replay instants parseString d.bytes).1.map Record.put)
      some { bytes, durable := bytes.length, forced := bytes.length }
    else some { bytes := d.bytes, durable := d.bytes.length, forced := d.forced }

/-- The journal after some events. -/
def Disk.run (d : Disk) (events : List (DiskEvent ι)) : Option Disk :=
  runSteps (Disk.next instants parseString toJson) d events

end

end Junjo.Journal
