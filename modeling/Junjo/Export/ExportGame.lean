import Junjo.Core.Framing
import Junjo.Core.JsonText
import Junjo.Export.Records

/-!
# Reading an export

The text of each read is appended to a buffer, and every complete line of the buffer is accepted as
a record. A number of a record is kept by its text.
-/

namespace Junjo.Export

open Utf8 (Byte TextDecoder)

/-- Cap on one unterminated line, in code units. -/
def exportMaxLineChars : ℕ := 16 * 1024 * 1024

/-- What the iterator throws. -/
inductive ExportError
  | notJson
  | notObject
  | noKind
  | noHeader
  | afterEnd
  | lineTooLong
  | cutShort
  /-- The end record has no counts to list. -/
  | noCounts
  | countsDisagree (kind : Text)
deriving DecidableEq

/-- A record of a known kind, or one of a kind that is not known. -/
inductive ExportRecord
  | known (kind : Text) (value : JsonValue)
  | unknown (rawKind : Text) (record : JsonValue)

def ExportRecord.kind : ExportRecord → Text
  | known kind _ => kind
  | unknown _ _ => text "unknown"

/-- The kind a record is counted under. -/
def ExportRecord.counted : ExportRecord → Text
  | known kind _ => kind
  | unknown rawKind _ => rawKind

def ExportRecord.value : ExportRecord → JsonValue
  | known _ value => value
  | unknown _ record => record

/-- `KNOWN_KINDS` -/
def knownKinds : List Text :=
  text "header" :: ExportRecordKind.all.map ExportRecordKind.name ++ [text "end"]

/-- A property of an object. -/
def property (value : JsonValue) (key : Text) : Option JsonValue :=
  match value with
  | .obj entries => entries.lookup key
  | _ => none

def parseLine (line : Text) : Except ExportError ExportRecord :=
  match Json.parse line with
  | none => .error .notJson
  | some (.obj entries) =>
    match property (.obj entries) (text "kind") with
    | some (.str kind) =>
      if kind ∈ knownKinds then .ok (.known kind (.obj entries))
      else .ok (.unknown kind (.obj entries))
    | _ => .error .noKind
  | some _ => .error .notObject

/-- White space and line terminators. -/
def isWhiteSpace (c : CodeUnit) : Bool :=
  (9 ≤ c.val && c.val ≤ 13) || c = 32 || c = 0xA0 || c = 0x1680 || (0x2000 ≤ c.val && c.val ≤ 0x200A)
    || c = 0x2028 || c = 0x2029 || c = 0x202F || c = 0x205F || c = 0x3000 || c = 0xFEFF

/-- What is known of the stream so far, and the records handed over. -/
structure Reading where
  first : Bool := true
  ended : Option JsonValue := none
  seen : Dict Text ℕ := Dict.empty
  yielded : List ExportRecord := []

/-- `accept`, and the `yield` of the record it returns. -/
def Reading.accept (s : Reading) (line : Text) : Except ExportError Reading :=
  if line.all isWhiteSpace then .ok s
  else if s.ended.isSome then .error .afterEnd
  else
    match parseLine line with
    | .error e => .error e
    | .ok record =>
      if s.first ∧ record.kind ≠ text "header" then .error .noHeader
      else if record.kind = text "end" then
        .ok { s with first := false, ended := some record.value, yielded := s.yielded ++ [record] }
      else
        .ok { s with
          first := false
          seen := s.seen.set record.counted ((s.seen.get? record.counted).getD 0 + 1)
          yielded := s.yielded ++ [record] }

/-- What the buffer holds up to its first line feed, and what follows. -/
def cutLine : Text → Option (Text × Text)
  | [] => none
  | c :: rest => if c = 10 then some ([], rest) else (cutLine rest).map fun p => (c :: p.1, p.2)

/-- Accept the complete lines of the buffer, at most `fuel` of them. -/
def acceptLines : ℕ → Reading → Text → Reading × Text × Option ExportError
  | 0, s, buffer => (s, buffer, none)
  | fuel + 1, s, buffer =>
    match cutLine buffer with
    | none => (s, buffer, none)
    | some (line, rest) =>
      match s.accept line with
      | .error e => (s, rest, some e)
      | .ok s => acceptLines fuel s rest

/-- The entries of the counts: those of an object, or the items of an array or string by index. -/
def countEntries : Option JsonValue → Except ExportError (List (Text × JsonValue))
  | some (.obj entries) => .ok entries
  | some (.arr items) => .ok (items.zipIdx.map fun p => (decimal p.2, p.1))
  | some (.str t) => .ok (t.zipIdx.map fun p => (decimal p.2, .str [p.1]))
  | some (.num _) => .ok []
  | some (.bool _) => .ok []
  | some .null => .error .noCounts
  | none => .error .noCounts

def isCount (n : ℕ) : JsonValue → Bool
  | .num t => t = decimal n
  | _ => false

/-- The checks after the last read. -/
def Reading.check (s : Reading) : Option ExportError :=
  match s.ended with
  | none => some .cutShort
  | some record =>
    match countEntries (property record (text "counts")) with
    | .error e => some e
    | .ok entries =>
      (entries.find? fun entry => !isCount ((s.seen.get? entry.1).getD 0) entry.2).map fun entry =>
        .countsDisagree entry.1

/-- The last line, which may have no line feed, and the checks. -/
def Reading.finish (s : Reading) (last : Text) : Reading × Option ExportError :=
  match s.accept last with
  | .error e => (s, some e)
  | .ok s => (s, s.check)

def readFrom : List (List Byte) → TextDecoder → Text → Reading → Reading × Option ExportError
  | [], decoder, buffer, s => s.finish (buffer ++ decoder.decodeEnd)
  | value :: reads, decoder, buffer, s =>
    let r := decoder.decodeStream value
    let buffer := buffer ++ r.2
    match acceptLines buffer.length s buffer with
    | (s, _, some e) => (s, some e)
    | (s, buffer, none) =>
      if exportMaxLineChars < buffer.length then (s, some .lineTooLong)
      else readFrom reads r.1 buffer s

/-- `exportGame` over the reads of a body: the records handed over, and what it throws. -/
def exportGame (reads : List (List Byte)) : List ExportRecord × Option ExportError :=
  let r := readFrom reads {} [] {}
  (r.1.yielded, r.2)

end Junjo.Export
