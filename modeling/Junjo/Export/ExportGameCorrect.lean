import Junjo.Export.ExportGame
import Junjo.Export.RecordsCorrect

/-!
# An export is read back

`exportGame` gives the records of a complete export however its bytes are cut into reads. Of an
export that was cut short by more than its last line feed it gives the first records and then throws.
-/

namespace Junjo.Export

open IsoDate (Instant)
open Utf8 (Byte TextDecoder)

/-! ### Lines -/

section

variable {s t rest line : Text} {lines : List Text}

lemma cutLine_append_of_not_mem (h : 10 ∉ s) (t : Text) :
    cutLine (s ++ t) = (cutLine t).map fun p => (s ++ p.1, p.2) := by
  induction s with
  | nil => simp
  | cons c s ih =>
    rw [List.mem_cons, not_or] at h
    rw [List.cons_append, cutLine, if_neg (Ne.symm h.1), ih h.2, Option.map_map]
    rfl

lemma cutLine_eq_none_iff : cutLine s = none ↔ 10 ∉ s := by
  induction s with
  | nil => simp [cutLine]
  | cons c s ih =>
    rw [cutLine]
    by_cases hc : c = 10
    · simp [hc]
    · rw [if_neg hc, Option.map_eq_none_iff, ih, List.mem_cons, not_or]
      exact ⟨fun h => ⟨Ne.symm hc, h⟩, And.right⟩

lemma cutLine_line (h : 10 ∉ line) (rest : Text) :
    cutLine (line ++ 10 :: rest) = some (line, rest) := by
  rw [cutLine_append_of_not_mem h, cutLine, if_pos rfl, Option.map_some, List.append_nil]

lemma eq_of_cutLine (h : cutLine s = some (line, rest)) : s = line ++ 10 :: rest := by
  induction s generalizing line with
  | nil => cases h
  | cons c s ih =>
    rw [cutLine] at h
    split_ifs at h with hc
    · cases h
      rw [hc]
      rfl
    · obtain ⟨⟨l, r⟩, hlr, heq⟩ := Option.map_eq_some_iff.mp h
      obtain ⟨rfl, rfl⟩ := Prod.mk.inj heq
      rw [ih hlr]
      rfl

lemma stable_cutLine : Framing.Stable cutLine where
  append := by
    intro s line rest t h
    induction s generalizing line with
    | nil => cases h
    | cons c s ih =>
      rw [cutLine] at h
      rw [List.cons_append, cutLine]
      split_ifs at h ⊢
      · cases h
        rfl
      · obtain ⟨⟨l, r⟩, hlr, heq⟩ := Option.map_eq_some_iff.mp h
        obtain ⟨rfl, rfl⟩ := Prod.mk.inj heq
        rw [ih hlr]
        rfl
  shorter := by
    intro s line rest h
    rw [eq_of_cutLine h, List.length_append, List.length_cons]
    omega

/-- Lines with their line feeds. -/
def joinLines (lines : List Text) : Text := lines.flatMap (· ++ [10])

lemma joinLines_cons (line : Text) (lines : List Text) :
    joinLines (line :: lines) = line ++ 10 :: joinLines lines := by
  rw [joinLines, List.flatMap_cons, List.append_assoc]
  rfl

lemma drain_joinLines (hlines : ∀ line ∈ lines, 10 ∉ line) (hrest : 10 ∉ rest) :
    Framing.drain cutLine (joinLines lines ++ rest) = (lines, rest) := by
  induction lines with
  | nil => exact Framing.drain_of_none (cutLine_eq_none_iff.mpr hrest)
  | cons line lines ih =>
    rw [joinLines_cons, List.append_assoc, List.cons_append, Framing.drain_of_some stable_cutLine
      (cutLine_line (hlines line List.mem_cons_self) _),
      ih fun l hl => hlines l (List.mem_cons_of_mem _ hl)]

/-- What a buffer without a line feed holds is the start of a line or of what is left. -/
lemma exists_longer_line (h : 10 ∉ s) (t : Text) :
    ∃ line ∈ (Framing.drain cutLine (s ++ t)).1 ++ [(Framing.drain cutLine (s ++ t)).2],
      s.length ≤ line.length := by
  have hcut := cutLine_append_of_not_mem h t
  cases ht : cutLine t with
  | none =>
    rw [ht] at hcut
    rw [Framing.drain_of_none hcut]
    exact ⟨s ++ t, by simp, by simp⟩
  | some p =>
    rw [ht] at hcut
    rw [Framing.drain_of_some stable_cutLine hcut]
    exact ⟨s ++ p.1, by simp, by simp⟩

/-- The start of some lines: whole lines, and the start of one more. -/
lemma joinLines_start (h : s ++ t = joinLines lines) (ht : t ≠ []) :
    ∃ front line back p q, lines = front ++ line :: back ∧ s = joinLines front ++ p ∧
      line = p ++ q ∧ t = q ++ 10 :: joinLines back := by
  induction lines generalizing s with
  | nil => exact absurd (List.append_eq_nil_iff.mp h).2 ht
  | cons line lines ih =>
    rw [joinLines_cons] at h
    have hstart : ∀ q, line = s ++ q → t = q ++ 10 :: joinLines lines →
        ∃ front line' back p q, line :: lines = front ++ line' :: back ∧ s = joinLines front ++ p ∧
          line' = p ++ q ∧ t = q ++ 10 :: joinLines back :=
      fun q hq ht => ⟨[], line, lines, s, q, rfl, rfl, hq, ht⟩
    rcases List.append_eq_append_iff.mp h with ⟨q, hq, htq⟩ | ⟨q, rfl, hq⟩
    · exact hstart q hq htq
    · cases q with
      | nil => exact hstart [] (by simp) hq.symm
      | cons c q =>
        rw [List.cons_append, List.cons_eq_cons] at hq
        obtain ⟨rfl, hq⟩ := hq
        obtain ⟨front, line', back, p, q', rfl, rfl, hline, htail⟩ := ih hq.symm
        refine ⟨line :: front, line', back, p, q', rfl, ?_, hline, htail⟩
        rw [joinLines_cons, List.append_assoc, List.cons_append]

end

/-! ### Reads -/

/-- Accept lines up to the first that is refused. -/
def acceptAll : Reading → List Text → Reading × Option ExportError
  | r, [] => (r, none)
  | r, line :: lines =>
    match r.accept line with
    | .error e => (r, some e)
    | .ok r => acceptAll r lines

/-- What comes of all lines, and of what is left after them. -/
def acceptStream (r : Reading) (lines : List Text) (last : Text) : Reading × Option ExportError :=
  match acceptAll r lines with
  | (r, some e) => (r, some e)
  | (r, none) => r.finish last

lemma acceptAll_append (r : Reading) (a b : List Text) :
    acceptAll r (a ++ b) = match acceptAll r a with
      | (r, some e) => (r, some e)
      | (r, none) => acceptAll r b := by
  induction a generalizing r with
  | nil => rfl
  | cons line a ih =>
    rw [List.cons_append, acceptAll, acceptAll]
    cases haccept : r.accept line with
    | error e => rfl
    | ok r' => exact ih r'

lemma acceptStream_append (r : Reading) (a b : List Text) (last : Text) :
    acceptStream r (a ++ b) last = match acceptAll r a with
      | (r, some e) => (r, some e)
      | (r, none) => acceptStream r b last := by
  rw [acceptStream, acceptAll_append]
  rcases acceptAll r a with ⟨r', _ | e⟩
  · rfl
  · rfl

lemma acceptLines_eq (fuel : ℕ) (r : Reading) (buffer : Text) :
    ∃ rest, acceptLines fuel r buffer
        = ((acceptAll r (Framing.drainUpTo cutLine fuel buffer).1).1, rest,
          (acceptAll r (Framing.drainUpTo cutLine fuel buffer).1).2) ∧
      ((acceptAll r (Framing.drainUpTo cutLine fuel buffer).1).2 = none →
        rest = (Framing.drainUpTo cutLine fuel buffer).2) := by
  induction fuel generalizing r buffer with
  | zero => exact ⟨buffer, rfl, fun _ => rfl⟩
  | succ fuel ih =>
    rw [acceptLines, Framing.drainUpTo]
    cases hcut : cutLine buffer with
    | none => exact ⟨buffer, rfl, fun _ => rfl⟩
    | some p =>
      obtain ⟨line, rest⟩ := p
      dsimp only
      rw [acceptAll]
      cases haccept : r.accept line with
      | error e => exact ⟨rest, rfl, fun h => by cases h⟩
      | ok r' => exact ih r' rest

/-- Reads make up one text, unless some line of it is longer than the cap. -/
lemma readFrom_eq (reads : List (List Byte)) (decoder : TextDecoder) {buffer : Text}
    (hbuffer : 10 ∉ buffer) (r : Reading) :
    let d := Framing.drain cutLine (buffer ++ (decoder.decodeReads reads).2.flatten)
    readFrom reads decoder buffer r
        = acceptStream r d.1 (d.2 ++ (decoder.decodeReads reads).1.decodeEnd) ∨
      ((∃ line ∈ d.1 ++ [d.2], exportMaxLineChars < line.length) ∧
        ∃ front back r', d.1 = front ++ back ∧ acceptAll r front = (r', none) ∧
          readFrom reads decoder buffer r = (r', some .lineTooLong)) := by
  induction reads generalizing decoder buffer r with
  | nil =>
    left
    rw [readFrom, TextDecoder.decodeReads, List.flatten_nil, List.append_nil,
      Framing.drain_of_none (cutLine_eq_none_iff.mpr hbuffer)]
    rfl
  | cons value reads ih =>
    intro d
    have hd : d = Framing.drain cutLine (buffer ++ (decoder.decodeStream value).2 ++
        ((decoder.decodeStream value).1.decodeReads reads).2.flatten) := by
      rw [List.append_assoc]
      rfl
    rw [Framing.drain_append stable_cutLine] at hd
    have hrest := cutLine_eq_none_iff.mp
      (Framing.cut_drain stable_cutLine (buffer ++ (decoder.decodeStream value).2))
    obtain ⟨left, hlines, hleft⟩ := acceptLines_eq
      (buffer ++ (decoder.decodeStream value).2).length r (buffer ++ (decoder.decodeStream value).2)
    have hdrain : Framing.drainUpTo cutLine (buffer ++ (decoder.decodeStream value).2).length
        (buffer ++ (decoder.decodeStream value).2)
        = Framing.drain cutLine (buffer ++ (decoder.decodeStream value).2) := rfl
    rw [hdrain] at hlines hleft
    generalize Framing.drain cutLine (buffer ++ (decoder.decodeStream value).2) = d₁ at *
    rw [readFrom, TextDecoder.decodeReads]
    dsimp only
    rw [hlines, hd]
    dsimp only
    rw [acceptStream_append]
    cases hall : acceptAll r d₁.1 with
    | mk r' error =>
      rw [hall] at hleft
      cases error with
      | some e => exact Or.inl rfl
      | none =>
        obtain rfl := hleft rfl
        dsimp only
        by_cases hcap : exportMaxLineChars < d₁.2.length
        · right
          rw [if_pos hcap]
          obtain ⟨line, hline, hlength⟩ := exists_longer_line hrest
            ((decoder.decodeStream value).1.decodeReads reads).2.flatten
          refine ⟨⟨line, ?_, hcap.trans_le hlength⟩, d₁.1, _, r', rfl, hall, rfl⟩
          rw [List.append_assoc]
          exact List.mem_append_right _ hline
        · rw [if_neg hcap]
          rcases ih (decoder.decodeStream value).1 hrest r' with hread | ⟨⟨line, hline, hlong⟩, hstop⟩
          · exact Or.inl hread
          · right
            obtain ⟨front, back, r'', hsplit, haccept, hread⟩ := hstop
            refine ⟨⟨line, ?_, hlong⟩, d₁.1 ++ front, back, r'', ?_, ?_, hread⟩
            · rw [List.append_assoc]
              exact List.mem_append_right _ hline
            · rw [hsplit, List.append_assoc]
            · rw [acceptAll_append, hall]
              exact haccept

/-! ### Records -/

/-- A record as an export writes it. -/
structure Written where
  kind : Text
  value : JsonValue
  isRecord : IsRecord kind value
  known : kind ∈ knownKinds

namespace Written

variable {w : Written} {ws : List Written}

def line (w : Written) : Text := Json.stringify w.value

def record (w : Written) : ExportRecord := .known w.kind w.value

lemma line_eq (w : Written) : ∃ body, w.line = Json.leftBrace :: body := by
  obtain ⟨entries, hvalue⟩ := w.isRecord.kindFirst
  rw [line, hvalue]
  exact ⟨_, by rw [Json.stringify]⟩

lemma parseLine_line (w : Written) : parseLine w.line = .ok w.record := by
  have hvalid := w.isRecord.valid
  have hknown := w.known
  obtain ⟨entries, hvalue⟩ := w.isRecord.kindFirst
  rw [parseLine, line, Json.parse_stringify hvalid, hvalue]
  dsimp only
  rw [property, List.lookup_cons_self]
  dsimp only
  rw [if_pos hknown, record, hvalue]

lemma printable_line (w : Written) : Json.Printable w.line := Json.printable_stringify w.isRecord.valid

lemma not_blank_line {s : Text} (h : ∃ body, s = Json.leftBrace :: body) : s.all isWhiteSpace = false := by
  obtain ⟨body, rfl⟩ := h
  rw [List.all_cons]
  have hbrace : isWhiteSpace Json.leftBrace = false := by decide
  rw [hbrace, Bool.false_and]

/-- The records of each kind that are counted. -/
def seenOf (ws : List Written) : Dict Text ℕ :=
  ws.foldl (fun seen w => seen.set w.kind ((seen.get? w.kind).getD 0 + 1)) Dict.empty

lemma get?_seenOf (ws : List Written) (kind : Text) :
    ((seenOf ws).get? kind).getD 0 = (ws.map Written.kind).count kind := by
  have hfrom : ∀ (seen : Dict Text ℕ),
      ((ws.foldl (fun seen w => seen.set w.kind ((seen.get? w.kind).getD 0 + 1)) seen).get? kind).getD 0
        = (seen.get? kind).getD 0 + (ws.map Written.kind).count kind := by
    induction ws with
    | nil => simp
    | cons w ws ih =>
      intro seen
      rw [List.foldl_cons, ih, Dict.get?_set, List.map_cons, List.count_cons]
      by_cases hkind : kind = w.kind
      · subst hkind
        rw [if_pos rfl, if_pos (beq_self_eq_true _), Option.getD_some]
        omega
      · rw [if_neg hkind, if_neg (by simpa using Ne.symm hkind)]
        rfl
  rw [seenOf, hfrom, Dict.get?_empty, Option.getD_none, Nat.zero_add]

/-- What is known after some records, none of them the end record. -/
def reading (ws : List Written) : Reading :=
  { first := ws.isEmpty, seen := seenOf ws, yielded := ws.map record }

/-- A record is accepted where the header is the first. -/
lemma accept_line (hfirst : ws = [] → w.kind = text "header") (hend : w.kind ≠ text "end") :
    (reading ws).accept w.line = .ok (reading (ws ++ [w])) := by
  have hheader : ¬ ((reading ws).first ∧ w.record.kind ≠ text "header") := by
    rintro ⟨hempty, hkind⟩
    exact hkind (hfirst (List.isEmpty_iff.mp hempty))
  rw [Reading.accept, not_blank_line w.line_eq, if_neg Bool.false_ne_true, parseLine_line,
    if_neg (show ¬ (reading ws).ended.isSome by exact Bool.false_ne_true)]
  dsimp only
  rw [if_neg hheader, if_neg (show w.record.kind ≠ text "end" from hend)]
  simp [reading, seenOf, record, ExportRecord.counted]

lemma acceptAll_lines (front ws : List Written)
    (hfirst : ∀ w, (front ++ ws).head? = some w → w.kind = text "header")
    (hend : ∀ w ∈ ws, w.kind ≠ text "end") :
    acceptAll (reading front) (ws.map line) = (reading (front ++ ws), none) := by
  induction ws generalizing front with
  | nil => rw [List.append_nil]; rfl
  | cons w ws ih =>
    have haccept : (reading front).accept w.line = .ok (reading (front ++ [w])) := by
      refine accept_line ?_ (hend w List.mem_cons_self)
      rintro rfl
      exact hfirst w rfl
    rw [List.map_cons, acceptAll, haccept]
    dsimp only
    have hcons : front ++ w :: ws = front ++ [w] ++ ws := List.append_cons front w ws
    rw [hcons] at hfirst ⊢
    exact ih (front ++ [w]) hfirst fun v hv => hend v (List.mem_cons_of_mem _ hv)

/-- Nothing more, before the end record. -/
lemma finish_nil (ws : List Written) : (reading ws).finish [] = (reading ws, some .cutShort) := rfl

/-- The start of a line is refused. -/
lemma finish_start {p q : Text} (hline : w.line = p ++ q) (hp : p ≠ []) (hq : q ≠ []) :
    (reading ws).finish p = (reading ws, some .notJson) := by
  obtain ⟨body, hbody⟩ := w.line_eq
  have hhead : ∃ body, p = Json.leftBrace :: body := by
    obtain ⟨c, p, rfl⟩ := List.exists_cons_of_ne_nil hp
    rw [hline, List.cons_append] at hbody
    exact ⟨p, by rw [(List.cons_eq_cons.mp hbody).1]⟩
  have hobj : (Json.stringify w.value).head? = some Json.leftBrace := by
    have hstringify : Json.stringify w.value = Json.leftBrace :: body := hbody
    rw [hstringify]
    rfl
  have hparse : parseLine p = .error .notJson := by
    rw [parseLine, Json.parse_start w.isRecord.valid hobj hline.symm hq]
  rw [Reading.finish, Reading.accept, not_blank_line hhead, if_neg Bool.false_ne_true, hparse,
    if_neg (show ¬ (reading ws).ended.isSome by exact Bool.false_ne_true)]

/-- So is one that was cut inside a character. -/
lemma finish_cut {p q : Text} (hline : w.line = p ++ q) (hp : p ≠ []) :
    (reading ws).finish (p ++ [0xFFFD]) = (reading ws, some .notJson) := by
  obtain ⟨body, hbody⟩ := w.line_eq
  obtain ⟨c, p, rfl⟩ := List.exists_cons_of_ne_nil hp
  rw [hline, List.cons_append] at hbody
  obtain rfl := (List.cons_eq_cons.mp hbody).1
  have hparse : parseLine (Json.leftBrace :: p ++ [0xFFFD]) = .error .notJson := by
    rw [parseLine, Json.parse_object_concat (by decide) (by decide)]
  rw [Reading.finish, Reading.accept, not_blank_line ⟨_, List.cons_append⟩,
    if_neg Bool.false_ne_true, hparse,
    if_neg (show ¬ (reading ws).ended.isSome by exact Bool.false_ne_true)]

/-- A whole line that is not the end record, and nothing after it. -/
lemma finish_line (hfirst : ws = [] → w.kind = text "header") (hend : w.kind ≠ text "end") :
    (reading ws).finish w.line = (reading (ws ++ [w]), some .cutShort) := by
  rw [Reading.finish, accept_line hfirst hend]
  rfl

end Written

/-- A complete export: a header, records, and an end record with their counts. -/
structure CompleteExport where
  header : Written
  body : List Written
  last : Written
  counts : ExportRecordKind → ℕ
  header_kind : header.kind = text "header"
  body_kind : ∀ w ∈ body, ∃ kind : ExportRecordKind, w.kind = kind.name
  last_kind : last.kind = text "end"
  last_value : last.value = endRecord counts
  counts_eq : ∀ kind : ExportRecordKind, counts kind = (body.map Written.kind).count kind.name

namespace CompleteExport

variable (x : CompleteExport)

def written : List Written := x.header :: x.body ++ [x.last]

/-- The text of the export. -/
def text : Text := joinLines (x.written.map Written.line)

def records : List ExportRecord := x.written.map Written.record

lemma name_ne_end (kind : ExportRecordKind) : kind.name ≠ Junjo.text "end" := by
  cases kind <;> decide

lemma name_ne_header (kind : ExportRecordKind) : kind.name ≠ Junjo.text "header" := by
  cases kind <;> decide

/-- No record before the last is the end record. -/
lemma kind_ne_end {w : Written} (h : w ∈ x.header :: x.body) : w.kind ≠ Junjo.text "end" := by
  rcases List.mem_cons.mp h with rfl | h
  · rw [x.header_kind]
    decide
  · obtain ⟨kind, hkind⟩ := x.body_kind w h
    rw [hkind]
    exact name_ne_end kind

lemma not_mem_lines {line : Text} (h : line ∈ x.written.map Written.line) : 10 ∉ line := by
  obtain ⟨w, -, rfl⟩ := List.mem_map.mp h
  intro hmem
  have hge := w.printable_line.ge 10 hmem
  exact absurd hge (by decide)

lemma seen_kind (kind : ExportRecordKind) :
    ((Written.seenOf (x.header :: x.body)).get? kind.name).getD 0 = x.counts kind := by
  rw [Written.get?_seenOf, List.map_cons, List.count_cons_of_ne, x.counts_eq]
  rw [x.header_kind]
  exact (name_ne_header kind).symm

/-- The end record is accepted after the others, and its counts agree. -/
lemma accept_last :
    ∃ r, (Written.reading (x.header :: x.body)).accept x.last.line = .ok r ∧
      r.yielded = x.records ∧ r.finish [] = (r, none) := by
  refine ⟨{ first := false, ended := some x.last.value, seen := Written.seenOf (x.header :: x.body),
            yielded := (x.header :: x.body).map Written.record ++ [x.last.record] }, ?_, ?_, ?_⟩
  · rw [Reading.accept, Written.not_blank_line x.last.line_eq, if_neg Bool.false_ne_true,
      Written.parseLine_line, if_neg (show ¬ (Written.reading (x.header :: x.body)).ended.isSome by
        exact Bool.false_ne_true)]
    dsimp only
    rw [if_neg (show ¬ ((Written.reading (x.header :: x.body)).first ∧
        x.last.record.kind ≠ Junjo.text "header") by exact fun h => Bool.false_ne_true h.1),
      if_pos (show x.last.record.kind = Junjo.text "end" from x.last_kind)]
    rfl
  · simp [records, written]
  · have hcounts : property (endRecord x.counts) (Junjo.text "counts")
        = some (.obj (ExportRecordKind.all.map fun kind =>
          (kind.name, JsonValue.num (decimal (x.counts kind))))) := by
      have hne : (Junjo.text "counts" == Junjo.text "kind") = false := by decide
      simp [property, endRecord, object, List.lookup, hne]
    rw [Reading.finish, Reading.accept, if_pos (by rfl)]
    dsimp only
    rw [Reading.check]
    dsimp only
    rw [x.last_value, hcounts, countEntries]
    dsimp only
    rw [List.find?_eq_none.mpr]
    · rfl
    · intro entry hentry
      obtain ⟨kind, -, rfl⟩ := List.mem_map.mp hentry
      rw [x.seen_kind kind]
      simp [isCount]

/-- The whole text gives every record. -/
lemma acceptStream_text :
    ∃ r, acceptStream {} (x.written.map Written.line) [] = (r, none) ∧ r.yielded = x.records := by
  obtain ⟨r, haccept, hyielded, hfinish⟩ := x.accept_last
  have hall := Written.acceptAll_lines [] (x.header :: x.body)
    (by rintro w hw; cases hw; exact x.header_kind) fun w hw => x.kind_ne_end hw
  refine ⟨r, ?_, hyielded⟩
  rw [written, List.map_append, acceptStream_append, show ({} : Reading) = Written.reading [] from rfl,
    hall]
  dsimp only
  rw [List.nil_append, acceptStream, List.map_singleton, acceptAll, haccept]
  exact hfinish

/-- The text of an export is a text of whole characters that begins with a brace. -/
lemma text_chars : ∃ chars, x.text = Utf8.utf16 chars ∧ chars.head? ≠ some Utf8.byteOrderMark := by
  have hjoin : ∀ ws : List Written, ∃ chars, joinLines (ws.map Written.line) = Utf8.utf16 chars := by
    intro ws
    induction ws with
    | nil => exact ⟨[], rfl⟩
    | cons w ws ih =>
      obtain ⟨front, hfront, -⟩ := w.printable_line
      obtain ⟨back, hback⟩ := ih
      refine ⟨front ++ '\n' :: back, ?_⟩
      rw [List.map_cons, joinLines_cons, hfront, hback]
      simp [Utf8.utf16, Utf8.utf16Char]
  obtain ⟨chars, hchars⟩ := hjoin x.written
  refine ⟨chars, hchars, ?_⟩
  intro hmark
  obtain ⟨body, hbody⟩ := x.header.line_eq
  rw [written, List.cons_append, List.map_cons, joinLines_cons, hbody] at hchars
  cases chars with
  | nil => cases hmark
  | cons c tail =>
    obtain rfl : c = Utf8.byteOrderMark := by simpa using hmark
    have hlength := Utf8.length_encodeChar_of_utf16 hchars.symm (by decide)
    exact absurd hlength (by decide)

/-- The reads of a complete export, none of whose lines is too long. -/
lemma exportGame_text {reads : List (List Byte)} (hreads : reads.flatten = Utf8.encodeText x.text)
    (hcap : ∀ w ∈ x.written, w.line.length ≤ exportMaxLineChars) :
    exportGame reads = (x.records, none) := by
  obtain ⟨chars, hchars, hmark⟩ := x.text_chars
  obtain ⟨r, haccept, hyielded⟩ := x.acceptStream_text
  rw [hchars, Utf8.encodeText_utf16] at hreads
  have htexts : (({} : TextDecoder).decodeReads reads).2.flatten = x.text := by
    rw [Utf8.decodeReads_flatten, hreads, Utf8.decodeStream_encode, Utf8.dropMark_of_head hmark, hchars]
  have hend : (({} : TextDecoder).decodeReads reads).1.decodeEnd = [] := by
    rw [Utf8.decodeReads_state, hreads, Utf8.decodeStream_encode]
    rfl
  have hdrain : Framing.drain cutLine ([] ++ (({} : TextDecoder).decodeReads reads).2.flatten)
      = (x.written.map Written.line, []) := by
    have hlines : Framing.drain cutLine (joinLines (x.written.map Written.line) ++ [])
        = (x.written.map Written.line, []) :=
      drain_joinLines (fun line hline => x.not_mem_lines hline) List.not_mem_nil
    rwa [List.append_nil, ← text, ← htexts] at hlines
  rcases readFrom_eq reads {} (show (10 : CodeUnit) ∉ ([] : Text) from List.not_mem_nil)
    {} with hread | ⟨⟨line, hline, hlong⟩, -⟩
  · rw [hdrain, hend, List.append_nil, haccept] at hread
    rw [exportGame, hread, hyielded]
  · rw [hdrain] at hline
    rcases List.mem_append.mp hline with hline | hline
    · obtain ⟨w, hw, rfl⟩ := List.mem_map.mp hline
      exact absurd (hcap w hw) (not_le.mpr hlong)
    · rw [List.mem_singleton.mp hline] at hlong
      exact absurd hlong (Nat.not_lt_zero _)

/-- A start of the export: the records before some record, and the start of its line. -/
lemma written_start {front back : List Text} {line : Text}
    (h : x.written.map Written.line = front ++ line :: back) :
    ∃ ws w bs, x.written = ws ++ w :: bs ∧ front = ws.map Written.line ∧ line = w.line ∧
      back = bs.map Written.line ∧ (∀ v ∈ ws, v.kind ≠ Junjo.text "end") ∧
      (∀ v, (ws ++ [w]).head? = some v → v.kind = Junjo.text "header") ∧
      (bs ≠ [] → w.kind ≠ Junjo.text "end") := by
  obtain ⟨ws, rest, hsplit, rfl, hrest⟩ := List.map_eq_append_iff.mp h
  obtain ⟨w, bs, rfl, rfl, rfl⟩ := List.map_eq_cons_iff.mp hrest
  have hbefore : ∀ v ∈ ws, v ∈ x.header :: x.body := by
    intro v hv
    have hdrop := congrArg List.dropLast hsplit
    rw [written, List.dropLast_concat, List.dropLast_append_of_ne_nil (List.cons_ne_nil _ _)] at hdrop
    rw [hdrop]
    exact List.mem_append_left _ hv
  refine ⟨ws, w, bs, hsplit, rfl, rfl, rfl, fun v hv => x.kind_ne_end (hbefore v hv), ?_, ?_⟩
  · intro v hv
    have hhead : x.written.head? = some v := by
      rw [hsplit]
      cases ws <;> exact hv
    obtain rfl : x.header = v := Option.some.inj hhead
    exact x.header_kind
  · intro hbs
    apply x.kind_ne_end
    have hdrop := congrArg List.dropLast hsplit
    rw [written, List.dropLast_concat, List.dropLast_append_of_ne_nil (List.cons_ne_nil _ _),
      List.dropLast_cons_of_ne_nil hbs] at hdrop
    rw [hdrop]
    exact List.mem_append_right _ List.mem_cons_self

lemma take_records {ws : List Written} (h : ws <+: x.written) :
    ws.map Written.record = x.records.take ws.length := by
  obtain ⟨rest, hrest⟩ := h
  rw [records, ← hrest, List.map_append, List.take_left' (List.length_map _)]

/-- Whole lines before the last, and the start of one more that is not all of the text but its last
line feed. -/
lemma acceptStream_start {front back : List Text} {p q tail : Text}
    (h : x.written.map Written.line = front ++ (p ++ q) :: back)
    (htail : (tail = [] ∧ (q ≠ [] ∨ back ≠ [])) ∨ (tail = [0xFFFD] ∧ p ≠ [])) :
    ∃ k e r, acceptStream {} front (p ++ tail) = (r, some e) ∧ r.yielded = x.records.take k := by
  obtain ⟨ws, w, bs, hsplit, rfl, hline, rfl, hend, hheader, hlast⟩ := x.written_start h
  have hws : ws <+: x.written := ⟨w :: bs, hsplit.symm⟩
  have hall : acceptAll {} (ws.map Written.line) = (Written.reading ws, none) := by
    refine Written.acceptAll_lines [] ws ?_ hend
    intro v hv
    apply hheader
    rw [List.nil_append] at hv
    rw [List.head?_append, hv]
    rfl
  rw [acceptStream, hall]
  dsimp only
  rcases htail with ⟨rfl, hmore⟩ | ⟨rfl, hp⟩
  · rw [List.append_nil]
    by_cases hp : p = []
    · subst hp
      exact ⟨ws.length, _, _, Written.finish_nil ws, x.take_records hws⟩
    · by_cases hq : q = []
      · subst hq
        have hbs : bs ≠ [] := by
          rintro rfl
          exact hmore.elim (fun hne => hne rfl) fun hne => hne rfl
        rw [List.append_nil] at hline
        have hfirst : ws = [] → w.kind = Junjo.text "header" := by
          rintro rfl
          exact hheader w rfl
        rw [hline, Written.finish_line hfirst (hlast hbs)]
        refine ⟨(ws ++ [w]).length, _, _, rfl, x.take_records ⟨bs, ?_⟩⟩
        rw [hsplit, List.append_assoc, List.singleton_append]
      · exact ⟨ws.length, _, _, Written.finish_start hline.symm hp hq, x.take_records hws⟩
  · exact ⟨ws.length, _, _, Written.finish_cut hline.symm hp, x.take_records hws⟩

/-- The lines that were accepted before a line was too long. -/
lemma acceptAll_start {front back : List Text} {line : Text}
    (h : x.written.map Written.line = front ++ line :: back) {lines lines' : List Text}
    (hlines : front = lines ++ lines') {r : Reading} (haccept : acceptAll {} lines = (r, none)) :
    ∃ k, r.yielded = x.records.take k := by
  obtain ⟨ws, w, bs, hsplit, hfront, -, -, hend, hheader, -⟩ := x.written_start h
  rw [hlines] at hfront
  obtain ⟨ws₁, ws₂, rfl, rfl, rfl⟩ := List.map_eq_append_iff.mp hfront.symm
  have hall : acceptAll {} (ws₁.map Written.line) = (Written.reading ws₁, none) := by
    refine Written.acceptAll_lines [] ws₁ ?_ fun v hv => hend v (List.mem_append_left _ hv)
    intro v hv
    apply hheader
    rw [List.nil_append] at hv
    rw [List.append_assoc, List.head?_append, hv]
    rfl
  rw [hall] at haccept
  cases haccept
  refine ⟨ws₁.length, x.take_records ⟨ws₂ ++ w :: bs, ?_⟩⟩
  rw [hsplit, List.append_assoc]

/-- Of an export that was cut short by more than its last line feed, the first records, then a
throw. -/
lemma exportGame_start {reads : List (List Byte)} {rest : List Byte}
    (hreads : reads.flatten ++ rest = Utf8.encodeText x.text) (hrest : 1 < rest.length) :
    ∃ k e, exportGame reads = (x.records.take k, some e) := by
  obtain ⟨chars, hchars, hmark⟩ := x.text_chars
  rw [hchars, Utf8.encodeText_utf16] at hreads
  obtain ⟨front, back, rfl, hout, hstate⟩ := Utf8.run_start hreads
  have hfront : Utf8.dropMark front = front := by
    apply Utf8.dropMark_of_head
    cases front with
    | nil => exact fun h => by cases h
    | cons c front => exact hmark
  have hstream : (({} : TextDecoder).decodeStream reads.flatten)
      = ({ decoder := (Utf8.Decoder.run {} reads.flatten).1, bomSeen := !front.isEmpty },
        Utf8.utf16 front) := by
    rw [TextDecoder.decodeStream, hout]
    dsimp only
    rw [if_neg Bool.false_ne_true, hfront, Bool.false_or]
  have htexts : (({} : TextDecoder).decodeReads reads).2.flatten = Utf8.utf16 front := by
    rw [Utf8.decodeReads_flatten, hstream]
  have happend : Utf8.utf16 front ++ Utf8.utf16 back = x.text := by
    rw [hchars, Utf8.utf16, Utf8.utf16, Utf8.utf16, List.flatMap_append]
  have hencode : Utf8.encode (front ++ back) = Utf8.encode front ++ Utf8.encode back :=
    List.flatMap_append
  have hback : back ≠ [] := by
    rintro rfl
    rcases hstate with ⟨-, hbytes⟩ | ⟨-, c, tail, a, hnil, -⟩
    · rw [List.append_nil, hbytes] at hreads
      rw [List.append_right_eq_self.mp hreads] at hrest
      exact absurd hrest (by decide)
    · cases hnil
  have hne : Utf8.utf16 back ≠ [] := by
    intro hnil
    exact hback (Utf8.utf16_injective hnil)
  obtain ⟨lines, line, more, p, q, hlines, hp, rfl, hq⟩ := joinLines_start happend hne
  have hnot : ∀ line ∈ lines ++ (p ++ q) :: more, 10 ∉ line := by
    intro line hline
    rw [← hlines] at hline
    exact x.not_mem_lines hline
  have hnotp : 10 ∉ p := by
    intro hmem
    exact hnot (p ++ q) (List.mem_append_right _ List.mem_cons_self) (List.mem_append_left _ hmem)
  have hdrain : Framing.drain cutLine ([] ++ (({} : TextDecoder).decodeReads reads).2.flatten)
      = (lines, p) := by
    rw [List.nil_append, htexts, hp]
    exact drain_joinLines (fun line hline => hnot line (List.mem_append_left _ hline)) hnotp
  have hend : (({} : TextDecoder).decodeReads reads).1.decodeEnd
      = Utf8.utf16 (Utf8.Decoder.run {} reads.flatten).1.flush := by
    rw [Utf8.decodeReads_state, hstream]
    rfl
  have htail : (Utf8.utf16 (Utf8.Decoder.run {} reads.flatten).1.flush = [] ∧ (q ≠ [] ∨ more ≠ [])) ∨
      (Utf8.utf16 (Utf8.Decoder.run {} reads.flatten).1.flush = [0xFFFD] ∧ p ≠ []) := by
    rcases hstate with ⟨hneeded, hbytes⟩ | ⟨hneeded, c, tail, a, rfl, -, ha, hlength⟩
    · left
      refine ⟨by rw [Utf8.Decoder.flush, if_pos hneeded]; rfl, ?_⟩
      by_contra hnone
      rw [not_or, not_not, not_not] at hnone
      obtain ⟨rfl, rfl⟩ := hnone
      have hline : back = ['\n'] := Utf8.utf16_injective hq
      rw [hencode, hbytes, List.append_cancel_left_eq, hline] at hreads
      rw [hreads] at hrest
      exact absurd hrest (by decide)
    · right
      refine ⟨by rw [Utf8.Decoder.flush, if_neg hneeded]; rfl, ?_⟩
      rintro rfl
      obtain ⟨ws, w, bs, -, -, hline, -⟩ := x.written_start hlines
      obtain ⟨body, hbody⟩ := w.line_eq
      rw [List.nil_append] at hline
      rw [hline, hbody] at hq
      have hone := Utf8.length_encodeChar_of_utf16 hq (by decide)
      rw [hone] at hlength
      exact ha (List.length_eq_zero_iff.mp (Nat.lt_one_iff.mp hlength))
  rcases readFrom_eq reads {} (show (10 : CodeUnit) ∉ ([] : Text) from List.not_mem_nil) {} with
    hread | ⟨-, first, others, r, hfirst, haccept, hread⟩
  · obtain ⟨k, e, r, hr, hyielded⟩ := x.acceptStream_start hlines htail
    rw [hdrain, hend, hr] at hread
    rw [exportGame, hread]
    exact ⟨k, e, by rw [hyielded]⟩
  · rw [hdrain] at hfirst
    obtain ⟨k, hyielded⟩ := x.acceptAll_start hlines hfirst haccept
    rw [exportGame, hread]
    exact ⟨k, _, by rw [hyielded]⟩

end CompleteExport

/-! ### The export of a game -/

/-- The records of an export, in order. -/
def exportedRecords (header : JsonValue) (rows : ExportRecordKind → List JsonValue) :
    List ExportRecord :=
  .known (text "header") header
    :: ExportRecordKind.all.flatMap (fun kind => (rows kind).map (.known kind.name))
    ++ [.known (text "end") (endRecord fun kind => (rows kind).length)]

section

variable {rows : ExportRecordKind → List JsonValue}
  (hrows : ∀ kind, ∀ v ∈ rows kind, IsRecord (ExportRecordKind.name kind) v)

lemma name_mem_knownKinds (kind : ExportRecordKind) : kind.name ∈ knownKinds := by
  rw [knownKinds]
  exact List.mem_append_left _ (List.mem_cons_of_mem _ (List.mem_map_of_mem (mem_all kind)))

/-- The records between the header and the end record. -/
def writtenRows : List Written :=
  ExportRecordKind.all.flatMap fun kind =>
    (rows kind).pmap (fun v h => ⟨kind.name, v, h, name_mem_knownKinds kind⟩) (hrows kind)

lemma map_pmap_rows {β : Type} (f : Written → β) (g : ExportRecordKind → JsonValue → β)
    (hfg : ∀ kind v h, f ⟨kind.name, v, h, name_mem_knownKinds kind⟩ = g kind v) :
    (writtenRows hrows).map f = ExportRecordKind.all.flatMap fun kind => (rows kind).map (g kind) := by
  rw [writtenRows, List.map_flatMap]
  apply List.flatMap_congr
  intro kind _
  rw [List.map_pmap]
  simp only [hfg]
  exact List.pmap_eq_map _

lemma name_injective : Function.Injective ExportRecordKind.name := by
  intro a b h
  revert h
  cases a <;> cases b <;> decide

lemma count_writtenRows (kind : ExportRecordKind) :
    ((writtenRows hrows).map Written.kind).count kind.name = (rows kind).length := by
  have hcount : ∀ kinds : List ExportRecordKind, kinds.Nodup →
      (kinds.flatMap fun k => (rows k).map fun _ => k.name).count kind.name
        = if kind ∈ kinds then (rows kind).length else 0 := by
    intro kinds hkinds
    induction kinds with
    | nil => rfl
    | cons k kinds ih =>
      obtain ⟨hk, hkinds⟩ := List.nodup_cons.mp hkinds
      rw [List.flatMap_cons, List.count_append, ih hkinds, List.map_const', List.count_replicate]
      by_cases heq : k = kind
      · subst heq
        simp [hk]
      · have hname : (k.name == kind.name) = false := by
          rw [beq_eq_false_iff_ne]
          exact fun h => heq (name_injective h)
        rw [hname]
        simp [Ne.symm heq]
  rw [map_pmap_rows hrows Written.kind (fun kind _ => kind.name) fun _ _ _ => rfl,
    hcount _ all_nodup, if_pos (mem_all kind)]

/-- The export whose rows are these. -/
def completeExport (header : JsonValue) (hheader : IsRecord (text "header") header) :
    CompleteExport where
  header := ⟨text "header", header, hheader, List.mem_cons_self⟩
  body := writtenRows hrows
  last := ⟨text "end", endRecord fun kind => (rows kind).length, isRecord_endRecord _,
    List.mem_append_right _ (List.mem_singleton.mpr rfl)⟩
  counts := fun kind => (rows kind).length
  header_kind := rfl
  body_kind := by
    intro w hw
    obtain ⟨kind, -, hw⟩ := List.mem_flatMap.mp hw
    obtain ⟨v, hv, rfl⟩ := List.mem_pmap.mp hw
    exact ⟨kind, rfl⟩
  last_kind := rfl
  last_value := rfl
  counts_eq := fun kind => (count_writtenRows hrows kind).symm

lemma records_completeExport (header : JsonValue) (hheader : IsRecord (text "header") header) :
    (completeExport hrows header hheader).records = exportedRecords header rows := by
  have hbody := map_pmap_rows hrows Written.record (fun kind v => .known kind.name v) fun _ _ _ => rfl
  rw [CompleteExport.records, CompleteExport.written, completeExport, List.map_append, List.map_cons,
    hbody]
  rfl

lemma text_completeExport (header : JsonValue) (hheader : IsRecord (text "header") header) :
    (completeExport hrows header hheader).text
      = ((exportedRecords header rows).map ExportRecord.value).flatMap jsonLine := by
  rw [← records_completeExport hrows header hheader, CompleteExport.text, CompleteExport.records,
    joinLines, List.map_map, List.flatMap_map, List.flatMap_map]
  rfl

end

variable {collation : KeyOrder Text} {db : Database} {preferred : List Text} {gameId : Text}

/-- An export holds every row of every kind once and says how many there are. Reading it gives its
records, and reading less than it gives the first of them and then throws. -/
theorem exportGame_exportChunks {game : Game}
    (hgame : db.games.find? (fun game => game.id = gameId) = some game) (position : Text)
    (exportedAt : Instant) {fuel : ℕ}
    (hfuel : ∀ kind, (tableRecords collation db preferred gameId kind).length < fuel) :
    ∃ chunks rows,
      exportChunks collation db preferred gameId position exportedAt fuel = some (chunks, true) ∧
      (∀ kind, (rows kind).Perm (tableRecords collation db preferred gameId kind)) ∧
      let records := exportedRecords (headerRecord gameId position exportedAt) rows
      chunks.flatten = (records.map ExportRecord.value).flatMap jsonLine ∧
      (∀ reads : List (List Byte), reads.flatten = Utf8.encodeText chunks.flatten →
        (∀ r ∈ records, (Json.stringify r.value).length ≤ exportMaxLineChars) →
        exportGame reads = (records, none)) ∧
      ∀ (reads : List (List Byte)) (rest : List Byte),
        reads.flatten ++ rest = Utf8.encodeText chunks.flatten → 1 < rest.length →
        ∃ k e, exportGame reads = (records.take k, some e) := by
  obtain ⟨chunks, rows, hchunks, hperm, hflat⟩ := exportChunks_spec hgame position exportedAt hfuel
  have hrows : ∀ kind, ∀ v ∈ rows kind, IsRecord (ExportRecordKind.name kind) v :=
    fun kind v hv => isRecord_of_mem_tableRecords ((hperm kind).mem_iff.mp hv)
  have hheader := isRecord_headerRecord gameId position exportedAt
  have hrecords := records_completeExport hrows _ hheader
  have hvalues : (exportedRecords (headerRecord gameId position exportedAt) rows).map ExportRecord.value
      = headerRecord gameId position exportedAt :: ExportRecordKind.all.flatMap rows
        ++ [endRecord fun kind => (rows kind).length] := by
    have hmap : ∀ kind : ExportRecordKind,
        (rows kind).map (ExportRecord.value ∘ .known kind.name) = rows kind :=
      fun kind => List.map_id _
    rw [exportedRecords, List.map_append, List.map_cons, List.map_flatMap]
    simp only [List.map_map, hmap]
    rfl
  have htext : chunks.flatten = (completeExport hrows _ hheader).text := by
    rw [hflat, text_completeExport, hvalues]
  refine ⟨chunks, rows, hchunks, hperm, ?_, ?_, ?_⟩
  · rw [hflat, hvalues]
  · intro reads hreads hcap
    rw [htext] at hreads
    rw [← hrecords] at hcap ⊢
    refine CompleteExport.exportGame_text _ hreads fun w hw => ?_
    exact hcap w.record (List.mem_map_of_mem hw)
  · intro reads rest hreads hrest
    rw [htext] at hreads
    rw [← hrecords]
    exact CompleteExport.exportGame_start _ hreads hrest

lemma units_total (a b : Text) : (decide (a ≤ b) || decide (b ≤ a)) = true := by
  simp [le_total]

lemma units_trans (a b c : Text) : decide (a ≤ b) = true → decide (b ≤ c) = true →
    decide (a ≤ c) = true := by
  simpa using fun hab hbc => le_trans hab hbc

lemma units_antisymm (a b : Text) : decide (a ≤ b) = true → decide (b ≤ a) = true → a = b := by
  simpa using fun hab hba => le_antisymm hab hba

/-- Texts by their code units. -/
def unitOrder : KeyOrder Text where
  le a b := decide (a ≤ b)
  total := units_total
  trans := units_trans
  antisymm := units_antisymm

def emptyObject : Stored := ⟨.obj [], by simp [Json.Valid, Json.ValidEntries]⟩

/-- A game with one group. -/
def oneGroup : Database where
  games := [⟨text "g", text "game", emptyObject, none, 0, 0⟩]
  externalIdentities := []
  groups := [⟨text "a", text "g", text "clan", text "A", text "public", emptyObject, none, none, none,
    0, 0, none, 0⟩]
  roles := []
  groupMembers := []
  invitations := []
  groupRelationships := []
  gameBans := []
  banHistory := []
  sanctions := []
  sanctionHistory := []
  userRelationships := []
  friendTags := []
  auditEntries := []
  externalIdentities_ids := List.nodup_nil
  groups_ids := List.nodup_singleton _
  roles_ids := List.nodup_nil
  groupMembers_ids := List.nodup_nil
  invitations_ids := List.nodup_nil
  groupRelationships_ids := List.nodup_nil
  gameBans_ids := List.nodup_nil
  banHistory_ids := List.nodup_nil
  sanctions_ids := List.nodup_nil
  sanctionHistory_ids := List.nodup_nil
  userRelationships_ids := List.nodup_nil
  friendTags_ids := List.nodup_nil
  auditEntries_ids := List.nodup_nil
  person_ne_nil := by simp
  no_null := by simp

theorem exportGame_oneGroup :
    ∃ chunks records,
      exportChunks unitOrder oneGroup [] (text "g") (text "7") 0 2 = some (chunks, true) ∧
      exportGame [Utf8.encodeText chunks.flatten] = (records, none) ∧ records.length = 4 ∧
      ∃ k e, exportGame [] = (records.take k, some e) := by
  have hgame : oneGroup.games.find? (fun game => game.id = text "g")
      = some ⟨text "g", text "game", emptyObject, none, 0, 0⟩ := by
    rw [oneGroup, List.find?_cons_of_pos (by decide)]
  have hfuel : ∀ kind, (tableRecords unitOrder oneGroup [] (text "g") kind).length < 2 := by
    intro kind
    cases kind <;> decide
  obtain ⟨chunks, rows, hchunks, hperm, hflat, hwhole, hstart⟩ :=
    exportGame_exportChunks hgame (text "7") 0 hfuel
  have hrows : rows = tableRecords unitOrder oneGroup [] (text "g") := by
    funext kind
    have hkind := hperm kind
    cases kind with
    | game => exact List.perm_singleton.mp hkind
    | group => exact List.perm_singleton.mp hkind
    | _ => exact List.perm_nil.mp hkind
  subst hrows
  refine ⟨chunks, _, hchunks, hwhole [_] (List.append_nil _) ?_, ?_, ?_⟩
  · decide +kernel
  · decide
  · refine hstart [] _ rfl ?_
    rw [hflat]
    decide +kernel

end Junjo.Export
