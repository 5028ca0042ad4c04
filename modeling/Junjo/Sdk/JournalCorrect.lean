import Junjo.Core.JsonText
import Junjo.Sdk.Journal

/-!
# What a journal gives back

A journal cut anywhere gives back the records that are whole in it, and a damaged line is refused.
-/

namespace Junjo.Journal

open Utf8 (Byte Decoder encode utf16 replacement)

/-! ### Strings of the JVM -/

lemma writtenChars_utf16Char_append (c : Char) (t : Text) :
    writtenChars (Utf8.utf16Char c ++ t) = c :: writtenChars t := by
  have hbounds := Utf8.val_bounds c
  have hchar : Char.ofNat c.toNat = c := Char.ofNat_toNat c
  unfold Utf8.utf16Char
  generalize c.toNat = v at hbounds hchar
  split_ifs with hplane
  · have hval := Utf8.ofNat_val hplane
    cases t with
    | nil =>
      simp only [List.append_nil, writtenChars, hval]
      rw [if_neg (by omega), hchar]
    | cons d t =>
      rw [List.singleton_append, writtenChars, hval, if_neg (by omega), if_neg (by omega), hchar]
  · have hhigh : (Fin.ofNat 65536 (0xD800 + (v - 0x10000) / 1024)).val
        = 0xD800 + (v - 0x10000) / 1024 := Utf8.ofNat_val (by omega)
    have hlow : (Fin.ofNat 65536 (0xDC00 + (v - 0x10000) % 1024)).val
        = 0xDC00 + (v - 0x10000) % 1024 := Utf8.ofNat_val (by omega)
    rw [List.cons_append, List.singleton_append, writtenChars, hhigh, hlow, if_pos (by omega)]
    have hv : 0x10000 + (0xD800 + (v - 0x10000) / 1024 - 0xD800) * 1024
        + (0xDC00 + (v - 0x10000) % 1024 - 0xDC00) = v := by omega
    rw [hv, hchar]

lemma getBytes_utf16 (chars : List Char) : getBytes (utf16 chars) = encode chars := by
  have hwritten : writtenChars (utf16 chars) = chars := by
    induction chars with
    | nil => rfl
    | cons c chars ih =>
      have hcons : utf16 (c :: chars) = Utf8.utf16Char c ++ utf16 chars := rfl
      rw [hcons, writtenChars_utf16Char_append, ih]
  rw [getBytes, hwritten]

lemma utf16_append (a b : List Char) : utf16 (a ++ b) = utf16 a ++ utf16 b := List.flatMap_append

lemma encode_append (a b : List Char) : encode (a ++ b) = encode a ++ encode b :=
  List.flatMap_append

lemma newString_nil : newString [] = [] := rfl

lemma newString_append (chars : List Char) (bytes : List Byte) :
    newString (encode chars ++ bytes) = utf16 chars ++ newString bytes := by
  rw [newString, Decoder.run_append, Utf8.run_encode, newString]
  simp only [List.append_assoc, utf16_append]

/-- The start of a text, with U+FFFD for a character that is cut. -/
lemma newString_start {chars : List Char} {bytes rest : List Byte}
    (h : bytes ++ rest = encode chars) :
    ∃ front back, chars = front ++ back ∧ ((bytes = encode front ∧ newString bytes = utf16 front) ∨
      (bytes ≠ encode front ∧ back ≠ [] ∧ newString bytes = utf16 (front ++ [replacement]))) := by
  obtain ⟨front, back, hchars, hout,
    ⟨hneeded, hbytes⟩ | ⟨hneeded, c, tail, a, hback, hbytes, ha, -⟩⟩ :=
    Utf8.run_start h
  · refine ⟨front, back, hchars, Or.inl ⟨hbytes, ?_⟩⟩
    rw [newString]
    simp [hout, Decoder.flush, hneeded]
  · refine ⟨front, back, hchars, Or.inr ⟨?_, ?_, ?_⟩⟩
    · rw [hbytes]
      intro heq
      exact ha (by simpa using heq)
    · rw [hback]
      exact List.cons_ne_nil _ _
    · rw [newString]
      simp [hout, Decoder.flush, hneeded]

/-! ### Checksums -/

lemma hexDigit_val {n : ℕ} (h : n < 16) :
    (hexDigit n).val = if n < 10 then 48 + n else 87 + n := by
  interval_cases n <;> decide

/-- A digit as a character. -/
def hexChar (n : ℕ) : Char := Char.ofNat (if n < 10 then 48 + n else 87 + n)

lemma hexChar_spec {n : ℕ} (h : n < 16) :
    Utf8.utf16Char (hexChar n) = [hexDigit n] ∧
      48 ≤ (hexChar n).toNat ∧ (hexChar n).toNat ≤ 102 := by
  interval_cases n <;> decide

def crcChars (v : BitVec 32) : List Char :=
  (List.range crcHexDigits).map fun i => hexChar (v.toNat / 16 ^ (crcHexDigits - 1 - i) % 16)

lemma toHexDigits_eq (v : BitVec 32) : toHexDigits v = utf16 (crcChars v) := by
  have hdigit : ∀ n, Utf8.utf16Char (hexChar (n % 16)) = [hexDigit (n % 16)] :=
    fun n => (hexChar_spec (Nat.mod_lt n (by omega))).1
  rw [crcChars, utf16, List.flatMap_map, toHexDigits]
  simp only [hdigit, List.map_eq_flatMap]

lemma crcChars_spec {v : BitVec 32} {c : Char} (h : c ∈ crcChars v) :
    48 ≤ c.toNat ∧ c.toNat ≤ 102 := by
  obtain ⟨i, -, rfl⟩ := List.mem_map.mp h
  exact (hexChar_spec (Nat.mod_lt _ (by omega))).2

lemma crcChars_cons (v : BitVec 32) : ∃ d < 16, ∃ digits, crcChars v = hexChar d :: digits :=
  ⟨_, Nat.mod_lt _ (by omega), _, rfl⟩

lemma length_crcChars (v : BitVec 32) : (crcChars v).length = crcHexDigits := by
  simp [crcChars]

lemma length_toHexDigits (v : BitVec 32) : (toHexDigits v).length = crcHexDigits := by
  simp [toHexDigits]

lemma toHexDigits_injective : Function.Injective toHexDigits := by
  have hinj : ∀ m n : ℕ, m < 16 → n < 16 → hexDigit m = hexDigit n → m = n := by
    intro m n hm hn h
    have hval := congrArg Fin.val h
    rw [hexDigit_val hm, hexDigit_val hn] at hval
    split_ifs at hval <;> omega
  intro v w h
  have hdigit : ∀ i < 8, v.toNat / 16 ^ i % 16 = w.toNat / 16 ^ i % 16 := by
    intro i hi
    have hmem := List.map_inj_left.mp h (7 - i) (List.mem_range.mpr (by rw [crcHexDigits]; omega))
    have hpow : crcHexDigits - 1 - (7 - i) = i := by rw [crcHexDigits]; omega
    rw [hpow] at hmem
    exact hinj _ _ (Nat.mod_lt _ (by omega)) (Nat.mod_lt _ (by omega)) hmem
  apply BitVec.eq_of_toNat_eq
  have hv := v.isLt
  have hw := w.isLt
  have h0 := hdigit 0 (by omega)
  have h1 := hdigit 1 (by omega)
  have h2 := hdigit 2 (by omega)
  have h3 := hdigit 3 (by omega)
  have h4 := hdigit 4 (by omega)
  have h5 := hdigit 5 (by omega)
  have h6 := hdigit 6 (by omega)
  have h7 := hdigit 7 (by omega)
  norm_num at h0 h1 h2 h3 h4 h5 h6 h7
  omega

/-! ### Lines -/

lemma crc_utf16 (json : List Char) :
    crc (utf16 json) = utf16 (crcChars (Crc32.crc32 (encode json))) := by
  rw [crc, getBytes_utf16, toHexDigits_eq]

lemma length_crc (json : Text) : (crc json).length = crcHexDigits := length_toHexDigits _

/-- The characters of the line of a JSON text, without its line feed. -/
def lineChars (json : List Char) : List Char :=
  crcChars (Crc32.crc32 (encode json)) ++ ' ' :: json

lemma checkedLine_utf16 (json : List Char) : checkedLine (utf16 json) = utf16 (lineChars json) := by
  rw [checkedLine, crc_utf16, lineChars, utf16_append]
  rfl

lemma head?_crc (json rest : Text) : ∃ d < 16, (crc json ++ rest).head? = some (hexDigit d) :=
  ⟨_, Nat.mod_lt _ (by omega), rfl⟩

lemma hexDigit_ne {d : ℕ} (h : d < 16) :
    hexDigit d ≠ leftBrace ∧ isWhitespace (hexDigit d) = false := by
  interval_cases d <;> decide

/-- A line whose checksum was made for a JSON text. -/
lemma checkedJson_crc (json json' : Text) :
    checkedJson (crc json ++ space :: json')
      = if crc json' ≠ crc json then .error .checksum else .ok json' := by
  obtain ⟨d, hd, hhead⟩ := head?_crc json (space :: json')
  have hlength := length_crc json
  have hnotBrace : (crc json ++ space :: json').head? ≠ some leftBrace := by
    rw [hhead]
    exact fun h => (hexDigit_ne hd).1 (Option.some.inj h)
  have hlong : ¬((crc json ++ space :: json').length < crcHexDigits + 1 ∨
      (crc json ++ space :: json')[crcHexDigits]? ≠ some space) := by
    rw [← hlength]
    simp
  have hdrop : (crc json ++ space :: json').drop (crcHexDigits + 1) = json' := by
    rw [← hlength]
    simp
  have htake : (crc json ++ space :: json').take crcHexDigits = crc json := by
    rw [← hlength]
    simp
  rw [checkedJson, if_neg hnotBrace, if_neg hlong, hdrop, htake]

lemma checkedJson_line (json : Text) : checkedJson (checkedLine json) = .ok json := by
  rw [checkedLine, checkedJson_crc, if_neg (not_not.mpr rfl)]

/-! ### The JSON library -/

/-- A text without unpaired surrogates. -/
def PlainText (t : Text) : Prop := ∃ chars, t = utf16 chars

def PlainValue : JsonValue → Prop
  | .null => True
  | .bool _ => True
  | .str t => PlainText t
  | _ => False

/-- An object of strings, booleans and nulls. -/
structure PlainObject (o : JsonObject) : Prop where
  nodup : (o.map Prod.fst).Nodup
  plain : ∀ f ∈ o, PlainText f.1 ∧ PlainValue f.2

/-- What Gson does with such objects: it writes them without control characters and reads them back,
and does not read a text that ends inside one. -/
structure Gson (toJson : JsonValue → Text) (parseString : Text → Option JsonValue) : Prop where
  printed : ∀ {o}, PlainObject o →
    ∃ chars, toJson (.obj o) = utf16 chars ∧ ∀ c ∈ chars, 32 ≤ c.toNat
  read : ∀ {o}, PlainObject o → parseString (toJson (.obj o)) = some (.obj o)
  unended : ∀ {o}, PlainObject o → ∀ {start rest}, toJson (.obj o) = utf16 (start ++ rest) →
    rest ≠ [] → ∀ o', parseString (utf16 start) ≠ some (.obj o') ∧
      parseString (utf16 (start ++ [replacement])) ≠ some (.obj o')

section

variable {ι : Type} {instants : Instants ι} {toJson : JsonValue → Text}
  {parseString : Text → Option JsonValue}

lemma parseLine_ok {raw json : Text} (h : checkedJson raw = .ok json) {o : JsonObject}
    (ho : parseString json = some (.obj o)) : parseLine parseString raw = .ok o := by
  simp only [parseLine, h, bind, Except.bind, ho]

lemma parseLine_error {raw json : Text} (h : checkedJson raw = .ok json)
    (ho : ∀ o, parseString json ≠ some (.obj o)) :
    parseLine parseString raw = .error .unreadable := by
  simp only [parseLine, h, bind, Except.bind]

lemma parseLine_checksum {raw : Text} (h : checkedJson raw = .error .checksum) :
    parseLine parseString raw = .error .checksum := by
  rw [parseLine, h]
  rfl

lemma utf16_of_small {chars : List Char} (h : ∀ c ∈ chars, c.toNat < 0x10000) :
    utf16 chars = chars.map fun c => Fin.ofNat 65536 c.toNat := by
  induction chars with
  | nil => rfl
  | cons c chars ih =>
    obtain ⟨hc, hchars⟩ := List.forall_mem_cons.mp h
    have hcons : utf16 (c :: chars) = Utf8.utf16Char c ++ utf16 chars := rfl
    rw [hcons, ih hchars, Utf8.utf16Char, if_pos hc]
    rfl

/-- Digits alone, perhaps with U+FFFD after them. -/
lemma checkedJson_short {front tail : List Char}
    (hfront : ∀ c ∈ front, 48 ≤ c.toNat ∧ c.toNat ≤ 102)
    (htail : tail = [] ∨ tail = [replacement]) :
    checkedJson (utf16 (front ++ tail)) = .error .checksum := by
  have hsmall : ∀ c ∈ front ++ tail, c.toNat < 0x10000 ∧ c.toNat ≠ 123 ∧ c.toNat ≠ 32 := by
    intro c hc
    rcases List.mem_append.mp hc with hc | hc
    · have := hfront c hc
      omega
    · rcases htail with rfl | rfl
      · cases hc
      · rw [List.mem_singleton.mp hc]
        decide
  have hunit : ∀ c ∈ front ++ tail, Fin.ofNat 65536 c.toNat ≠ leftBrace ∧
      Fin.ofNat 65536 c.toNat ≠ space := by
    intro c hc
    obtain ⟨hlt, hbrace, hspace⟩ := hsmall c hc
    refine ⟨fun h => hbrace ?_, fun h => hspace ?_⟩
    · have hval := congrArg Fin.val h
      rwa [Utf8.ofNat_val hlt] at hval
    · have hval := congrArg Fin.val h
      rwa [Utf8.ofNat_val hlt] at hval
  rw [checkedJson, utf16_of_small fun c hc => (hsmall c hc).1, if_neg, if_pos]
  · right
    rw [List.getElem?_map]
    intro h
    obtain ⟨c, hc, hspace⟩ := Option.map_eq_some_iff.mp h
    exact (hunit c (List.mem_of_getElem? hc)).2 hspace
  · rw [List.head?_map]
    intro h
    obtain ⟨c, hc, hbrace⟩ := Option.map_eq_some_iff.mp h
    exact (hunit c (List.mem_of_mem_head? hc)).1 hbrace

/-- The start of a line, perhaps with U+FFFD after it, is refused. -/
lemma parseLine_start {json front back tail : List Char} (hline : lineChars json = front ++ back)
    (htail : tail = [] ∨ tail = [replacement])
    (hunended : ∀ start, json = start ++ back →
      ∀ o, parseString (utf16 (start ++ tail)) ≠ some (.obj o)) :
    ∃ e, parseLine parseString (utf16 (front ++ tail)) = .error e := by
  have hshort : ∀ n, front = (crcChars (Crc32.crc32 (encode json))).take n →
      ∃ e, parseLine parseString (utf16 (front ++ tail)) = .error e := by
    intro n hfront
    refine ⟨_, parseLine_checksum (checkedJson_short (fun c hc => ?_) htail)⟩
    rw [hfront] at hc
    exact crcChars_spec (List.mem_of_mem_take hc)
  rw [lineChars] at hline
  rcases List.append_eq_append_iff.mp hline with ⟨start, rfl, hrest⟩ | ⟨rest, hdigits, -⟩
  · cases start with
    | nil => exact hshort crcHexDigits (by simp [List.take_of_length_le, length_crcChars])
    | cons c start =>
      obtain ⟨rfl, hjson⟩ := List.cons.inj hrest
      have hraw : utf16 (crcChars (Crc32.crc32 (encode json)) ++ ' ' :: start ++ tail)
          = crc (utf16 json) ++ space :: utf16 (start ++ tail) := by
        rw [crc_utf16, List.append_assoc, utf16_append]
        rfl
      rw [hraw]
      by_cases hcrc : crc (utf16 (start ++ tail)) = crc (utf16 json)
      · refine ⟨_, parseLine_error ?_ (hunended start hjson)⟩
        rw [checkedJson_crc, if_neg (not_not.mpr hcrc)]
      · refine ⟨_, parseLine_checksum ?_⟩
        rw [checkedJson_crc, if_pos hcrc]
  · exact hshort front.length (by rw [hdigits, List.take_left])

/-! ### Records -/

/-- The texts of a record have no unpaired surrogate. -/
def Record.Plain (instants : Instants ι) (r : Record ι) : Prop :=
  ∀ f ∈ r.object instants, PlainValue f.2

lemma plainText_names {names : List String}
    (h : (names.all fun s => s.toList.all fun c => c.toNat < 0x10000) = true) :
    ∀ k ∈ names.map text, PlainText k := by
  intro k hk
  obtain ⟨s, hs, rfl⟩ := List.mem_map.mp hk
  refine ⟨s.toList, (utf16_of_small fun c hc => ?_).symm⟩
  exact of_decide_eq_true (List.all_eq_true.mp (List.all_eq_true.mp h s hs) c hc)

lemma plainObject_record {r : Record ι} (h : r.Plain instants) :
    PlainObject (r.object instants) := by
  have hkeys : ∃ names : List String, (r.object instants).map Prod.fst = names.map text ∧
      (names.map text).Nodup ∧
      (names.all fun s => s.toList.all fun c => c.toNat < 0x10000) = true := by
    cases r with
    | put e =>
      exact ⟨["op", "id", "key", "method", "path", "body", "ifMatch", "lift", "label", "at"], rfl,
        by decide, by rfl⟩
    | done id outcome => exact ⟨["op", "id", "outcome"], rfl, by decide, by rfl⟩
  obtain ⟨names, hnames, hnodup, hplain⟩ := hkeys
  refine ⟨by rwa [hnames], fun f hf => ⟨plainText_names hplain f.1 ?_, h f hf⟩⟩
  rw [← hnames]
  exact List.mem_map_of_mem hf

lemma optStr_optJson {o : JsonObject} {name : String} {t : Option Text}
    (h : o.lookup (text name) = some (optJson t)) : optStr o name = some t := by
  rw [optStr, h]
  cases t <;> rfl

lemma str_of_lookup {o : JsonObject} {name : String} {t : Text}
    (h : o.lookup (text name) = some (.str t)) : str o name = some t := by
  rw [str, optStr, h]
  rfl

/-- An entry is read back from its fields. -/
lemma entryFrom_putObject (e : Entry ι) : entryFrom instants (putObject instants e) = some e := by
  obtain ⟨id, key, ⟨method, path, body, ifMatch, lift, label, hmethod, hpath⟩, t⟩ := e
  have hnew : newQueuedWrite method path body ifMatch lift (some label)
      = some ⟨method, path, body, ifMatch, lift, label, hmethod, hpath⟩ :=
    dif_pos ⟨hmethod, hpath⟩
  have hlift : ∀ e : Entry ι, optBool (putObject instants e) "lift" false = some e.write.lift :=
    fun _ => rfl
  rw [entryFrom, str_of_lookup rfl, str_of_lookup rfl, optStr_optJson rfl, optStr_optJson rfl,
    str_of_lookup rfl, str_of_lookup rfl, optStr_optJson (t := some label) rfl,
    optStr_optJson (t := some (instants.toText t)) rfl, hlift]
  simp only [bind, Option.bind_some, hnew, instants.parse_toText]

/-- What a record adds to a replay. -/
def Record.apply (s : Replay ι) : Record ι → Replay ι
  | .put e => { s with puts := s.puts.set e.id e }
  | .done id _ => { s with done := s.done ++ [id] }

/-- The characters of a record's line: a checksum, a space and a JSON text. -/
lemma record_line (hgson : Gson toJson parseString) {r : Record ι} (h : r.Plain instants) :
    ∃ json : List Char, toJson (.obj (r.object instants)) = utf16 json ∧
      (∀ c ∈ json, 32 ≤ c.toNat) ∧
      recordBytes instants toJson r = encode (lineChars json ++ ['\n']) := by
  obtain ⟨json, hjson, hprinted⟩ := hgson.printed (plainObject_record h)
  refine ⟨json, hjson, hprinted, ?_⟩
  have hline : line (utf16 json) = utf16 (lineChars json ++ ['\n']) := by
    rw [line, checkedLine_utf16, utf16_append]
    rfl
  rw [recordBytes, hjson, hline, getBytes_utf16]

lemma lineChars_ge {json : List Char} (h : ∀ c ∈ json, 32 ≤ c.toNat) :
    ∀ c ∈ lineChars json, 32 ≤ c.toNat := by
  intro c hc
  rcases List.mem_append.mp hc with hc | hc
  · have := crcChars_spec hc
    omega
  · rcases List.mem_cons.mp hc with rfl | hc
    · decide
    · exact h c hc

/-- Units of characters that are no control characters. -/
lemma ge_of_mem_utf16 {chars : List Char} (h : ∀ c ∈ chars, 32 ≤ c.toNat) :
    ∀ u ∈ utf16 chars, 32 ≤ u.val := by
  intro u hu
  obtain ⟨c, hc, huc⟩ := List.mem_flatMap.mp hu
  have hcontrol := h c hc
  have hbounds := Utf8.val_bounds c
  unfold Utf8.utf16Char at huc
  split_ifs at huc
  · rwa [List.mem_singleton.mp huc, Utf8.ofNat_val (by omega)]
  · rcases List.mem_pair.mp huc with rfl | rfl
    · rw [Utf8.ofNat_val (by omega)]
      omega
    · rw [Utf8.ofNat_val (by omega)]
      omega

lemma stripReturn_of_ge {t : Text} (h : ∀ u ∈ t, 32 ≤ u.val) : stripReturn t = t := by
  rw [stripReturn, if_neg]
  intro hlast
  exact absurd (h _ (List.mem_of_getLast? hlast)) (by decide)

/-- A text that does not begin with a blank. -/
lemma isBlank_of_head {u : CodeUnit} {t : Text} (hu : isWhitespace u = false) :
    isBlank (u :: t) = false := by
  simp [isBlank, hu]

lemma isBlank_checkedLine (json : Text) : isBlank (checkedLine json) = false := by
  obtain ⟨d, hd, hhead⟩ := head?_crc json (space :: json)
  obtain ⟨t, ht⟩ := List.head?_eq_some_iff.mp hhead
  rw [checkedLine, ht]
  exact isBlank_of_head (hexDigit_ne hd).2

/-- A whole line adds its record. -/
lemma readLine_record (hgson : Gson toJson parseString) {r : Record ι} (h : r.Plain instants)
    (torn : Bool) (number : ℕ) {json : List Char}
    (hjson : toJson (.obj (r.object instants)) = utf16 json) (hprinted : ∀ c ∈ json, 32 ≤ c.toNat)
    (s : Replay ι) :
    readLine instants parseString torn number (utf16 (lineChars json)) s = r.apply s := by
  have hparse : parseLine parseString (utf16 (lineChars json)) = .ok (r.object instants) := by
    rw [← checkedLine_utf16]
    apply parseLine_ok (checkedJson_line _)
    rw [← hjson]
    exact hgson.read (plainObject_record h)
  have hblank := isBlank_checkedLine (utf16 json)
  rw [checkedLine_utf16] at hblank
  rw [readLine, stripReturn_of_ge (ge_of_mem_utf16 (lineChars_ge hprinted))]
  simp only [hblank, Bool.false_eq_true, if_false, hparse]
  cases r with
  | put e =>
    have hop : str (putObject instants e) "op" = some (text "put") := rfl
    simp only [Record.object, hop, entryFrom_putObject, if_true]
    rfl
  | done id outcome =>
    have hop : str (doneObject id outcome) "op" = some (text "done") := rfl
    have hid : str (doneObject id outcome) "id" = some id := rfl
    have hne : text "done" ≠ text "put" := by decide
    simp only [Record.object, hop, hid, if_neg hne, if_true]
    rfl

/-! ### Files -/

lemma readLines_append (number : ℕ) (lines lines' : List Text) (s : Replay ι) :
    readLines instants parseString true number (lines ++ lines') s
      = readLines instants parseString true (number + lines.length) lines'
        (readLines instants parseString true number lines s) := by
  induction lines generalizing number s with
  | nil => rfl
  | cons l lines ih =>
    rw [List.cons_append, readLines, readLines, Bool.not_true, Bool.false_and, Bool.false_and, ih,
      List.length_cons]
    congr 1
    omega

/-- A file that does not end clean has its last line torn. -/
lemma readLines_concat (number : ℕ) (lines : List Text) (l : Text) (s : Replay ι) :
    readLines instants parseString false number (lines ++ [l]) s
      = readLine instants parseString true (number + lines.length) l
        (readLines instants parseString true number lines s) := by
  induction lines generalizing number s with
  | nil => rfl
  | cons l' lines ih =>
    have hnotLast : (lines ++ [l]).isEmpty = false := by simp
    rw [List.cons_append, readLines, readLines, hnotLast, Bool.and_false, Bool.not_true,
      Bool.false_and, ih, List.length_cons]
    congr 1
    omega

/-- The lines of a file, and what stands after the last line feed. -/
lemma splitOn_lines {lines : List Text} (h : ∀ l ∈ lines, lineFeed ∉ l) {tail : Text}
    (htail : lineFeed ∉ tail) :
    ((lines.flatMap fun l => l ++ [lineFeed]) ++ tail).splitOn lineFeed = lines ++ [tail] := by
  induction lines with
  | nil => exact List.splitOn_eq_singleton htail
  | cons l lines ih =>
    obtain ⟨hl, hlines⟩ := List.forall_mem_cons.mp h
    rw [List.flatMap_cons, List.append_assoc, List.append_assoc, List.singleton_append,
      List.splitOn_append_cons_self_of_not_mem hl, ih hlines]
    rfl

lemma utf16_lines (lines : List (List Char)) :
    utf16 (lines.flatMap fun l => l ++ ['\n'])
      = (lines.map utf16).flatMap fun l => l ++ [lineFeed] := by
  induction lines with
  | nil => rfl
  | cons l lines ih =>
    rw [List.flatMap_cons, utf16_append, ih, utf16_append]
    rfl

lemma forall_lineFeed_map {lines : List (List Char)} (h : ∀ l ∈ lines, lineFeed ∉ utf16 l) :
    ∀ l ∈ lines.map utf16, lineFeed ∉ l := by
  intro l hl
  obtain ⟨l', hl', rfl⟩ := List.mem_map.mp hl
  exact h l' hl'

/-- A file of whole lines is read line by line. -/
lemma readFile_lines {lines : List (List Char)} (h : ∀ l ∈ lines, lineFeed ∉ utf16 l)
    {tail : List Byte} (htail : lineFeed ∉ newString tail) :
    readFile instants parseString (encode (lines.flatMap fun l => l ++ ['\n']) ++ tail)
      = if newString tail = [] then readLines instants parseString true 1 (lines.map utf16) {}
        else readLine instants parseString true (1 + lines.length) (newString tail)
          (readLines instants parseString true 1 (lines.map utf16) {}) := by
  have hsplit := splitOn_lines (forall_lineFeed_map h) htail
  rw [readFile, newString_append, utf16_lines]
  simp only [hsplit]
  by_cases hnil : newString tail = []
  · have hclean : ((lines.map utf16).flatMap (fun l => l ++ [lineFeed]) ++ newString tail = [] ||
        ((lines.map utf16).flatMap (fun l => l ++ [lineFeed]) ++ newString tail).getLast?
          = some lineFeed) = true := by
      rw [hnil, List.append_nil]
      rcases List.eq_nil_or_concat (lines.map utf16) with hlines | ⟨front, l, hlines⟩
      · rw [hlines]
        rfl
      · rw [hlines, List.concat_eq_append, List.flatMap_append, List.flatMap_singleton,
          ← List.append_assoc]
        simp
    rw [if_pos hnil, if_pos hclean, hclean]
    congr 1
    simp
  · have hopen : ((lines.map utf16).flatMap (fun l => l ++ [lineFeed]) ++ newString tail = [] ||
        ((lines.map utf16).flatMap (fun l => l ++ [lineFeed]) ++ newString tail).getLast?
          = some lineFeed) = false := by
      have hlast : (newString tail).getLast? ≠ some lineFeed :=
        fun hlast => htail (List.mem_of_getLast? hlast)
      rw [Bool.or_eq_false_iff, decide_eq_false_iff_not, decide_eq_false_iff_not,
        List.getLast?_append_of_ne_nil _ hnil]
      exact ⟨fun happend => hnil (List.append_eq_nil_iff.mp happend).2, hlast⟩
    rw [if_neg hnil, hopen, if_neg Bool.false_ne_true, List.take_length, readLines_concat,
      List.length_map]

/-- Whole lines of records add the records. -/
lemma readLines_records (hgson : Gson toJson parseString) {records : List (Record ι)}
    (h : ∀ r ∈ records, r.Plain instants) :
    ∃ lines : List (List Char), lines.length = records.length ∧
      (∀ l ∈ lines, lineFeed ∉ utf16 l) ∧
      fileOf instants toJson records = encode (lines.flatMap fun l => l ++ ['\n']) ∧
      ∀ number s, readLines instants parseString true number (lines.map utf16) s
        = records.foldl Record.apply s := by
  induction records with
  | nil => exact ⟨[], rfl, by simp, rfl, fun _ _ => rfl⟩
  | cons r records ih =>
    obtain ⟨hr, hrecords⟩ := List.forall_mem_cons.mp h
    obtain ⟨lines, hlength, hfeeds, hfile, hread⟩ := ih hrecords
    obtain ⟨json, hjson, hprinted, hbytes⟩ := record_line hgson hr
    refine ⟨lineChars json :: lines, by simp [hlength], ?_, ?_, fun number s => ?_⟩
    · refine List.forall_mem_cons.mpr ⟨fun hfeed => ?_, hfeeds⟩
      exact absurd (ge_of_mem_utf16 (lineChars_ge hprinted) _ hfeed) (by decide)
    · rw [fileOf, List.flatMap_cons, ← fileOf, hfile, hbytes, List.flatMap_cons,
        encode_append (lineChars json ++ ['\n'])]
    · rw [List.map_cons, readLines, Bool.not_true, Bool.false_and,
        readLine_record hgson hr _ _ hjson hprinted, hread, List.foldl_cons]

/-- The entries that records leave pending, in the order of their puts. -/
def pendingOf (records : List (Record ι)) : List (Entry ι) :=
  (records.foldl Record.apply {}).pending

lemma quarantine_foldl (records : List (Record ι)) (s : Replay ι) :
    (records.foldl Record.apply s).quarantine = s.quarantine := by
  induction records generalizing s with
  | nil => rfl
  | cons r records ih =>
    rw [List.foldl_cons, ih]
    cases r <;> rfl

/-- The records that are whole in the first bytes of a file, and what is left of the next one. -/
lemma take_fileOf (records : List (Record ι)) (n : ℕ) :
    ∃ whole rest, whole <+: records ∧
      (fileOf instants toJson records).take n = fileOf instants toJson whole ++ rest ∧
      (rest = [] ∨ ∃ r missing, whole ++ [r] <+: records ∧ missing ≠ [] ∧
        recordBytes instants toJson r = rest ++ missing) := by
  induction records generalizing n with
  | nil => exact ⟨[], [], List.prefix_rfl, by simp [fileOf], Or.inl rfl⟩
  | cons r records ih =>
    have hcons : fileOf instants toJson (r :: records)
        = recordBytes instants toJson r ++ fileOf instants toJson records := rfl
    rcases Nat.lt_or_ge n (recordBytes instants toJson r).length with hlt | hge
    · refine ⟨[], (recordBytes instants toJson r).take n, List.nil_prefix, ?_, Or.inr ?_⟩
      · rw [hcons, List.take_append_of_le_length hlt.le]
        rfl
      · refine ⟨r, (recordBytes instants toJson r).drop n, ⟨records, rfl⟩, ?_, ?_⟩
        · rw [Ne, List.drop_eq_nil_iff]
          omega
        · rw [List.take_append_drop]
    · obtain ⟨whole, rest, hwhole, htake, hrest⟩ := ih (n - (recordBytes instants toJson r).length)
      refine ⟨r :: whole, rest, List.cons_prefix_cons.mpr ⟨rfl, hwhole⟩, ?_, ?_⟩
      · rw [hcons, List.take_append, List.take_of_length_le hge, htake, ← List.append_assoc]
        rfl
      · refine hrest.imp_right ?_
        rintro ⟨r', missing, hprefix, hmissing, hbytes⟩
        exact ⟨r', missing, List.cons_prefix_cons.mpr ⟨rfl, hprefix⟩, hmissing, hbytes⟩

lemma readLine_refused {raw : Text} (hplain : ∀ u ∈ raw, 32 ≤ u.val) (hblank : isBlank raw = false)
    {e : LineError} (hparse : parseLine parseString raw = .error e) (torn : Bool) (number : ℕ)
    (s : Replay ι) :
    readLine instants parseString torn number raw s = s.refuse torn e number raw := by
  rw [readLine, stripReturn_of_ge hplain]
  simp only [hblank, Bool.false_eq_true, if_false, hparse]

/-- What is left of a line that was cut before its end. -/
lemma readLine_cut (hgson : Gson toJson parseString) {r : Record ι} (h : r.Plain instants)
    {rest missing : List Byte} (hbytes : recordBytes instants toJson r = rest ++ missing)
    (hrest : rest ≠ []) (hmissing : 2 ≤ missing.length) :
    newString rest ≠ [] ∧ lineFeed ∉ newString rest ∧ ∀ number (s : Replay ι),
      readLine instants parseString true number (newString rest) s
        = { s with quarantine := s.quarantine ++ [⟨.tornLine, number, newString rest⟩] } := by
  obtain ⟨json, hjson, hprinted, hline⟩ := record_line hgson h
  have hsplit : rest ++ missing.dropLast = encode (lineChars json) := by
    have heq : rest ++ missing = encode (lineChars json) ++ [10] := by
      rw [← hbytes, hline, encode_append]
      rfl
    have hne : missing ≠ [] := List.ne_nil_of_length_pos (by omega)
    have hdrop := congrArg List.dropLast heq
    rwa [List.dropLast_append_of_ne_nil hne, List.dropLast_concat] at hdrop
  have hdropped : missing.dropLast ≠ [] := List.ne_nil_of_length_pos (by simp; omega)
  obtain ⟨front, back, hchars, hstart⟩ := newString_start hsplit
  have hback : back ≠ [] := by
    rcases hstart with ⟨hfront, -⟩ | ⟨-, hback, -⟩
    · rintro rfl
      rw [List.append_nil] at hchars
      rw [hfront, ← hchars] at hsplit
      exact hdropped (by simpa using hsplit)
    · exact hback
  obtain ⟨tail, htail, hnew, hne⟩ : ∃ tail, (tail = [] ∨ tail = [replacement]) ∧
      newString rest = utf16 (front ++ tail) ∧ front ++ tail ≠ [] := by
    rcases hstart with ⟨hfront, hnew⟩ | ⟨-, -, hnew⟩
    · refine ⟨[], Or.inl rfl, by rwa [List.append_nil], ?_⟩
      rw [List.append_nil]
      rintro rfl
      exact hrest hfront
    · exact ⟨[replacement], Or.inr rfl, hnew, by simp⟩
  have hge : ∀ c ∈ front ++ tail, 32 ≤ c.toNat := by
    intro c hc
    rcases List.mem_append.mp hc with hc | hc
    · exact lineChars_ge hprinted c (by rw [hchars]; exact List.mem_append_left _ hc)
    · rcases htail with rfl | rfl
      · cases hc
      · rw [List.mem_singleton.mp hc]
        decide
  have hunread : ∀ start, json = start ++ back →
      ∀ o, parseString (utf16 (start ++ tail)) ≠ some (.obj o) := by
    intro start hstart' o
    have htext : toJson (.obj (r.object instants)) = utf16 (start ++ back) := by rw [hjson, hstart']
    have hunended := hgson.unended (plainObject_record h) htext hback o
    rcases htail with rfl | rfl
    · rw [List.append_nil]
      exact hunended.1
    · exact hunended.2
  obtain ⟨e, hparse⟩ := parseLine_start hchars htail hunread
  obtain ⟨u, t, hu, hspace⟩ : ∃ u t, utf16 (front ++ tail) = u :: t ∧ isWhitespace u = false := by
    cases front with
    | nil =>
      rcases htail with rfl | rfl
      · exact absurd rfl hne
      · exact ⟨0xFFFD, [], rfl, by decide⟩
    | cons c front =>
      obtain ⟨d, hd, digits, hdigits⟩ := crcChars_cons (Crc32.crc32 (encode json))
      rw [lineChars, hdigits] at hchars
      obtain rfl := (List.cons.inj hchars).1
      refine ⟨hexDigit d, utf16 (front ++ tail), ?_, (hexDigit_ne hd).2⟩
      rw [List.cons_append, utf16, List.flatMap_cons, (hexChar_spec hd).1]
      rfl
  have hunits := ge_of_mem_utf16 hge
  rw [hnew]
  refine ⟨by rw [hu]; exact List.cons_ne_nil _ _, fun hfeed => ?_, fun number s => ?_⟩
  · exact absurd (hunits _ hfeed) (by decide)
  · rw [readLine_refused hunits (by rw [hu]; exact isBlank_of_head hspace) hparse]
    rfl

/-- A line without its line feed adds its record. -/
lemma readLine_unended (hgson : Gson toJson parseString) {r : Record ι} (h : r.Plain instants)
    {rest : List Byte} {x : Byte} (hbytes : recordBytes instants toJson r = rest ++ [x]) :
    x = 10 ∧ newString rest ≠ [] ∧ lineFeed ∉ newString rest ∧ ∀ torn number (s : Replay ι),
      readLine instants parseString torn number (newString rest) s = r.apply s := by
  obtain ⟨json, hjson, hprinted, hline⟩ := record_line hgson h
  rw [hline, encode_append] at hbytes
  obtain ⟨hrest, hx⟩ := List.append_inj' hbytes rfl
  have hnew : newString rest = utf16 (lineChars json) := by
    rw [← hrest, ← List.append_nil (encode _), newString_append, newString_nil, List.append_nil]
  obtain ⟨d, hd, hhead⟩ := head?_crc (utf16 json) (space :: utf16 json)
  have hne : checkedLine (utf16 json) ≠ [] := by
    intro hnil
    rw [checkedLine] at hnil
    rw [hnil] at hhead
    cases hhead
  rw [checkedLine_utf16] at hne
  rw [hnew]
  refine ⟨(List.cons.inj hx).1.symm, hne, fun hfeed => ?_, fun torn number s => ?_⟩
  · exact absurd (ge_of_mem_utf16 (lineChars_ge hprinted) _ hfeed) (by decide)
  · exact readLine_record hgson h torn number hjson hprinted s

/-- A journal that is cut anywhere gives back the entries of the records that are whole in it, where
the last one may lack its line feed. What else is left of a record is quarantined as a torn line. -/
theorem journal_cut (hgson : Gson toJson parseString) {records : List (Record ι)}
    (h : ∀ r ∈ records, r.Plain instants) (n : ℕ) :
    ∃ whole rest, whole <+: records ∧
      (fileOf instants toJson records).take n = fileOf instants toJson whole ++ rest ∧
      ((rest = [] ∧
          replay instants parseString ((fileOf instants toJson records).take n)
            = (pendingOf whole, [])) ∨
        (∃ r, whole ++ [r] <+: records ∧ recordBytes instants toJson r = rest ++ [10] ∧
          replay instants parseString ((fileOf instants toJson records).take n)
            = (pendingOf (whole ++ [r]), [])) ∨
        ∃ r missing, whole ++ [r] <+: records ∧
          recordBytes instants toJson r = rest ++ missing ∧ rest ≠ [] ∧ 2 ≤ missing.length ∧
          replay instants parseString ((fileOf instants toJson records).take n)
            = (pendingOf whole, [⟨.tornLine, whole.length + 1, newString rest⟩])) := by
  obtain ⟨whole, rest, hwhole, htake, hrest⟩ := @take_fileOf _ instants toJson
    records n
  obtain ⟨lines, hlength, hfeeds, hfile, hread⟩ := readLines_records hgson
    fun r hr => h r (hwhole.subset hr)
  refine ⟨whole, rest, hwhole, htake, ?_⟩
  rw [htake, hfile]
  by_cases hnil : rest = []
  · refine Or.inl ⟨hnil, ?_⟩
    rw [hnil, replay, readFile_lines hfeeds (by rw [newString_nil]; exact List.not_mem_nil),
      if_pos newString_nil, hread, quarantine_foldl]
    rfl
  · obtain hrest | ⟨r, missing, hr, hmissing, hbytes⟩ := hrest
    · exact absurd hrest hnil
    have hplain : r.Plain instants := h r (hr.subset (by simp))
    rcases Nat.lt_or_ge missing.length 2 with hshort | hlong
    · obtain ⟨x, rfl⟩ := List.length_eq_one_iff.mp
        (Nat.le_antisymm (Nat.le_of_lt_succ hshort) (List.length_pos_iff.mpr hmissing))
      obtain ⟨rfl, hne, hfeed, hadded⟩ := readLine_unended hgson hplain hbytes
      refine Or.inr (Or.inl ⟨r, hr, hbytes, ?_⟩)
      have hconcat : r.apply (whole.foldl Record.apply {})
          = (whole ++ [r]).foldl Record.apply {} := by
        simp
      rw [replay, readFile_lines hfeeds hfeed, if_neg hne, hread, hadded, hconcat,
        quarantine_foldl]
      rfl
    · obtain ⟨hne, hfeed, hcut⟩ := readLine_cut hgson hplain hbytes hnil hlong
      refine Or.inr (Or.inr ⟨r, missing, hr, hbytes, hnil, hlong, ?_⟩)
      rw [replay, readFile_lines hfeeds hfeed, if_neg hne, hread, hcut, quarantine_foldl, hlength,
        Nat.add_comm]
      rfl

/-! ### Damage -/

lemma refuse_foldl (records : List (Record ι)) (s : Replay ι) (q : List Quarantined) :
    records.foldl Record.apply { s with quarantine := q }
      = { records.foldl Record.apply s with quarantine := q } := by
  induction records generalizing s with
  | nil => rfl
  | cons r records ih =>
    rw [List.foldl_cons, List.foldl_cons, ← ih]
    cases r <;> rfl

lemma encodeChar_ascii {c : Char} (h : c.toNat < 128) :
    Utf8.encodeChar c = [Utf8.byte c.toNat] := by
  rw [Utf8.encodeChar_eq, if_pos (by omega)]

/-- A text in which an ASCII character was changed for another has another checksum. -/
lemma crc_ne {c d : Char} (hc : c.toNat < 128) (hd : d.toNat < 128) (hne : c ≠ d)
    (front back : List Char) :
    crc (utf16 (front ++ d :: back)) ≠ crc (utf16 (front ++ c :: back)) := by
  have hencode : ∀ x : Char, x.toNat < 128 →
      encode (front ++ x :: back) = encode front ++ Utf8.byte x.toNat :: encode back := by
    intro x hx
    have hcons : encode (x :: back) = Utf8.encodeChar x ++ encode back := rfl
    rw [encode_append, hcons, encodeChar_ascii hx]
    rfl
  have hbyte : Utf8.byte d.toNat ≠ Utf8.byte c.toNat := by
    intro h
    have hnat := congrArg BitVec.toNat h
    rw [Utf8.toNat_byte (by omega), Utf8.toNat_byte (by omega)] at hnat
    exact hne (Char.toNat_inj.mp hnat.symm)
  intro h
  rw [crc, crc, getBytes_utf16, getBytes_utf16, hencode d hd, hencode c hc] at h
  exact Crc32.crc32_ne hbyte _ _ (toHexDigits_injective h)

end

/-! ### A parser of JSON -/

lemma valid_of_plain {o : JsonObject} (h : PlainObject o) : Json.Valid (.obj o) := by
  refine ⟨h.nodup, ?_⟩
  have hplain : ∀ f ∈ o, PlainValue f.2 := fun f hf => (h.plain f hf).2
  clear h
  induction o with
  | nil => exact trivial
  | cons f o ih =>
    refine ⟨?_, ih fun g hg => hplain g (List.mem_cons_of_mem f hg)⟩
    have hvalue := hplain f List.mem_cons_self
    cases hf : f.2 with
    | num t =>
      rw [hf] at hvalue
      exact hvalue.elim
    | arr items =>
      rw [hf] at hvalue
      exact hvalue.elim
    | obj entries =>
      rw [hf] at hvalue
      exact hvalue.elim
    | _ => exact trivial

/-- A JSON writer and parser do what is asked of Gson. -/
lemma gson_json : Gson Json.stringify Json.parse where
  printed h := Json.printable_stringify (valid_of_plain h)
  read h := Json.parse_stringify (valid_of_plain h)
  unended h start rest htext hrest o' := by
    have hvalid := valid_of_plain h
    rw [utf16_append] at htext
    have hne : utf16 rest ≠ [] := by
      intro hnil
      exact hrest (Utf8.utf16_injective (hnil.trans rfl))
    rw [Json.parse_start hvalid rfl htext.symm hne]
    refine ⟨by simp, ?_⟩
    have hend : utf16 [replacement] = [0xFFFD] := rfl
    rw [utf16_append, hend]
    cases hstart : utf16 start with
    | nil => exact fun hsome => by cases hsome
    | cons u t =>
      have hu : u = Json.leftBrace := by
        rw [hstart] at htext
        exact (List.cons.inj htext).1.symm
      rw [hu, Json.parse_object_concat (by decide) (by decide)]
      simp

/-! ### Records of one entry -/

/-- Times as their texts. -/
def textInstants : Instants Text where
  toText := id
  parse := some
  epoch := text "1970-01-01T00:00:00Z"
  parse_toText _ := rfl

lemma post_mem : text "POST" ∈ writeMethods := by decide

lemma groups_path : pathStart <+: text "/v1/groups" := by decide

def aWrite : QueuedWrite :=
  ⟨text "POST", text "/v1/groups", none, none, false, text "create", post_mem, groups_path⟩

def anEntry : Entry Text := ⟨text "a", text "k", aWrite, text "2026-01-01T00:00:00Z"⟩

lemma plain_anEntry : (Record.put anEntry).Plain textInstants := by
  have htext : ∀ t : String, (t.toList.all fun c => c.toNat < 0x10000) = true →
      PlainText (text t) := fun t ht => @plainText_names [t] (by simpa using ht) _ (by simp)
  intro f hf
  simp only [Record.object, putObject, optJson, anEntry, aWrite, textInstants, List.mem_cons,
    List.not_mem_nil, or_false] at hf
  rcases hf with rfl | rfl | rfl | rfl | rfl | rfl | rfl | rfl | rfl | rfl
  · exact htext "put" (by rfl)
  · exact htext "a" (by rfl)
  · exact htext "k" (by rfl)
  · exact htext "POST" (by rfl)
  · exact htext "/v1/groups" (by rfl)
  · trivial
  · trivial
  · trivial
  · exact htext "create" (by rfl)
  · exact htext "2026-01-01T00:00:00Z" (by rfl)

/-- The record of an entry that was sent. -/
def aDone : Record Text := .done (text "a") (text "success")

lemma plain_aDone : aDone.Plain textInstants := by
  intro f hf
  simp only [aDone, Record.object, doneObject, List.mem_cons, List.not_mem_nil, or_false] at hf
  rcases hf with rfl | rfl | rfl
  all_goals exact @plainText_names ["done", "a", "success"] (by rfl) _ (by simp)

def aDoneStart : List Char := "\x7b\"op\":\"done\",\"id\":\"".toList

def aDoneEnd : List Char := "\",\"outcome\":\"success\"\x7d".toList

lemma stringify_aDone :
    Json.stringify (.obj (aDone.object textInstants)) = utf16 (aDoneStart ++ 'a' :: aDoneEnd) := by
  decide

/-- The line of `aDone` with another id in it. -/
def aDamagedLine : Text :=
  crc (Json.stringify (.obj (aDone.object textInstants)))
    ++ space :: utf16 (aDoneStart ++ 'b' :: aDoneEnd)

end Junjo.Journal
