import Junjo.Core.Text

/-!
# JSON text of string pairs

`jsonString` writes a string as `JSON.stringify` does, unpaired surrogates escaped, and
`jsonPairs` writes an array of string pairs. Both can be read back, so different lists of pairs
have different texts. `canonicalJson` writes any value, with the keys of objects in order.
-/

namespace Junjo

/-- `"` -/
def quote : CodeUnit := 34

/-- `\` -/
def backslash : CodeUnit := 92

/-- `u` -/
def letterU : CodeUnit := 117

def isHighSurrogate (c : CodeUnit) : Bool := 0xD800 ≤ c.val && c.val ≤ 0xDBFF

def isLowSurrogate (c : CodeUnit) : Bool := 0xDC00 ≤ c.val && c.val ≤ 0xDFFF

/-- The letter of a two-character escape, when the unit has one. -/
def shortEscape (c : CodeUnit) : Option CodeUnit :=
  if c = quote then some quote
  else if c = backslash then some backslash
  else if c = 8 then some 98
  else if c = 12 then some 102
  else if c = 10 then some 110
  else if c = 13 then some 114
  else if c = 9 then some 116
  else none

/-- A lower-case hexadecimal digit. -/
def hexDigit (n : ℕ) : CodeUnit := if n < 10 then Fin.ofNat _ (48 + n) else Fin.ofNat _ (87 + n)

/-- `\uXXXX` with lower-case digits. -/
def unicodeEscape (c : CodeUnit) : Text :=
  [backslash, letterU, hexDigit (c.val / 4096), hexDigit (c.val / 256 % 16),
    hexDigit (c.val / 16 % 16), hexDigit (c.val % 16)]

/-- The text of one unit that does not start a surrogate pair. -/
def quoteUnit (c : CodeUnit) : Text :=
  match shortEscape c with
  | some e => [backslash, e]
  | none => if c.val < 0x20 || isHighSurrogate c || isLowSurrogate c then unicodeEscape c else [c]

/-- The inside of a JSON string literal. -/
def quoteUnits : Text → Text
  | [] => []
  | [c] => quoteUnit c
  | c :: d :: rest =>
    if isHighSurrogate c && isLowSurrogate d then c :: d :: quoteUnits rest
    else quoteUnit c ++ quoteUnits (d :: rest)

/-- `JSON.stringify` of a string. -/
def jsonString (s : Text) : Text := quote :: quoteUnits s ++ [quote]

/-- The text of one `[key, value]` pair. -/
def jsonPair (p : Text × Text) : Text :=
  text "[" ++ jsonString p.1 ++ text "," ++ jsonString p.2 ++ text "]"

/-- `JSON.stringify` of an array of `[key, value]` pairs. -/
def jsonPairs (l : List (Text × Text)) : Text :=
  text "[" ++ List.intercalate (text ",") (l.map jsonPair) ++ text "]"

/-! ### Reading back -/

/-- The unit a two-character escape stands for. -/
def shortUnescape (e : CodeUnit) : CodeUnit :=
  if e = 98 then 8
  else if e = 102 then 12
  else if e = 110 then 10
  else if e = 114 then 13
  else if e = 116 then 9
  else e

def hexValue (c : CodeUnit) : ℕ := if c.val < 58 then c.val - 48 else c.val - 87

/-- Read the inside of a string literal up to its closing quote. -/
def unquote : Text → Option (Text × Text)
  | [] => none
  | c :: rest =>
    if c = quote then some ([], rest)
    else if c = backslash then
      match rest with
      | [] => none
      | e :: rest =>
        if e = letterU then
          match rest with
          | h₃ :: h₂ :: h₁ :: h₀ :: rest =>
            (unquote rest).map fun r =>
              (Fin.ofNat 65536 (hexValue h₃ * 4096 + hexValue h₂ * 256 + hexValue h₁ * 16
                + hexValue h₀) :: r.1, r.2)
          | _ => none
        else (unquote rest).map fun r => (shortUnescape e :: r.1, r.2)
    else (unquote rest).map fun r => (c :: r.1, r.2)

lemma hexValue_hexDigit {n : ℕ} (hn : n < 16) : hexValue (hexDigit n) = n := by
  interval_cases n <;> decide

lemma unquote_unicodeEscape (c : CodeUnit) (rest : Text) :
    unquote (unicodeEscape c ++ rest) = (unquote rest).map fun r => (c :: r.1, r.2) := by
  have hc := c.isLt
  have hback : ¬ backslash = quote := by decide
  simp only [unicodeEscape, List.cons_append, List.nil_append]
  rw [unquote.eq_def]
  simp only [hback, if_false, if_true]
  rw [hexValue_hexDigit (by omega), hexValue_hexDigit (by omega), hexValue_hexDigit (by omega),
    hexValue_hexDigit (by omega)]
  have hval : c.val / 4096 * 4096 + c.val / 256 % 16 * 256 + c.val / 16 % 16 * 16 + c.val % 16
      = c.val := by omega
  rw [hval, Fin.ofNat_val_eq_self]

lemma unquote_quote (rest : Text) : unquote (quote :: rest) = some ([], rest) := by
  rw [unquote.eq_def]
  simp

lemma unquote_plain {c : CodeUnit} (hq : c ≠ quote) (hb : c ≠ backslash) (rest : Text) :
    unquote (c :: rest) = (unquote rest).map fun r => (c :: r.1, r.2) := by
  rw [unquote.eq_def]
  simp only [hq, hb, if_false]

lemma shortEscape_eq_some {c e : CodeUnit} (h : shortEscape c = some e) :
    e ≠ letterU ∧ shortUnescape e = c := by
  unfold shortEscape at h
  split_ifs at h with h₁ h₂ h₃ h₄ h₅ h₆ h₇ <;> cases h <;> subst_vars <;> decide

lemma ne_of_shortEscape_eq_none {c : CodeUnit} (h : shortEscape c = none) :
    c ≠ quote ∧ c ≠ backslash := by
  unfold shortEscape at h
  split_ifs at h with h₁ h₂
  all_goals exact ⟨h₁, h₂⟩

lemma unquote_quoteUnit (c : CodeUnit) (rest : Text) :
    unquote (quoteUnit c ++ rest) = (unquote rest).map fun r => (c :: r.1, r.2) := by
  unfold quoteUnit
  cases hs : shortEscape c with
  | some e =>
    obtain ⟨hu, he⟩ := shortEscape_eq_some hs
    have hback : ¬ backslash = quote := by decide
    dsimp only
    rw [List.cons_append, List.cons_append, List.nil_append, unquote.eq_def]
    simp only [hback, if_false, if_true, hu, he]
  | none =>
    obtain ⟨hq, hb⟩ := ne_of_shortEscape_eq_none hs
    dsimp only
    split_ifs
    · exact unquote_unicodeEscape c rest
    · exact unquote_plain hq hb rest

lemma surrogate_plain {c : CodeUnit} (h : isHighSurrogate c = true ∨ isLowSurrogate c = true) :
    c ≠ quote ∧ c ≠ backslash := by
  simp only [isHighSurrogate, isLowSurrogate, Bool.and_eq_true, decide_eq_true_eq] at h
  constructor <;> rintro rfl <;> revert h <;> decide

/-- Reading a literal gives the string back and leaves what follows the closing quote. -/
lemma unquote_quoteUnits (s rest : Text) :
    unquote (quoteUnits s ++ quote :: rest) = some (s, rest) := by
  induction s using quoteUnits.induct with
  | case1 => simp [quoteUnits, unquote_quote]
  | case2 c => simp [quoteUnits, unquote_quoteUnit, unquote_quote]
  | case3 c d tail hpair ih =>
    obtain ⟨hc, hd⟩ := Bool.and_eq_true_iff.mp hpair
    obtain ⟨hcq, hcb⟩ := surrogate_plain (Or.inl hc)
    obtain ⟨hdq, hdb⟩ := surrogate_plain (Or.inr hd)
    simp only [quoteUnits, hpair, if_true, List.cons_append]
    rw [unquote_plain hcq hcb, unquote_plain hdq hdb, ih]
    rfl
  | case4 c d tail hpair ih =>
    simp only [quoteUnits, hpair, if_false, List.append_assoc, Bool.false_eq_true]
    rw [unquote_quoteUnit, ih]
    rfl

lemma jsonString_append_inj {s s' rest rest' : Text}
    (h : jsonString s ++ rest = jsonString s' ++ rest') : s = s' ∧ rest = rest' := by
  have h' := congrArg (fun t : Text => unquote t.tail) h
  simpa [jsonString, unquote_quoteUnits] using h'

lemma jsonPair_append_inj {p p' : Text × Text} {rest rest' : Text}
    (h : jsonPair p ++ rest = jsonPair p' ++ rest') : p = p' ∧ rest = rest' := by
  simp only [jsonPair, List.append_assoc, List.append_cancel_left_eq] at h
  obtain ⟨hk, h⟩ := jsonString_append_inj h
  simp only [List.append_cancel_left_eq] at h
  obtain ⟨hv, h⟩ := jsonString_append_inj h
  exact ⟨Prod.ext hk hv, List.append_cancel_left h⟩

lemma jsonPair_cons (p : Text × Text) : ∃ t, jsonPair p = 91 :: t := ⟨_, rfl⟩

/-- The comma-separated body of an array of pairs determines the pairs. -/
lemma intercalate_jsonPair_inj {l l' : List (Text × Text)}
    (h : List.intercalate (text ",") (l.map jsonPair) ++ text "]"
      = List.intercalate (text ",") (l'.map jsonPair) ++ text "]") : l = l' := by
  have hbracket : text "]" = [93] := by decide
  have hcomma : text "," = [44] := by decide
  rw [hbracket, hcomma] at h
  induction l generalizing l' with
  | nil =>
    cases l' with
    | nil => rfl
    | cons p l' =>
      obtain ⟨t, ht⟩ := jsonPair_cons p
      cases l' <;> simp [List.intercalate, ht] at h
  | cons p l ih =>
    cases l' with
    | nil =>
      obtain ⟨t, ht⟩ := jsonPair_cons p
      cases l <;> simp [List.intercalate, ht] at h
    | cons p' l' =>
      cases l with
      | nil =>
        cases l' with
        | nil =>
          simp only [List.intercalate, List.map_cons, List.map_nil, List.intersperse,
            List.flatten_cons, List.flatten_nil, List.append_nil] at h
          rw [(jsonPair_append_inj h).1]
        | cons q' l' =>
          simp only [List.intercalate, List.map_cons, List.map_nil, List.intersperse,
            List.flatten_cons, List.flatten_nil, List.append_nil, List.append_assoc] at h
          have h' := (jsonPair_append_inj h).2
          simp at h'
      | cons q l =>
        cases l' with
        | nil =>
          simp only [List.intercalate, List.map_cons, List.map_nil, List.intersperse,
            List.flatten_cons, List.flatten_nil, List.append_nil, List.append_assoc] at h
          have h' := (jsonPair_append_inj h).2
          simp at h'
        | cons q' l' =>
          simp only [List.intercalate, List.map_cons, List.intersperse, List.flatten_cons,
            List.append_assoc] at h
          obtain ⟨hp, h'⟩ := jsonPair_append_inj h
          rw [hp]
          congr 1
          apply ih
          simpa [List.intercalate] using h'

lemma jsonPairs_injective : Function.Injective jsonPairs := by
  intro l l' h
  apply intercalate_jsonPair_inj
  simpa [jsonPairs] using h

lemma jsonPairs_ne_nil (l : List (Text × Text)) : jsonPairs l ≠ [] := by
  simp [jsonPairs, text]

/-! ### Values -/

/-- A JSON value. Objects keep the order in which their keys were set. -/
inductive JsonValue where
  | null
  | bool (b : Bool)
  /-- A number, by its text. -/
  | num (t : Text)
  | str (s : Text)
  | arr (items : List JsonValue)
  | obj (entries : List (Text × JsonValue))

mutual

/-- A text that does not depend on the order of keys in objects. -/
def canonicalJson : JsonValue → Text
  | .null => text "null"
  | .bool b => text (if b then "true" else "false")
  | .num t => t
  | .str s => jsonString s
  | .arr items => text "[" ++ List.intercalate (text ",") (canonicalItems items) ++ text "]"
  | .obj entries =>
    let sorted := (canonicalEntries entries).insertionSort fun e e' => e.1 ≤ e'.1
    text "\x7b" ++ List.intercalate (text ",")
      (sorted.map fun e => jsonString e.1 ++ text ":" ++ e.2) ++ text "\x7d"

def canonicalItems : List JsonValue → List Text
  | [] => []
  | item :: items => canonicalJson item :: canonicalItems items

def canonicalEntries : List (Text × JsonValue) → List (Text × Text)
  | [] => []
  | (k, v) :: entries => (k, canonicalJson v) :: canonicalEntries entries

end

end Junjo
