import Junjo.Core.Dict
import Junjo.Core.Encode
import Junjo.Core.Json
import Junjo.Core.Utf8

/-!
# JSON text

`stringify` writes a value as `JSON.stringify` does and `parse` reads a text as `JSON.parse` does.
A text that was written reads back as the value, is one line, and no proper start of the text of an
object can be read.
-/

namespace Junjo.Json

/-- `,` -/
def comma : CodeUnit := 44

/-- `[` -/
def leftBracket : CodeUnit := 91

/-- `]` -/
def rightBracket : CodeUnit := 93

/-- The opening brace. -/
def leftBrace : CodeUnit := 123

/-- The closing brace. -/
def rightBrace : CodeUnit := 125

/-! ### Writing -/

mutual

/-- `JSON.stringify` -/
def stringify : JsonValue → Text
  | .null => text "null"
  | .bool b => text (if b then "true" else "false")
  | .num t => t
  | .str s => jsonString s
  | .arr items => leftBracket :: itemsText items
  | .obj entries => leftBrace :: entriesText entries

/-- The items of an array and its closing bracket. -/
def itemsText : List JsonValue → Text
  | [] => [rightBracket]
  | [item] => stringify item ++ [rightBracket]
  | item :: items => stringify item ++ comma :: itemsText items

/-- The entries of an object and its closing brace. -/
def entriesText : List (Text × JsonValue) → Text
  | [] => [rightBrace]
  | [(key, value)] => jsonString key ++ colon :: stringify value ++ [rightBrace]
  | (key, value) :: entries =>
    jsonString key ++ colon :: stringify value ++ comma :: entriesText entries

end

/-! ### Numbers -/

def isDigit (c : CodeUnit) : Bool := 48 ≤ c.val && c.val ≤ 57

/-- Where in a number a reader is. -/
inductive NumberState
  | start
  | minus
  | zero
  | int
  | point
  | fraction
  | exponent
  | sign
  | power
deriving DecidableEq

namespace NumberState

def accepting : NumberState → Bool
  | zero | int | fraction | power => true
  | _ => false

/-- The state after the exponent mark, if this is one. -/
def mark (c : CodeUnit) : Option NumberState := if c = 101 ∨ c = 69 then some exponent else none

/-- The state after one more unit, if it belongs to the number. -/
def next (c : CodeUnit) : NumberState → Option NumberState
  | start => if c = 45 then some minus else if c = 48 then some zero else if isDigit c then some int
    else none
  | minus => if c = 48 then some zero else if isDigit c then some int else none
  | zero => if c = 46 then some point else mark c
  | int => if isDigit c then some int else if c = 46 then some point else mark c
  | point => if isDigit c then some fraction else none
  | fraction => if isDigit c then some fraction else mark c
  | exponent => if isDigit c then some power else if c = 43 ∨ c = 45 then some sign else none
  | sign => if isDigit c then some power else none
  | power => if isDigit c then some power else none

end NumberState

/-- The units that occur in numbers. -/
def isNumberUnit (c : CodeUnit) : Bool :=
  isDigit c || c = 43 || c = 45 || c = 46 || c = 69 || c = 101

/-- A number as far as it goes, and what follows. -/
def scanNumber : NumberState → Text → Option (Text × Text)
  | state, [] => if state.accepting then some ([], []) else none
  | state, c :: rest =>
    match state.next c with
    | some state => (scanNumber state rest).map fun r => (c :: r.1, r.2)
    | none => if state.accepting then some ([], c :: rest) else none

/-- The texts of numbers. -/
def IsNumber (t : Text) : Prop := scanNumber .start t = some (t, [])

instance decidableIsNumber (t : Text) : Decidable (IsNumber t) :=
  inferInstanceAs (Decidable (_ = _))

/-! ### Reading -/

def isSpace (c : CodeUnit) : Bool := c = 32 || c = 9 || c = 10 || c = 13

def skipSpace (t : Text) : Text := t.dropWhile isSpace

/-- The value of a hexadecimal digit of either case. -/
def hexDigitValue (c : CodeUnit) : Option ℕ :=
  if 48 ≤ c.val ∧ c.val ≤ 57 then some (c.val - 48)
  else if 97 ≤ c.val ∧ c.val ≤ 102 then some (c.val - 87)
  else if 65 ≤ c.val ∧ c.val ≤ 70 then some (c.val - 55)
  else none

/-- The unit four hexadecimal digits stand for. -/
def hexUnit (h₃ h₂ h₁ h₀ : CodeUnit) : Option CodeUnit := do
  let d₃ ← hexDigitValue h₃
  let d₂ ← hexDigitValue h₂
  let d₁ ← hexDigitValue h₁
  let d₀ ← hexDigitValue h₀
  pure (Fin.ofNat 65536 (d₃ * 4096 + d₂ * 256 + d₁ * 16 + d₀))

/-- The unit a two-character escape stands for. -/
def escaped (e : CodeUnit) : Option CodeUnit :=
  if e = quote then some quote
  else if e = backslash then some backslash
  else if e = 47 then some 47
  else if e = 98 then some 8
  else if e = 102 then some 12
  else if e = 110 then some 10
  else if e = 114 then some 13
  else if e = 116 then some 9
  else none

/-- The inside of a string literal, and what follows its closing quote. -/
def readUnits : Text → Option (Text × Text)
  | [] => none
  | c :: rest =>
    if c = quote then some ([], rest)
    else if c = backslash then
      match rest with
      | [] => none
      | e :: rest =>
        if e = letterU then
          match rest with
          | h₃ :: h₂ :: h₁ :: h₀ :: rest =>
            match hexUnit h₃ h₂ h₁ h₀ with
            | some unit => (readUnits rest).map fun r => (unit :: r.1, r.2)
            | none => none
          | _ => none
        else
          match escaped e with
          | some unit => (readUnits rest).map fun r => (unit :: r.1, r.2)
          | none => none
    else if c.val < 32 then none
    else (readUnits rest).map fun r => (c :: r.1, r.2)

/-- A literal name, else a number, by its first unit. -/
def parseWord (c : CodeUnit) (rest : Text) : Option (JsonValue × Text) :=
  if c = 110 then ((text "ull").isPrefixOf? rest).map fun r => (.null, r)
  else if c = 116 then ((text "rue").isPrefixOf? rest).map fun r => (.bool true, r)
  else if c = 102 then ((text "alse").isPrefixOf? rest).map fun r => (.bool false, r)
  else (scanNumber .start (c :: rest)).map fun r => (.num r.1, r.2)

/-- Nothing up to the closing bracket, or items. -/
def readClosed {α : Type} (close : CodeUnit) (items : Text → Option (List α × Text)) (t : Text) :
    Option (List α × Text) :=
  match skipSpace t with
  | [] => none
  | c :: rest => if c = close then some ([], rest) else items (c :: rest)

/-- One item, then a comma and more items, or the closing bracket. -/
def readItems {α : Type} (close : CodeUnit) (item : Text → Option (α × Text))
    (items : Text → Option (List α × Text)) (t : Text) : Option (List α × Text) :=
  match item t with
  | none => none
  | some (x, rest) =>
    match skipSpace rest with
    | [] => none
    | c :: rest =>
      if c = comma then (items rest).map fun r => (x :: r.1, r.2)
      else if c = close then some ([x], rest)
      else none

/-- A key, a colon and a value. -/
def readEntry (value : Text → Option (JsonValue × Text)) (t : Text) :
    Option ((Text × JsonValue) × Text) :=
  match skipSpace t with
  | [] => none
  | c :: rest =>
    if c = quote then
      match readUnits rest with
      | none => none
      | some (key, rest) =>
        match skipSpace rest with
        | [] => none
        | c :: rest => if c = colon then (value rest).map fun r => ((key, r.1), r.2) else none
    else none

mutual

/-- A value and what follows it. `fuel` bounds the nesting and the number of items. -/
def parseValue : ℕ → Text → Option (JsonValue × Text)
  | 0, _ => none
  | fuel + 1, t =>
    match skipSpace t with
    | [] => none
    | c :: rest =>
      if c = quote then (readUnits rest).map fun r => (.str r.1, r.2)
      else if c = leftBracket then
        (readClosed rightBracket (parseItems fuel) rest).map fun r => (.arr r.1, r.2)
      -- a key that occurs again sets the value of its first occurrence
      else if c = leftBrace then
        (readClosed rightBrace (parseEntries fuel) rest).map fun r =>
          (.obj (Dict.ofList r.1).entries, r.2)
      else parseWord c rest

def parseItems : ℕ → Text → Option (List JsonValue × Text)
  | 0, _ => none
  | fuel + 1, t => readItems rightBracket (parseValue fuel) (parseItems fuel) t

def parseEntries : ℕ → Text → Option (List (Text × JsonValue) × Text)
  | 0, _ => none
  | fuel + 1, t => readItems rightBrace (readEntry (parseValue fuel)) (parseEntries fuel) t

end

/-- `JSON.parse` -/
def parse (t : Text) : Option JsonValue :=
  match parseValue (2 * t.length + 1) t with
  | some (value, rest) => if skipSpace rest = [] then some value else none
  | none => none

/-! ### Reading more -/

/-- The texts of one unit inside a string literal. -/
inductive UnitText : CodeUnit → Text → Prop
  | plain {c : CodeUnit} (hquote : c ≠ quote) (hbackslash : c ≠ backslash) (hcontrol : ¬ c.val < 32) :
    UnitText c [c]
  | short {c e : CodeUnit} (hu : e ≠ letterU) (he : escaped e = some c) : UnitText c [backslash, e]
  | unicode {c h₃ h₂ h₁ h₀ : CodeUnit} (h : hexUnit h₃ h₂ h₁ h₀ = some c) :
    UnitText c [backslash, letterU, h₃, h₂, h₁, h₀]

variable {t u rest : Text} {c : CodeUnit}

/-- No number goes on in the text. -/
def EndsNumber (t : Text) : Prop := ∀ c ∈ t.head?, isNumberUnit c = false

lemma skipSpace_eq_cons_iff :
    skipSpace t = c :: rest ↔ ∃ s, (∀ d ∈ s, isSpace d = true) ∧ isSpace c = false ∧ t = s ++ c :: rest := by
  induction t with
  | nil => simp [skipSpace]
  | cons d t ih =>
    rw [skipSpace, List.dropWhile_cons]
    by_cases hd : isSpace d = true
    · rw [if_pos hd]
      refine ih.trans ⟨?_, ?_⟩
      · rintro ⟨s, hs, hc, rfl⟩
        exact ⟨d :: s, by simpa [hd] using hs, hc, rfl⟩
      · rintro ⟨s, hs, hc, heq⟩
        cases s with
        | nil =>
          obtain ⟨rfl, rfl⟩ := List.cons_eq_cons.mp heq
          rw [hd] at hc
          cases hc
        | cons e s =>
          obtain ⟨rfl, rfl⟩ := List.cons_eq_cons.mp heq
          exact ⟨s, fun e he => hs e (List.mem_cons_of_mem _ he), hc, rfl⟩
    · rw [if_neg hd]
      constructor
      · intro heq
        obtain ⟨rfl, rfl⟩ := List.cons_eq_cons.mp heq
        exact ⟨[], by simp, by simpa using hd, rfl⟩
      · rintro ⟨s, hs, hc, heq⟩
        cases s with
        | nil => exact heq
        | cons e s =>
          obtain ⟨rfl, rfl⟩ := List.cons_eq_cons.mp heq
          exact absurd (hs d List.mem_cons_self) hd

lemma skipSpace_append (h : skipSpace t = c :: rest) (u : Text) :
    skipSpace (t ++ u) = c :: (rest ++ u) := by
  obtain ⟨s, hs, hc, rfl⟩ := skipSpace_eq_cons_iff.mp h
  rw [List.append_assoc, List.cons_append]
  exact skipSpace_eq_cons_iff.mpr ⟨s, hs, hc, rfl⟩

lemma skipSpace_cons (h : isSpace c = false) (t : Text) : skipSpace (c :: t) = c :: t :=
  skipSpace_eq_cons_iff.mpr ⟨[], by simp, h, rfl⟩

lemma next_eq_none {state : NumberState} (h : isNumberUnit c = false) : state.next c = none := by
  simp only [isNumberUnit, Bool.or_eq_false_iff, decide_eq_false_iff_not] at h
  obtain ⟨⟨⟨⟨⟨hdigit, hplus⟩, hminus⟩, hpoint⟩, hE⟩, he⟩ := h
  have hzero : c ≠ 48 := by
    rintro rfl
    exact absurd hdigit (by decide)
  cases state <;> simp [NumberState.next, NumberState.mark, hdigit, hplus, hminus, hpoint, hE, he, hzero]

/-- What follows a number is not changed by what comes after that. -/
lemma scanNumber_append {state : NumberState} {a : Text}
    (h : scanNumber state t = some (a, rest)) (hu : rest ≠ [] ∨ EndsNumber u) :
    scanNumber state (t ++ u) = some (a, rest ++ u) := by
  induction t generalizing state a with
  | nil =>
    rw [scanNumber] at h
    split_ifs at h with hstate
    cases h
    cases u with
    | nil => rw [List.append_nil, scanNumber, if_pos hstate]
    | cons d u =>
      have hd : isNumberUnit d = false := (hu.resolve_left fun hne => hne rfl) d rfl
      rw [List.nil_append, scanNumber, next_eq_none hd]
      dsimp only
      rw [if_pos hstate]
  | cons d t ih =>
    rw [scanNumber] at h
    rw [List.cons_append, scanNumber]
    cases hnext : state.next d with
    | none =>
      rw [hnext] at h
      dsimp only at h ⊢
      split_ifs at h ⊢ with hstate
      cases h
      rfl
    | some state' =>
      rw [hnext] at h
      obtain ⟨r, hr, heq⟩ := Option.map_eq_some_iff.mp h
      obtain ⟨rfl, rfl⟩ := Prod.mk.inj heq
      dsimp only
      have hrest : scanNumber state' (t ++ u) = some (r.1, r.2 ++ u) := ih hr
      rw [hrest]
      rfl

lemma readUnits_quote (t : Text) : readUnits (quote :: t) = some ([], t) := by
  rw [readUnits.eq_def]
  simp

lemma readUnits_unit {a : Text} (h : UnitText c a) (t : Text) :
    readUnits (a ++ t) = (readUnits t).map fun r => (c :: r.1, r.2) := by
  have hback : ¬ backslash = quote := by decide
  cases h with
  | plain hquote hbackslash hcontrol =>
    rw [List.singleton_append, readUnits.eq_def]
    simp only [hquote, hbackslash, hcontrol, if_false]
  | short hu he =>
    rw [List.cons_append, List.cons_append, List.nil_append, readUnits.eq_def]
    simp only [hback, hu, he, if_false, if_true]
  | unicode h =>
    simp only [List.cons_append, List.nil_append]
    rw [readUnits.eq_def]
    simp only [hback, h, if_false, if_true]

/-- A literal is at its closing quote, or begins with the text of a unit. -/
lemma readUnits_eq_some {s : Text} (h : readUnits t = some (s, rest)) :
    (s = [] ∧ t = quote :: rest) ∨
      ∃ c a s' t', UnitText c a ∧ t = a ++ t' ∧ s = c :: s' ∧ readUnits t' = some (s', rest) := by
  have hback : ¬ backslash = quote := by decide
  fun_cases readUnits t with
  | case2 tail =>
    rw [readUnits_quote] at h
    cases h
    exact Or.inl ⟨rfl, rfl⟩
  | case4 h₃ h₂ h₁ h₀ tail unit hunit =>
    have hread := readUnits_unit (UnitText.unicode hunit) tail
    rw [show [backslash, letterU, h₃, h₂, h₁, h₀] ++ tail
      = backslash :: letterU :: h₃ :: h₂ :: h₁ :: h₀ :: tail from rfl, h] at hread
    obtain ⟨r, hr, heq⟩ := Option.map_eq_some_iff.mp hread.symm
    obtain ⟨rfl, rfl⟩ := Prod.mk.inj heq
    exact Or.inr ⟨unit, _, r.1, tail, .unicode hunit, rfl, rfl, hr⟩
  | case7 e tail hu unit he =>
    have hread := readUnits_unit (UnitText.short hu he) tail
    rw [show [backslash, e] ++ tail = backslash :: e :: tail from rfl, h] at hread
    obtain ⟨r, hr, heq⟩ := Option.map_eq_some_iff.mp hread.symm
    obtain ⟨rfl, rfl⟩ := Prod.mk.inj heq
    exact Or.inr ⟨unit, _, r.1, tail, .short hu he, rfl, rfl, hr⟩
  | case10 d tail hquote hbackslash hcontrol =>
    have hread := readUnits_unit (UnitText.plain hquote hbackslash hcontrol) tail
    rw [List.singleton_append, h] at hread
    obtain ⟨r, hr, heq⟩ := Option.map_eq_some_iff.mp hread.symm
    obtain ⟨rfl, rfl⟩ := Prod.mk.inj heq
    exact Or.inr ⟨d, [d], r.1, tail, .plain hquote hbackslash hcontrol, rfl, rfl, hr⟩
  | _ =>
    rw [readUnits.eq_def] at h
    simp_all

lemma readUnits_append {s : Text} (h : readUnits t = some (s, rest)) (u : Text) :
    readUnits (t ++ u) = some (s, rest ++ u) := by
  induction s generalizing t with
  | nil =>
    rcases readUnits_eq_some h with ⟨-, rfl⟩ | ⟨c, a, s', t', -, -, heq, -⟩
    · exact readUnits_quote _
    · cases heq
  | cons d s ih =>
    rcases readUnits_eq_some h with ⟨heq, -⟩ | ⟨c, a, s', t', hunit, rfl, heq, hread⟩
    · cases heq
    · obtain ⟨rfl, rfl⟩ := List.cons_eq_cons.mp heq
      rw [List.append_assoc, readUnits_unit hunit, ih hread]
      rfl

/-- The texts after which a value does not go on. -/
def EndsValue (rest u : Text) : Prop := rest ≠ [] ∨ EndsNumber u

lemma map_append {α β : Type} {o o' : Option (α × Text)} {f : α → β} {y : β}
    (h : (o.map fun r => (f r.1, r.2)) = some (y, rest))
    (ho : ∀ x, o = some (x, rest) → o' = some (x, rest ++ u)) :
    (o'.map fun r => (f r.1, r.2)) = some (y, rest ++ u) := by
  obtain ⟨⟨x, r⟩, hr, heq⟩ := Option.map_eq_some_iff.mp h
  obtain ⟨rfl, rfl⟩ := Prod.mk.inj heq
  rw [ho x hr]
  rfl

lemma literal_append {lit : Text} {value value' : JsonValue}
    (h : ((lit.isPrefixOf? t).map fun r => (value, r)) = some (value', rest)) (u : Text) :
    ((lit.isPrefixOf? (t ++ u)).map fun r => (value, r)) = some (value', rest ++ u) := by
  obtain ⟨r, hr, heq⟩ := Option.map_eq_some_iff.mp h
  obtain ⟨rfl, rfl⟩ := Prod.mk.inj heq
  have hmore : lit.isPrefixOf? (t ++ u) = some (r ++ u) := by
    rw [List.isPrefixOf?_eq_some_iff_append_eq] at hr ⊢
    rw [← hr, List.append_assoc]
  rw [hmore]
  rfl

lemma parseWord_append {value : JsonValue} (h : parseWord c t = some (value, rest))
    (hu : EndsValue rest u) : parseWord c (t ++ u) = some (value, rest ++ u) := by
  unfold parseWord at h ⊢
  split_ifs at h ⊢ with h₁ h₂ h₃
  · exact literal_append h u
  · exact literal_append h u
  · exact literal_append h u
  · exact map_append h fun a ha => scanNumber_append ha hu

lemma readClosed_append {α : Type} {close : CodeUnit} {items items' : Text → Option (List α × Text)}
    {xs : List α} (h : readClosed close items t = some (xs, rest))
    (hitems : ∀ s, items s = some (xs, rest) → items' (s ++ u) = some (xs, rest ++ u)) :
    readClosed close items' (t ++ u) = some (xs, rest ++ u) := by
  unfold readClosed at h ⊢
  cases hskip : skipSpace t with
  | nil =>
    rw [hskip] at h
    cases h
  | cons d tail =>
    rw [hskip] at h
    rw [skipSpace_append hskip u]
    dsimp only at h ⊢
    split_ifs at h ⊢
    · cases h
      rfl
    · exact hitems _ h

lemma readItems_append {α : Type} {close : CodeUnit} {item item' : Text → Option (α × Text)}
    {items items' : Text → Option (List α × Text)} {xs : List α}
    (h : readItems close item items t = some (xs, rest))
    (hitem : ∀ x r, item t = some (x, r) → r ≠ [] → item' (t ++ u) = some (x, r ++ u))
    (hitems : ∀ s xs, items s = some (xs, rest) → items' (s ++ u) = some (xs, rest ++ u)) :
    readItems close item' items' (t ++ u) = some (xs, rest ++ u) := by
  unfold readItems at h ⊢
  cases hread : item t with
  | none =>
    rw [hread] at h
    cases h
  | some p =>
    obtain ⟨x, r⟩ := p
    rw [hread] at h
    dsimp only at h
    cases hskip : skipSpace r with
    | nil =>
      rw [hskip] at h
      cases h
    | cons d tail =>
      have hr : r ≠ [] := by
        rintro rfl
        cases hskip
      rw [hskip] at h
      rw [hitem x r hread hr]
      dsimp only
      rw [skipSpace_append hskip u]
      dsimp only at h ⊢
      split_ifs at h ⊢
      · obtain ⟨⟨ys, r'⟩, hr', heq⟩ := Option.map_eq_some_iff.mp h
        obtain ⟨rfl, rfl⟩ := Prod.mk.inj heq
        rw [hitems _ ys hr']
        rfl
      · cases h
        rfl

lemma readEntry_append {value value' : Text → Option (JsonValue × Text)} {entry : Text × JsonValue}
    (h : readEntry value t = some (entry, rest))
    (hvalue : ∀ s v, value s = some (v, rest) → value' (s ++ u) = some (v, rest ++ u)) :
    readEntry value' (t ++ u) = some (entry, rest ++ u) := by
  unfold readEntry at h ⊢
  cases hskip : skipSpace t with
  | nil =>
    rw [hskip] at h
    cases h
  | cons d tail =>
    rw [hskip] at h
    rw [skipSpace_append hskip u]
    dsimp only at h ⊢
    split_ifs at h ⊢
    cases hkey : readUnits tail with
    | none =>
      rw [hkey] at h
      cases h
    | some p =>
      obtain ⟨key, r⟩ := p
      rw [hkey] at h
      rw [readUnits_append hkey u]
      dsimp only at h ⊢
      cases hskip' : skipSpace r with
      | nil =>
        rw [hskip'] at h
        cases h
      | cons d' tail' =>
        rw [hskip'] at h
        rw [skipSpace_append hskip' u]
        dsimp only at h ⊢
        split_ifs at h ⊢
        obtain ⟨⟨v, r'⟩, hr', heq⟩ := Option.map_eq_some_iff.mp h
        obtain ⟨rfl, rfl⟩ := Prod.mk.inj heq
        rw [hvalue _ v hr']
        rfl

/-- More text and more fuel give the same value, with the text that was added left over. -/
lemma parse_append (n m : ℕ) (hm : n ≤ m) :
    (∀ t value rest u, parseValue n t = some (value, rest) → EndsValue rest u →
      parseValue m (t ++ u) = some (value, rest ++ u)) ∧
    (∀ t items rest u, parseItems n t = some (items, rest) →
      parseItems m (t ++ u) = some (items, rest ++ u)) ∧
    ∀ t entries rest u, parseEntries n t = some (entries, rest) →
      parseEntries m (t ++ u) = some (entries, rest ++ u) := by
  induction n generalizing m with
  | zero =>
    refine ⟨?_, ?_, ?_⟩
    · intro t value rest u h
      rw [parseValue] at h
      cases h
    · intro t items rest u h
      rw [parseItems] at h
      cases h
    · intro t entries rest u h
      rw [parseEntries] at h
      cases h
  | succ n ih =>
    obtain ⟨m, rfl⟩ : ∃ k, m = k + 1 := ⟨m - 1, by omega⟩
    obtain ⟨ihvalue, ihitems, ihentries⟩ := ih m (Nat.le_of_succ_le_succ hm)
    refine ⟨?_, ?_, ?_⟩
    · intro t value rest u h hu
      rw [parseValue] at h ⊢
      cases hskip : skipSpace t with
      | nil =>
        rw [hskip] at h
        cases h
      | cons d tail =>
        rw [hskip] at h
        rw [skipSpace_append hskip u]
        dsimp only at h ⊢
        split_ifs at h ⊢
        · exact map_append h fun s hs => readUnits_append hs u
        · exact map_append h fun xs hxs => readClosed_append hxs fun s hs => ihitems s xs _ u hs
        · refine map_append (f := fun es => JsonValue.obj (Dict.ofList es).entries) h fun xs hxs => ?_
          exact readClosed_append hxs fun s hs => ihentries s xs _ u hs
        · exact parseWord_append h hu
    · intro t items rest u h
      rw [parseItems] at h ⊢
      exact readItems_append h (fun x r hx hr => ihvalue t x r u hx (Or.inl hr))
        fun s xs hs => ihitems s xs _ u hs
    · intro t entries rest u h
      rw [parseEntries] at h ⊢
      refine readItems_append h (fun x r hx hr => ?_) fun s xs hs => ihentries s xs _ u hs
      exact readEntry_append hx fun s v hs => ihvalue s v r u hs (Or.inl hr)

/-! ### What reading leaves -/

lemma skipSpace_suffix (h : skipSpace t = c :: rest) : (c :: rest) <:+ t := by
  rw [← h]
  exact List.dropWhile_suffix _

lemma readUnits_suffix {s : Text} (h : readUnits t = some (s, rest)) : rest <:+ t := by
  induction s generalizing t with
  | nil =>
    rcases readUnits_eq_some h with ⟨-, rfl⟩ | ⟨c, a, s', t', -, -, heq, -⟩
    · exact List.suffix_cons _ _
    · cases heq
  | cons d s ih =>
    rcases readUnits_eq_some h with ⟨heq, -⟩ | ⟨c, a, s', t', -, rfl, heq, hread⟩
    · cases heq
    · obtain ⟨rfl, rfl⟩ := List.cons_eq_cons.mp heq
      exact (ih hread).trans (List.suffix_append _ _)

lemma scanNumber_suffix {state : NumberState} {a : Text}
    (h : scanNumber state t = some (a, rest)) : rest <:+ t := by
  induction t generalizing state a with
  | nil =>
    rw [scanNumber] at h
    split_ifs at h
    cases h
    exact List.suffix_rfl
  | cons d t ih =>
    rw [scanNumber] at h
    cases hnext : state.next d with
    | none =>
      rw [hnext] at h
      dsimp only at h
      split_ifs at h
      cases h
      exact List.suffix_rfl
    | some state' =>
      rw [hnext] at h
      obtain ⟨⟨b, r⟩, hr, heq⟩ := Option.map_eq_some_iff.mp h
      obtain ⟨rfl, rfl⟩ := Prod.mk.inj heq
      exact (ih hr).trans (List.suffix_cons _ _)

lemma map_suffix {α β : Type} {o : Option (α × Text)} {f : α → β} {y : β}
    (h : (o.map fun r => (f r.1, r.2)) = some (y, rest)) (ho : ∀ x r, o = some (x, r) → r <:+ t) :
    rest <:+ t := by
  obtain ⟨⟨x, r⟩, hr, heq⟩ := Option.map_eq_some_iff.mp h
  obtain ⟨rfl, rfl⟩ := Prod.mk.inj heq
  exact ho x r hr

lemma literal_suffix {lit : Text} {value value' : JsonValue}
    (h : ((lit.isPrefixOf? t).map fun r => (value, r)) = some (value', rest)) : rest <:+ t := by
  obtain ⟨r, hr, heq⟩ := Option.map_eq_some_iff.mp h
  obtain ⟨rfl, rfl⟩ := Prod.mk.inj heq
  exact ⟨lit, List.isPrefixOf?_eq_some_iff_append_eq.mp hr⟩

lemma parseWord_suffix {value : JsonValue} (h : parseWord c t = some (value, rest)) :
    rest <:+ (c :: t) := by
  unfold parseWord at h
  split_ifs at h
  · exact (literal_suffix h).trans (List.suffix_cons _ _)
  · exact (literal_suffix h).trans (List.suffix_cons _ _)
  · exact (literal_suffix h).trans (List.suffix_cons _ _)
  · exact map_suffix h fun a r hr => scanNumber_suffix hr

lemma readClosed_suffix {α : Type} {close : CodeUnit} {items : Text → Option (List α × Text)}
    {xs : List α} (h : readClosed close items t = some (xs, rest))
    (hitems : ∀ s, items s = some (xs, rest) → (close :: rest) <:+ s) : (close :: rest) <:+ t := by
  unfold readClosed at h
  cases hskip : skipSpace t with
  | nil =>
    rw [hskip] at h
    cases h
  | cons d tail =>
    rw [hskip] at h
    dsimp only at h
    split_ifs at h with hd
    · cases h
      exact hd ▸ skipSpace_suffix hskip
    · exact (hitems _ h).trans (skipSpace_suffix hskip)

lemma readItems_suffix {α : Type} {close : CodeUnit} {item : Text → Option (α × Text)}
    {items : Text → Option (List α × Text)} {xs : List α}
    (h : readItems close item items t = some (xs, rest))
    (hitem : ∀ x r, item t = some (x, r) → r <:+ t)
    (hitems : ∀ s xs, items s = some (xs, rest) → (close :: rest) <:+ s) :
    (close :: rest) <:+ t := by
  unfold readItems at h
  cases hread : item t with
  | none =>
    rw [hread] at h
    cases h
  | some p =>
    obtain ⟨x, r⟩ := p
    rw [hread] at h
    dsimp only at h
    cases hskip : skipSpace r with
    | nil =>
      rw [hskip] at h
      cases h
    | cons d tail =>
      have htail := (skipSpace_suffix hskip).trans (hitem x r hread)
      rw [hskip] at h
      dsimp only at h
      split_ifs at h with hcomma hclose
      · obtain ⟨⟨ys, r'⟩, hr', heq⟩ := Option.map_eq_some_iff.mp h
        obtain ⟨rfl, rfl⟩ := Prod.mk.inj heq
        exact (hitems _ ys hr').trans ((List.suffix_cons _ _).trans htail)
      · cases h
        exact hclose ▸ htail

lemma readEntry_suffix {value : Text → Option (JsonValue × Text)} {entry : Text × JsonValue}
    (h : readEntry value t = some (entry, rest))
    (hvalue : ∀ s v, value s = some (v, rest) → rest <:+ s) : rest <:+ t := by
  unfold readEntry at h
  cases hskip : skipSpace t with
  | nil =>
    rw [hskip] at h
    cases h
  | cons d tail =>
    rw [hskip] at h
    dsimp only at h
    split_ifs at h
    cases hkey : readUnits tail with
    | none =>
      rw [hkey] at h
      cases h
    | some p =>
      obtain ⟨key, r⟩ := p
      rw [hkey] at h
      dsimp only at h
      cases hskip' : skipSpace r with
      | nil =>
        rw [hskip'] at h
        cases h
      | cons d' tail' =>
        rw [hskip'] at h
        dsimp only at h
        split_ifs at h
        have htail : tail' <:+ t :=
          (List.suffix_cons _ _).trans ((skipSpace_suffix hskip').trans ((readUnits_suffix hkey).trans
            ((List.suffix_cons _ _).trans (skipSpace_suffix hskip))))
        exact map_suffix h fun v r' hr' => by
          obtain ⟨⟨w, r''⟩, hr'', heq⟩ := Option.map_eq_some_iff.mp h
          obtain ⟨-, rfl⟩ := Prod.mk.inj heq
          rw [hr''] at hr'
          cases hr'
          exact (hvalue _ v hr'').trans htail

lemma parse_suffix (n : ℕ) :
    (∀ t value rest, parseValue n t = some (value, rest) → rest <:+ t) ∧
    (∀ t items rest, parseItems n t = some (items, rest) → (rightBracket :: rest) <:+ t) ∧
    ∀ t entries rest, parseEntries n t = some (entries, rest) → (rightBrace :: rest) <:+ t := by
  induction n with
  | zero =>
    refine ⟨?_, ?_, ?_⟩
    · intro t value rest h
      rw [parseValue] at h
      cases h
    · intro t items rest h
      rw [parseItems] at h
      cases h
    · intro t entries rest h
      rw [parseEntries] at h
      cases h
  | succ n ih =>
    obtain ⟨ihvalue, ihitems, ihentries⟩ := ih
    refine ⟨?_, ?_, ?_⟩
    · intro t value rest h
      rw [parseValue] at h
      cases hskip : skipSpace t with
      | nil =>
        rw [hskip] at h
        cases h
      | cons d tail =>
        have htail : tail <:+ t := (List.suffix_cons _ _).trans (skipSpace_suffix hskip)
        rw [hskip] at h
        dsimp only at h
        split_ifs at h
        · exact map_suffix h fun s r hs => (readUnits_suffix hs).trans htail
        · exact map_suffix h fun xs r hxs => (List.suffix_cons _ _).trans
            ((readClosed_suffix hxs fun s hs => ihitems s xs r hs).trans htail)
        · exact map_suffix (f := fun es => JsonValue.obj (Dict.ofList es).entries) h fun xs r hxs =>
            (List.suffix_cons _ _).trans
              ((readClosed_suffix hxs fun s hs => ihentries s xs r hs).trans htail)
        · exact (parseWord_suffix h).trans (skipSpace_suffix hskip)
    · intro t items rest h
      rw [parseItems] at h
      exact readItems_suffix h (fun x r hx => ihvalue t x r hx) fun s xs hs => ihitems s xs _ hs
    · intro t entries rest h
      rw [parseEntries] at h
      refine readItems_suffix h (fun x r hx => ?_) fun s xs hs => ihentries s xs _ hs
      exact readEntry_suffix hx fun s v hs => ihvalue s v r hs

/-! ### Integers -/

/-- The text of an integer. -/
def integerText (z : ℤ) : Text :=
  if z < 0 then 45 :: decimal z.natAbs else decimal z.natAbs

lemma isDigit_digitUnit {d : ℕ} (h : d < 10) : isDigit (digitUnit d) = true := by
  interval_cases d <;> decide

lemma scanNumber_digits (h : ∀ c ∈ t, isDigit c = true) : scanNumber .int t = some (t, []) := by
  induction t with
  | nil => rfl
  | cons c t ih =>
    have hnext : NumberState.int.next c = some .int := by
      rw [NumberState.next, if_pos (h c List.mem_cons_self)]
    rw [scanNumber, hnext]
    dsimp only
    rw [ih fun d hd => h d (List.mem_cons_of_mem _ hd)]
    rfl

/-- The first digit of a number other than zero, and the digits after it. -/
lemma decimal_eq_cons {n : ℕ} (hn : n ≠ 0) :
    ∃ d t, decimal n = digitUnit d :: t ∧ d ≠ 0 ∧ d < 10 ∧ ∀ c ∈ t, isDigit c = true := by
  have hne : (Nat.digits 10 n).reverse ≠ [] := by
    rwa [Ne, List.reverse_eq_nil_iff, Nat.digits_eq_nil_iff_eq_zero]
  obtain ⟨d, ds, hds⟩ := List.exists_cons_of_ne_nil hne
  have hmem : ∀ e ∈ d :: ds, e < 10 := by
    intro e he
    rw [← hds, List.mem_reverse] at he
    exact Nat.digits_lt_base (by omega) he
  have hlast : (Nat.digits 10 n).getLast? = some d := by
    rw [← List.head?_reverse, hds, List.head?_cons]
  refine ⟨d, ds.map digitUnit, by rw [decimal, if_neg hn, hds, List.map_cons], ?_,
    hmem d List.mem_cons_self, ?_⟩
  · rintro rfl
    have hdigits : Nat.digits 10 n ≠ [] := by rwa [Ne, Nat.digits_eq_nil_iff_eq_zero]
    rw [List.getLast?_eq_getLast_of_ne_nil hdigits, Option.some_inj] at hlast
    exact Nat.getLast_digit_ne_zero 10 hn hlast
  · intro c hc
    obtain ⟨e, he, rfl⟩ := List.mem_map.mp hc
    exact isDigit_digitUnit (hmem e (List.mem_cons_of_mem _ he))

/-- A natural number where a number may begin. -/
lemma scanNumber_decimal {state : NumberState} (hstate : state = .start ∨ state = .minus) (n : ℕ) :
    scanNumber state (decimal n) = some (decimal n, []) := by
  by_cases hn : n = 0
  · subst hn
    rcases hstate with rfl | rfl <;> rfl
  · obtain ⟨d, t, hdt, hd, hlt, ht⟩ := decimal_eq_cons hn
    have hval := digitUnit_val hlt
    have hzero : digitUnit d ≠ 48 := by
      intro heq
      rw [heq] at hval
      change 48 = 48 + d at hval
      omega
    have hminus : digitUnit d ≠ 45 := by
      intro heq
      rw [heq] at hval
      change 45 = 48 + d at hval
      omega
    have hnext : state.next (digitUnit d) = some .int := by
      rcases hstate with rfl | rfl <;>
        simp [NumberState.next, hzero, hminus, isDigit_digitUnit hlt]
    rw [hdt, scanNumber, hnext]
    dsimp only
    rw [scanNumber_digits ht]
    rfl

lemma isNumber_decimal (n : ℕ) : IsNumber (decimal n) := scanNumber_decimal (Or.inl rfl) n

lemma isNumber_integerText (z : ℤ) : IsNumber (integerText z) := by
  rw [integerText]
  by_cases hz : z < 0
  · rw [if_pos hz, IsNumber, scanNumber]
    have hnext : NumberState.start.next 45 = some .minus := rfl
    rw [hnext]
    dsimp only
    rw [scanNumber_decimal (Or.inr rfl)]
    rfl
  · rw [if_neg hz]
    exact isNumber_decimal _

/-! ### Reading what was written -/

lemma hexDigitValue_hexDigit {n : ℕ} (hn : n < 16) : hexDigitValue (hexDigit n) = some n := by
  interval_cases n <;> decide

lemma unitText_quoteUnit (c : CodeUnit) : UnitText c (quoteUnit c) := by
  have hc := c.isLt
  unfold quoteUnit
  cases hshort : shortEscape c with
  | some e =>
    refine UnitText.short (shortEscape_eq_some hshort).1 ?_
    unfold shortEscape at hshort
    split_ifs at hshort <;> cases hshort <;> subst_vars <;> decide
  | none =>
    obtain ⟨hquote, hbackslash⟩ := ne_of_shortEscape_eq_none hshort
    dsimp only
    by_cases hraw : (decide (c.val < 0x20) || isHighSurrogate c || isLowSurrogate c) = true
    · rw [if_pos hraw]
      have hval : c.val / 4096 * 4096 + c.val / 256 % 16 * 256 + c.val / 16 % 16 * 16 + c.val % 16
          = c.val := by omega
      refine UnitText.unicode ?_
      rw [hexUnit, hexDigitValue_hexDigit (by omega), hexDigitValue_hexDigit (by omega),
        hexDigitValue_hexDigit (by omega), hexDigitValue_hexDigit (by omega)]
      dsimp only [bind, Option.bind, pure]
      rw [hval, Fin.ofNat_val_eq_self]
    · rw [if_neg hraw]
      simp only [Bool.or_eq_true, decide_eq_true_eq, not_or] at hraw
      exact UnitText.plain hquote hbackslash hraw.1.1

lemma unitText_surrogate (h : isHighSurrogate c = true ∨ isLowSurrogate c = true) :
    UnitText c [c] := by
  obtain ⟨hquote, hbackslash⟩ := surrogate_plain h
  refine UnitText.plain hquote hbackslash ?_
  simp only [isHighSurrogate, isLowSurrogate, Bool.and_eq_true, decide_eq_true_eq] at h
  omega

lemma readUnits_quoteUnits (s rest : Text) :
    readUnits (quoteUnits s ++ quote :: rest) = some (s, rest) := by
  induction s using quoteUnits.induct with
  | case1 => rw [quoteUnits, List.nil_append, readUnits_quote]
  | case2 c =>
    rw [quoteUnits, readUnits_unit (unitText_quoteUnit c), readUnits_quote]
    rfl
  | case3 c d tail hpair ih =>
    obtain ⟨hc, hd⟩ := Bool.and_eq_true_iff.mp hpair
    rw [quoteUnits, if_pos hpair, ← List.singleton_append, List.append_assoc,
      readUnits_unit (unitText_surrogate (Or.inl hc)), ← List.singleton_append, List.append_assoc,
      readUnits_unit (unitText_surrogate (Or.inr hd)), ih]
    rfl
  | case4 c d tail hpair ih =>
    rw [quoteUnits, if_neg hpair, List.append_assoc, readUnits_unit (unitText_quoteUnit c), ih]
    rfl

mutual

/-- A value that some text stands for: its numbers are numbers and its objects have no key twice. -/
def Valid : JsonValue → Prop
  | .num t => IsNumber t
  | .arr items => ValidItems items
  | .obj entries => (entries.map Prod.fst).Nodup ∧ ValidEntries entries
  | _ => True

def ValidItems : List JsonValue → Prop
  | [] => True
  | item :: items => Valid item ∧ ValidItems items

def ValidEntries : List (Text × JsonValue) → Prop
  | [] => True
  | (_, value) :: entries => Valid value ∧ ValidEntries entries

end

lemma endsNumber_cons (h : isNumberUnit c = false) (t : Text) : EndsNumber (c :: t) := by
  intro d hd
  cases hd
  exact h

lemma IsNumber.head (h : IsNumber t) :
    ∃ c s, t = c :: s ∧ (c.val = 45 ∨ 48 ≤ c.val ∧ c.val ≤ 57) := by
  rw [IsNumber] at h
  cases t with
  | nil => simp [scanNumber, NumberState.accepting] at h
  | cons c t =>
    refine ⟨c, t, rfl, ?_⟩
    rw [scanNumber] at h
    by_contra hc
    rw [not_or] at hc
    have hminus : c ≠ 45 := fun heq => hc.1 (congrArg Fin.val heq)
    have hzero : c ≠ 48 := by
      rintro rfl
      exact hc.2 (by decide)
    have hdigit : isDigit c = false := by
      simpa [isDigit] using hc.2
    have hnext : NumberState.start.next c = none := by
      simp [NumberState.next, hminus, hzero, hdigit]
    rw [hnext] at h
    simp [NumberState.accepting] at h

/-- A number is read by the last branch. -/
lemma ne_of_numberHead (h : c.val = 45 ∨ 48 ≤ c.val ∧ c.val ≤ 57) {d : CodeUnit}
    (hd : ¬ (d.val = 45 ∨ 48 ≤ d.val ∧ d.val ≤ 57)) : c ≠ d := by
  rintro rfl
  exact hd h

lemma isSpace_of_numberHead (h : c.val = 45 ∨ 48 ≤ c.val ∧ c.val ≤ 57) : isSpace c = false := by
  simp only [isSpace, Bool.or_eq_false_iff, decide_eq_false_iff_not]
  exact ⟨⟨⟨ne_of_numberHead h (by decide), ne_of_numberHead h (by decide)⟩,
    ne_of_numberHead h (by decide)⟩, ne_of_numberHead h (by decide)⟩

/-- A value does not begin with space or with a closing bracket. -/
lemma head_stringify {value : JsonValue} (h : Valid value) :
    ∃ c s, stringify value = c :: s ∧ isSpace c = false ∧ c ≠ rightBracket := by
  cases value with
  | null => exact ⟨110, _, rfl, by decide, by decide⟩
  | bool b => cases b <;> exact ⟨_, _, rfl, by decide, by decide⟩
  | num t =>
    obtain ⟨c, s, rfl, hc⟩ := IsNumber.head h
    exact ⟨c, s, rfl, isSpace_of_numberHead hc, ne_of_numberHead hc (by decide)⟩
  | str s => exact ⟨quote, _, rfl, by decide, by decide⟩
  | arr items => exact ⟨leftBracket, _, rfl, by decide, by decide⟩
  | obj entries => exact ⟨leftBrace, _, rfl, by decide, by decide⟩

lemma parseWord_number {n : Text} (h : IsNumber (c :: n)) (hrest : EndsNumber rest) :
    parseWord c (n ++ rest) = some (.num (c :: n), rest) := by
  obtain ⟨d, s, heq, hd⟩ := h.head
  obtain ⟨rfl, rfl⟩ := List.cons_eq_cons.mp heq
  unfold parseWord
  rw [if_neg (ne_of_numberHead hd (by decide)), if_neg (ne_of_numberHead hd (by decide)),
    if_neg (ne_of_numberHead hd (by decide)), ← List.cons_append,
    scanNumber_append h (Or.inr hrest)]
  rfl

lemma jsonString_append (s rest : Text) :
    jsonString s ++ rest = quote :: (quoteUnits s ++ quote :: rest) := by
  simp [jsonString]

lemma readItems_last {α : Type} {close : CodeUnit} {item : Text → Option (α × Text)}
    {items : Text → Option (List α × Text)} {x : α} (hspace : isSpace close = false)
    (hcomma : close ≠ comma) (h : item t = some (x, close :: rest)) :
    readItems close item items t = some ([x], rest) := by
  rw [readItems, h]
  dsimp only
  rw [skipSpace_cons hspace]
  dsimp only
  rw [if_neg hcomma, if_pos rfl]

lemma readItems_comma {α : Type} {close : CodeUnit} {item : Text → Option (α × Text)}
    {items : Text → Option (List α × Text)} {x : α} {xs : List α}
    (h : item t = some (x, comma :: u)) (hitems : items u = some (xs, rest)) :
    readItems close item items t = some (x :: xs, rest) := by
  rw [readItems, h]
  dsimp only
  rw [skipSpace_cons (by decide)]
  dsimp only
  rw [if_pos rfl, hitems]
  rfl

lemma readClosed_close {α : Type} {close : CodeUnit} {items : Text → Option (List α × Text)}
    (hspace : isSpace close = false) : readClosed close items (close :: rest) = some ([], rest) := by
  rw [readClosed, skipSpace_cons hspace]
  dsimp only
  rw [if_pos rfl]

lemma readClosed_items {α : Type} {close : CodeUnit} {items : Text → Option (List α × Text)}
    (hspace : isSpace c = false) (hc : c ≠ close) :
    readClosed close items (c :: t) = items (c :: t) := by
  rw [readClosed, skipSpace_cons hspace]
  dsimp only
  rw [if_neg hc]

lemma readEntry_entry {value : Text → Option (JsonValue × Text)} {key : Text} {v : JsonValue}
    (h : value t = some (v, rest)) :
    readEntry value (jsonString key ++ colon :: t) = some ((key, v), rest) := by
  rw [jsonString_append, readEntry, skipSpace_cons (by decide)]
  dsimp only
  rw [if_pos rfl, readUnits_quoteUnits]
  dsimp only
  rw [skipSpace_cons (by decide)]
  dsimp only
  rw [if_pos rfl, h]
  rfl

lemma entries_ofList {entries : List (Text × JsonValue)} (h : (entries.map Prod.fst).Nodup) :
    (Dict.ofList entries).entries = entries := by
  have hdict : Dict.ofList entries = ⟨entries, h⟩ := Dict.ofList_entries ⟨entries, h⟩
  rw [hdict]

lemma itemsText_cons_cons (item next : JsonValue) (items : List JsonValue) :
    itemsText (item :: next :: items)
      = stringify item ++ comma :: itemsText (next :: items) := by
  rw [itemsText]
  simp

lemma head_itemsText {item : JsonValue} (h : Valid item) (items : List JsonValue) :
    ∃ c s, itemsText (item :: items) = c :: s ∧ isSpace c = false ∧ c ≠ rightBracket := by
  obtain ⟨c, s, hcs, hc⟩ := head_stringify h
  cases items with
  | nil => exact ⟨c, s ++ [rightBracket], by rw [itemsText, hcs, List.cons_append], hc⟩
  | cons next items =>
    exact ⟨c, s ++ comma :: itemsText (next :: items),
      by rw [itemsText_cons_cons, hcs, List.cons_append], hc⟩

/-- The text of an entry. -/
def entryText (entry : Text × JsonValue) : Text :=
  jsonString entry.1 ++ colon :: stringify entry.2

lemma entriesText_singleton (entry : Text × JsonValue) :
    entriesText [entry] = entryText entry ++ [rightBrace] := by
  rw [entriesText, entryText]

lemma entriesText_cons_cons (entry next : Text × JsonValue) (entries : List (Text × JsonValue)) :
    entriesText (entry :: next :: entries)
      = entryText entry ++ comma :: entriesText (next :: entries) := by
  rw [entriesText, entryText, List.append_assoc, List.cons_append]
  simp

lemma head_entriesText (entry : Text × JsonValue) (entries : List (Text × JsonValue)) :
    ∃ s, entriesText (entry :: entries) = quote :: s := by
  cases entries with
  | nil => exact ⟨_, by rw [entriesText_singleton, entryText, jsonString_append, List.cons_append]⟩
  | cons next entries =>
    exact ⟨_, by rw [entriesText_cons_cons, entryText, jsonString_append, List.cons_append]⟩

lemma readEntry_entryText {value : Text → Option (JsonValue × Text)} {entry : Text × JsonValue}
    (h : value (stringify entry.2 ++ t) = some (entry.2, rest)) :
    readEntry value (entryText entry ++ t) = some (entry, rest) := by
  rw [entryText, List.append_assoc, List.cons_append]
  exact readEntry_entry h

mutual

/-- Reading a value gives it back and leaves what follows it. -/
lemma parseValue_stringify {value : JsonValue} (h : Valid value) {n : ℕ} {rest : Text}
    (hrest : EndsNumber rest) (hn : 2 * (stringify value).length < n) :
    parseValue n (stringify value ++ rest) = some (value, rest) := by
  obtain ⟨n, rfl⟩ : ∃ k, n = k + 1 := ⟨n - 1, by omega⟩
  match value with
  | .null => rfl
  | .bool true => rfl
  | .bool false => rfl
  | .num t =>
    rw [Valid] at h
    obtain ⟨c, s, rfl, hc⟩ := h.head
    rw [stringify, parseValue, List.cons_append, skipSpace_cons (isSpace_of_numberHead hc)]
    dsimp only
    rw [if_neg (ne_of_numberHead hc (by decide)), if_neg (ne_of_numberHead hc (by decide)),
      if_neg (ne_of_numberHead hc (by decide)), parseWord_number h hrest]
  | .str s =>
    rw [stringify, jsonString_append, parseValue, skipSpace_cons (by decide)]
    dsimp only
    rw [if_pos rfl, readUnits_quoteUnits]
    rfl
  | .arr items =>
    rw [Valid] at h
    rw [stringify, List.length_cons] at hn
    rw [stringify, parseValue, List.cons_append, skipSpace_cons (by decide)]
    dsimp only
    rw [if_neg (by decide), if_pos rfl, readClosed_itemsText h (by omega)]
    rfl
  | .obj entries =>
    rw [Valid] at h
    rw [stringify, List.length_cons] at hn
    rw [stringify, parseValue, List.cons_append, skipSpace_cons (by decide)]
    dsimp only
    rw [if_neg (by decide), if_neg (by decide), if_pos rfl, readClosed_entriesText h.2 (by omega),
      Option.map_some]
    dsimp only
    rw [entries_ofList h.1]
termination_by (n, 0)

lemma readClosed_itemsText {items : List JsonValue} (h : ValidItems items) {n : ℕ} {rest : Text}
    (hn : 2 * (itemsText items).length < n) :
    readClosed rightBracket (parseItems n) (itemsText items ++ rest) = some (items, rest) := by
  match items with
  | [] => exact readClosed_close (by decide)
  | item :: items =>
    rw [ValidItems] at h
    obtain ⟨c, s, hcs, hspace, hc⟩ := head_itemsText h.1 items
    have hread : parseItems n (itemsText (item :: items) ++ rest) = some (item :: items, rest) :=
      parseItems_itemsText h.1 h.2 hn
    rw [hcs, List.cons_append] at hread ⊢
    rw [readClosed_items hspace hc, hread]
termination_by (n, 1)

lemma parseItems_itemsText {item : JsonValue} {items : List JsonValue} (hitem : Valid item)
    (h : ValidItems items) {n : ℕ} {rest : Text}
    (hn : 2 * (itemsText (item :: items)).length < n) :
    parseItems n (itemsText (item :: items) ++ rest) = some (item :: items, rest) := by
  obtain ⟨n, rfl⟩ : ∃ k, n = k + 1 := ⟨n - 1, by omega⟩
  rw [parseItems]
  match items with
  | [] =>
    rw [itemsText, List.length_append, List.length_singleton] at hn
    rw [itemsText, List.append_assoc]
    apply readItems_last (by decide) (by decide)
    exact parseValue_stringify hitem (endsNumber_cons (by decide) _) (by omega)
  | next :: items =>
    rw [ValidItems] at h
    rw [itemsText_cons_cons, List.length_append, List.length_cons] at hn
    rw [itemsText_cons_cons, List.append_assoc, List.cons_append]
    apply readItems_comma
    · exact parseValue_stringify hitem (endsNumber_cons (by decide) _) (by omega)
    · exact parseItems_itemsText h.1 h.2 (by omega)
termination_by (n, 0)

lemma readClosed_entriesText {entries : List (Text × JsonValue)} (h : ValidEntries entries) {n : ℕ}
    {rest : Text} (hn : 2 * (entriesText entries).length < n) :
    readClosed rightBrace (parseEntries n) (entriesText entries ++ rest) = some (entries, rest) := by
  match entries with
  | [] => exact readClosed_close (by decide)
  | entry :: entries =>
    rw [ValidEntries] at h
    obtain ⟨s, hs⟩ := head_entriesText entry entries
    have hread : parseEntries n (entriesText (entry :: entries) ++ rest)
        = some (entry :: entries, rest) := parseEntries_entriesText h.1 h.2 hn
    rw [hs, List.cons_append] at hread ⊢
    rw [readClosed_items (by decide) (by decide), hread]
termination_by (n, 1)

lemma parseEntries_entriesText {entry : Text × JsonValue} {entries : List (Text × JsonValue)}
    (hentry : Valid entry.2) (h : ValidEntries entries) {n : ℕ} {rest : Text}
    (hn : 2 * (entriesText (entry :: entries)).length < n) :
    parseEntries n (entriesText (entry :: entries) ++ rest) = some (entry :: entries, rest) := by
  obtain ⟨n, rfl⟩ : ∃ k, n = k + 1 := ⟨n - 1, by omega⟩
  have hlength : (entryText entry).length
      = (jsonString entry.1).length + (stringify entry.2).length + 1 := by
    rw [entryText, List.length_append, List.length_cons]
    rfl
  rw [parseEntries]
  match entries with
  | [] =>
    rw [entriesText_singleton, List.length_append, List.length_singleton] at hn
    rw [entriesText_singleton, List.append_assoc]
    apply readItems_last (by decide) (by decide)
    apply readEntry_entryText
    exact parseValue_stringify hentry (endsNumber_cons (by decide) _) (by omega)
  | next :: entries =>
    rw [ValidEntries] at h
    rw [entriesText_cons_cons, List.length_append, List.length_cons] at hn
    rw [entriesText_cons_cons, List.append_assoc, List.cons_append]
    apply readItems_comma
    · apply readEntry_entryText
      exact parseValue_stringify hentry (endsNumber_cons (by decide) _) (by omega)
    · exact parseEntries_entriesText h.1 h.2 (by omega)
termination_by (n, 0)

end

lemma parseValue_whole {value : JsonValue} (h : Valid value) :
    parseValue (2 * (stringify value).length + 1) (stringify value) = some (value, []) := by
  have hnil : parseValue (2 * (stringify value).length + 1) (stringify value ++ []) = some (value, []) :=
    parseValue_stringify h (by rintro c ⟨⟩) (Nat.lt_succ_self _)
  rwa [List.append_nil] at hnil

/-- `JSON.parse` undoes `JSON.stringify`. -/
lemma parse_stringify {value : JsonValue} (h : Valid value) :
    parse (stringify value) = some value := by
  rw [parse, parseValue_whole h]
  rfl

/-! ### The start of the text of an object -/

lemma parseValue_object {n : ℕ} {value : JsonValue}
    (h : parseValue n (leftBrace :: t) = some (value, rest)) :
    (rightBrace :: rest) <:+ t ∧
      ∀ m u, n ≤ m → parseValue m (leftBrace :: t ++ u) = some (value, rest ++ u) := by
  cases n with
  | zero =>
    rw [parseValue] at h
    cases h
  | succ n =>
    rw [parseValue, skipSpace_cons (by decide)] at h
    dsimp only at h
    rw [if_neg (by decide), if_neg (by decide), if_pos rfl] at h
    constructor
    · obtain ⟨⟨xs, r⟩, hr, heq⟩ := Option.map_eq_some_iff.mp h
      obtain ⟨-, rfl⟩ := Prod.mk.inj heq
      exact readClosed_suffix hr fun s hs => (parse_suffix n).2.2 s xs r hs
    · intro m u hm
      obtain ⟨m, rfl⟩ : ∃ k, m = k + 1 := ⟨m - 1, by omega⟩
      rw [parseValue, List.cons_append, skipSpace_cons (by decide)]
      dsimp only
      rw [if_neg (by decide), if_neg (by decide), if_pos rfl]
      refine map_append (f := fun es => JsonValue.obj (Dict.ofList es).entries) h fun xs hxs => ?_
      exact readClosed_append hxs fun s hs =>
        (parse_append n m (Nat.le_of_succ_le_succ hm)).2.2 s xs _ u hs

/-- No proper start of the text of an object can be read. -/
lemma parse_start {value : JsonValue} (h : Valid value) (hobj : (stringify value).head? = some leftBrace)
    (htext : t ++ u = stringify value) (hu : u ≠ []) : parse t = none := by
  cases hread : parse t with
  | none => rfl
  | some value' =>
    exfalso
    unfold parse at hread
    cases hvalue : parseValue (2 * t.length + 1) t with
    | none =>
      rw [hvalue] at hread
      cases hread
    | some p =>
      obtain ⟨v, r⟩ := p
      cases t with
      | nil => cases hvalue
      | cons c t =>
        have hc : c = leftBrace := by
          rw [← htext] at hobj
          exact Option.some.inj hobj
        subst hc
        have hmore := (parseValue_object hvalue).2 (2 * (leftBrace :: t ++ u).length + 1) u
          (by rw [List.length_append]; omega)
        have hnil := parseValue_whole h
        rw [← htext, hmore, Option.some_inj, Prod.mk.injEq] at hnil
        exact hu (List.append_eq_nil_iff.mp hnil.2).2

/-- Nor one with a character after it that does not close the object. -/
lemma parse_object_concat (hspace : isSpace c = false) (hc : c ≠ rightBrace) (t : Text) :
    parse (leftBrace :: t ++ [c]) = none := by
  cases hread : parse (leftBrace :: t ++ [c]) with
  | none => rfl
  | some value =>
    exfalso
    unfold parse at hread
    cases hvalue : parseValue (2 * (leftBrace :: t ++ [c]).length + 1) (leftBrace :: t ++ [c]) with
    | none =>
      rw [hvalue] at hread
      cases hread
    | some p =>
      obtain ⟨v, r⟩ := p
      rw [hvalue] at hread
      dsimp only at hread
      split_ifs at hread with hrest
      obtain ⟨s, hs⟩ := (parseValue_object hvalue).1
      change s ++ rightBrace :: r = t ++ [c] at hs
      rcases List.eq_nil_or_concat r with rfl | ⟨r', d, rfl⟩
      · exact hc (List.singleton_inj.mp (List.append_inj' hs rfl).2).symm
      · rw [List.concat_eq_append] at hs hrest
        rw [← List.cons_append, ← List.append_assoc] at hs
        have hd : d = c := List.singleton_inj.mp (List.append_inj' hs rfl).2
        have hall := List.dropWhile_eq_nil_iff.mp hrest d
          (List.mem_append_right _ (List.mem_singleton.mpr rfl))
        rw [hd, hspace] at hall
        cases hall

/-! ### The characters of a text -/

/-- A text of whole characters, none of them a control character. -/
def Printable (t : Text) : Prop := ∃ chars, t = Utf8.utf16 chars ∧ ∀ c ∈ chars, 32 ≤ c.toNat

lemma printable_nil : Printable [] := ⟨[], rfl, by simp⟩

lemma Printable.append {s : Text} (hs : Printable s) (ht : Printable t) : Printable (s ++ t) := by
  obtain ⟨a, rfl, ha⟩ := hs
  obtain ⟨b, rfl, hb⟩ := ht
  refine ⟨a ++ b, by rw [Utf8.utf16, Utf8.utf16, Utf8.utf16, List.flatMap_append], ?_⟩
  intro c hc
  rcases List.mem_append.mp hc with hc | hc
  · exact ha c hc
  · exact hb c hc

/-- A text without control characters holds no unit below them. -/
lemma Printable.ge (h : Printable t) : ∀ c ∈ t, 32 ≤ c.val := by
  obtain ⟨chars, rfl, hchars⟩ := h
  intro c hc
  obtain ⟨d, hd, hcd⟩ := List.mem_flatMap.mp hc
  have hcontrol := hchars d hd
  have hbounds := Utf8.val_bounds d
  unfold Utf8.utf16Char at hcd
  split_ifs at hcd
  · rw [List.mem_singleton.mp hcd, Utf8.ofNat_val (by omega)]
    exact hcontrol
  · rcases List.mem_pair.mp hcd with rfl | rfl
    · rw [Utf8.ofNat_val (by omega)]
      omega
    · rw [Utf8.ofNat_val (by omega)]
      omega

lemma toNat_ofNat {n : ℕ} (h : n.isValidChar) : (Char.ofNat n).toNat = n := by
  rw [Char.ofNat, dif_pos h]
  rfl

lemma printable_unit (hcontrol : 32 ≤ c.val)
    (hsurrogate : isHighSurrogate c = false ∧ isLowSurrogate c = false) : Printable [c] := by
  have hc := c.isLt
  simp only [isHighSurrogate, isLowSurrogate, Bool.and_eq_false_iff, decide_eq_false_iff_not]
    at hsurrogate
  have hvalid : c.val.isValidChar := by
    unfold Nat.isValidChar
    omega
  have hnat := toNat_ofNat hvalid
  refine ⟨[Char.ofNat c.val], ?_, ?_⟩
  · rw [Utf8.utf16, List.flatMap_singleton, Utf8.utf16Char, hnat, if_pos (by omega),
      Fin.ofNat_val_eq_self]
  · intro d hd
    rw [List.mem_singleton.mp hd, hnat]
    exact hcontrol

lemma printable_cons (hcontrol : 32 ≤ c.val ∧ c.val < 0xD800) (ht : Printable t) :
    Printable (c :: t) := by
  have hunit : Printable [c] := by
    refine printable_unit hcontrol.1 ?_
    simp only [isHighSurrogate, isLowSurrogate, Bool.and_eq_false_iff, decide_eq_false_iff_not]
    omega
  exact hunit.append ht

lemma printable_of_lt (h : ∀ c ∈ t, 32 ≤ c.val ∧ c.val < 0xD800) : Printable t := by
  induction t with
  | nil => exact printable_nil
  | cons c t ih =>
    exact printable_cons (h c List.mem_cons_self) (ih fun d hd => h d (List.mem_cons_of_mem _ hd))

lemma printable_of_all (h : (t.all fun c => 32 ≤ c.val && c.val < 0xD800) = true) : Printable t := by
  apply printable_of_lt
  simpa using h

lemma printable_pair {d : CodeUnit} (hc : isHighSurrogate c = true) (hd : isLowSurrogate d = true) :
    Printable [c, d] := by
  simp only [isHighSurrogate, isLowSurrogate, Bool.and_eq_true, decide_eq_true_eq] at hc hd
  have hvalid : (0x10000 + (c.val - 0xD800) * 1024 + (d.val - 0xDC00)).isValidChar := by
    unfold Nat.isValidChar
    omega
  have hnat := toNat_ofNat hvalid
  have hhigh : Fin.ofNat 65536
      (0xD800 + (0x10000 + (c.val - 0xD800) * 1024 + (d.val - 0xDC00) - 0x10000) / 1024) = c := by
    apply Fin.ext
    rw [Utf8.ofNat_val (by omega)]
    omega
  have hlow : Fin.ofNat 65536
      (0xDC00 + (0x10000 + (c.val - 0xD800) * 1024 + (d.val - 0xDC00) - 0x10000) % 1024) = d := by
    apply Fin.ext
    rw [Utf8.ofNat_val (by omega)]
    omega
  refine ⟨[Char.ofNat (0x10000 + (c.val - 0xD800) * 1024 + (d.val - 0xDC00))], ?_, ?_⟩
  · rw [Utf8.utf16, List.flatMap_singleton, Utf8.utf16Char, hnat, if_neg (by omega), hhigh, hlow]
  · intro e he
    rw [List.mem_singleton.mp he, hnat]
    omega

lemma printable_quoteUnit (c : CodeUnit) : Printable (quoteUnit c) := by
  unfold quoteUnit
  cases hshort : shortEscape c with
  | some e =>
    have he : 32 ≤ e.val ∧ e.val < 0xD800 := by
      unfold shortEscape at hshort
      split_ifs at hshort <;> cases hshort <;> decide
    exact printable_cons (by decide) (printable_cons he printable_nil)
  | none =>
    dsimp only
    by_cases hraw : (decide (c.val < 0x20) || isHighSurrogate c || isLowSurrogate c) = true
    · have hdigit : ∀ n < 16, 32 ≤ (hexDigit n).val ∧ (hexDigit n).val < 0xD800 := by
        intro n hn
        interval_cases n <;> decide
      have hc := c.isLt
      rw [if_pos hraw, unicodeEscape]
      refine printable_cons (by decide) (printable_cons (by decide) (printable_cons (hdigit _ (by omega))
        (printable_cons (hdigit _ (by omega)) (printable_cons (hdigit _ (by omega))
          (printable_cons (hdigit _ (by omega)) printable_nil)))))
    · rw [if_neg hraw]
      simp only [Bool.or_eq_true, decide_eq_true_eq, not_or, Bool.not_eq_true] at hraw
      exact printable_unit (by omega) ⟨hraw.1.2, hraw.2⟩

lemma printable_quoteUnits (s : Text) : Printable (quoteUnits s) := by
  induction s using quoteUnits.induct with
  | case1 => exact printable_nil
  | case2 c => exact printable_quoteUnit c
  | case3 c d tail hpair ih =>
    obtain ⟨hc, hd⟩ := Bool.and_eq_true_iff.mp hpair
    rw [quoteUnits, if_pos hpair]
    exact (printable_pair hc hd).append ih
  | case4 c d tail hpair ih =>
    rw [quoteUnits, if_neg hpair]
    exact (printable_quoteUnit c).append ih

lemma printable_jsonString (s : Text) : Printable (jsonString s) := by
  rw [jsonString]
  exact printable_cons (by decide) ((printable_quoteUnits s).append
    (printable_cons (by decide) printable_nil))

lemma isNumberUnit_of_scanNumber {state : NumberState} {a : Text}
    (h : scanNumber state t = some (a, rest)) : ∀ d ∈ a, isNumberUnit d = true := by
  induction t generalizing state a with
  | nil =>
    rw [scanNumber] at h
    split_ifs at h
    cases h
    simp
  | cons c t ih =>
    rw [scanNumber] at h
    cases hnext : state.next c with
    | none =>
      rw [hnext] at h
      dsimp only at h
      split_ifs at h
      cases h
      simp
    | some state' =>
      rw [hnext] at h
      obtain ⟨⟨b, r⟩, hr, heq⟩ := Option.map_eq_some_iff.mp h
      obtain ⟨rfl, rfl⟩ := Prod.mk.inj heq
      intro d hd
      rcases List.mem_cons.mp hd with rfl | hd
      · by_contra hunit
        rw [next_eq_none (by simpa using hunit)] at hnext
        cases hnext
      · exact ih hr d hd

lemma printable_number (h : IsNumber t) : Printable t := by
  apply printable_of_lt
  intro c hc
  have hunit := isNumberUnit_of_scanNumber h c hc
  simp only [isNumberUnit, isDigit, Bool.or_eq_true, Bool.and_eq_true, decide_eq_true_eq] at hunit
  rcases hunit with ((((hdigit | rfl) | rfl) | rfl) | rfl) | rfl
  · omega
  all_goals decide

mutual

lemma printable_stringify {value : JsonValue} (h : Valid value) : Printable (stringify value) := by
  match value with
  | .null => exact printable_of_all (by decide)
  | .bool true => exact printable_of_all (by decide)
  | .bool false => exact printable_of_all (by decide)
  | .num t => exact printable_number h
  | .str s => exact printable_jsonString s
  | .arr items =>
    rw [Valid] at h
    exact printable_cons (by decide) (printable_itemsText h)
  | .obj entries =>
    rw [Valid] at h
    exact printable_cons (by decide) (printable_entriesText h.2)

lemma printable_itemsText {items : List JsonValue} (h : ValidItems items) :
    Printable (itemsText items) := by
  match items with
  | [] => exact printable_of_all (by decide)
  | [item] =>
    rw [ValidItems] at h
    rw [itemsText]
    exact (printable_stringify h.1).append (printable_of_all (by decide))
  | item :: next :: items =>
    rw [ValidItems] at h
    rw [itemsText_cons_cons]
    exact (printable_stringify h.1).append (printable_cons (by decide) (printable_itemsText h.2))

lemma printable_entriesText {entries : List (Text × JsonValue)} (h : ValidEntries entries) :
    Printable (entriesText entries) := by
  match entries with
  | [] => exact printable_of_all (by decide)
  | [entry] =>
    rw [ValidEntries] at h
    rw [entriesText_singleton]
    exact ((printable_jsonString _).append (printable_cons (by decide) (printable_stringify h.1))).append
      (printable_of_all (by decide))
  | entry :: next :: entries =>
    rw [ValidEntries] at h
    rw [entriesText_cons_cons]
    exact ((printable_jsonString _).append (printable_cons (by decide) (printable_stringify h.1))).append
      (printable_cons (by decide) (printable_entriesText h.2))

end

end Junjo.Json
