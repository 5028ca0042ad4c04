import Junjo.Permissions.Tables

/-!
# Contexts in the Java SDK

The SDK holds a context as a map sorted by key, with folded values and its canonical key, and a
game's inheritance table with folded values. Both are read from what the server sends.
-/

namespace Junjo.Sdk

/-! ### Canonical keys -/

/-- One character of a JSON string that does not start a surrogate pair. -/
def jsonChar (c : CodeUnit) : Text :=
  match shortEscape c with
  | some e => [backslash, e]
  | none =>
    if c.val < 0x20 then unicodeEscape c
    else if isHighSurrogate c then unicodeEscape c
    else if isLowSurrogate c then unicodeEscape c
    else [c]

def jsonChars : Text → Text
  | [] => []
  | [c] => jsonChar c
  | c :: d :: rest =>
    if isHighSurrogate c && isLowSurrogate d then c :: d :: jsonChars rest
    else jsonChar c ++ jsonChars (d :: rest)

def jsonString (s : Text) : Text := text "\"" ++ jsonChars s ++ text "\""

/-- Append one pair; the flag says whether it is the first. -/
def appendPair (out : Text × Bool) (e : Text × Text) : Text × Bool :=
  ((if out.2 then out.1 else out.1 ++ text ",") ++
    (text "[" ++ jsonString e.1 ++ text "," ++ jsonString e.2 ++ text "]"), false)

def canonical (sorted : List (Text × Text)) : Text :=
  if sorted.isEmpty then [] else (sorted.foldl appendPair (text "[", true)).1 ++ text "]"

private lemma jsonChar_eq (c : CodeUnit) : jsonChar c = quoteUnit c := by
  unfold jsonChar quoteUnit
  cases shortEscape c with
  | some e => rfl
  | none =>
    by_cases hcontrol : c.val < 0x20
    · simp [hcontrol]
    · cases hhigh : isHighSurrogate c <;> cases hlow : isLowSurrogate c <;> simp [hcontrol]

private lemma jsonChars_eq (s : Text) : jsonChars s = quoteUnits s := by
  induction s using jsonChars.induct with
  | case1 => rfl
  | case2 c => exact jsonChar_eq c
  | case3 c d rest h ih => rw [jsonChars, quoteUnits, if_pos h, if_pos h, ih]
  | case4 c d rest h ih => rw [jsonChars, quoteUnits, if_neg h, if_neg h, ih, jsonChar_eq]

lemma jsonString_eq (s : Text) : jsonString s = Junjo.jsonString s := by
  unfold jsonString Junjo.jsonString
  rw [jsonChars_eq]
  rfl

private lemma foldl_appendPair (l : List (Text × Text)) (out : Text) :
    (l.foldl appendPair (out, false)).1 = out ++ (l.map fun p => text "," ++ jsonPair p).flatten := by
  induction l generalizing out with
  | nil => simp
  | cons p l ih =>
    rw [List.foldl_cons, appendPair, ih]
    simp [jsonPair, jsonString_eq]

/-- The SDK writes the server's canonical form. -/
lemma canonical_eq {l : List (Text × Text)} (h : l ≠ []) : canonical l = jsonPairs l := by
  cases l with
  | nil => exact absurd rfl h
  | cons p l =>
    rw [canonical, jsonPairs, List.map_cons, intercalate_cons, List.foldl_cons, appendPair,
      foldl_appendPair]
    simp [jsonPair, jsonString_eq, Function.comp_def]

/-! ### Contexts -/

/-- The conditions of an entry or a check: folded values, sorted by key. -/
structure Context where
  values : Dict Text Text
  sorted : values.keys.Pairwise (· < ·)
  folded : values.mapValues foldContextValue = values

namespace Context

/-- The global context. -/
def global : Context := ⟨Dict.empty, List.Pairwise.nil, rfl⟩

def isGlobal (c : Context) : Bool := c.values.entries.isEmpty

/-- The canonical form the server stores and compares. -/
def canonicalKey (c : Context) : Text := canonical c.values.entries

/-- A context from pairs that pass the write rules: values folded, keys sorted. -/
def ofPairs (values : PermissionContext) : Context where
  values := (values.mapValues foldContextValue).sorted
  sorted := Dict.keys_sorted _
  folded := by simp [← Dict.sorted_mapValues, Dict.mapValues_mapValues]

/-- A context as the server returned it. -/
def fromWire (values : Option PermissionContext) : Context :=
  match values with
  | none => global
  | some values => ofPairs values

lemma ext_values {c c' : Context} (h : c.values = c'.values) : c = c' := by
  cases c; cases c'; simp_all

lemma get?_values_ofPairs (values : PermissionContext) (key : Text) :
    (ofPairs values).values.get? key = (values.get? key).map foldContextValue := by
  rw [ofPairs, Dict.get?_sorted, Dict.get?_mapValues]

/-- The canonical key is the server's for the folded context. -/
lemma canonicalKey_ofPairs {values : PermissionContext}
    (h : values.mapValues foldContextValue = values) :
    (ofPairs values).canonicalKey = canonicalContextKey (some values) := by
  have hperm : values.sorted.keys.Perm values.keys :=
    Dict.keys_perm_of_get?_eq (Dict.get?_sorted values)
  have hvalues : (ofPairs values).values = values.sorted := by
    change (values.mapValues foldContextValue).sorted = _
    rw [h]
  rw [canonicalKey, hvalues]
  by_cases hnil : values.keys = []
  · rw [canonicalContextKey_eq_nil.mpr hnil]
    have hempty : values.sorted.entries = [] := by
      rw [hnil] at hperm
      simpa [Dict.keys] using hperm.eq_nil
    rw [hempty]
    rfl
  · have hne : values.sorted.entries ≠ [] := by
      intro hnil'
      rw [Dict.keys, hnil'] at hperm
      exact hnil hperm.nil_eq.symm
    rw [canonical_eq hne, canonicalContextKey, if_neg hnil]
    rfl

lemma canonicalKey_fromWire {context : Option PermissionContext}
    (h : ∀ c, context = some c → c.mapValues foldContextValue = c) :
    (fromWire context).canonicalKey = canonicalContextKey context := by
  cases context with
  | none => rfl
  | some values => exact canonicalKey_ofPairs (h values rfl)

end Context

/-! ### Inheritance -/

/-- A game's inheritance between the values of its context keys, folded. -/
structure ContextInheritance where
  inherit : Dict Text (Dict Text (List Text))

namespace ContextInheritance

/-- The parents of the values of one key, folded, repeated ones once. -/
def normalizeValues (values : Dict Text (List Text)) : Dict Text (List Text) :=
  Dict.ofList (values.entries.map fun e =>
    (foldContextValue e.1, (e.2.map foldContextValue).eraseDups))

/-- The table the server sent, keys in order. A key without values declares nothing. The rules a
table is refused by are the server's, which every stored table passed. -/
def fromWire (contexts : Junjo.ContextInheritance) : ContextInheritance where
  inherit := (Dict.ofList ((contexts.entries.filter fun e => !e.2.entries.isEmpty).map fun e =>
    (e.1, normalizeValues e.2))).sorted

/-- Every value reachable from `value`, mapped to its shortest distance. -/
def chain (inheritance : ContextInheritance) (key value : Text) : Dict Text ℕ :=
  let start := foldContextValue value
  match inheritance.inherit.get? key with
  | none => Dict.ofList [(start, 0)]
  | some values => distances (fun v => (values.get? v).getD []) maxContextInheritDepth start

/-- The chain of every key of a check's context. -/
def chains (inheritance : ContextInheritance) (context : Context) : Chains :=
  if context.isGlobal then Dict.empty
  else Dict.ofList (context.values.entries.map fun e => (e.1, inheritance.chain e.1 e.2))

end ContextInheritance

/-- A table as the server stores it: values and parents folded, no parent twice. -/
def FoldedInheritance (contexts : Junjo.ContextInheritance) : Prop :=
  ∀ key values, contexts.get? key = some values → ∀ e ∈ values.entries,
    foldContextValue e.1 = e.1 ∧ e.2.map foldContextValue = e.2 ∧ e.2.Nodup

namespace ContextInheritance

variable {contexts : Junjo.ContextInheritance}

private lemma normalizeValues_eq {values : Dict Text (List Text)}
    (h : ∀ e ∈ values.entries,
      foldContextValue e.1 = e.1 ∧ e.2.map foldContextValue = e.2 ∧ e.2.Nodup) :
    normalizeValues values = values := by
  have hmap : (values.entries.map fun e =>
      (foldContextValue e.1, (e.2.map foldContextValue).eraseDups)) = values.entries := by
    conv_rhs => rw [← List.map_id values.entries]
    apply List.map_congr_left
    intro e he
    obtain ⟨hkey, hparents, hnodup⟩ := h e he
    rw [hkey, hparents, eraseDups_of_nodup hnodup]
    rfl
  rw [normalizeValues, hmap, Dict.ofList_entries]

lemma get?_inherit_fromWire (h : FoldedInheritance contexts) {key : Text}
    {values : Dict Text (List Text)} :
    (fromWire contexts).inherit.get? key = some values ↔
      contexts.get? key = some values ∧ values.entries ≠ [] := by
  have hkeys : (((contexts.entries.filter fun e => !e.2.entries.isEmpty).map fun e =>
      (e.1, normalizeValues e.2)).map Prod.fst).Nodup := by
    rw [List.map_map]
    exact contexts.nodupKeys.sublist (List.filter_sublist.map _)
  rw [fromWire, Dict.get?_sorted, Dict.get?_ofList_eq_some_iff hkeys]
  simp only [List.mem_map, List.mem_filter, Bool.not_eq_true', List.isEmpty_eq_false_iff,
    Prod.mk.injEq]
  constructor
  · rintro ⟨⟨k, vs⟩, ⟨hmem, hne⟩, rfl, rfl⟩
    have hget := Dict.get?_eq_some_iff.mpr hmem
    rw [normalizeValues_eq (h k vs hget)]
    exact ⟨hget, hne⟩
  · rintro ⟨hget, hne⟩
    exact ⟨(key, values), ⟨Dict.get?_eq_some_iff.mp hget, hne⟩, rfl,
      normalizeValues_eq (h key values hget)⟩

/-- Without parents a value only reaches itself. -/
private lemma distances_nil (bound : ℕ) (x : Text) :
    distances (fun _ => []) bound x = Dict.ofList [(x, 0)] := by
  match bound with
  | 0 => rfl
  | 1 => rfl
  | bound + 2 => rfl

/-- The SDK's chains are the server's. -/
lemma chain_fromWire (h : FoldedInheritance contexts) (key value : Text) :
    (fromWire contexts).chain key value = contextChain contexts key (foldContextValue value) := by
  unfold chain contextChain
  cases hget : contexts.get? key with
  | none =>
    have hnone : (fromWire contexts).inherit.get? key = none := by
      rw [Option.eq_none_iff_forall_ne_some]
      intro values hvalues
      rw [get?_inherit_fromWire h, hget] at hvalues
      cases hvalues.1
    rw [hnone]
  | some values =>
    by_cases hne : values.entries = []
    · have hnone : (fromWire contexts).inherit.get? key = none := by
        rw [Option.eq_none_iff_forall_ne_some]
        intro values' hvalues'
        rw [get?_inherit_fromWire h, hget] at hvalues'
        cases hvalues'.1
        exact hvalues'.2 hne
      have hinherited : inheritedValues values = fun _ => [] := by
        funext v
        simp [inheritedValues, Dict.get?, hne]
      rw [hnone]
      dsimp only
      rw [hinherited, distances_nil]
    · have hinherited : inheritedValues values = fun v => (values.get? v).getD [] := by
        funext v
        cases hv : values.get? v with
        | none => simp [inheritedValues, hv]
        | some parents =>
          simpa [inheritedValues, hv] using
            (h key values hget (v, parents) (Dict.get?_eq_some_iff.mp hv)).2.1
      rw [(get?_inherit_fromWire h).mpr ⟨hget, hne⟩]
      dsimp only
      rw [hinherited]

lemma get?_chains_fromWire (h : FoldedInheritance contexts) (context : PermissionContext)
    (key : Text) :
    ((fromWire contexts).chains (Context.ofPairs context)).get? key
      = (contextChains context contexts).get? key := by
  have hchains : ∀ chain, ((fromWire contexts).chains (Context.ofPairs context)).get? key
      = some chain ↔ ∃ value, (Context.ofPairs context).values.get? key = some value ∧
        (fromWire contexts).chain key value = chain := by
    intro chain
    unfold chains Context.isGlobal
    split_ifs with hglobal
    · rw [List.isEmpty_iff] at hglobal
      simp [Dict.get?, hglobal]
    · rw [Dict.get?_ofList_eq_some_iff
        (by simpa [Function.comp_def] using (Context.ofPairs context).values.nodupKeys)]
      simp only [List.mem_map, Prod.mk.injEq, Dict.get?_eq_some_iff]
      constructor
      · rintro ⟨⟨k, value⟩, hmem, rfl, rfl⟩
        exact ⟨value, hmem, rfl⟩
      · rintro ⟨value, hmem, rfl⟩
        exact ⟨(key, value), hmem, rfl, rfl⟩
  ext chain
  rw [hchains, get?_contextChains]
  simp only [Context.get?_values_ofPairs, chain_fromWire h, Option.map_eq_some_iff]
  constructor
  · rintro ⟨_, ⟨value, hvalue, rfl⟩, rfl⟩
    exact ⟨value, hvalue, by rw [foldContextValue_idem]⟩
  · rintro ⟨value, hvalue, rfl⟩
    exact ⟨_, ⟨value, hvalue, rfl⟩, by rw [foldContextValue_idem]⟩

end ContextInheritance

end Junjo.Sdk
