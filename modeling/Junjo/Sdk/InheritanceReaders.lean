import Junjo.Sdk.SearchCorrect

/-!
# The readers of inheritance tables

A reader accepts a table when the values it reads keep the rules, and holds the folded table of
them. The SDK reads every value, the server those that do not fold to `__proto__`.
-/

namespace Junjo

/-! ### The rules -/

/-- A value with its parents keeps the rules for one entry. -/
structure EntryOk (e : Text × List Text) : Prop where
  value : contextValueProblem e.1 = none
  size : e.2.length ≤ maxContextInheritParents
  parents : ∀ p ∈ e.2, contextValueProblem p = none

/-- The folds of the values of some entries that are read. -/
def readKeys (read : Text → Prop) [DecidablePred read] (entries : List (Text × List Text)) :
    List Text :=
  (entries.map fun e => foldContextValue e.1).filter read

/-- A folded edge of a table, from a value that is read. -/
def SourceEdge (read : Text → Prop) (source : Dict Text (List Text)) (v w : Text) : Prop :=
  read v ∧ ∃ e ∈ source.entries, foldContextValue e.1 = v ∧ w ∈ e.2.map foldContextValue

/-- A table keeps the rules, when some of its values are read. -/
structure TableOk (read : Text → Prop) [DecidablePred read] (raw : ContextInheritance) :
    Prop where
  keys : raw.size ≤ maxContextInheritKeys
  key : ∀ e ∈ raw.entries, contextKeyProblem e.1 = none
  values : ∀ e ∈ raw.entries, e.2.size ≤ maxContextInheritValues
  entry : ∀ e ∈ raw.entries, ∀ v ∈ e.2.entries, EntryOk v
  nodup : ∀ e ∈ raw.entries, (readKeys read e.2.entries).Nodup
  shape : ∀ e ∈ raw.entries, WalksWithin (SourceEdge read e.2) maxContextInheritDepth

/-! ### Values -/

/-- The folds of the parents, each once. -/
def foldParents (parents : List Text) : List Text :=
  parents.foldl (fun folds parent =>
    if foldContextValue parent ∈ folds then folds else folds ++ [foldContextValue parent]) []

lemma foldParents_spec (parents : List Text) :
    (foldParents parents).Nodup ∧
      ∀ w, w ∈ foldParents parents ↔ w ∈ parents.map foldContextValue := by
  have hall : ∀ l folds : List Text, folds.Nodup →
      (l.foldl (fun folds parent => if foldContextValue parent ∈ folds then folds
        else folds ++ [foldContextValue parent]) folds).Nodup ∧
      ∀ w, w ∈ l.foldl (fun folds parent => if foldContextValue parent ∈ folds then folds
        else folds ++ [foldContextValue parent]) folds ↔
          w ∈ folds ∨ w ∈ l.map foldContextValue := by
    intro l
    induction l with
    | nil => intro folds h; simpa using h
    | cons p l ih =>
      intro folds h
      rw [List.foldl_cons]
      split_ifs with hp
      · obtain ⟨hnodup, hmem⟩ := ih folds h
        refine ⟨hnodup, fun w => ?_⟩
        rw [hmem, List.map_cons, List.mem_cons]
        constructor
        · rintro (hw | hw)
          · exact Or.inl hw
          · exact Or.inr (Or.inr hw)
        · rintro (hw | rfl | hw)
          · exact Or.inl hw
          · exact Or.inl hp
          · exact Or.inr hw
      · obtain ⟨hnodup, hmem⟩ := ih (folds ++ [foldContextValue p]) (by
          rw [List.nodup_append]
          refine ⟨h, List.nodup_singleton _, ?_⟩
          rintro a ha b hb rfl
          exact hp (List.mem_singleton.mp hb ▸ ha))
        refine ⟨hnodup, fun w => ?_⟩
        rw [hmem, List.mem_append, List.mem_singleton, List.map_cons, List.mem_cons, or_assoc]
  obtain ⟨hnodup, hmem⟩ := hall parents [] List.nodup_nil
  exact ⟨hnodup, fun w => by rw [foldParents, hmem]; simp⟩

lemma foldlM_foldParent {parents folds : List Text} :
    parents.foldlM foldParent [] = .ok folds ↔
      (∀ p ∈ parents, contextValueProblem p = none) ∧ folds = foldParents parents := by
  refine foldlM_eq_ok_iff (P := fun l => ∀ p ∈ l, contextValueProblem p = none) (by simp)
    (fun l p h q hq => h q (List.mem_append_left _ hq)) (fun l p s' hl => ?_) parents folds
  rw [List.forall_mem_append, List.forall_mem_singleton, foldParent]
  cases contextValueProblem p with
  | some problem => simp
  | none =>
    simp only [Except.ok.injEq, and_true, eq_comm]
    exact ⟨fun h => ⟨hl, h⟩, fun h => h.2⟩

/-- The folded table of the values that are read. -/
def readTable (read : Text → Prop) [DecidablePred read] (entries : List (Text × List Text)) :
    Dict Text (List Text) :=
  entries.foldl (fun d e => if read (foldContextValue e.1)
    then d.set (foldContextValue e.1) (foldParents e.2) else d) Dict.empty

section Values

variable {read : Text → Prop} [DecidablePred read]

lemma readTable_concat (l : List (Text × List Text)) (e : Text × List Text) :
    readTable read (l ++ [e]) = if read (foldContextValue e.1)
      then (readTable read l).set (foldContextValue e.1) (foldParents e.2)
      else readTable read l := by
  simp [readTable, List.foldl_append]

lemma readKeys_concat (l : List (Text × List Text)) (e : Text × List Text) :
    readKeys read (l ++ [e])
      = if read (foldContextValue e.1) then readKeys read l ++ [foldContextValue e.1]
        else readKeys read l := by
  unfold readKeys
  rw [List.map_append, List.filter_append]
  split_ifs with h
  · simp [h]
  · simp [h]

/-- The keys of the table, and its entries when no value is listed twice. -/
lemma readTable_spec (l : List (Text × List Text)) :
    (∀ v, v ∈ (readTable read l).keys ↔ v ∈ readKeys read l) ∧
      ((readKeys read l).Nodup → ∀ v parents, (readTable read l).get? v = some parents ↔
        read v ∧ ∃ e ∈ l, foldContextValue e.1 = v ∧ foldParents e.2 = parents) := by
  induction l using List.reverseRecOn with
  | nil => simp [readTable, readKeys]
  | append_singleton l e ih =>
    obtain ⟨hkeys, hget⟩ := ih
    rw [readTable_concat, readKeys_concat]
    split_ifs with hread
    · refine ⟨fun v => ?_, fun hnodup v parents => ?_⟩
      · rw [Dict.mem_keys_set, hkeys]
        simp [or_comm]
      · rw [List.nodup_append] at hnodup
        have hnew : foldContextValue e.1 ∉ readKeys read l :=
          fun h => hnodup.2.2 _ h _ (List.mem_singleton_self _) rfl
        have hnone : ∀ e' ∈ l, foldContextValue e'.1 ≠ foldContextValue e.1 := by
          intro e' he' heq
          refine hnew (List.mem_filter.mpr ⟨List.mem_map.mpr ⟨e', he', heq⟩, ?_⟩)
          simpa using hread
        rw [Dict.get?_set]
        split_ifs with hv
        · subst hv
          simp only [Option.some.injEq, List.mem_append, List.mem_singleton]
          constructor
          · rintro rfl
            exact ⟨hread, e, Or.inr rfl, rfl, rfl⟩
          · rintro ⟨-, e', he' | rfl, hfold, hparents⟩
            · exact absurd hfold (hnone e' he')
            · exact hparents
        · rw [hget hnodup.1]
          simp only [List.mem_append, List.mem_singleton]
          constructor
          · rintro ⟨hv', e', he', h⟩
            exact ⟨hv', e', Or.inl he', h⟩
          · rintro ⟨hv', e', he' | rfl, hfold, hparents⟩
            · exact ⟨hv', e', he', hfold, hparents⟩
            · exact absurd hfold.symm hv
    · refine ⟨hkeys, fun hnodup v parents => ?_⟩
      rw [hget hnodup]
      simp only [List.mem_append, List.mem_singleton]
      constructor
      · rintro ⟨hv, e', he', h⟩
        exact ⟨hv, e', Or.inl he', h⟩
      · rintro ⟨hv, e', he' | rfl, hfold, hparents⟩
        · exact ⟨hv, e', he', hfold, hparents⟩
        · exact absurd (hfold ▸ hv) hread

/-- What the loop over the values of a key accepts. -/
def ValuesOk (read : Text → Prop) [DecidablePred read] (entries : List (Text × List Text)) :
    Prop :=
  (∀ e ∈ entries, EntryOk e) ∧ (readKeys read entries).Nodup

/-- A step of the loop over values: it checks the entry, and stores it when its value is read. -/
def StoresValue (read : Text → Prop) [DecidablePred read]
    (f : Dict Text (List Text) → Text × List Text → Except Text (Dict Text (List Text))) : Prop :=
  ∀ d e d', f d e = .ok d' ↔ EntryOk e ∧ d.has (foldContextValue e.1) = false ∧
    d' = if read (foldContextValue e.1)
      then d.set (foldContextValue e.1) (foldParents e.2) else d

lemma foldlM_storesValue
    {f : Dict Text (List Text) → Text × List Text → Except Text (Dict Text (List Text))}
    (hf : StoresValue read f) (l : List (Text × List Text)) (d : Dict Text (List Text)) :
    l.foldlM f Dict.empty = .ok d ↔ ValuesOk read l ∧ d = readTable read l := by
  refine foldlM_eq_ok_iff (P := ValuesOk read) ⟨by simp, by simp [readKeys]⟩
    (fun l e h => ⟨fun e' he' => h.1 e' (List.mem_append_left _ he'), ?_⟩)
    (fun l e d' hl => ?_) l d
  · have hnodup := h.2
    rw [readKeys_concat] at hnodup
    split_ifs at hnodup
    · exact hnodup.of_append_left
    · exact hnodup
  · rw [hf]
    change _ ∧ (readTable read l).has _ = false ∧ _ ↔ _
    have hhas : (readTable read l).has (foldContextValue e.1) = false ↔
        foldContextValue e.1 ∉ readKeys read l := by
      rw [← (readTable_spec l).1, ← Dict.has_iff, Bool.not_eq_true]
    have hvalues : ValuesOk read (l ++ [e]) ↔
        EntryOk e ∧ foldContextValue e.1 ∉ readKeys read l := by
      rw [ValuesOk, List.forall_mem_append, List.forall_mem_singleton, readKeys_concat]
      split_ifs with hread
      · rw [List.nodup_append]
        constructor
        · rintro ⟨⟨-, he⟩, -, -, hnew⟩
          exact ⟨he, fun h => hnew _ h _ (List.mem_singleton_self _) rfl⟩
        · rintro ⟨he, hnew⟩
          refine ⟨⟨hl.1, he⟩, hl.2, List.nodup_singleton _, ?_⟩
          rintro a ha b hb rfl
          exact hnew (List.mem_singleton.mp hb ▸ ha)
      · have hunread : foldContextValue e.1 ∉ readKeys read l := by
          intro h
          exact hread (by simpa using (List.mem_filter.mp h).2)
        exact ⟨fun h => ⟨h.1.2, hunread⟩, fun h => ⟨⟨hl.1, h.1⟩, hl.2⟩⟩
    rw [hvalues, hhas, and_assoc]

/-- The edges of the table that is read. -/
lemma parentIn_readTable {source : Dict Text (List Text)}
    (hnodup : (readKeys read source.entries).Nodup) {v w : Text} :
    ParentIn (readTable read source.entries) v w ↔ SourceEdge read source v w := by
  have hget := (readTable_spec source.entries).2 hnodup
  constructor
  · intro h
    obtain ⟨parents, hv⟩ := Dict.mem_keys_iff.mp h.mem_keys
    obtain ⟨hread, e, he, hfold, rfl⟩ := (hget v parents).mp hv
    have hw : w ∈ foldParents e.2 := by simpa [ParentIn, hv] using h
    exact ⟨hread, e, he, hfold, ((foldParents_spec e.2).2 w).mp hw⟩
  · rintro ⟨hread, e, he, hfold, hw⟩
    have hv := (hget v (foldParents e.2)).mpr ⟨hread, e, he, hfold, rfl⟩
    rw [ParentIn, hv]
    exact ((foldParents_spec e.2).2 w).mpr hw

/-- What the loop over the keys asks of one of them. -/
structure KeyOk (read : Text → Prop) [DecidablePred read] (e : Text × Dict Text (List Text)) :
    Prop where
  key : contextKeyProblem e.1 = none
  size : e.2.size ≤ maxContextInheritValues
  values : ValuesOk read e.2.entries
  shape : ShapeOk (readTable read e.2.entries)

/-- A step of the loop over keys. -/
def StoresKey (read : Text → Prop) [DecidablePred read]
    (f : ContextInheritance → Text × Dict Text (List Text) → Except Text ContextInheritance) :
    Prop :=
  ∀ T e T', f T e = .ok T' ↔ KeyOk read e ∧ T' = T.set e.1 (readTable read e.2.entries)

/-- The folded table, when its values that are read are kept. -/
def foldedTable (read : Text → Prop) [DecidablePred read] (raw : ContextInheritance) :
    ContextInheritance :=
  Dict.ofList (raw.sortedEntries.map fun e => (e.1, readTable read e.2.entries))

lemma foldlM_storesKey
    {f : ContextInheritance → Text × Dict Text (List Text) → Except Text ContextInheritance}
    (hf : StoresKey read f) (raw T : ContextInheritance) :
    raw.sortedEntries.foldlM f Dict.empty = .ok T ↔
      (∀ e ∈ raw.entries, KeyOk read e) ∧ T = foldedTable read raw := by
  have hloop := foldlM_eq_ok_iff (s := Dict.empty) (g := fun T e =>
    T.set e.1 (readTable read e.2.entries)) (P := fun l => ∀ e ∈ l, KeyOk read e) (by simp)
    (fun l e h e' he' => h e' (List.mem_append_left _ he'))
    (fun l e T' hl => by
      rw [hf, List.forall_mem_append, List.forall_mem_singleton]
      exact ⟨fun h => ⟨⟨hl, h.1⟩, h.2⟩, fun h => ⟨h.1.2, h.2⟩⟩) raw.sortedEntries T
  rw [hloop, foldedTable, Dict.ofList, List.foldl_map]
  exact and_congr_left' ⟨fun h e he => h e (Dict.mem_sortedEntries.mpr he),
    fun h e he => h e (Dict.mem_sortedEntries.mp he)⟩

lemma get?_foldedTable (raw : ContextInheritance) (key : Text) :
    (foldedTable read raw).get? key
      = (raw.get? key).map fun source => readTable read source.entries := by
  have hnodup : ((raw.sortedEntries.map fun e =>
      (e.1, readTable read e.2.entries)).map Prod.fst).Nodup := by
    rw [List.map_map]
    exact raw.sorted.nodupKeys
  ext values
  rw [foldedTable, Dict.get?_ofList_eq_some_iff hnodup, List.mem_map, Option.map_eq_some_iff]
  constructor
  · rintro ⟨e, he, heq⟩
    obtain ⟨rfl, rfl⟩ := Prod.mk.inj heq
    exact ⟨e.2, Dict.get?_eq_some_iff.mpr (Dict.mem_sortedEntries.mp he), rfl⟩
  · rintro ⟨source, hget, rfl⟩
    exact ⟨(key, source), Dict.mem_sortedEntries.mpr (Dict.get?_eq_some_iff.mp hget), rfl⟩

/-- The checks of the loops, together with the one before them, are the rules. -/
lemma tableOk_iff {raw : ContextInheritance} :
    TableOk read raw ↔ raw.size ≤ maxContextInheritKeys ∧ ∀ e ∈ raw.entries, KeyOk read e := by
  have hshape : ∀ source : Dict Text (List Text), (readKeys read source.entries).Nodup →
      (ShapeOk (readTable read source.entries) ↔
        WalksWithin (SourceEdge read source) maxContextInheritDepth) := by
    intro source hnodup
    have hedges : ParentIn (readTable read source.entries) = SourceEdge read source := by
      funext v w
      exact propext (parentIn_readTable hnodup)
    rw [ShapeOk, hedges]
  constructor
  · rintro ⟨hkeys, hkey, hvalues, hentry, hnodup, hwalk⟩
    exact ⟨hkeys, fun e he => ⟨hkey e he, hvalues e he, ⟨hentry e he, hnodup e he⟩,
      (hshape e.2 (hnodup e he)).mpr (hwalk e he)⟩⟩
  · rintro ⟨hkeys, hall⟩
    exact ⟨hkeys, fun e he => (hall e he).key, fun e he => (hall e he).size,
      fun e he => (hall e he).values.1, fun e he => (hall e he).values.2,
      fun e he => (hshape e.2 (hall e he).values.2).mp (hall e he).shape⟩

end Values

/-! ### The two readers -/

section Readers

variable {read : Text → Prop} [DecidablePred read]

/-- The checks of a value, with the messages of a reader and its way to store. -/
def readValue (twice many : Text)
    (store : Dict Text (List Text) → Text → List Text → Dict Text (List Text))
    (d : Dict Text (List Text)) (e : Text × List Text) : Except Text (Dict Text (List Text)) :=
  match contextValueProblem e.1 with
  | some problem => .error problem
  | none =>
    if d.has (foldContextValue e.1) then .error twice
    else if maxContextInheritParents < e.2.length then .error many
    else do
      let folds ← e.2.foldlM foldParent []
      pure (store d (foldContextValue e.1) folds)

lemma readValue_eq_ok {twice many : Text}
    {store : Dict Text (List Text) → Text → List Text → Dict Text (List Text)}
    {d d' : Dict Text (List Text)} {e : Text × List Text} :
    readValue twice many store d e = .ok d' ↔ EntryOk e ∧ d.has (foldContextValue e.1) = false ∧
      d' = store d (foldContextValue e.1) (foldParents e.2) := by
  unfold readValue
  cases hvalue : contextValueProblem e.1 with
  | some problem =>
    refine ⟨fun h => (by cases h), fun h => ?_⟩
    have := h.1.value
    rw [hvalue] at this
    cases this
  | none =>
    dsimp only
    split_ifs with hhas hsize
    · refine ⟨fun h => (by cases h), fun h => ?_⟩
      rw [h.2.1] at hhas
      cases hhas
    · refine ⟨fun h => (by cases h), fun h => ?_⟩
      have := h.1.size
      omega
    · cases hfolds : e.2.foldlM foldParent [] with
      | error problem =>
        refine ⟨fun h => (by cases h), fun h => ?_⟩
        rw [foldlM_foldParent.mpr ⟨h.1.parents, rfl⟩] at hfolds
        cases hfolds
      | ok folds =>
        obtain ⟨hparents, rfl⟩ := foldlM_foldParent.mp hfolds
        constructor
        · intro h
          cases h
          exact ⟨⟨hvalue, not_lt.mp hsize, hparents⟩, by simpa using hhas, rfl⟩
        · rintro ⟨-, -, rfl⟩
          rfl

/-- The checks of a key, with the messages of a reader, its loop over values and its check of the
shape. -/
def readKey (many : Text) (shapeMessage : Text → Text)
    (step : Dict Text (List Text) → Text × List Text → Except Text (Dict Text (List Text)))
    (shape : Dict Text (List Text) → Option Text)
    (T : ContextInheritance) (e : Text × Dict Text (List Text)) : Except Text ContextInheritance :=
  match contextKeyProblem e.1 with
  | some problem => .error problem
  | none =>
    if maxContextInheritValues < e.2.size then .error many
    else do
      let values ← e.2.entries.foldlM step Dict.empty
      match shape values with
      | some problem => .error (shapeMessage problem)
      | none => pure (T.set e.1 values)

lemma readKey_eq_ok {many : Text} {shapeMessage : Text → Text}
    {step : Dict Text (List Text) → Text × List Text → Except Text (Dict Text (List Text))}
    {shape : Dict Text (List Text) → Option Text} (hstep : StoresValue read step)
    (hshape : ∀ values, shape values = none ↔ ShapeOk values)
    {T T' : ContextInheritance} {e : Text × Dict Text (List Text)} :
    readKey many shapeMessage step shape T e = .ok T' ↔
      KeyOk read e ∧ T' = T.set e.1 (readTable read e.2.entries) := by
  have hloop := fun d => foldlM_storesValue hstep e.2.entries d
  unfold readKey
  cases hkey : contextKeyProblem e.1 with
  | some problem =>
    refine ⟨fun h => (by cases h), fun h => ?_⟩
    have := h.1.key
    rw [hkey] at this
    cases this
  | none =>
    dsimp only
    split_ifs with hsize
    · refine ⟨fun h => (by cases h), fun h => ?_⟩
      have := h.1.size
      omega
    · cases hvalues : e.2.entries.foldlM step Dict.empty with
      | error problem =>
        refine ⟨fun h => (by cases h), fun h => ?_⟩
        rw [(hloop _).mpr ⟨h.1.values, rfl⟩] at hvalues
        cases hvalues
      | ok values =>
        obtain ⟨hok, rfl⟩ := (hloop _).mp hvalues
        dsimp only [bind, Except.bind]
        cases hresult : shape (readTable read e.2.entries) with
        | some problem =>
          refine ⟨fun h => (by cases h), fun h => ?_⟩
          rw [(hshape _).mpr h.1.shape] at hresult
          cases hresult
        | none =>
          constructor
          · intro h
            cases h
            exact ⟨⟨hkey, not_lt.mp hsize, hok, (hshape _).mp hresult⟩, rfl⟩
          · rintro ⟨-, rfl⟩
            rfl

/-- A reader accepts the tables that keep the rules for the values it reads. -/
lemma tableOk_of_loop
    {step : ContextInheritance → Text × Dict Text (List Text) → Except Text ContextInheritance}
    (hstep : StoresKey read step) {problem : Text} {raw T : ContextInheritance} :
    (if maxContextInheritKeys < raw.size then .error problem
      else raw.sortedEntries.foldlM step Dict.empty) = .ok T ↔
      TableOk read raw ∧ T = foldedTable read raw := by
  rw [tableOk_iff, and_assoc, ← foldlM_storesKey hstep]
  split_ifs with hsize
  · refine ⟨fun h => (by cases h), fun h => ?_⟩
    omega
  · exact ⟨fun h => ⟨not_lt.mp hsize, h⟩, fun h => h.2⟩

end Readers

/-- A value that the server sees. -/
def NotProto (v : Text) : Prop := v ≠ protoKey

instance decidableNotProto : DecidablePred NotProto :=
  fun v => inferInstanceAs (Decidable (v ≠ protoKey))

lemma setProperty_eq {ν : Type*} (object : Dict Text ν) (key : Text) (value : ν) :
    setProperty object key value = if NotProto key then object.set key value else object := by
  unfold setProperty NotProto
  by_cases h : key = protoKey
  · simp [h]
  · simp [h]

lemma ne_protoKey_of_contextKeyProblem {key : Text} (h : contextKeyProblem key = none) :
    key ≠ protoKey := by
  rintro rfl
  revert h
  decide

lemma storesValue_inheritValue (key : Text) : StoresValue NotProto (inheritValue key) := by
  intro d e d'
  rw [← setProperty_eq]
  exact readValue_eq_ok

lemma storesKey_inheritKey : StoresKey NotProto inheritKey := by
  intro T e T'
  have hcheck : inheritKey T e = readKey
      (text "context key " ++ jsonString e.1 ++ text " may list at most 256 values")
      (fun problem => text "context key " ++ jsonString e.1 ++ text ": " ++ problem)
      (inheritValue e.1) inheritanceShapeProblem T e := by
    unfold inheritKey readKey
    cases hkey : contextKeyProblem e.1 with
    | some problem => rfl
    | none =>
      have hset : ∀ values, setProperty T e.1 values = T.set e.1 values :=
        fun values => if_neg (ne_protoKey_of_contextKeyProblem hkey)
      have hfun : setProperty T e.1 = T.set e.1 := funext hset
      exact hfun ▸ rfl
  rw [hcheck]
  exact readKey_eq_ok (storesValue_inheritValue e.1) fun _ => inheritanceShapeProblem_eq_none

/-- The server accepts the tables that keep the rules without the values it does not see. -/
lemma normalizeContextInheritance_eq_ok {raw T : ContextInheritance} :
    normalizeContextInheritance raw = .ok T ↔
      TableOk NotProto raw ∧ T = foldedTable NotProto raw :=
  tableOk_of_loop storesKey_inheritKey

namespace Sdk

/-- Every value is read. -/
def Every (_ : Text) : Prop := True

instance decidableEvery : DecidablePred Every := fun _ => inferInstanceAs (Decidable True)

namespace ContextInheritance

lemma normalizeParent_eq : normalizeParent = foldParent := by
  funext folds parent
  rw [normalizeParent, foldParent]
  exact Context.valueProblem_eq parent ▸ rfl

lemma storesValue_normalizeValue (key : Text) : StoresValue Every (normalizeValue key) := by
  intro d e d'
  have hread : (if Every (foldContextValue e.1) then d.set (foldContextValue e.1) (foldParents e.2)
      else d) = d.set (foldContextValue e.1) (foldParents e.2) := if_pos trivial
  rw [hread, normalizeValue, Context.valueProblem_eq, normalizeParent_eq]
  exact readValue_eq_ok

lemma storesKey_normalizeKey : StoresKey Every normalizeKey := by
  intro T e T'
  rw [normalizeKey, Context.keyProblem_eq]
  exact readKey_eq_ok (storesValue_normalizeValue e.1) fun _ => shapeProblem_eq_none

/-- The SDK accepts the tables that keep the rules. -/
lemma of_eq_ok {raw : Junjo.ContextInheritance} {C : ContextInheritance} :
    of raw = .ok C ↔ TableOk Every raw ∧ C = ⟨foldedTable Every raw⟩ := by
  have hnormalize : ∀ T, normalize raw = .ok T ↔
      TableOk Every raw ∧ T = foldedTable Every raw :=
    fun _ => tableOk_of_loop storesKey_normalizeKey
  unfold of
  cases hraw : normalize raw with
  | error problem =>
    refine ⟨fun h => (by cases h), fun h => ?_⟩
    rw [(hnormalize _).mpr ⟨h.1, rfl⟩] at hraw
    cases hraw
  | ok T =>
    obtain ⟨hok, rfl⟩ := (hnormalize T).mp hraw
    constructor
    · intro h
      cases h
      exact ⟨hok, rfl⟩
    · rintro ⟨-, rfl⟩
      rfl

end ContextInheritance

end Sdk

end Junjo
