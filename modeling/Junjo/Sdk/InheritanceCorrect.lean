import Junjo.Sdk.InheritanceReaders

/-!
# Inheritance tables on the server and in the SDK

Both sides accept a table when it keeps the rules, and hold its folded edges. The server keeps a
table in plain objects, which have no key `__proto__`: it does not see the values that fold to it.
-/

namespace Junjo

/-! ### What the tables hold -/

/-- The folded edges of a table. -/
def RawEdge (raw : ContextInheritance) (key v w : Text) : Prop :=
  ∃ source, raw.get? key = some source ∧ SourceEdge (fun _ => True) source v w

/-- The edges that a folded table holds. -/
def HeldEdge (held : ContextInheritance) (key v w : Text) : Prop :=
  ∃ values, held.get? key = some values ∧ ParentIn values v w

/-- A table, and what its chains say, is exact: it holds the folded edges, no parent twice, and a
chain maps each value that the start inherits from to its distance. -/
structure InheritanceExact (held : ContextInheritance) (chain : Text → Text → Dict Text ℕ)
    (raw : ContextInheritance) : Prop where
  edges : ∀ key v w, HeldEdge held key v w ↔ RawEdge raw key v w
  nodup : ∀ key values, held.get? key = some values → ∀ e ∈ values.entries, e.2.Nodup
  chains : ∀ key value v d, (chain key value).get? v = some d ↔
    AtDistance (RawEdge raw key) {foldContextValue value} d v

/-- Server and SDK accept the same tables, and what they hold of an accepted one is exact. -/
structure InheritanceAgrees (raw : ContextInheritance) : Prop where
  accepted : (∃ T, normalizeContextInheritance raw = .ok T) ↔
    ∃ C, Sdk.ContextInheritance.of raw = .ok C
  server : ∀ T, normalizeContextInheritance raw = .ok T →
    InheritanceExact T (fun key value => contextChain T key (foldContextValue value)) raw
  sdk : ∀ C, Sdk.ContextInheritance.of raw = .ok C → InheritanceExact C.inherit C.chain raw

section Exact

variable {read : Text → Prop} [DecidablePred read] {raw : ContextInheritance}

lemma heldEdge_foldedTable (hok : TableOk read raw) {key v w : Text} :
    HeldEdge (foldedTable read raw) key v w ↔
      ∃ source, raw.get? key = some source ∧ SourceEdge read source v w := by
  have hnodup : ∀ source, raw.get? key = some source → (readKeys read source.entries).Nodup :=
    fun source h => hok.nodup (key, source) (Dict.get?_eq_some_iff.mp h)
  unfold HeldEdge
  rw [get?_foldedTable]
  simp only [Option.map_eq_some_iff]
  constructor
  · rintro ⟨_, ⟨source, hsource, rfl⟩, hedge⟩
    exact ⟨source, hsource, (parentIn_readTable (hnodup source hsource)).mp hedge⟩
  · rintro ⟨source, hsource, hedge⟩
    exact ⟨_, ⟨source, hsource, rfl⟩, (parentIn_readTable (hnodup source hsource)).mpr hedge⟩

lemma nodup_foldedTable (hok : TableOk read raw) {key : Text} {values : Dict Text (List Text)}
    (hget : (foldedTable read raw).get? key = some values) :
    ∀ e ∈ values.entries, e.2.Nodup := by
  rw [get?_foldedTable, Option.map_eq_some_iff] at hget
  obtain ⟨source, hsource, rfl⟩ := hget
  intro e he
  have hnodup := hok.nodup (key, source) (Dict.get?_eq_some_iff.mp hsource)
  obtain ⟨-, e', -, -, hparents⟩ :=
    ((readTable_spec source.entries).2 hnodup e.1 e.2).mp (Dict.get?_eq_some_iff.mpr he)
  rw [← hparents]
  exact (foldParents_spec e'.2).1

/-- No walk along the edges that a table holds is longer than the limit. -/
lemma walksWithin_heldEdge (hok : TableOk read raw) (key : Text) :
    WalksWithin (HeldEdge (foldedTable read raw) key) maxContextInheritDepth := by
  cases hget : raw.get? key with
  | none =>
    intro v w m hw
    cases m with
    | zero => exact Nat.zero_le _
    | succ m =>
      obtain ⟨p, hp, -⟩ := mem_walkTo_succ.mp hw
      obtain ⟨source, hsource, -⟩ := (heldEdge_foldedTable hok).mp hp
      rw [hget] at hsource
      cases hsource
  | some source =>
    have hedges : HeldEdge (foldedTable read raw) key = SourceEdge read source := by
      funext v w
      apply propext
      rw [heldEdge_foldedTable hok, hget]
      simp
    rw [hedges]
    exact hok.shape (key, source) (Dict.get?_eq_some_iff.mp hget)

/-- Distances along the held edges stay within the depth bound. -/
lemma distance_le (hok : TableOk read raw) {key value v : Text} {d : ℕ}
    (h : AtDistance (HeldEdge (foldedTable read raw) key) {value} d v) :
    d ≤ maxContextInheritDepth :=
  walksWithin_heldEdge hok key value v d h.1

/-- Parents in a folded table are folds. -/
lemma fold_of_heldEdge (hok : TableOk read raw) {key v w : Text}
    (h : HeldEdge (foldedTable read raw) key v w) : foldContextValue w = w := by
  obtain ⟨source, -, -, e, -, -, hw⟩ := (heldEdge_foldedTable hok).mp h
  obtain ⟨p, -, rfl⟩ := List.mem_map.mp hw
  exact foldContextValue_idem p

lemma get?_contextChain_foldedTable (hok : TableOk read raw) {key value v : Text} {d : ℕ} :
    (contextChain (foldedTable read raw) key value).get? v = some d ↔
      AtDistance (HeldEdge (foldedTable read raw) key) {value} d v := by
  have hedges : InheritsValue (foldedTable read raw) key = HeldEdge (foldedTable read raw) key := by
    funext v w
    apply propext
    constructor
    · rintro ⟨values, hvalues, hw⟩
      obtain ⟨p, hp, rfl⟩ := List.mem_map.mp hw
      have hheld : HeldEdge (foldedTable read raw) key v p := ⟨values, hvalues, hp⟩
      rwa [fold_of_heldEdge hok hheld]
    · rintro hheld
      obtain ⟨values, hvalues, hw⟩ := id hheld
      refine ⟨values, hvalues, List.mem_map.mpr ⟨w, hw, fold_of_heldEdge hok hheld⟩⟩
  rw [get?_contextChain, InChain, hedges]
  exact ⟨fun h => h.2, fun h => ⟨distance_le hok h, h⟩⟩

lemma get?_chain_foldedTable (hok : TableOk read raw) {key value v : Text} {d : ℕ} :
    ((Sdk.ContextInheritance.mk (foldedTable read raw)).chain key value).get? v = some d ↔
      AtDistance (HeldEdge (foldedTable read raw) key) {foldContextValue value} d v := by
  unfold Sdk.ContextInheritance.chain
  dsimp only
  cases hget : (foldedTable read raw).get? key with
  | none =>
    have hnone : contextChain (foldedTable read raw) key (foldContextValue value)
        = Dict.ofList [(foldContextValue value, 0)] := by
      rw [contextChain, hget]
    dsimp only
    rw [← hnone]
    exact get?_contextChain_foldedTable hok
  | some values =>
    have hsucc : ∀ x y, y ∈ (fun v => (values.get? v).getD []) x ↔
        HeldEdge (foldedTable read raw) key x y := by
      intro x y
      refine ⟨fun h => ⟨values, hget, h⟩, ?_⟩
      rintro ⟨values', hvalues', h⟩
      rw [hget] at hvalues'
      cases hvalues'
      exact h
    dsimp only
    rw [get?_distances hsucc]
    exact ⟨fun h => h.2, fun h => ⟨distance_le hok h, h⟩⟩

/-- A folded table is exact when it holds all the edges. -/
lemma exact_foldedTable (hok : TableOk read raw)
    (hedges : ∀ key v w, HeldEdge (foldedTable read raw) key v w ↔ RawEdge raw key v w) :
    InheritanceExact (foldedTable read raw)
        (fun key value => contextChain (foldedTable read raw) key (foldContextValue value)) raw ∧
      InheritanceExact (foldedTable read raw)
        (Sdk.ContextInheritance.mk (foldedTable read raw)).chain raw := by
  have heq : ∀ key, RawEdge raw key = HeldEdge (foldedTable read raw) key := by
    intro key
    funext v w
    exact (propext (hedges key v w)).symm
  refine ⟨⟨hedges, fun _ _ => nodup_foldedTable hok, fun key value v d => ?_⟩,
    ⟨hedges, fun _ _ => nodup_foldedTable hok, fun key value v d => ?_⟩⟩
  · rw [heq]
    exact get?_contextChain_foldedTable hok
  · rw [heq]
    exact get?_chain_foldedTable hok

end Exact

/-! ### Values that fold to `__proto__` -/

variable {raw : ContextInheritance}

/-- Under each key the values that fold to `__proto__` list no parents, and there is at most one. -/
def ProtoHarmless (raw : ContextInheritance) : Prop :=
  ∀ e ∈ raw.entries, ∀ v ∈ e.2.entries, foldContextValue v.1 = protoKey →
    v.2 = [] ∧ ∀ v' ∈ e.2.entries, foldContextValue v'.1 = protoKey → v' = v

lemma sourceEdge_notProto (h : ProtoHarmless raw) {e : Text × Dict Text (List Text)}
    (he : e ∈ raw.entries) : SourceEdge NotProto e.2 = SourceEdge Sdk.Every e.2 := by
  funext v w
  apply propext
  constructor
  · rintro ⟨-, hedge⟩
    exact ⟨trivial, hedge⟩
  · rintro ⟨-, e', he', hfold, hw⟩
    refine ⟨?_, e', he', hfold, hw⟩
    rintro rfl
    rw [(h e he e' he' hfold).1] at hw
    cases hw

/-- All folds are read. -/
lemma readKeys_every (entries : List (Text × List Text)) :
    readKeys Sdk.Every entries = entries.map fun e => foldContextValue e.1 :=
  List.filter_eq_self.mpr fun _ _ => decide_eq_true trivial

/-- Without harm from `__proto__`, the rules for the values that the server sees are all the
rules. -/
lemma tableOk_every (hok : TableOk NotProto raw) (h : ProtoHarmless raw) :
    TableOk Sdk.Every raw := by
  refine ⟨hok.keys, hok.key, hok.values, hok.entry, fun e he => ?_, fun e he => ?_⟩
  · have hall : ∀ l : List (Text × List Text), l.Nodup → (∀ v ∈ l, v ∈ e.2.entries) →
        (readKeys NotProto l).Nodup → (readKeys Sdk.Every l).Nodup := by
      intro l
      induction l with
      | nil => intro _ _ _; exact List.nodup_nil
      | cons v l ih =>
        intro hdistinct hmem hnodup
        obtain ⟨hnew, hdistinct⟩ := List.nodup_cons.mp hdistinct
        have hrest : (readKeys NotProto l).Nodup := by
          unfold readKeys at hnodup ⊢
          rw [List.map_cons, List.filter_cons] at hnodup
          split_ifs at hnodup
          · exact (List.nodup_cons.mp hnodup).2
          · exact hnodup
        have htail := ih hdistinct (fun v hv => hmem v (List.mem_cons_of_mem _ hv)) hrest
        rw [readKeys_every] at htail ⊢
        refine List.nodup_cons.mpr ⟨fun hfold => ?_, htail⟩
        obtain ⟨v', hv', heq⟩ := List.mem_map.mp hfold
        by_cases hproto : foldContextValue v.1 = protoKey
        · have hsame := (h e he v (hmem v List.mem_cons_self) hproto).2 v'
            (hmem v' (List.mem_cons_of_mem _ hv')) (heq.trans hproto)
          exact hnew (hsame ▸ hv')
        · unfold readKeys at hnodup
          have hread : NotProto (foldContextValue v.1) := hproto
          rw [List.map_cons, List.filter_cons_of_pos (by simpa using hread)] at hnodup
          refine (List.nodup_cons.mp hnodup).1 (List.mem_filter.mpr ⟨?_, by simpa using hread⟩)
          exact List.mem_map.mpr ⟨v', hv', heq⟩
    exact hall e.2.entries e.2.nodup_entries (fun _ hv => hv) (hok.nodup e he)
  · rw [← sourceEdge_notProto h he]
    exact hok.shape e he

/-- The rules for all values include those for the values that the server sees. -/
lemma tableOk_notProto (hok : TableOk Sdk.Every raw) : TableOk NotProto raw := by
  refine ⟨hok.keys, hok.key, hok.values, hok.entry, fun e he => ?_, fun e he => ?_⟩
  · have hnodup := hok.nodup e he
    rw [readKeys_every] at hnodup
    exact hnodup.filter _
  · exact (hok.shape e he).mono fun v w hedge => ⟨trivial, hedge.2⟩

/-- Server and SDK agree on a table, and hold it exactly, unless the server accepts it with a value
that folds to `__proto__` listed twice or with parents. -/
theorem inheritance_agrees_iff (raw : ContextInheritance) :
    InheritanceAgrees raw ↔ (TableOk NotProto raw → ProtoHarmless raw) := by
  have hserver : (∃ T, normalizeContextInheritance raw = .ok T) ↔ TableOk NotProto raw :=
    ⟨fun ⟨_, h⟩ => (normalizeContextInheritance_eq_ok.mp h).1,
      fun h => ⟨_, normalizeContextInheritance_eq_ok.mpr ⟨h, rfl⟩⟩⟩
  have hsdk : (∃ C, Sdk.ContextInheritance.of raw = .ok C) ↔ TableOk Sdk.Every raw :=
    ⟨fun ⟨_, h⟩ => (Sdk.ContextInheritance.of_eq_ok.mp h).1,
      fun h => ⟨_, Sdk.ContextInheritance.of_eq_ok.mpr ⟨h, rfl⟩⟩⟩
  have hevery : TableOk Sdk.Every raw → ∀ key v w,
      HeldEdge (foldedTable Sdk.Every raw) key v w ↔ RawEdge raw key v w :=
    fun hok key v w => heldEdge_foldedTable hok
  constructor
  · intro hagrees hok
    have hall := hsdk.mp (hagrees.accepted.mp (hserver.mpr hok))
    have hexact := hagrees.server _ (normalizeContextInheritance_eq_ok.mpr ⟨hok, rfl⟩)
    intro e he v hv hfold
    have hget : raw.get? e.1 = some e.2 := Dict.get?_eq_some_iff.mpr he
    refine ⟨?_, fun v' hv' hfold' => ?_⟩
    · rw [List.eq_nil_iff_forall_not_mem]
      intro p hp
      have hraw : RawEdge raw e.1 protoKey (foldContextValue p) :=
        ⟨e.2, hget, trivial, v, hv, hfold, List.mem_map.mpr ⟨p, hp, rfl⟩⟩
      obtain ⟨_, -, hread, -⟩ := (heldEdge_foldedTable hok).mp ((hexact.edges _ _ _).mpr hraw)
      exact hread rfl
    · have hnodup := hall.nodup e he
      rw [readKeys_every] at hnodup
      exact List.inj_on_of_nodup_map hnodup hv' hv (hfold'.trans hfold.symm)
  · intro hharmless
    have hboth : TableOk NotProto raw ↔ TableOk Sdk.Every raw :=
      ⟨fun hok => tableOk_every hok (hharmless hok), tableOk_notProto⟩
    refine ⟨by rw [hserver, hsdk, hboth], fun T hT => ?_, fun C hC => ?_⟩
    · obtain ⟨hok, rfl⟩ := normalizeContextInheritance_eq_ok.mp hT
      refine (exact_foldedTable hok fun key v w => ?_).1
      rw [heldEdge_foldedTable hok, ← hevery (hboth.mp hok), heldEdge_foldedTable (hboth.mp hok)]
      refine exists_congr fun source => and_congr_right fun hsource => ?_
      have hmem := Dict.get?_eq_some_iff.mp hsource
      rw [sourceEdge_notProto (hharmless hok) hmem]
    · obtain ⟨hok, rfl⟩ := Sdk.ContextInheritance.of_eq_ok.mp hC
      exact (exact_foldedTable hok (hevery hok)).2

/-- A table whose only value folds to `__proto__`, with a parent. -/
def protoTable : ContextInheritance :=
  Dict.ofList [(text "zone", Dict.ofList [(text "__PROTO__", [text "world"])])]

/-- The server accepts it without the edge, which the SDK holds. -/
theorem inheritance_loses_edge : ¬ InheritanceAgrees protoTable := by
  intro h
  have hget : ((normalizeContextInheritance protoTable).toOption.bind fun T =>
      T.get? (text "zone")) = some Dict.empty := by decide
  cases hT : normalizeContextInheritance protoTable with
  | error problem => rw [hT] at hget; cases hget
  | ok T =>
    rw [hT] at hget
    have hzone : T.get? (text "zone") = some Dict.empty := hget
    have hraw : RawEdge protoTable (text "zone") protoKey (text "world") :=
      ⟨Dict.ofList [(text "__PROTO__", [text "world"])], by decide, trivial,
        (text "__PROTO__", [text "world"]), by decide, by decide, by decide⟩
    obtain ⟨values, hvalues, hedge⟩ := ((h.server T hT).edges _ _ _).mpr hraw
    rw [hzone] at hvalues
    cases hvalues
    cases hedge

end Junjo
