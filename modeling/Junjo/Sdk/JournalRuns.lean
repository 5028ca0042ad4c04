import Junjo.Core.Lists
import Junjo.Sdk.JournalCorrect

/-!
# Journals over crashes and restarts

A journal on disk stands for a log of records. Those past the covered ones may be lost in a crash,
from any record on, and a queue that opens the journal may leave only the pending entries. So an
entry that a force covered stays pending over crashes and restarts until it is done.
-/

namespace Junjo.Journal

open Utf8 (Byte encode utf16 replacement)

/-- A log of records. A force covered the first `covered` ones, and the queue takes the first
`durable` ones for covered. -/
structure Log (ι : Type) where
  records : List (Record ι)
  forcing : Option ℕ
  durable : ℕ
  covered : ℕ

variable {ι : Type}

/-- What a crash may leave of a log. -/
def Log.Leaves (l : Log ι) (q : List (Record ι)) : Prop :=
  l.records.take l.covered <+: q ∧ q <+: l.records

inductive Log.Step : Log ι → DiskEvent ι → Log ι → Prop
  | append (l : Log ι) (r : Record ι) :
    Step l (.append r) ⟨l.records ++ [r], l.forcing, l.durable, l.covered⟩
  | startForce (l : Log ι) :
    Step l .startForce ⟨l.records, some l.records.length, l.durable, l.covered⟩
  | endForce {l : Log ι} {k : ℕ} (h : l.forcing = some k) :
    Step l .endForce ⟨l.records, none, k, k⟩
  | rollBack (l : Log ι) :
    Step l .rollBack ⟨l.records.take l.durable, none, l.durable, l.covered⟩
  | crash (l : Log ι) (length : ℕ) : Step l (.crash length) l
  | compacted {l : Log ι} {q : List (Record ι)} (h : l.Leaves q) :
    Step l (.reopen true)
      ⟨(pendingOf q).map Record.put, none, (pendingOf q).length, (pendingOf q).length⟩
  | kept {l : Log ι} {q : List (Record ι)} (h : l.Leaves q) :
    Step l (.reopen false) ⟨q, none, q.length, l.covered⟩

/-- What is covered is taken for covered, and no force is behind it. -/
structure Log.Ordered (l : Log ι) : Prop where
  covered : l.covered ≤ l.durable
  durable : l.durable ≤ l.records.length
  forcing : ∀ k, l.forcing = some k → l.durable ≤ k ∧ k ≤ l.records.length

lemma Log.Leaves.covered_le {l : Log ι} (hl : l.Ordered) {q : List (Record ι)} (h : l.Leaves q) :
    l.covered ≤ q.length := by
  have hlength := h.1.length_le
  rw [List.length_take, min_eq_left (hl.covered.trans hl.durable)] at hlength
  exact hlength

lemma Log.Leaves.take_covered {l : Log ι} (hl : l.Ordered) {q : List (Record ι)}
    (h : l.Leaves q) : q.take l.covered = l.records.take l.covered := by
  obtain ⟨rest, hrest⟩ := h.2
  rw [← hrest, List.take_append_of_le_length (h.covered_le hl)]

lemma Log.Ordered.next {l l' : Log ι} {event : DiskEvent ι} (h : l.Ordered)
    (hstep : l.Step event l') : l'.Ordered := by
  cases hstep with
  | append r =>
    refine ⟨h.covered, ?_, fun k hk => ?_⟩
    · rw [List.length_append]
      exact h.durable.trans (Nat.le_add_right _ _)
    · rw [List.length_append]
      exact ⟨(h.forcing k hk).1, (h.forcing k hk).2.trans (Nat.le_add_right _ _)⟩
  | startForce =>
    refine ⟨h.covered, h.durable, fun k hk => ?_⟩
    obtain rfl := Option.some.inj hk
    exact ⟨h.durable, le_rfl⟩
  | @endForce k hk => exact ⟨le_rfl, (h.forcing k hk).2, fun _ hnone => by cases hnone⟩
  | rollBack =>
    refine ⟨h.covered, ?_, fun _ hnone => by cases hnone⟩
    rw [List.length_take]
    exact le_min le_rfl h.durable
  | crash n => exact h
  | compacted hq => exact ⟨le_rfl, by simp, fun _ hnone => by cases hnone⟩
  | kept hq => exact ⟨hq.covered_le h, le_rfl, fun _ hnone => by cases hnone⟩

/-! ### Pending entries -/

lemma mem_done_foldl {q : List (Record ι)} {s : Replay ι} {id : Text} :
    id ∈ (q.foldl Record.apply s).done ↔ id ∈ s.done ∨ ∃ outcome, Record.done id outcome ∈ q := by
  induction q generalizing s with
  | nil => simp
  | cons r q ih =>
    rw [List.foldl_cons, ih]
    cases r with
    | put e => simp [Record.apply]
    | done id' outcome =>
      simp only [Record.apply, List.mem_append, List.mem_cons, List.not_mem_nil, or_false,
        Record.done.injEq]
      constructor
      · rintro ((h | rfl) | ⟨o, h⟩)
        · exact Or.inl h
        · exact Or.inr ⟨outcome, Or.inl ⟨rfl, rfl⟩⟩
        · exact Or.inr ⟨o, Or.inr h⟩
      · rintro (h | ⟨o, ⟨rfl, -⟩ | h⟩)
        · exact Or.inl (Or.inl h)
        · exact Or.inl (Or.inr rfl)
        · exact Or.inr ⟨o, h⟩

/-- A stored entry was put, or was there before. -/
lemma get?_puts_foldl {q : List (Record ι)} {s : Replay ι} {id : Text} {e : Entry ι}
    (h : (q.foldl Record.apply s).puts.get? id = some e) :
    s.puts.get? id = some e ∨ (e.id = id ∧ Record.put e ∈ q) := by
  induction q generalizing s with
  | nil => exact Or.inl h
  | cons r q ih =>
    rw [List.foldl_cons] at h
    rcases ih h with hstored | ⟨hid, hmem⟩
    · cases r with
      | put e' =>
        rw [Record.apply, Dict.get?_set] at hstored
        split_ifs at hstored with heq
        · obtain rfl := Option.some.inj hstored
          exact Or.inr ⟨heq.symm, List.mem_cons_self⟩
        · exact Or.inl hstored
      | done id' outcome => exact Or.inl hstored
    · exact Or.inr ⟨hid, List.mem_cons_of_mem r hmem⟩

/-- The entries that some records put. -/
def putsOf (q : List (Record ι)) : List (Entry ι) :=
  q.filterMap fun r =>
    match r with
    | .put e => some e
    | .done _ _ => none

lemma putsOf_map_put (entries : List (Entry ι)) : putsOf (entries.map Record.put) = entries := by
  rw [putsOf, List.filterMap_map]
  exact List.filterMap_some

lemma mem_putsOf {q : List (Record ι)} {e : Entry ι} : e ∈ putsOf q ↔ Record.put e ∈ q := by
  rw [putsOf, List.mem_filterMap]
  constructor
  · rintro ⟨r, hr, he⟩
    cases r with
    | put e' =>
      obtain rfl := Option.some.inj he
      exact hr
    | done id outcome => cases he
  · exact fun h => ⟨_, h, rfl⟩

/-- Entries of different ids are stored in the order of their puts. -/
lemma entries_puts_foldl {q : List (Record ι)} {s : Replay ι}
    (hnodup : (s.puts.keys ++ (putsOf q).map Entry.id).Nodup) :
    (q.foldl Record.apply s).puts.entries.map Prod.snd
      = s.puts.entries.map Prod.snd ++ putsOf q := by
  induction q generalizing s with
  | nil => exact (List.append_nil _).symm
  | cons r q ih =>
    rw [List.foldl_cons]
    cases r with
    | put e =>
      have hcons : putsOf (Record.put e :: q) = e :: putsOf q := rfl
      rw [hcons, List.map_cons] at hnodup
      have hnew : e.id ∉ s.puts.keys := by
        intro hmem
        exact (List.nodup_append.mp hnodup).2.2 _ hmem _ List.mem_cons_self rfl
      have hentries := Dict.entries_set_of_not_mem e hnew
      have hkeys : (s.puts.set e.id e).keys = s.puts.keys ++ [e.id] := by
        rw [Dict.keys, hentries, List.map_append]
        rfl
      rw [ih, hcons, Record.apply, hentries, List.map_append, List.append_assoc]
      · rfl
      · rw [Record.apply, hkeys, List.append_assoc]
        exact hnodup
    | done id outcome => exact ih hnodup

/-- What is pending, in the order of the puts. -/
lemma pendingOf_sublist {q : List (Record ι)} (hnodup : ((putsOf q).map Entry.id).Nodup) :
    (pendingOf q).Sublist (putsOf q) := by
  rw [pendingOf, Replay.pending, entries_puts_foldl (s := {}) hnodup]
  exact List.filter_sublist

/-- A record that neither finishes an entry nor puts another one with its id. -/
def Record.Keeps (e : Entry ι) : Record ι → Prop
  | .put e' => e'.id = e.id → e' = e
  | .done id _ => id ≠ e.id

lemma get?_puts_of_keeps {e : Entry ι} {q : List (Record ι)} {s : Replay ι}
    (hkeeps : ∀ r ∈ q, r.Keeps e) (h : s.puts.get? e.id = some e ∨ Record.put e ∈ q) :
    (q.foldl Record.apply s).puts.get? e.id = some e := by
  induction q generalizing s with
  | nil => exact h.resolve_right List.not_mem_nil
  | cons r q ih =>
    obtain ⟨hr, hq⟩ := List.forall_mem_cons.mp hkeeps
    rw [List.foldl_cons]
    apply ih hq
    cases r with
    | put e' =>
      by_cases hid : e'.id = e.id
      · obtain rfl := hr hid
        exact Or.inl (Dict.get?_set_self _ _ _)
      · refine h.imp (fun hstored => ?_) fun hmem => ?_
        · rw [Record.apply, Dict.get?_set_of_ne _ _ (Ne.symm hid)]
          exact hstored
        · refine (List.mem_cons.mp hmem).resolve_left fun heq => hid ?_
          rw [(Record.put.inj heq)]
    | done id outcome =>
      exact h.imp_right fun hmem => (List.mem_cons.mp hmem).resolve_left (by simp)

lemma mem_pendingOf {q : List (Record ι)} {e : Entry ι} :
    e ∈ pendingOf q ↔ (q.foldl Record.apply {}).puts.get? e.id = some e ∧
      ∀ outcome, Record.done e.id outcome ∉ q := by
  have hdone : e.id ∉ (q.foldl Record.apply {}).done ↔ ∀ outcome, Record.done e.id outcome ∉ q := by
    rw [mem_done_foldl, ← not_exists, not_iff_not]
    exact or_iff_right List.not_mem_nil
  rw [pendingOf, Replay.pending, List.mem_filter, decide_eq_true_eq, hdone, List.mem_map]
  refine and_congr_left' ⟨?_, fun h => ⟨_, Dict.get?_eq_some_iff.mp h, rfl⟩⟩
  rintro ⟨⟨id, e'⟩, hmem, rfl⟩
  have hget := Dict.get?_eq_some_iff.mpr hmem
  rcases get?_puts_foldl hget with hempty | ⟨rfl, -⟩
  · cases hempty
  · exact hget

lemma put_mem_of_pending {q : List (Record ι)} {e : Entry ι} (h : e ∈ pendingOf q) :
    Record.put e ∈ q := by
  rcases get?_puts_foldl (mem_pendingOf.mp h).1 with hempty | ⟨-, hmem⟩
  · cases hempty
  · exact hmem

lemma pending_of_keeps {e : Entry ι} {q : List (Record ι)} (hkeeps : ∀ r ∈ q, r.Keeps e)
    (h : Record.put e ∈ q) : e ∈ pendingOf q :=
  mem_pendingOf.mpr ⟨get?_puts_of_keeps hkeeps (Or.inr h), fun _ hmem => hkeeps _ hmem rfl⟩

/-! ### Properties of logs -/

/-- What holds of the records of a log holds of those after a step, if it holds of what is
appended. -/
lemma Log.forall_next {P : Record ι → Prop} {l l' : Log ι} {event : DiskEvent ι}
    (h : ∀ r ∈ l.records, P r) (hevent : ∀ r, event = .append r → P r) (hstep : l.Step event l') :
    ∀ r ∈ l'.records, P r := by
  cases hstep with
  | append r =>
    intro r' hr'
    rcases List.mem_append.mp hr' with hr' | hr'
    · exact h r' hr'
    · rw [List.mem_singleton.mp hr']
      exact hevent r rfl
  | startForce => exact h
  | endForce hk => exact h
  | rollBack => exact fun r hr => h r (List.mem_of_mem_take hr)
  | crash n => exact h
  | @compacted q hq =>
    intro r hr
    obtain ⟨e, he, rfl⟩ := List.mem_map.mp hr
    exact h _ (hq.2.subset (put_mem_of_pending he))
  | @kept q hq => exact fun r hr => h r (hq.2.subset hr)

/-- An entry whose put is covered, and that nothing in the log finishes. -/
structure Log.Survives (l : Log ι) (e : Entry ι) : Prop where
  put_mem : Record.put e ∈ l.records.take l.covered
  keeps : ∀ r ∈ l.records, r.Keeps e

lemma Log.Survives.pending {l : Log ι} {e : Entry ι} (h : l.Survives e) {q : List (Record ι)}
    (hq : l.Leaves q) : e ∈ pendingOf q :=
  pending_of_keeps (fun r hr => h.keeps r (hq.2.subset hr)) (hq.1.subset h.put_mem)

lemma Log.Survives.next {l l' : Log ι} {e : Entry ι} {event : DiskEvent ι} (hl : l.Ordered)
    (h : l.Survives e) (hevent : ∀ r, event = .append r → r.Keeps e) (hstep : l.Step event l') :
    l'.Survives e := by
  refine ⟨?_, Log.forall_next h.keeps hevent hstep⟩
  cases hstep with
  | append r => exact ((List.prefix_append _ _).take _).subset h.put_mem
  | startForce => exact h.put_mem
  | @endForce k hk =>
    have hle : l.covered ≤ k := hl.covered.trans (hl.forcing k hk).1
    exact (List.take_prefix_take_left hle).subset h.put_mem
  | rollBack =>
    rw [List.take_take, min_eq_left hl.covered]
    exact h.put_mem
  | crash n => exact h.put_mem
  | @compacted q hq =>
    rw [List.take_of_length_le (by simp)]
    exact List.mem_map_of_mem (h.pending hq)
  | @kept q hq =>
    rw [hq.take_covered hl]
    exact h.put_mem

/-- An entry that is done for good: that is covered, or no record puts it. -/
def Log.Gone (l : Log ι) (id : Text) : Prop :=
  (∃ outcome, Record.done id outcome ∈ l.records.take l.covered) ∨
    ∀ e, Record.put e ∈ l.records → e.id ≠ id

lemma Log.Gone.not_pending {l : Log ι} {id : Text} (h : l.Gone id) {q : List (Record ι)}
    (hq : l.Leaves q) {e : Entry ι} (he : e ∈ pendingOf q) : e.id ≠ id := by
  rintro rfl
  rcases h with ⟨outcome, hdone⟩ | hnone
  · exact (mem_pendingOf.mp he).2 outcome (hq.1.subset hdone)
  · exact hnone e (hq.2.subset (put_mem_of_pending he)) rfl

lemma Log.Gone.next {l l' : Log ι} {id : Text} {event : DiskEvent ι} (hl : l.Ordered)
    (h : l.Gone id) (hevent : ∀ e, event = .append (.put e) → e.id ≠ id)
    (hstep : l.Step event l') : l'.Gone id := by
  rcases h with ⟨outcome, hdone⟩ | hnone
  · cases hstep with
    | append r => exact Or.inl ⟨outcome, ((List.prefix_append _ _).take _).subset hdone⟩
    | startForce => exact Or.inl ⟨outcome, hdone⟩
    | @endForce k hk =>
      have hle : l.covered ≤ k := hl.covered.trans (hl.forcing k hk).1
      exact Or.inl ⟨outcome, (List.take_prefix_take_left hle).subset hdone⟩
    | rollBack => exact Or.inl ⟨outcome, by rwa [List.take_take, min_eq_left hl.covered]⟩
    | crash n => exact Or.inl ⟨outcome, hdone⟩
    | @compacted q hq =>
      refine Or.inr fun e he => ?_
      obtain ⟨e', he', heq⟩ := List.mem_map.mp he
      obtain rfl := Record.put.inj heq
      exact Log.Gone.not_pending (Or.inl ⟨outcome, hdone⟩) hq he'
    | @kept q hq => exact Or.inl ⟨outcome, by rwa [hq.take_covered hl]⟩
  · refine Or.inr fun e he => ?_
    exact Log.forall_next (P := fun r => ∀ e, r = .put e → e.id ≠ id)
      (fun r hr e he => hnone e (he ▸ hr)) (fun r hr e he => hevent e (he ▸ hr)) hstep _ he e rfl

/-! ### The log on disk -/

section

variable {instants : Instants ι} {toJson : JsonValue → Text}
  {parseString : Text → Option JsonValue}

/-- A journal on disk that stands for a log: its file is a start of the log's. -/
structure Represents (instants : Instants ι) (toJson : JsonValue → Text) (l : Log ι) (m : ℕ)
    (d : Disk) : Prop where
  plain : ∀ r ∈ l.records, r.Plain instants
  ordered : l.Ordered
  bytes : d.bytes = (fileOf instants toJson l.records).take m
  forcing : d.forcing = l.forcing.map fun k => (fileOf instants toJson (l.records.take k)).length
  durable : d.durable = (fileOf instants toJson (l.records.take l.durable)).length
  forced : d.forced = (fileOf instants toJson (l.records.take l.covered)).length
  covered : d.forced ≤ m
  opened : d.opened = true → (fileOf instants toJson l.records).length ≤ m

/-- A file without a part of a line at its end. -/
def EndsClean (bytes : List Byte) : Prop := bytes = [] ∨ bytes.getLast? = some 10

lemma fileOf_append (q q' : List (Record ι)) :
    fileOf instants toJson (q ++ q') = fileOf instants toJson q ++ fileOf instants toJson q' :=
  List.flatMap_append

lemma recordBytes_ne_nil (r : Record ι) : recordBytes instants toJson r ≠ [] := by
  have hwritten : ∀ u (t : Text), writtenChars (u :: t) ≠ [] := by
    intro u t
    cases t with
    | nil => exact List.cons_ne_nil _ _
    | cons v t =>
      rw [writtenChars]
      split_ifs <;> exact List.cons_ne_nil _ _
  have hchars : writtenChars (line (toJson (.obj (r.object instants)))) ≠ [] := hwritten _ _
  obtain ⟨c, chars, hcons⟩ := List.exists_cons_of_ne_nil hchars
  rw [recordBytes, getBytes, hcons, encode, List.flatMap_cons]
  intro hnil
  have hchar := (List.append_eq_nil_iff.mp hnil).1
  rw [Utf8.encodeChar_eq] at hchar
  split_ifs at hchar

/-- The records that a cut leaves whole reach past the covered ones. -/
lemma leaves_of_take {l : Log ι} {whole : List (Record ι)} {rest : List Byte} {n : ℕ}
    (hn : (fileOf instants toJson (l.records.take l.covered)).length ≤ n)
    (hwhole : whole <+: l.records)
    (htake : (fileOf instants toJson l.records).take n = fileOf instants toJson whole ++ rest)
    (hrest : rest = [] ∨ ∃ r missing, whole ++ [r] <+: l.records ∧ missing ≠ [] ∧
      recordBytes instants toJson r = rest ++ missing) : l.Leaves whole := by
  refine ⟨?_, hwhole⟩
  rcases List.prefix_or_prefix_of_prefix (List.take_prefix l.covered l.records) hwhole with
    hle | hge
  · exact hle
  · obtain ⟨more, hmore⟩ := hge
    cases more with
    | nil => rw [← hmore, List.append_nil]
    | cons r more =>
      exfalso
      have hprefix : fileOf instants toJson (l.records.take l.covered)
          <+: fileOf instants toJson whole ++ rest := by
        rw [← htake, List.prefix_take_iff]
        refine ⟨?_, hn⟩
        obtain ⟨tail, htail⟩ := List.take_prefix l.covered l.records
        exact ⟨fileOf instants toJson tail, by rw [← fileOf_append, htail]⟩
      rw [← hmore, fileOf_append, List.prefix_append_right_inj] at hprefix
      have hlength := hprefix.length_le
      have hcons : fileOf instants toJson (r :: more)
          = recordBytes instants toJson r ++ fileOf instants toJson more := rfl
      rw [hcons, List.length_append] at hlength
      have hpos := List.length_pos_iff.mpr (@recordBytes_ne_nil _ instants toJson r)
      rcases hrest with rfl | ⟨r', missing, hr', hmissing, hbytes⟩
      · rw [List.length_nil] at hlength
        omega
      · have hsame : r' = r := by
          obtain ⟨t, ht⟩ := hr'
          obtain ⟨t', ht'⟩ := List.take_prefix l.covered l.records
          rw [← hmore, ← ht, List.append_assoc, List.append_assoc] at ht'
          exact (List.cons.inj (List.append_cancel_left ht')).1.symm
        rw [← hsame, hbytes, List.length_append] at hlength
        have := List.length_pos_iff.mpr hmissing
        omega

/-- What a crash leaves of a journal is read as what it leaves of the log. -/
lemma Represents.read (hgson : Gson toJson parseString) {l : Log ι} {m : ℕ} {d : Disk}
    (h : Represents instants toJson l m d) {n : ℕ} (hn : d.forced ≤ n) :
    ∃ q, l.Leaves q ∧ (replay instants parseString (d.bytes.take n)).1 = pendingOf q ∧
      ∀ x ∈ (replay instants parseString (d.bytes.take n)).2, x.reason = .tornLine := by
  have hmin : (fileOf instants toJson (l.records.take l.covered)).length ≤ min n m := by
    rw [← h.forced]
    exact le_min hn h.covered
  rw [h.bytes, List.take_take]
  obtain ⟨whole, rest, hwhole, htake, hread⟩ := journal_cut hgson h.plain (min n m)
  rcases hread with
    ⟨hrest, hread⟩ | ⟨r, hr, hbytes, hread⟩ | ⟨r, missing, hr, hbytes, -, hmissing, hread⟩
  · refine ⟨whole, leaves_of_take hmin hwhole htake (Or.inl hrest), by rw [hread], ?_⟩
    rw [hread]
    exact fun _ hnil => absurd hnil List.not_mem_nil
  · have hleaves := leaves_of_take hmin hwhole htake
      (Or.inr ⟨r, [10], hr, List.cons_ne_nil _ _, hbytes⟩)
    refine ⟨whole ++ [r], ⟨hleaves.1.trans (List.prefix_append _ _), hr⟩, by rw [hread], ?_⟩
    rw [hread]
    exact fun _ hnil => absurd hnil List.not_mem_nil
  · have hne : missing ≠ [] := List.ne_nil_of_length_pos (by omega)
    refine ⟨whole, leaves_of_take hmin hwhole htake (Or.inr ⟨r, missing, hr, hne, hbytes⟩),
      by rw [hread], ?_⟩
    rw [hread]
    intro x hx
    rw [List.mem_singleton.mp hx]

lemma lineFeed_not_mem_encode {chars : List Char} (h : ∀ c ∈ chars, 32 ≤ c.toNat) :
    (10 : Byte) ∉ encode chars := by
  have hbyte : ∀ n, n < 256 → n ≠ 10 → (10 : Byte) ≠ Utf8.byte n := by
    intro n hn hne heq
    have hnat := congrArg BitVec.toNat heq
    rw [Utf8.toNat_byte hn] at hnat
    exact hne hnat.symm
  intro hmem
  obtain ⟨c, hc, hcb⟩ := List.mem_flatMap.mp hmem
  have hcontrol := h c hc
  have hbounds := Utf8.val_bounds c
  rw [Utf8.encodeChar_eq] at hcb
  split_ifs at hcb
  all_goals
    simp only [List.mem_cons, List.not_mem_nil, or_false] at hcb
    revert hcb
    simp only [imp_false, not_or]
  · exact hbyte _ (by omega) (by omega)
  · exact ⟨hbyte _ (by omega) (by omega), hbyte _ (by omega) (by omega)⟩
  · exact ⟨hbyte _ (by omega) (by omega), hbyte _ (by omega) (by omega),
      hbyte _ (by omega) (by omega)⟩
  · exact ⟨hbyte _ (by omega) (by omega), hbyte _ (by omega) (by omega),
      hbyte _ (by omega) (by omega), hbyte _ (by omega) (by omega)⟩

/-- A file that ends clean holds whole records. -/
lemma Represents.clean (hgson : Gson toJson parseString) {l : Log ι} {m : ℕ} {d : Disk}
    (h : Represents instants toJson l m d) (hclean : EndsClean d.bytes) :
    ∃ q, l.Leaves q ∧ d.bytes = fileOf instants toJson q := by
  obtain ⟨whole, rest, hwhole, htake, hrest⟩ :=
    @take_fileOf _ instants toJson l.records m
  have hbytes := h.bytes.trans htake
  rcases hrest with hnil | ⟨r, missing, hr, hmissing, hrecord⟩
  · refine ⟨whole, leaves_of_take ?_ hwhole htake (Or.inl hnil),
      by rw [hbytes, hnil, List.append_nil]⟩
    rw [← h.forced]
    exact h.covered
  · by_cases hnil : rest = []
    · refine ⟨whole, leaves_of_take ?_ hwhole htake (Or.inl hnil),
        by rw [hbytes, hnil, List.append_nil]⟩
      rw [← h.forced]
      exact h.covered
    · exfalso
      obtain ⟨json, hjson, hprinted, hline⟩ := record_line hgson (h.plain r (hr.subset (by simp)))
      have hfeed : (10 : Byte) ∈ rest := by
        rw [hbytes] at hclean
        rcases hclean with hempty | hlast
        · exact absurd (List.append_eq_nil_iff.mp hempty).2 hnil
        · rw [List.getLast?_append_of_ne_nil _ hnil] at hlast
          exact List.mem_of_getLast? hlast
      have hsplit : rest ++ missing.dropLast = encode (lineChars json) := by
        have hdrop := congrArg List.dropLast (hrecord.symm.trans hline)
        rw [List.dropLast_append_of_ne_nil hmissing, encode_append] at hdrop
        rw [hdrop]
        exact List.dropLast_concat
      exact lineFeed_not_mem_encode (lineChars_ge hprinted)
        (hsplit ▸ List.mem_append_left _ hfeed)

/-- An append writes texts without unpaired surrogates, and a journal that is not replaced when it
is opened ends clean. -/
def CleanStep (instants : Instants ι) (d : Disk) : DiskEvent ι → Prop
  | .append r => r.Plain instants
  | .reopen compacted => compacted = true ∨ EndsClean d.bytes
  | _ => True

lemma prefix_fileOf_take (records : List (Record ι)) (k : ℕ) :
    fileOf instants toJson (records.take k) <+: fileOf instants toJson records := by
  obtain ⟨tail, htail⟩ := List.take_prefix k records
  exact ⟨fileOf instants toJson tail, by rw [← fileOf_append, htail]⟩

/-- The journal on disk follows its log. -/
lemma Represents.next (hgson : Gson toJson parseString) {l : Log ι} {m : ℕ} {d d' : Disk}
    {event : DiskEvent ι} (h : Represents instants toJson l m d)
    (hclean : CleanStep instants d event)
    (hnext : d.next instants parseString toJson event = some d') :
    ∃ l' m', l.Step event l' ∧ Represents instants toJson l' m' d' := by
  have hwhole : d.opened = true → d.bytes = fileOf instants toJson l.records := by
    intro hopened
    rw [h.bytes, List.take_of_length_le (h.opened hopened)]
  have hcovered : d.forced ≤ (fileOf instants toJson l.records).length := by
    rw [h.forced]
    exact (prefix_fileOf_take _ _).length_le
  cases event with
  | append r =>
    rw [Disk.next] at hnext
    split_ifs at hnext with hopened
    obtain rfl := Option.some.inj hnext
    have hstep := Log.Step.append l r
    have hfile : fileOf instants toJson (l.records ++ [r])
        = d.bytes ++ recordBytes instants toJson r := by
      rw [fileOf_append, hwhole hopened]
      simp [fileOf]
    refine ⟨_, (fileOf instants toJson (l.records ++ [r])).length, hstep, ?_, h.ordered.next hstep,
      ?_, ?_, ?_, ?_, ?_, fun _ => le_rfl⟩
    · intro r' hr'
      rcases List.mem_append.mp hr' with hr' | hr'
      · exact h.plain r' hr'
      · rw [List.mem_singleton.mp hr']
        exact hclean
    · rw [List.take_length, hfile]
    · dsimp only
      rw [h.forcing]
      cases hforcing : l.forcing with
      | none => rfl
      | some k =>
        rw [Option.map_some, Option.map_some,
          List.take_append_of_le_length (h.ordered.forcing k hforcing).2]
    · dsimp only
      rw [List.take_append_of_le_length h.ordered.durable, h.durable]
    · dsimp only
      rw [List.take_append_of_le_length (h.ordered.covered.trans h.ordered.durable), h.forced]
    · rw [hfile, List.length_append, hwhole hopened]
      exact hcovered.trans (Nat.le_add_right _ _)
  | startForce =>
    rw [Disk.next] at hnext
    split_ifs at hnext with hopened
    obtain rfl := Option.some.inj hnext
    have hstep := Log.Step.startForce l
    refine ⟨_, (fileOf instants toJson l.records).length, hstep, h.plain, h.ordered.next hstep, ?_,
      ?_, h.durable, h.forced, hcovered, fun _ => le_rfl⟩
    · rw [List.take_length]
      exact hwhole hopened.1
    · dsimp only
      rw [Option.map_some, List.take_length, hwhole hopened.1]
  | endForce =>
    rw [Disk.next] at hnext
    split_ifs at hnext with hopened
    obtain ⟨target, htarget, rfl⟩ := Option.map_eq_some_iff.mp hnext
    rw [h.forcing] at htarget
    obtain ⟨k, hk, rfl⟩ := Option.map_eq_some_iff.mp htarget
    have hstep := Log.Step.endForce hk
    refine ⟨_, (fileOf instants toJson l.records).length, hstep, h.plain, h.ordered.next hstep, ?_,
      rfl, rfl, rfl, (prefix_fileOf_take _ _).length_le, fun _ => le_rfl⟩
    rw [List.take_length]
    exact hwhole hopened
  | rollBack =>
    rw [Disk.next] at hnext
    split_ifs at hnext with hopened
    obtain rfl := Option.some.inj hnext
    have hstep := Log.Step.rollBack l
    have htake : d.bytes.take d.durable = fileOf instants toJson (l.records.take l.durable) := by
      rw [hwhole hopened.1, h.durable]
      exact (List.prefix_iff_eq_take.mp (prefix_fileOf_take _ _)).symm
    refine ⟨_, d.durable, hstep, fun r hr => h.plain r (List.mem_of_mem_take hr),
      h.ordered.next hstep, ?_, rfl, ?_, ?_, ?_, fun _ => h.durable.ge⟩
    · dsimp only
      rw [htake, List.take_of_length_le h.durable.ge]
    · dsimp only
      rw [List.take_take, Nat.min_self, h.durable]
    · dsimp only
      rw [List.take_take, min_eq_left h.ordered.covered, h.forced]
    · dsimp only
      rw [h.forced, h.durable]
      have hprefix : l.records.take l.covered <+: l.records.take l.durable :=
        List.take_prefix_take_left h.ordered.covered
      obtain ⟨tail, htail⟩ := hprefix
      rw [← htail, fileOf_append, List.length_append]
      exact Nat.le_add_right _ _
  | crash n =>
    rw [Disk.next] at hnext
    split_ifs at hnext with hn
    obtain rfl := Option.some.inj hnext
    refine ⟨l, min n m, .crash l n, h.plain, h.ordered, ?_, h.forcing, h.durable, h.forced,
      le_min hn h.covered, ?_⟩
    · dsimp only
      rw [h.bytes, List.take_take]
    · intro hopened
      cases hopened
  | reopen compacted =>
    rw [Disk.next] at hnext
    by_cases hopened : d.opened = true
    · rw [if_pos hopened] at hnext
      cases hnext
    rw [if_neg hopened] at hnext
    cases compacted with
    | true =>
      obtain rfl := Option.some.inj hnext
      have hlength : d.forced ≤ d.bytes.length := by
        rw [h.bytes, List.length_take]
        exact le_min h.covered hcovered
      obtain ⟨q, hq, hread, -⟩ := h.read hgson hlength
      rw [List.take_length] at hread
      have hstep := Log.Step.compacted hq
      refine ⟨_, (fileOf instants toJson ((pendingOf q).map Record.put)).length, hstep, ?_,
        h.ordered.next hstep, ?_, rfl, ?_, ?_, ?_, fun _ => le_rfl⟩
      · intro r hr
        obtain ⟨e, he, rfl⟩ := List.mem_map.mp hr
        exact h.plain _ (hq.2.subset (put_mem_of_pending he))
      · rw [List.take_length, ← hread]
      · rw [List.take_of_length_le (by simp), ← hread]
      · rw [List.take_of_length_le (by simp), ← hread]
      · rw [← hread]
    | false =>
      obtain rfl := Option.some.inj hnext
      obtain ⟨q, hq, hfile⟩ := h.clean hgson (hclean.resolve_left Bool.false_ne_true)
      have hstep := Log.Step.kept hq
      refine ⟨_, (fileOf instants toJson q).length, hstep, fun r hr => h.plain r (hq.2.subset hr),
        h.ordered.next hstep, ?_, rfl, ?_, ?_, ?_, fun _ => le_rfl⟩
      · rw [List.take_length]
        exact hfile
      · rw [List.take_length, ← hfile]
      · dsimp only
        rw [hq.take_covered h.ordered, h.forced]
      · dsimp only
        rw [h.forced, ← hq.take_covered h.ordered]
        exact (prefix_fileOf_take _ _).length_le

/-! ### Runs -/

/-- The records that a run appends. -/
def appended (events : List (DiskEvent ι)) : List (Record ι) :=
  events.filterMap fun event =>
    match event with
    | .append r => some r
    | _ => none

/-- The entries that a run enqueues. -/
def enqueued (events : List (DiskEvent ι)) : List (Entry ι) := putsOf (appended events)

lemma appended_append (events events' : List (DiskEvent ι)) :
    appended (events ++ events') = appended events ++ appended events' := List.filterMap_append

lemma enqueued_append (events events' : List (DiskEvent ι)) :
    enqueued (events ++ events') = enqueued events ++ enqueued events' := by
  rw [enqueued, appended_append, putsOf, List.filterMap_append]
  rfl

lemma mem_appended {events : List (DiskEvent ι)} {r : Record ι} :
    r ∈ appended events ↔ DiskEvent.append r ∈ events := by
  rw [appended, List.mem_filterMap]
  constructor
  · rintro ⟨event, hevent, hr⟩
    cases event with
    | append r' =>
      obtain rfl := Option.some.inj hr
      exact hevent
    | _ => cases hr
  · exact fun h => ⟨_, h, rfl⟩

lemma mem_enqueued {events : List (DiskEvent ι)} {e : Entry ι} :
    e ∈ enqueued events ↔ DiskEvent.append (.put e) ∈ events :=
  mem_putsOf.trans mem_appended

lemma mem_of_prefix_concat {α : Type*} {past l : List α} {x : α} (h : past ++ [x] <+: l) : x ∈ l :=
  h.subset (List.mem_append_right _ (List.mem_singleton_self _))

lemma Disk.run_append {d d₀ d₁ : Disk} {before after : List (DiskEvent ι)}
    (hbefore : d.run instants parseString toJson before = some d₀)
    (hafter : d₀.run instants parseString toJson after = some d₁) :
    d.run instants parseString toJson (before ++ after) = some d₁ := by
  rw [Disk.run, runSteps_append, ← Disk.run, hbefore]
  exact hafter

/-- A run whose every step is clean. -/
def CleanRun (instants : Instants ι) (toJson : JsonValue → Text)
    (parseString : Text → Option JsonValue) : Disk → List (DiskEvent ι) → Prop
  | _, [] => True
  | d, event :: events => CleanStep instants d event ∧
      ∀ d', d.next instants parseString toJson event = some d' →
        CleanRun instants toJson parseString d' events

lemma CleanRun.of_append {d d' : Disk} {before after : List (DiskEvent ι)}
    (h : CleanRun instants toJson parseString d (before ++ after))
    (hrun : d.run instants parseString toJson before = some d') :
    CleanRun instants toJson parseString d before ∧
      CleanRun instants toJson parseString d' after := by
  induction before generalizing d with
  | nil =>
    obtain rfl := Option.some.inj hrun
    exact ⟨trivial, h⟩
  | cons event before ih =>
    rw [Disk.run, runSteps_cons, Option.bind_eq_some_iff] at hrun
    obtain ⟨d₁, hnext, hrest⟩ := hrun
    refine ⟨⟨h.1, fun d₂ hnext' => ?_⟩, (ih (h.2 d₁ hnext) hrest).2⟩
    obtain rfl := Option.some.inj (hnext.symm.trans hnext')
    exact (ih (h.2 d₁ hnext) hrest).1

/-- The rule for what a run keeps of the log and of the events that led to it. -/
lemma Represents.run (hgson : Gson toJson parseString) {total : List (DiskEvent ι)}
    {P : List (DiskEvent ι) → Log ι → Prop}
    (hstep : ∀ past event l l', past ++ [event] <+: total → l.Ordered → P past l →
      l.Step event l' → P (past ++ [event]) l')
    {past events : List (DiskEvent ι)} (htotal : past ++ events = total) {l : Log ι} {m : ℕ}
    {d d' : Disk} (h : Represents instants toJson l m d) (hP : P past l)
    (hclean : CleanRun instants toJson parseString d events)
    (hrun : d.run instants parseString toJson events = some d') :
    ∃ l' m', Represents instants toJson l' m' d' ∧ P total l' := by
  induction events generalizing past l m d with
  | nil =>
    obtain rfl := Option.some.inj hrun
    rw [List.append_nil] at htotal
    exact ⟨l, m, h, htotal ▸ hP⟩
  | cons event events ih =>
    rw [Disk.run, runSteps_cons, Option.bind_eq_some_iff] at hrun
    obtain ⟨d₁, hnext, hrest⟩ := hrun
    obtain ⟨l₁, m₁, hlog, hnow⟩ := h.next hgson hclean.1 hnext
    have hsplit : past ++ [event] ++ events = total := by
      rw [← htotal, List.append_assoc]
      rfl
    exact ih hsplit hnow (hstep _ _ _ _ ⟨events, hsplit⟩ h.ordered hP hlog) (hclean.2 d₁ hnext)
      hrest

lemma represents_new : Represents instants toJson ⟨[], none, 0, 0⟩ 0 {} where
  plain r hr := absurd hr List.not_mem_nil
  ordered := ⟨le_rfl, le_rfl, fun _ hnone => by cases hnone⟩
  bytes := rfl
  forcing := rfl
  durable := rfl
  forced := rfl
  covered := le_rfl
  opened _ := le_rfl

/-- Whatever a crash leaves, a queue that opens the journal gets entries that were enqueued, each
once and in their order, and quarantines nothing but a torn line. -/
theorem reopened_in_order (hgson : Gson toJson parseString) {events : List (DiskEvent ι)} {d : Disk}
    (hrun : Disk.run instants parseString toJson {} events = some d)
    (hclean : CleanRun instants toJson parseString {} events)
    (hids : ((enqueued events).map Entry.id).Nodup) {n : ℕ} (hn : d.forced ≤ n) :
    (replay instants parseString (d.bytes.take n)).1.Sublist (enqueued events) ∧
      ∀ x ∈ (replay instants parseString (d.bytes.take n)).2, x.reason = .tornLine := by
  have hputs : ∀ {q q' : List (Record ι)}, q <+: q' → (putsOf q).Sublist (putsOf q') :=
    fun h => h.sublist.filterMap _
  have hnodup : ∀ {past : List (DiskEvent ι)} {q : List (Record ι)}, past <+: events →
      (putsOf q).Sublist (enqueued past) → ((putsOf q).map Entry.id).Nodup := by
    rintro past q ⟨rest, rfl⟩ hq
    rw [enqueued_append] at hids
    exact ((hq.trans (List.sublist_append_left _ _)).map _).nodup hids
  have hlogs : ∀ past event (l l' : Log ι), past ++ [event] <+: events → l.Ordered →
      (putsOf l.records).Sublist (enqueued past) → l.Step event l' →
      (putsOf l'.records).Sublist (enqueued (past ++ [event])) := by
    intro past event l l' hprefix hordered hpast hstep
    have hgrows : (putsOf l.records).Sublist (enqueued (past ++ [event])) := by
      rw [enqueued_append]
      exact hpast.trans (List.sublist_append_left _ _)
    cases hstep with
    | append r =>
      rw [enqueued_append]
      have hsplit : putsOf (l.records ++ [r]) = putsOf l.records ++ putsOf [r] :=
        List.filterMap_append
      rw [hsplit]
      exact hpast.append_right _
    | startForce => exact hgrows
    | endForce hk => exact hgrows
    | rollBack => exact (hputs (List.take_prefix _ _)).trans hgrows
    | crash n => exact hgrows
    | @compacted q hq =>
      have hsub := (hputs hq.2).trans hgrows
      rw [putsOf_map_put]
      exact (pendingOf_sublist (hnodup hprefix hsub)).trans hsub
    | @kept q hq => exact (hputs hq.2).trans hgrows
  obtain ⟨l, m, h, hlog⟩ := Represents.run hgson hlogs (List.nil_append events) represents_new
    (List.nil_sublist _) hclean hrun
  obtain ⟨q, hq, hread, hquarantine⟩ := h.read hgson hn
  have hsub := (hputs hq.2).trans hlog
  rw [hread]
  exact ⟨(pendingOf_sublist (hnodup List.prefix_rfl hsub)).trans hsub, hquarantine⟩

/-- The steps of writers. -/
def DiskEvent.Writes : DiskEvent ι → Prop
  | .append _ => True
  | .startForce => True
  | .endForce => True
  | _ => False

/-- A log after some records, while writers go on: once those are taken for covered they are. -/
structure Log.Waits (base : List (Record ι)) (l : Log ι) : Prop where
  written : base <+: l.records
  covered : l.durable < base.length ∨ l.covered = l.durable

lemma Log.Waits.next {base : List (Record ι)} {l l' : Log ι} {event : DiskEvent ι}
    (h : l.Waits base) (hwrites : event.Writes) (hstep : l.Step event l') : l'.Waits base := by
  cases hstep with
  | append r => exact ⟨h.written.trans (List.prefix_append _ _), h.covered⟩
  | startForce => exact ⟨h.written, h.covered⟩
  | endForce hk => exact ⟨h.written, Or.inr rfl⟩
  | rollBack => cases hwrites
  | crash n => cases hwrites
  | compacted hq => cases hwrites
  | kept hq => cases hwrites

/-- A journal whose durable part holds the lines of some records has their number durable. -/
lemma Represents.reached {base : List (Record ι)} {l : Log ι} {m : ℕ} {d : Disk}
    (h : Represents instants toJson l m d) (hbase : base <+: l.records)
    (hmark : (fileOf instants toJson base).length ≤ d.durable) : base.length ≤ l.durable := by
  by_contra hlt
  rw [h.durable] at hmark
  obtain ⟨missing, hmissing⟩ : l.records.take l.durable <+: base :=
    List.prefix_of_prefix_length_le (List.take_prefix _ _) hbase
      ((List.length_take_le _ _).trans (not_le.mp hlt).le)
  have hne : missing ≠ [] := by
    rintro rfl
    rw [List.append_nil] at hmissing
    exact hlt (hmissing ▸ List.length_take_le _ _)
  obtain ⟨r, missing, rfl⟩ := List.exists_cons_of_ne_nil hne
  have hpos := List.length_pos_iff.mpr (@recordBytes_ne_nil _ instants toJson r)
  have hcons : fileOf instants toJson (r :: missing)
      = recordBytes instants toJson r ++ fileOf instants toJson missing := rfl
  rw [← hmissing, fileOf_append, hcons, List.length_append, List.length_append] at hmark
  omega

/-- What a writer waits for: a record whose end the queue takes for covered is covered. -/
lemma covered_of_durable (hgson : Gson toJson parseString) {P : Record ι → Prop} {r : Record ι}
    {before middle : List (DiskEvent ι)} {d₀ d₁ : Disk}
    (hbefore : Disk.run instants parseString toJson {} before = some d₀)
    (hmiddle : d₀.run instants parseString toJson (.append r :: middle) = some d₁)
    (hclean : CleanRun instants toJson parseString {} (before ++ .append r :: middle))
    (hwrites : ∀ event ∈ middle, event.Writes)
    (hmark : (d₀.bytes ++ recordBytes instants toJson r).length ≤ d₁.durable)
    (hP : ∀ r', DiskEvent.append r' ∈ before ++ .append r :: middle → P r') :
    ∃ l m, Represents instants toJson l m d₁ ∧ r ∈ l.records.take l.covered ∧
      ∀ r' ∈ l.records, P r' := by
  obtain ⟨hclean₀, hclean₁⟩ := hclean.of_append hbefore
  obtain ⟨l₀, m₀, h₀, hP₀⟩ := Represents.run (P := fun _ l => ∀ r' ∈ l.records, P r') hgson
    (fun past event l l' hprefix _ hpast hstep => Log.forall_next hpast (fun r' hr' =>
      hP r' (List.mem_append_left _ (hr' ▸ mem_of_prefix_concat hprefix))) hstep)
    (List.nil_append before) represents_new (fun _ hnil => absurd hnil List.not_mem_nil) hclean₀
    hbefore
  rw [Disk.run, runSteps_cons, Option.bind_eq_some_iff] at hmiddle
  obtain ⟨d₂, hnext, hrest⟩ := hmiddle
  have hopened : d₀.opened = true := by
    rw [Disk.next] at hnext
    split_ifs at hnext with hopened
    exact hopened
  obtain ⟨l₂, m₂, hstep, h₂⟩ := h₀.next hgson hclean₁.1 hnext
  cases hstep
  have hlogs : ∀ (past : List (DiskEvent ι)) event (l l' : Log ι), past ++ [event] <+: middle →
      l.Ordered → l.Waits (l₀.records ++ [r]) ∧ (∀ r' ∈ l.records, P r') → l.Step event l' →
      l'.Waits (l₀.records ++ [r]) ∧ ∀ r' ∈ l'.records, P r' := by
    intro past event l l' hprefix _ hpast hstep
    have hmem := mem_of_prefix_concat hprefix
    refine ⟨hpast.1.next (hwrites event hmem) hstep, Log.forall_next hpast.2 ?_ hstep⟩
    exact fun r' hr' => hP r' (List.mem_append_right _ (List.mem_cons_of_mem _ (hr' ▸ hmem)))
  have hshort : l₀.durable < (l₀.records ++ [r]).length := by
    rw [List.length_append]
    exact Nat.lt_succ_of_le h₀.ordered.durable
  have hall : ∀ r' ∈ l₀.records ++ [r], P r' := by
    intro r' hr'
    rcases List.mem_append.mp hr' with hr' | hr'
    · exact hP₀ r' hr'
    · rw [List.mem_singleton.mp hr']
      exact hP r (List.mem_append_right _ List.mem_cons_self)
  obtain ⟨l, m, h, ⟨hbase, hcovered⟩, hPl⟩ := Represents.run
    (P := fun _ l => l.Waits (l₀.records ++ [r]) ∧ ∀ r' ∈ l.records, P r') hgson hlogs
    (List.nil_append middle) h₂ ⟨⟨List.prefix_rfl, Or.inl hshort⟩, hall⟩ (hclean₁.2 d₂ hnext) hrest
  refine ⟨l, m, h, ?_, hPl⟩
  have hfile : fileOf instants toJson (l₀.records ++ [r])
      = d₀.bytes ++ recordBytes instants toJson r := by
    rw [fileOf_append, h₀.bytes, List.take_of_length_le (h₀.opened hopened)]
    simp [fileOf]
  have hreached := h.reached hbase (hfile ▸ hmark)
  have heq : l.covered = l.durable := hcovered.resolve_left (not_lt.mpr hreached)
  rw [heq]
  have hin : l₀.records ++ [r] <+: l.records.take l.durable :=
    List.prefix_take_iff.mpr ⟨hbase, hreached⟩
  exact hin.subset (List.mem_append_right _ (List.mem_singleton_self _))

/-- An entry whose enqueue returned, which it does once the queue takes its end for covered, is
pending whenever the journal is read again, until its end is recorded. -/
theorem forced_entry_survives (hgson : Gson toJson parseString) {e : Entry ι}
    {before middle after : List (DiskEvent ι)} {d₀ d₁ d : Disk}
    (hbefore : Disk.run instants parseString toJson {} before = some d₀)
    (hmiddle : d₀.run instants parseString toJson (.append (.put e) :: middle) = some d₁)
    (hafter : d₁.run instants parseString toJson after = some d)
    (hclean : CleanRun instants toJson parseString {}
      (before ++ .append (.put e) :: middle ++ after))
    (hwrites : ∀ event ∈ middle, event.Writes)
    (hmark : (d₀.bytes ++ recordBytes instants toJson (.put e)).length ≤ d₁.durable)
    (hids : ((enqueued (before ++ .append (.put e) :: middle ++ after)).map Entry.id).Nodup)
    (hdone : ∀ outcome, DiskEvent.append (.done e.id outcome)
      ∉ before ++ .append (.put e) :: middle ++ after) {n : ℕ} (hn : d.forced ≤ n) :
    e ∈ (replay instants parseString (d.bytes.take n)).1 := by
  have hput : e ∈ enqueued (before ++ .append (.put e) :: middle ++ after) :=
    mem_enqueued.mpr (by simp)
  have hkeeps : ∀ r, DiskEvent.append r ∈ before ++ .append (.put e) :: middle ++ after →
      r.Keeps e := by
    intro r hr
    cases r with
    | put e' => exact List.inj_on_of_nodup_map hids (mem_enqueued.mpr hr) hput
    | done id outcome =>
      rintro rfl
      exact hdone outcome hr
  obtain ⟨hclean₁, hclean₂⟩ := hclean.of_append (Disk.run_append hbefore hmiddle)
  obtain ⟨l₁, m₁, h₁, hmem, hkept⟩ := covered_of_durable hgson hbefore hmiddle hclean₁ hwrites hmark
    fun r hr => hkeeps r (List.mem_append_left _ hr)
  have hlogs : ∀ (past : List (DiskEvent ι)) event (l l' : Log ι), past ++ [event] <+: after →
      l.Ordered → l.Survives e → l.Step event l' → l'.Survives e := by
    intro past event l l' hprefix hordered hpast hstep
    refine hpast.next hordered (fun r hr => hkeeps r (List.mem_append_right _ ?_)) hstep
    exact hr ▸ mem_of_prefix_concat hprefix
  obtain ⟨l, m, h, hsurvives⟩ := Represents.run (P := fun _ l => l.Survives e) hgson hlogs
    (List.nil_append after) h₁ ⟨hmem, hkept⟩ hclean₂ hafter
  obtain ⟨q, hq, hread, -⟩ := h.read hgson hn
  rw [hread]
  exact hsurvives.pending hq

end

/-! ### A run with one entry -/

/-- A record is written and forced. -/
def forced (r : Record Text) : List (DiskEvent Text) := [.append r, .startForce, .endForce]

def forcedDisk (r : Record Text) : Disk :=
  { bytes := recordBytes textInstants Json.stringify r
    durable := (recordBytes textInstants Json.stringify r).length
    forced := (recordBytes textInstants Json.stringify r).length }

lemma run_forced (r : Record Text) :
    Disk.run textInstants Json.parse Json.stringify {} (forced r) = some (forcedDisk r) := rfl

lemma mark_forced (r : Record Text) :
    (({} : Disk).bytes ++ recordBytes textInstants Json.stringify r).length
      ≤ (forcedDisk r).durable := le_rfl

lemma writes_forced :
    ∀ event ∈ ([.startForce, .endForce] : List (DiskEvent Text)), event.Writes := by
  simp [DiskEvent.Writes]

lemma clean_forced {r : Record Text} (h : r.Plain textInstants) :
    CleanRun textInstants Json.stringify Json.parse {} (forced r) :=
  ⟨h, fun _ _ => ⟨trivial, fun _ _ => ⟨trivial, fun _ _ => trivial⟩⟩⟩

theorem reopened_in_order_anEntry :
    (replay textInstants Json.parse ((forcedDisk (.put anEntry)).bytes.take
        (forcedDisk (.put anEntry)).forced)).1.Sublist [anEntry] :=
  (reopened_in_order gson_json (run_forced _) (clean_forced plain_anEntry)
    (List.nodup_singleton anEntry.id) le_rfl).1

theorem forced_entry_survives_anEntry :
    anEntry ∈ (replay textInstants Json.parse ((forcedDisk (.put anEntry)).bytes.take
      (forcedDisk (.put anEntry)).forced)).1 := by
  have hdone : ∀ outcome, DiskEvent.append (.done anEntry.id outcome)
      ∉ [] ++ forced (.put anEntry) ++ [] := by
    intro outcome
    simp [forced]
  exact @forced_entry_survives _ _ _ _ gson_json anEntry [] [.startForce, .endForce] [] {}
    (forcedDisk (.put anEntry)) (forcedDisk (.put anEntry)) rfl (run_forced _) rfl
    (clean_forced plain_anEntry) writes_forced (mark_forced _) (List.nodup_singleton anEntry.id)
    hdone _ le_rfl

end Junjo.Journal
