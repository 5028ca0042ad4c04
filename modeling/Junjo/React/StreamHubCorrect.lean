import Junjo.React.StreamHub

/-!
# What the listeners of a hub get

Each listener gets, in order and once, what its stream fans out from when it joins until it leaves or
the stream ends. No key has two open streams, and no stream without listeners stays open.
-/

namespace Junjo.React

variable {κ δ ν : Type*} [DecidableEq κ] (terminal : ν → Bool)

/-- What holds of an entry on its own. -/
structure Entry.Ok (e : Entry κ δ ν) : Prop where
  nodup : e.listeners.Nodup
  closed : e.closed = true → e.teardownTimer = false ∧
    (e.stream.handshake = .resolved → e.stream.released = true) ∧
    (e.stream.live = true → e.listeners = [])
  opened : e.closed = false → e.stream.live = true ∧
    (e.stream.handshake = .resolved → e.subscription = true) ∧
    (e.listeners = [] → e.teardownTimer = true)
  ends : ∀ note ∈ e.fanned.dropLast, terminal note = false
  running : e.stream.live = true → ∀ note ∈ e.fanned, terminal note = false

/-- What a listener has received and what is on its way to it is what was fanned out from when it
joined until it was removed, if it was. -/
def Listener.Receives (x : Listener ν) (fanned awaited : List ν) : Prop :=
  ∃ before after, fanned = before ++ (x.received ++ awaited) ++ after ∧ before.length = x.since ∧
    (x.removed = none → after = []) ∧
    ∀ n, x.removed = some n → (before ++ (x.received ++ awaited)).length = n

namespace Hub

/-- What is on its way to a listener. -/
def awaited (s : Hub κ δ ν) (l : ℕ) : List ν :=
  match s.fan with
  | some f => if l ∈ f.rest then [f.note] else []
  | none => []

/-- What holds between steps. -/
structure Inv (s : Hub κ δ ν) : Prop where
  registered : ∀ (key : κ) (i : ℕ), s.registered.get? key = some i ↔
    ∃ e, s.entries[i]? = some e ∧ e.key = key ∧ e.closed = false
  entries : ∀ (i : ℕ) (e : Entry κ δ ν), s.entries[i]? = some e → e.Ok terminal
  /-- The listeners of a stream that still notifies are those that have not left. -/
  present : ∀ (i : ℕ) (e : Entry κ δ ν), s.entries[i]? = some e → e.stream.live = true →
    ∀ l : ℕ, l ∈ e.listeners ↔ ∃ x, s.listeners[l]? = some x ∧ x.entry = i ∧ x.removed = none
  receives : ∀ (l : ℕ) (x : Listener ν), s.listeners[l]? = some x →
    ∃ e, s.entries[x.entry]? = some e ∧ x.Receives e.fanned (s.awaited l)
  fan : ∀ f, s.fan = some f → f.rest.Nodup ∧ (∀ l ∈ f.rest, l < s.listeners.length) ∧
    ∀ note, f.andThen = some note →
      terminal note = false ∧ ∃ e, s.entries[f.entry]? = some e ∧ e.stream.live = true

variable {terminal} {s t : Hub κ δ ν} {i l : ℕ} {e e' : Entry κ δ ν}

lemma inv_empty : (empty : Hub κ δ ν).Inv terminal where
  registered key i := by simp [empty]
  entries i e he := by cases he
  present i e he := by cases he
  receives l x hx := by cases hx
  fan f hf := by cases hf

section Entries

omit [DecidableEq κ]

@[simp] lemma entries_setEntry : (s.setEntry i e').entries = s.entries.set i e' := rfl

@[simp] lemma registered_setEntry : (s.setEntry i e').registered = s.registered := rfl

@[simp] lemma listeners_setEntry : (s.setEntry i e').listeners = s.listeners := rfl

@[simp] lemma fan_setEntry : (s.setEntry i e').fan = s.fan := rfl

end Entries

/-- An entry changes in what concerns no listener. -/
lemma Inv.replace (h : s.Inv terminal) (he : s.entries[i]? = some e)
    (hentries : t.entries = s.entries.set i e') (hlisteners : t.listeners = s.listeners)
    (hfan : t.fan = s.fan)
    (hregistered : ∀ key j, t.registered.get? key = some j ↔
      ∃ f, t.entries[j]? = some f ∧ f.key = key ∧ f.closed = false)
    (hsame : e'.listeners = e.listeners) (hfanned : e'.fanned = e.fanned)
    (hlive : e'.stream.live = true → e.stream.live = true)
    (hthen : ∀ f, s.fan = some f → f.andThen ≠ none → e'.stream.live = e.stream.live)
    (hok : e'.Ok terminal) : t.Inv terminal where
  registered := hregistered
  entries j f hf := by
    rw [hentries] at hf
    rcases getElem?_set_cases hf with ⟨-, rfl⟩ | ⟨-, hf⟩
    · exact hok
    · exact h.entries j f hf
  present j f hf hl := by
    rw [hentries] at hf
    rw [hlisteners]
    rcases getElem?_set_cases hf with ⟨rfl, rfl⟩ | ⟨-, hf⟩
    · rw [hsame]
      exact h.present j e he (hlive hl)
    · exact h.present j f hf hl
  receives l x hx := by
    rw [hlisteners] at hx
    obtain ⟨f, hf, hreceives⟩ := h.receives l x hx
    have hawaited : t.awaited l = s.awaited l := by rw [awaited, awaited, hfan]
    rw [hentries, hawaited]
    by_cases heq : i = x.entry
    · subst heq
      rw [he] at hf
      cases hf
      exact ⟨e', getElem?_set_of_some he, hfanned ▸ hreceives⟩
    · exact ⟨f, by rwa [List.getElem?_set_ne heq], hreceives⟩
  fan f hf := by
    rw [hfan] at hf
    obtain ⟨hnodup, hlt, hrest⟩ := h.fan f hf
    refine ⟨hnodup, hlisteners ▸ hlt, fun note hnote => ?_⟩
    obtain ⟨hterminal, g, hg, hgl⟩ := hrest note hnote
    refine ⟨hterminal, ?_⟩
    rw [hentries]
    by_cases heq : i = f.entry
    · subst heq
      rw [he] at hg
      cases hg
      refine ⟨e', getElem?_set_of_some he, ?_⟩
      rw [hthen f hf (by rw [hnote]; exact Option.some_ne_none _), hgl]
    · exact ⟨g, by rwa [List.getElem?_set_ne heq], hgl⟩

/-- The table goes with the entries when an entry keeps its key and stays open or closed. -/
lemma Inv.registered_set (h : s.Inv terminal) (he : s.entries[i]? = some e) (hkey : e'.key = e.key)
    (hclosed : e'.closed = e.closed) (key : κ) (j : ℕ) : s.registered.get? key = some j ↔
      ∃ f, (s.entries.set i e')[j]? = some f ∧ f.key = key ∧ f.closed = false := by
  rw [h.registered key j]
  by_cases heq : i = j
  · subst heq
    rw [getElem?_set_of_some he, he]
    simp [hkey, hclosed]
  · rw [List.getElem?_set_ne heq]

/-- So does the table without its key when an entry closes. -/
lemma Inv.registered_delete (h : s.Inv terminal) (he : s.entries[i]? = some e)
    (hopen : e.closed = false) (hclosed : e'.closed = true) (key : κ) (j : ℕ) :
    (s.registered.delete e.key).get? key = some j ↔
      ∃ f, (s.entries.set i e')[j]? = some f ∧ f.key = key ∧ f.closed = false := by
  rw [Dict.get?_delete]
  by_cases heq : i = j
  · subst heq
    rw [getElem?_set_of_some he]
    split_ifs with hkey
    · simp [hclosed]
    · rw [h.registered]
      simp [he, hclosed, Ne.symm hkey]
  · rw [List.getElem?_set_ne heq, ← h.registered]
    split_ifs with hkey
    · subst hkey
      have hregistered : s.registered.get? e.key = some i :=
        (h.registered _ _).mpr ⟨e, he, rfl, hopen⟩
      simp [hregistered, heq]
    · rfl

/-- An entry that keeps its key, stays open or closed, and changes in what concerns no listener. -/
lemma Inv.setEntry (h : s.Inv terminal) (he : s.entries[i]? = some e) (hkey : e'.key = e.key)
    (hclosed : e'.closed = e.closed) (hsame : e'.listeners = e.listeners)
    (hfanned : e'.fanned = e.fanned) (hlive : e'.stream.live = true → e.stream.live = true)
    (hthen : ∀ f, s.fan = some f → f.andThen ≠ none → e'.stream.live = e.stream.live)
    (hok : e'.Ok terminal) : (s.setEntry i e').Inv terminal :=
  h.replace he rfl rfl rfl (h.registered_set he hkey hclosed) hsame hfanned hlive hthen hok

/-! ### Opening and closing -/

/-- The entry that a teardown leaves. -/
def torn (e : Entry κ δ ν) : Entry κ δ ν := { e with
  closed := true
  teardownTimer := false
  subscription := false
  stream := { e.stream with released := e.stream.released || e.subscription } }

lemma teardown_eq (h : s.Inv terminal) (he : s.entries[i]? = some e) (hopen : e.closed = false) :
    s.teardown i = { s.setEntry i (torn e) with registered := s.registered.delete e.key } := by
  have hregistered : s.registered.get? e.key = some i := (h.registered _ _).mpr ⟨e, he, rfl, hopen⟩
  simp [teardown, he, hopen, hregistered, torn]

lemma teardown_of_closed (he : s.entries[i]? = some e) (hclosed : e.closed = true) :
    s.teardown i = s := by
  simp [teardown, he, hclosed]

/-- An entry that its listeners have left is torn down. -/
lemma Inv.teardown (h : s.Inv terminal) (he : s.entries[i]? = some e) (hopen : e.closed = false)
    (hleft : e.listeners = []) : (s.teardown i).Inv terminal := by
  rw [teardown_eq h he hopen]
  refine h.replace he rfl rfl rfl (h.registered_delete he hopen rfl) rfl rfl id (fun _ _ _ => rfl) ?_
  have hok := h.entries i e he
  refine ⟨hok.nodup, fun _ => ⟨rfl, fun hresolved => ?_, fun _ => hleft⟩, fun hfalse => (by cases hfalse),
    hok.ends, hok.running⟩
  have hheld := (hok.opened hopen).2.1 hresolved
  simp [torn, hheld]

/-! ### Joining and leaving -/

/-- An entry is opened, as one that its listeners have left. -/
lemma Inv.openEntry (h : s.Inv terminal) {key : κ} (hnone : s.registered.get? key = none) (data : δ) :
    ({ s with
      entries := s.entries ++ [⟨key, [], false, false, true, data, ⟨.pending, false, false⟩, []⟩]
      registered := s.registered.set key s.entries.length } : Hub κ δ ν).Inv terminal := by
  refine ⟨fun key' j => ?_, fun j f hf => ?_, fun j f hf hl l => ?_, fun l x hx => ?_, fun f hf => ?_⟩
  · dsimp only
    rw [Dict.get?_set]
    constructor
    · intro hget
      split_ifs at hget with heq
      · cases hget
        exact ⟨_, List.getElem?_concat_length, heq.symm, rfl⟩
      · obtain ⟨f, hf, hrest⟩ := (h.registered key' j).mp hget
        exact ⟨f, getElem?_append_of_some hf _, hrest⟩
    · rintro ⟨f, hf, hkey, hopen⟩
      rcases getElem?_concat_cases hf with hold | ⟨rfl, rfl⟩
      · have hget := (h.registered key' j).mpr ⟨f, hold, hkey, hopen⟩
        rw [if_neg (by rintro rfl; rw [hnone] at hget; cases hget)]
        exact hget
      · rw [if_pos hkey.symm]
  · rcases getElem?_concat_cases hf with hold | ⟨-, rfl⟩
    · exact h.entries j f hold
    · refine ⟨List.nodup_nil, fun hclosed => (by cases hclosed), fun _ => ⟨rfl, ?_, fun _ => rfl⟩, ?_, ?_⟩
      · intro hresolved
        cases hresolved
      · intro note hnote
        cases hnote
      · intro _ note hnote
        cases hnote
  · rcases getElem?_concat_cases hf with hold | ⟨rfl, rfl⟩
    · exact h.present j f hold hl l
    · refine iff_of_false List.not_mem_nil ?_
      rintro ⟨x, hx, hentry, -⟩
      obtain ⟨e, he, -⟩ := h.receives l x hx
      rw [hentry] at he
      exact absurd (List.getElem?_eq_some_iff.mp he).1 (lt_irrefl _)
  · obtain ⟨e, he, hreceives⟩ := h.receives l x hx
    exact ⟨e, getElem?_append_of_some he _, hreceives⟩
  · obtain ⟨hnodup, hlt, hrest⟩ := h.fan f hf
    refine ⟨hnodup, hlt, fun note hnote => ?_⟩
    obtain ⟨hterminal, e, he, hlive⟩ := hrest note hnote
    exact ⟨hterminal, e, getElem?_append_of_some he _, hlive⟩

/-- A listener joins an open entry. -/
lemma Inv.join (h : s.Inv terminal) (he : s.entries[i]? = some e) (hopen : e.closed = false)
    (greet : δ → Option ν) : (s.join i greet).Inv terminal := by
  have hok := h.entries i e he
  have hpresent := h.present i e he (hok.opened hopen).1
  have hfresh : s.listeners.length ∉ e.listeners := by
    intro hmem
    obtain ⟨x, hx, -⟩ := (hpresent _).mp hmem
    exact absurd (List.getElem?_eq_some_iff.mp hx).1 (lt_irrefl _)
  simp only [Hub.join, he]
  refine ⟨h.registered_set he rfl rfl, fun j f hf => ?_, fun j f hf hl l => ?_, fun l x hx => ?_,
    fun f hf => ?_⟩
  · rcases getElem?_set_cases hf with ⟨-, rfl⟩ | ⟨-, hf⟩
    · refine ⟨?_, fun hclosed => ?_, fun _ => ?_, hok.ends, hok.running⟩
      · dsimp only
        rw [← List.concat_eq_append]
        exact hok.nodup.concat hfresh
      · exact absurd (hopen.symm.trans hclosed) Bool.false_ne_true
      · refine ⟨(hok.opened hopen).1, (hok.opened hopen).2.1, fun hnil => ?_⟩
        exact absurd hnil (by simp)
    · exact h.entries j f hf
  · have hnew : ∀ {j : ℕ}, (∃ x, (s.listeners ++ [⟨i, e.fanned.length, none, greet e.data, []⟩])[l]? =
        some x ∧ x.entry = j ∧ x.removed = none) ↔
        (∃ x, s.listeners[l]? = some x ∧ x.entry = j ∧ x.removed = none) ∨
          (l = s.listeners.length ∧ i = j) := by
      intro j
      constructor
      · rintro ⟨x, hx, hentry, hremoved⟩
        rcases getElem?_concat_cases hx with hold | ⟨rfl, rfl⟩
        · exact .inl ⟨x, hold, hentry, hremoved⟩
        · exact .inr ⟨rfl, hentry⟩
      · rintro (⟨x, hx, hrest⟩ | ⟨rfl, rfl⟩)
        · exact ⟨x, getElem?_append_of_some hx _, hrest⟩
        · exact ⟨_, List.getElem?_concat_length, rfl, rfl⟩
    dsimp only
    rw [hnew]
    rcases getElem?_set_cases hf with ⟨rfl, rfl⟩ | ⟨hne, hf⟩
    · dsimp only
      rw [List.mem_append, List.mem_singleton, hpresent l]
      simp
    · rw [h.present j f hf hl l]
      simp [Ne.symm hne]
  · rcases getElem?_concat_cases hx with hold | ⟨rfl, rfl⟩
    · obtain ⟨f, hf, hreceives⟩ := h.receives l x hold
      by_cases heq : i = x.entry
      · subst heq
        rw [he] at hf
        cases hf
        exact ⟨_, getElem?_set_of_some he, hreceives⟩
      · exact ⟨f, by rwa [entries_setEntry, List.getElem?_set_ne heq], hreceives⟩
    · refine ⟨_, getElem?_set_of_some he, e.fanned, [], ?_, rfl, fun _ => rfl, fun n hn => (by cases hn)⟩
      have hnone : awaited { s.setEntry i e with listeners := s.listeners } s.listeners.length = [] := by
        unfold awaited
        split
        · rename_i f hf
          exact if_neg fun hmem => absurd ((h.fan f hf).2.1 _ hmem) (lt_irrefl _)
        · rfl
      change e.fanned = e.fanned ++ ([] ++ awaited { s.setEntry i e with listeners := s.listeners } _) ++ []
      rw [hnone]
      simp
  · obtain ⟨hnodup, hlt, hrest⟩ := h.fan f hf
    refine ⟨hnodup, fun l hl => ?_, fun note hnote => ?_⟩
    · rw [List.length_append]
      exact Nat.lt_add_right _ (hlt l hl)
    · obtain ⟨hterminal, g, hg, hlive⟩ := hrest note hnote
      refine ⟨hterminal, ?_⟩
      by_cases heq : i = f.entry
      · subst heq
        rw [he] at hg
        cases hg
        exact ⟨_, getElem?_set_of_some he, hlive⟩
      · exact ⟨g, by rwa [entries_setEntry, List.getElem?_set_ne heq], hlive⟩

lemma Inv.subscribe (h : s.Inv terminal) (key : κ) (data : δ) (greet : δ → Option ν) :
    (s.subscribe key data greet).Inv terminal := by
  unfold Hub.subscribe
  split
  · rename_i i hi
    obtain ⟨e, he, -, hopen⟩ := (h.registered _ _).mp hi
    exact h.join he hopen greet
  · rename_i hnone
    have hopened := (h.openEntry hnone data).join List.getElem?_concat_length rfl greet
    simpa [Hub.join, Hub.openEntry] using hopened

/-- A listener is marked as removed. -/
lemma receives_removed (h : s.Inv terminal) {x : Listener ν} (hx : s.listeners[l]? = some x)
    (hremoved : x.removed = none) (he : s.entries[x.entry]? = some e) :
    ({ x with removed := some e.fanned.length } : Listener ν).Receives e.fanned (s.awaited l) := by
  obtain ⟨e', he', before, after, hsplit, hsince, hnone, -⟩ := h.receives l x hx
  rw [he] at he'
  cases he'
  have hafter := hnone hremoved
  subst hafter
  refine ⟨before, [], hsplit, hsince, fun _ => rfl, fun n hn => ?_⟩
  rw [← Option.some.inj hn, hsplit, List.append_nil]

/-- A listener leaves its entry, which forgets it if its stream still notifies. -/
lemma Inv.leave (h : s.Inv terminal) {x : Listener ν} (hx : s.listeners[l]? = some x)
    (hremoved : x.removed = none) (he : s.entries[x.entry]? = some e) (hkey : e'.key = e.key)
    (hclosed : e'.closed = e.closed) (hfanned : e'.fanned = e.fanned)
    (hlive : e'.stream = e.stream) (hleft : e.stream.live = true → e'.listeners = e.listeners.erase l)
    (hok : e'.Ok terminal) :
    ({ s.setEntry x.entry e' with
      listeners := s.listeners.set l { x with removed := some e.fanned.length } } :
      Hub κ δ ν).Inv terminal := by
  refine ⟨h.registered_set he hkey hclosed, fun j f hf => ?_, fun j f hf hl k => ?_, fun k y hy => ?_,
    fun f hf => ?_⟩
  · rcases getElem?_set_cases hf with ⟨-, rfl⟩ | ⟨-, hf⟩
    · exact hok
    · exact h.entries j f hf
  · have hset : ∀ {j : ℕ}, (∃ y, (s.listeners.set l { x with removed := some e.fanned.length })[k]? =
        some y ∧ y.entry = j ∧ y.removed = none) ↔
        k ≠ l ∧ ∃ y, s.listeners[k]? = some y ∧ y.entry = j ∧ y.removed = none := by
      intro j
      constructor
      · rintro ⟨y, hy, hentry, hnone⟩
        rcases getElem?_set_cases hy with ⟨-, rfl⟩ | ⟨hne, hy⟩
        · cases hnone
        · exact ⟨hne, y, hy, hentry, hnone⟩
      · rintro ⟨hne, y, hy, hrest⟩
        exact ⟨y, by rwa [List.getElem?_set_ne (Ne.symm hne)], hrest⟩
    dsimp only
    rw [hset]
    rcases getElem?_set_cases hf with ⟨rfl, rfl⟩ | ⟨hne, hf⟩
    · rw [hlive] at hl
      rw [hleft hl, (h.entries _ e he).nodup.mem_erase_iff, h.present _ e he hl k]
    · rw [h.present j f hf hl k]
      refine ⟨?_, And.right⟩
      rintro ⟨y, hy, hentry, hnone⟩
      refine ⟨?_, y, hy, hentry, hnone⟩
      rintro rfl
      rw [hx] at hy
      cases hy
      exact hne hentry.symm
  · have hreceives : ∃ f, s.entries[y.entry]? = some f ∧ y.Receives f.fanned (s.awaited k) := by
      rcases getElem?_set_cases hy with ⟨rfl, rfl⟩ | ⟨-, hy⟩
      · exact ⟨e, he, receives_removed h hx hremoved he⟩
      · exact h.receives k y hy
    obtain ⟨f, hf, hreceives⟩ := hreceives
    by_cases heq : x.entry = y.entry
    · rw [← heq, he] at hf
      cases hf
      rw [← hfanned] at hreceives
      refine ⟨e', ?_, hreceives⟩
      rw [← heq]
      exact getElem?_set_of_some he
    · exact ⟨f, by rwa [entries_setEntry, List.getElem?_set_ne heq], hreceives⟩
  · obtain ⟨hnodup, hlt, hrest⟩ := h.fan f hf
    refine ⟨hnodup, fun k hk => ?_, fun note hnote => ?_⟩
    · rw [List.length_set]
      exact hlt k hk
    · obtain ⟨hterminal, g, hg, hgl⟩ := hrest note hnote
      refine ⟨hterminal, ?_⟩
      by_cases heq : x.entry = f.entry
      · rw [← heq, he] at hg
        cases hg
        refine ⟨e', ?_, hlive ▸ hgl⟩
        rw [← heq]
        exact getElem?_set_of_some he
      · exact ⟨g, by rwa [entries_setEntry, List.getElem?_set_ne heq], hgl⟩

omit [DecidableEq κ] in
lemma setEntry_self (he : s.entries[i]? = some e) : s.setEntry i e = s := by
  obtain ⟨hlt, rfl⟩ := List.getElem?_eq_some_iff.mp he
  rw [Hub.setEntry, List.set_getElem_self]

lemma Inv.unsubscribe (h : s.Inv terminal) {delayed : Bool} (hstep : s.unsubscribe delayed l = some t) :
    t.Inv terminal := by
  unfold Hub.unsubscribe at hstep
  split at hstep
  · cases hstep
  · rename_i x hx
    by_cases hremoved : x.removed = none
    · rw [hremoved, Option.isSome_none, if_neg Bool.false_ne_true] at hstep
      split at hstep
      · cases hstep
      · rename_i e he
        have hok := h.entries _ e he
        dsimp only at hstep
        by_cases hregistered : s.registered.get? e.key = some x.entry
        · obtain ⟨e', he', -, hopen⟩ := (h.registered _ _).mp hregistered
          rw [he] at he'
          cases he'
          rw [if_pos hregistered] at hstep
          have hleave : ∀ timer, (e.listeners.erase l = [] → timer = true) →
              ({ s.setEntry x.entry { e with
                  listeners := e.listeners.erase l
                  teardownTimer := timer } with
                listeners := s.listeners.set l { x with removed := some e.fanned.length } } :
                Hub κ δ ν).Inv terminal := by
            intro timer htimer
            refine h.leave hx hremoved he rfl rfl rfl rfl (fun _ => rfl) ?_
            refine ⟨hok.nodup.erase l, fun hclosed => ?_, fun _ => ?_, hok.ends, hok.running⟩
            · exact absurd (hopen.symm.trans hclosed) Bool.false_ne_true
            · exact ⟨(hok.opened hopen).1, (hok.opened hopen).2.1, htimer⟩
          split_ifs at hstep with hempty
          · cases hstep
            rw [List.isEmpty_iff] at hempty
            -- the last listener: the timer is armed, or the entry torn down
            have hlast := hleave true fun _ => rfl
            cases delayed with
            | true =>
              simpa [scheduleTeardown, Hub.setEntry, getElem?_set_of_some he] using hlast
            | false =>
              have htorn := hlast.teardown (getElem?_set_of_some he) hopen hempty
              simpa [scheduleTeardown, Hub.setEntry, Hub.teardown, getElem?_set_of_some he, hopen]
                using htorn
          · cases hstep
            exact hleave e.teardownTimer fun hnil => absurd (List.isEmpty_iff.mpr hnil) hempty
        · rw [if_neg hregistered] at hstep
          cases hstep
          have hclosed : e.closed = true := by
            by_contra hopen
            exact hregistered ((h.registered _ _).mpr ⟨e, he, rfl, Bool.eq_false_iff.mpr hopen⟩)
          have hleave := h.leave hx hremoved he rfl rfl rfl rfl (fun hlive => ?_) hok
          · rwa [setEntry_self he] at hleave
          · rw [(hok.closed hclosed).2.2 hlive]
            rfl
    · rw [if_pos (Option.isSome_iff_ne_none.mpr hremoved)] at hstep
      cases hstep
      exact h

lemma Inv.teardownTimer (h : s.Inv terminal) (hstep : s.teardownTimer i = some t) :
    t.Inv terminal := by
  unfold Hub.teardownTimer at hstep
  split at hstep
  · rename_i e hfan he
    have hok := h.entries i e he
    split_ifs at hstep with htimer hempty
    · cases hstep
      rw [List.isEmpty_iff] at hempty
      have hopen : e.closed = false := by
        by_contra hclosed
        rw [(hok.closed (Bool.not_eq_false _ ▸ hclosed)).1] at htimer
        cases htimer
      have htorn := h.teardown he hopen hempty
      simpa [Hub.setEntry, Hub.teardown, he, getElem?_set_of_some he, hopen] using htorn
    · cases hstep
      refine h.setEntry he rfl rfl rfl rfl id (fun _ _ _ => rfl) ?_
      refine ⟨hok.nodup, fun hclosed => ⟨rfl, (hok.closed hclosed).2⟩, fun hopen => ?_, hok.ends,
        hok.running⟩
      exact ⟨(hok.opened hopen).1, (hok.opened hopen).2.1,
        fun hnil => absurd (List.isEmpty_iff.mpr hnil) hempty⟩
  · cases hstep

/-! ### Notifications -/

omit [DecidableEq κ] in
lemma fanOut_eq (he : s.entries[i]? = some e) (note : ν) (andThen : Option ν) :
    s.fanOut i note andThen = { s.setEntry i { e with fanned := e.fanned ++ [note] } with
      fan := some ⟨i, note, e.listeners, andThen⟩ } := by
  simp only [fanOut, he]

lemma Inv.fanned (h : s.Inv terminal) (hidle : s.fan = none) (he : s.entries[i]? = some e)
    (hlive : e.stream.live = true) {note : ν} {andThen : Option ν}
    (hentries : t.entries = s.entries.set i e') (hlisteners : t.listeners = s.listeners)
    (hfan : t.fan = some ⟨i, note, e.listeners, andThen⟩)
    (hregistered : ∀ key j, t.registered.get? key = some j ↔
      ∃ f, t.entries[j]? = some f ∧ f.key = key ∧ f.closed = false)
    (hsame : e'.listeners = e.listeners) (hfanned : e'.fanned = e.fanned ++ [note])
    (hok : e'.Ok terminal)
    (hthen : ∀ note', andThen = some note' → terminal note' = false ∧ e'.stream.live = true) :
    t.Inv terminal := by
  have hpresent := h.present i e he hlive
  have hawaited : ∀ l, t.awaited l = if l ∈ e.listeners then [note] else [] := by
    intro l
    rw [awaited, hfan]
  refine ⟨hregistered, fun j f hf => ?_, fun j f hf hl => ?_, fun l x hx => ?_, fun f hf => ?_⟩
  · rw [hentries] at hf
    rcases getElem?_set_cases hf with ⟨-, rfl⟩ | ⟨-, hf⟩
    · exact hok
    · exact h.entries j f hf
  · rw [hentries] at hf
    rw [hlisteners]
    rcases getElem?_set_cases hf with ⟨rfl, rfl⟩ | ⟨-, hf⟩
    · rw [hsame]
      exact hpresent
    · exact h.present j f hf hl
  · rw [hlisteners] at hx
    obtain ⟨f, hf, before, after, hsplit, hsince, hnone, hsome⟩ := h.receives l x hx
    rw [awaited, hidle, List.append_nil] at hsplit hsome
    rw [hentries, hawaited]
    by_cases heq : i = x.entry
    · subst heq
      rw [he] at hf
      cases hf
      refine ⟨e', getElem?_set_of_some he, ?_⟩
      rw [hfanned]
      by_cases hmem : l ∈ e.listeners
      · obtain ⟨x', hx', -, hremoved⟩ := (hpresent l).mp hmem
        have heq : x' = x := Option.some.inj (hx'.symm.trans hx)
        rw [heq] at hremoved
        refine ⟨before, [], ?_, hsince, fun _ => rfl, ?_⟩
        · rw [if_pos hmem, hsplit, hnone hremoved]
          simp
        · intro n hn
          rw [hremoved] at hn
          cases hn
      · refine ⟨before, after ++ [note], ?_, hsince, ?_, ?_⟩
        · rw [if_neg hmem, hsplit]
          simp
        · intro hremoved
          exact absurd ((hpresent l).mpr ⟨x, hx, rfl, hremoved⟩) hmem
        · rw [if_neg hmem, List.append_nil]
          exact hsome
    · have hmem : l ∉ e.listeners := by
        intro hmem
        obtain ⟨x', hx', hentry, -⟩ := (hpresent l).mp hmem
        have hsame : x' = x := Option.some.inj (hx'.symm.trans hx)
        rw [hsame] at hentry
        exact heq hentry.symm
      refine ⟨f, by rwa [List.getElem?_set_ne heq], before, after, ?_, hsince, hnone, ?_⟩
      · rw [if_neg hmem, List.append_nil]
        exact hsplit
      · rw [if_neg hmem, List.append_nil]
        exact hsome
  · rw [hfan] at hf
    cases hf
    refine ⟨(h.entries i e he).nodup, fun l hl => ?_, fun note' hnote' => ?_⟩
    · obtain ⟨x, hx, -⟩ := (hpresent l).mp hl
      rw [hlisteners]
      exact (List.getElem?_eq_some_iff.mp hx).1
    · obtain ⟨hterminal, hlive'⟩ := hthen note' hnote'
      exact ⟨hterminal, e', by rw [hentries]; exact getElem?_set_of_some he, hlive'⟩

/-- A notification that does not end the stream is fanned out. -/
lemma Inv.fanOut (h : s.Inv terminal) (hidle : s.fan = none) (he : s.entries[i]? = some e)
    (hlive : e.stream.live = true) {note : ν} (hnote : terminal note = false) {andThen : Option ν}
    (hthen : ∀ note', andThen = some note' → terminal note' = false) :
    (s.fanOut i note andThen).Inv terminal := by
  rw [fanOut_eq he]
  have hok := h.entries i e he
  refine h.fanned hidle he hlive rfl rfl rfl (h.registered_set he rfl rfl) rfl rfl ?_
    fun note' hnote' => ⟨hthen note' hnote', hlive⟩
  refine ⟨hok.nodup, hok.closed, hok.opened, fun note' hnote' => ?_, fun _ note' hnote' => ?_⟩
  · rw [List.dropLast_concat] at hnote'
    exact hok.running hlive note' hnote'
  · rcases List.mem_append.mp hnote' with hold | hnew
    · exact hok.running hlive note' hold
    · rw [List.mem_singleton.mp hnew]
      exact hnote

lemma Inv.next (h : s.Inv terminal) (hstep : s.next = some t) : t.Inv terminal := by
  unfold Hub.next at hstep
  split at hstep
  · cases hstep
  · rename_i f hf
    obtain ⟨hnodup, hlt, hrest⟩ := h.fan f hf
    split at hstep
    · rename_i l rest hcons
      rw [hcons] at hnodup hlt
      obtain ⟨hnot, hnodup⟩ := List.nodup_cons.mp hnodup
      split at hstep
      · cases hstep
      · rename_i x hx
        cases hstep
        refine ⟨h.registered, h.entries, fun j e he hl k => ?_, fun k y hy => ?_, fun f' hf' => ?_⟩
        · rw [h.present j e he hl k]
          by_cases heq : l = k
          · subst heq
            simp [hx, getElem?_set_of_some hx]
          · dsimp only
            rw [List.getElem?_set_ne heq]
        · rcases getElem?_set_cases hy with ⟨rfl, rfl⟩ | ⟨hne, hy⟩
          · obtain ⟨e, he, hreceives⟩ := h.receives k x hx
            refine ⟨e, he, ?_⟩
            have hbefore : s.awaited k = [f.note] := by simp [awaited, hf, hcons]
            rw [hbefore] at hreceives
            simpa [Listener.Receives, awaited, hnot] using hreceives
          · obtain ⟨e, he, hreceives⟩ := h.receives k y hy
            refine ⟨e, he, ?_⟩
            have hsame : s.awaited k = if k ∈ rest then [f.note] else [] := by
              simp [awaited, hf, hcons, hne]
            rw [hsame] at hreceives
            exact hreceives
        · cases hf'
          refine ⟨hnodup, fun k hk => ?_, hrest⟩
          rw [List.length_set]
          exact hlt k (List.mem_cons_of_mem _ hk)
    · rename_i hnil
      have hdone : ({ s with fan := none } : Hub κ δ ν).Inv terminal := by
        refine ⟨h.registered, h.entries, h.present, fun l x hx => ?_, fun f' hf' => (by cases hf')⟩
        obtain ⟨e, he, hreceives⟩ := h.receives l x hx
        have hbefore : s.awaited l = [] := by simp [awaited, hf, hnil]
        rw [hbefore] at hreceives
        exact ⟨e, he, hreceives⟩
      split at hstep
      · cases hstep
        exact hdone
      · rename_i note hthen
        cases hstep
        obtain ⟨hnote, e, he, hlive⟩ := hrest note hthen
        exact hdone.fanOut rfl he hlive hnote fun _ hnone => (by cases hnone)

/-! ### What the SDK reports -/

omit [DecidableEq κ] in
lemma callback_eq {allowed : Stream → Bool} {f : Entry κ δ ν → Hub κ δ ν}
    (hstep : s.callback i allowed f = some t) :
    ∃ e, s.fan = none ∧ s.entries[i]? = some e ∧ allowed e.stream = true ∧ t = f e := by
  unfold callback at hstep
  split at hstep
  · rename_i e hidle he
    split_ifs at hstep with hallowed
    cases hstep
    exact ⟨e, hidle, he, hallowed, rfl⟩
  · cases hstep

lemma Inv.accept (h : s.Inv terminal) (hstep : s.accept i = some t) : t.Inv terminal := by
  obtain ⟨e, hidle, he, hpending, rfl⟩ := callback_eq hstep
  rw [decide_eq_true_eq] at hpending
  have hok := h.entries i e he
  refine h.setEntry he rfl rfl rfl rfl ?_ (fun f hf => by rw [hidle] at hf; cases hf) ?_
  · intro hlive
    simpa [Stream.live, hpending] using hlive
  · refine ⟨hok.nodup, fun hclosed => ?_, fun hopen => ?_, hok.ends, fun hlive => hok.running ?_⟩
    · refine ⟨(hok.closed hclosed).1, fun hresolved => (by cases hresolved), fun hlive => ?_⟩
      exact (hok.closed hclosed).2.2 (by simpa [Stream.live, hpending] using hlive)
    · refine ⟨?_, fun hresolved => (by cases hresolved), (hok.opened hopen).2.2⟩
      simpa [Stream.live, hpending] using (hok.opened hopen).1
    · simpa [Stream.live, hpending] using hlive

/-- A handshake resolves, when the rest keeps the invariant. -/
lemma Inv.resolve (h : s.Inv terminal) {rest : Hub κ δ ν → Hub κ δ ν}
    (hrest : ∀ (t : Hub κ δ ν) (e : Entry κ δ ν), t.Inv terminal → t.fan = none →
      t.entries[i]? = some e → e.stream.live = true → (rest t).Inv terminal)
    (hstep : s.resolve i rest = some t) : t.Inv terminal := by
  obtain ⟨e, hidle, he, haccepted, rfl⟩ := callback_eq hstep
  rw [decide_eq_true_eq] at haccepted
  have hok := h.entries i e he
  have hthen : ∀ f, s.fan = some f → f.andThen ≠ none → ∀ b : Bool, b = e.stream.live := by
    intro f hf
    rw [hidle] at hf
    cases hf
  dsimp only
  split_ifs with hclosed
  · refine h.setEntry he rfl rfl rfl rfl ?_ (fun f hf hne => hthen f hf hne _) ?_
    · intro hlive
      simpa [Stream.live, haccepted] using hlive
    · refine ⟨hok.nodup, fun _ => ⟨(hok.closed hclosed).1, fun _ => rfl, fun hlive => ?_⟩, fun hopen => ?_,
        hok.ends, fun hlive => hok.running ?_⟩
      · exact (hok.closed hclosed).2.2 (by simpa [Stream.live, haccepted] using hlive)
      · exact absurd (hclosed.symm.trans hopen) Bool.true_eq_false.mp
      · simpa [Stream.live, haccepted] using hlive
  · have hopen : e.closed = false := Bool.eq_false_iff.mpr hclosed
    have hlive := (hok.opened hopen).1
    have hlive' : ({ e.stream with handshake := .resolved } : Stream).live = true := by
      simpa [Stream.live, haccepted] using hlive
    refine hrest _ _ (h.setEntry he rfl rfl rfl rfl (fun _ => hlive) (fun f hf hne => hthen f hf hne _) ?_)
      hidle (getElem?_set_of_some he) hlive'
    refine ⟨hok.nodup, fun hc => absurd hc hclosed, fun _ => ⟨hlive', fun _ => rfl, (hok.opened hopen).2.2⟩,
      hok.ends, fun _ => hok.running hlive⟩

/-- A stream ends, by a rejected handshake, an error or a close. -/
lemma Inv.terminate (h : s.Inv terminal) (hidle : s.fan = none) (he : s.entries[i]? = some e)
    (hlive : e.stream.live = true) {stream : Stream} (hdead : stream.live = false)
    (hhandshake : stream.handshake = .resolved → e.stream.handshake = .resolved)
    (hreleased : stream.released = e.stream.released) (note : ν) :
    (s.terminate i e stream note).Inv terminal := by
  have hok := h.entries i e he
  have hnot : ∀ {p : Prop}, stream.live = true → p := fun hl => by rw [hdead] at hl; cases hl
  unfold Hub.terminate
  dsimp only
  split_ifs with hclosed
  · refine h.setEntry he rfl rfl rfl rfl (fun hl => hnot hl) (fun f hf => by rw [hidle] at hf; cases hf) ?_
    refine ⟨hok.nodup, fun _ => ⟨(hok.closed hclosed).1, fun hresolved => ?_, fun hl => hnot hl⟩,
      fun hopen => ?_, hok.ends, fun hl => hnot hl⟩
    · rw [hreleased]
      exact (hok.closed hclosed).2.1 (hhandshake hresolved)
    · exact absurd (hclosed.symm.trans hopen) Bool.true_eq_false.mp
  · have hopen : e.closed = false := Bool.eq_false_iff.mpr hclosed
    have hregistered : s.registered.get? e.key = some i := (h.registered _ _).mpr ⟨e, he, rfl, hopen⟩
    have htorn : ((s.setEntry i { e with stream }).teardown i).fanOut i note none =
        { s.setEntry i { torn { e with stream } with fanned := e.fanned ++ [note] } with
          registered := s.registered.delete e.key
          fan := some ⟨i, note, e.listeners, none⟩ } := by
      simp [Hub.teardown, Hub.setEntry, Hub.fanOut, getElem?_set_of_some he, hopen, hregistered, torn]
    rw [htorn]
    refine h.fanned hidle he hlive rfl rfl rfl (h.registered_delete he hopen rfl) rfl rfl ?_
      fun note' hnone => (by cases hnone)
    refine ⟨hok.nodup, fun _ => ⟨rfl, fun hresolved => ?_, fun hl => hnot hl⟩, fun hfalse => (by cases hfalse),
      fun note' hnote' => ?_, fun hl => hnot hl⟩
    · have hheld := (hok.opened hopen).2.1 (hhandshake hresolved)
      simp [torn, hheld]
    · rw [List.dropLast_concat] at hnote'
      exact hok.running hlive note' hnote'

lemma Inv.reject (h : s.Inv terminal) {note : ν} (hstep : s.reject i note = some t) :
    t.Inv terminal := by
  obtain ⟨e, hidle, he, hpending, rfl⟩ := callback_eq hstep
  rw [decide_eq_true_eq] at hpending
  have hdead : ({ e.stream with handshake := .rejected } : Stream).live = false := by
    simp [Stream.live]
  by_cases hlive : e.stream.live = true
  · exact h.terminate hidle he hlive hdead (fun hresolved => (by cases hresolved)) rfl note
  · have hok := h.entries i e he
    have hclosed : e.closed = true := by
      by_contra hopen
      exact hlive (hok.opened (Bool.eq_false_iff.mpr hopen)).1
    rw [Hub.terminate, if_pos hclosed]
    refine h.setEntry he rfl rfl rfl rfl ?_ (fun f hf => by rw [hidle] at hf; cases hf) ?_
    · intro hlive'
      exact absurd (hdead.symm.trans hlive') Bool.false_ne_true
    · refine ⟨hok.nodup, fun _ => ⟨(hok.closed hclosed).1, fun hresolved => (by cases hresolved), ?_⟩,
        fun hopen => ?_, hok.ends, fun hlive' => ?_⟩
      · intro hlive'
        exact absurd (hdead.symm.trans hlive') Bool.false_ne_true
      · exact absurd (hclosed.symm.trans hopen) Bool.true_eq_false.mp
      · exact absurd (hdead.symm.trans hlive') Bool.false_ne_true

lemma live_of_delivers {stream : Stream} (h : stream.delivers = true) : stream.live = true := by
  simp only [Stream.delivers, Stream.live, Bool.and_eq_true, Bool.or_eq_true, decide_eq_true_eq] at h ⊢
  refine ⟨h.1, ?_⟩
  rcases h.2 with heq | heq <;> simp [heq]

lemma Inv.finish (h : s.Inv terminal) {note : ν} (hstep : s.finish i note = some t) :
    t.Inv terminal := by
  obtain ⟨e, hidle, he, hdelivers, rfl⟩ := callback_eq hstep
  have hdead : ({ e.stream with ended := true } : Stream).live = false := by
    simp [Stream.live]
  exact h.terminate hidle he (live_of_delivers hdelivers) hdead id rfl note

/-! ### What listeners can rely on -/

/-- To leave a stream touches no other. -/
lemma getElem?_unsubscribe {delayed : Bool} {x : Listener ν} (hx : s.listeners[l]? = some x)
    (hstep : s.unsubscribe delayed l = some t) {j : ℕ} (hne : j ≠ x.entry) :
    t.entries[j]? = s.entries[j]? := by
  have hset : ∀ (entries : List (Entry κ δ ν)) (e : Entry κ δ ν),
      (entries.set x.entry e)[j]? = entries[j]? := fun _ _ => List.getElem?_set_ne hne.symm
  have hteardown : ∀ t : Hub κ δ ν, (t.teardown x.entry).entries[j]? = t.entries[j]? := by
    intro t
    unfold Hub.teardown
    split
    · rfl
    · split
      · rfl
      · exact hset _ _
  unfold Hub.unsubscribe at hstep
  rw [hx] at hstep
  dsimp only at hstep
  split at hstep
  · cases hstep
    rfl
  · split at hstep
    · cases hstep
    · split_ifs at hstep
      · cases hstep
        unfold scheduleTeardown
        split
        · split
          · exact hset _ _
          · exact (hset _ _).trans (hset _ _)
        · exact (hteardown _).trans (hset _ _)
      · cases hstep
        exact hset _ _
      · cases hstep
        rfl

variable (terminal s)

/-- What listeners can rely on. -/
structure Correct : Prop where
  /-- One stream of a key is open or being opened. -/
  one_open : ∀ {i j : ℕ} {e f : Entry κ δ ν}, s.entries[i]? = some e → s.entries[j]? = some f →
    e.key = f.key → e.closed = false → f.closed = false → i = j
  /-- A stream without listeners is closed or never was open, or its timer is armed, or it will be
  closed when its handshake resolves. -/
  unused : ∀ e ∈ s.entries, e.listeners = [] →
    e.stream.released = true ∨ e.stream.handshake = .rejected ∨ e.teardownTimer = true ∨
      (e.closed = true ∧ (e.stream.handshake = .pending ∨ e.stream.handshake = .accepted))
  /-- A listener gets what its stream fans out between its joining and its leaving. -/
  receives : ∀ (l : ℕ) (x : Listener ν), s.listeners[l]? = some x →
    ∃ e, s.entries[x.entry]? = some e ∧ x.Receives e.fanned (s.awaited l)
  /-- What a stream that was torn down could still deliver has no listener to go to. -/
  left : ∀ (i : ℕ) (e : Entry κ δ ν), s.entries[i]? = some e → e.closed = true →
    e.stream.delivers = true → ∀ x ∈ s.listeners, x.entry = i → x.removed ≠ none
  /-- Nothing comes after a terminal signal. -/
  terminal_last : ∀ x ∈ s.listeners, ∀ note ∈ x.received.dropLast, terminal note = false
  unsubscribe_local : ∀ {delayed : Bool} {l : ℕ} {x : Listener ν} {t : Hub κ δ ν},
    s.listeners[l]? = some x → s.unsubscribe delayed l = some t → ∀ j, j ≠ x.entry →
      t.entries[j]? = s.entries[j]? ∧
        ∀ key, t.registered.get? key = some j ↔ s.registered.get? key = some j

variable {terminal s}

lemma Inv.correct (h : s.Inv terminal) : s.Correct terminal where
  one_open he hf hkey hopen hopen' := by
    have hi := (h.registered _ _).mpr ⟨_, he, hkey, hopen⟩
    have hj := (h.registered _ _).mpr ⟨_, hf, rfl, hopen'⟩
    exact Option.some.inj (hi.symm.trans hj)
  unused e he hnil := by
    obtain ⟨i, hi⟩ := List.mem_iff_getElem?.mp he
    have hok := h.entries i e hi
    cases hclosed : e.closed with
    | false => exact .inr (.inr (.inl ((hok.opened hclosed).2.2 hnil)))
    | true =>
      cases hhandshake : e.stream.handshake with
      | pending => exact .inr (.inr (.inr ⟨rfl, .inl rfl⟩))
      | accepted => exact .inr (.inr (.inr ⟨rfl, .inr rfl⟩))
      | resolved => exact .inl ((hok.closed hclosed).2.1 hhandshake)
      | rejected => exact .inr (.inl rfl)
  receives := h.receives
  left i e he hclosed hdelivers x hx hentry hremoved := by
    obtain ⟨l, hl⟩ := List.mem_iff_getElem?.mp hx
    have hlive := live_of_delivers hdelivers
    have hmem := (h.present i e he hlive l).mpr ⟨x, hl, hentry, hremoved⟩
    rw [((h.entries i e he).closed hclosed).2.2 hlive] at hmem
    cases hmem
  terminal_last x hx note hnote := by
    obtain ⟨l, hl⟩ := List.mem_iff_getElem?.mp hx
    obtain ⟨e, he, before, after, hsplit, -⟩ := h.receives l x hl
    have hsub : x.received.Sublist e.fanned := by
      rw [hsplit]
      have hleft := List.sublist_append_left x.received (s.awaited l)
      exact (hleft.trans (List.sublist_append_right before _)).trans (List.sublist_append_left _ after)
    have hlast := hsub.reverse.tail
    rw [List.tail_reverse, List.tail_reverse, List.reverse_sublist] at hlast
    exact (h.entries _ e he).ends note (hlast.subset hnote)
  unsubscribe_local hx hstep j hne := by
    have hsame := getElem?_unsubscribe hx hstep hne
    refine ⟨hsame, fun key => ?_⟩
    rw [(h.unsubscribe hstep).registered, h.registered, hsame]

end Hub

end Junjo.React
