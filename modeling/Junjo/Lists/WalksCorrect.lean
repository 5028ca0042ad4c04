import Junjo.Export.ExportGameCorrect
import Junjo.Lists.NewestFirst

/-!
# When a walk returns the rows that stay

A walk returns every row that stays listed with one key once, newest first, as long as the row that
a cursor names has passed no such row since its page. A ban that is set again with another time
moves, and its walk with it.
-/

namespace Junjo.Lists

open Export IsoDate

namespace NewestFirst

variable {ρ : Type} (collation : KeyOrder Text) (list : NewestFirst ρ) (limit : ℕ)

/-- The rows that a request at a moment can hold. -/
def listedAt (m : Moment) : List ρ :=
  match list.scope m.db with
  | .ok (some scope) => list.listed m scope
  | _ => []

/-- A row of this time and id is listed at every moment. -/
def Stays (moments : List Moment) (k : Instant × Text) : Prop :=
  ∀ m ∈ moments, ∃ r ∈ list.listedAt m, list.key r = k

/-- Whenever a walk goes on, the row that its cursor names is on the same side of each row that
stays as it was on the page that gave the cursor. -/
def CursorsHold (stays : Instant × Text → Prop) : Option Text → List Moment → Prop
  | cursor, m :: m' :: rest => ∀ page next, list.read collation limit m cursor = .ok page →
      page.nextCursor = some next →
      (∀ r ∈ list.rows m.db, ∀ r' ∈ list.rows m'.db, list.id r = next → list.id r' = next →
        ∀ k, stays k → ((newest collation).lt (list.key r) k = true ↔
          (newest collation).lt (list.key r') k = true)) ∧
      CursorsHold stays (some next) (m' :: rest)
  | _, _ => True

/-- Every row that stays is returned once, and those that stay are returned newest first. -/
def Complete (moments : List Moment) (returned : List ρ) : Prop :=
  (∀ k, list.Stays moments k → (returned.map list.id).count k.2 = 1) ∧
    (returned.map list.key).Pairwise fun k k' => list.Stays moments k → list.Stays moments k' →
      (newest collation).lt k k' = true

/-! ### A request reads a page -/

/-- Where the row is that a cursor names. -/
def position (m : Moment) (cursor : Option Text) : Option (Instant × Text) :=
  match list.scope m.db, cursor with
  | .ok (some scope), some cursor => (list.findCursor m.db scope cursor).map list.key
  | _, _ => none

def stopAt (m : Moment) (cursor : Option Text) : Keyset.Stop (Instant × Text) ρ :=
  ⟨list.listedAt m, list.position m cursor⟩

variable {collation list limit} {m : Moment} {cursor : Option Text} {page : Page ρ}

lemma position_none : list.position m none = none := by
  unfold position
  split <;> simp_all

/-- A request that is not refused has a scope, and finds the row of its cursor there. -/
lemma read_cases (h : list.read collation limit m cursor = .ok page) :
    (list.scope m.db = .ok none ∧ page = ⟨[], none⟩) ∨
      ∃ scope, list.scope m.db = .ok (some scope) ∧
        (∀ c, cursor = some c → ∃ row, list.findCursor m.db scope c = some row) ∧
        page = list.pageBehind collation limit m scope (list.position m cursor) := by
  unfold read at h
  unfold position
  split at h
  · cases h
  · cases h
    exact .inl ⟨‹_›, rfl⟩
  · rename_i scope hscope
    refine .inr ⟨scope, hscope, ?_⟩
    rw [hscope]
    split at h
    · cases h
      exact ⟨fun c hc => (by cases hc), rfl⟩
    · split at h
      · cases h
      · rename_i c row hfind
        cases h
        refine ⟨fun c' hc => ⟨row, ?_⟩, ?_⟩
        · cases hc
          exact hfind
        · simp only [hfind, Option.map_some]

/-- The page of the library, with the cursor that the routes answer. -/
lemma pageBehind_eq (scope : ρ → Bool) (after : Option (Instant × Text)) :
    list.pageBehind collation limit m scope after =
      let page := (Keyset.Stop.mk (list.listed m scope) after).page (newest collation) list.key limit
      ⟨page.items, if page.more then page.items.getLast?.map list.id else none⟩ := by
  simp only [pageBehind, Keyset.Stop.page, Keyset.pageOf, decide_eq_true_eq]
  split_ifs with h
  · rfl
  · rw [List.take_of_length_le (not_lt.mp h)]

lemma read_stop (h : list.read collation limit m cursor = .ok page) :
    page.items = ((list.stopAt m cursor).page (newest collation) list.key limit).items ∧
      page.nextCursor =
        if ((list.stopAt m cursor).page (newest collation) list.key limit).more then
          page.items.getLast?.map list.id
        else none := by
  rcases read_cases h with ⟨hscope, rfl⟩ | ⟨scope, hscope, -, rfl⟩
  · have hrows : list.listedAt m = [] := by
      rw [listedAt, hscope]
    have hnil : (list.stopAt m cursor).page (newest collation) list.key limit = ⟨[], false⟩ := by
      rw [stopAt, hrows]
      simp [Keyset.Stop.page, Keyset.pageOf, Keyset.rowsAfter, Keyset.sortBy]
    rw [hnil]
    exact ⟨rfl, rfl⟩
  · have hrows : list.listedAt m = list.listed m scope := by
      rw [listedAt, hscope]
    rw [stopAt, hrows, pageBehind_eq]
    exact ⟨rfl, rfl⟩

lemma mem_rows_of_mem_listedAt {r : ρ} (h : r ∈ list.listedAt m) : r ∈ list.rows m.db := by
  unfold listedAt at h
  split at h
  · exact List.mem_of_mem_filter h
  · cases h

/-- No two rows of a moment have one id. -/
lemma eq_of_id_eq {r r' : ρ} (hr : r ∈ list.listedAt m) (hr' : r' ∈ list.listedAt m)
    (h : list.id r = list.id r') : r = r' :=
  List.inj_on_of_nodup_map (list.ids_nodup m.db) (mem_rows_of_mem_listedAt hr)
    (mem_rows_of_mem_listedAt hr') h

lemma nodup_listedAt (m : Moment) : ((list.listedAt m).map list.key).Nodup := by
  have hids : ((list.listedAt m).map list.id).Nodup := by
    unfold listedAt
    split
    · exact (list.ids_nodup m.db).sublist (List.filter_sublist.map list.id)
    · exact List.nodup_nil
  have hsnd : (list.listedAt m).map list.id = ((list.listedAt m).map list.key).map Prod.snd := by
    rw [List.map_map]
    rfl
  rw [hsnd] at hids
  exact hids.of_map

/-- There is a next cursor exactly when there are more rows: the id of the page's last row. -/
lemma nextCursor_cases (hlimit : 0 < limit) (h : list.read collation limit m cursor = .ok page) :
    (page.nextCursor = none ∧
        ((list.stopAt m cursor).page (newest collation) list.key limit).more = false) ∨
      ∃ last, page.items.getLast? = some last ∧ page.nextCursor = some (list.id last) ∧
        ((list.stopAt m cursor).page (newest collation) list.key limit).more = true := by
  obtain ⟨hitems, hnext⟩ := read_stop h
  cases hmore : ((list.stopAt m cursor).page (newest collation) list.key limit).more with
  | false =>
    rw [hmore, if_neg Bool.false_ne_true] at hnext
    exact .inl ⟨hnext, rfl⟩
  | true =>
    obtain ⟨last, hlast, -⟩ := Keyset.exists_last_pageOf hlimit
      (Keyset.nodup_rowsAfter (nodup_listedAt m) (list.position m cursor)) hmore
    refine .inr ⟨last, ?_, ?_, rfl⟩
    · rw [hitems]
      exact hlast
    · rw [hnext, hmore, if_pos rfl, hitems]
      exact congrArg (Option.map list.id) hlast

/-- When a row that stays is listed, a request that is not refused reads behind a row of the
table. -/
lemma exists_position {k : Instant × Text} {c : Text} (hlisted : ∃ r ∈ list.listedAt m, list.key r = k)
    (h : list.read collation limit m (some c) = .ok page) :
    ∃ r ∈ list.rows m.db, list.id r = c ∧ list.position m (some c) = some (list.key r) := by
  rcases read_cases h with ⟨hscope, -⟩ | ⟨scope, hscope, hfind, -⟩
  · obtain ⟨r, hr, -⟩ := hlisted
    rw [listedAt, hscope] at hr
    cases hr
  · obtain ⟨row, hrow⟩ := hfind c rfl
    have hrow' := List.find?_some hrow
    rw [Bool.and_eq_true, decide_eq_true_eq] at hrow'
    refine ⟨row, List.mem_of_find?_eq_some hrow, hrow'.1, ?_⟩
    simp only [position, hscope, hrow, Option.map_some]

/-! ### A walk reads one page after another -/

variable {moments : List Moment} {returned : List ρ} {stays : Instant × Text → Prop}

lemma walk_stops (hlimit : 0 < limit)
    (hwalk : list.walk collation limit cursor moments = some returned)
    (hstays : ∀ k, stays k → list.Stays moments k)
    (hcursors : list.CursorsHold collation limit stays cursor moments) :
    ∃ m rest stops, moments = m :: rest ∧ (∃ page, list.read collation limit m cursor = .ok page) ∧
      Keyset.Walk (newest collation) list.key limit (list.stopAt m cursor :: stops) returned ∧
      (∀ t ∈ list.stopAt m cursor :: stops, ∃ m' ∈ moments, t.rows = list.listedAt m') ∧
      Keyset.Aligned (newest collation) list.key limit stays (list.stopAt m cursor :: stops) := by
  induction moments generalizing cursor returned with
  | nil => cases hwalk
  | cons m rest ih =>
    rw [walk] at hwalk
    split at hwalk
    · cases hwalk
    · rename_i page hread
      obtain ⟨hitems, -⟩ := read_stop hread
      rcases nextCursor_cases hlimit hread with ⟨hnext, hmore⟩ | ⟨last, hlast, hnext, hmore⟩
      · simp only [hnext] at hwalk
        split_ifs at hwalk
        cases hwalk
        refine ⟨m, rest, [], rfl, ⟨page, hread⟩, ?_, ?_, trivial⟩
        · rw [hitems]
          exact .last hmore
        · intro t ht
          rw [List.mem_singleton.mp ht]
          exact ⟨m, List.mem_cons_self, rfl⟩
      · simp only [hnext] at hwalk
        obtain ⟨tail, htail, rfl⟩ := Option.map_eq_some_iff.mp hwalk
        cases rest with
        | nil => cases htail
        | cons m' rest =>
          obtain ⟨hside, hcursors'⟩ := hcursors page (list.id last) hread hnext
          have hrest := ih htail (fun k hk n hn => hstays k hk n (List.mem_cons_of_mem _ hn)) hcursors'
          obtain ⟨_, _, stops, heq, ⟨page', hread'⟩, hwalk', hrows, haligned⟩ := hrest
          obtain ⟨rfl, rfl⟩ := List.cons.inj heq
          refine ⟨m, m' :: rest, list.stopAt m' (some (list.id last)) :: stops, rfl,
            ⟨page, hread⟩, ?_, ?_, ?_, haligned⟩
          · rw [hitems]
            exact .step hmore hwalk'
          · intro t ht
            rcases List.mem_cons.mp ht with rfl | ht
            · exact ⟨m, List.mem_cons_self, rfl⟩
            · obtain ⟨n, hn, heq⟩ := hrows t ht
              exact ⟨n, List.mem_cons_of_mem _ hn, heq⟩
          · intro last' hlast' k hk
            rw [hitems, hlast'] at hlast
            obtain rfl := Option.some.inj hlast
            have hmem : last' ∈ list.rows m.db :=
              mem_rows_of_mem_listedAt (Keyset.mem_rowsAfter.mp
                (Keyset.mem_of_mem_pageOf (List.mem_of_getLast? hlast'))).1
            have hlisted := hstays k hk m' (List.mem_cons_of_mem _ List.mem_cons_self)
            obtain ⟨r, hr, hid, hposition⟩ := exists_position hlisted hread'
            rw [hside last' hmem r hr rfl hid k hk, Keyset.Behind, stopAt, hposition,
              Option.all_some]

/-- A walk returns the rows that stay once each and newest first, when the rows that its cursors
name pass none of them. -/
lemma complete_of_cursorsHold (hlimit : 0 < limit)
    (hwalk : list.walk collation limit none moments = some returned)
    (hcursors : list.CursorsHold collation limit (list.Stays moments) none moments) :
    list.Complete collation moments returned := by
  obtain ⟨m, rest, stops, rfl, -, hwalk', hrows, haligned⟩ :=
    walk_stops hlimit hwalk (fun _ hk => hk) hcursors
  have hnodup : ∀ t ∈ list.stopAt m none :: stops, (t.rows.map list.key).Nodup := by
    intro t ht
    obtain ⟨m', -, heq⟩ := hrows t ht
    rw [heq]
    exact nodup_listedAt m'
  have hstays : ∀ k, list.Stays (m :: rest) k → ∀ t ∈ list.stopAt m none :: stops,
      ∃ r ∈ t.rows, list.key r = k := by
    intro k hk t ht
    obtain ⟨m', hm', heq⟩ := hrows t ht
    rw [heq]
    exact hk m' hm'
  obtain ⟨honce, -, horder⟩ := Keyset.Walk.complete hlimit hwalk' hnodup hstays haligned
  refine ⟨fun k hk => ?_, horder⟩
  have hstart : Keyset.Behind (newest collation) (list.stopAt m none).after k := by
    rw [stopAt, position_none]
    rfl
  rw [← honce k hk hstart]
  unfold List.count
  rw [List.countP_map, List.countP_map]
  -- a returned row with the id of a row that stays was that row when its page was read
  refine List.countP_congr fun r hr => ?_
  obtain ⟨t, ht, hrt⟩ := hwalk'.exists_rows hr
  obtain ⟨m', hm', heq⟩ := hrows t ht
  rw [heq] at hrt
  obtain ⟨r', hr', rfl⟩ := hk m' hm'
  simp only [Function.comp_apply, beq_iff_eq]
  constructor
  · intro hid
    rw [eq_of_id_eq hrt hr' hid]
  · intro hkey
    exact congrArg Prod.snd hkey

/-- When no row of the table gets another time, no row is passed. -/
lemma cursorsHold_of_times (moments : List Moment)
    (h : ∀ m ∈ moments, ∀ m' ∈ moments, ∀ r ∈ list.rows m.db, ∀ r' ∈ list.rows m'.db,
      list.id r = list.id r' → list.time r = list.time r') (cursor : Option Text) :
    list.CursorsHold collation limit stays cursor moments := by
  induction moments generalizing cursor with
  | nil => trivial
  | cons m rest ih =>
    cases rest with
    | nil => trivial
    | cons m' rest =>
      intro page next _ _
      refine ⟨fun r hr r' hr' hid hid' k _ => ?_, ih (fun n hn n' hn' => h n
        (List.mem_cons_of_mem _ hn) n' (List.mem_cons_of_mem _ hn')) (some next)⟩
      have hid'' : list.id r = list.id r' := hid.trans hid'.symm
      have htime := h m List.mem_cons_self m' (List.mem_cons_of_mem _ List.mem_cons_self) r hr r'
        hr' hid''
      rw [key, key, htime, hid'']

end NewestFirst

/-- A walk over one of the lists that is not refused returns every row that stays listed with one
time exactly once, newest first, when no row that a cursor names has passed such a row since its
page. -/
theorem walk_complete (route : Route) {collation : KeyOrder Text} {limit : ℕ} (hlimit : 0 < limit)
    {moments : List Moment} {returned : List route.Row}
    (hwalk : route.list.walk collation limit none moments = some returned)
    (hcursors : route.list.CursorsHold collation limit (route.list.Stays moments) none moments) :
    route.list.Complete collation moments returned :=
  NewestFirst.complete_of_cursorsHold hlimit hwalk hcursors

/-! ### Walks over bans -/

private def gameBan (id : Text) (bannedAt : Instant) : GameBan :=
  ⟨id, text "g", id, bannedAt, none, none, none, none⟩

private def bansAt (bans : List GameBan) (h : (bans.map GameBan.id).Nodup) : Moment :=
  ⟨{ oneGroup with gameBans := bans, gameBans_ids := h }, 10⟩

private def banA : GameBan := gameBan (text "a") 1
private def banB : GameBan := gameBan (text "b") 2
private def banC : GameBan := gameBan (text "c") 3

private def allBans : Route := .gameBans (text "g") false

/-- A ban is added after the first page, and the last one of that page is lifted after the next. -/
private def addedAndLifted : List Moment :=
  [bansAt [banA, banB, banC] (by decide), bansAt [banA, banB, banC, gameBan (text "d") 4] (by decide),
    bansAt [banA, banB, gameBan (text "d") 4] (by decide)]

theorem walk_complete_addedAndLifted : ∃ returned : List GameBan,
    allBans.list.walk unitOrder 1 none addedAndLifted = some returned ∧
      returned.map GameBan.id = [text "c", text "b", text "a"] ∧
      allBans.list.Complete unitOrder addedAndLifted returned := by
  have hrun : ((listGameBans (text "g") false).walk unitOrder 1 none addedAndLifted).map
      (fun returned => returned.map GameBan.id) = some [text "c", text "b", text "a"] := by
    decide
  obtain ⟨returned, hwalk, hids⟩ := Option.map_eq_some_iff.mp hrun
  refine ⟨returned, hwalk, hids, walk_complete allBans Nat.one_pos hwalk ?_⟩
  apply NewestFirst.cursorsHold_of_times
  decide

/-- The ban on the first page is set again, with an earlier time, before the second is read. -/
private def setAgain : List Moment :=
  [bansAt [banA, banB, banC] (by decide), bansAt [banA, banB, gameBan (text "c") 0] (by decide)]

/-- Two bans that stay are never returned: the walk goes on behind the new time. -/
theorem walk_not_complete : ¬ ∀ (route : Route) (collation : KeyOrder Text) (limit : ℕ)
    (moments : List Moment) (returned : List route.Row), 0 < limit →
    route.list.walk collation limit none moments = some returned →
    route.list.Complete collation moments returned := by
  intro h
  have hrun : ((listGameBans (text "g") false).walk unitOrder 1 none setAgain).map
      (fun returned => returned.map GameBan.id) = some [text "c"] := by
    decide
  obtain ⟨returned, hwalk, hids⟩ := Option.map_eq_some_iff.mp hrun
  have hcomplete := h allBans unitOrder 1 setAgain returned Nat.one_pos hwalk
  have hstays : (listGameBans (text "g") false).Stays setAgain (2, text "b") := by
    unfold NewestFirst.Stays
    decide
  have hone := hcomplete.1 _ hstays
  have hids' : returned.map allBans.list.id = [text "c"] := hids
  rw [hids'] at hone
  exact absurd hone (by decide)

end Junjo.Lists
