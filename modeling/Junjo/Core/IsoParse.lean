import Junjo.Core.IsoDate

/-!
# Reading dates back

`parseISO` reads the texts that `toISOString` writes.
-/

namespace Junjo.IsoDate

/-- A text without the start it should have. -/
def readText (start t : Text) : Option Text := start.isPrefixOf? t

def readDigit (u : CodeUnit) : Option ℕ := if 48 ≤ u.val ∧ u.val ≤ 57 then some (u.val - 48) else none

/-- The number of the first `width` digits, after the digits before them, and the rest. -/
def readNumber : ℕ → ℕ → Text → Option (ℕ × Text)
  | 0, n, t => some (n, t)
  | _ + 1, _, [] => none
  | width + 1, n, u :: t => (readDigit u).bind fun d => readNumber width (10 * n + d) t

def readYear (t : Text) : Option (ℤ × Text) :=
  match readText (text "-") t with
  | some t => (readNumber 6 0 t).map fun r => (-(r.1 : ℤ), r.2)
  | none =>
    match readText (text "+") t with
    | some t => (readNumber 6 0 t).map fun r => ((r.1 : ℤ), r.2)
    | none => (readNumber 4 0 t).map fun r => ((r.1 : ℤ), r.2)

def readCivil (t : Text) : Option Civil := do
  let (year, t) ← readYear t
  let (month, t) ← readNumber 2 0 (← readText (text "-") t)
  let (day, t) ← readNumber 2 0 (← readText (text "-") t)
  let (hour, t) ← readNumber 2 0 (← readText (text "T") t)
  let (minute, t) ← readNumber 2 0 (← readText (text ":") t)
  let (second, t) ← readNumber 2 0 (← readText (text ":") t)
  let (millisecond, t) ← readNumber 3 0 (← readText (text ".") t)
  if t = text "Z" then some { year, month, day, hour, minute, second, millisecond } else none

/-- The instant of a date and a time of day. -/
def Civil.instant (c : Civil) : Instant :=
  (dayFromYear c.year + monthStart (inLeapYear c.year) (c.month - 1) + (c.day - 1 : ℕ)) * msPerDay
    + ((c.hour * 3600000 + c.minute * 60000 + c.second * 1000 + c.millisecond : ℕ) : ℤ)

def parseISO (t : Text) : Option Instant := (readCivil t).map Civil.instant

/-! ### Numbers -/

lemma readDigit_digitUnit {d : ℕ} (h : d < 10) : readDigit (digitUnit d) = some d := by
  rw [readDigit, digitUnit_val h, if_pos ⟨Nat.le_add_right 48 d, by omega⟩, Nat.add_sub_cancel_left]

lemma readNumber_succ (width n : ℕ) (t : Text) :
    readNumber (width + 1) n t = (readNumber width n t).bind fun r => readNumber 1 r.1 r.2 := by
  induction width generalizing n t with
  | zero => rfl
  | succ width ih =>
    cases t with
    | nil => rfl
    | cons u t =>
      rw [readNumber, readNumber]
      cases readDigit u with
      | none => rfl
      | some d => exact ih (10 * n + d) t

lemma readNumber_padded {width n : ℕ} (h : n < 10 ^ width) (rest : Text) :
    readNumber width 0 (padded width n ++ rest) = some (n, rest) := by
  induction width generalizing n rest with
  | zero =>
    obtain rfl : n = 0 := by simpa using h
    rfl
  | succ width ih =>
    have hdiv : n / 10 < 10 ^ width := by
      rw [Nat.pow_succ] at h
      omega
    rw [padded, List.append_assoc, readNumber_succ, ih hdiv]
    simp only [Option.bind_some, List.singleton_append, readNumber,
      readDigit_digitUnit (Nat.mod_lt n (show 0 < 10 by omega)), Option.some.injEq, Prod.mk.injEq,
      and_true]
    exact Nat.div_add_mod n 10

lemma readText_append (start rest : Text) : readText start (start ++ rest) = some rest :=
  List.isPrefixOf?_eq_some_iff_append_eq.mpr rfl

/-! ### Dates -/

/-- A date the language can hold. -/
def InRange (t : Instant) : Prop := t.natAbs ≤ 8640000000000000

/-- Numbers that their places in the text hold. -/
structure Civil.Fits (c : Civil) : Prop where
  year : c.year.natAbs < 10 ^ 6
  month : c.month < 10 ^ 2
  day : c.day < 10 ^ 2
  hour : c.hour < 10 ^ 2
  minute : c.minute < 10 ^ 2
  second : c.second < 10 ^ 2
  millisecond : c.millisecond < 10 ^ 3

/-- A number begins with a digit, which is no sign. -/
lemma padded_eq_cons (width n : ℕ) : ∃ d < 10, ∃ s, padded (width + 1) n = digitUnit d :: s := by
  induction width generalizing n with
  | zero => exact ⟨n % 10, Nat.mod_lt n (by omega), [], rfl⟩
  | succ width ih =>
    obtain ⟨d, hd, s, hs⟩ := ih (n / 10)
    exact ⟨d, hd, s ++ [digitUnit (n % 10)], by rw [padded, hs, List.cons_append]⟩

lemma readText_padded {u : CodeUnit} (hu : u.val < 48) (width n : ℕ) (rest : Text) :
    readText [u] (padded (width + 1) n ++ rest) = none := by
  obtain ⟨d, hd, s, hs⟩ := padded_eq_cons width n
  have hne : u ≠ digitUnit d := by
    rintro rfl
    rw [digitUnit_val hd] at hu
    omega
  rw [hs, readText, List.cons_append, List.isPrefixOf?, if_neg (by simpa using hne)]

lemma readYear_yearText {y : ℤ} (h : y.natAbs < 10 ^ 6) (rest : Text) :
    readYear (yearText y ++ rest) = some (y, rest) := by
  rw [yearText, readYear]
  split_ifs with hfour hneg
  · have hplus : readText (text "+") (padded 4 y.toNat ++ rest) = none :=
      readText_padded (u := 43) (by decide) 3 _ _
    have hminus : readText (text "-") (padded 4 y.toNat ++ rest) = none :=
      readText_padded (u := 45) (by decide) 3 _ _
    rw [hminus, hplus, readNumber_padded (by omega)]
    simp [hfour.1]
  · rw [List.append_assoc, readText_append]
    dsimp only
    rw [readNumber_padded h]
    simp only [Option.map_some, Option.some.injEq, Prod.mk.injEq, and_true]
    omega
  · have hminus : readText (text "-") (text "+" ++ (padded 6 y.natAbs ++ rest)) = none := rfl
    rw [List.append_assoc, hminus, readText_append]
    dsimp only
    rw [readNumber_padded h]
    simp only [Option.map_some, Option.some.injEq, Prod.mk.injEq, and_true]
    omega

lemma readCivil_iso {c : Civil} (h : c.Fits) : readCivil c.iso = some c := by
  have hiso : c.iso = yearText c.year ++ (text "-" ++ (padded 2 c.month ++ (text "-"
      ++ (padded 2 c.day ++ (text "T" ++ (padded 2 c.hour ++ (text ":" ++ (padded 2 c.minute
        ++ (text ":" ++ (padded 2 c.second ++ (text "." ++ (padded 3 c.millisecond
          ++ text "Z")))))))))))) := by
    simp only [Civil.iso, List.append_assoc]
  rw [hiso, readCivil]
  refine Option.bind_eq_some_iff.mpr ⟨_, readYear_yearText h.year _, ?_⟩
  refine Option.bind_eq_some_iff.mpr ⟨_, readText_append _ _, ?_⟩
  refine Option.bind_eq_some_iff.mpr ⟨_, readNumber_padded h.month _, ?_⟩
  refine Option.bind_eq_some_iff.mpr ⟨_, readText_append _ _, ?_⟩
  refine Option.bind_eq_some_iff.mpr ⟨_, readNumber_padded h.day _, ?_⟩
  refine Option.bind_eq_some_iff.mpr ⟨_, readText_append _ _, ?_⟩
  refine Option.bind_eq_some_iff.mpr ⟨_, readNumber_padded h.hour _, ?_⟩
  refine Option.bind_eq_some_iff.mpr ⟨_, readText_append _ _, ?_⟩
  refine Option.bind_eq_some_iff.mpr ⟨_, readNumber_padded h.minute _, ?_⟩
  refine Option.bind_eq_some_iff.mpr ⟨_, readText_append _ _, ?_⟩
  refine Option.bind_eq_some_iff.mpr ⟨_, readNumber_padded h.second _, ?_⟩
  refine Option.bind_eq_some_iff.mpr ⟨_, readText_append _ _, ?_⟩
  refine Option.bind_eq_some_iff.mpr ⟨_, readNumber_padded h.millisecond _, ?_⟩
  exact if_pos rfl

lemma lastMonthFrom_spec (leap : Bool) {day : ℤ} (hday : 0 ≤ day) (n : ℕ) :
    monthStart leap (lastMonthFrom leap day n) ≤ day ∧ lastMonthFrom leap day n ≤ n - 1 ∧
      (lastMonthFrom leap day n + 1 < n → day < monthStart leap (lastMonthFrom leap day n + 1)) := by
  induction n with
  | zero => exact ⟨hday, le_rfl, fun h => absurd h (Nat.not_lt_zero _)⟩
  | succ n ih =>
    obtain ⟨hle, hlast, hnext⟩ := ih
    rw [lastMonthFrom]
    split_ifs with h
    · exact ⟨h, le_rfl, fun hlt => absurd hlt (lt_irrefl _)⟩
    · refine ⟨hle, by omega, fun hlt => ?_⟩
      rcases Nat.lt_succ_iff_lt_or_eq.mp hlt with hlt | heq
      · exact hnext hlt
      · rw [heq]
        exact not_le.mp h

/-- Months have no more than thirty-one days. -/
lemma monthStart_succ_le : ∀ (leap : Bool), ∀ m < 12,
    monthStart leap (m + 1) ≤ monthStart leap m + 31 := by
  decide

lemma monthFromDay_spec (leap : Bool) {day : ℤ} (hday : 0 ≤ day) (hyear : day < 365 + leap.toNat) :
    monthFromDay leap day ≤ 11 ∧ 0 ≤ day - monthStart leap (monthFromDay leap day) ∧
      day - monthStart leap (monthFromDay leap day) < 31 := by
  obtain ⟨hle, hlast, hnext⟩ := lastMonthFrom_spec leap hday 12
  rw [monthFromDay]
  generalize lastMonthFrom leap day 12 = m at hle hlast hnext
  refine ⟨hlast, sub_nonneg.mpr hle, ?_⟩
  have hmonth := monthStart_succ_le leap m (by omega)
  have hend : day < monthStart leap (m + 1) := by
    rcases Nat.lt_or_ge (m + 1) 12 with hlt | hge
    · exact hnext hlt
    · rw [Nat.le_antisymm (show m + 1 ≤ 12 by omega) hge]
      exact hyear
  omega

lemma yearFromDay_bounds {day : ℤ} (h : day.natAbs ≤ 100000000) :
    (yearFromDay day).natAbs < 10 ^ 6 := by
  rw [yearFromDay]
  split_ifs <;> omega

lemma civilOf_spec {t : Instant} (h : InRange t) : (civilOf t).Fits ∧ (civilOf t).instant = t := by
  have hday : (t / msPerDay).natAbs ≤ 100000000 := by
    rw [InRange] at h
    rw [msPerDay]
    omega
  have htime : t % msPerDay = ((t % msPerDay).toNat : ℤ) :=
    (Int.toNat_of_nonneg (Int.emod_nonneg t (by decide))).symm
  have hlt : (t % msPerDay).toNat < 86400000 := by
    have := Int.emod_lt_of_pos t (show 0 < msPerDay by decide)
    rw [msPerDay] at this ⊢
    omega
  obtain ⟨hfirst, hlast⟩ := dayFromYear_yearFromDay (t / msPerDay)
  rw [dayFromYear_succ] at hlast
  have hnonneg : 0 ≤ t / msPerDay - dayFromYear (yearFromDay (t / msPerDay)) := sub_nonneg.mpr hfirst
  have hyear : t / msPerDay - dayFromYear (yearFromDay (t / msPerDay))
      < 365 + (inLeapYear (yearFromDay (t / msPerDay))).toNat := by
    rw [sub_lt_iff_lt_add', ← add_assoc]
    exact hlast
  obtain ⟨hmonth, hstart, hshort⟩ := monthFromDay_spec _ hnonneg hyear
  have hparts : t = t / msPerDay * msPerDay + ((t % msPerDay).toNat : ℤ) := by
    rw [← htime]
    exact (Int.ediv_mul_add_emod t msPerDay).symm
  constructor
  · constructor <;> dsimp only [civilOf]
    · exact yearFromDay_bounds hday
    all_goals omega
  · have hclock : (t % msPerDay).toNat / 3600000 * 3600000
        + (t % msPerDay).toNat / 60000 % 60 * 60000 + (t % msPerDay).toNat / 1000 % 60 * 1000
        + (t % msPerDay).toNat % 1000 = (t % msPerDay).toNat := by omega
    conv_rhs => rw [hparts]
    rw [Civil.instant, civilOf]
    dsimp only
    rw [Nat.add_sub_cancel, Nat.add_sub_cancel, Int.toNat_of_nonneg hstart, hclock]
    ring

/-- The language's dates are read back. -/
theorem parseISO_toISOString {t : Instant} (h : InRange t) : parseISO (toISOString t) = some t := by
  obtain ⟨hfits, hinstant⟩ := civilOf_spec h
  rw [parseISO, toISOString, readCivil_iso hfits, Option.map_some, hinstant]

end Junjo.IsoDate
