import Junjo.Core.Encode

/-!
# Dates in text

`toISOString` writes an instant as `Date.prototype.toISOString` does, by the calendar of the
language's specification: days since the epoch, the year a day is in, its month and its date.
-/

namespace Junjo.IsoDate

/-- Milliseconds since the epoch. -/
abbrev Instant := ℤ

def msPerDay : ℤ := 86400000

def inLeapYear (y : ℤ) : Bool := y % 4 = 0 && (y % 100 ≠ 0 || y % 400 = 0)

/-- The number of the first day of a year. -/
def dayFromYear (y : ℤ) : ℤ :=
  365 * (y - 1970) + (y - 1969) / 4 - (y - 1901) / 100 + (y - 1601) / 400

/-- The year a day is in: the average length of a year gives it up to one. -/
def yearFromDay (day : ℤ) : ℤ :=
  let y := 1970 + 400 * day / 146097
  if day < dayFromYear y then y - 1 else if dayFromYear (y + 1) ≤ day then y + 1 else y

/-- The day of the year a month begins on, by the month's number from zero. -/
def monthStart (leap : Bool) : ℕ → ℤ
  | 0 => 0
  | 1 => 31
  | 2 => 59 + leap.toNat
  | 3 => 90 + leap.toNat
  | 4 => 120 + leap.toNat
  | 5 => 151 + leap.toNat
  | 6 => 181 + leap.toNat
  | 7 => 212 + leap.toNat
  | 8 => 243 + leap.toNat
  | 9 => 273 + leap.toNat
  | 10 => 304 + leap.toNat
  | 11 => 334 + leap.toNat
  | _ => 365 + leap.toNat

/-- The last of the first `n` months to begin no later than this day of the year. -/
def lastMonthFrom (leap : Bool) (day : ℤ) : ℕ → ℕ
  | 0 => 0
  | n + 1 => if monthStart leap n ≤ day then n else lastMonthFrom leap day n

/-- The month of a day of the year. -/
def monthFromDay (leap : Bool) (day : ℤ) : ℕ := lastMonthFrom leap day 12

/-- A date and a time of day, months and dates from one. -/
structure Civil where
  year : ℤ
  month : ℕ
  day : ℕ
  hour : ℕ
  minute : ℕ
  second : ℕ
  millisecond : ℕ
deriving DecidableEq

def civilOf (t : Instant) : Civil :=
  let day := t / msPerDay
  let time := (t % msPerDay).toNat
  let year := yearFromDay day
  let dayInYear := day - dayFromYear year
  let month := monthFromDay (inLeapYear year) dayInYear
  { year
    month := month + 1
    day := (dayInYear - monthStart (inLeapYear year) month).toNat + 1
    hour := time / 3600000
    minute := time / 60000 % 60
    second := time / 1000 % 60
    millisecond := time % 1000 }

/-- The last `width` digits of a number. -/
def padded : ℕ → ℕ → Text
  | 0, _ => []
  | width + 1, n => padded width (n / 10) ++ [digitUnit (n % 10)]

/-- Four digits for the years they can name, else a sign and six. -/
def yearText (y : ℤ) : Text :=
  if 0 ≤ y ∧ y ≤ 9999 then padded 4 y.toNat
  else (if y < 0 then text "-" else text "+") ++ padded 6 y.natAbs

def Civil.iso (c : Civil) : Text :=
  yearText c.year ++ text "-" ++ padded 2 c.month ++ text "-" ++ padded 2 c.day ++ text "T"
    ++ padded 2 c.hour ++ text ":" ++ padded 2 c.minute ++ text ":" ++ padded 2 c.second ++ text "."
    ++ padded 3 c.millisecond ++ text "Z"

def toISOString (t : Instant) : Text := (civilOf t).iso

/-! ### The calendar -/

lemma dayFromYear_succ (y : ℤ) :
    dayFromYear (y + 1) = dayFromYear y + 365 + (inLeapYear y).toNat := by
  unfold dayFromYear inLeapYear
  by_cases h4 : y % 4 = 0
  · by_cases h100 : y % 100 = 0
    · by_cases h400 : y % 400 = 0
      · simp [h4, h100, h400]
        omega
      · simp [h4, h100, h400]
        omega
    · simp [h4, h100]
      omega
  · simp [h4]
    omega

lemma dayFromYear_yearFromDay (day : ℤ) :
    dayFromYear (yearFromDay day) ≤ day ∧ day < dayFromYear (yearFromDay day + 1) := by
  unfold yearFromDay
  dsimp only
  have hlow : dayFromYear (1970 + 400 * day / 146097 - 1) ≤ day := by
    unfold dayFromYear
    omega
  have hhigh : day < dayFromYear (1970 + 400 * day / 146097 + 1 + 1) := by
    unfold dayFromYear
    omega
  split_ifs with hlt hle
  · exact ⟨hlow, by rwa [sub_add_cancel]⟩
  · exact ⟨hle, hhigh⟩
  · exact ⟨not_lt.mp hlt, not_le.mp hle⟩

end Junjo.IsoDate
