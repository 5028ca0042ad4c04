import Junjo.Core.Ascii
import Junjo.Core.ConstantTime
import Junjo.Cpp.HmacSha256Correct
import Junjo.Cpp.Webhooks

/-!
# What the C++ SDK accepts as a delivery

The timestamps that are accepted are the dates of the calendar with a time of day and an offset, and
each is read as the instant that it names.
-/

namespace Junjo.Cpp

open IsoDate (Civil Instant InRange civilOf dayFromYear inLeapYear monthStart padded toISOString)
open Utf8 (Byte IsAscii asciiBytes asciiBytes_append encodeText_cons_ascii isAscii_append
  isAscii_nil isAscii_text)

/-! ### Digits -/

/-- The last `width` digits of a number, in bytes. -/
def paddedBytes (width n : ℕ) : List Byte := asciiBytes (padded width n)

def digitByte (d : ℕ) : Byte := BitVec.ofNat 8 (48 + d)

lemma toNat_digitByte {d : ℕ} (h : d < 10) : (digitByte d).toNat = 48 + d := by
  rw [digitByte, BitVec.toNat_ofNat]
  omega

lemma isDigit_iff {b : Byte} : isDigit b = true ↔ ∃ d < 10, b = digitByte d := by
  simp only [isDigit, Bool.and_eq_true, decide_eq_true_eq]
  constructor
  · rintro ⟨hlow, hhigh⟩
    refine ⟨b.toNat - 48, by omega, ?_⟩
    apply BitVec.eq_of_toNat_eq
    rw [toNat_digitByte (by omega)]
    omega
  · rintro ⟨d, hd, rfl⟩
    rw [toNat_digitByte hd]
    omega

lemma paddedBytes_succ (width n : ℕ) :
    paddedBytes (width + 1) n = paddedBytes width (n / 10) ++ [digitByte (n % 10)] := by
  have hdigit : n % 10 < 10 := Nat.mod_lt n (by omega)
  rw [paddedBytes, padded, asciiBytes_append]
  congr 1
  rw [asciiBytes, List.map_singleton, digitUnit_val hdigit, digitByte]

/-- The first digit and the others. -/
lemma paddedBytes_cons {width n : ℕ} (h : n < 10 ^ (width + 1)) :
    paddedBytes (width + 1) n
      = digitByte (n / 10 ^ width) :: paddedBytes width (n % 10 ^ width) := by
  induction width generalizing n with
  | zero =>
    rw [paddedBytes_succ, Nat.mod_eq_of_lt (by omega)]
    simp [paddedBytes, padded, asciiBytes]
  | succ width ih =>
    have hdiv : n / 10 < 10 ^ (width + 1) := by
      rw [Nat.pow_succ] at h
      omega
    have hfirst : n / 10 / 10 ^ width = n / 10 ^ (width + 1) := by
      rw [Nat.div_div_eq_div_mul, Nat.pow_succ']
    have hothers : n / 10 % 10 ^ width = n % 10 ^ (width + 1) / 10 := by
      rw [Nat.pow_succ', Nat.mod_mul_right_div_self]
    have hlast : n % 10 = n % 10 ^ (width + 1) % 10 := by
      rw [Nat.pow_succ', Nat.mod_mul_right_mod]
    rw [paddedBytes_succ, ih hdiv, hfirst, hothers, hlast, List.cons_append, ← paddedBytes_succ]

lemma readDigits_eq_some_iff {count value n : ℕ} {s rest : List Byte} :
    readDigits count value s = some (n, rest) ↔
      ∃ k < 10 ^ count, n = value * 10 ^ count + k ∧ s = paddedBytes count k ++ rest := by
  induction count generalizing value s with
  | zero =>
    rw [readDigits, Option.some.injEq, Prod.mk.injEq]
    constructor
    · rintro ⟨rfl, rfl⟩
      exact ⟨0, by omega, by omega, rfl⟩
    · rintro ⟨k, hk, rfl, rfl⟩
      exact ⟨by omega, rfl⟩
  | succ count ih =>
    have hpos : 0 < 10 ^ count := Nat.pow_pos (by omega)
    cases s with
    | nil =>
      simp only [readDigits, reduceCtorEq, false_iff]
      rintro ⟨k, hk, -, hs⟩
      rw [paddedBytes_cons hk] at hs
      cases hs
    | cons b s =>
      rw [readDigits]
      split_ifs with hb
      · obtain ⟨d, hd, rfl⟩ := isDigit_iff.mp hb
        rw [ih, toNat_digitByte hd, Nat.add_sub_cancel_left]
        constructor
        · rintro ⟨k, hk, rfl, rfl⟩
          have hlt : d * 10 ^ count + k < 10 ^ (count + 1) := by
            rw [Nat.pow_succ]
            nlinarith
          refine ⟨d * 10 ^ count + k, hlt, by ring, ?_⟩
          rw [paddedBytes_cons hlt, Nat.mul_comm d, Nat.mul_add_div hpos, Nat.mul_add_mod,
            Nat.div_eq_of_lt hk, Nat.mod_eq_of_lt hk, Nat.add_zero, List.cons_append]
        · rintro ⟨k, hk, rfl, hs⟩
          rw [paddedBytes_cons hk, List.cons_append, List.cons.injEq] at hs
          have hfirst : k / 10 ^ count < 10 := by
            rw [Nat.div_lt_iff_lt_mul hpos, ← Nat.pow_succ']
            exact hk
          have hd' : d = k / 10 ^ count := by
            have hnat := congrArg BitVec.toNat hs.1
            rw [toNat_digitByte hd, toNat_digitByte hfirst] at hnat
            omega
          refine ⟨k % 10 ^ count, Nat.mod_lt k hpos, ?_, hs.2⟩
          have hk' := Nat.div_add_mod k (10 ^ count)
          rw [hd', Nat.add_mul, Nat.mul_assoc, ← Nat.pow_succ', Nat.add_assoc,
            Nat.mul_comm (k / 10 ^ count), hk']
      · simp only [false_iff]
        rintro ⟨k, hk, -, hs⟩
        rw [paddedBytes_cons hk, List.cons_append, List.cons.injEq] at hs
        refine hb (isDigit_iff.mpr ⟨k / 10 ^ count, ?_, hs.1⟩)
        rw [Nat.div_lt_iff_lt_mul hpos, ← Nat.pow_succ']
        exact hk

lemma readDigits_eq_some {count n : ℕ} {s rest : List Byte} :
    readDigits count 0 s = some (n, rest) ↔ n < 10 ^ count ∧ s = paddedBytes count n ++ rest := by
  rw [readDigits_eq_some_iff]
  constructor
  · rintro ⟨k, hk, rfl, rfl⟩
    rw [Nat.zero_mul, Nat.zero_add]
    exact ⟨hk, rfl⟩
  · rintro ⟨hn, hs⟩
    exact ⟨n, hn, by omega, hs⟩

lemma readOneOf_eq_some {allowed s rest : List Byte} :
    readOneOf allowed s = some rest ↔ ∃ b ∈ allowed, s = b :: rest := by
  cases s with
  | nil => simp [readOneOf]
  | cons b s =>
    rw [readOneOf]
    split_ifs with hb
    · rw [Option.some.injEq]
      constructor
      · rintro rfl
        exact ⟨b, hb, rfl⟩
      · rintro ⟨b', -, hs⟩
        exact (List.cons.inj hs).2
    · simp only [false_iff]
      rintro ⟨b', hb', hs⟩
      exact hb ((List.cons.inj hs).1 ▸ hb')

lemma exists_paddedBytes {s : List Byte} (h : ∀ b ∈ s, isDigit b = true) :
    ∃ n < 10 ^ s.length, s = paddedBytes s.length n := by
  induction s with
  | nil => exact ⟨0, by simp, rfl⟩
  | cons b s ih =>
    obtain ⟨d, hd, rfl⟩ := isDigit_iff.mp (h b List.mem_cons_self)
    obtain ⟨n, hn, hs⟩ := ih fun b' hb' => h b' (List.mem_cons_of_mem _ hb')
    have hpos : 0 < 10 ^ s.length := Nat.pow_pos (by omega)
    have hlt : d * 10 ^ s.length + n < 10 ^ (s.length + 1) := by
      rw [Nat.pow_succ]
      nlinarith
    refine ⟨d * 10 ^ s.length + n, by simpa using hlt, ?_⟩
    rw [List.length_cons, paddedBytes_cons hlt, Nat.mul_comm d, Nat.mul_add_div hpos,
      Nat.mul_add_mod, Nat.div_eq_of_lt hn, Nat.mod_eq_of_lt hn, Nat.add_zero, ← hs]

/-! ### Fractions and offsets -/

/-- The digits are counted, and the first three make the milliseconds. -/
lemma readFraction_paddedBytes {width n : ℕ} (hn : n < 10 ^ width) {rest : List Byte}
    (hrest : ∀ b ∈ rest.head?, isDigit b = false) (k m : ℕ) :
    readFraction k m (paddedBytes width n ++ rest)
      = (k + width, m * 10 ^ min width (3 - k) + n / 10 ^ (width - (3 - k)), rest) := by
  induction width generalizing n k m with
  | zero =>
    obtain rfl : n = 0 := by omega
    cases rest with
    | nil => simp [paddedBytes, padded, asciiBytes, readFraction]
    | cons b rest => simp [paddedBytes, padded, asciiBytes, readFraction, hrest b rfl]
  | succ width ih =>
    have hpos : 0 < 10 ^ width := Nat.pow_pos (by omega)
    have hmod : n % 10 ^ width < 10 ^ width := Nat.mod_lt n hpos
    have hfirst : n / 10 ^ width < 10 := by
      rw [Nat.div_lt_iff_lt_mul hpos, ← Nat.pow_succ']
      exact hn
    have hdigit : isDigit (digitByte (n / 10 ^ width)) = true := isDigit_iff.mpr ⟨_, hfirst, rfl⟩
    rw [paddedBytes_cons hn, List.cons_append, readFraction, if_pos hdigit, ih hmod,
      toNat_digitByte hfirst, Nat.add_sub_cancel_left]
    refine Prod.ext (by simp only; omega) (Prod.ext ?_ rfl)
    dsimp only
    by_cases hk : k < 3
    · -- The first digit is one of those that count.
      have hmin : min (width + 1) (3 - k) = min width (3 - (k + 1)) + 1 := by omega
      have hsub : width + 1 - (3 - k) = width - (3 - (k + 1)) := by omega
      have hsplit : width = min width (3 - (k + 1)) + (width - (3 - (k + 1))) := by omega
      rw [if_pos hk, hmin, hsub]
      generalize min width (3 - (k + 1)) = i at hsplit ⊢
      generalize width - (3 - (k + 1)) = j at hsplit ⊢
      have hcut : n / 10 ^ j = n / 10 ^ width * 10 ^ i + n % 10 ^ width / 10 ^ j := by
        have hdecomp := Nat.div_add_mod n (10 ^ width)
        conv_lhs => rw [← hdecomp, hsplit, Nat.pow_add, Nat.mul_comm (10 ^ i), Nat.mul_assoc,
          Nat.mul_add_div (Nat.pow_pos (by omega)), ← Nat.pow_add, Nat.add_comm j, ← hsplit]
        rw [Nat.mul_comm (10 ^ i)]
      rw [hcut, Nat.pow_succ]
      ring
    · have hzero : 3 - (k + 1) = 0 := by omega
      have hzero' : 3 - k = 0 := by omega
      rw [if_neg hk, hzero, hzero', Nat.sub_zero, Nat.sub_zero, Nat.div_eq_of_lt hmod,
        Nat.div_eq_of_lt hn, Nat.min_zero, Nat.min_zero]

/-- A fraction of a second, cut off after the milliseconds. -/
inductive FractionText : List Byte → ℕ → Prop
  | absent : FractionText [] 0
  | digits {width n : ℕ} (hwidth : 1 ≤ width ∧ width ≤ 9) (hn : n < 10 ^ width) :
      FractionText (46 :: paddedBytes width n) (1000 * n / 10 ^ width)

/-- An offset from UTC, in minutes. -/
inductive ZoneText : List Byte → ℤ → Prop
  | utc {b : Byte} (hb : b ∈ ascii "Zz") : ZoneText [b] 0
  | ahead {hours minutes : ℕ} (hhours : hours ≤ 23) (hminutes : minutes ≤ 59) :
      ZoneText (43 :: (paddedBytes 2 hours ++ 58 :: paddedBytes 2 minutes))
        ((hours * 60 + minutes : ℕ) : ℤ)
  | behind {hours minutes : ℕ} (hhours : hours ≤ 23) (hminutes : minutes ≤ 59) :
      ZoneText (45 :: (paddedBytes 2 hours ++ 58 :: paddedBytes 2 minutes))
        (-((hours * 60 + minutes : ℕ) : ℤ))

lemma milliseconds_eq {width n : ℕ} (h : 1 ≤ width ∧ width ≤ 9) :
    n / 10 ^ (width - 3) * 10 ^ (3 - width) = 1000 * n / 10 ^ width := by
  obtain ⟨hlow, hhigh⟩ := h
  interval_cases width <;> norm_num <;> omega

lemma readMilliseconds_eq_some {s rest : List Byte} {milliseconds : ℕ}
    (hrest : ∀ b ∈ rest.head?, isDigit b = false ∧ b ≠ 46) :
    readMilliseconds s = some (milliseconds, rest) ↔
      ∃ fraction, FractionText fraction milliseconds ∧ s = fraction ++ rest := by
  constructor
  · intro h
    cases s with
    | nil =>
      obtain ⟨rfl, rfl⟩ := Prod.mk.inj (Option.some.inj h)
      exact ⟨[], .absent, rfl⟩
    | cons b s =>
      rw [readMilliseconds] at h
      split_ifs at h with hb
      · have hdigits := exists_paddedBytes (s := s.takeWhile isDigit) fun b hb =>
          (List.mem_takeWhile_imp hb)
        obtain ⟨n, hn, hs⟩ := hdigits
        have hstop : ∀ b ∈ (s.dropWhile isDigit).head?, isDigit b = false := by
          intro b hb
          have := List.head?_dropWhile_not isDigit s
          rw [Option.mem_def] at hb
          rw [hb] at this
          simpa using this
        have hread := readFraction_paddedBytes hn hstop 0 0
        rw [← hs, List.takeWhile_append_dropWhile] at hread
        rw [hread] at h
        dsimp only at h
        split_ifs at h with hwidth
        rw [Nat.zero_add, Nat.zero_mul, Nat.zero_add, Nat.sub_zero] at h
        obtain ⟨rfl, rfl⟩ := Prod.mk.inj (Option.some.inj h)
        have hwidth' : 1 ≤ (s.takeWhile isDigit).length ∧ (s.takeWhile isDigit).length ≤ 9 := by
          omega
        refine ⟨46 :: paddedBytes (s.takeWhile isDigit).length n, ?_, ?_⟩
        · rw [milliseconds_eq hwidth']
          exact .digits hwidth' hn
        · rw [hb, ← hs, List.cons_append, List.takeWhile_append_dropWhile]
      · obtain ⟨rfl, rfl⟩ := Prod.mk.inj (Option.some.inj h)
        exact ⟨[], .absent, rfl⟩
  · rintro ⟨fraction, hfraction, rfl⟩
    cases hfraction with
    | absent =>
      cases rest with
      | nil => rfl
      | cons b rest =>
        rw [List.nil_append, readMilliseconds, if_neg (hrest b rfl).2]
    | @digits width n hwidth hn =>
      have hread := readFraction_paddedBytes hn (fun b hb => (hrest b hb).1) 0 0
      rw [List.cons_append, readMilliseconds, if_pos rfl, hread]
      dsimp only
      rw [if_neg (by omega), Nat.zero_mul, Nat.zero_add, Nat.zero_add, Nat.sub_zero,
        milliseconds_eq hwidth]

lemma ascii_zone : ascii "Zz" = [90, 122] := by decide

lemma ascii_colon : ascii ":" = [58] := by decide

lemma ascii_dash : ascii "-" = [45] := by decide

lemma ZoneText.head {s : List Byte} {offset : ℤ} (h : ZoneText s offset) :
    ∀ b ∈ s.head?, isDigit b = false ∧ b ≠ 46 := by
  cases h with
  | utc hb =>
    rw [ascii_zone] at hb
    intro c hc
    obtain rfl := Option.some.inj hc
    simp only [List.mem_cons, List.not_mem_nil, or_false] at hb
    rcases hb with rfl | rfl <;> decide
  | ahead hhours hminutes =>
    intro c hc
    obtain rfl := Option.some.inj hc
    decide
  | behind hhours hminutes =>
    intro c hc
    obtain rfl := Option.some.inj hc
    decide

lemma readOffset_of_zoneText {s : List Byte} {offset : ℤ} (h : ZoneText s offset) :
    readOffset s = some (offset, []) := by
  cases h with
  | utc hb =>
    rw [ascii_zone] at hb
    simp only [List.mem_cons, List.not_mem_nil, or_false] at hb
    rw [readOffset, if_pos hb]
  | ahead hhours hminutes =>
    rw [readOffset, if_neg (by decide), if_pos (by decide)]
    refine Option.bind_eq_some_iff.mpr ⟨_, readDigits_eq_some.mpr ⟨by omega, rfl⟩, ?_⟩
    refine Option.bind_eq_some_iff.mpr
      ⟨_, readOneOf_eq_some.mpr ⟨58, by decide, rfl⟩, ?_⟩
    refine Option.bind_eq_some_iff.mpr
      ⟨_, readDigits_eq_some.mpr ⟨by omega, (List.append_nil _).symm⟩, ?_⟩
    dsimp only
    rw [if_neg (by omega), if_neg (by decide)]
  | behind hhours hminutes =>
    rw [readOffset, if_neg (by decide), if_pos (by decide)]
    refine Option.bind_eq_some_iff.mpr ⟨_, readDigits_eq_some.mpr ⟨by omega, rfl⟩, ?_⟩
    refine Option.bind_eq_some_iff.mpr
      ⟨_, readOneOf_eq_some.mpr ⟨58, by decide, rfl⟩, ?_⟩
    refine Option.bind_eq_some_iff.mpr
      ⟨_, readDigits_eq_some.mpr ⟨by omega, (List.append_nil _).symm⟩, ?_⟩
    dsimp only
    rw [if_neg (by omega), if_pos rfl]

lemma readOffset_eq_some {s : List Byte} {offset : ℤ} :
    readOffset s = some (offset, []) ↔ ZoneText s offset := by
  refine ⟨fun h => ?_, readOffset_of_zoneText⟩
  cases s with
  | nil => cases h
  | cons b s =>
    rw [readOffset] at h
    by_cases hz : b = 90 ∨ b = 122
    · rw [if_pos hz] at h
      obtain ⟨rfl, rfl⟩ := Prod.mk.inj (Option.some.inj h)
      refine .utc ?_
      rw [ascii_zone]
      simpa using hz
    rw [if_neg hz] at h
    by_cases hsign : b = 43 ∨ b = 45
    · rw [if_pos hsign] at h
      obtain ⟨⟨hours, s₁⟩, hhours, h₁⟩ := Option.bind_eq_some_iff.mp h
      obtain ⟨s₂, hcolon, h₂⟩ := Option.bind_eq_some_iff.mp h₁
      obtain ⟨⟨minutes, s₃⟩, hminutes, h₃⟩ := Option.bind_eq_some_iff.mp h₂
      dsimp only at h₃ hhours hcolon hminutes
      obtain ⟨-, rfl⟩ := readDigits_eq_some.mp hhours
      obtain ⟨-, rfl⟩ := readDigits_eq_some.mp hminutes
      obtain ⟨c, hc, rfl⟩ := readOneOf_eq_some.mp hcolon
      rw [ascii_colon, List.mem_singleton] at hc
      subst hc
      by_cases hrange : 23 < hours ∨ 59 < minutes
      · rw [if_pos hrange] at h₃
        cases h₃
      · rw [if_neg hrange] at h₃
        obtain ⟨hoffset, rfl⟩ := Prod.mk.inj (Option.some.inj h₃)
        rw [List.append_nil]
        rcases hsign with rfl | rfl
        · rw [if_neg (by decide)] at hoffset
          exact hoffset ▸ .ahead (by omega) (by omega)
        · rw [if_pos rfl] at hoffset
          exact hoffset ▸ .behind (by omega) (by omega)
    · rw [if_neg hsign] at h
      cases h

/-! ### Dates -/

/-- The days of a month of the calendar. -/
def monthDays (leap : Bool) (month : ℕ) : ℤ := monthStart leap month - monthStart leap (month - 1)

lemma isLeapYear_eq (year : ℕ) : isLeapYear year = inLeapYear year := by
  rw [Bool.eq_iff_iff]
  simp only [isLeapYear, inLeapYear, Bool.and_eq_true, Bool.or_eq_true, decide_eq_true_eq]
  omega

lemma daysInMonth_eq (year : ℕ) {month : ℕ} (h : 1 ≤ month ∧ month ≤ 12) :
    (daysInMonth year month : ℤ) = monthDays (inLeapYear year) month := by
  rw [daysInMonth, isLeapYear_eq, monthDays]
  obtain ⟨hlow, hhigh⟩ := h
  generalize inLeapYear year = leap
  cases leap <;> interval_cases month <;> decide

lemma tdiv_era (y : ℤ) : (if 0 ≤ y then y else y - 399).tdiv 400 = y / 400 := by
  split_ifs with h
  · exact Int.tdiv_eq_ediv_of_nonneg h
  · have hneg : y - 399 = -(399 - y) := by ring
    rw [hneg, Int.neg_tdiv, Int.tdiv_eq_ediv_of_nonneg (by omega)]
    omega

/-- The days before a date are those before its year, its month and itself. -/
lemma daysFromCivil_eq (year : ℤ) {month : ℕ} (h : 1 ≤ month ∧ month ≤ 12) (day : ℤ) :
    daysFromCivil year month day
      = dayFromYear year + monthStart (inLeapYear year) (month - 1) + (day - 1) := by
  have hmod : ∀ y : ℤ, y - y / 400 * 400 = y % 400 := fun y => by omega
  rw [daysFromCivil, tdiv_era, hmod, Int.tdiv_eq_ediv_of_nonneg (by omega),
    Int.tdiv_eq_ediv_of_nonneg (by omega),
    Int.tdiv_eq_ediv_of_nonneg (by split_ifs <;> omega), dayFromYear]
  have hleap : ((inLeapYear year).toNat : ℤ)
      = if year % 4 = 0 ∧ (year % 100 ≠ 0 ∨ year % 400 = 0) then 1 else 0 := by
    rw [inLeapYear]
    split_ifs with hy
    · have hleap : (year % 4 = 0 && (year % 100 ≠ 0 || year % 400 = 0)) = true := by simpa using hy
      rw [hleap]
      rfl
    · have hleap : (year % 4 = 0 && (year % 100 ≠ 0 || year % 400 = 0)) = false := by
        rw [← Bool.not_eq_true]
        simpa using hy
      rw [hleap]
      rfl
  obtain ⟨hlow, hhigh⟩ := h
  interval_cases month <;> simp only [monthStart, hleap] <;> norm_num <;> omega

/-- A date of the calendar and a time of day, by a clock that is ahead of UTC by the offset. -/
structure Moment where
  civil : Civil
  separator : Byte
  fraction : List Byte
  zone : List Byte
  offset : ℤ

/-- The text of a moment, as it is written. -/
def Moment.text (m : Moment) : List Byte :=
  paddedBytes 4 m.civil.year.toNat ++ 45 :: (paddedBytes 2 m.civil.month
    ++ 45 :: (paddedBytes 2 m.civil.day ++ m.separator :: (paddedBytes 2 m.civil.hour
      ++ 58 :: (paddedBytes 2 m.civil.minute ++ 58 :: (paddedBytes 2 m.civil.second
        ++ (m.fraction ++ m.zone))))))

def Moment.instant (m : Moment) : Instant := m.civil.instant - m.offset * 60000

/-- A date that the calendar has, and a time that a clock shows. -/
structure Moment.Valid (m : Moment) : Prop where
  year : 0 ≤ m.civil.year ∧ m.civil.year ≤ 9999
  month : 1 ≤ m.civil.month ∧ m.civil.month ≤ 12
  day : 1 ≤ m.civil.day ∧ (m.civil.day : ℤ) ≤ monthDays (inLeapYear m.civil.year) m.civil.month
  hour : m.civil.hour ≤ 23
  minute : m.civil.minute ≤ 59
  second : m.civil.second ≤ 59
  separator : m.separator ∈ ascii "Tt"
  fraction : FractionText m.fraction m.civil.millisecond
  zone : ZoneText m.zone m.offset

lemma monthDays_le (leap : Bool) {month : ℕ} (h : 1 ≤ month ∧ month ≤ 12) :
    monthDays leap month ≤ 31 := by
  obtain ⟨hlow, hhigh⟩ := h
  cases leap <;> interval_cases month <;> decide

lemma utc_eq {m : Moment} (hyear : 0 ≤ m.civil.year)
    (hmonth : 1 ≤ m.civil.month ∧ m.civil.month ≤ 12)
    (hday : 1 ≤ m.civil.day) :
    (daysFromCivil m.civil.year.toNat m.civil.month m.civil.day * 86400 + m.civil.hour * 3600
        + m.civil.minute * 60 + m.civil.second - m.offset * 60) * 1000 + m.civil.millisecond
      = m.instant := by
  have hcast : ((m.civil.day - 1 : ℕ) : ℤ) = (m.civil.day : ℤ) - 1 := by omega
  rw [daysFromCivil_eq _ hmonth, Int.toNat_of_nonneg hyear, Moment.instant, Civil.instant,
    IsoDate.msPerDay, hcast]
  push_cast
  ring

/-- Exactly the moments are read, each as its instant. -/
lemma parseIso8601Ms_eq_some {s : List Byte} {t : ℤ} :
    parseIso8601Ms s = some t ↔ ∃ m : Moment, m.Valid ∧ s = m.text ∧ t = m.instant := by
  constructor
  · intro h
    obtain ⟨⟨year, s₁⟩, hyear, h⟩ := Option.bind_eq_some_iff.mp h
    obtain ⟨s₂, hdash, h⟩ := Option.bind_eq_some_iff.mp h
    obtain ⟨⟨month, s₃⟩, hmonth, h⟩ := Option.bind_eq_some_iff.mp h
    obtain ⟨s₄, hdash', h⟩ := Option.bind_eq_some_iff.mp h
    obtain ⟨⟨day, s₅⟩, hday, h⟩ := Option.bind_eq_some_iff.mp h
    obtain ⟨s₆, hseparator, h⟩ := Option.bind_eq_some_iff.mp h
    obtain ⟨⟨hour, s₇⟩, hhour, h⟩ := Option.bind_eq_some_iff.mp h
    obtain ⟨s₈, hcolon, h⟩ := Option.bind_eq_some_iff.mp h
    obtain ⟨⟨minute, s₉⟩, hminute, h⟩ := Option.bind_eq_some_iff.mp h
    obtain ⟨s₁₀, hcolon', h⟩ := Option.bind_eq_some_iff.mp h
    obtain ⟨⟨second, s₁₁⟩, hsecond, h⟩ := Option.bind_eq_some_iff.mp h
    obtain ⟨⟨milliseconds, s₁₂⟩, hfraction, h⟩ := Option.bind_eq_some_iff.mp h
    obtain ⟨⟨offset, s₁₃⟩, hoffset, hend⟩ := Option.bind_eq_some_iff.mp h
    dsimp only at hend
    simp only [Option.ite_none_left_eq_some] at hend
    obtain ⟨hs, hmonths, hdays, htimes, hend⟩ := hend
    obtain rfl := not_not.mp hs
    have hzone := readOffset_eq_some.mp hoffset
    obtain ⟨fraction, hfractionText, rfl⟩ := (readMilliseconds_eq_some hzone.head).mp hfraction
    obtain ⟨hyear, rfl⟩ := readDigits_eq_some.mp hyear
    obtain ⟨-, rfl⟩ := readDigits_eq_some.mp hmonth
    obtain ⟨-, rfl⟩ := readDigits_eq_some.mp hday
    obtain ⟨-, rfl⟩ := readDigits_eq_some.mp hhour
    obtain ⟨-, rfl⟩ := readDigits_eq_some.mp hminute
    obtain ⟨-, rfl⟩ := readDigits_eq_some.mp hsecond
    obtain ⟨b₁, hb₁, rfl⟩ := readOneOf_eq_some.mp hdash
    obtain ⟨b₂, hb₂, rfl⟩ := readOneOf_eq_some.mp hdash'
    obtain ⟨separator, hmem, rfl⟩ := readOneOf_eq_some.mp hseparator
    obtain ⟨b₃, hb₃, rfl⟩ := readOneOf_eq_some.mp hcolon
    obtain ⟨b₄, hb₄, rfl⟩ := readOneOf_eq_some.mp hcolon'
    rw [ascii_dash, List.mem_singleton] at hb₁ hb₂
    rw [ascii_colon, List.mem_singleton] at hb₃ hb₄
    subst hb₁ hb₂ hb₃ hb₄
    have hmonth : 1 ≤ month ∧ month ≤ 12 := by omega
    have hdays' := daysInMonth_eq year hmonth
    let m : Moment :=
      { civil := ⟨year, month, day, hour, minute, second, milliseconds⟩
        separator, fraction, zone := s₁₂, offset }
    have hvalid : m.Valid :=
      { year := by dsimp only [m]; omega
        month := hmonth
        day := by dsimp only [m]; omega
        hour := by dsimp only [m]; omega
        minute := by dsimp only [m]; omega
        second := by dsimp only [m]; omega
        separator := hmem
        fraction := hfractionText
        zone := hzone }
    refine ⟨m, hvalid, rfl, ?_⟩
    rw [← utc_eq hvalid.year.1 hmonth hvalid.day.1]
    exact (Option.some.inj hend).symm
  · rintro ⟨m, hvalid, rfl, rfl⟩
    have hshort := monthDays_le (inLeapYear m.civil.year) hvalid.month
    have hdays := daysInMonth_eq m.civil.year.toNat hvalid.month
    obtain ⟨hyear, hyear'⟩ := hvalid.year
    obtain ⟨hmonth, hmonth'⟩ := hvalid.month
    obtain ⟨hday, hday'⟩ := hvalid.day
    rw [Int.toNat_of_nonneg hyear] at hdays
    rw [← utc_eq hyear ⟨hmonth, hmonth'⟩ hday]
    refine Option.bind_eq_some_iff.mpr ⟨_, readDigits_eq_some.mpr ⟨by omega, rfl⟩, ?_⟩
    refine Option.bind_eq_some_iff.mpr ⟨_, readOneOf_eq_some.mpr ⟨45, by decide, rfl⟩, ?_⟩
    refine Option.bind_eq_some_iff.mpr ⟨_, readDigits_eq_some.mpr ⟨by omega, rfl⟩, ?_⟩
    refine Option.bind_eq_some_iff.mpr ⟨_, readOneOf_eq_some.mpr ⟨45, by decide, rfl⟩, ?_⟩
    refine Option.bind_eq_some_iff.mpr ⟨_, readDigits_eq_some.mpr ⟨by omega, rfl⟩, ?_⟩
    refine Option.bind_eq_some_iff.mpr
      ⟨_, readOneOf_eq_some.mpr ⟨m.separator, hvalid.separator, rfl⟩, ?_⟩
    refine Option.bind_eq_some_iff.mpr
      ⟨_, readDigits_eq_some.mpr ⟨by have := hvalid.hour; omega, rfl⟩, ?_⟩
    refine Option.bind_eq_some_iff.mpr ⟨_, readOneOf_eq_some.mpr ⟨58, by decide, rfl⟩, ?_⟩
    refine Option.bind_eq_some_iff.mpr
      ⟨_, readDigits_eq_some.mpr ⟨by have := hvalid.minute; omega, rfl⟩, ?_⟩
    refine Option.bind_eq_some_iff.mpr ⟨_, readOneOf_eq_some.mpr ⟨58, by decide, rfl⟩, ?_⟩
    refine Option.bind_eq_some_iff.mpr
      ⟨_, readDigits_eq_some.mpr ⟨by have := hvalid.second; omega, rfl⟩, ?_⟩
    refine Option.bind_eq_some_iff.mpr
      ⟨_, (readMilliseconds_eq_some hvalid.zone.head).mpr ⟨_, hvalid.fraction, rfl⟩, ?_⟩
    refine Option.bind_eq_some_iff.mpr ⟨_, readOffset_eq_some.mpr hvalid.zone, ?_⟩
    dsimp only
    rw [if_neg (not_not.mpr rfl), if_neg (by omega), if_neg (by omega),
      if_neg (by have := hvalid.hour; have := hvalid.minute; have := hvalid.second; omega)]

/-! ### Dates of the server -/

lemma isAscii_padded (width n : ℕ) : IsAscii (padded width n) := by
  induction width generalizing n with
  | zero => exact isAscii_nil
  | succ width ih =>
    rw [padded]
    refine (ih _).append fun u hu => ?_
    rw [List.mem_singleton.mp hu, digitUnit_val (Nat.mod_lt n (by omega))]
    omega

lemma isAscii_yearText (y : ℤ) : IsAscii (IsoDate.yearText y) := by
  rw [IsoDate.yearText]
  split_ifs
  · exact isAscii_padded 4 _
  · exact (isAscii_text (by rfl)).append (isAscii_padded 6 _)
  · exact (isAscii_text (by rfl)).append (isAscii_padded 6 _)

lemma isAscii_iso (c : Civil) : IsAscii c.iso := by
  rw [Civil.iso]
  simp only [isAscii_append]
  repeat' apply And.intro
  all_goals
    first | exact isAscii_yearText _ | exact isAscii_padded _ _ | exact isAscii_text (by rfl)

lemma isAscii_toISOString (t : Instant) : IsAscii (toISOString t) := isAscii_iso (civilOf t)

/-- An instant in a year of four digits is written as the moment of its date in UTC. -/
lemma encodeText_toISOString {t : Instant}
    (hyear : 0 ≤ (civilOf t).year ∧ (civilOf t).year ≤ 9999) :
    Utf8.encodeText (toISOString t)
      = Moment.text ⟨civilOf t, 84, 46 :: paddedBytes 3 (civilOf t).millisecond, [90], 0⟩ := by
  rw [toISOString, Utf8.encodeText_ascii (isAscii_iso _), Civil.iso, IsoDate.yearText, if_pos hyear,
    Moment.text]
  simp only [asciiBytes_append, List.append_assoc]
  rfl

/-- The days of a date of the calendar are days of its month. -/
lemma civilOf_day (t : Instant) :
    1 ≤ (civilOf t).month ∧ (civilOf t).month ≤ 12 ∧ 1 ≤ (civilOf t).day ∧
      ((civilOf t).day : ℤ) ≤ monthDays (inLeapYear (civilOf t).year) (civilOf t).month := by
  obtain ⟨hfirst, hlast⟩ := IsoDate.dayFromYear_yearFromDay (t / IsoDate.msPerDay)
  rw [IsoDate.dayFromYear_succ] at hlast
  have hnonneg :
      0 ≤ t / IsoDate.msPerDay - dayFromYear (IsoDate.yearFromDay (t / IsoDate.msPerDay)) :=
    sub_nonneg.mpr hfirst
  have hyear : t / IsoDate.msPerDay - dayFromYear (IsoDate.yearFromDay (t / IsoDate.msPerDay))
      < 365 + (inLeapYear (IsoDate.yearFromDay (t / IsoDate.msPerDay))).toNat := by
    rw [sub_lt_iff_lt_add', ← add_assoc]
    exact hlast
  obtain ⟨hle, hlow, hnext⟩ := IsoDate.lastMonthFrom_spec
    (inLeapYear (IsoDate.yearFromDay (t / IsoDate.msPerDay))) hnonneg 12
  dsimp only [civilOf, monthDays, IsoDate.monthFromDay]
  rw [Nat.add_sub_cancel]
  refine ⟨by omega, by omega, by omega, ?_⟩
  generalize IsoDate.lastMonthFrom _ _ 12 = m at hle hlow hnext ⊢
  have hend : t / IsoDate.msPerDay - dayFromYear (IsoDate.yearFromDay (t / IsoDate.msPerDay))
      < monthStart (inLeapYear (IsoDate.yearFromDay (t / IsoDate.msPerDay))) (m + 1) := by
    rcases Nat.lt_or_ge (m + 1) 12 with hlt | hge
    · exact hnext hlt
    · rw [Nat.le_antisymm (show m + 1 ≤ 12 by omega) hge]
      exact hyear
  push_cast
  rw [Int.toNat_of_nonneg (by omega)]
  linarith [Int.add_one_le_of_lt hend]

lemma civilOf_time (t : Instant) :
    (civilOf t).hour ≤ 23 ∧ (civilOf t).minute ≤ 59 ∧ (civilOf t).second ≤ 59 ∧
      (civilOf t).millisecond < 1000 := by
  have hlt := Int.emod_lt_of_pos t (show 0 < IsoDate.msPerDay by decide)
  have hpos := Int.emod_nonneg t (show IsoDate.msPerDay ≠ 0 by decide)
  rw [IsoDate.msPerDay] at hlt hpos
  dsimp only [civilOf, IsoDate.msPerDay]
  refine ⟨?_, ?_, ?_, ?_⟩ <;> omega

/-- A date that the server writes is read as its instant, if its year has four digits. -/
lemma parseIso8601Ms_toISOString {t : Instant} (h : InRange t)
    (hyear : 0 ≤ (civilOf t).year ∧ (civilOf t).year ≤ 9999) :
    parseIso8601Ms (Utf8.encodeText (toISOString t)) = some t := by
  obtain ⟨hmonth, hmonth', hday, hday'⟩ := civilOf_day t
  obtain ⟨hhour, hminute, hsecond, hmillisecond⟩ := civilOf_time t
  rw [encodeText_toISOString hyear]
  refine parseIso8601Ms_eq_some.mpr ⟨_, ?_, rfl, ?_⟩
  · refine ⟨hyear, ⟨hmonth, hmonth'⟩, ⟨hday, hday'⟩, hhour, hminute, hsecond, ?_, ?_, ?_⟩
    · exact show (84 : Byte) ∈ ascii "Tt" by decide
    · have hfraction := FractionText.digits (show 1 ≤ 3 ∧ 3 ≤ 9 by decide)
        (show (civilOf t).millisecond < 10 ^ 3 from hmillisecond)
      rwa [show 1000 * (civilOf t).millisecond / 10 ^ 3 = (civilOf t).millisecond by omega]
        at hfraction
    · exact .utc (by decide)
  · rw [Moment.instant]
    dsimp only
    rw [(IsoDate.civilOf_spec h).2]
    ring

/-- Every date that the language can hold comes back from the text that the server signs, except the
dates whose years are written with a sign, which are refused. -/
theorem parseIso8601Ms_server {t : Instant} (h : InRange t) :
    parseIso8601Ms (Utf8.encodeText (toISOString t))
      = if 0 ≤ (civilOf t).year ∧ (civilOf t).year ≤ 9999 then some t else none := by
  split_ifs with hyear
  · exact parseIso8601Ms_toISOString h hyear
  · have hsign : ∃ u ∈ text "-+", ∃ s, toISOString t = u :: s := by
      rw [toISOString, Civil.iso, IsoDate.yearText, if_neg hyear]
      split_ifs
      · exact ⟨45, by decide, _, rfl⟩
      · exact ⟨43, by decide, _, rfl⟩
    obtain ⟨u, hu, s, hs⟩ := hsign
    have hu' : u = 45 ∨ u = 43 := by simpa [text] using hu
    rw [hs, encodeText_cons_ascii (by rcases hu' with rfl | rfl <;> decide), parseIso8601Ms,
      readDigits]
    rcases hu' with rfl | rfl <;> rfl

theorem parseIso8601Ms_server_epoch :
    parseIso8601Ms (Utf8.encodeText (toISOString 0)) = some 0 := by
  have h := parseIso8601Ms_server (t := 0) (by unfold InRange; decide)
  rwa [if_pos (by decide)] at h

/-! ### Signatures -/

lemma constantTimeEqual_iff (a b : List Byte) : constantTimeEqual a b = true ↔ a = b := by
  rw [constantTimeEqual]
  split_ifs with hlength
  · simp only [false_iff]
    rintro rfl
    exact hlength rfl
  · rw [decide_eq_true_eq]
    apply foldl_zip_eq_iff _ (not_not.mp hlength)
    exact fun d p =>
      BitVec.or_eq_zero_iff.trans (and_congr_right' BitVec.xor_eq_zero_iff)

lemma hmacSha256_eq (key message : List Byte) :
    hmacSha256 key message = Fips180.hmac Fips180.sha256 64 key message := by
  have h := outerDigest_eq key [message]
  rwa [List.flatten_singleton] at h

lemma skew_le_iff (now timestamp tolerance : ℤ) :
    (if timestamp ≤ now then now - timestamp else timestamp - now) ≤ tolerance
      ↔ |now - timestamp| ≤ tolerance := by
  split_ifs with h
  · rw [abs_of_nonneg (sub_nonneg.mpr h)]
  · rw [abs_of_neg (by omega), neg_sub]

lemma lt_skew_iff (now timestamp tolerance : ℤ) :
    (tolerance < if timestamp ≤ now then now - timestamp else timestamp - now)
      ↔ tolerance < |now - timestamp| := by
  rw [← not_le, skew_le_iff, not_le]

end Junjo.Cpp
