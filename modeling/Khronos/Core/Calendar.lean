import Khronos.Core.Time
import Mathlib.Order.Monotone.Basic

namespace Khronos.Time

/-- The days of the first years of an era. -/
def daysIn (years : Nat) : Nat := 365 * years + years / 4 - years / 100

/-- 365 times the years in the first days of an era, and a rest. -/
def yearsIn (days : Nat) : Nat := days - days / 1460 + days / 36524 - days / 146096

theorem yearsIn_mono : Monotone yearsIn := by
  apply monotone_nat_of_le_succ
  intro d
  unfold yearsIn
  have hquad : ∀ n : Nat, n / 146096 = n / 36524 / 4 := by omega
  have hfour : d / 1460 ≤ d := Nat.div_le_self d 1460
  have hnext : (d + 1) / 1460 ≤ d / 1460 + 1 := by omega
  rw [hquad, hquad]
  obtain h | h : (d + 1) / 36524 = d / 36524 ∨ (d + 1) / 36524 = d / 36524 + 1 := by omega
  · rw [h]
    omega
  · rw [h]
    omega

theorem yearsIn_ends : ∀ y < 400, 365 * y ≤ yearsIn (daysIn y) ∧
    (y < 399 → yearsIn (daysIn (y + 1) - 1) < 365 * (y + 1)) := by decide +kernel

/-- The year of an era that a day of it falls in. -/
theorem year_of_day (h : doe < 146097) (hy : y = yearsIn doe / 365) :
    y < 400 ∧ daysIn y ≤ doe ∧ (y < 399 → doe < daysIn (y + 1)) := by
  have hlt : y < 400 := by
    rw [hy]
    unfold yearsIn
    omega
  refine ⟨hlt, ?_, ?_⟩
  · by_contra hn
    have hpos : 0 < y := by
      apply Nat.pos_of_ne_zero
      rintro rfl
      exact hn (Nat.zero_le _)
    obtain ⟨_, hend⟩ := yearsIn_ends (y - 1) (by omega)
    rw [Nat.sub_add_cancel hpos] at hend
    have hle : yearsIn doe ≤ yearsIn (daysIn y - 1) := yearsIn_mono (by omega)
    have := hend (by omega)
    omega
  · intro hlast
    by_contra hn
    obtain ⟨hstart, _⟩ := yearsIn_ends (y + 1) (by omega)
    have hle : yearsIn (daysIn (y + 1)) ≤ yearsIn doe := yearsIn_mono (by omega)
    omega

/-- The day on which a year begins that begins in March. -/
def yearStart (y : Int) : Int := 365 * y + y / 4 - y / 100 + y / 400

/-- The date of a day of a year that begins in March. -/
def marchDate (y : Int) (doy : Nat) : Date :=
  let mp := (5 * doy + 2) / 153
  let month := if mp < 10 then mp + 3 else mp - 9
  ⟨y + (if month ≤ 2 then 1 else 0), month, doy - (153 * mp + 2) / 5 + 1⟩

theorem yearStart_era (era : Int) (k : Nat) :
    yearStart (era * 400 + k) = era * 146097 + daysIn k + (k / 400 : Nat) := by
  unfold yearStart daysIn
  omega

/-- The year and the day of the year that `civil` counts with. -/
theorem civil_march (n : Int) : ∃ (y : Int) (doy : Nat), n + epochDays = yearStart y + doy ∧
    yearStart y + doy < yearStart (y + 1) ∧ civil n = marchDate y doy := by
  have hdoe : ((n + epochDays) % 146097).toNat < 146097 := by omega
  obtain ⟨hlt, hle, hnext⟩ := year_of_day hdoe rfl
  refine ⟨(n + epochDays) / 146097 * 400 + (yearsIn ((n + epochDays) % 146097).toNat / 365 : Nat),
    ((n + epochDays) % 146097).toNat - daysIn (yearsIn ((n + epochDays) % 146097).toNat / 365),
    ?_, ?_, rfl⟩
  · rw [yearStart_era]
    omega
  · generalize yearsIn ((n + epochDays) % 146097).toNat / 365 = y at *
    have hyear := yearStart_era ((n + epochDays) / 146097) (y + 1)
    rw [Nat.cast_add, Nat.cast_one, ← add_assoc] at hyear
    rw [yearStart_era, hyear]
    rcases Nat.lt_or_ge y 399 with h | h
    · have := hnext h
      omega
    · obtain rfl : y = 399 := by omega
      have hera : daysIn (399 + 1) = 146096 := by decide
      omega

/-- One date is before another. -/
def Date.Before (d e : Date) : Prop :=
  d.year < e.year ∨ (d.year = e.year ∧
    (d.month < e.month ∨ (d.month = e.month ∧ d.day < e.day)))

theorem yearStart_mono (h : x ≤ y) : yearStart x ≤ yearStart y := by
  unfold yearStart
  omega

theorem yearStart_next (y : Int) : yearStart (y + 1) ≤ yearStart y + 366 := by
  unfold yearStart
  omega

/-- Later days have later dates. -/
theorem civil_before (h : m < n) : (civil m).Before (civil n) := by
  obtain ⟨x, i, hm, hi, hcm⟩ := civil_march m
  obtain ⟨y, j, hn, hj, hcn⟩ := civil_march n
  have hx := yearStart_next x
  have hy := yearStart_next y
  have hxy : x ≤ y := by
    by_contra hlt
    have := yearStart_mono (x := y + 1) (y := x) (by omega)
    omega
  rw [hcm, hcn]
  unfold marchDate Date.Before
  dsimp only
  rcases Int.lt_or_eq_of_le hxy with hlt | rfl
  · split_ifs <;> omega
  · have hij : i < j := by omega
    split_ifs <;> omega

theorem civil_range (n : Int) : 1 ≤ (civil n).month ∧ (civil n).month ≤ 12 ∧
    1 ≤ (civil n).day ∧ (civil n).day ≤ 31 := by
  obtain ⟨y, j, hn, hj, hcn⟩ := civil_march n
  have hy := yearStart_next y
  rw [hcn]
  unfold marchDate
  dsimp only
  split_ifs <;> omega

/-- `dayNumber` undoes `civil`. -/
theorem dayNumber_civil (n : Int) : dayNumber (civil n) = n := by
  obtain ⟨y, doy, hn, hlt, hciv⟩ := civil_march n
  have hyear := yearStart_next y
  have hera := yearStart_era (y / 400) (y % 400).toNat
  rw [show y / 400 * 400 + ((y % 400).toNat : Int) = y by omega] at hera
  have hback : (if (marchDate y doy).month ≤ 2 then (marchDate y doy).year - 1
      else (marchDate y doy).year) = y := by
    simp only [marchDate]
    split_ifs <;> omega
  have hmp : (if (marchDate y doy).month > 2 then (marchDate y doy).month - 3
      else (marchDate y doy).month + 9) = (5 * doy + 2) / 153 := by
    simp only [marchDate]
    split_ifs <;> omega
  have hday : (153 * ((5 * doy + 2) / 153) + 2) / 5 + (marchDate y doy).day - 1 = doy := by
    simp only [marchDate]
    omega
  rw [hciv]
  unfold dayNumber
  dsimp only
  rw [hmp, hday, hback]
  unfold daysIn at hera
  omega

theorem yearStart_leap (y : Int) :
    yearStart (y + 1) = yearStart y + (if leap (y + 1) then 366 else 365) := by
  unfold yearStart leap
  split_ifs with h
  · simp only [Bool.and_eq_true, Bool.or_eq_true, decide_eq_true_eq] at h
    omega
  · simp only [Bool.and_eq_true, Bool.or_eq_true, decide_eq_true_eq, not_and_or, not_or] at h
    omega

/-- A day falls within its month. -/
theorem civil_monthLength (n : Int) :
    (civil n).day ≤ monthLength (civil n).year (civil n).month := by
  obtain ⟨y, doy, hn, hlt, hciv⟩ := civil_march n
  rw [yearStart_leap] at hlt
  have hdoy : doy < 366 := by split_ifs at hlt <;> omega
  rw [hciv]
  rcases Nat.lt_or_ge ((5 * doy + 2) / 153) 11 with hmp | hmp
  · -- Only the last month of a year that begins in March depends on the year.
    have hends : ∀ mp < 11, ∀ year, (153 * (mp + 1) + 2) / 5 - (153 * mp + 2) / 5 ≤
        monthLength year (if mp < 10 then mp + 3 else mp - 9) := by
      intro mp hlt year
      have hmonth : ¬ (if mp < 10 then mp + 3 else mp - 9) = 2 := by split_ifs <;> omega
      rw [monthLength, if_neg hmonth]
      revert mp
      decide
    refine le_trans ?_ (hends _ hmp (marchDate y doy).year)
    simp only [marchDate]
    omega
  · have hlast : (5 * doy + 2) / 153 = 11 := by omega
    simp only [marchDate, hlast, monthLength]
    norm_num
    split_ifs at hlt ⊢ <;> omega

end Khronos.Time
