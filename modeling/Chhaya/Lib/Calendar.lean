import Mathlib

/-!
# The calendar

Days of the proleptic Gregorian calendar and their numbers, counted from the first of January 1970. Years that begin in
March have their leap day at the end; 400 of them are an era.

- `yearOfEra_spec`: the year of an era that a day is in.
- `dayNumber_ofDayNumber`: the day that is numbered `n` has the number `n`.
- `ofDayNumber_range`: its month, its day and, for some thousand centuries, its year are in range.
-/

namespace Calendar

/-- A day of the calendar. -/
structure Date where
  year : Int
  month : Int
  day : Int
  deriving DecidableEq, Repr

/-- The days before the year `y`, where years begin in March. -/
def daysBefore (y : Int) : Int := 365 * y + y / 4 - y / 100 + y / 400

/-- The number of a day. Months and days beyond their range count on. -/
def dayNumber (d : Date) : Int :=
  daysBefore (d.year + (d.month - 3) / 12) + (153 * ((d.month - 3) % 12) + 2) / 5 + d.day - 719469

/-- The year of its era that the day `n` of an era is in, and the day of that year. -/
def yearOfEra (n : Int) : Int × Int :=
  let century := min (n / 36524) 3
  let ofCentury := n - 36524 * century
  let leaps := ofCentury / 1461
  let year := min (ofCentury % 1461 / 365) 3
  (100 * century + 4 * leaps + year, ofCentury % 1461 - 365 * year)

/-- The day that is numbered `n`. -/
def ofDayNumber (n : Int) : Date :=
  let y := yearOfEra ((n + 719468) % 146097)
  let month := (5 * y.2 + 2) / 153
  { year := 400 * ((n + 719468) / 146097) + y.1 + (if month < 10 then 0 else 1)
    month := if month < 10 then month + 3 else month - 9
    day := y.2 - (153 * month + 2) / 5 + 1 }

/-- The days before a year of an era. -/
theorem daysBefore_parts {c q y : Int} (hc : 0 ≤ c ∧ c ≤ 3) (hq : 0 ≤ q ∧ q ≤ 24) (hy : 0 ≤ y ∧ y ≤ 3) (e : Int) :
    daysBefore (400 * e + (100 * c + 4 * q + y)) = 146097 * e + 36524 * c + 1461 * q + 365 * y := by
  unfold daysBefore
  omega

/-- The year of an era that a day is in. -/
theorem yearOfEra_spec {n : Int} (h0 : 0 ≤ n) (h1 : n < 146097) (e : Int) :
    (0 ≤ (yearOfEra n).1 ∧ (yearOfEra n).1 ≤ 399) ∧ (0 ≤ (yearOfEra n).2 ∧ (yearOfEra n).2 ≤ 365) ∧
      daysBefore (400 * e + (yearOfEra n).1) + (yearOfEra n).2 = 146097 * e + n := by
  simp only [yearOfEra]
  generalize hc : min (n / 36524) 3 = c
  have h2 : 0 ≤ c ∧ c ≤ 3 ∧ 0 ≤ n - 36524 * c ∧ n - 36524 * c ≤ 36524 := by omega
  generalize hd : n - 36524 * c = d at h2
  generalize hq : d / 1461 = q
  generalize hr : d % 1461 = r
  have h3 : 0 ≤ q ∧ q ≤ 24 ∧ 0 ≤ r ∧ r ≤ 1460 ∧ d = 1461 * q + r := by omega
  generalize hy : min (r / 365) 3 = y
  have h4 : 0 ≤ y ∧ y ≤ 3 ∧ 0 ≤ r - 365 * y ∧ r - 365 * y ≤ 365 := by omega
  rw [daysBefore_parts ⟨h2.1, h2.2.1⟩ ⟨h3.1, h3.2.1⟩ ⟨h4.1, h4.2.1⟩ e]
  omega

/-- The day that is numbered `n` has the number `n`. -/
theorem dayNumber_ofDayNumber (n : Int) : dayNumber (ofDayNumber n) = n := by
  have h0 : 0 ≤ (n + 719468) % 146097 := by omega
  have h1 : (n + 719468) % 146097 < 146097 := by omega
  obtain ⟨-, hd, hn⟩ := yearOfEra_spec h0 h1 ((n + 719468) / 146097)
  simp only [ofDayNumber, dayNumber]
  generalize (yearOfEra ((n + 719468) % 146097)).1 = y at hn
  generalize (yearOfEra ((n + 719468) % 146097)).2 = d at hd hn
  generalize hm : (5 * d + 2) / 153 = m
  have hm' : 0 ≤ m ∧ m ≤ 11 := by omega
  by_cases h : m < 10
  · rw [if_pos h, if_pos h, show (m + 3 - 3) / 12 = 0 by omega, show (m + 3 - 3) % 12 = m by omega]
    simp only [add_zero]
    omega
  · rw [if_neg h, if_neg h, show (m - 9 - 3) / 12 = -1 by omega, show (m - 9 - 3) % 12 = m by omega,
      Int.add_neg_cancel_right]
    omega

example : dayNumber ⟨1970, 1, 1⟩ = 0 ∧ ofDayNumber 11016 = ⟨2000, 2, 29⟩ := by decide

/-- Its month, its day and its year are in range. -/
theorem ofDayNumber_range {n : Int} (h0 : -100000001 ≤ n) (h1 : n ≤ 100000001) :
    (1 ≤ (ofDayNumber n).month ∧ (ofDayNumber n).month ≤ 12) ∧ (1 ≤ (ofDayNumber n).day ∧ (ofDayNumber n).day ≤ 31) ∧
      -300000 ≤ (ofDayNumber n).year ∧ (ofDayNumber n).year ≤ 300000 := by
  obtain ⟨hy, hd, -⟩ := yearOfEra_spec (show 0 ≤ (n + 719468) % 146097 by omega)
    (show (n + 719468) % 146097 < 146097 by omega) 0
  simp only [ofDayNumber]
  generalize (yearOfEra ((n + 719468) % 146097)).1 = y at hy
  generalize (yearOfEra ((n + 719468) % 146097)).2 = d at hd
  refine ⟨by omega, by omega, ?_⟩
  split <;> omega

end Calendar
