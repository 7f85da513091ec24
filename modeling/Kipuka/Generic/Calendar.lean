/-
  The Gregorian calendar: the date of a day, and the day of a date. Days are counted from
  1970-01-01.
-/
import Mathlib.Data.Int.Order.Basic
import Mathlib.Order.MinMax

namespace Kipuka.Generic

/-! ## Instants and durations, in nanoseconds -/

def seconds (n : Int) : Int := n * 1000000000

def days (n : Nat) : Int := seconds (n * 86400)

def numSeconds (d : Int) : Int := d.tdiv 1000000000

def timestamp (t : Int) : Int := t / 1000000000

theorem timestamp_mono {t u : Int} (h : t ≤ u) : timestamp t ≤ timestamp u := by
  unfold timestamp
  omega

theorem timestamp_min (t u : Int) : timestamp (min t u) = min (timestamp t) (timestamp u) :=
  Monotone.map_min fun _ _ => timestamp_mono

theorem seconds_lt {n k : Int} (h : n < k) : seconds n < seconds k := by
  unfold seconds
  omega

theorem numSeconds_days (n : Nat) : numSeconds (days n) = n * 86400 := by
  unfold numSeconds days seconds
  rw [Int.mul_tdiv_cancel _ (by decide)]

structure Civil where
  year : Int
  month : Int
  day : Int
  deriving DecidableEq, Repr

/-- The year, counted from March, and the day in it, from the first of March of the year 0. -/
def marchYear (z : Int) : Int × Int :=
  let inEra := z % 146097
  let century := min (inEra / 36524) 3
  let inCentury := inEra - 36524 * century
  let inCycle := inCentury % 1461
  let year := min (inCycle / 365) 3
  (400 * (z / 146097) + 100 * century + 4 * (inCentury / 1461) + year, inCycle - 365 * year)

def marchFirst (year : Int) : Int :=
  146097 * (year / 400) + 36524 * (year % 400 / 100) + 1461 * (year % 100 / 4) + 365 * (year % 4)

def civil (day : Int) : Civil :=
  let (year, yday) := marchYear (day + 719468)
  let month := (5 * yday + 2) / 153
  let mday := yday - (153 * month + 2) / 5 + 1
  if month < 10 then ⟨year, month + 3, mday⟩ else ⟨year + 1, month - 9, mday⟩

def Civil.toDay (c : Civil) : Int :=
  if c.month ≤ 2 then marchFirst (c.year - 1) + (153 * (c.month + 9) + 2) / 5 + c.day - 719469
  else marchFirst c.year + (153 * (c.month - 3) + 2) / 5 + c.day - 719469

theorem marchFirst_digits {era century cycle year : Int} (hc : 0 ≤ century ∧ century ≤ 3)
    (hq : 0 ≤ cycle ∧ cycle ≤ 24) (hy : 0 ≤ year ∧ year ≤ 3) :
    marchFirst (400 * era + 100 * century + 4 * cycle + year) =
      146097 * era + 36524 * century + 1461 * cycle + 365 * year := by
  have hera : (400 * era + 100 * century + 4 * cycle + year) / 400 = era := by omega
  have hcentury : (400 * era + 100 * century + 4 * cycle + year) % 400 / 100 = century := by omega
  have hcycle : (400 * era + 100 * century + 4 * cycle + year) % 100 / 4 = cycle := by omega
  have hyear : (400 * era + 100 * century + 4 * cycle + year) % 4 = year := by omega
  rw [marchFirst, hera, hcentury, hcycle, hyear]

theorem marchFirst_marchYear (z : Int) : marchFirst (marchYear z).1 + (marchYear z).2 = z := by
  simp only [marchYear]
  rw [marchFirst_digits (by omega) (by omega) (by omega)]
  omega

theorem marchYear_yday (z : Int) : 0 ≤ (marchYear z).2 ∧ (marchYear z).2 ≤ 365 := by
  simp only [marchYear]
  omega

theorem toDay_civil (day : Int) : (civil day).toDay = day := by
  have hday := marchFirst_marchYear (day + 719468)
  have hyday := marchYear_yday (day + 719468)
  unfold civil
  generalize marchYear (day + 719468) = m at hday hyday ⊢
  dsimp only
  by_cases hmonth : (5 * m.2 + 2) / 153 < 10
  · rw [if_pos hmonth, Civil.toDay, if_neg (by dsimp only; omega)]
    dsimp only
    omega
  · rw [if_neg hmonth, Civil.toDay, if_pos (by dsimp only; omega)]
    dsimp only
    rw [Int.add_sub_cancel]
    omega

theorem marchYear_lt {z z' : Int} (h : z < z') : (marchYear z).1 < (marchYear z').1 ∨
    (marchYear z).1 = (marchYear z').1 ∧ (marchYear z).2 < (marchYear z').2 := by
  -- digit by digit, from the era down
  simp only [marchYear]
  have hera : z / 146097 < z' / 146097 ∨ z / 146097 = z' / 146097 ∧ z % 146097 < z' % 146097 := by
    omega
  have hr : 0 ≤ z % 146097 ∧ z % 146097 < 146097 := by omega
  have hr' : 0 ≤ z' % 146097 ∧ z' % 146097 < 146097 := by omega
  generalize z % 146097 = r at *
  generalize z' % 146097 = r' at *
  have hcentury : r < r' → min (r / 36524) 3 < min (r' / 36524) 3 ∨
      min (r / 36524) 3 = min (r' / 36524) 3 ∧
        r - 36524 * min (r / 36524) 3 < r' - 36524 * min (r' / 36524) 3 := by omega
  have hc : 0 ≤ min (r / 36524) 3 ∧ min (r / 36524) 3 ≤ 3 ∧
      0 ≤ r - 36524 * min (r / 36524) 3 ∧ r - 36524 * min (r / 36524) 3 ≤ 36524 := by omega
  have hc' : 0 ≤ min (r' / 36524) 3 ∧ min (r' / 36524) 3 ≤ 3 ∧
      0 ≤ r' - 36524 * min (r' / 36524) 3 ∧ r' - 36524 * min (r' / 36524) 3 ≤ 36524 := by omega
  generalize r - 36524 * min (r / 36524) 3 = q at *
  generalize r' - 36524 * min (r' / 36524) 3 = q' at *
  generalize min (r / 36524) 3 = c at *
  generalize min (r' / 36524) 3 = c' at *
  have hcycle : q < q' → q / 1461 < q' / 1461 ∨ q / 1461 = q' / 1461 ∧ q % 1461 < q' % 1461 := by
    omega
  have hk : 0 ≤ q / 1461 ∧ q / 1461 ≤ 24 ∧ 0 ≤ q' / 1461 ∧ q' / 1461 ≤ 24 := by omega
  have hp : 0 ≤ q % 1461 ∧ q % 1461 < 1461 ∧ 0 ≤ q' % 1461 ∧ q' % 1461 < 1461 := by omega
  generalize q % 1461 = p at *
  generalize q' % 1461 = p' at *
  generalize q / 1461 = k at *
  generalize q' / 1461 = k' at *
  omega

theorem civil_lt {day day' : Int} (h : day < day') : (civil day).year < (civil day').year ∨
    (civil day).year = (civil day').year ∧ ((civil day).month < (civil day').month ∨
      (civil day).month = (civil day').month ∧ (civil day).day < (civil day').day) := by
  have hlt := marchYear_lt (show day + 719468 < day' + 719468 by omega)
  have hyday := marchYear_yday (day + 719468)
  have hyday' := marchYear_yday (day' + 719468)
  simp only [civil]
  generalize marchYear (day + 719468) = m at *
  generalize marchYear (day' + 719468) = m' at *
  split_ifs <;> dsimp only <;> omega

theorem civil_month_day (day : Int) : (1 ≤ (civil day).month ∧ (civil day).month ≤ 12) ∧
    1 ≤ (civil day).day ∧ (civil day).day ≤ 31 := by
  have hyday := marchYear_yday (day + 719468)
  simp only [civil]
  split_ifs <;> dsimp only <;> omega

theorem marchFirst_bounds (year : Int) : 365 * year + 97 * (year / 400) ≤ marchFirst year ∧
    marchFirst year ≤ 365 * year + 97 * (year / 400) + 96 := by
  unfold marchFirst
  omega

theorem civil_year {day : Int} (hlow : 0 ≤ day) (hhigh : day ≤ 2932896) :
    1950 ≤ (civil day).year ∧ (civil day).year ≤ 9999 := by
  have hlast : civil 2932896 = ⟨9999, 12, 31⟩ := by decide
  have hle : (civil day).year ≤ 9999 := by
    rcases Int.lt_or_eq_of_le hhigh with hlt | rfl
    · have hlt := civil_lt hlt
      simp only [hlast] at hlt
      omega
    · simp [hlast]
  refine ⟨?_, hle⟩
  have hday := marchFirst_marchYear (day + 719468)
  have hyday := marchYear_yday (day + 719468)
  have hfirst := marchFirst_bounds (marchYear (day + 719468)).1
  simp only [civil]
  split_ifs <;> dsimp only <;> omega

example : civil 11016 = ⟨2000, 2, 29⟩ := by decide

end Kipuka.Generic
