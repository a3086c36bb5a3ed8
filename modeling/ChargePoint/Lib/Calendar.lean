import Mathlib.Algebra.Ring.Nat
import Mathlib.Data.List.Basic
import Mathlib.Tactic.SplitIfs

/-!
# The Gregorian calendar

A date carries the proof that it exists. Its number counts the days from 1 January 1970, backwards
too: a year begins where the one before it ends (`daysBefore_succ`), and so do its months
(`monthStart_succ`).
-/

set_option autoImplicit false

namespace Calendar

def isLeap (y : Int) : Bool := y % 4 = 0 ∧ (y % 100 ≠ 0 ∨ y % 400 = 0)

def yearLen (y : Int) : Nat := if isLeap y then 366 else 365

/-- The months are numbered from 0. -/
def monthLen (leap : Bool) (m : Nat) : Nat :=
  [31, if leap then 29 else 28, 31, 30, 31, 30, 31, 31, 30, 31, 30, 31].getD m 0

/-- The days of a year that lie before month `m`. -/
def monthStart (leap : Bool) (m : Nat) : Nat := ((List.range m).map (monthLen leap)).sum

/-- The days before the year `y`, counted from 1 January of the year 1. -/
def daysBefore (y : Int) : Int :=
  365 * (y - 1) + (y - 1) / 4 - (y - 1) / 100 + (y - 1) / 400

/-- A date, with its month and its day numbered as usual. -/
structure Date where
  year : Int
  month : Nat
  day : Nat
  month_pos : 1 ≤ month
  month_le : month ≤ 12
  day_pos : 1 ≤ day
  day_le : day ≤ monthLen (isLeap year) (month - 1)

namespace Date
variable (d : Date)

/-- The days of the year that are over. -/
def dayOfYear : Nat := monthStart (isLeap d.year) (d.month - 1) + (d.day - 1)

/-- **The days since 1 January 1970.** -/
def dayNumber : Int := daysBefore d.year - daysBefore 1970 + d.dayOfYear

end Date

/-! ## Years -/

theorem daysBefore_succ (y : Int) : daysBefore (y + 1) = daysBefore y + yearLen y := by
  unfold daysBefore yearLen isLeap
  simp only [decide_eq_true_eq]
  split_ifs <;> omega

/-- A year is over before the next one begins. -/
theorem daysBefore_mono {y y' : Int} (h : y < y') : daysBefore y + yearLen y ≤ daysBefore y' := by
  rw [← daysBefore_succ]
  unfold daysBefore
  omega

/-! ## Months -/

theorem monthStart_mono (leap : Bool) {m m' : Nat} (h : m < m') (h' : m' < 12) :
    monthStart leap m + monthLen leap m ≤ monthStart leap m' := by
  have hall : ∀ leap : Bool, ∀ i < 12, ∀ j < i,
      monthStart leap j + monthLen leap j ≤ monthStart leap i := by decide
  exact hall leap m' h' m h

theorem monthEnd_le (leap : Bool) {m : Nat} (h : m < 12) :
    monthStart leap m + monthLen leap m ≤ if leap then 366 else 365 := by
  have hall : ∀ leap : Bool, ∀ i < 12,
      monthStart leap i + monthLen leap i ≤ if leap then 366 else 365 := by decide
  exact hall leap m h

theorem monthStart_succ (leap : Bool) (m : Nat) :
    monthStart leap (m + 1) = monthStart leap m + monthLen leap m := by
  unfold monthStart
  rw [List.range_succ, List.map_append, List.sum_append]
  simp

/-- December ends the year. -/
theorem monthStart_december (y : Int) :
    monthStart (isLeap y) 11 + monthLen (isLeap y) 11 = yearLen y := by
  have hall : ∀ leap : Bool, monthStart leap 11 + monthLen leap 11 = if leap then 366 else 365 := by
    decide
  exact hall (isLeap y)

/-! ## Dates -/

namespace Date
variable (d : Date)

theorem day_lt : d.day < 32 := by
  have hlen : ∀ leap : Bool, ∀ m < 12, monthLen leap m < 32 := by decide
  have hmonth := hlen (isLeap d.year) (d.month - 1) (by
    have := d.month_pos
    have := d.month_le
    omega)
  have hle := d.day_le
  omega

theorem dayOfYear_lt : d.dayOfYear < yearLen d.year := by
  have hmonth : d.month - 1 < 12 := by
    have := d.month_pos
    have := d.month_le
    omega
  have hend := monthEnd_le (isLeap d.year) hmonth
  have hpos := d.day_pos
  have hle := d.day_le
  unfold dayOfYear yearLen
  omega

end Date
end Calendar
