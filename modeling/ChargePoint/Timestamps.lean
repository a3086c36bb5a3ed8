import ChargePoint.Numerals
import ChargePoint.Lib.Calendar

/-!
# Dates in text

`GetDateTime` prints a date and three functions read one: `DataProcCmd_Boot` and `DataProcCmd_HB`
to set the clock, and `CnvrtStr2Utc` to find out whether the time for an update has come. The
first two take one off the month, which a `struct tm` numbers from 0. The third does not, and
everything it reads is a month late (`timestamps_disagree`).

`TransUtc2Date` finds a date by itself. It takes years and months off as long as *more* days than
a whole one are left, and so never counts the day that has begun; its February always has 28 days.
In a leap year the one makes up for the other from March on (`transUtc2Date_iff`).
-/

set_option autoImplicit false

namespace ChargePoint

open CStr Calendar

/-! ## The data -/

/-- A `struct tm` as the decoders fill it. -/
structure StructTm where
  tmYear : Int
  tmMon : Int
  tmMday : Int
  tmHour : Int
  tmMin : Int
  tmSec : Int
  deriving DecidableEq

/-- A time of the calendar. -/
structure CalendarTime where
  date : Date
  hour : Nat
  min : Nat
  sec : Nat
  hour_lt : hour < 24
  min_lt : min < 60
  sec_lt : sec < 60

namespace CalendarTime
variable (t : CalendarTime)

/-- The seconds since the beginning of 1970, in a zone that is `zone` seconds ahead. -/
def seconds (zone : Int) : Int :=
  t.date.dayNumber * 86400 + t.hour * 3600 + t.min * 60 + t.sec - zone

/-- What `localtime` gives. -/
def structTm : StructTm :=
  ⟨t.date.year - 1900, t.date.month - 1, t.date.day, t.hour, t.min, t.sec⟩

def tm : Tm := ⟨(t.date.year - 1900).toNat, t.date.month - 1, t.date.day, t.hour, t.min, t.sec⟩

end CalendarTime

/-- `mktime`. A month beyond December is one of a later year. -/
def mktime (zone : Int) (t : StructTm) : Int :=
  let y := 1900 + t.tmYear + t.tmMon / 12
  let days := daysBefore y - daysBefore 1970 + monthStart (isLeap y) (t.tmMon % 12).toNat +
    (t.tmMday - 1)
  days * 86400 + t.tmHour * 3600 + t.tmMin * 60 + t.tmSec - zone

/-- `%d-%02d-%02dT%02d:%02d:%02d.000Z`. -/
def dateTimeText (year mon mday hour min sec : Nat) : List Char :=
  dec year ++ '-' :: dec02 mon ++ '-' :: dec02 mday ++ 'T' :: dec02 hour ++ ':' :: dec02 min ++
    ':' :: dec02 sec ++ ".000Z".toList

/-! ## The decoders

The three functions have the same lines for the digits and differ in the month. Nothing is
checked: each place is read as a digit, whatever stands there. -/

/-- `(buf[i] - '0') % 10`. -/
def digitAt (buf : List Char) (i : Nat) : Int := ((buf.getD i nul).toNat - 48 : Int).tmod 10

/-- The digits at their places; the month is lowered by `less`. -/
def decodeTm (less : Int) (buf : List Char) : StructTm where
  tmYear := digitAt buf 0 * 1000 + digitAt buf 1 * 100 + digitAt buf 2 * 10 + digitAt buf 3 - 1900
  tmMon := digitAt buf 5 * 10 + digitAt buf 6 - less
  tmMday := digitAt buf 8 * 10 + digitAt buf 9
  tmHour := digitAt buf 11 * 10 + digitAt buf 12
  tmMin := digitAt buf 14 * 10 + digitAt buf 15
  tmSec := digitAt buf 17 * 10 + digitAt buf 18

/-- The `tmp_time` of `DataProcCmd_Boot`: `--(tmp_time.tm_mon)`. -/
def bootTm (buf : List Char) : StructTm := decodeTm 1 buf

/-- The `tmp_time` of `DataProcCmd_HB`. -/
def hbTm (buf : List Char) : StructTm := decodeTm 1 buf

/-- **`CnvrtStr2Utc`**. -/
def cnvrtStr2Utc (zone : Int) (buf : List Char) : Int := mktime zone (decodeTm 0 buf)

/-! ## Reading what was printed -/

theorem getDateTime_eq (tm : Tm) : getDateTime tm =
    dateTimeText (tm.tmYear + 1900) (tm.tmMon + 1) tm.tmMday tm.tmHour tm.tmMin tm.tmSec := rfl

theorem digitChar_value {n : Nat} (h : n < 10) :
    ((Nat.digitChar n).toNat - 48 : Int).tmod 10 = n := by
  have hall : ∀ i < 10, ((Nat.digitChar i).toNat - 48 : Int).tmod 10 = i := by decide
  exact hall n h

theorem dec02_digits {n : Nat} (h : n < 100) :
    dec02 n = [Nat.digitChar (n / 10), Nat.digitChar (n % 10)] := by
  unfold dec02 dec
  split
  · rename_i hlt
    rw [Nat.toDigits_of_lt_base hlt, Nat.div_eq_of_lt hlt, Nat.mod_eq_of_lt hlt]
    rfl
  · rename_i hge
    rw [Nat.toDigits_of_base_le (by decide) (Nat.not_lt.mp hge), Nat.toDigits_of_lt_base (by omega)]
    rfl

theorem dec_digits4 {n : Nat} (h : 1000 ≤ n) (h' : n < 10000) :
    dec n = [Nat.digitChar (n / 1000), Nat.digitChar (n / 100 % 10), Nat.digitChar (n / 10 % 10),
      Nat.digitChar (n % 10)] := by
  have hthousands : n / 10 / 10 / 10 = n / 1000 := by omega
  have hhundreds : n / 10 / 10 = n / 100 := by omega
  unfold dec
  rw [Nat.toDigits_of_base_le (by decide) (by omega), Nat.toDigits_of_base_le (by decide) (by omega),
    Nat.toDigits_of_base_le (by decide) (by omega), Nat.toDigits_of_lt_base (by omega), hthousands,
    hhundreds]
  rfl

/-- **The decoders read the fields that were printed.** -/
theorem decodeTm_dateTimeText (less : Int) {year mon mday hour min sec : Nat} (hy : 1000 ≤ year)
    (hy' : year < 10000) (hmon : mon < 100) (hmday : mday < 100) (hhour : hour < 100)
    (hmin : min < 100) (hsec : sec < 100) :
    decodeTm less (dateTimeText year mon mday hour min sec) =
      ⟨year - 1900, mon - less, mday, hour, min, sec⟩ := by
  have hzone : ".000Z".toList = ['.', '0', '0', '0', 'Z'] := by decide
  unfold dateTimeText
  rw [dec_digits4 hy hy', dec02_digits hmon, dec02_digits hmday, dec02_digits hhour,
    dec02_digits hmin, dec02_digits hsec, hzone]
  unfold decodeTm digitAt
  simp only [List.cons_append, List.nil_append, List.getD_cons_zero, List.getD_cons_succ]
  rw [digitChar_value (show year / 1000 < 10 by omega),
    digitChar_value (show year / 100 % 10 < 10 by omega),
    digitChar_value (show year / 10 % 10 < 10 by omega), digitChar_value (show year % 10 < 10 by omega),
    digitChar_value (show mon / 10 < 10 by omega), digitChar_value (show mon % 10 < 10 by omega),
    digitChar_value (show mday / 10 < 10 by omega), digitChar_value (show mday % 10 < 10 by omega),
    digitChar_value (show hour / 10 < 10 by omega), digitChar_value (show hour % 10 < 10 by omega),
    digitChar_value (show min / 10 < 10 by omega), digitChar_value (show min % 10 < 10 by omega),
    digitChar_value (show sec / 10 < 10 by omega), digitChar_value (show sec % 10 < 10 by omega)]
  congr 1
  · omega
  · omega
  · omega
  · omega
  · omega
  · omega

/-! ## What the decoders make of a time

`mktime` is the exact conversion in one fixed zone, and it takes a month beyond December for one
of the next year. So the text of a time is read as that time, or as the one a month later, which
is another time in every case. -/

/-- `mktime` undoes `localtime`. -/
theorem mktime_structTm (zone : Int) (t : CalendarTime) :
    mktime zone t.structTm = t.seconds zone := by
  have hpos := t.date.month_pos
  have hle := t.date.month_le
  have hday := t.date.day_pos
  have hyear : 1900 + (t.date.year - 1900) + ((t.date.month : Int) - 1) / 12 = t.date.year := by
    omega
  have hmonth : (((t.date.month : Int) - 1) % 12).toNat = t.date.month - 1 := by omega
  unfold mktime CalendarTime.seconds CalendarTime.structTm Date.dayNumber Date.dayOfYear
  dsimp only
  rw [hyear, hmonth]
  omega

/-- A month that is not lowered is the next one. -/
theorem mktime_late (zone : Int) (t : CalendarTime) :
    mktime zone { t.structTm with tmMon := t.date.month } =
      t.seconds zone + 86400 * monthLen (isLeap t.date.year) (t.date.month - 1) := by
  have hpos := t.date.month_pos
  have hle := t.date.month_le
  have hday := t.date.day_pos
  unfold mktime CalendarTime.seconds CalendarTime.structTm Date.dayNumber Date.dayOfYear
  dsimp only
  rcases Nat.lt_or_eq_of_le hle with hlt | heq
  · have hyear : 1900 + (t.date.year - 1900) + (t.date.month : Int) / 12 = t.date.year := by omega
    have hmonth : ((t.date.month : Int) % 12).toNat = t.date.month - 1 + 1 := by omega
    have hstart : monthStart (isLeap t.date.year) (t.date.month - 1 + 1) =
        monthStart (isLeap t.date.year) (t.date.month - 1) +
          monthLen (isLeap t.date.year) (t.date.month - 1) := monthStart_succ _ _
    rw [hyear, hmonth, hstart]
    omega
  · -- December goes over into January
    have hyear : 1900 + (t.date.year - 1900) + (t.date.month : Int) / 12 = t.date.year + 1 := by omega
    have hmonth : ((t.date.month : Int) % 12).toNat = 0 := by omega
    have hstart : monthStart (isLeap (t.date.year + 1)) 0 = 0 := rfl
    have hend := monthStart_december t.date.year
    have hnext := daysBefore_succ t.date.year
    have hlast : t.date.month - 1 = 11 := by omega
    rw [hyear, hmonth, hstart, hlast, hnext, ← hend]
    omega

section Decoders
variable {t : CalendarTime}

theorem decodeTm_getDateTime (less : Int) (h : 1970 ≤ t.date.year) (h' : t.date.year < 10000) :
    decodeTm less (getDateTime t.tm) =
      { t.structTm with tmMon := t.date.month - less } := by
  have hpos := t.date.month_pos
  have hle := t.date.month_le
  have hday := t.date.day_lt
  have hhour := t.hour_lt
  have hmin := t.min_lt
  have hsec := t.sec_lt
  have hyear : (((t.date.year - 1900).toNat + 1900 : Nat) : Int) = t.date.year := by omega
  have hmonth : t.date.month - 1 + 1 = t.date.month := by omega
  rw [getDateTime_eq, decodeTm_dateTimeText less]
  · unfold CalendarTime.structTm CalendarTime.tm
    dsimp only
    rw [hyear, hmonth]
  all_goals
    unfold CalendarTime.tm
    dsimp only
    omega

/-- The three agree on the text of a time. -/
def DecodersAgree (zone : Int) (t : CalendarTime) : Prop :=
  cnvrtStr2Utc zone (getDateTime t.tm) = t.seconds zone ∧
    bootTm (getDateTime t.tm) = t.structTm ∧ hbTm (getDateTime t.tm) = t.structTm

/-- **The decoders never agree.** Both handlers read the time that was printed; `CnvrtStr2Utc`
reads one that is late by the length of the month. -/
theorem timestamps_disagree (zone : Int) (h : 1970 ≤ t.date.year) (h' : t.date.year ≤ 2037) :
    bootTm (getDateTime t.tm) = t.structTm ∧ hbTm (getDateTime t.tm) = t.structTm ∧
      mktime zone (bootTm (getDateTime t.tm)) = t.seconds zone ∧
      cnvrtStr2Utc zone (getDateTime t.tm) =
        t.seconds zone + 86400 * monthLen (isLeap t.date.year) (t.date.month - 1) ∧
      ¬ DecodersAgree zone t := by
  have hboot : bootTm (getDateTime t.tm) = t.structTm := decodeTm_getDateTime 1 h (by omega)
  have hcnvrt : cnvrtStr2Utc zone (getDateTime t.tm) =
      t.seconds zone + 86400 * monthLen (isLeap t.date.year) (t.date.month - 1) := by
    unfold cnvrtStr2Utc
    rw [decodeTm_getDateTime 0 h (by omega), Int.sub_zero]
    exact mktime_late zone t
  refine ⟨hboot, hboot, ?_, hcnvrt, ?_⟩
  · rw [hboot]
    exact mktime_structTm zone t
  · rintro ⟨hsame, -⟩
    have hday := t.date.day_pos
    have hle := t.date.day_le
    rw [hcnvrt] at hsame
    omega

end Decoders

/-- 15 January 2024, noon. -/
def januaryNoon : CalendarTime :=
  ⟨⟨2024, 1, 15, by decide, by decide, by decide, by decide⟩, 12, 0, 0, by decide, by decide,
    by decide⟩

theorem timestamps_disagree_january :
    cnvrtStr2Utc 32400 (getDateTime januaryNoon.tm) = januaryNoon.seconds 32400 + 86400 * 31 ∧
      ¬ DecodersAgree 32400 januaryNoon := by
  obtain ⟨-, -, -, hcnvrt, hnot⟩ :=
    timestamps_disagree (t := januaryNoon) 32400 (by decide) (by decide)
  exact ⟨hcnvrt, hnot⟩

/-- The text of it is read as 15 February. -/
theorem month_late : cnvrtStr2Utc 32400 "2024-01-15T12:00:00.000Z".toList =
      mktime 32400 ⟨124, 1, 15, 12, 0, 0⟩ ∧
    getDateTime januaryNoon.tm = "2024-01-15T12:00:00.000Z".toList ∧
    ¬ DecodersAgree 32400 januaryNoon := by
  refine ⟨by decide, by decide, ?_⟩
  rintro ⟨hsame, -⟩
  exact absurd hsame (by decide)

/-! ## `TransUtc2Date`

Both loops compare with *more than* where *at least* is meant, and both subtract from what is
left. The loops are given fuel; that they end, and after how many turns at most, is part of the
result. -/

/-- The loop over the years: `yearBuf` counts from 1970. -/
def yearLoop : Nat → Nat → Nat → Option (Nat × Nat)
  | 0, _, _ => none
  | fuel + 1, yearBuf, remainDay =>
    let ym2day := if yearBuf % 4 = 2 then 366 else 365
    if ym2day < remainDay then yearLoop fuel ((yearBuf + 1) % 2 ^ 8) (remainDay - ym2day)
    else some (yearBuf, remainDay)

/-- The days `TransUtc2Date` gives a month. -/
def ym2day (monthBuf : Nat) : Nat :=
  if monthBuf = 2 then 28
  else if monthBuf ∈ [1, 3, 5, 7, 8, 10, 12] then 31
  else 30

/-- The loop over the months. -/
def monthLoop : Nat → Nat → Nat → Option (Nat × Nat)
  | 0, _, _ => none
  | fuel + 1, monthBuf, remainDay =>
    if ym2day monthBuf < remainDay then
      monthLoop fuel ((monthBuf + 1) % 2 ^ 8) (remainDay - ym2day monthBuf)
    else some (monthBuf, remainDay)

/-- **`TransUtc2Date`**. Its loops have no bound; each is given `fuel` turns. -/
def transUtc2Date (fuel : Nat) (utcVal : UInt32) : Option (List Char) :=
  let secBuf := utcVal.toNat % 60
  let minBuf := utcVal.toNat / 60 % 60
  let hourBuf := utcVal.toNat / 60 / 60 % 24
  (yearLoop fuel 0 (utcVal.toNat / (24 * 60 * 60) % 2 ^ 16)).bind fun y =>
    (monthLoop fuel 1 y.2).map fun m =>
      dateTimeText (y.1 + 1970) m.1 m.2 hourBuf minBuf secBuf

/-! ### The loops -/

/-- The days of the years before year `k`, if every fourth one is a leap year. -/
def yearStart (k : Nat) : Nat := 365 * k + (k + 1) / 4

/-- Where the loop over the years stops: with the last day of a year, rather than without it. -/
theorem yearLoop_eq {k rem : Nat} (hk : k < 2 ^ 8) (hpos : 1 ≤ rem)
    (hle : yearStart k + rem ≤ yearStart (k + 1)) {fuel i : Nat} (hi : i ≤ k) (hfuel : k - i < fuel) :
    yearLoop fuel i (yearStart k + rem - yearStart i) = some (k, rem) := by
  unfold yearStart at *
  induction fuel generalizing i with
  | zero => exact absurd hfuel (Nat.not_lt_zero _)
  | succ fuel ih =>
    unfold yearLoop
    dsimp only
    rcases Nat.lt_or_eq_of_le hi with hlt | rfl
    · have hwrap : (i + 1) % 2 ^ 8 = i + 1 := by omega
      have hrest := ih (i := i + 1) hlt (by omega)
      rw [hwrap, if_pos (by split <;> omega), ← hrest]
      congr 1
      split <;> omega
    · rw [if_neg (by split <;> omega)]
      congr 2
      omega

/-- Every day but the first is the last of some stretch. -/
theorem exists_yearStart {n : Nat} (h : 1 ≤ n) :
    ∃ k rem, n = yearStart k + rem ∧ 1 ≤ rem ∧ yearStart k + rem ≤ yearStart (k + 1) := by
  induction n with
  | zero => exact absurd h (by decide)
  | succ n ih =>
    cases n with
    | zero => exact ⟨0, 1, rfl, by decide, by decide⟩
    | succ n =>
      obtain ⟨k, rem, heq, hpos, hle⟩ := ih (Nat.succ_pos n)
      rcases Nat.lt_or_eq_of_le hle with hlt | hend
      · exact ⟨k, rem + 1, by omega, Nat.succ_pos _, hlt⟩
      · refine ⟨k + 1, 1, by omega, by decide, ?_⟩
        unfold yearStart
        omega

theorem monthLoop_mono {fuel m rem : Nat} {r : Nat × Nat} (h : monthLoop fuel m rem = some r)
    {fuel' : Nat} (hle : fuel ≤ fuel') : monthLoop fuel' m rem = some r := by
  induction fuel generalizing m rem fuel' with
  | zero => cases h
  | succ fuel ih =>
    cases fuel' with
    | zero => exact absurd hle (Nat.not_succ_le_zero _)
    | succ fuel' =>
      unfold monthLoop at h ⊢
      split
      · rename_i hlt
        rw [if_pos hlt] at h
        exact ih h (Nat.le_of_succ_le_succ hle)
      · rename_i hlt
        rwa [if_neg hlt] at h

theorem monthLoop_ends {rem : Nat} (h : rem ≤ 366) :
    ∃ m d, monthLoop 13 1 rem = some (m, d) ∧ m < 100 ∧ d < 100 := by
  have hall : ∀ r < 367, (monthLoop 13 1 r).any (fun x => x.1 < 100 && x.2 < 100) = true := by
    decide +kernel
  have hrem := hall rem (Nat.lt_succ_of_le h)
  rw [Option.any_eq_true] at hrem
  obtain ⟨⟨m, d⟩, heq, hlt⟩ := hrem
  simp only [Bool.and_eq_true, decide_eq_true_eq] at hlt
  exact ⟨m, d, heq, hlt⟩

/-- What the loop over the months makes of the days that are over. It finds the date in a leap
year from March on. -/
theorem monthLoop_over {leap : Bool} {m d : Nat} (hm : m < 12) (hd : d < monthLen leap m) :
    monthLoop 13 1 (monthStart leap m + d) = some (m + 1, d + 1) ↔ leap = true ∧ 2 ≤ m := by
  have hall : ∀ leap : Bool, ∀ m < 12, ∀ d < monthLen leap m,
      monthLoop 13 1 (monthStart leap m + d) = some (m + 1, d + 1) ↔ leap = true ∧ 2 ≤ m := by
    decide +kernel
  exact hall leap m hm d hd

/-- A day less, and it never finds it. -/
theorem monthLoop_before {leap : Bool} {m d : Nat} (hm : m < 12) (hd : d < monthLen leap m) :
    monthLoop 13 1 (monthStart leap m + d - 1) ≠ some (m + 1, d + 1) := by
  have hall : ∀ leap : Bool, ∀ m < 12, ∀ d < monthLen leap m,
      monthLoop 13 1 (monthStart leap m + d - 1) ≠ some (m + 1, d + 1) := by decide +kernel
  exact hall leap m hm d hd

/-- What the loop over the years has when it stops. On the very first day it takes nothing off. -/
inductive StopsAt (n k rem : Nat) : Prop
  | first (hn : n = 0) (hk : k = 0) (hrem : rem = 0)
  | later (hn : n = yearStart k + rem) (hpos : 1 ≤ rem)
      (hle : yearStart k + rem ≤ yearStart (k + 1))

/-- **The loops end**, with what they have found of the date. -/
theorem transUtc2Date_runs (utcVal : UInt32) : ∃ k rem m d,
    StopsAt (utcVal.toNat / 86400) k rem ∧ k ≤ 136 ∧ monthLoop 13 1 rem = some (m, d) ∧
      m < 100 ∧ d < 100 ∧ ∀ fuel, 137 ≤ fuel → transUtc2Date fuel utcVal =
        some (dateTimeText (k + 1970) m d (utcVal.toNat / 60 / 60 % 24) (utcVal.toNat / 60 % 60)
          (utcVal.toNat % 60)) := by
  have hlt : utcVal.toNat < 2 ^ 32 := utcVal.toNat_lt
  -- the days of 32 bits of seconds fit into the sixteen the code keeps them in
  have hday : utcVal.toNat / (24 * 60 * 60) % 2 ^ 16 = utcVal.toNat / 86400 := by omega
  obtain ⟨k, rem, hstop, hk, hloop⟩ : ∃ k rem, StopsAt (utcVal.toNat / 86400) k rem ∧ k ≤ 136 ∧
      ∀ fuel, 137 ≤ fuel → yearLoop fuel 0 (utcVal.toNat / 86400) = some (k, rem) := by
    rcases Nat.eq_zero_or_pos (utcVal.toNat / 86400) with hzero | hpos
    -- on the first day the loop does not turn at all
    · refine ⟨0, 0, .first hzero rfl rfl, by decide, fun fuel hfuel => ?_⟩
      cases fuel with
      | zero => exact absurd hfuel (by decide)
      | succ fuel =>
        rw [hzero]
        rfl
    · obtain ⟨k, rem, heq, hrem, hle⟩ := exists_yearStart hpos
      have hk : k ≤ 136 := by
        unfold yearStart at heq
        omega
      refine ⟨k, rem, .later heq hrem hle, hk, fun fuel hfuel => ?_⟩
      have hstop := yearLoop_eq (show k < 2 ^ 8 by omega) hrem hle (Nat.zero_le k)
        (show k - 0 < fuel by omega)
      rwa [heq]
  have hrem : rem ≤ 366 := by
    cases hstop with
    | first _ _ hrem => omega
    | later _ _ hle =>
      unfold yearStart at hle
      omega
  obtain ⟨m, d, hmonth, hm, hd⟩ := monthLoop_ends hrem
  refine ⟨k, rem, m, d, hstop, hk, hmonth, hm, hd, fun fuel hfuel => ?_⟩
  unfold transUtc2Date
  dsimp only
  rw [hday, hloop fuel hfuel, Option.bind_some, monthLoop_mono hmonth (by omega)]
  rfl

/-! ### The date found

What is left when the years are off is between one day and a whole year, and counts the days that
are over. Taken for the day of the year it is one too small; the February of 28 days makes it one
too large again, in a leap year behind February. Between 1970 and 2106 the rule of every fourth
year has one exception, 2100. -/

/-- Where a year begins, and whether it is a leap year, by the rule of every fourth year. -/
theorem year_rules {j : Nat} (h : j ≤ 137) :
    daysBefore (1970 + j) - daysBefore 1970 + (if 131 ≤ j then 1 else 0) = yearStart j ∧
      (isLeap (1970 + j) = true ↔ j % 4 = 2 ∧ j ≠ 130) := by
  unfold daysBefore yearStart isLeap
  simp only [decide_eq_true_eq]
  constructor
  · split <;> omega
  · omega

theorem year_bounds {n : Nat} {d : Date} (hn : n ≤ 49710) (hd : d.dayNumber = n) :
    1970 ≤ d.year ∧ d.year < 2107 := by
  have hlt := d.dayOfYear_lt
  have hend : daysBefore 2107 - daysBefore 1970 = 50038 := by decide
  unfold Date.dayNumber at hd
  constructor
  · by_contra hearly
    have := daysBefore_mono (show d.year < 1970 by omega)
    omega
  · by_contra hlate
    have : daysBefore 2107 ≤ daysBefore d.year := by
      unfold daysBefore
      omega
    omega

/-- **What was found is the date** in a leap year from March on, before 2100. -/
theorem found_iff {n k rem m day : Nat} {d : Date} (hn : n ≤ 49710) (hd : d.dayNumber = n)
    (hstop : StopsAt n k rem) (hmonth : monthLoop 13 1 rem = some (m, day)) :
    ((k : Int) + 1970 = d.year ∧ m = d.month ∧ day = d.day) ↔
      d.year % 4 = 0 ∧ d.year < 2100 ∧ 3 ≤ d.month := by
  have hlt := d.dayOfYear_lt
  have hyear := year_bounds hn hd
  obtain ⟨j, hj⟩ : ∃ j : Nat, d.year = 1970 + j := ⟨(d.year - 1970).toNat, by omega⟩
  have hj136 : j ≤ 136 := by omega
  obtain ⟨hstart, hleap⟩ := year_rules (show j ≤ 137 by omega)
  have hnum : (n : Int) = daysBefore (1970 + j) - daysBefore 1970 + d.dayOfYear := by
    rw [← hj, ← hd]
    rfl
  -- the date within the year
  have hmpos := d.month_pos
  have hmle := d.month_le
  have hdpos := d.day_pos
  have hmlt : d.month - 1 < 12 := by omega
  have hdlt : d.day - 1 < monthLen (isLeap d.year) (d.month - 1) := by
    have := d.day_le
    omega
  have hover := monthLoop_over hmlt hdlt
  have hbefore := monthLoop_before hmlt hdlt
  have hm : d.month - 1 + 1 = d.month := by omega
  have hdd : d.day - 1 + 1 = d.day := by omega
  have hdoy : d.dayOfYear = monthStart (isLeap d.year) (d.month - 1) + (d.day - 1) := rfl
  rw [hm, hdd, ← hdoy] at hover hbefore
  have hlen : (yearLen d.year : Int) ≤ yearStart (j + 1) - yearStart j := by
    unfold yearLen yearStart
    rw [hj]
    split
    · rename_i hl
      have := hleap.mp hl
      omega
    · omega
  have hmarch : d.dayOfYear ≤ 1 → d.month < 3 := by
    intro hsmall
    by_contra hlate
    have := monthStart_mono (isLeap d.year) (show 1 < d.month - 1 by omega) hmlt
    have hjan : ∀ leap : Bool, 1 < monthStart leap 1 := by decide
    have := hjan (isLeap d.year)
    omega
  have hgrows : ∀ {a b : Nat}, a < b → yearStart (a + 1) ≤ yearStart b := by
    intro a b hab
    unfold yearStart
    omega
  rcases Nat.lt_or_ge j 131 with hsmall | hlarge
  · have hn' : n = yearStart j + d.dayOfYear := by
      rw [if_neg (by omega)] at hstart
      omega
    rcases Nat.eq_zero_or_pos d.dayOfYear with hnew | hover'
    · -- the first day of a year is still the year before, or no day at all
      refine iff_of_false ?_ ?_
      · rintro ⟨hk, -, hday⟩
        cases hstop with
        | first _ _ hrem =>
          rw [hrem] at hmonth
          cases hmonth
          omega
        | later heq hpos _ =>
          obtain rfl : k = j := by omega
          omega
      · rintro ⟨-, -, hlate⟩
        have := hmarch (by omega)
        omega
    · have hfound : k = j ∧ rem = d.dayOfYear := by
        cases hstop with
        | first hzero => omega
        | later heq hpos hle =>
          rcases Nat.lt_trichotomy k j with hlt' | rfl | hgt
          · have := hgrows hlt'
            omega
          · omega
          · have := hgrows hgt
            omega
      obtain ⟨rfl, rfl⟩ := hfound
      rw [hmonth] at hover
      have hleap' : isLeap d.year = true ↔ d.year % 4 = 0 ∧ d.year < 2100 := by
        rw [hj, hleap]
        omega
      rw [Option.some.injEq, Prod.mk.injEq, hleap'] at hover
      constructor
      · rintro ⟨-, hm', hday'⟩
        have := hover.mp ⟨hm', hday'⟩
        omega
      · intro hdate
        have := hover.mpr (by omega)
        exact ⟨by omega, this⟩
  · -- a day has been lost in 2100
    have hn' : n + 1 = yearStart j + d.dayOfYear := by
      rw [if_pos hlarge] at hstart
      omega
    refine iff_of_false ?_ (by omega)
    rintro ⟨hk, hm', hday'⟩
    cases hstop with
    | first hzero hk0 =>
      unfold yearStart at hn'
      omega
    | later heq hpos _ =>
      obtain rfl : k = j := by omega
      have hrem : rem = d.dayOfYear - 1 := by omega
      rw [← hrem, hmonth, hm', hday'] at hbefore
      exact hbefore rfl

/-- The date and the time are written, in the end. -/
def WritesDate (utcVal : UInt32) : Prop :=
  ∃ t : CalendarTime, t.seconds 0 = utcVal.toNat ∧
    ∃ turns, ∀ fuel, turns ≤ fuel → transUtc2Date fuel utcVal = some (getDateTime t.tm)

/-- **`TransUtc2Date` always ends, and writes the date exactly from 1 March to 31 December of the
leap years before 2100.** -/
theorem transUtc2Date_iff (utcVal : UInt32) :
    (∃ turns text, ∀ fuel, turns ≤ fuel → transUtc2Date fuel utcVal = some text) ∧
      (WritesDate utcVal ↔ ∃ d : Date, d.dayNumber = (utcVal.toNat / 86400 : Nat) ∧
        d.year % 4 = 0 ∧ d.year < 2100 ∧ 3 ≤ d.month) := by
  obtain ⟨k, rem, m, day, hstop, hk, hmonth, hm, hday, hruns⟩ := transUtc2Date_runs utcVal
  have hlt : utcVal.toNat < 2 ^ 32 := utcVal.toNat_lt
  have hdays : utcVal.toNat / 86400 ≤ 49710 := by omega
  refine ⟨⟨137, _, hruns⟩, ?_, ?_⟩
  · rintro ⟨t, ht, turns, hwrites⟩
    have htext := (hruns (max 137 turns) (Nat.le_max_left _ _)).symm.trans
      (hwrites (max 137 turns) (Nat.le_max_right _ _))
    have hnum : t.date.dayNumber = (utcVal.toNat / 86400 : Nat) := by
      have := t.hour_lt
      have := t.min_lt
      have := t.sec_lt
      unfold CalendarTime.seconds at ht
      omega
    refine ⟨t.date, hnum, (found_iff hdays hnum hstop hmonth).mp ?_⟩
    -- the texts are the same, so what is read of them is
    obtain ⟨hyear, hyear'⟩ := year_bounds hdays hnum
    have hread := congrArg (decodeTm 0) (Option.some.inj htext)
    rw [decodeTm_getDateTime 0 hyear (by omega), decodeTm_dateTimeText 0 (by omega) (by omega) hm hday
      (by omega) (by omega) (by omega)] at hread
    simp only [CalendarTime.structTm, StructTm.mk.injEq] at hread
    omega
  · rintro ⟨d, hnum, hdate⟩
    obtain ⟨hk', rfl, rfl⟩ := (found_iff hdays hnum hstop hmonth).mpr hdate
    have hpos := d.month_pos
    refine ⟨⟨d, utcVal.toNat / 60 / 60 % 24, utcVal.toNat / 60 % 60, utcVal.toNat % 60, by omega,
      by omega, by omega⟩, ?_, 137, fun fuel hfuel => ?_⟩
    · unfold CalendarTime.seconds
      dsimp only
      omega
    · have hyear : (d.year - 1900).toNat + 1900 = k + 1970 := by omega
      have hmon : d.month - 1 + 1 = d.month := by omega
      rw [hruns fuel hfuel, getDateTime_eq]
      unfold CalendarTime.tm
      dsimp only
      rw [hyear, hmon]

/-- The beginning of 1970 is day 0 of January. -/
theorem first_day_missing :
    (∀ fuel, 137 ≤ fuel → transUtc2Date fuel 0 = some "1970-01-00T00:00:00.000Z".toList) ∧
      ¬ WritesDate 0 := by
  have hruns : ∀ fuel, 137 ≤ fuel → transUtc2Date fuel 0 =
      some "1970-01-00T00:00:00.000Z".toList := by
    intro fuel hfuel
    cases fuel with
    | zero => exact absurd hfuel (by decide)
    | succ fuel => rfl
  refine ⟨hruns, ?_⟩
  rintro ⟨t, ht, turns, hwrites⟩
  have htext := (hruns (max 137 turns) (Nat.le_max_left _ _)).symm.trans
    (hwrites (max 137 turns) (Nat.le_max_right _ _))
  have hnum : t.date.dayNumber = (0 : Nat) := by
    have hzero : (0 : UInt32).toNat = 0 := rfl
    have := t.hour_lt
    have := t.min_lt
    have := t.sec_lt
    rw [hzero] at ht
    unfold CalendarTime.seconds at ht
    omega
  obtain ⟨hyear, hyear'⟩ := year_bounds (by decide) hnum
  have hread := congrArg (fun b => (decodeTm 0 b).tmMday) (Option.some.inj htext)
  rw [decodeTm_getDateTime 0 hyear (by omega)] at hread
  have hnone : (decodeTm 0 "1970-01-00T00:00:00.000Z".toList).tmMday = 0 := by decide
  have hday : (t.date.day : Int) = 0 := hread.symm.trans hnone
  have := t.date.day_pos
  omega

end ChargePoint
