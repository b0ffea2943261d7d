/-!
# The calendar

The Gregorian calendar, extended back to the year 1, and its weeks. Days are numbered from
1 January of the year 1, which has the number 1 and is a Monday; years run from 1 to 9999.
-/

namespace TypingTrace.Time

structure Date where
  year : Nat
  month : Nat
  day : Nat
  deriving DecidableEq, Repr

def isLeap (year : Nat) : Bool := year % 4 == 0 && (year % 100 != 0 || year % 400 == 0)

def daysInMonth (year : Nat) : Nat → Nat
  | 2 => if isLeap year then 29 else 28
  | 4 | 6 | 9 | 11 => 30
  | _ => 31

/-- The days in the years before a given one. -/
def daysBeforeYear (year : Nat) : Nat :=
  let y := year - 1
  365 * y + y / 4 - y / 100 + y / 400

/-- The days of a year before a given month. -/
def daysBeforeMonth (year : Nat) : Nat → Nat
  | 0 | 1 => 0
  | month + 2 => daysBeforeMonth year (month + 1) + daysInMonth year (month + 1)

namespace Date

def IsValid (d : Date) : Prop :=
  1 ≤ d.year ∧ d.year ≤ 9999 ∧ 1 ≤ d.month ∧ d.month ≤ 12 ∧ 1 ≤ d.day ∧
    d.day ≤ daysInMonth d.year d.month

instance (d : Date) : Decidable d.IsValid := by unfold IsValid; infer_instance

/-- The number of a day. -/
def number (d : Date) : Nat := daysBeforeYear d.year + daysBeforeMonth d.year d.month + d.day

/-- The month and day of the `n`-th day of a year, counted from zero and starting to look at
`month`, with `left` months to look at after it. -/
def monthAndDay (year : Nat) : (left month n : Nat) → Nat × Nat
  | 0, month, n => (month, n + 1)
  | left + 1, month, n =>
    if n < daysInMonth year month then (month, n + 1)
    else monthAndDay year left (month + 1) (n - daysInMonth year month)

/-- The date with a given number. Four hundred years have 146097 days, and within them whole
centuries, then groups of four years, then years are taken off; the last century of the four and
the last year of a group are a day longer. -/
def ofNumber (number : Nat) : Date :=
  let n := number - 1
  let (n400, n) := (n / 146097, n % 146097)
  let n100 := min (n / 36524) 3
  let n := n - n100 * 36524
  let (n4, n) := (n / 1461, n % 1461)
  let n1 := min (n / 365) 3
  let n := n - n1 * 365
  let year := 400 * n400 + 100 * n100 + 4 * n4 + n1 + 1
  let (month, day) := monthAndDay year 11 1 n
  ⟨year, month, day⟩

end Date

/-! ## Weeks -/

/-- The number of the Monday of a year's first week, the one that holds its first Thursday. -/
def firstMonday (year : Nat) : Nat :=
  let newYear := daysBeforeYear year + 1
  let weekday := (newYear + 6) % 7
  if 3 < weekday then newYear - weekday + 7 else newYear - weekday

/-- Whether a year has a fifty-third week. -/
def hasLongYear (year : Nat) : Bool :=
  let weekday := daysBeforeYear year % 7
  weekday == 3 || (weekday == 2 && isLeap year)

/-- The date of a day of a week, if the year has that week. -/
def ofWeek? (year week day : Nat) : Option Date :=
  if 1 ≤ year ∧ year ≤ 9999 ∧ 1 ≤ week ∧ (week ≤ 52 ∨ (week = 53 ∧ hasLongYear year)) ∧
      1 ≤ day ∧ day ≤ 7 then
    some (Date.ofNumber (firstMonday year + 7 * (week - 1) + (day - 1)))
  else none

/-- The number of 1 January 1970. -/
def epochDay : Nat := 719163

example : (Date.mk 1970 1 1).number = epochDay := by decide
example : Date.ofNumber 738945 = ⟨2024, 2, 29⟩ := by decide +kernel
example : ofWeek? 2020 53 7 = some ⟨2021, 1, 3⟩ := by decide +kernel

end TypingTrace.Time
