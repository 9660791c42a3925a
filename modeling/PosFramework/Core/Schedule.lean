import Mathlib

set_option autoImplicit false

/-! # Weekly schedules

A schedule is a set of weekdays and a window of the day, half-open, that may wrap past midnight. The
code asks whether the instant's own weekday is listed. Against it stands the window as a stretch of
time that begins on a listed day: the two part in the hours after midnight. -/

namespace PosFramework

/-- A day of the week. -/
inductive Weekday
  | monday
  | tuesday
  | wednesday
  | thursday
  | friday
  | saturday
  | sunday

/-- A set of weekdays, as a mask: Monday is bit 0. -/
structure WeekdaySet where
  bits : BitVec 8

/-- Whether a set of days has one. -/
def WeekdaySet.contains (days : WeekdaySet) (day : Weekday) : Bool :=
  decide (days.bits &&& (1#8 <<< day.ctorIdx) ≠ 0#8)

/-- A local wall-clock moment, reduced to what a schedule needs. -/
structure LocalTime where
  weekday : Weekday
  minuteOfDay : Nat

/-- Days, and the minutes of a day; one that ends before it starts runs past midnight. -/
structure Schedule where
  days : WeekdaySet
  startMinute : Nat
  endMinute : Nat

namespace Schedule

/-- Whether a schedule runs at a moment. -/
def isActiveAt (schedule : Schedule) (moment : LocalTime) : Bool :=
  if !schedule.days.contains moment.weekday then false
  else if schedule.startMinute ≤ schedule.endMinute then
    decide (schedule.startMinute ≤ moment.minuteOfDay ∧ moment.minuteOfDay < schedule.endMinute)
  else decide (schedule.startMinute ≤ moment.minuteOfDay ∨ moment.minuteOfDay < schedule.endMinute)

end Schedule

/-! ## Windows on the line of time -/

/-- The weekday of a day counted from some Monday. -/
def Weekday.ofDay (day : ℤ) : Weekday :=
  match day % 7 with
  | 0 => monday
  | 1 => tuesday
  | 2 => wednesday
  | 3 => thursday
  | 4 => friday
  | 5 => saturday
  | _ => sunday

/-- The local time of a minute counted from the midnight that Monday began with. -/
def LocalTime.ofMinute (minute : ℤ) : LocalTime := ⟨.ofDay (minute / 1440), (minute % 1440).toNat⟩

namespace Schedule

/-- The minute lies in a window past midnight that began on one of the schedule's days. -/
def Begun (schedule : Schedule) (minute : ℤ) : Prop :=
  ∃ day : ℤ, schedule.days.contains (.ofDay day) = true ∧
    1440 * day + schedule.startMinute ≤ minute ∧ minute < 1440 * (day + 1) + schedule.endMinute

variable {schedule : Schedule}

/-- The window began today or, in its part after midnight, the day before. -/
theorem begun_iff (hwrap : schedule.endMinute < schedule.startMinute)
    (hday : schedule.startMinute < 1440) (minute : ℤ) :
    schedule.Begun minute ↔
      (schedule.startMinute : ℤ) ≤ minute % 1440 ∧
        schedule.days.contains (.ofDay (minute / 1440)) = true ∨
      minute % 1440 < schedule.endMinute ∧
        schedule.days.contains (.ofDay (minute / 1440 - 1)) = true := by
  constructor
  · rintro ⟨day, hlisted, hfrom, huntil⟩
    obtain rfl | rfl : day = minute / 1440 ∨ day = minute / 1440 - 1 := by omega
    · exact .inl ⟨by omega, hlisted⟩
    · exact .inr ⟨by omega, hlisted⟩
  · rintro (⟨hfrom, hlisted⟩ | ⟨huntil, hlisted⟩)
    · exact ⟨_, hlisted, by omega, by omega⟩
    · exact ⟨_, hlisted, by omega, by omega⟩

theorem isActiveAt_wrapping (hwrap : schedule.endMinute < schedule.startMinute) (minute : ℤ) :
    schedule.isActiveAt (.ofMinute minute) = true ↔
      schedule.days.contains (.ofDay (minute / 1440)) = true ∧
        ((schedule.startMinute : ℤ) ≤ minute % 1440 ∨ minute % 1440 < schedule.endMinute) := by
  obtain ⟨within, hminute⟩ : ∃ within : ℕ, minute % 1440 = within :=
    Int.eq_ofNat_of_zero_le (Int.emod_nonneg _ (by decide))
  simp only [isActiveAt, LocalTime.ofMinute, if_neg hwrap.not_ge, hminute, Nat.cast_le, Nat.cast_lt,
    Int.toNat_natCast]
  cases schedule.days.contains (.ofDay (minute / 1440)) <;> simp

/-- A schedule past midnight is active in the windows that began on its days at exactly the minutes
    that are not after midnight in such a window, or whose day is listed as the day before is. -/
theorem isActiveAt_begun_iff (schedule : Schedule)
    (hwrap : schedule.endMinute < schedule.startMinute)
    (hday : schedule.startMinute < 1440) (minute : ℤ) :
    (schedule.isActiveAt (.ofMinute minute) = true ↔ schedule.Begun minute) ↔
      (minute % 1440 < schedule.endMinute →
        (schedule.days.contains (.ofDay (minute / 1440)) = true ↔
          schedule.days.contains (.ofDay (minute / 1440 - 1)) = true)) := by
  rw [isActiveAt_wrapping hwrap, begun_iff hwrap hday]
  by_cases hafter : minute % 1440 < schedule.endMinute
  · -- after midnight the window did not begin today, so the two days decide
    have hbefore : ¬ (schedule.startMinute : ℤ) ≤ minute % 1440 := by omega
    simp [hafter, hbefore]
  · simp [hafter, and_comm]

/-- Fridays from ten at night to two in the morning. -/
def fridayNight : Schedule := ⟨⟨0b0010000#8⟩, 1320, 120⟩

theorem isActiveAt_begun_fridayNight :
    (fridayNight.isActiveAt (.ofMinute (1440 * 4 + 1380)) = true ↔
      fridayNight.Begun (1440 * 4 + 1380)) :=
  (isActiveAt_begun_iff fridayNight (by decide) (by decide) _).2 (by decide)

/-- At one on Saturday morning the window begun on Friday is still on, and the schedule is not
    active; at one on Friday morning it is active, though nothing began on Thursday. -/
theorem fridayNight_inactive_after_midnight :
    (fridayNight.isActiveAt (.ofMinute (1440 * 5 + 60)) = false ∧
      fridayNight.Begun (1440 * 5 + 60)) ∧
      fridayNight.isActiveAt (.ofMinute (1440 * 4 + 60)) = true ∧
        ¬ fridayNight.Begun (1440 * 4 + 60) := by
  refine ⟨⟨by decide, 4, by decide⟩, by decide, ?_⟩
  rw [begun_iff (by decide) (by decide)]
  decide

end Schedule

end PosFramework
