import AgentWallet.AuditLog.Timestamps

/-!
# The calendar conversion is exact

`epoch_to_datetime` finds year and month by subtracting their lengths, after the number of days was
cast to 32 bits.  A day count that fits gives the date of the Gregorian calendar.
-/

namespace AgentWallet.AuditLog.Calendar

open Timestamps

variable {secs : ℕ}

/-- `epoch_to_datetime` -/
def epochToDatetime (secs : ℕ) : DateTime := dateTime (secs / 60 / 60 / 24 % 2 ^ 32) secs

theorem dated_of_days (hdays : secs / 86400 < 2 ^ 32) : Dated secs (epochToDatetime secs) := by
  have hcast : secs / 60 / 60 / 24 % 2 ^ 32 = secs / 60 / 60 / 24 := Nat.mod_eq_of_lt (by omega)
  rw [epochToDatetime, hcast]
  exact dated_epochToDatetime secs

/-- **The calendar conversion is exact.**  For a day count of 32 bits the result is the one valid
date and time of that second, and the fields are ordered as the seconds. -/
theorem epochToDatetime_exact (hdays : secs / 86400 < 2 ^ 32) : Valid (epochToDatetime secs) ∧
    (dayNumber (epochToDatetime secs) = ↑(secs / 86400) ∧
      secondOfDay (epochToDatetime secs) = secs % 86400) ∧
    (∀ t, Valid t → dayNumber t = ↑(secs / 86400) → secondOfDay t = secs % 86400 →
      t = epochToDatetime secs) ∧ ∀ secs', secs' / 86400 < 2 ^ 32 →
      (epochToDatetime secs = epochToDatetime secs' → secs = secs') ∧
      (secs < secs' ↔ fields (epochToDatetime secs) < fields (epochToDatetime secs')) := by
  have h := dated_of_days hdays
  refine ⟨h.valid, ⟨h.dayNumber, h.secondOfDay⟩, fun t ht hday hsec =>
    ht.eq h.valid (hday.trans h.dayNumber.symm) (hsec.trans h.secondOfDay.symm),
      fun secs' hdays' => ?_⟩
  have h' := dated_of_days hdays'
  refine ⟨fun heq => ?_, h.lt_iff h'⟩
  have hday := h.dayNumber
  have hsec := h.secondOfDay
  rw [heq, h'.dayNumber] at hday
  rw [heq, h'.secondOfDay] at hsec
  omega

/-- The last second of the leap day of 2000. -/
theorem leapDay_exact : (951868799 : ℕ) / 86400 < 2 ^ 32 ∧ Valid (epochToDatetime 951868799) ∧
    epochToDatetime 951868799 = ⟨2000, 2, 29, 23, 59, 59⟩ :=
  ⟨by decide, (epochToDatetime_exact (by decide)).1, by decide +kernel⟩

end AgentWallet.AuditLog.Calendar
