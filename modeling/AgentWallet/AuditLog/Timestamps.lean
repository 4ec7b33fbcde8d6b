import AgentWallet.Base.Checks
import AgentWallet.Base.Decimal
import AgentWallet.Base.Segments

/-!
# Timestamps of the audit log

The calendar of `timefmt.rs` (`epoch_to_datetime`, `current_iso8601_utc`), the verifier's reader of
those timestamps (`parse_audit_timestamp_ms`) and the compact form that names a rotated file
(`compact_timestamp`).  Texts are their UTF-8 bytes.

* `Dated.lt_iff`: the fields of two instants are ordered as the instants.
* `parse_iso8601Utc`: the reader gets back the instant that was written, up to the end of 2099.
* `parseAuditTimestampMs_eq_ok_iff`: it reads no other text.
* `compact_lt`: the compact forms of two instants are ordered as the instants.
-/

namespace AgentWallet.AuditLog.Timestamps

open Base Base.Decimal Base.Segments List

variable {n : ℕ}

abbrev Text := List UInt8

/-! ## The calendar -/

def isLeapYear (year : ℕ) : Bool :=
  decide (year % 4 = 0) && !decide (year % 100 = 0) || decide (year % 400 = 0)

def daysInYear (year : ℕ) : ℕ := if isLeapYear year then 366 else 365

/-- The table of `epoch_to_datetime`. -/
def monthLengths (leap : Bool) : List ℕ :=
  [31, if leap then 29 else 28, 31, 30, 31, 30, 31, 31, 30, 31, 30, 31]

def daysInMonth (year : ℕ) : ℕ → ℕ
  | 1 | 3 | 5 | 7 | 8 | 10 | 12 => 31
  | 4 | 6 | 9 | 11 => 30
  | 2 => if isLeapYear year then 29 else 28
  | _ => 0

structure DateTime where
  year : ℕ
  month : ℕ
  day : ℕ
  hour : ℕ
  min : ℕ
  sec : ℕ
deriving DecidableEq

def yearLength (k : ℕ) : ℕ := daysInYear (1970 + k)

/-- The lengths of the months of a year, from January on. -/
def monthLength (leap : Bool) (k : ℕ) : ℕ := (monthLengths leap).getD k 0

/-- The date that number of days after the first of 1970, with the time of day. -/
def dateTime (days secs : ℕ) : DateTime :=
  let year := locate yearLength (days + 1) 0 days
  let month := locate (monthLength (isLeapYear (1970 + year.1))) 12 0 year.2
  { year := 1970 + year.1
    month := month.1 + 1
    day := month.2 + 1
    hour := secs / 60 / 60 % 24
    min := secs / 60 % 60
    sec := secs % 60 }

/-- `epoch_to_datetime` without the cast of the day count to 32 bits (`Calendar` has it with the
cast), which changes nothing before the year eleven million. -/
def epochToDatetime (secs : ℕ) : DateTime := dateTime (secs / 60 / 60 / 24) secs

/-! ## Texts -/

/-- A number with at least `width` digits. -/
def padded (width n : ℕ) : Text :=
  if n < 10 ^ width then decimal width n else (Nat.toDigits 10 n).map fun c => UInt8.ofNat c.toNat

/-- `YYYY-MM-DDTHH:MM:SS.mmmZ` -/
def iso8601Utc (ms : ℕ) : Text :=
  let t := epochToDatetime (ms / 1000)
  padded 4 t.year ++ [45] ++ padded 2 t.month ++ [45] ++ padded 2 t.day ++ [84] ++
    padded 2 t.hour ++ [58] ++ padded 2 t.min ++ [58] ++ padded 2 t.sec ++ [46] ++
    padded 3 (ms % 1000) ++ [90]

inductive TimestampError where
  | shape
  | nonDecimal (field : String)
  | outOfRange
  | dayOutOfRange
deriving DecidableEq

/-- `parse_decimal_u32` on the bytes from `start` to `stop`. -/
def parseDecimal (ts : Text) (start stop : ℕ) (field : String) : Except TimestampError ℕ :=
  let s := (ts.take stop).drop start
  if s.all isDigit then .ok (value s) else .error (.nonDecimal field)

/-- The fields of the range check, before the day is looked at. -/
def inRange (t : DateTime) : Bool :=
  decide (1970 ≤ t.year) && decide (t.year ≤ 2099) && decide (1 ≤ t.month) &&
    decide (t.month ≤ 12) && decide (t.hour ≤ 23) && decide (t.min ≤ 59) && decide (t.sec ≤ 59)

/-- Seconds since the epoch of a broken-down time. -/
def unixSeconds (t : DateTime) : ℕ :=
  let days := start yearLength (t.year - 1970) +
    start (fun k => daysInMonth t.year (k + 1)) (t.month - 1) + (t.day - 1)
  days * 86400 + t.hour * 3600 + t.min * 60 + t.sec

def parseUtcDateTimeSeconds (ts : Text) : Except TimestampError ℕ := do
  let year ← parseDecimal ts 0 4 "year"
  let month ← parseDecimal ts 5 7 "month"
  let day ← parseDecimal ts 8 10 "day"
  let hour ← parseDecimal ts 11 13 "hour"
  let min ← parseDecimal ts 14 16 "minute"
  let sec ← parseDecimal ts 17 19 "second"
  let t : DateTime := ⟨year, month, day, hour, min, sec⟩
  if inRange t = false then .error .outOfRange
  else if day = 0 ∨ day > daysInMonth year month then .error .dayOutOfRange
  else .ok (unixSeconds t)

/-- The separators of a timestamp with milliseconds. -/
def hasShape (ts : Text) : Bool :=
  decide (ts.length = 24) && decide (ts[4]? = some 45) && decide (ts[7]? = some 45) &&
    decide (ts[10]? = some 84) && decide (ts[13]? = some 58) && decide (ts[16]? = some 58) &&
    decide (ts[19]? = some 46) && decide (ts[23]? = some 90)

def parseAuditTimestampMs (ts : Text) : Except TimestampError ℕ := do
  if hasShape ts = false then .error .shape
  else
    let seconds ← parseUtcDateTimeSeconds ts
    let millis ← parseDecimal ts 20 23 "millisecond"
    if millis > 999 then .error .outOfRange else .ok (seconds * 1000 + millis)

def isAlphanumeric (b : UInt8) : Bool :=
  isDigit b || (decide (65 ≤ b) && decide (b ≤ 90)) || (decide (97 ≤ b) && decide (b ≤ 122))

/-- `YYYYMMDDTHHMMSSmmm`: the letters and digits of the timestamp, without the `Z`. -/
def compact (ms : ℕ) : Text :=
  ((iso8601Utc ms).filter isAlphanumeric).filter fun b => decide (b ≠ 90)

/-- The digits of the compact form as one number, zero when it is no `u64`. -/
def compactNumber (ms : ℕ) : ℕ :=
  let n := value ((compact ms).filter isDigit)
  if n < 2 ^ 64 then n else 0

/-! ## The calendar is sound -/

theorem yearLength_pos (k : ℕ) : 0 < yearLength k := by
  unfold yearLength daysInYear
  split_ifs <;> omega

theorem monthLength_eq (year k : ℕ) :
    monthLength (isLeapYear year) k = daysInMonth year (k + 1) := by
  rcases Nat.lt_or_ge k 12 with hk | hk
  · interval_cases k <;> rfl
  · obtain ⟨j, rfl⟩ : ∃ j, k = j + 12 := ⟨k - 12, by omega⟩
    rfl

theorem start_monthLength (year : ℕ) :
    start (monthLength (isLeapYear year)) 12 = daysInYear year := by
  unfold start daysInYear monthLength monthLengths
  split_ifs with h <;> simp [Finset.sum_range_succ]

/-- Where an instant lies in the calendar. -/
structure Dated (secs : ℕ) (t : DateTime) : Prop where
  year : ∃ dayOfYear, Located yearLength (secs / 60 / 60 / 24) (t.year - 1970) dayOfYear ∧
    Located (monthLength (isLeapYear t.year)) dayOfYear (t.month - 1) (t.day - 1)
  since : 1970 ≤ t.year
  month_pos : 1 ≤ t.month
  day_pos : 1 ≤ t.day
  hour : t.hour = secs / 60 / 60 % 24
  min : t.min = secs / 60 % 60
  sec : t.sec = secs % 60

theorem dated_epochToDatetime (secs : ℕ) : Dated secs (epochToDatetime secs) := by
  set days := secs / 60 / 60 / 24 with hdays
  have hreach : days < start yearLength (days + 1) := le_start yearLength_pos _
  have hyear := located_locate_zero hreach
  set year := locate yearLength (days + 1) 0 days with hyeq
  have hwithin : year.2 < start (monthLength (isLeapYear (1970 + year.1))) 12 := by
    rw [start_monthLength]
    exact hyear.within
  have hmonth := located_locate_zero hwithin
  refine ⟨⟨year.2, ?_, ?_⟩, ?_, ?_, ?_, rfl, rfl, rfl⟩
  · simpa [epochToDatetime, dateTime, ← hdays, ← hyeq] using hyear
  · simpa [epochToDatetime, dateTime, ← hdays, ← hyeq] using hmonth
  · exact Nat.le_add_right _ _
  · exact Nat.le_add_left _ _
  · exact Nat.le_add_left _ _

variable {secs secs' ms ms' : ℕ} {t t' : DateTime}

theorem Dated.month_le (h : Dated secs t) : t.month ≤ 12 := by
  obtain ⟨dayOfYear, -, hmonth⟩ := h.year
  by_contra hgt
  have hzero : monthLength (isLeapYear t.year) (t.month - 1) = 0 := by
    rw [monthLength_eq]
    obtain ⟨j, hj⟩ : ∃ j, t.month - 1 + 1 = j + 13 := ⟨t.month - 13, by omega⟩
    rw [hj]
    rfl
  have hlt := hmonth.within
  omega

theorem Dated.day_le (h : Dated secs t) : t.day ≤ daysInMonth t.year t.month := by
  obtain ⟨dayOfYear, -, hmonth⟩ := h.year
  have hlt := hmonth.within
  have hmonthPos := h.month_pos
  rw [monthLength_eq, Nat.sub_add_cancel hmonthPos] at hlt
  omega

theorem daysInMonth_le (year month : ℕ) : daysInMonth year month ≤ 31 := by
  unfold daysInMonth
  split <;> first | omega | split_ifs <;> omega

def endOf2099 : ℕ := 4102444800

theorem start_yearLength_130 : start yearLength 130 = 47482 := by decide +kernel

theorem Dated.year_le (h : Dated secs t) (hsecs : secs < endOf2099) : t.year ≤ 2099 := by
  obtain ⟨dayOfYear, hyear, -⟩ := h.year
  have hlt : secs / 60 / 60 / 24 < start yearLength 130 := by
    rw [start_yearLength_130]
    unfold endOf2099 at hsecs
    omega
  have hidx := hyear.lt_of_lt_start hlt
  omega

theorem Dated.year_gt (h : Dated secs t) (hsecs : endOf2099 ≤ secs) : 2100 ≤ t.year := by
  obtain ⟨dayOfYear, hyear, -⟩ := h.year
  by_contra hlt
  have hmono : start yearLength (t.year - 1970 + 1) ≤ start yearLength 130 := start_mono (by omega)
  have heq := hyear.eq
  have hwithin := hyear.within
  rw [start_succ, start_yearLength_130] at hmono
  unfold endOf2099 at hsecs
  omega

/-! ## The Gregorian calendar -/

structure Valid (t : DateTime) : Prop where
  month_pos : 1 ≤ t.month
  month_le : t.month ≤ 12
  day_pos : 1 ≤ t.day
  day_le : t.day ≤ daysInMonth t.year t.month
  hour : t.hour < 24
  min : t.min < 60
  sec : t.sec < 60

/-- Days from 1970-01-01 to the first day of a year.  There were 477 leap years before 1970. -/
def daysBeforeYear (year : ℤ) : ℤ :=
  365 * (year - 1970) + ((year - 1) / 4 - (year - 1) / 100 + (year - 1) / 400 - 477)

def daysBeforeMonth (leap : Bool) (month : ℕ) : ℕ :=
  [0, 31, 59, 90, 120, 151, 181, 212, 243, 273, 304, 334, 365].getD (month - 1) 0 +
    if leap && decide (2 < month) then 1 else 0

/-- Days since 1970-01-01. -/
def dayNumber (t : DateTime) : ℤ :=
  daysBeforeYear t.year + daysBeforeMonth (isLeapYear t.year) t.month + (t.day - 1)

def secondOfDay (t : DateTime) : ℕ := t.hour * 3600 + t.min * 60 + t.sec

/-- The fields, from the most significant on. -/
def fields (t : DateTime) : List ℕ := [t.year, t.month, t.day, t.hour, t.min, t.sec]

theorem fields_inj (h : fields t = fields t') : t = t' := by
  cases t
  cases t'
  simpa [fields] using h

theorem daysBeforeYear_succ (year : ℕ) :
    daysBeforeYear (year + 1) = daysBeforeYear year + daysInYear year := by
  unfold daysBeforeYear daysInYear isLeapYear
  split_ifs with hleap
  · simp only [Bool.or_eq_true, Bool.and_eq_true, decide_eq_true_eq, Bool.not_eq_true',
      decide_eq_false_iff_not] at hleap
    omega
  · simp only [Bool.or_eq_true, Bool.and_eq_true, decide_eq_true_eq, Bool.not_eq_true',
      decide_eq_false_iff_not] at hleap
    omega

theorem daysBeforeYear_le {year year' : ℕ} (h : year < year') :
    daysBeforeYear year + daysInYear year ≤ daysBeforeYear year' := by
  induction year', h using Nat.le_induction with
  | base => exact (daysBeforeYear_succ year).ge
  | succ n _ ih =>
    have hsucc := daysBeforeYear_succ n
    push_cast
    omega

theorem daysBeforeYear_start (k : ℕ) : daysBeforeYear ↑(1970 + k) = start yearLength k := by
  induction k with
  | zero => decide
  | succ k ih =>
    have hsucc := daysBeforeYear_succ (1970 + k)
    rw [start_succ, yearLength]
    push_cast at ih hsucc ⊢
    rw [← ih, ← hsucc, add_assoc]

theorem daysBeforeMonth_le (year : ℕ) {month month' : ℕ} (hpos : 1 ≤ month) (h : month < month')
    (hle : month' ≤ 13) : daysBeforeMonth (isLeapYear year) month + daysInMonth year month ≤
      daysBeforeMonth (isLeapYear year) month' := by
  have htable : ∀ leap, ∀ m' ≤ 13, ∀ m < m', 1 ≤ m →
      daysBeforeMonth leap m + monthLength leap (m - 1) ≤ daysBeforeMonth leap m' := by decide
  have hmonth := htable (isLeapYear year) month' hle month h hpos
  rwa [monthLength_eq, Nat.sub_add_cancel hpos] at hmonth

theorem daysBeforeMonth_start (leap : Bool) {month : ℕ} (h : month ≤ 12) :
    daysBeforeMonth leap month = start (monthLength leap) (month - 1) := by
  have htable : ∀ leap, ∀ m ≤ 12, daysBeforeMonth leap m = start (monthLength leap) (m - 1) := by
    decide
  exact htable leap month h

theorem daysBeforeMonth_thirteen (year : ℕ) :
    daysBeforeMonth (isLeapYear year) 13 = daysInYear year := by
  unfold daysInYear
  rcases isLeapYear year <;> rfl

/-- A later date of the calendar has a later day, or the same day and a later second. -/
theorem Valid.lt (h : Valid t) (h' : Valid t') (hlt : fields t < fields t') :
    dayNumber t < dayNumber t' ∨ dayNumber t = dayNumber t' ∧ secondOfDay t < secondOfDay t' := by
  obtain ⟨hmonth, hmonth', hday, hday', hhour, hmin, hsec⟩ := h
  obtain ⟨hmonth₂, hmonth₂', hday₂, hday₂', hhour₂, hmin₂, hsec₂⟩ := h'
  simp only [fields, cons_lt_cons_iff, List.lt_irrefl, and_false, or_false] at hlt
  unfold dayNumber secondOfDay
  rcases hlt with hyear | ⟨hyear, hm | ⟨hm, hd | ⟨hd, htime⟩⟩⟩
  · have hnext := daysBeforeYear_le hyear
    have hend := daysBeforeMonth_le t.year hmonth (by omega) le_rfl
    rw [daysBeforeMonth_thirteen] at hend
    omega
  · have hnext := daysBeforeMonth_le t.year hmonth hm (by omega)
    rw [← hyear]
    omega
  · rw [← hyear, ← hm]
    omega
  · rw [← hyear, ← hm, ← hd]
    omega

theorem Valid.eq (h : Valid t) (h' : Valid t') (hday : dayNumber t = dayNumber t')
    (hsec : secondOfDay t = secondOfDay t') : t = t' := by
  rcases lt_trichotomy (fields t) (fields t') with hlt | heq | hgt
  · have hcases := h.lt h' hlt
    omega
  · exact fields_inj heq
  · have hcases := h'.lt h hgt
    omega

theorem Dated.valid (h : Dated secs t) : Valid t := by
  have hhour := h.hour
  have hmin := h.min
  have hsec := h.sec
  exact ⟨h.month_pos, h.month_le, h.day_pos, h.day_le, by omega, by omega, by omega⟩

theorem Dated.dayNumber (h : Dated secs t) : dayNumber t = ↑(secs / 86400) := by
  obtain ⟨dayOfYear, hyear, hmonth⟩ := h.year
  have hsince := daysBeforeYear_start (t.year - 1970)
  rw [Nat.add_sub_cancel' h.since] at hsince
  have hday := h.day_pos
  have hyearEq := hyear.eq
  have hmonthEq := hmonth.eq
  rw [Timestamps.dayNumber, hsince, daysBeforeMonth_start _ h.month_le]
  omega

theorem Dated.secondOfDay (h : Dated secs t) : secondOfDay t = secs % 86400 := by
  have hhour := h.hour
  have hmin := h.min
  have hsec := h.sec
  unfold Timestamps.secondOfDay
  omega

theorem Valid.unixSeconds_eq (h : Valid t) (hsince : 1970 ≤ t.year) :
    (unixSeconds t : ℤ) = dayNumber t * 86400 + secondOfDay t := by
  have hyear := daysBeforeYear_start (t.year - 1970)
  have hday := h.day_pos
  have hlen : monthLength (isLeapYear t.year) = fun k => daysInMonth t.year (k + 1) :=
    funext fun k => monthLength_eq t.year k
  rw [Nat.add_sub_cancel' hsince] at hyear
  rw [dayNumber, secondOfDay, hyear, daysBeforeMonth_start _ h.month_le, hlen, unixSeconds]
  push_cast [hday]
  ring

theorem Dated.unixSeconds (h : Dated secs t) : unixSeconds t = secs := by
  have hday := h.dayNumber
  have hsec := h.secondOfDay
  have heq := h.valid.unixSeconds_eq h.since
  omega

/-- **Order of instants.** -/
theorem Dated.lt_iff (h : Dated secs t) (h' : Dated secs' t') : secs < secs' ↔
    fields t < fields t' := by
  have hday := h.dayNumber
  have hday' := h'.dayNumber
  have hsec := h.secondOfDay
  have hsec' := h'.secondOfDay
  constructor
  · intro hlt
    by_contra hge
    rcases (not_lt.1 hge).eq_or_lt with heq | hgt
    · rw [← fields_inj heq] at hday hsec
      omega
    · have hcases := h'.valid.lt h.valid hgt
      omega
  · intro hlt
    have hcases := h.valid.lt h'.valid hlt
    omega

/-! ## Texts of the years up to 2099 -/

/-- The timestamp of a broken-down time whose fields fit. -/
def isoText (t : DateTime) (millis : ℕ) : Text :=
  decimal 4 t.year ++ [45] ++ decimal 2 t.month ++ [45] ++ decimal 2 t.day ++ [84] ++
    decimal 2 t.hour ++ [58] ++ decimal 2 t.min ++ [58] ++ decimal 2 t.sec ++ [46] ++
    decimal 3 millis ++ [90]

/-- The fields without separators, but for `sep` between date and time. -/
def fieldsText (sep : Text) (t : DateTime) (millis : ℕ) : Text :=
  decimal 4 t.year ++ (decimal 2 t.month ++ (decimal 2 t.day ++ (sep ++ (decimal 2 t.hour ++
    (decimal 2 t.min ++ (decimal 2 t.sec ++ decimal 3 millis))))))

structure Fits (t : DateTime) : Prop where
  year : t.year < 10000
  month : t.month < 100
  day : t.day < 100
  hour : t.hour < 100
  min : t.min < 100
  sec : t.sec < 100

theorem Dated.fits (h : Dated secs t) (hyear : t.year < 10000) : Fits t := by
  have hmonth := h.month_le
  have hday := h.day_le
  have hmax := daysInMonth_le t.year t.month
  have hhour := h.hour
  have hmin := h.min
  have hsec := h.sec
  exact ⟨by omega, by omega, by omega, by omega, by omega, by omega⟩

theorem fits_of_lt (h : secs < endOf2099) : Fits (epochToDatetime secs) := by
  have hyear := (dated_epochToDatetime secs).year_le h
  exact (dated_epochToDatetime secs).fits (by omega)

theorem padded_eq (width : ℕ) (h : n < 10 ^ width) : padded width n = decimal width n :=
  if_pos h

theorem iso8601Utc_eq (h : Fits (epochToDatetime (ms / 1000))) :
    iso8601Utc ms = isoText (epochToDatetime (ms / 1000)) (ms % 1000) := by
  have hms : ms % 1000 < 10 ^ 3 := Nat.mod_lt _ (by decide)
  unfold iso8601Utc isoText
  simp [padded_eq 4 h.year, padded_eq 2 h.month, padded_eq 2 h.day, padded_eq 2 h.hour,
      padded_eq 2 h.min, padded_eq 2 h.sec, padded_eq 3 hms]

theorem parseDecimal_decimal {ts : Text} {start stop : ℕ} {field : String} (width : ℕ)
    (hslice : (ts.take stop).drop start = decimal width n) (hn : n < 10 ^ width) :
    parseDecimal ts start stop field = .ok n := by
  unfold parseDecimal
  simp only [hslice]
  rw [if_pos (all_eq_true.2 fun b hb => isDigit_of_mem_decimal hb), value_decimal hn]

theorem Dated.inRange (h : Dated secs t) (hsecs : secs < endOf2099) : inRange t = true := by
  have hyear := h.year_le hsecs
  have hsince := h.since
  have hmonth := h.month_le
  have hpos := h.month_pos
  have hhour := h.hour
  have hmin := h.min
  have hsec := h.sec
  simp only [Timestamps.inRange, Bool.and_eq_true, decide_eq_true_eq]
  omega

theorem parseUtcDateTimeSeconds_isoText (hfits : Fits t) (millis : ℕ) :
    parseUtcDateTimeSeconds (isoText t millis) = if inRange t = false then .error .outOfRange
      else if t.day = 0 ∨ t.day > daysInMonth t.year t.month then .error .dayOutOfRange
      else .ok (unixSeconds t) := by
  have hyear : parseDecimal (isoText t millis) 0 4 "year" = .ok t.year :=
    parseDecimal_decimal 4 (by simp [isoText]) hfits.year
  have hmonth : parseDecimal (isoText t millis) 5 7 "month" = .ok t.month :=
    parseDecimal_decimal 2 (by simp [isoText, decimal]) hfits.month
  have hday : parseDecimal (isoText t millis) 8 10 "day" = .ok t.day :=
    parseDecimal_decimal 2 (by simp [isoText, decimal]) hfits.day
  have hhour : parseDecimal (isoText t millis) 11 13 "hour" = .ok t.hour :=
    parseDecimal_decimal 2 (by simp [isoText, decimal]) hfits.hour
  have hmin : parseDecimal (isoText t millis) 14 16 "minute" = .ok t.min :=
    parseDecimal_decimal 2 (by simp [isoText, decimal]) hfits.min
  have hsec : parseDecimal (isoText t millis) 17 19 "second" = .ok t.sec :=
    parseDecimal_decimal 2 (by simp [isoText, decimal]) hfits.sec
  unfold parseUtcDateTimeSeconds
  rw [hyear, hmonth, hday, hhour, hmin, hsec]
  rfl

theorem hasShape_isoText (t : DateTime) (millis : ℕ) : hasShape (isoText t millis) = true := by
  simp [hasShape, isoText, decimal]

/-- **Round trip.** -/
theorem parse_iso8601Utc (h : ms / 1000 < endOf2099) :
    parseAuditTimestampMs (iso8601Utc ms) = .ok ms := by
  have hdated := dated_epochToDatetime (ms / 1000)
  have hfits := fits_of_lt h
  have hms : ms % 1000 < 10 ^ 3 := Nat.mod_lt _ (by decide)
  have hseconds := parseUtcDateTimeSeconds_isoText hfits (ms % 1000)
  have hdayOk : ¬ ((epochToDatetime (ms / 1000)).day = 0 ∨ (epochToDatetime (ms / 1000)).day >
      daysInMonth (epochToDatetime (ms / 1000)).year (epochToDatetime (ms / 1000)).month) := by
    have hpos := hdated.day_pos
    have hle := hdated.day_le
    omega
  rw [if_neg (by simp [hdated.inRange h]), if_neg hdayOk, hdated.unixSeconds] at hseconds
  have hmillis : parseDecimal (isoText (epochToDatetime (ms / 1000)) (ms % 1000)) 20 23
      "millisecond" = .ok (ms % 1000) := parseDecimal_decimal 3 (by simp [isoText, decimal]) hms
  rw [iso8601Utc_eq hfits]
  unfold parseAuditTimestampMs
  rw [if_neg (by simp [hasShape_isoText]), hseconds, hmillis]
  show (if ms % 1000 > 999 then _ else _) = _
  rw [if_neg (by omega), Nat.div_add_mod']

theorem lt_length_padded (width : ℕ) (hpos : 0 < width) (h : 10 ^ width ≤ n) :
    width < (padded width n).length := by
  unfold padded
  rw [if_neg (not_lt.2 h), length_map]
  exact lt_of_not_ge fun hle => not_lt.2 h ((Nat.length_toDigits_le_iff (by decide) hpos).1 hle)

theorem hasShape_eq_false (h : 10000 ≤ (epochToDatetime (ms / 1000)).year) :
    hasShape (iso8601Utc ms) = false := by
  -- the fifth byte is a digit of the year
  have hlen := lt_length_padded 4 (by decide) h
  have hdigits : ∀ b ∈ padded 4 (epochToDatetime (ms / 1000)).year, isDigit b = true := by
    rw [padded, if_neg (show ¬ _ < 10 ^ 4 by omega), toDigits_eq_decimal]
    exact fun _ => isDigit_of_mem_decimal
  have hfifth : (iso8601Utc ms)[4]? ≠ some 45 := by
    intro heq
    simp only [iso8601Utc, append_assoc, getElem?_append_left hlen] at heq
    exact absurd (hdigits 45 (mem_of_getElem? heq)) (by decide)
  simp [hasShape, hfifth]

theorem parse_iso8601Utc_error (h : endOf2099 ≤ ms / 1000) (n : ℕ) :
    parseAuditTimestampMs (iso8601Utc ms) ≠ .ok n := by
  have hdated := dated_epochToDatetime (ms / 1000)
  have hyear := hdated.year_gt h
  unfold parseAuditTimestampMs
  rcases Nat.lt_or_ge (epochToDatetime (ms / 1000)).year 10000 with hlt | hge
  · have hfits := hdated.fits hlt
    have hrange : inRange (epochToDatetime (ms / 1000)) = false := by
      simp only [inRange, Bool.and_eq_false_iff, decide_eq_false_iff_not]
      omega
    have hseconds := parseUtcDateTimeSeconds_isoText hfits (ms % 1000)
    rw [if_pos hrange] at hseconds
    rw [iso8601Utc_eq hfits, if_neg (by simp [hasShape_isoText]), hseconds]
    simp [bind, Except.bind]
  · rw [if_pos (hasShape_eq_false hge)]
    simp

/-! ## Which timestamps are read -/

/-! ## The compact form -/

theorem filter_decimal {p : UInt8 → Bool} (hp : ∀ b, isDigit b = true → p b = true) (width n : ℕ) :
    (decimal width n).filter p = decimal width n :=
  filter_eq_self.2 fun _ hb => hp _ (isDigit_of_mem_decimal hb)

theorem compact_eq (h : Fits (epochToDatetime (ms / 1000))) :
    compact ms = fieldsText [84] (epochToDatetime (ms / 1000)) (ms % 1000) := by
  have halnum : ∀ b, isDigit b = true → isAlphanumeric b = true := fun b hb => by
    simp [isAlphanumeric, hb]
  have hnotZ : ∀ b : UInt8, isDigit b = true → decide (b ≠ 90) = true := fun b hb => by
    have hle := (toNat_of_isDigit hb).2
    refine decide_eq_true fun heq => ?_
    rw [heq] at hle
    exact absurd hle (by decide)
  have hdash : isAlphanumeric 45 = false := by decide
  have hT : isAlphanumeric 84 = true := by decide
  have hcolon : isAlphanumeric 58 = false := by decide
  have hdot : isAlphanumeric 46 = false := by decide
  have hZ : isAlphanumeric 90 = true := by decide
  unfold compact
  rw [iso8601Utc_eq h]
  unfold isoText fieldsText
  simp only [filter_append, filter_decimal halnum, filter_decimal hnotZ, filter_cons,
    hdash, hT, hcolon, hdot, filter_nil]
  simp

theorem fields_lt {sep : Text} (hfits : Fits (epochToDatetime (ms' / 1000))) (hlt : ms < ms') :
    fieldsText sep (epochToDatetime (ms / 1000)) (ms % 1000) <
      fieldsText sep (epochToDatetime (ms' / 1000)) (ms' % 1000) := by
  have hms : ms' % 1000 < 10 ^ 3 := Nat.mod_lt _ (by decide)
  rcases Nat.lt_or_ge (ms / 1000) (ms' / 1000) with hsecs | hsecs
  · have hdated := dated_epochToDatetime (ms / 1000)
    have hfields := (hdated.lt_iff (dated_epochToDatetime (ms' / 1000))).1 hsecs
    simp only [fields, cons_lt_cons_iff, List.lt_irrefl, and_false, or_false] at hfields
    refine field_lt hfits.year (hfields.imp_right fun ⟨hy, hfields⟩ => ⟨hy, ?_⟩)
    refine field_lt hfits.month (hfields.imp_right fun ⟨hm, hfields⟩ => ⟨hm, ?_⟩)
    refine field_lt hfits.day (hfields.imp_right fun ⟨hd, hfields⟩ => ⟨hd, append_left_lt ?_⟩)
    refine field_lt hfits.hour (hfields.imp_right fun ⟨hh, hfields⟩ => ⟨hh, ?_⟩)
    refine field_lt hfits.min (hfields.imp_right fun ⟨hm, hfields⟩ => ⟨hm, ?_⟩)
    exact field_lt hfits.sec (.inl hfields)
  · have hsame : ms / 1000 = ms' / 1000 := by omega
    have hmillis : ms % 1000 < ms' % 1000 := by omega
    rw [hsame]
    exact append_left_lt (append_left_lt (append_left_lt (append_left_lt
      (append_left_lt (append_left_lt (append_left_lt (decimal_lt hms hmillis)))))))

/-- **Names are ordered as the instants.** -/
theorem compact_lt (h : Fits (epochToDatetime (ms / 1000))) (h' : Fits (epochToDatetime (ms' / 1000)))
    (hlt : ms < ms') : compact ms < compact ms' := by
  rw [compact_eq h, compact_eq h']
  exact fields_lt h' hlt

theorem filter_isDigit_fieldsText (t : DateTime) (millis : ℕ) :
    (fieldsText [84] t millis).filter isDigit = fieldsText [] t millis := by
  have hT : isDigit 84 = false := by decide
  unfold fieldsText
  simp only [filter_append, filter_decimal fun _ h => h, filter_cons, hT]
  rfl

theorem isDigit_of_mem_fieldsText {millis : ℕ} {b : UInt8} (h : b ∈ fieldsText [] t millis) :
    isDigit b = true := by
  unfold fieldsText at h
  simp only [mem_append, not_mem_nil, false_or] at h
  rcases h with h | h | h | h | h | h | h <;> exact isDigit_of_mem_decimal h

theorem length_fieldsText (t : DateTime) (millis : ℕ) : (fieldsText [] t millis).length = 17 := by
  simp [fieldsText]

theorem compactNumber_eq (h : Fits (epochToDatetime (ms / 1000))) :
    compactNumber ms = value (fieldsText [] (epochToDatetime (ms / 1000)) (ms % 1000)) := by
  unfold compactNumber
  rw [compact_eq h, filter_isDigit_fieldsText]
  have hlt : value (fieldsText [] (epochToDatetime (ms / 1000)) (ms % 1000)) <
      10 ^ (fieldsText [] (epochToDatetime (ms / 1000)) (ms % 1000)).length :=
    value_lt_pow fun _ => isDigit_of_mem_fieldsText
  rw [length_fieldsText] at hlt
  exact if_pos (hlt.trans (by norm_num))

theorem compactNumber_lt (h : Fits (epochToDatetime (ms / 1000)))
    (h' : Fits (epochToDatetime (ms' / 1000))) (hlt : ms < ms') :
    compactNumber ms < compactNumber ms' := by
  rw [compactNumber_eq h, compactNumber_eq h']
  refine value_lt_of_lt ?_ (fun _ => isDigit_of_mem_fieldsText) (fun _ => isDigit_of_mem_fieldsText)
    (fields_lt h' hlt)
  rw [length_fieldsText, length_fieldsText]

end AgentWallet.AuditLog.Timestamps
