import Mathlib.Order.Basic
import Mathlib.Tactic.SplitIfs
import Mathlib.Algebra.Order.Ring.Nat

namespace Agora

/-!
# Dates and times

`datetime.date` and aware `datetime.datetime` values in UTC, to the microsecond, with the texts that
Python gives them.  They are ordered as Python orders them, through a number that grows with them.
-/

/-! ### Dates -/

def isLeap (year : ℕ) : Bool := year % 4 = 0 && (year % 100 ≠ 0 || year % 400 = 0)

def daysInMonth (year month : ℕ) : ℕ :=
  if month = 2 then if isLeap year then 29 else 28
  else if month ∈ [4, 6, 9, 11] then 30 else 31

/-- `date`. -/
@[ext]
structure Date where
  year : ℕ
  month : ℕ
  day : ℕ
  valid_year : 1 ≤ year ∧ year ≤ 9999
  valid_month : 1 ≤ month ∧ month ≤ 12
  valid_day : 1 ≤ day ∧ day ≤ daysInMonth year month
deriving DecidableEq

theorem valid2026 : 1 ≤ 2026 ∧ 2026 ≤ 9999 := by decide

theorem validSeptember : 1 ≤ 9 ∧ 9 ≤ 12 := by decide

theorem validFifth : 1 ≤ 5 ∧ 5 ≤ daysInMonth 2026 9 := by decide

theorem validSixth : 1 ≤ 6 ∧ 6 ≤ daysInMonth 2026 9 := by decide

theorem validNoon : 12 < 24 ∧ 0 < 60 ∧ 0 < 60 ∧ 0 < 1000000 := by decide

theorem daysInMonth_le (year month : ℕ) : daysInMonth year month ≤ 31 := by
  unfold daysInMonth
  split_ifs <;> omega

/-- A number that orders dates by year, month and day. -/
def Date.key (d : Date) : ℕ := (d.year * 16 + d.month) * 32 + d.day

theorem Date.key_injective : Function.Injective Date.key := by
  intro d e h
  have hd := d.valid_month
  have he := e.valid_month
  have hday := d.valid_day.2.trans (daysInMonth_le _ _)
  have hday' := e.valid_day.2.trans (daysInMonth_le _ _)
  unfold Date.key at h
  ext <;> omega

instance : LinearOrder Date := LinearOrder.lift' Date.key Date.key_injective

theorem Date.le_iff {d e : Date} : d ≤ e ↔ d.key ≤ e.key := Iff.rfl

/-! ### Times -/

/-- An aware `datetime` in UTC. -/
@[ext]
structure Datetime where
  date : Date
  hour : ℕ
  minute : ℕ
  second : ℕ
  microsecond : ℕ
  valid_time : hour < 24 ∧ minute < 60 ∧ second < 60 ∧ microsecond < 1000000
deriving DecidableEq

/-- The microseconds of the day. -/
def Datetime.ofDay (t : Datetime) : ℕ :=
  ((t.hour * 60 + t.minute) * 60 + t.second) * 1000000 + t.microsecond

theorem Datetime.ofDay_lt (t : Datetime) : t.ofDay < 86400000000 := by
  have h := t.valid_time
  unfold Datetime.ofDay
  omega

/-- A number that orders times by their date and the time of the day. -/
def Datetime.key (t : Datetime) : ℕ := t.date.key * 86400000000 + t.ofDay

theorem Datetime.key_injective : Function.Injective Datetime.key := by
  intro t u h
  have ht := t.ofDay_lt
  have hu := u.ofDay_lt
  unfold Datetime.key at h
  have hdate : t.date.key = u.date.key := by omega
  have htime : t.ofDay = u.ofDay := by omega
  have hvalid := t.valid_time
  have hvalid' := u.valid_time
  unfold Datetime.ofDay at htime
  ext1
  · exact Date.key_injective hdate
  all_goals omega

instance : LinearOrder Datetime := LinearOrder.lift' Datetime.key Datetime.key_injective

/-! ### Texts -/

/-- `n` with leading zeros to a width. -/
def zeroPadded (width n : ℕ) : List Char :=
  List.replicate (width - (Nat.toDigits 10 n).length) '0' ++ Nat.toDigits 10 n

/-- `date.isoformat()`. -/
def Date.isoformat (d : Date) : List Char :=
  zeroPadded 4 d.year ++ '-' :: zeroPadded 2 d.month ++ '-' :: zeroPadded 2 d.day

/-- `%H:%M:%S`. -/
def Datetime.clock (t : Datetime) : List Char :=
  zeroPadded 2 t.hour ++ ':' :: zeroPadded 2 t.minute ++ ':' :: zeroPadded 2 t.second

/-- `datetime.isoformat().replace("+00:00", "Z")`: microseconds only where there are any. -/
def Datetime.zulu (t : Datetime) : List Char :=
  t.date.isoformat ++ 'T' :: t.clock
    ++ (if t.microsecond = 0 then [] else '.' :: zeroPadded 6 t.microsecond) ++ ['Z']

/-- `datetime.strftime("%Y-%m-%dT%H:%M:%S.%fZ")`: the C library writes the year without leading
    zeros. -/
def Datetime.timestamp (t : Datetime) : List Char :=
  Nat.toDigits 10 t.date.year ++ '-' :: (zeroPadded 2 t.date.month ++ '-' :: (zeroPadded 2 t.date.day
    ++ 'T' :: (zeroPadded 2 t.hour ++ ':' :: (zeroPadded 2 t.minute ++ ':' :: (zeroPadded 2 t.second
      ++ '.' :: (zeroPadded 6 t.microsecond ++ ['Z']))))))

/-- The numbers in a text. -/
def numbersIn (cs : List Char) : List ℕ :=
  (cs.splitOnP fun c => !c.isDigit).map fun ds => Nat.ofDigitChars 10 ds 0

theorem ofDigitChars_zeroPadded (width n : ℕ) :
    Nat.ofDigitChars 10 (zeroPadded width n) 0 = n := by
  unfold zeroPadded
  induction width - (Nat.toDigits 10 n).length with
  | zero => simp [Nat.ofDigitChars_ten_toDigits]
  | succ k ih =>
    rw [List.replicate_succ, List.cons_append, Nat.ofDigitChars_cons]
    exact ih

theorem isDigit_zeroPadded {width n : ℕ} {c : Char} (h : c ∈ zeroPadded width n) :
    c.isDigit = true := by
  rcases List.mem_append.mp h with h | h
  · rw [List.eq_of_mem_replicate h]
    decide
  · exact Nat.isDigit_of_mem_toDigits (by decide) (by decide) h

theorem numbersIn_cons {ds : List Char} {n : ℕ} {c : Char} {cs : List Char}
    (hvalue : Nat.ofDigitChars 10 ds 0 = n) (hdigits : ∀ d ∈ ds, d.isDigit = true)
    (hc : c.isDigit = false) : numbersIn (ds ++ c :: cs) = n :: numbersIn cs := by
  have hsplit : (ds ++ c :: cs).splitOnP (fun c => !c.isDigit)
      = ds :: cs.splitOnP fun c => !c.isDigit :=
    List.splitOnP_append_cons_of_forall_mem (fun d hd => by simp [hdigits d hd]) c (by simp [hc]) cs
  rw [numbersIn, hsplit, List.map_cons, hvalue, numbersIn]

/-- A timestamp says what the time is. -/
theorem numbersIn_timestamp (t : Datetime) : numbersIn t.timestamp
    = [t.date.year, t.date.month, t.date.day, t.hour, t.minute, t.second, t.microsecond, 0] := by
  have hyear : ∀ d ∈ Nat.toDigits 10 t.date.year, d.isDigit = true := fun d hd =>
    Nat.isDigit_of_mem_toDigits (by decide) (by decide) hd
  have hfield {width n : ℕ} {c : Char} {cs : List Char} (hc : c.isDigit = false) :
      numbersIn (zeroPadded width n ++ c :: cs) = n :: numbersIn cs :=
    numbersIn_cons (ofDigitChars_zeroPadded width n) (fun _ => isDigit_zeroPadded) hc
  unfold Datetime.timestamp
  rw [numbersIn_cons Nat.ofDigitChars_ten_toDigits hyear (by decide), hfield (by decide),
    hfield (by decide), hfield (by decide), hfield (by decide), hfield (by decide),
    hfield (by decide)]
  rfl

theorem Datetime.timestamp_injective : Function.Injective Datetime.timestamp := by
  intro t u h
  have hnumbers := congrArg numbersIn h
  rw [numbersIn_timestamp, numbersIn_timestamp] at hnumbers
  simp only [List.cons.injEq, and_true] at hnumbers
  obtain ⟨hyear, hmonth, hday, hhour, hminute, hsecond, hmicrosecond⟩ := hnumbers
  exact Datetime.ext (Date.ext hyear hmonth hday) hhour hminute hsecond hmicrosecond

/-- The time with these numbers, when there is one. -/
def Datetime.ofNumbers (year month day hour minute second microsecond : ℕ) : Option Datetime :=
  if h : ((1 ≤ year ∧ year ≤ 9999) ∧ (1 ≤ month ∧ month ≤ 12) ∧ (1 ≤ day ∧ day ≤ daysInMonth year month))
      ∧ hour < 24 ∧ minute < 60 ∧ second < 60 ∧ microsecond < 1000000 then
    some ⟨⟨year, month, day, h.1.1, h.1.2.1, h.1.2.2⟩, hour, minute, second, microsecond, h.2⟩
  else none

theorem Datetime.ofNumbers_eq (t : Datetime) : Datetime.ofNumbers t.date.year t.date.month t.date.day
    t.hour t.minute t.second t.microsecond = some t :=
  dif_pos ⟨⟨t.date.valid_year, t.date.valid_month, t.date.valid_day⟩, t.valid_time⟩

/-- The time that a text of the shape of `zulu` says. -/
def Datetime.ofZulu (cs : List Char) : Option Datetime :=
  match numbersIn cs with
  | [year, month, day, hour, minute, second, 0] =>
    Datetime.ofNumbers year month day hour minute second 0
  | [year, month, day, hour, minute, second, microsecond, 0] =>
    Datetime.ofNumbers year month day hour minute second microsecond
  | _ => none

theorem Datetime.ofZulu_zulu (t : Datetime) : Datetime.ofZulu t.zulu = some t := by
  have hfield {width n : ℕ} {c : Char} {cs : List Char} (hc : c.isDigit = false) :
      numbersIn (zeroPadded width n ++ c :: cs) = n :: numbersIn cs :=
    numbersIn_cons (ofDigitChars_zeroPadded width n) (fun _ => isDigit_zeroPadded) hc
  have hnumbers := t.ofNumbers_eq
  unfold Datetime.ofZulu Datetime.zulu Date.isoformat Datetime.clock
  split_ifs with hzero
  · rw [hzero] at hnumbers
    simp only [List.append_assoc, List.cons_append, List.nil_append]
    rw [hfield (by decide), hfield (by decide), hfield (by decide), hfield (by decide),
      hfield (by decide), hfield (by decide), show numbersIn [] = [0] from rfl]
    exact hnumbers
  · simp only [List.append_assoc, List.cons_append]
    rw [hfield (by decide), hfield (by decide), hfield (by decide), hfield (by decide),
      hfield (by decide), hfield (by decide), hfield (by decide), show numbersIn [] = [0] from rfl]
    simpa using hnumbers

end Agora
