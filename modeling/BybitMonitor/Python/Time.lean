import Mathlib
import BybitMonitor.Python.Exception
import BybitMonitor.ToMathlib.CivilDate
import BybitMonitor.ToMathlib.FieldText

/-!
# UTC times

`time.gmtime` on a platform with a 64-bit `time_t`, and the two formats that the application gives
its result. `gmtime` counts years from 1900 in a C `int` and `strftime` from 0, so that it refuses
the last 1900 years of `gmtime`.

* `strftimeAccepts_iff`: the times that `strftime` formats.
* `strftimeHour_gmtime`: the hourly format of a time is a function of its hour.
* `hourText_injective`: distinct hours have distinct texts.
-/

namespace BybitMonitor

/-- The fields of `time.struct_time` that the application formats. -/
structure StructTime where
  date : CivilDate
  hour : ℕ
  minute : ℕ
  deriving DecidableEq, Repr

/-- Whether the year of a time, counted from 1900, is a C `int`: `time.gmtime` accepts no other. -/
def gmtimeAccepts (ts : ℤ) : Bool :=
  -67768040609740800 ≤ ts && ts ≤ 67768036191676799

/-- `time.gmtime(ts)`. -/
def gmtime (ts : ℤ) : Except PyExc StructTime :=
  if gmtimeAccepts ts then
    .ok { date := CivilDate.ofDays (ts / 86400)
          hour := (ts % 86400 / 3600).toNat
          minute := (ts % 3600 / 60).toNat }
  else if -2 ^ 63 ≤ ts ∧ ts < 2 ^ 63 then
    .error (.osError "Value too large for defined data type")
  else .error (.overflowError "timestamp out of range for platform time_t")

/-- What `time.strftime` raises for a year that is no C `int`. -/
def yearOverflow : PyExc := .overflowError "signed integer is greater than maximum"

/-- `time.strftime` reads the year into a C `int`; the years of `gmtime` are not below its range. -/
def strftimeYear (t : StructTime) : Except PyExc ℤ :=
  if t.date.year < 2 ^ 31 then .ok t.date.year else .error yearOverflow

/-- `time.strftime("%Y-%m-%d-%H", t)`. -/
def strftimeHour (t : StructTime) : Except PyExc String := do
  let year ← strftimeYear t
  return toString year ++ "-" ++ FieldText.pad2 t.date.month ++ "-" ++
    FieldText.pad2 t.date.day ++ "-" ++ FieldText.pad2 t.hour

/-- `time.strftime("%Y-%m-%d %H:%M UTC", t)`. -/
def strftimeMinute (t : StructTime) : Except PyExc String := do
  let year ← strftimeYear t
  return toString year ++ "-" ++ FieldText.pad2 t.date.month ++ "-" ++
    FieldText.pad2 t.date.day ++ " " ++ FieldText.pad2 t.hour ++ ":" ++
    FieldText.pad2 t.minute ++ " UTC"

theorem gmtime_of_accepts {ts : ℤ} (h : gmtimeAccepts ts = true) :
    gmtime ts = .ok { date := CivilDate.ofDays (ts / 86400)
                      hour := (ts % 86400 / 3600).toNat
                      minute := (ts % 3600 / 60).toNat } := by
  rw [gmtime, if_pos h]

/-- Whether the year of a time that `gmtime` accepts is a C `int`, so that `time.strftime` formats
it. -/
def strftimeAccepts (ts : ℤ) : Bool := gmtimeAccepts ts && ts ≤ 67767976233532799

theorem gmtimeAccepts_of_strftimeAccepts {ts : ℤ} (h : strftimeAccepts ts = true) :
    gmtimeAccepts ts = true := by
  rw [strftimeAccepts, Bool.and_eq_true] at h
  exact h.1

/-- The times that `strftime` formats. -/
theorem strftimeAccepts_iff {ts : ℤ} (h : gmtimeAccepts ts = true) :
    strftimeAccepts ts = true ↔ (CivilDate.ofDays (ts / 86400)).year < 2 ^ 31 := by
  have hjanuary : CivilDate.toDays ⟨2 ^ 31, 1, 1⟩ = 784351576777 := by decide
  rw [strftimeAccepts, h, Bool.true_and, decide_eq_true_iff, CivilDate.year_ofDays_lt_iff,
    hjanuary]
  omega

/-- The hourly text of the hour `hours` after 1970-01-01 00:00. -/
def hourText (hours : ℤ) : String :=
  toString (CivilDate.ofDays (hours / 24)).year ++ "-" ++
    FieldText.pad2 (CivilDate.ofDays (hours / 24)).month ++ "-" ++
    FieldText.pad2 (CivilDate.ofDays (hours / 24)).day ++ "-" ++
    FieldText.pad2 (hours % 24).toNat

/-- The hourly format of an accepted time is the text of its hour. -/
theorem strftimeHour_gmtime {ts : ℤ} (h : strftimeAccepts ts = true) :
    (gmtime ts >>= strftimeHour) = .ok (hourText (ts / 3600)) := by
  have hgmtime := gmtimeAccepts_of_strftimeAccepts h
  have hday : ts / 3600 / 24 = ts / 86400 := by omega
  have hhour : ts / 3600 % 24 = ts % 86400 / 3600 := by omega
  rw [gmtime_of_accepts hgmtime, hourText, hday, hhour]
  change strftimeHour _ = _
  rw [strftimeHour, strftimeYear, if_pos ((strftimeAccepts_iff hgmtime).mp h)]
  rfl

/-- An accepted time has a year that `strftime` reads. -/
theorem strftimeYear_gmtime {ts : ℤ} (h : strftimeAccepts ts = true) :
    ∃ t, gmtime ts = .ok t ∧ strftimeYear t = .ok t.date.year := by
  have hgmtime := gmtimeAccepts_of_strftimeAccepts h
  exact ⟨_, gmtime_of_accepts hgmtime, if_pos ((strftimeAccepts_iff hgmtime).mp h)⟩

/-- The other times of `gmtime` have one that it refuses. -/
theorem strftimeYear_gmtime_late {ts : ℤ} (h : gmtimeAccepts ts = true)
    (hlate : strftimeAccepts ts = false) :
    ∃ t, gmtime ts = .ok t ∧ strftimeYear t = .error yearOverflow :=
  ⟨_, gmtime_of_accepts h, if_neg (mt (strftimeAccepts_iff h).mpr (Bool.eq_false_iff.mp hlate))⟩

/-- The first second of the year 2147483648. -/
example : (gmtime 67767976233532800 >>= strftimeHour) = .error yearOverflow := by decide +kernel

/-- Distinct hours have distinct texts. -/
theorem hourText_injective : Function.Injective hourText := by
  intro n m h
  have hdigit : ('-' : Char).isDigit = false := by decide
  obtain ⟨h, hhour⟩ := FieldText.suffix_inj (FieldText.not_mem_pad2 hdigit _)
    (FieldText.not_mem_pad2 hdigit _) h
  obtain ⟨h, hday⟩ := FieldText.suffix_inj (FieldText.not_mem_pad2 hdigit _)
    (FieldText.not_mem_pad2 hdigit _) h
  obtain ⟨hyear, hmonth⟩ := FieldText.suffix_inj (FieldText.not_mem_pad2 hdigit _)
    (FieldText.not_mem_pad2 hdigit _) h
  have hdate : CivilDate.ofDays (n / 24) = CivilDate.ofDays (m / 24) := by
    cases hn : CivilDate.ofDays (n / 24)
    cases hm : CivilDate.ofDays (m / 24)
    simp only [hn, hm] at hyear hmonth hday
    rw [FieldText.toString_int_injective hyear, FieldText.pad2_injective hmonth,
      FieldText.pad2_injective hday]
  have hdiv : n / 24 = m / 24 := CivilDate.ofDays_injective hdate
  have hmod : (n % 24).toNat = (m % 24).toNat := FieldText.pad2_injective hhour
  omega

/-- The hourly text contains digits and signs only. -/
theorem colon_not_mem_hourText (hours : ℤ) : ':' ∉ (hourText hours).toList := by
  have hdigit : (':' : Char).isDigit = false := by decide
  simpa [hourText, FieldText.not_mem_pad2 hdigit] using
    FieldText.not_mem_int hdigit (by decide) (CivilDate.ofDays (hours / 24)).year

/-- The example of the source. -/
example : (gmtime 1787020200 >>= strftimeHour) = .ok "2026-08-18-02" := by decide +kernel

end BybitMonitor
