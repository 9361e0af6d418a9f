import GuloGulo.Js.Uri

/-!
# Dates

`new Date` of an unknown value, and `Date.prototype.toISOString` and
`toUTCString` on a time value.
-/

namespace GuloGulo.Js

/-- `new Date(value).getTime()`; `none` is NaN. -/
def newDate (host : Host) : JsValue → Option Int
  | .date time => time.bind timeClip
  | .string s => (host.parseDate s).bind timeClip
  | .number q => timeClip (Int.tdiv q.num q.den)
  | .null => some 0
  | .bool b => some b.toNat
  | .array items => (host.dateOfObject (.array items)).bind timeClip
  | .object fields => (host.dateOfObject (.object fields)).bind timeClip
  | .undefined | .nonFinite | .other => none

theorem timeClip_eq_some {t u : Int} (h : timeClip t = some u) : u = t ∧ -maxTime ≤ u ∧ u ≤ maxTime := by
  unfold timeClip at h
  split at h
  · rename_i inside
    cases h
    exact ⟨rfl, inside⟩
  · cases h

theorem newDate_range {host : Host} {value : JsValue} {t : Int} (h : newDate host value = some t) :
    -maxTime ≤ t ∧ t ≤ maxTime := by
  have clipped {x : Option Int} (h : x.bind timeClip = some t) : -maxTime ≤ t ∧ t ≤ maxTime := by
    obtain ⟨_, _, h⟩ := Option.bind_eq_some_iff.mp h
    exact (timeClip_eq_some h).2
  cases value with
  | date | string | array | object => exact clipped h
  | number => exact (timeClip_eq_some h).2
  | null =>
    cases h
    decide
  | bool b =>
    cases h
    cases b <;> decide
  | undefined | nonFinite | other => cases h

def msPerDay : Int := 86400000

/-- Year, month and day of a day number, counted from 1970-01-01 in the
proleptic Gregorian calendar. -/
def civil (days : Int) : Int × Nat × Nat :=
  let z := days + 719468
  let era := z.fdiv 146097
  let dayOfEra := (z - era * 146097).toNat
  let yearOfEra := (dayOfEra - dayOfEra / 1460 + dayOfEra / 36524 - dayOfEra / 146096) / 365
  let dayOfYear := dayOfEra - (365 * yearOfEra + yearOfEra / 4 - yearOfEra / 100)
  let month := (5 * dayOfYear + 2) / 153
  let day := dayOfYear - (153 * month + 2) / 5 + 1
  let year : Int := yearOfEra + era * 400
  if month < 10 then (year, month + 3, day) else (year + 1, month - 9, day)

def pad (width n : Nat) : JsString :=
  let text := decimal n
  List.replicate (width - text.length) 48 ++ text

theorem parseDecimal_pad (width n : Nat) : parseDecimal (pad width n) = n := by
  have zeros (k : Nat) (s : JsString) : parseDecimal (List.replicate k 48 ++ s) = parseDecimal s := by
    induction k with
    | zero => rfl
    | succ k ih =>
      rw [List.replicate_succ, List.cons_append, ← ih]
      simp [parseDecimal, Nat.ofDigitChars]
  rw [pad, zeros, parseDecimal_decimal]

theorem pad_injective {width m n : Nat} (h : pad width m = pad width n) : m = n := by
  rw [← parseDecimal_pad width m, h, parseDecimal_pad]

/-- Four digits, or a sign and six. -/
def isoYear (year : Int) : JsString :=
  if 0 ≤ year ∧ year ≤ 9999 then pad 4 year.toNat
  else js (if year < 0 then "-" else "+") ++ pad 6 year.natAbs

def isoString (time : Int) : JsString :=
  let (year, month, day) := civil (time.fdiv msPerDay)
  let ms := (time.fmod msPerDay).toNat
  isoYear year ++ js "-" ++ pad 2 month ++ js "-" ++ pad 2 day ++ js "T" ++
    pad 2 (ms / 3600000) ++ js ":" ++ pad 2 (ms / 60000 % 60) ++ js ":" ++ pad 2 (ms / 1000 % 60) ++
    js "." ++ pad 3 (ms % 1000) ++ js "Z"

example : isoString 1783598400123 = js "2026-07-09T12:00:00.123Z" := by decide

def dayNames : List String := ["Sun", "Mon", "Tue", "Wed", "Thu", "Fri", "Sat"]

def monthNames : List String :=
  ["Jan", "Feb", "Mar", "Apr", "May", "Jun", "Jul", "Aug", "Sep", "Oct", "Nov", "Dec"]

/-- `none` is an invalid date. -/
def utcString : Option Int → JsString
  | none => js "Invalid Date"
  | some time =>
    let days := time.fdiv msPerDay
    let (year, month, day) := civil days
    let ms := (time.fmod msPerDay).toNat
    js (dayNames.getD ((days + 4).fmod 7).toNat "") ++ js ", " ++ pad 2 day ++ js " " ++
      js (monthNames.getD (month - 1) "") ++ js " " ++ js (if year < 0 then "-" else "") ++ pad 4 year.natAbs ++
      js " " ++ pad 2 (ms / 3600000) ++ js ":" ++ pad 2 (ms / 60000 % 60) ++ js ":" ++ pad 2 (ms / 1000 % 60) ++
      js " GMT"

example : utcString (some 1788256800000) = js "Tue, 01 Sep 2026 10:00:00 GMT" := by decide

/-- `[ -~]`. -/
def isPrintable (u : UInt16) : Bool := 0x20 ≤ u && u ≤ 0x7E

theorem pad_printable (width n : Nat) : ∀ u ∈ pad width n, isPrintable u := by
  have digits : ∀ u ∈ decimal n, isDigit u := by
    have := isDigits_decimal n
    rw [isDigits, Bool.and_eq_true, List.all_eq_true] at this
    exact this.2
  intro u hu
  rw [pad, List.mem_append, List.mem_replicate] at hu
  rcases hu with ⟨_, rfl⟩ | hu
  · decide
  · have := digits u hu
    simp only [isDigit, isPrintable, Bool.and_eq_true, decide_eq_true_eq] at this ⊢
    exact ⟨UInt16.le_trans (by decide) this.1, UInt16.le_trans this.2 (by decide)⟩

theorem names_printable {names : List String} (h : ∀ name ∈ names, ∀ u ∈ js name, isPrintable u) (i : Nat) :
    ∀ u ∈ js (names.getD i ""), isPrintable u := by
  by_cases inside : i < names.length
  · rw [← List.getElem_eq_getD (h := inside)]
    exact h _ (List.getElem_mem inside)
  · rw [List.getD_eq_getElem?_getD, List.getElem?_eq_none (Nat.le_of_not_lt inside)]
    exact forall_of_all (by decide)

theorem utcString_printable (time : Option Int) : ∀ u ∈ utcString time, isPrintable u := by
  have days : ∀ name ∈ dayNames, (js name).all (fun u => decide (isPrintable u)) := by decide
  have months : ∀ name ∈ monthNames, (js name).all (fun u => decide (isPrintable u)) := by decide
  cases time with
  | none => exact forall_of_all (by decide)
  | some time =>
    have day := names_printable fun name h => forall_of_all (days name h)
    have month := names_printable fun name h => forall_of_all (months name h)
    have sign (year : Int) : ∀ u ∈ js (if year < 0 then "-" else ""), isPrintable u := by
      split
      · exact forall_of_all (by decide)
      · exact forall_of_all (by decide)
    have comma : ∀ u ∈ js ", ", isPrintable u := forall_of_all (by decide)
    have blank : ∀ u ∈ js " ", isPrintable u := forall_of_all (by decide)
    have colon : ∀ u ∈ js ":", isPrintable u := forall_of_all (by decide)
    have zone : ∀ u ∈ js " GMT", isPrintable u := forall_of_all (by decide)
    simp only [utcString, List.forall_mem_append]
    exact ⟨⟨⟨⟨⟨⟨⟨⟨⟨⟨⟨⟨⟨⟨day _, comma⟩, pad_printable _ _⟩, blank⟩, month _⟩, blank⟩, sign _⟩, pad_printable _ _⟩, blank⟩,
      pad_printable _ _⟩, colon⟩, pad_printable _ _⟩, colon⟩, pad_printable _ _⟩, zone⟩

end GuloGulo.Js
