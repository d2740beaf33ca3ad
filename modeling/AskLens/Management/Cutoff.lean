import AskLens.Compiler.Windows
import AskLens.Python.TemporalTexts
import AskLens.Results.Serialization

/-!
# Cutoffs

`parse_before` reads the cutoff of a lifecycle command, and `canonical_utc`
writes it into the output of the command. `parse_datetime` belongs to Django and
is a parameter.
-/
namespace AskLens.Management

open Python Results Compiler

/-- What the helpers of the lifecycle commands raise. -/
inductive LifecycleError where
  | commandError (message : String)
  | runtimeError (message : String)
  | builtin (e : BuiltinError)
deriving DecidableEq

def beforeError : LifecycleError :=
  .commandError ("--before must be an uppercase, offset-aware RFC 3339 timestamp " ++
    "earlier than the current time.")

/-- A `datetime.datetime` that has an offset. -/
structure AwareDatetime where
  value : DatetimeValue
  offset : ℤ
  aware : value.offset = some offset

/-- The UTC moment. Comparisons of aware datetimes compare these. -/
def AwareDatetime.moment (d : AwareDatetime) : ℤ :=
  ((d.value.date.ordinal : ℤ) - 1) * microsPerDay + d.value.time.micros - d.offset * 1000000

/-- `timezone.is_naive` gives `none`. -/
def aware? (d : DatetimeValue) : Option AwareDatetime :=
  match h : d.offset with
  | none => none
  | some offset => some ⟨d, offset, h⟩

/-- `parse_before`; `now` is what `_current_time` returns. -/
def parseBefore (parseDatetime : String → Except BuiltinError (Option DatetimeValue))
    (now : DatetimeValue) : PyScalar → Except LifecycleError AwareDatetime
  | .str _ (.text value) =>
    if isDatetimeText value.toList then
      match parseDatetime value with
      | .error .valueError | .ok none => .error beforeError
      | .error e => .error (.builtin e)
      | .ok (some parsed) =>
        match aware? parsed, aware? now with
        | none, _ => .error beforeError
        | some _, none =>
          .error (.runtimeError "The audit lifecycle clock must be timezone-aware.")
        | some parsed, some now =>
          if now.moment ≤ parsed.moment then .error beforeError else .ok parsed
    else .error beforeError
  | _ => .error beforeError

/-! ## The calendar fields of a moment -/

theorem yearOf_range {moment : ℤ} (h : InRange moment) : 1 ≤ yearOf moment ∧ yearOf moment ≤ 9999 := by
  obtain ⟨month, day, hlies⟩ := exists_liesIn moment
  have hlast := hlies.month_lt h
  rw [yearOf, hlies.ofOrdinal]
  dsimp only
  omega

theorem monthOf_range (moment : ℤ) : 1 ≤ monthOf moment ∧ monthOf moment ≤ 12 := by
  obtain ⟨month, day, hlies⟩ := exists_liesIn moment
  rw [monthOf, hlies.ofOrdinal]
  dsimp only
  omega

theorem dayOfMonth_range (moment : ℤ) :
    1 ≤ dayOfMonth moment ∧ dayOfMonth moment ≤ daysInMonth (yearOf moment) (monthOf moment) := by
  obtain ⟨month, day, hlies⟩ := exists_liesIn moment
  rw [dayOfMonth, yearOf, monthOf, hlies.ofOrdinal]
  exact ⟨hlies.day_pos, hlies.day_le⟩

theorem hourOf_lt (moment : ℤ) : (moment % microsPerDay).toNat / 3600000000 < 24 := by
  have := Int.emod_lt_of_pos moment (show 0 < microsPerDay by decide)
  simp only [microsPerDay] at this ⊢
  omega

def dateOf (moment : ℤ) (h : InRange moment) : Date where
  year := yearOf moment
  month := monthOf moment
  day := dayOfMonth moment
  year_range := yearOf_range h
  month_range := monthOf_range moment
  day_range := dayOfMonth_range moment

def timeOf (moment : ℤ) : Time where
  hour := (moment % microsPerDay).toNat / 3600000000
  minute := (moment % microsPerDay).toNat / 60000000 % 60
  second := (moment % microsPerDay).toNat / 1000000 % 60
  microsecond := (moment % microsPerDay).toNat % 1000000
  hour_lt := hourOf_lt moment
  minute_lt := Nat.mod_lt _ (by decide)
  second_lt := Nat.mod_lt _ (by decide)
  microsecond_lt := Nat.mod_lt _ (by decide)

def utcDatetime (moment : ℤ) (h : InRange moment) : Datetime where
  date := dateOf moment h
  time := timeOf moment
  offset := 0
  offset_lt := by decide

theorem ordinal_dateOf {moment : ℤ} (h : InRange moment) : (dateOf moment h).ordinal = dayOf moment := by
  obtain ⟨month, day, hlies⟩ := exists_liesIn moment
  show ordinal (yearOf moment) (monthOf moment) (dayOfMonth moment) = _
  rw [yearOf, monthOf, dayOfMonth, hlies.ofOrdinal, hlies.ordinal]
  exact ordinal_month month day

theorem moment_utcDatetime {moment : ℤ} (h : InRange moment) :
    (utcDatetime moment h).moment = moment := by
  have hlow := h.1
  have hmod := Int.emod_nonneg moment (show microsPerDay ≠ 0 by decide)
  have hsplit := Int.emod_add_mul_ediv moment microsPerDay
  simp only [Datetime.moment, utcDatetime, ordinal_dateOf h, dayOf, Time.micros, timeOf]
  simp only [microsPerDay] at *
  omega

/-! ## The canonical text -/

/-- `value.astimezone(UTC)`. -/
def astimezoneUtc (value : AwareDatetime) : Except LifecycleError Datetime :=
  if h : InRange value.moment then .ok (utcDatetime value.moment h)
  else .error (.builtin .overflowError)

/-- `%Y`; before Python 3.13 the C library decides whether short years are padded. -/
def formatYear (padsYear : Bool) (year : ℕ) : List Char :=
  if padsYear then pad 4 year else Nat.toDigits 10 year

/-- `strftime("%Y-%m-%dT%H:%M:%S")`. -/
def strftime (padsYear : Bool) (value : Datetime) : List Char :=
  formatYear padsYear value.date.year ++ '-' :: (pad 2 value.date.month ++ '-' ::
    (pad 2 value.date.day ++ 'T' :: (pad 2 value.time.hour ++ ':' ::
      (pad 2 value.time.minute ++ ':' :: pad 2 value.time.second))))

def canonicalUtc (padsYear : Bool) (value : AwareDatetime) : Except LifecycleError String := do
  let utcValue ← astimezoneUtc value
  let base := strftime padsYear utcValue
  if utcValue.time.microsecond ≠ 0 then
    let fraction := Decimal.stripRight '0' (pad 6 utcValue.time.microsecond)
    .ok (String.ofList (base ++ '.' :: (fraction ++ ['Z'])))
  else .ok (String.ofList (base ++ ['Z']))

theorem stripRight_append_replicate (c : Char) (cs : List Char) :
    ∃ k, cs = Decimal.stripRight c cs ++ List.replicate k c := by
  induction cs using List.reverseRecOn with
  | nil => exact ⟨0, rfl⟩
  | append_singleton cs d ih =>
    by_cases hd : d = c
    · obtain ⟨k, hk⟩ := ih
      refine ⟨k + 1, ?_⟩
      rw [hd, Decimal.stripRight_concat_self, List.replicate_succ', ← List.append_assoc, ← hk]
    · exact ⟨0, by rw [Decimal.stripRight_concat_of_ne hd]; simp⟩

/-- A fraction without its trailing zeros reads as the same microseconds. -/
theorem readFraction_stripRight {n : ℕ} (hpos : n ≠ 0) (h : n < 1000000) :
    readFraction ('.' :: Decimal.stripRight '0' (pad 6 n)) = some n := by
  obtain ⟨k, hk⟩ := stripRight_append_replicate '0' (pad 6 n)
  generalize Decimal.stripRight '0' (pad 6 n) = ds at hk ⊢
  have hread := readDigits_pad (show n < 10 ^ 6 by omega)
  rw [hk, ← pad_zero, readDigits_append_pad ds (Nat.pow_pos (by decide))] at hread
  obtain ⟨value, hvalue, rfl⟩ := Option.map_eq_some_iff.mp hread
  have hlength : ds.length + k = 6 := by
    have := congrArg List.length hk
    simpa using this.symm
  have hne : ds ≠ [] := by
    rintro rfl
    obtain rfl : 0 = value := by simpa [readDigits] using hvalue
    simp at hpos
  have hshort : ds.length ≤ 6 := by omega
  have hzeros : 6 - ds.length = k := by omega
  simp only [readFraction]
  rw [if_pos ⟨hne, hshort⟩, hvalue, hzeros]
  rfl

def utcFraction (microsecond : ℕ) : List Char :=
  if microsecond = 0 then [] else '.' :: Decimal.stripRight '0' (pad 6 microsecond)

theorem readFraction_utcFraction {n : ℕ} (h : n < 1000000) :
    readFraction (utcFraction n) = some n := by
  unfold utcFraction
  split_ifs with hzero
  · simp [readFraction, hzero]
  · exact readFraction_stripRight hzero h

theorem isClockChar_utcFraction (n : ℕ) : ∀ c ∈ utcFraction n, isClockChar c = true := by
  intro c hc
  unfold utcFraction at hc
  split_ifs at hc with hzero
  · cases hc
  · rcases List.mem_cons.mp hc with rfl | hc
    · rfl
    · exact isClockChar_pad c ((List.rdropWhile_prefix _ _).subset hc)

/-- The text that `canonical_utc` writes. -/
def canonicalText (padsYear : Bool) (value : Datetime) : List Char :=
  strftime padsYear value ++ (utcFraction value.time.microsecond ++ ['Z'])

theorem canonicalUtc_eq (padsYear : Bool) (value : AwareDatetime) :
    canonicalUtc padsYear value =
      if h : InRange value.moment then
        .ok (String.ofList (canonicalText padsYear (utcDatetime value.moment h)))
      else .error (.builtin .overflowError) := by
  unfold canonicalUtc astimezoneUtc
  split_ifs with h
  · rw [Checks.ok_bind]
    unfold canonicalText utcFraction
    by_cases hzero : (utcDatetime value.moment h).time.microsecond = 0
    · simp [hzero]
    · simp [hzero]
  · rfl

/-- Four digits of the year make the text one that `fromisoformat` reads back. -/
theorem fromisoformat_canonicalText {padsYear : Bool} (value : Datetime)
    (hyear : formatYear padsYear value.date.year = pad 4 value.date.year)
    (hoffset : value.offset = 0) :
    Datetime.fromisoformat (canonicalText padsYear value) = some value := by
  have hshape : canonicalText padsYear value = value.date.isoformat ++ 'T' ::
      ((pad 2 value.time.hour ++ ':' :: (pad 2 value.time.minute ++ ':' ::
        (pad 2 value.time.second ++ utcFraction value.time.microsecond))) ++ ['Z']) := by
    simp [canonicalText, strftime, Date.isoformat, hyear]
  rw [hshape]
  apply value.fromisoformat_parts
  · exact isClockChar_time value.time (isClockChar_utcFraction _)
  · exact ⟨'Z', [], rfl, rfl⟩
  · exact value.time.fromisoformat_fraction (readFraction_utcFraction value.time.microsecond_lt)
  · rw [hoffset]
    rfl

/-- A year is written with four digits when it has them or when it is padded. -/
theorem formatYear_eq_pad {padsYear : Bool} {year : ℕ} (hyear : 1 ≤ year ∧ year ≤ 9999)
    (h : padsYear = true ∨ 1000 ≤ year) : formatYear padsYear year = pad 4 year := by
  unfold formatYear
  split_ifs with hpads
  · rfl
  · have hlong : ¬ (Nat.toDigits 10 year).length ≤ 3 := by
      rw [Nat.length_toDigits_le_iff (by decide) (by decide)]
      have := h.resolve_left hpads
      omega
    have hnone : 4 - (Nat.toDigits 10 year).length = 0 := by omega
    rw [pad_eq_zeros_append (by omega) (by omega), hnone]
    rfl

theorem not_isDatetimeText_of_short_year (value : Datetime) (h : value.date.year < 1000) :
    isDatetimeText (canonicalText false value) = false := by
  have hshort : (Nat.toDigits 10 value.date.year).length ≤ 3 :=
    (Nat.length_toDigits_le_iff (by decide) (by decide)).mpr h
  obtain ⟨rest, hrest⟩ : ∃ rest, canonicalText false value =
      Nat.toDigits 10 value.date.year ++ '-' :: rest := by
    simp [canonicalText, strftime, formatYear]
  have hdash : '-' ∈ ((canonicalText false value).take 10).take 4 := by
    rw [List.take_take, hrest, List.mem_take_iff_getElem]
    refine ⟨(Nat.toDigits 10 value.date.year).length, ?_, ?_⟩
    · simp
      omega
    · simp
  have hdigits : isDigitText (((canonicalText false value).take 10).take 4) = false := by
    rw [Bool.eq_false_iff]
    intro hall
    exact absurd (List.all_eq_true.mp hall '-' hdash) (by decide)
  simp [isDatetimeText, isDateText, hdigits]

/-! ## Reading the canonical text back -/

/-- What the documentation of `parse_datetime` promises about texts of the form: a value is the aware
datetime that the text denotes, and a date, a time and an offset in range have one. -/
structure ParsesDatetimes (parseDatetime : String → Except BuiltinError (Option DatetimeValue)) :
    Prop where
  denotes : ∀ s result, isDatetimeText s.toList = true → parseDatetime s = .ok result →
    ∃ d parsed, result = some d ∧ aware? d = some parsed ∧ parsed.moment = textMoment s.toList
  accepts : ∀ s d, Datetime.fromisoformat s.toList = some d → ∃ result, parseDatetime s = .ok result

/-- The cutoff has a canonical text, which `parse_before` accepts as the same instant. -/
def RoundTrips (parseDatetime : String → Except BuiltinError (Option DatetimeValue))
    (padsYear : Bool) (now : DatetimeValue) (cutoff : AwareDatetime) : Prop :=
  ∃ text, canonicalUtc padsYear cutoff = .ok text ∧
    ∃ again, parseBefore parseDatetime now (.str none text) = .ok again ∧
      again.moment = cutoff.moment

section

variable {parseDatetime : String → Except BuiltinError (Option DatetimeValue)}
  {now later : DatetimeValue} {cls : PyClass} {s : String} {cutoff : AwareDatetime}

theorem parseBefore_eq_ok : parseBefore parseDatetime now (.str cls s) = .ok cutoff ↔
    isDatetimeText s.toList = true ∧ ∃ d, parseDatetime s = .ok (some d) ∧
      aware? d = some cutoff ∧ ∃ clock, aware? now = some clock ∧ cutoff.moment < clock.moment := by
  simp only [parseBefore]
  by_cases hform : isDatetimeText s.toList = true
  · rw [if_pos hform]
    cases hparse : parseDatetime s with
    | error e => cases e <;> simp
    | ok result =>
      cases result with
      | none => simp
      | some d =>
        cases haware : aware? d with
        | none => simp [haware]
        | some parsed =>
          cases hclock : aware? now with
          | none => simp [haware]
          | some clock =>
            by_cases hlate : clock.moment ≤ parsed.moment
            · simp [hform, haware, hlate]
              rintro rfl
              omega
            · simp [hform, haware, hlate]
              rintro rfl
              omega
  · simp [hform]

/-- The cutoff round-trips exactly when its instant, in UTC, has a year from 1 to 9999 that is
written with four digits. The clock does not go back meanwhile. -/
theorem cutoff_roundTrips_iff (hparse : ParsesDatetimes parseDatetime) (padsYear : Bool)
    (hlater : ∀ clock ∈ aware? now, ∃ clock' ∈ aware? later, clock.moment ≤ clock'.moment)
    (h : parseBefore parseDatetime now (.str cls s) = .ok cutoff) :
    RoundTrips parseDatetime padsYear later cutoff ↔
      InRange (textMoment s.toList) ∧
        (padsYear = true ∨ 1000 ≤ yearOf (textMoment s.toList)) := by
  obtain ⟨hform, d, hd, haware, clock, hclock, hpast⟩ := parseBefore_eq_ok.mp h
  have hmoment : cutoff.moment = textMoment s.toList := by
    obtain ⟨d', parsed, hsome, hparsed, hmoment⟩ := hparse.denotes _ _ hform hd
    obtain rfl := Option.some.inj hsome
    obtain rfl := Option.some.inj (haware.symm.trans hparsed)
    exact hmoment
  rw [← hmoment]
  constructor
  · rintro ⟨text, htext, again, hagain, -⟩
    rw [canonicalUtc_eq] at htext
    split_ifs at htext with hrange
    obtain rfl := Except.ok.inj htext
    refine ⟨hrange, ?_⟩
    by_contra hshort
    rw [not_or, Bool.not_eq_true, not_le] at hshort
    obtain ⟨rfl, hyear⟩ := hshort
    have hrefused := not_isDatetimeText_of_short_year (utcDatetime cutoff.moment hrange) hyear
    have hform' := (parseBefore_eq_ok.mp hagain).1
    rw [String.toList_ofList, hrefused] at hform'
    cases hform'
  · rintro ⟨hrange, hyear⟩
    have hread := fromisoformat_canonicalText (utcDatetime cutoff.moment hrange)
      (formatYear_eq_pad (yearOf_range hrange) hyear) rfl
    obtain ⟨hform', -, hmoment'⟩ := Datetime.fromisoformat_eq_some hread
    rw [moment_utcDatetime] at hmoment'
    rw [← String.toList_ofList (l := canonicalText _ _)] at hread hform' hmoment'
    obtain ⟨result, hresult⟩ := hparse.accepts _ _ hread
    obtain ⟨d', again, rfl, hagain, hdenoted⟩ := hparse.denotes _ _ hform' hresult
    obtain ⟨clock', hclock', hle⟩ := hlater clock hclock
    refine ⟨_, ?_, again, parseBefore_eq_ok.mpr ⟨hform', d', hresult, hagain, clock', hclock', ?_⟩, ?_⟩
    · rw [canonicalUtc_eq, dif_pos hrange]
    · omega
    · omega

end

/-- `parse_datetime` on texts of the form. -/
def parseDatetime (s : String) : Except BuiltinError (Option DatetimeValue) :=
  if isDatetimeText s.toList then
    let (year, month, day) := dateNumbers (s.toList.take 10)
    let (hour, minute, second, microsecond) := timeNumbers (timePart s.toList)
    match Date.of? year month day, Time.of? hour minute second microsecond with
    | some date, some time =>
      if h : (statedOffset s.toList).natAbs < 1440 then
        .ok (some ⟨date, time, some (statedOffset s.toList * 60), by rintro _ ⟨⟩; omega⟩)
      else .error .valueError
    | _, _ => .error .valueError
  else .ok none

theorem parsesDatetimes_parseDatetime : ParsesDatetimes parseDatetime where
  denotes := by
    intro s result hform h
    unfold parseDatetime at h
    rw [if_pos hform] at h
    dsimp only at h
    split at h
    · rename_i date time hdate htime
      split_ifs at h with hoffset
      obtain rfl := Except.ok.inj h
      refine ⟨_, _, rfl, rfl, ?_⟩
      obtain ⟨hyear, hmonth, hday⟩ := Date.of?_eq_some hdate
      obtain ⟨hhour, hminute, hsecond, hmicrosecond⟩ := Time.of?_eq_some htime
      simp only [AwareDatetime.moment, textMoment, clockMicros, Date.ordinal, Time.micros, hyear,
        hmonth, hday, hhour, hminute, hsecond, hmicrosecond]
      omega
    · cases h
  accepts := by
    intro s d h
    obtain ⟨hform, hdate, htime, hoffset⟩ := Datetime.fromisoformat_numbers h
    have hlt := d.offset_lt
    rw [← hoffset] at hlt
    unfold parseDatetime
    rw [if_pos hform]
    simp only [hdate, htime, Date.of?_self, Time.of?_self, dif_pos hlt]
    exact ⟨_, rfl⟩

def noon : DatetimeValue where
  date := ⟨2026, 8, 5, by decide, by decide, by decide⟩
  time := ⟨12, 0, 0, 0, by decide, by decide, by decide, by decide⟩
  offset := some 0
  offset_lt := by simp

theorem morning_roundTrips : ∃ cutoff,
    parseBefore parseDatetime noon (.str none "2026-08-05T12:00:00.1+02:00") = .ok cutoff ∧
      RoundTrips parseDatetime false noon cutoff := by
  obtain ⟨cutoff, h⟩ : ∃ cutoff,
      parseBefore parseDatetime noon (.str none "2026-08-05T12:00:00.1+02:00") = .ok cutoff :=
    ⟨_, parseBefore_eq_ok.mpr ⟨by decide, _, rfl, rfl, _, rfl, by decide⟩⟩
  have hclock : ∀ clock ∈ aware? noon, ∃ clock' ∈ aware? noon, clock.moment ≤ clock'.moment :=
    fun clock hclock => ⟨clock, hclock, le_rfl⟩
  have hiff := cutoff_roundTrips_iff parsesDatetimes_parseDatetime false hclock h
  exact ⟨cutoff, h, hiff.mpr ⟨by decide, .inr (by decide)⟩⟩

/-- The first minute of year one, one minute ahead of UTC, lies before year one. The last day of
year 999 is written with three digits of the year, and that text is refused. -/
theorem early_cutoffs_do_not_roundTrip :
    (∃ cutoff, parseBefore parseDatetime noon (.str none "0001-01-01T00:00:00+00:01") = .ok cutoff ∧
      canonicalUtc true cutoff = .error (.builtin .overflowError)) ∧
    ∃ cutoff, parseBefore parseDatetime noon (.str none "0999-12-31T00:00:00Z") = .ok cutoff ∧
      canonicalUtc false cutoff = .ok "999-12-31T00:00:00Z" ∧
      parseBefore parseDatetime noon (.str none "999-12-31T00:00:00Z") = .error beforeError := by
  constructor
  · refine ⟨_, parseBefore_eq_ok.mpr ⟨by decide, _, rfl, rfl, _, rfl, by decide⟩, ?_⟩
    rw [canonicalUtc_eq, dif_neg (by decide)]
  · refine ⟨_, parseBefore_eq_ok.mpr ⟨by decide, _, rfl, rfl, _, rfl, by decide⟩, ?_, ?_⟩
    · rw [canonicalUtc_eq, dif_pos (by decide)]
      rfl
    · have hform : isDatetimeText "999-12-31T00:00:00Z".toList = false := by decide
      simp only [parseBefore, hform]
      rfl

end AskLens.Management
