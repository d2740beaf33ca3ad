import AskLens.Planning.Schemas
import AskLens.Planning.Temporal
import AskLens.Django.QuerySet

/-!
# Relative time

The half-open windows of `last_n_days` and `last_n_months`. Errors of the date
arithmetic inside the guarded block become plan errors; the conversions outside
it do not.
-/
namespace AskLens.Compiler

open Python Django Catalog Planning Checks

def outOfRange : PyException :=
  ErrorClass.planValidation.exc
    "Relative temporal filter is outside the supported datetime range."

/-- A moment that `datetime` can represent, or the exception `e`. -/
def inRangeOr (e : PyException) (moment : ℤ) : Py ℤ :=
  if InRange moment then .ok moment else .error e

/-- `now.astimezone(UTC)`, outside the guarded block. -/
def currentMoment (now : Clock) : Py ℤ :=
  inRangeOr (.builtin .overflowError) (now.wall - now.offset)

/-- `subtract_months`; `none` when the year is out of range. -/
def subtractMonths (wall : ℤ) (months : ℤ) : Option ℤ :=
  let ymd := ofOrdinal (dayOf wall)
  let monthIndex : ℤ := (ymd.2.1 : ℤ) - months - 1
  let year : ℤ := ymd.1 + monthIndex / 12
  let month := (monthIndex % 12).toNat + 1
  if 1 ≤ year ∧ year ≤ 9999 then
    let day := min ymd.2.2 (daysInMonth year.toNat month)
    some (((ordinal year.toNat month day : ℤ) - 1) * microsPerDay + wall % microsPerDay)
  else none

/-- `_resolve_local_wall_time(..).astimezone(UTC)`: the moment of the earlier occurrence, which
the round trip through UTC keeps. -/
def resolveLocalWallTime (zone : ZoneInfo) (wall : ℤ) : Py ℤ := do
  let moment ← inRangeOr outOfRange (wall - zone.offsetOfWall wall)
  let _ ← inRangeOr outOfRange (moment + zone.offsetAt moment)
  .ok moment

def maxTimedeltaDays : ℤ := 999999999

/-- The guarded block of `relative_datetime_bounds` for days. -/
def daysStart (current amount : ℤ) : Py ℤ :=
  if maxTimedeltaDays < amount then .error outOfRange
  else inRangeOr outOfRange (current - amount * microsPerDay)

/-- The guarded block of `relative_datetime_bounds` for months. -/
def monthsStart (zone : ZoneInfo) (current amount : ℤ) : Py ℤ := do
  let localNow ← inRangeOr outOfRange (current + zone.offsetAt current)
  match subtractMonths localNow amount with
  | some target => resolveLocalWallTime zone target
  | none => .error outOfRange

def relativeDatetimeBounds (op : FilterOperator) (amount : ℤ) (now : Clock) (zone : ZoneInfo) :
    Py (ℤ × ℤ) := do
  let current ← currentMoment now
  match op with
  | .lastNDays => do
    let start ← daysStart current amount
    .ok (start, current)
  | .lastNMonths => do
    let start ← monthsStart zone current amount
    .ok (start, current)
  | _ =>
    .error (ErrorClass.planValidation.exc
      s!"Unsupported relative date operator {pyRepr (operatorName op)}.")

/-- `moment.astimezone(zone).date()`, outside the guarded block. -/
def localDay (zone : ZoneInfo) (moment : ℤ) : Py ℕ := do
  let wall ← inRangeOr (.builtin .overflowError) (moment + zone.offsetAt moment)
  .ok (dayOf wall)

def parseTemporalValue (type : FieldType) (value : PyScalar) : Py OrmValue :=
  match type with
  | .date => do
    let d ← parseDateString value
    .ok (.date d.ordinal)
  | .datetime => do
    let d ← parseDatetimeString value
    .ok (.instant d.moment)
  | .time => do
    let t ← parseTimeString value
    .ok (.time t)
  | _ =>
    .error (ErrorClass.planValidation.exc
      s!"Unsupported temporal field type {pyRepr type.name}.")

def truncKind : DateTrunc → TruncKind
  | .day => .day
  | .week => .week
  | .month => .month
  | .quarter => .quarter
  | .year => .year

def buildDateTruncExpression (binding : String) (dateTrunc : Option DateTrunc) (type : FieldType)
    (zone : ZoneInfo) : Expression :=
  match dateTrunc with
  | none => .f binding
  | some trunc =>
    .trunc (truncKind trunc) binding (if type = .datetime then some zone.key else none)

end AskLens.Compiler
