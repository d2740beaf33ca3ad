import AskLens.Compiler.Dates
import AskLens.Library.Transitions

/-!
# Local wall times

`_resolve_local_wall_time` on a zone with finitely many offset transitions. The
wall times of the zone carry a fold, and the round trip through UTC sets it.
-/
namespace AskLens.Compiler

open Python Transitions Checks

/-- A time zone with its offset before the first transition and its transitions. -/
structure TransitionZone where
  key : String
  initial : ℤ
  transitions : List Transition
  isolated : Isolated initial transitions

structure LocalDatetime where
  wall : ℤ
  fold : Bool
deriving DecidableEq

namespace TransitionZone

/-- The local rendering of an instant. -/
def reading (zone : TransitionZone) : ℤ → ℤ := Transitions.reading zone.initial zone.transitions

def Resolves (zone : TransitionZone) : ℤ → ℤ → Prop :=
  Transitions.Resolves zone.initial zone.transitions

/-- `value.astimezone(UTC)`. -/
def toUtc (zone : TransitionZone) (value : LocalDatetime) : Py ℤ :=
  inRangeOr (.builtin .overflowError)
    (value.wall - offsetOf value.fold zone.initial zone.transitions value.wall)

/-- `moment.astimezone(zone)`. -/
def fromUtc (zone : TransitionZone) (moment : ℤ) : Py LocalDatetime := do
  let wall ← inRangeOr (.builtin .overflowError) (zone.reading moment)
  .ok ⟨wall, foldAt false zone.initial zone.transitions moment⟩

def resolveLocalWallTime (zone : TransitionZone) (value : ℤ) : Py LocalDatetime := do
  let candidate : LocalDatetime := ⟨value, false⟩
  let moment ← zone.toUtc candidate
  let normalized ← zone.fromUtc moment
  if normalized.wall ≠ value then .ok normalized else .ok candidate

/-- The zone as the relative filters read it. -/
def zoneInfo (zone : TransitionZone) : ZoneInfo where
  key := zone.key
  offsetAt := offsetAt zone.initial zone.transitions
  offsetOfWall := offsetOf false zone.initial zone.transitions

/-- The instant of a wall time with fold zero. -/
def momentOf (zone : TransitionZone) (value : ℤ) : ℤ :=
  value - offsetOf false zone.initial zone.transitions value

section

variable (zone : TransitionZone)

theorem resolves_momentOf (value : ℤ) : zone.Resolves value (zone.momentOf value) :=
  resolves_offsetOf zone.isolated value

/-- The local rendering of an instant is converted back to it. -/
theorem toUtc_fromUtc {moment : ℤ} (h : InRange moment) (hreading : InRange (zone.reading moment)) :
    ∃ value, zone.fromUtc moment = .ok value ∧ value.wall = zone.reading moment ∧
      zone.toUtc value = .ok moment := by
  refine ⟨⟨zone.reading moment, foldAt false zone.initial zone.transitions moment⟩, ?_, rfl, ?_⟩
  · rw [fromUtc, inRangeOr, if_pos hreading]
    rfl
  · have hback : offsetOf (foldAt false zone.initial zone.transitions moment) zone.initial
        zone.transitions (zone.reading moment) = offsetAt zone.initial zone.transitions moment :=
      offsetOf_reading zone.isolated (by simp)
    have hmoment : zone.reading moment - offsetAt zone.initial zone.transitions moment = moment :=
      add_sub_cancel_right _ _
    rw [toUtc, hback, hmoment, inRangeOr, if_pos h]

theorem toUtc_candidate (value : ℤ) : zone.toUtc ⟨value, false⟩ =
    inRangeOr (.builtin .overflowError) (zone.momentOf value) := rfl

theorem resolveLocalWallTime_of_inRange {value : ℤ} (h : InRange (zone.momentOf value))
    (hreading : InRange (zone.reading (zone.momentOf value))) :
    ∃ resolved, zone.resolveLocalWallTime value = .ok resolved ∧
      resolved.wall = zone.reading (zone.momentOf value) ∧
        zone.toUtc resolved = .ok (zone.momentOf value) := by
  obtain ⟨normalized, hnormalized, hwall, hback⟩ := zone.toUtc_fromUtc h hreading
  have hcandidate : zone.toUtc ⟨value, false⟩ = .ok (zone.momentOf value) := by
    rw [toUtc_candidate, inRangeOr, if_pos h]
  rw [resolveLocalWallTime, hcandidate, ok_bind, hnormalized, ok_bind]
  by_cases hsame : normalized.wall = value
  · rw [if_neg (not_not.mpr hsame)]
    exact ⟨_, rfl, hsame.symm.trans hwall, hcandidate⟩
  · rw [if_pos hsame]
    exact ⟨normalized, rfl, hwall, hback⟩

theorem resolveLocalWallTime_of_not_inRange {value : ℤ}
    (h : ¬ (InRange (zone.momentOf value) ∧ InRange (zone.reading (zone.momentOf value)))) :
    zone.resolveLocalWallTime value = .error (.builtin .overflowError) := by
  rw [resolveLocalWallTime, toUtc_candidate, inRangeOr]
  split_ifs with hmoment
  · have hout : ¬ InRange (zone.reading (zone.momentOf value)) := fun hin => h ⟨hmoment, hin⟩
    rw [ok_bind, fromUtc, inRangeOr, if_neg hout]
    rfl
  · rfl

/-- The relative filters resolve the same instants, with the overflows as plan errors. -/
theorem resolveLocalWallTime_refines (value : ℤ) :
    Compiler.resolveLocalWallTime zone.zoneInfo value =
      (zone.resolveLocalWallTime value >>= zone.toUtc).mapError fun _ => outOfRange := by
  have hguarded : Compiler.resolveLocalWallTime zone.zoneInfo value =
      (inRangeOr outOfRange (zone.momentOf value) >>= fun moment =>
        inRangeOr outOfRange (zone.reading moment) >>= fun _ => .ok moment) := rfl
  rw [hguarded]
  by_cases h : InRange (zone.momentOf value) ∧ InRange (zone.reading (zone.momentOf value))
  · obtain ⟨resolved, hresolved, -, hutc⟩ := zone.resolveLocalWallTime_of_inRange h.1 h.2
    rw [hresolved, ok_bind, hutc, inRangeOr, if_pos h.1, ok_bind, inRangeOr, if_pos h.2]
    rfl
  · rw [zone.resolveLocalWallTime_of_not_inRange h, inRangeOr]
    split_ifs with hmoment
    · have hout : ¬ InRange (zone.reading (zone.momentOf value)) := fun hin => h ⟨hmoment, hin⟩
      rw [ok_bind, inRangeOr, if_neg hout]
      rfl
    · rfl

/-- A wall time has one resolution: the first instant that is rendered so, or, in a gap, the first
one rendered as the wall time moved forward by the gap. It is returned when it and its rendering
can be represented. -/
theorem resolveLocalWallTime_resolves (value : ℤ) :
    ∃ moment, (∀ other, zone.Resolves value other ↔ other = moment) ∧
      (InRange moment ∧ InRange (zone.reading moment) →
        ∃ resolved, zone.resolveLocalWallTime value = .ok resolved ∧
          resolved.wall = zone.reading moment ∧ zone.toUtc resolved = .ok moment) ∧
      (¬ (InRange moment ∧ InRange (zone.reading moment)) →
        zone.resolveLocalWallTime value = .error (.builtin .overflowError)) := by
  refine ⟨zone.momentOf value, fun other => ?_, ?_, ?_⟩
  · constructor
    · intro hother
      exact Transitions.Resolves.unique zone.isolated hother (zone.resolves_momentOf value)
    · rintro rfl
      exact zone.resolves_momentOf value
  · intro h
    exact zone.resolveLocalWallTime_of_inRange h.1 h.2
  · intro h
    exact zone.resolveLocalWallTime_of_not_inRange h

end

end TransitionZone

/-- An hour is skipped at the instant 100 hours and read twice at the instant 200 hours. -/
def summerTime : TransitionZone where
  key := "Summer"
  initial := 3600000000
  transitions := [⟨360000000000, 7200000000⟩, ⟨720000000000, 3600000000⟩]
  isolated := by
    refine ⟨?_, ?_, trivial⟩ <;> decide

/-- The skipped wall time 101:30 moves to 102:30, and 201:30 is taken at its first occurrence. -/
example : summerTime.resolveLocalWallTime 365400000000 = .ok ⟨369000000000, false⟩ ∧
    (summerTime.resolveLocalWallTime 725400000000 >>= summerTime.toUtc) = .ok 718200000000 := by
  decide

def oneHourAhead : TransitionZone := ⟨"Etc/GMT-1", 3600000000, [], trivial⟩

/-- The first wall time of the calendar is rendered from an instant before it. -/
theorem first_wall_time_overflows :
    ¬ ∀ (zone : TransitionZone) (value : ℤ), InRange value →
      ∃ resolved moment, zone.resolveLocalWallTime value = .ok resolved ∧
        zone.toUtc resolved = .ok moment ∧ zone.Resolves value moment := by
  intro h
  obtain ⟨resolved, moment, hresolved, -⟩ := h oneHourAhead 0 (by decide)
  have hraised : oneHourAhead.resolveLocalWallTime 0 = .error (.builtin .overflowError) := by
    decide
  rw [hraised] at hresolved
  cases hresolved

end AskLens.Compiler
