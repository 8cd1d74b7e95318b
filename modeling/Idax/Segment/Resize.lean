import Idax.Address
import Idax.Error
import Idax.Library.RangeTable

/-!
This module contains the resizing of a segment, which moves its start and then its end, and what a failed
call leaves behind.
-/

namespace Idax
namespace Segment

open RangeTable

abbrev SegmentTable (n : Nat) := RangeTable Address n

section Sdk

variable (segments : SegmentTable n)

def getseg (ea : Address) : Option (Fin n) :=
  segments.find? ea

def setSegmStart (ea newStart : Address) : Bool × SegmentTable n :=
  match (getseg segments ea).bind (segments.setFirst? · newStart) with
  | none => (false, segments)
  | some segments => (true, segments)

def setSegmEnd (ea newEnd : Address) : Bool × SegmentTable n :=
  match (getseg segments ea).bind (segments.setStop? · newEnd) with
  | none => (false, segments)
  | some segments => (true, segments)

end Sdk

def segmentAt (segments : SegmentTable n) (address : Address) : Result (Fin n) :=
  match getseg segments address with
  | none => .error (.notFound "No segment at address" (toString address))
  | some seg => .ok seg

def resize (segments : SegmentTable n) (address newStart newEnd : Address) : Status × SegmentTable n :=
  if newStart = badAddress ∨ newEnd = badAddress then
    (.error (.validation "Invalid resize bounds" s!"{newStart}:{newEnd}"), segments)
  else if newEnd ≤ newStart then
    (.error (.validation "Segment start must be < end" s!"{newStart}:{newEnd}"), segments)
  else
    match segmentAt segments address with
    | .error e => (.error e, segments)
    | .ok raw =>
      let ⟨started, segments'⟩ := setSegmStart segments (segments.range raw).first newStart
      if !started then
        (.error (.sdk "set_segm_start failed" (toString (segments.range raw).first)), segments')
      else
        let anchor := newStart
        let ⟨ended, segments''⟩ := setSegmEnd segments' anchor newEnd
        if !ended then
          (.error (.sdk "set_segm_end failed" (toString anchor)), segments'')
        else
          (ok, segments'')

def ValidBounds (newStart newEnd : Address) : Prop :=
  newStart ≠ badAddress ∧ newEnd ≠ badAddress ∧ newStart < newEnd

instance instDecidableValidBounds (newStart newEnd : Address) : Decidable (ValidBounds newStart newEnd) :=
  inferInstanceAs (Decidable (_ ∧ _))

/--
There is room for the new start, but then not for the new end.
-/
def HalfFits (segments : SegmentTable n) (i : Fin n) (newStart newEnd : Address) : Prop :=
  segments.Fits i newStart (segments.range i).stop ∧ ¬segments.Fits i newStart newEnd

instance instDecidableHalfFits (segments : SegmentTable n) (i : Fin n) (newStart newEnd : Address)
    : Decidable (HalfFits segments i newStart newEnd) :=
  inferInstanceAs (Decidable (_ ∧ _))

def OnlyMoved (segments segments' : SegmentTable n) (i : Fin n) (newStart newEnd : Address) : Prop :=
  (segments'.range i).first = newStart ∧ (segments'.range i).stop = newEnd
    ∧ ∀ j, j ≠ i → segments'.range j = segments.range j

def Atomic (segments : SegmentTable n) (i : Fin n) (address newStart newEnd : Address) : Prop :=
  ((resize segments address newStart newEnd).fst = ok
      → OnlyMoved segments (resize segments address newStart newEnd).snd i newStart newEnd)
    ∧ ((resize segments address newStart newEnd).fst ≠ ok
      → ∀ j, (resize segments address newStart newEnd).snd.range j = segments.range j)

section Lemmas

variable {segments : SegmentTable n} {i : Fin n} {ea : Address}

theorem OnlyMoved.trans {segments' segments'' : SegmentTable n} {s e s' e' : Address}
    (h : OnlyMoved segments segments' i s e) (h' : OnlyMoved segments' segments'' i s' e')
    : OnlyMoved segments segments'' i s' e' := by
  refine ⟨h'.left, h'.right.left, ?_⟩
  intro j hj
  rw [h'.right.right j hj, h.right.right j hj]

theorem onlyMoved_replace {s e : Address} (hfits : segments.Fits i s e)
    (hmeets : s < (segments.range i).stop ∧ (segments.range i).first < e)
    : OnlyMoved segments (segments.replace i s e hfits hmeets) i s e := by
  refine ⟨?_, ?_, fun j hj => range_replace_of_ne hfits hmeets hj⟩
  . rw [range_replace_self]
  . rw [range_replace_self]

theorem setSegmStart_spec (hea : segments.Contains i ea) (newStart : Address)
    : (∃ segments', setSegmStart segments ea newStart = (true, segments')
          ∧ segments.Fits i newStart (segments.range i).stop
          ∧ OnlyMoved segments segments' i newStart (segments.range i).stop)
      ∨ setSegmStart segments ea newStart = (false, segments)
          ∧ ¬segments.Fits i newStart (segments.range i).stop := by
  unfold setSegmStart getseg
  rw [(segments.find?_eq_some_iff).mpr hea, Option.bind_some, setFirst?]
  by_cases hfits : segments.Fits i newStart (segments.range i).stop
  . left
    rw [dif_pos hfits]
    exact ⟨_, rfl, hfits, onlyMoved_replace _ _⟩
  . right
    rw [dif_neg hfits]
    exact ⟨rfl, hfits⟩

theorem setSegmEnd_spec (hea : segments.Contains i ea) (newEnd : Address)
    : (∃ segments', setSegmEnd segments ea newEnd = (true, segments')
          ∧ segments.Fits i (segments.range i).first newEnd
          ∧ OnlyMoved segments segments' i (segments.range i).first newEnd)
      ∨ setSegmEnd segments ea newEnd = (false, segments)
          ∧ ¬segments.Fits i (segments.range i).first newEnd := by
  unfold setSegmEnd getseg
  rw [(segments.find?_eq_some_iff).mpr hea, Option.bind_some, setStop?]
  by_cases hfits : segments.Fits i (segments.range i).first newEnd
  . left
    rw [dif_pos hfits]
    exact ⟨_, rfl, hfits, onlyMoved_replace _ _⟩
  . right
    rw [dif_neg hfits]
    exact ⟨rfl, hfits⟩

end Lemmas

/--
A call that fails has moved the segment only if the new start was accepted before the new end was
refused.
-/
theorem resize_bounds (segments : SegmentTable n) (i : Fin n) (address newStart newEnd : Address)
    (hea : segments.Contains i address)
    : ((resize segments address newStart newEnd).fst = ok
          → OnlyMoved segments (resize segments address newStart newEnd).snd i newStart newEnd)
        ∧ ((resize segments address newStart newEnd).fst ≠ ok
          → (ValidBounds newStart newEnd ∧ HalfFits segments i newStart newEnd
              → OnlyMoved segments (resize segments address newStart newEnd).snd i newStart
                  (segments.range i).stop)
            ∧ (¬(ValidBounds newStart newEnd ∧ HalfFits segments i newStart newEnd)
              → (resize segments address newStart newEnd).snd = segments)) := by
  unfold resize segmentAt getseg
  rw [(segments.find?_eq_some_iff).mpr hea]
  split
  . next hbad =>
    have hinvalid : ¬ValidBounds newStart newEnd := by
      rintro ⟨hstart, hend, _⟩
      exact hbad.elim hstart hend
    simp [hinvalid, ok]
  . next hbad =>
    split
    . next hle =>
      have hinvalid : ¬ValidBounds newStart newEnd := by
        rintro ⟨_, _, hlt⟩
        exact absurd hlt (not_lt_of_ge hle)
      simp [hinvalid, ok]
    . next hle =>
      have hvalid : ValidBounds newStart newEnd := by
        rw [not_or] at hbad
        exact ⟨hbad.left, hbad.right, lt_of_not_ge hle⟩
      rcases setSegmStart_spec (segments.contains_first i) newStart with
        ⟨segments', hstart, hfits, hmoved⟩ | ⟨hstart, hfits⟩
      . have hanchor : segments'.Contains i newStart := by
          rw [← hmoved.left]
          exact segments'.contains_first i
        rcases setSegmEnd_spec hanchor newEnd with ⟨segments'', hend, _, hmoved'⟩ | ⟨hend, hfits'⟩
        . rw [hmoved.left] at hmoved'
          simp [hstart, hend, hmoved.trans hmoved']
        . rw [hmoved.left, fits_congr hmoved.right.right] at hfits'
          simp [hstart, hend, hvalid, HalfFits, hfits, hfits', hmoved, ok]
      . simp [hstart, HalfFits, hfits, ok]

def twoSegments : SegmentTable 2 where
  range i := if i = 0 then ⟨10, 20, by decide⟩ else ⟨30, 40, by decide⟩
  ordered := by decide

theorem resize_bounds_twoSegments
    : OnlyMoved twoSegments (resize twoSegments 12 5 35).snd 0 5 20 :=
  ((resize_bounds twoSegments 0 12 5 35 (by decide)).right (by decide)).left (by decide)

theorem not_atomic_twoSegments
    : (resize twoSegments 12 5 35).fst = .error (.sdk "set_segm_end failed" "5")
        ∧ ¬Atomic twoSegments 0 12 5 35 := by
  have herror : (resize twoSegments 12 5 35).fst = .error (.sdk "set_segm_end failed" "5") := by
    decide
  refine ⟨herror, ?_⟩
  rintro ⟨_, hatomic⟩
  have hkept := congrArg Extent.first (hatomic (by rw [herror]; simp [ok]) 0)
  revert hkept
  decide

end Segment
end Idax
