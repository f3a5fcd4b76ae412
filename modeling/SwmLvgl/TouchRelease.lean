import SwmLvgl.TouchPad
import SwmLvgl.TouchSpec

/-! How long a press is reported. A press is kept by the last poll that found a touched point, and
`touchpad_read` looks at the release timeout only in a poll without new data. New data in which neither
loop finds an event keeps the press whatever the time. -/

namespace SwmLvgl.Touch

/-- A poll of `touchpad_read`: what `rt_device_read` returns, the slots it leaves, and the tick. -/
structure Read where
  readn : Int
  points : Slots
  tick : UInt32

namespace Read

/-- The poll brings new data. -/
def Fresh (r : Read) : Prop := 0 < r.readn

instance (r : Read) : Decidable r.Fresh := inferInstanceAs (Decidable (_ < _))

/-- The slots hold a DOWN or a MOVE event. -/
def Touches (r : Read) : Prop := ∃ i : Fin gt9147MaxTouch, (r.points.get i).Pressed

instance (r : Read) : Decidable r.Touches := inferInstanceAs (Decidable (∃ _, _))

/-- Neither loop of `touchpad_read` finds an event. -/
def Eventless (r : Read) : Prop :=
  scanDown r.points (List.finRange gt9147MaxTouch) = none ∧
    scanUp r.points (List.finRange gt9147MaxTouch) = false

/-- The release timeout has not passed since the poll `p`. -/
def Within (r p : Read) : Prop := r.tick - p.tick ≤ rtTickFromMillisecond tpReleaseTimeoutMs

instance (r p : Read) : Decidable (r.Within p) := inferInstanceAs (Decidable (_ ≤ _))

theorem within_self (r : Read) : r.Within r := by
  rw [Within, UInt32.sub_self]
  decide

end Read

theorem scanDown_some {points : Slots} {l : List (Fin gt9147MaxTouch)} {i : Fin gt9147MaxTouch}
    (h : scanDown points l = some i) : (points.get i).Pressed := by
  induction l with
  | nil => cases h
  | cons a l ih =>
      rw [scanDown] at h
      split at h
      · cases h
        assumption
      · split at h
        · cases h
        · exact ih h

namespace Indev

/-- A poll of the touchpad. -/
def readStep (s : Indev) (r : Read) : Indev := (s.touchpadRead r.readn r.points r.tick).2

/-- The touchpad after the polls in order. -/
def polls (s : Indev) (w : List Read) : Indev := w.foldl readStep s

/-- The touch device was found and no data is waiting. -/
def Idle (s : Indev) : Prop := s.tpDev = true ∧ s.tpDataReady = false

/-- What is pressed after a poll was found touched in it, or was pressed before. -/
theorem readStep_spec {s : Indev} (h : s.Idle) (r : Read) :
    (s.readStep r).Idle ∧
    ((s.readStep r).tpPressed = true →
      r.Fresh ∧ r.Touches ∧ (s.readStep r).lastEventTick = r.tick ∨
      s.tpPressed = true ∧ (s.readStep r).lastEventTick = s.lastEventTick ∧
        (r.Fresh ∧ r.Eventless ∨
          ¬r.Fresh ∧ r.tick - s.lastEventTick ≤ rtTickFromMillisecond tpReleaseTimeoutMs)) := by
  obtain ⟨hdev, hready⟩ := h
  have hstep : s.readStep r = s.refresh r.readn r.points r.tick := by
    rw [readStep, touchpadRead, if_pos hdev]
  rw [hstep, refresh]
  by_cases hfresh : r.readn > 0
  · simp only [if_pos hfresh]
    cases hdown : scanDown r.points (List.finRange gt9147MaxTouch) with
    | some i => exact ⟨⟨hdev, rfl⟩, fun _ => Or.inl ⟨hfresh, ⟨i, scanDown_some hdown⟩, rfl⟩⟩
    | none =>
        cases hup : scanUp r.points (List.finRange gt9147MaxTouch) with
        | true => exact ⟨⟨hdev, rfl⟩, nofun⟩
        | false => exact ⟨⟨hdev, rfl⟩, fun hp => Or.inr ⟨hp, rfl, Or.inl ⟨hfresh, hdown, hup⟩⟩⟩
  · simp only [if_neg hfresh, hready, Bool.false_eq_true, if_false]
    by_cases hp : s.tpPressed = true
    · by_cases hlate : rtTickFromMillisecond tpReleaseTimeoutMs < r.tick - s.lastEventTick
      · rw [if_pos hp, if_pos hlate]
        exact ⟨⟨hdev, rfl⟩, nofun⟩
      · rw [if_pos hp, if_neg hlate]
        exact ⟨⟨hdev, rfl⟩, fun _ => Or.inr ⟨hp, rfl, Or.inr ⟨hfresh, UInt32.not_lt.mp hlate⟩⟩⟩
    · rw [if_neg hp]
      exact ⟨⟨hdev, rfl⟩, fun hp' => absurd hp' hp⟩

/-- The press after the polls `w` goes back to a poll with new data and a touched point; every later
poll without new data came before the timeout. -/
def Held (w : List Read) (s : Indev) : Prop :=
  ∃ u p v, w = u ++ p :: v ∧ p.Fresh ∧ p.Touches ∧ p.tick = s.lastEventTick ∧
    ∀ q ∈ v, ¬q.Fresh → q.Within p

/-- A press after one more poll is held, and was within the timeout unless the poll is eventless. -/
theorem readStep_held {w : List Read} {s : Indev} (hidle : s.Idle)
    (hheld : s.tpPressed = true → Held w s) (r : Read) (hp : (s.readStep r).tpPressed = true) :
    ∃ u p v, w ++ [r] = u ++ p :: v ∧ p.Fresh ∧ p.Touches ∧ p.tick = (s.readStep r).lastEventTick ∧
      (∀ q ∈ v, ¬q.Fresh → q.Within p) ∧ (r.Within p ∨ r.Fresh ∧ r.Eventless) := by
  rcases (readStep_spec hidle r).2 hp with ⟨hfresh, htouch, htick⟩ | ⟨hp', htick, hr⟩
  · exact ⟨w, r, [], rfl, hfresh, htouch, htick.symm, nofun, Or.inl r.within_self⟩
  obtain ⟨u, p, v, rfl, hfresh, htouch, hpt, hv⟩ := hheld hp'
  have hwithin : ¬r.Fresh → r.Within p := fun hr' => by
    rcases hr with ⟨hr, -⟩ | ⟨-, hle⟩
    · exact absurd hr hr'
    · rwa [Read.Within, hpt]
  refine ⟨u, p, v ++ [r], by simp, hfresh, htouch, hpt.trans htick.symm, fun q hq => ?_, ?_⟩
  · rcases List.mem_append.mp hq with hq | hq
    · exact hv q hq
    · cases List.mem_singleton.mp hq
      exact hwithin
  · exact hr.elim Or.inr fun h => Or.inl (hwithin h.1)

theorem polls_append (s : Indev) (w : List Read) (r : Read) :
    s.polls (w ++ [r]) = (s.polls w).readStep r := by
  rw [polls, List.foldl_append]
  rfl

theorem polls_held (w : List Read) :
    ((init true).polls w).Idle ∧
      (((init true).polls w).tpPressed = true → Held w ((init true).polls w)) := by
  induction w using List.reverseRecOn with
  | nil => exact ⟨⟨rfl, rfl⟩, nofun⟩
  | append_singleton w r ih =>
      obtain ⟨hidle, hheld⟩ := ih
      rw [polls_append]
      refine ⟨(readStep_spec hidle r).1, fun hp => ?_⟩
      obtain ⟨u, p, v, hw, hfresh, htouch, htick, hv, _⟩ := readStep_held hidle hheld r hp
      exact ⟨u, p, v, hw, hfresh, htouch, htick, hv⟩

/-- Without a touch device nothing is pressed. -/
theorem polls_noDevice (w : List Read) : (init false).polls w = init false := by
  induction w with
  | nil => rfl
  | cons r w ih => exact ih

end Indev

/-- **No stuck press.** If a poll reports a press, some poll up to it brought new data with a DOWN or a
MOVE event; that was within the release timeout, unless the poll itself brings new data in which no
event is found, and every poll without new data since then was within the timeout as well. -/
theorem press_held (tpDev : Bool) (w : List Read) (r : Read)
    (hpr : (((Indev.init tpDev).polls w).touchpadRead r.readn r.points r.tick).1.state = .pr) :
    ∃ u p v, w ++ [r] = u ++ p :: v ∧ p.Fresh ∧ p.Touches ∧ (∀ q ∈ v, ¬q.Fresh → q.Within p) ∧
      (r.Within p ∨ r.Fresh ∧ r.Eventless) := by
  have hp : (((Indev.init tpDev).polls w).readStep r).tpPressed = true := by
    by_contra hne
    change (if (((Indev.init tpDev).polls w).readStep r).tpPressed = true then LvIndevState.pr
      else LvIndevState.rel) = .pr at hpr
    rw [if_neg hne] at hpr
    cases hpr
  cases tpDev with
  | false =>
      rw [← Indev.polls_append, Indev.polls_noDevice] at hp
      cases hp
  | true =>
      obtain ⟨hidle, hheld⟩ := Indev.polls_held w
      obtain ⟨u, p, v, hw, hfresh, htouch, _, hv, hr⟩ := Indev.readStep_held hidle hheld r hp
      exact ⟨u, p, v, hw, hfresh, htouch, hv, hr⟩

/-- Slots with one event in slot 0 and none in the others. -/
def oneEvent (event : UInt8) : Slots :=
  (Vector.replicate gt9147MaxTouch default).setIfInBounds 0 { (default : RtTouchData) with event := event }

/-- A touch, and then new data without an event every 60 ticks. -/
def eventlessReads : List Read :=
  [⟨1, oneEvent rtTouchEventDown, 0⟩, ⟨1, oneEvent rtTouchEventNone, 60⟩,
    ⟨1, oneEvent rtTouchEventNone, 120⟩]

/-- At tick 120 the press is still reported, though no poll within the timeout
brought a DOWN or a MOVE. -/
theorem eventless_data_keeps_press :
    (((Indev.init true).polls eventlessReads).touchpadRead 1 (oneEvent rtTouchEventNone) 180).1.state =
        .pr ∧
      ∀ p ∈ eventlessReads ++ [⟨1, oneEvent rtTouchEventNone, 180⟩],
        ¬(p.Fresh ∧ p.Touches ∧ Read.Within ⟨1, oneEvent rtTouchEventNone, 180⟩ p) := by
  decide

/-- A touch, and two polls without new data; a third one at the end of the timeout still reports the press. -/
def heldPolls : List Read :=
  [⟨1, oneEvent rtTouchEventDown, 5⟩, ⟨0, oneEvent rtTouchEventDown, 40⟩, ⟨0, oneEvent rtTouchEventDown, 70⟩]

theorem press_held_demo :
    ∃ u p v, heldPolls ++ [⟨0, oneEvent rtTouchEventDown, 85⟩] = u ++ p :: v ∧ p.Fresh ∧ p.Touches ∧
      (∀ q ∈ v, ¬q.Fresh → q.Within p) ∧
      (Read.Within ⟨0, oneEvent rtTouchEventDown, 85⟩ p ∨
        Read.Fresh ⟨0, oneEvent rtTouchEventDown, 85⟩ ∧
          Read.Eventless ⟨0, oneEvent rtTouchEventDown, 85⟩) :=
  press_held true heldPolls ⟨0, oneEvent rtTouchEventDown, 85⟩ (by decide)

end SwmLvgl.Touch
