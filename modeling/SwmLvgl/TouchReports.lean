import Mathlib.Data.Fintype.Card
import SwmLvgl.TouchPad
import SwmLvgl.TouchSpec

/-! What the touchpad reports after a frame. `touchpad_read` looks at the first slot that is not lifted,
so it reports a touch of the frame unless a slot below all its ids has never been touched or still shows
an earlier touch; and it reports no touch after an empty frame unless such an earlier touch comes first. -/

namespace SwmLvgl.Touch

open Pm (lvCoord lvCoord_of_range)

/-- The events that the driver writes. -/
def Slots.Events (points : Slots) : Prop :=
  ∀ k : Fin gt9147MaxTouch, (points.get k).event = rtTouchEventNone ∨
    (points.get k).event = rtTouchEventUp ∨ (points.get k).Pressed

section Scan

variable {points : Slots} {l : List (Fin gt9147MaxTouch)} {i : Fin gt9147MaxTouch}

theorem scanDown_skip (h : (points.get i).event = rtTouchEventUp) :
    scanDown points (i :: l) = scanDown points l := by
  have hpressed : ¬((points.get i).event = rtTouchEventDown ∨
      (points.get i).event = rtTouchEventMove) := by
    rw [h]
    decide
  have hnone : ¬(points.get i).event = rtTouchEventNone := by
    rw [h]
    decide
  rw [scanDown, if_neg hpressed, if_neg hnone]

theorem scanDown_pressed (hl : l.Pairwise (· < ·)) (hi : i ∈ l) (hpressed : (points.get i).Pressed)
    (hbefore : ∀ j < i, (points.get j).event = rtTouchEventUp) : scanDown points l = some i := by
  induction l with
  | nil => cases hi
  | cons a l ih =>
      obtain ⟨hlt, hl⟩ := List.pairwise_cons.mp hl
      rcases List.mem_cons.mp hi with rfl | hi
      · exact if_pos hpressed
      · rw [scanDown_skip (hbefore a (hlt i hi))]
        exact ih hl hi

theorem scanDown_none (hl : l.Pairwise (· < ·)) (hi : i ∈ l)
    (hnone : (points.get i).event = rtTouchEventNone)
    (hbefore : ∀ j < i, (points.get j).event = rtTouchEventUp) : scanDown points l = none := by
  induction l with
  | nil => cases hi
  | cons a l ih =>
      obtain ⟨hlt, hl⟩ := List.pairwise_cons.mp hl
      rcases List.mem_cons.mp hi with rfl | hi
      · have hpressed : ¬((points.get i).event = rtTouchEventDown ∨
            (points.get i).event = rtTouchEventMove) := by
          rw [hnone]
          decide
        rw [scanDown, if_neg hpressed, if_pos hnone]
      · rw [scanDown_skip (hbefore a (hlt i hi))]
        exact ih hl hi

theorem scanDown_lifted (h : ∀ j : Fin gt9147MaxTouch, (points.get j).event = rtTouchEventUp) :
    scanDown points l = none := by
  induction l with
  | nil => rfl
  | cons a l ih =>
      rw [scanDown_skip (h a)]
      exact ih

end Scan

/-- The first loop stops at the first slot that is not lifted. -/
inductive Scanned (points : Slots) : Option (Fin gt9147MaxTouch) → Prop where
  | pressed {i : Fin gt9147MaxTouch} (before : ∀ j < i, (points.get j).event = rtTouchEventUp)
      (h : (points.get i).Pressed) : Scanned points (some i)
  | empty {i : Fin gt9147MaxTouch} (before : ∀ j < i, (points.get j).event = rtTouchEventUp)
      (h : (points.get i).event = rtTouchEventNone) : Scanned points none
  | lifted (h : ∀ j : Fin gt9147MaxTouch, (points.get j).event = rtTouchEventUp) : Scanned points none

theorem scanned {points : Slots} (h : points.Events) :
    Scanned points (scanDown points (List.finRange gt9147MaxTouch)) := by
  have hl : (List.finRange gt9147MaxTouch).Pairwise (· < ·) := List.pairwise_lt_finRange _
  by_cases hall : ∀ j : Fin gt9147MaxTouch, (points.get j).event = rtTouchEventUp
  · rw [scanDown_lifted hall]
    exact .lifted hall
  · obtain ⟨j, hj⟩ := not_forall.mp hall
    obtain ⟨i, hi, hmin⟩ := wellFounded_lt.has_min
      {k : Fin gt9147MaxTouch | ¬(points.get k).event = rtTouchEventUp} ⟨j, hj⟩
    have hbefore : ∀ j < i, (points.get j).event = rtTouchEventUp := fun j hj =>
      by_contra fun hne => hmin j hne hj
    rcases h i with hnone | hup | hpressed
    · rw [scanDown_none hl (List.mem_finRange i) hnone hbefore]
      exact .empty hbefore hnone
    · exact absurd hup hi
    · rw [scanDown_pressed hl (List.mem_finRange i) hpressed hbefore]
      exact .pressed hbefore hpressed

/-- The second loop stops at the first slot, unless that is pressed. -/
theorem scanUp_first {points : Slots}
    (h : (points.get 0).event = rtTouchEventNone ∨
      (points.get 0).event = rtTouchEventUp) :
    scanUp points (List.finRange gt9147MaxTouch) =
      decide ((points.get 0).event = rtTouchEventUp) := by
  have hlist : List.finRange gt9147MaxTouch = 0 :: (List.finRange gt9147MaxTouch).tail := rfl
  rw [hlist, scanUp]
  rcases h with h | h
  · rw [h]
    rfl
  · rw [if_pos h, decide_eq_true h]

/-- What a report after the frame `N` must say. -/
structure Right (N : List Contact) (d : LvIndevData) : Prop where
  state : d.state = .pr ↔ N ≠ []
  point : d.state = .pr → ∃ c ∈ N, d.point = ((c.x : Int), (c.y : Int))

/-- A report of no touch is right after an empty frame, and only there. -/
theorem right_of_rel {N : List Contact} {d : LvIndevData} (h : d.state = .rel) :
    Right N d ↔ N = [] := by
  have hrel : ¬d.state = .pr := by
    rw [h]
    decide
  constructor
  · intro hright
    by_contra hN
    exact hrel (hright.state.mpr hN)
  · intro hN
    exact ⟨⟨fun hpr => absurd hpr hrel, fun hne => absurd hN hne⟩, fun hpr => absurd hpr hrel⟩

/-- A report of a touch is right if and only if a touch of the frame is at its point. -/
theorem right_of_pr {N : List Contact} (hN : N ≠ []) {x y : Nat} {d : LvIndevData}
    (h : d = ⟨.pr, ((x : Int), (y : Int))⟩) : Right N d ↔ ∃ c ∈ N, x = c.x ∧ y = c.y := by
  subst h
  constructor
  · intro hright
    obtain ⟨c, hc, hpoint⟩ := hright.point rfl
    obtain ⟨hcx, hcy⟩ := Prod.mk.inj hpoint
    exact ⟨c, hc, Int.ofNat_inj.mp hcx, Int.ofNat_inj.mp hcy⟩
  · rintro ⟨c, hc, hcx, hcy⟩
    exact ⟨⟨fun _ => hN, fun _ => rfl⟩, fun _ => ⟨c, hc, by rw [hcx, hcy]⟩⟩

/-- The slot is lifted, or will be by the frame. -/
def Gone (P : List Nat) (points : Slots) (N : List Contact) (k : Fin gt9147MaxTouch) : Prop :=
  (points.get k).event = rtTouchEventUp ∨ Lifted P N k

/-- The condition on the slots before a frame, the last frame having had the ids `P`. For an empty
frame: an id that is not in the last frame and whose slot is pressed lies above a slot never touched. For
a frame with touches: the first slot below all its ids that is neither lifted nor about to be, if there
is one, is pressed and happens to hold the point of a touch of the frame. -/
def FrameFits (P : List Nat) (points : Slots) (N : List Contact) : Prop :=
  if N = [] then
    ∀ k : Fin gt9147MaxTouch, (points.get k).Pressed → (k : Nat) ∉ P →
      ∃ j < k, (points.get j).event = rtTouchEventNone
  else
    ∀ k : Fin gt9147MaxTouch, (∀ c ∈ N, (k : Nat) < c.id) → (∀ j < k, Gone P points N j) →
      ¬Gone P points N k →
      (points.get k).Pressed ∧
        ∃ c ∈ N, (points.get k).xCoordinate.toNat = c.x ∧ (points.get k).yCoordinate.toNat = c.y

/-- Every coordinate fits an `lv_coord_t`. -/
def Slots.InRange (points : Slots) : Prop :=
  ∀ k : Fin gt9147MaxTouch, (points.get k).Pressed →
    (points.get k).xCoordinate.toNat < 2 ^ 15 ∧ (points.get k).yCoordinate.toNat < 2 ^ 15

/-- The touchpad between two polls. -/
structure PadOk (s : Indev) : Prop where
  found : s.tpDev = true
  ready : s.tpDataReady = false
  touched : s.tpPressed = true → ¬(s.tpPoints.get 0).event = rtTouchEventNone
  range : s.tpPoints.InRange

theorem Scanned.first {points : Slots} (h : Scanned points none) :
    (points.get 0).event = rtTouchEventNone ∨
      (points.get 0).event = rtTouchEventUp := by
  cases h with
  | lifted h => exact Or.inr (h 0)
  | @empty i before h =>
      by_cases hi : i = 0
      · exact Or.inl (hi ▸ h)
      · exact Or.inr (before 0 (Fin.pos_iff_ne_zero.mpr hi))

/-- The report after new data tells the slot at which the scan has stopped. -/
structure Reported (points : Slots) (t : Indev) : Prop where
  found : t.tpDev = true
  ready : t.tpDataReady = false
  slots : t.tpPoints = points
  report :
    match scanDown points (List.finRange gt9147MaxTouch) with
    | some i =>
        t.report =
          ⟨.pr, (lvCoord (points.get i).xCoordinate.toNat, lvCoord (points.get i).yCoordinate.toNat)⟩
    | none => t.report.state = .rel

theorem refresh_reported {s : Indev} (hs : PadOk s) {points : Slots} (hevents : points.Events)
    (hfirst : (points.get 0).event = rtTouchEventNone →
      (s.tpPoints.get 0).event = rtTouchEventNone) (tick : UInt32) :
    Reported points (s.refresh gt9147MaxTouch points tick) := by
  have hscan := scanned hevents
  rw [Indev.refresh, if_pos (by decide : (gt9147MaxTouch : Int) > 0)]
  simp only [if_true]
  cases h : scanDown points (List.finRange gt9147MaxTouch) with
  | some i =>
      refine ⟨hs.found, rfl, rfl, ?_⟩
      simp only [h, Indev.report, if_true]
  | none =>
      rw [h] at hscan
      rw [scanUp_first hscan.first]
      rcases hscan.first with hnone | hup
      · -- no touch has ever been reported
        have hrel : s.tpPressed = false := by
          by_contra hpressed
          exact hs.touched (Bool.not_eq_false _ ▸ hpressed) (hfirst hnone)
        rw [hnone]
        refine ⟨hs.found, rfl, rfl, ?_⟩
        rw [h]
        show (if s.tpPressed then LvIndevState.pr else .rel) = .rel
        rw [hrel]
        rfl
      · rw [hup]
        refine ⟨hs.found, rfl, rfl, ?_⟩
        rw [h]
        rfl

theorem not_up_of_pressed {d : RtTouchData} (h : d.Pressed) : ¬d.event = rtTouchEventUp :=
  fun hup => not_pressed_of_up hup h

theorem not_pressed_of_none {d : RtTouchData} (h : d.event = rtTouchEventNone) : ¬d.Pressed := by
  rw [RtTouchData.Pressed, h]
  decide

namespace Reading

section Frame

variable {r t : Reading} {P : List Nat} {N : List Contact} {i k : Fin gt9147MaxTouch}

theorem Framed.up_iff (h : r.Framed P N t) (hk : (k : Nat) ∉ N.map Contact.id) :
    (t.readData.get k).event = rtTouchEventUp ↔ Gone P r.readData N k := by
  by_cases hlifted : Lifted P N k
  · exact ⟨fun _ => Or.inr hlifted, fun _ => h.lifted k hlifted⟩
  · have hsame : t.readData.get k = r.readData.get k := h.other k hk hlifted
    rw [hsame]
    exact ⟨Or.inl, fun hgone => hgone.resolve_right hlifted⟩

/-- The touches of the frame are pressed. -/
theorem Framed.id_notMem (h : r.Framed P N t) (hk : ¬(t.readData.get k).Pressed) :
    (k : Nat) ∉ N.map Contact.id := by
  intro hid
  obtain ⟨c, hc, hck⟩ := List.mem_map.mp hid
  exact hk (h.shown k c hc hck).pressed

/-- A first slot that is not lifted and not of the frame was there before, below all its ids. -/
theorem Framed.stale (h : r.Framed P N t)
    (hbefore : ∀ j < i, (t.readData.get j).event = rtTouchEventUp)
    (hi : ¬(t.readData.get i).event = rtTouchEventUp) (hid : (i : Nat) ∉ N.map Contact.id)
    (hlt : ∀ c ∈ N, c.id < gt9147MaxTouch) :
    (∀ c ∈ N, (i : Nat) < c.id) ∧ (∀ j < i, Gone P r.readData N j) ∧ ¬Gone P r.readData N i ∧
      t.readData.get i = r.readData.get i := by
  have hgone : ¬Gone P r.readData N i := fun hgone => hi ((h.up_iff hid).mpr hgone)
  refine ⟨fun c hc => ?_, fun j hj => ?_, hgone,
    h.other i hid fun hlifted => hgone (Or.inr hlifted)⟩
  · by_contra hge
    have hmem : c.id ∈ N.map Contact.id := List.mem_map_of_mem hc
    have hne : c.id ≠ i := fun heq => hid (heq ▸ hmem)
    have hup := hbefore ⟨c.id, hlt c hc⟩ (Fin.mk_lt_of_lt_val (by omega))
    exact h.id_notMem (not_pressed_of_up hup) hmem
  · exact (h.up_iff (h.id_notMem (not_pressed_of_up (hbefore j hj)))).mp (hbefore j hj)

/-- There is one such slot at most. -/
theorem Framed.first_eq (h : r.Framed P N t)
    (hbefore : ∀ j < i, (t.readData.get j).event = rtTouchEventUp)
    (hi : ¬(t.readData.get i).event = rtTouchEventUp) (hk : ∀ c ∈ N, (k : Nat) < c.id)
    (hgone : ∀ j < k, Gone P r.readData N j) (hkeep : ¬Gone P r.readData N k) : k = i := by
  have hout : ∀ j ≤ k, (j : Nat) ∉ N.map Contact.id := by
    intro j hj hmem
    obtain ⟨c, hc, hcj⟩ := List.mem_map.mp hmem
    have := hk c hc
    have := Fin.le_def.mp hj
    omega
  rcases lt_trichotomy k i with hlt | heq | hgt
  · exact absurd ((h.up_iff (hout k le_rfl)).mp (hbefore k hlt)) hkeep
  · exact heq
  · exact absurd ((h.up_iff (hout i hgt.le)).mpr (hgone i hgt)) hi

end Frame

end Reading

theorem lvCoord_natCast {n : Nat} (h : n < 2 ^ 15) : lvCoord n = n :=
  lvCoord_of_range (by omega) (by omega)

section Frame

variable {r t : Reading} {P : List Nat} {N : List Contact} {s : Indev}

/-- After an empty frame. -/
theorem right_empty_iff (hr : r.Holds P) (h : r.Framed P [] t) (hs : Reported t.readData s) :
    Right [] s.report ↔ FrameFits P r.readData [] := by
  have hsame : ∀ k : Fin gt9147MaxTouch, (k : Nat) ∉ P → t.readData.get k = r.readData.get k :=
    fun k hk => h.other k List.not_mem_nil fun hlifted => hk hlifted.2.1
  have hheld : ∀ k : Fin gt9147MaxTouch, (k : Nat) ∈ P → (r.readData.get k).Pressed := fun k hk =>
    (hr.pressed k).mp (hr.held k hk)
  have hlifted : ∀ k : Fin gt9147MaxTouch, (k : Nat) ∈ P →
      (t.readData.get k).event = rtTouchEventUp := fun k hk =>
    h.lifted k ⟨List.length_pos_of_mem hk, hk, List.not_mem_nil⟩
  have hscan := scanned h.holds.event
  have hreport := hs.report
  rw [FrameFits, if_pos rfl]
  generalize scanDown t.readData (List.finRange gt9147MaxTouch) = found at hscan hreport
  cases hscan with
  | @pressed i hbefore hpressed =>
      have hi : (i : Nat) ∉ P := fun hi => not_up_of_pressed hpressed (hlifted i hi)
      simp only at hreport
      constructor
      · intro hright
        rw [hreport] at hright
        exact absurd rfl (hright.state.mp rfl)
      · intro hfits
        obtain ⟨j, hj, hnone⟩ := hfits i (hsame i hi ▸ hpressed) hi
        have hjP : (j : Nat) ∉ P := fun hj' => not_pressed_of_none hnone (hheld j hj')
        have hup := hbefore j hj
        rw [hsame j hjP, hnone] at hup
        exact absurd hup (by decide)
  | @empty i hbefore hnone =>
      have hi : (i : Nat) ∉ P := fun hi => by
        rw [hlifted i hi] at hnone
        exact absurd hnone (by decide)
      refine ⟨fun _ k hk hkP => ⟨i, ?_, hsame i hi ▸ hnone⟩, fun _ => (right_of_rel hreport).mpr rfl⟩
      rw [← hsame k hkP] at hk
      rcases lt_trichotomy k i with hlt | heq | hgt
      · exact absurd (hbefore k hlt) (not_up_of_pressed hk)
      · exact absurd hk (not_pressed_of_none (heq ▸ hnone))
      · exact hgt
  | lifted hall =>
      refine ⟨fun _ k hk hkP => ?_, fun _ => (right_of_rel hreport).mpr rfl⟩
      rw [← hsame k hkP] at hk
      exact absurd (hall k) (not_up_of_pressed hk)

/-- After a frame with touches. -/
theorem right_touches_iff (hN : N ≠ []) (h : r.Framed P N t) (hrange : Slots.InRange t.readData)
    (hlt : ∀ c ∈ N, c.id < gt9147MaxTouch) (hs : Reported t.readData s) :
    Right N s.report ↔ FrameFits P r.readData N := by
  have hscan := scanned h.holds.event
  have hreport := hs.report
  rw [FrameFits, if_neg hN]
  generalize scanDown t.readData (List.finRange gt9147MaxTouch) = found at hscan hreport
  cases hscan with
  | @pressed i hbefore hpressed =>
      obtain ⟨hx, hy⟩ := hrange i hpressed
      simp only [lvCoord_natCast hx, lvCoord_natCast hy] at hreport
      rw [right_of_pr hN hreport]
      constructor
      · rintro ⟨c, hc, hpoint⟩ k hk hgone hkeep
        have hki := h.first_eq hbefore (not_up_of_pressed hpressed) hk hgone hkeep
        have hid : (i : Nat) ∉ N.map Contact.id := by
          intro hmem
          obtain ⟨c', hc', hci⟩ := List.mem_map.mp hmem
          exact absurd (hk c' hc') (by rw [hci, hki]; exact lt_irrefl _)
        obtain ⟨-, -, -, hsame⟩ := h.stale hbefore (not_up_of_pressed hpressed) hid hlt
        rw [hki, ← hsame]
        exact ⟨hpressed, c, hc, hpoint⟩
      · intro hfits
        by_cases hid : (i : Nat) ∈ N.map Contact.id
        · obtain ⟨c, hc, hci⟩ := List.mem_map.mp hid
          have hshows := h.shown i c hc hci
          exact ⟨c, hc, hshows.x, hshows.y⟩
        · obtain ⟨hbelow, hgone, hkeep, hsame⟩ :=
            h.stale hbefore (not_up_of_pressed hpressed) hid hlt
          rw [hsame]
          exact (hfits i hbelow hgone hkeep).2
  | @empty i hbefore hnone =>
      -- a slot never touched hides the frame
      have hi : ¬(t.readData.get i).event = rtTouchEventUp := by
        rw [hnone]
        decide
      have hid := h.id_notMem (not_pressed_of_none hnone)
      obtain ⟨hbelow, hgone, hkeep, hsame⟩ := h.stale hbefore hi hid hlt
      constructor
      · exact fun hright => absurd ((right_of_rel hreport).mp hright) hN
      · intro hfits
        have hpressed := (hfits i hbelow hgone hkeep).1
        rw [← hsame] at hpressed
        exact absurd hpressed (not_pressed_of_none hnone)
  | lifted hall =>
      obtain ⟨c, hc⟩ := List.exists_mem_of_ne_nil N hN
      have hshows := h.shown ⟨c.id, hlt c hc⟩ c hc rfl
      exact absurd (hall _) (not_up_of_pressed hshows.pressed)

end Frame

/-! ### Runs -/

/-- A poll of a controller that delivers no data or a frame. -/
structure Delivery where
  poll : Poll
  delivers : poll.bus.Delivers

/-- A step of a run: `touchpad_read`. -/
def pollStep (s : Panel) (d : Delivery) : Except Fault Panel := poll s d.poll

/-- The ids of the last frame, as the driver keeps them. -/
def Gt9147.lastIds (gt : Gt9147) : List Nat :=
  (CArray.view gt.preId gt.preTouch.toNat).map fun id => id.toInt.toNat

theorem toNat_toInt_ofNat {id : Nat} (h : id < gt9147MaxTouch) :
    (Int8.ofNat id).toInt.toNat = id := by
  interval_cases id <;> rfl

theorem Reading.Holds.lastIds {r : Reading} {P : List Nat} (h : r.Holds P) :
    r.gt.lastIds = P := by
  apply List.ext_getElem?
  intro i
  rw [Gt9147.lastIds, List.getElem?_map, CArray.getElem?_view, h.count]
  by_cases hi : i < P.length
  · have hget := List.getElem?_eq_getElem hi
    rw [if_pos hi, h.preId i _ hget, hget, Option.map_some,
      toNat_toInt_ofNat (h.lt _ (List.getElem_mem hi))]
  · rw [if_neg hi, List.getElem?_eq_none (not_lt.mp hi)]
    rfl

/-- What holds between two polls. -/
structure PanelOk (s : Panel) : Prop where
  driver : (Reading.mk s.gt s.indev.tpPoints).Holds s.gt.lastIds
  pad : PadOk s.indev

/-- The condition on a poll: the frame it delivers, if it delivers one, fits the slots. -/
def PollFits (s : Panel) (d : Delivery) : Prop :=
  ∀ N, d.poll.bus.frame = some N → FrameFits s.gt.lastIds s.indev.tpPoints N

theorem panelOk_init : PanelOk (Panel.init true) := by
  have hevent : ∀ k : Fin gt9147MaxTouch,
      ((Panel.init true).indev.tpPoints.get k).event = rtTouchEventNone := fun k => by
    simp [Panel.init, Indev.init]
    rfl
  have hpressed : ∀ k : Fin gt9147MaxTouch, ¬((Panel.init true).indev.tpPoints.get k).Pressed :=
    fun k => not_pressed_of_none (hevent k)
  have hflag : ∀ k : Fin gt9147MaxTouch, (Panel.init true).gt.sTpDowm.get k = 0 := fun k => by
    simp [Panel.init, Gt9147.init]
  have hids : (Panel.init true).gt.lastIds = [] := rfl
  refine ⟨?_, ⟨rfl, rfl, nofun, fun k hk => absurd hk (hpressed k)⟩⟩
  rw [hids]
  refine ⟨rfl, nofun, nofun, List.nodup_nil, nofun, fun k => ?_, fun k => Or.inl (hevent k)⟩
  refine ⟨fun h => ?_, fun h => absurd h (hpressed k)⟩
  have hzero := (hflag k).symm.trans h
  exact absurd hzero (by decide)

/-- Without data, a press may time out, and nothing else changes. -/
theorem refresh_noData {s : Indev} (hs : PadOk s) (tick : UInt32) :
    PadOk (s.refresh 0 s.tpPoints tick) ∧ (s.refresh 0 s.tpPoints tick).tpPoints = s.tpPoints := by
  have hzero : ¬(0 : Int) > 0 := lt_irrefl 0
  simp only [Indev.refresh, if_neg hzero, hs.ready, Bool.false_eq_true, if_false]
  split
  · split
    · exact ⟨⟨hs.found, rfl, nofun, hs.range⟩, rfl⟩
    · exact ⟨⟨hs.found, rfl, hs.touched, hs.range⟩, rfl⟩
  · exact ⟨⟨hs.found, rfl, hs.touched, hs.range⟩, rfl⟩

/-- A poll reads the driver and refreshes the touchpad. -/
theorem pollStep_eq {s : Panel} (hs : PadOk s.indev) {d : Delivery} {n : Nat} {r : Reading}
    (h : (Reading.mk s.gt s.indev.tpPoints).gt9147ReadPoint d.poll.bus d.poll.ts = .ok (n, r)) :
    pollStep s d =
      let indev := s.indev.refresh n r.readData d.poll.tick
      .ok ⟨r.gt, indev, indev.report⟩ := by
  rw [pollStep, poll, hs.found, if_pos rfl, h]
  simp only [bind, Except.bind, Indev.touchpadRead, hs.found, if_true]
  rfl

/-- A poll without data. -/
theorem poll_noData {s : Panel} (hs : PanelOk s) {d : Delivery} (h : d.poll.bus.frame = none) :
    ∃ t, pollStep s d = .ok t ∧ PanelOk t := by
  obtain ⟨hpad, hpoints⟩ := refresh_noData hs.pad d.poll.tick
  refine ⟨_, pollStep_eq hs.pad (Reading.readPoint_noData d.delivers h _ _), ?_, hpad⟩
  show (Reading.mk s.gt (s.indev.refresh 0 s.indev.tpPoints d.poll.tick).tpPoints).Holds s.gt.lastIds
  rw [hpoints]
  exact hs.driver

/-- The touchpad after new data. -/
theorem Reported.padOk {points : Slots} {t : Indev} (h : Reported points t)
    (hevents : points.Events) (hrange : points.InRange) : PadOk t := by
  refine ⟨h.found, h.ready, fun hpressed => ?_, ?_⟩
  · have hscan := scanned hevents
    have hreport := h.report
    have hstate : t.report.state = .pr := if_pos hpressed
    rw [h.slots]
    generalize scanDown points (List.finRange gt9147MaxTouch) = found at hscan hreport
    cases hscan with
    | @pressed i hbefore hi =>
        by_cases hzero : i = 0
        · exact fun hnone => not_pressed_of_none hnone (hzero ▸ hi)
        · rw [hbefore 0 (Fin.pos_iff_ne_zero.mpr hzero)]
          decide
    | empty _ _ =>
        rw [hreport] at hstate
        cases hstate
    | lifted _ =>
        rw [hreport] at hstate
        cases hstate
  · rw [h.slots]
    exact hrange

/-- A poll with a frame. -/
theorem poll_frame {s : Panel} (hs : PanelOk s) {d : Delivery} {N : List Contact}
    (h : d.poll.bus.frame = some N) :
    ∃ t, pollStep s d = .ok t ∧ PanelOk t ∧
      (Right N t.data ↔ FrameFits s.gt.lastIds s.indev.tpPoints N) := by
  obtain ⟨r, hread, hframed⟩ := Reading.readPoint_frame d.delivers h hs.driver d.poll.ts
  have hrange := d.delivers.range N h
  -- what the frame does not touch stays as it was
  have hslot : ∀ k : Fin gt9147MaxTouch, (∃ c ∈ N, (r.readData.get k).Shows c) ∨
      (r.readData.get k).event = rtTouchEventUp ∨ r.readData.get k = s.indev.tpPoints.get k := by
    intro k
    by_cases hid : (k : Nat) ∈ N.map Contact.id
    · obtain ⟨c, hc, hck⟩ := List.mem_map.mp hid
      exact Or.inl ⟨c, hc, hframed.shown k c hc hck⟩
    · by_cases hlifted : Lifted s.gt.lastIds N k
      · exact Or.inr (Or.inl (hframed.lifted k hlifted))
      · exact Or.inr (Or.inr (hframed.other k hid hlifted))
  have hfirst : (r.readData.get 0).event = rtTouchEventNone →
      (s.indev.tpPoints.get 0).event = rtTouchEventNone := by
    intro hnone
    rcases hslot 0 with ⟨c, -, hshows⟩ | hup | hsame
    · exact absurd hshows.pressed (not_pressed_of_none hnone)
    · rw [hnone] at hup
      exact absurd hup (by decide)
    · rwa [← hsame]
  have hinRange : r.readData.InRange := by
    intro k hk
    rcases hslot k with ⟨c, hc, hshows⟩ | hup | hsame
    · rw [hshows.x, hshows.y]
      exact (hrange c hc).2
    · exact absurd hup (not_up_of_pressed hk)
    · rw [hsame] at hk ⊢
      exact hs.pad.range k hk
  have hreported := refresh_reported hs.pad hframed.holds.event hfirst d.poll.tick
  refine ⟨_, pollStep_eq hs.pad hread, ⟨?_, hreported.padOk hframed.holds.event hinRange⟩, ?_⟩
  · show (Reading.mk r.gt (s.indev.refresh _ r.readData d.poll.tick).tpPoints).Holds r.gt.lastIds
    rw [hframed.holds.lastIds, hreported.slots]
    exact hframed.holds
  · show Right N (s.indev.refresh _ r.readData d.poll.tick).report ↔ _
    by_cases hN : N = []
    · subst hN
      exact right_empty_iff hs.driver hframed hreported
    · exact right_touches_iff hN hframed hinRange (fun c hc => (hrange c hc).1) hreported

/-- Every report after a frame is right. -/
def ReportsRight (w : List Delivery) : Prop :=
  ∀ v d s t N, v ++ [d] <+: w → Run.run pollStep (Panel.init true) v = .ok s →
    pollStep s d = .ok t → d.poll.bus.frame = some N → Right N t.data

theorem panelOk_total {s : Panel} (hs : PanelOk s) (d : Delivery) :
    ∃ t, pollStep s d = .ok t ∧ PanelOk t := by
  cases h : d.poll.bus.frame with
  | none => exact poll_noData hs h
  | some N =>
      obtain ⟨t, ht, hok, -⟩ := poll_frame hs h
      exact ⟨t, ht, hok⟩

/-- Every sequence of polls runs without a fault, and its reports after the frames are right if and
only if every frame fits the slots it meets. -/
theorem touch_reports_exact (w : List Delivery) :
    (∃ s, Run.run pollStep (Panel.init true) w = .ok s) ∧
      (ReportsRight w ↔ Run.AllSteps pollStep PollFits (Panel.init true) w) := by
  have hkeep : ∀ s d t, PanelOk s → pollStep s d = .ok t → PanelOk t := by
    intro s d t hs ht
    exact Run.of_exists_ok (panelOk_total hs d) ht
  have hright : ∀ s d t N, PanelOk s → pollStep s d = .ok t → d.poll.bus.frame = some N →
      (Right N t.data ↔ FrameFits s.gt.lastIds s.indev.tpPoints N) := by
    intro s d t N hs ht hN
    exact (Run.of_exists_ok (poll_frame hs hN) ht).2
  refine ⟨(Run.run_total (fun s d hs => panelOk_total hs d) panelOk_init w).imp fun s hs => hs.1, ?_⟩
  rw [Run.allSteps_iff_prefix]
  constructor
  · intro h v d s hv hs N hN
    have hok := Run.run_invariant hkeep panelOk_init hs
    obtain ⟨t, ht, -⟩ := panelOk_total hok d
    exact (hright s d t N hok ht hN).mp (h v d s t N hv hs ht hN)
  · intro h v d s t N hv hs ht hN
    have hok := Run.run_invariant hkeep panelOk_init hs
    exact (hright s d t N hok ht hN).mpr (h v d s hv hs N hN)

/-- A frame with one touch, of track id 1 at (10, 20). -/
def secondFinger : Delivery where
  poll :=
    { bus :=
        { status := some 0x81
          points := some (((Vector.replicate _ 0).set 0 1).set 1 10 |>.set 3 20) }
      ts := 0
      tick := 0 }
  delivers := by
    refine ⟨rfl, rfl, ?_, ?_, ?_⟩ <;>
      · intro N hN
        cases hN
        decide

/-- The touchpad reports no touch, since slot 0 has never been touched. -/
theorem second_finger_not_reported :
    ∃ s, secondFinger.poll.bus.frame = some [⟨1, 10, 20, 0⟩] ∧
      pollStep (Panel.init true) secondFinger = .ok s ∧ s.data.state = .rel ∧
      ¬ReportsRight [secondFinger] := by
  refine ⟨_, rfl, rfl, rfl, fun h => ?_⟩
  have hright := h [] secondFinger _ _ _ (List.prefix_refl _) rfl rfl rfl
  exact absurd (hright.state.mpr (List.cons_ne_nil _ _)) (by decide)

end SwmLvgl.Touch
