import SwmLvgl.TouchPad
import SwmLvgl.TouchSpec

/-! Index safety of the touch driver. The count of a frame is checked, the track ids are not: they take
four bits, and the driver uses them as indices of arrays with five entries. The ids it remembers for
lifting are those it has used so, so the frames alone decide whether an index is out of range. -/

namespace SwmLvgl.Touch

/-- A frame whose count the driver accepts has only ids below 5. -/
def Bus.IdsInRange (bus : Bus) : Prop :=
  ∀ N, bus.frame = some N → N.length ≤ gt9147MaxTouch → ∀ c ∈ N, c.id < gt9147MaxTouch

/-- The ids of the last frame are indices. -/
structure Gt9147.Indexed (gt : Gt9147) : Prop where
  count : gt.preTouch.toNat ≤ gt9147MaxTouch
  ids : ∀ i < gt.preTouch.toNat, ∃ id < gt9147MaxTouch, gt.preId[i]? = some (Int8.ofNat id)

theorem slotOf_ofNat_of_ge {id : Nat} (h : gt9147MaxTouch ≤ id) (h' : id < 16) :
    slotOf (Int8.ofNat id) = .error (.slot (Int8.ofNat id)) := by
  have hid : 5 ≤ id := h
  interval_cases id <;> rfl

namespace Reading

variable {r₀ r : Reading} {n m : Nat} (readBuf : ReadBuf) (ts : UInt32)

/-- The ids of the last frame can be lifted. -/
theorem touchUp_preId (h₀ : r₀.gt.Indexed) (h : r₀.SameIds r) (hm : m < r₀.gt.preTouch.toNat) :
    ∃ id t, r.preId m = .ok id ∧ r.gt9147TouchUp ts id = .ok t ∧ r₀.SameIds t := by
  obtain ⟨id, hid, hget⟩ := h₀.ids m hm
  refine ⟨Int8.ofNat id, r.up ts (Int8.ofNat id) ⟨id, hid⟩, ?_, ?_, h⟩
  · rw [preId, CArray.get_natCast, h.1, hget]
  · rw [gt9147TouchUp, slotOf_ofNat hid]
    rfl

theorem upScan_ok (h₀ : r₀.gt.Indexed) (hm : m < r₀.gt.preTouch.toNat) {l : List Nat}
    (hl : ∀ j ∈ l, j < gt9147MaxTouch) (h : r₀.SameIds r) :
    ∃ t, upScan ts readBuf n m l r = .ok t ∧ r₀.SameIds t := by
  induction l generalizing r with
  | nil => exact ⟨r, rfl, h⟩
  | cons j l ih =>
      obtain ⟨id, u, hid, hu, hsame⟩ := touchUp_preId ts h₀ h hm
      have hl' : ∀ i ∈ l, i < gt9147MaxTouch := fun i hi => hl i (List.mem_cons_of_mem j hi)
      rw [upScan, readId_contact (hl j List.mem_cons_self)]
      simp only [bind, Except.bind, hid, Int8.toInt8_toUInt8, hu]
      by_cases heq : id = Int8.ofNat (contact readBuf j).id
      · rw [if_pos heq]
        exact ⟨r, rfl, h⟩
      · rw [if_neg heq]
        by_cases hlast : (j : Int) ≥ n - 1
        · rw [if_pos hlast]
          exact ih hl' hsame
        · rw [if_neg hlast]
          exact ih hl' h

theorem liftMissing_ok (h₀ : r.gt.Indexed) {touchNum : UInt8} (hn : touchNum.toNat ≤ gt9147MaxTouch) :
    ∃ t, r.liftMissing ts readBuf touchNum = .ok t ∧ r.SameIds t := by
  rw [liftMissing]
  by_cases hmore : r.gt.preTouch > touchNum
  · rw [if_pos hmore]
    refine Run.run_range (I := fun _ t => r.SameIds t) (fun m hm t ht => ?_) ⟨rfl, rfl⟩
    exact upScan_ok readBuf ts h₀ hm (fun j hj => Nat.lt_of_lt_of_le (List.mem_range.mp hj) hn) ht
  · rw [if_neg hmore]
    exact ⟨r, rfl, rfl, rfl⟩

/-- Entering a touch whose id is no index leaves the arrays. -/
theorem pointDown_error (hm : m < gt9147MaxTouch)
    (hid : ¬(contact readBuf m).id < gt9147MaxTouch) :
    ∃ e, pointDown ts readBuf r m = .error e ∧ ∃ id, e = .slot id := by
  have hx : m * 8 + 1 + 1 < 8 * gt9147MaxTouch := by omega
  have hy : m * 8 + 3 + 1 < 8 * gt9147MaxTouch := by omega
  have hw : m * 8 + 5 + 1 < 8 * gt9147MaxTouch := by omega
  obtain ⟨x, hx, -⟩ := @readWord_regWord readBuf _ hx
  obtain ⟨y, hy, -⟩ := @readWord_regWord readBuf _ hy
  obtain ⟨w, hw, -⟩ := @readWord_regWord readBuf _ hw
  have hlt : (contact readBuf m).id < 16 := Nat.mod_lt _ (by decide)
  refine ⟨_, ?_, Int8.ofNat (contact readBuf m).id, rfl⟩
  rw [pointDown, readId_contact hm]
  simp only [setPreId, CArray.set_of_lt _ hm, hx, hy, hw, bind, Except.bind, gt9147TouchDown,
    slotOf_ofNat_of_ge (not_lt.mp hid) hlt]

/-- The touches of a frame are entered if and only if all their ids are indices. -/
theorem enter_outcome (hn : n ≤ gt9147MaxTouch) :
    ((∀ j < n, (contact readBuf j).id < gt9147MaxTouch) ∧
        ∃ t, Run.run (pointDown ts readBuf) r (List.range n) = .ok t ∧
          ∀ i < n, t.gt.preId[i]? = some (Int8.ofNat (contact readBuf i).id)) ∨
      (¬(∀ j < n, (contact readBuf j).id < gt9147MaxTouch) ∧
        ∃ e, Run.run (pointDown ts readBuf) r (List.range n) = .error e ∧ ∃ id, e = .slot id) := by
  by_cases hids : ∀ j < n, (contact readBuf j).id < gt9147MaxTouch
  · let I : Nat → Reading → Prop := fun m t =>
      ∀ i < m, t.gt.preId[i]? = some (Int8.ofNat (contact readBuf i).id)
    refine Or.inl ⟨hids, Run.run_range (I := I) (fun m hm t ht => ?_) fun i hi => ?_⟩
    · obtain ⟨u, hu, -, hpreId, -⟩ := @pointDown_eq t readBuf _ (lt_of_lt_of_le hm hn) (hids m hm) ts
      refine ⟨u, hu, fun i hi => ?_⟩
      rw [hpreId, Vector.getElem?_setIfInBounds]
      by_cases him : m = i
      · rw [if_pos him, if_pos (by omega), him]
      · rw [if_neg him]
        exact ht i (by omega)
    · exact absurd hi (Nat.not_lt_zero i)
  · refine Or.inr ⟨hids, ?_⟩
    let D : Nat → Prop := fun m => (contact readBuf m).id < gt9147MaxTouch
    have hlt : ∀ m ∈ List.range n, m < gt9147MaxTouch := fun m hm =>
      lt_of_lt_of_le (List.mem_range.mp hm) hn
    have hok : ∀ s : Reading, ∀ m ∈ List.range n, True → D m →
        ∃ t, pointDown ts readBuf s m = .ok t ∧ True := by
      intro s m hm _ hid
      obtain ⟨u, hu, -⟩ := @pointDown_eq s readBuf _ (hlt m hm) hid ts
      exact ⟨u, hu, trivial⟩
    have hout := Run.run_exact hok (fun s m hm _ hid => pointDown_error readBuf ts (hlt m hm) hid)
      (s := r) trivial
    exact (hout.resolve_left fun h => hids fun j hj => h.1 j (List.mem_range.mpr hj)).2

/-- A frame is processed if and only if all its ids are indices, and these are remembered. -/
theorem frame_outcome (h₀ : r.gt.Indexed) {touchNum : UInt8} (hn : touchNum.toNat ≤ gt9147MaxTouch) :
    ((∀ j < touchNum.toNat, (contact readBuf j).id < gt9147MaxTouch) ∧
        ∃ t, r.frame ts readBuf touchNum = .ok t ∧ t.gt.Indexed) ∨
      (¬(∀ j < touchNum.toNat, (contact readBuf j).id < gt9147MaxTouch) ∧
        ∃ e, r.frame ts readBuf touchNum = .error e ∧ ∃ id, e = .slot id) := by
  obtain ⟨u, hu, hsame⟩ := liftMissing_ok readBuf ts h₀ hn
  rw [frame, hu]
  simp only [bind, Except.bind, enterFrame]
  by_cases hzero : touchNum ≠ 0
  · rw [if_pos hzero]
    rcases enter_outcome (r := u) readBuf ts hn with
      ⟨hids, t, ht, hpreId⟩ | ⟨hids, e, he, hslot⟩
    · rw [ht]
      exact Or.inl ⟨hids, _, rfl, hn, fun i hi => ⟨_, hids i hi, hpreId i hi⟩⟩
    · rw [he]
      exact Or.inr ⟨hids, e, rfl, hslot⟩
  · have hnum : touchNum = 0 := not_not.mp hzero
    rw [if_neg hzero, hnum]
    refine Or.inl ⟨fun j hj => absurd hj (Nat.not_lt_zero j), ?_⟩
    have hempty : ∀ t : Reading, (Gt9147.mk t.gt.preX t.gt.preY t.gt.preW t.gt.sTpDowm 0
        t.gt.preId).Indexed :=
      fun t => ⟨Nat.zero_le _, fun i hi => absurd hi (Nat.not_lt_zero i)⟩
    by_cases hpre : u.gt.preTouch ≠ 0
    · rw [if_pos hpre]
      have hlift : ∀ m < u.gt.preTouch.toNat, ∀ t, r.SameIds t →
          ∃ v, pointUp ts t m = .ok v ∧ r.SameIds v := by
        intro m hm t ht
        obtain ⟨id, v, hid, hv, hsame'⟩ := touchUp_preId ts h₀ ht (by rw [← hsame.2]; exact hm)
        refine ⟨v, ?_, hsame'⟩
        rw [pointUp, hid]
        exact hv
      obtain ⟨t, ht, -⟩ := Run.run_range (I := fun _ t => r.SameIds t) hlift hsame
      rw [ht]
      exact ⟨_, rfl, hempty t⟩
    · rw [if_neg hpre]
      exact ⟨_, rfl, hempty u⟩

/-- A poll without an accepted frame changes nothing. -/
theorem readPoint_skip {bus : Bus}
    (h : ∀ N, bus.frame = some N → gt9147MaxTouch < N.length) (ts : UInt32) (r : Reading) :
    r.gt9147ReadPoint bus ts = .ok (0, r) := by
  rw [gt9147ReadPoint]
  cases hstatus : bus.status with
  | none => rfl
  | some status =>
      simp only [and_128_eq_zero_iff]
      by_cases hready : status.toNat < 128
      · simp only [if_pos hready, ite_self]
      cases hpoints : bus.points with
      | none => simp only [if_neg hready, ite_self]
      | some readBuf =>
          have hframe : bus.frame = some ((List.range (status.toNat % 16)).map (contact readBuf)) := by
            rw [Bus.frame, hstatus, hpoints]
            exact if_pos (not_lt.mp hready)
          have hlen := h _ hframe
          rw [List.length_map, List.length_range, ← toNat_and_15] at hlen
          simp only [if_neg hready, if_pos hlen, ite_self]

theorem readPoint_accept {bus : Bus} {N : List Contact} (h : bus.frame = some N)
    (hN : N.length ≤ gt9147MaxTouch) (ts : UInt32) (r : Reading) :
    ∃ readBuf touchNum, touchNum.toNat ≤ gt9147MaxTouch ∧
      N = (List.range touchNum.toNat).map (contact readBuf) ∧
      r.gt9147ReadPoint bus ts = (r.frame ts readBuf touchNum).map fun t => (gt9147MaxTouch, t) := by
  rw [gt9147ReadPoint]
  cases hstatus : bus.status with
  | none => simp [Bus.frame, hstatus] at h
  | some status =>
      cases hpoints : bus.points with
      | none => simp [Bus.frame, hstatus, hpoints] at h
      | some readBuf =>
          rw [Bus.frame, hstatus, hpoints] at h
          by_cases hready : 128 ≤ status.toNat
          · simp only [if_pos hready, ← toNat_and_15] at h
            cases h
            rw [List.length_map, List.length_range] at hN
            refine ⟨readBuf, status &&& 0x0f, hN, rfl, ?_⟩
            have hne : ¬status = 0 := fun hzero => by
              rw [hzero] at hready
              exact absurd hready (by decide)
            have hready' : ¬status &&& 0x80 = 0 := by
              rw [and_128_eq_zero_iff]
              exact not_lt.mpr hready
            simp only [if_neg hne, if_neg hready', if_neg (not_lt.mpr hN)]
            cases r.frame ts readBuf (status &&& 0x0f) <;> rfl
          · simp only [if_neg hready] at h
            cases h

theorem readPoint_outcome (h₀ : r.gt.Indexed) (bus : Bus) :
    (bus.IdsInRange ∧ ∃ n t, r.gt9147ReadPoint bus ts = .ok (n, t) ∧ t.gt.Indexed) ∨
      (¬bus.IdsInRange ∧ ∃ e, r.gt9147ReadPoint bus ts = .error e ∧ ∃ id, e = .slot id) := by
  by_cases hskip : ∀ N, bus.frame = some N → gt9147MaxTouch < N.length
  · refine Or.inl ⟨fun N hN hle => absurd (hskip N hN) (not_lt.mpr hle), 0, r, ?_, h₀⟩
    exact readPoint_skip hskip ts r
  · push Not at hskip
    obtain ⟨N, hframe, hle⟩ := hskip
    obtain ⟨readBuf, touchNum, hn, hN, hread⟩ := readPoint_accept hframe hle ts r
    have hids : bus.IdsInRange ↔ ∀ j < touchNum.toNat, (contact readBuf j).id < gt9147MaxTouch := by
      constructor
      · intro h j hj
        exact h N hframe hle _ (hN ▸ List.mem_map_of_mem (List.mem_range.mpr hj))
      · intro h N' hN' _ c hc
        rw [hframe] at hN'
        cases hN'
        rw [hN] at hc
        obtain ⟨j, hj, rfl⟩ := List.mem_map.mp hc
        exact h j (List.mem_range.mp hj)
    rw [hids, hread]
    refine (frame_outcome readBuf ts h₀ hn).imp (And.imp_right ?_) (And.imp_right ?_)
    · rintro ⟨t, ht, hindexed⟩
      exact ⟨gt9147MaxTouch, t, by rw [ht]; rfl, hindexed⟩
    · rintro ⟨e, he, hslot⟩
      exact ⟨e, by rw [he]; rfl, hslot⟩

end Reading

theorem tpDev_refresh (s : Indev) (readn : Int) (points : Slots) (tick : UInt32) :
    (s.refresh readn points tick).tpDev = s.tpDev := by
  rw [Indev.refresh]
  dsimp only
  split <;> split <;> split <;> (try split) <;> rfl

/-- A poll stays within the arrays unless a device is found and delivers an id out of range. -/
theorem poll_outcome {s : Panel} (h : s.gt.Indexed) (p : Poll) :
    ((s.indev.tpDev = true → p.bus.IdsInRange) ∧
        ∃ t, poll s p = .ok t ∧ t.gt.Indexed ∧ t.indev.tpDev = s.indev.tpDev) ∨
      (¬(s.indev.tpDev = true → p.bus.IdsInRange) ∧
        ∃ e, poll s p = .error e ∧ ∃ id, e = .slot id) := by
  rw [poll]
  cases hdev : s.indev.tpDev with
  | false =>
      refine Or.inl ⟨nofun, _, rfl, h, ?_⟩
      simp only [hdev, Bool.false_eq_true, if_false]
  | true =>
      rcases Reading.readPoint_outcome (r := ⟨s.gt, s.indev.tpPoints⟩) p.ts h p.bus with
        ⟨hids, n, t, ht, hindexed⟩ | ⟨hids, e, he, hslot⟩
      · simp only [if_true, ht]
        refine Or.inl ⟨fun _ => hids, _, rfl, hindexed, ?_⟩
        simp only [Indev.touchpadRead, hdev, if_true]
        rw [tpDev_refresh, hdev]
      · simp only [if_true, he]
        exact Or.inr ⟨fun hall => hids (hall trivial), e, rfl, hslot⟩

/-- **Slot safety.** A sequence of polls stays within all arrays if and only if every frame it accepts
has ids below 5, or no touch device was found; and no access other than the one with such an id ever
fails. -/
theorem touch_slots_exact (tpDev : Bool) (w : List Poll) :
    ((∃ t, Run.run poll (Panel.init tpDev) w = .ok t) ↔
      ∀ p ∈ w, tpDev = true → p.bus.IdsInRange) ∧
    ∀ e, Run.run poll (Panel.init tpDev) w = .error e → ∃ id, e = .slot id := by
  let I : Panel → Prop := fun s => s.gt.Indexed ∧ s.indev.tpDev = tpDev
  have hok : ∀ s, ∀ p ∈ w, I s → (tpDev = true → p.bus.IdsInRange) → ∃ t, poll s p = .ok t ∧ I t := by
    rintro s p - ⟨hindexed, rfl⟩ hids
    rcases poll_outcome hindexed p with ⟨-, h⟩ | ⟨hids', -⟩
    · exact h
    · exact absurd hids hids'
  have herr : ∀ s, ∀ p ∈ w, I s → ¬(tpDev = true → p.bus.IdsInRange) →
      ∃ e, poll s p = .error e ∧ ∃ id, e = .slot id := by
    rintro s p - ⟨hindexed, rfl⟩ hids
    rcases poll_outcome hindexed p with ⟨hids', -⟩ | ⟨-, h⟩
    · exact absurd hids' hids
    · exact h
  have hinit : I (Panel.init tpDev) :=
    ⟨⟨Nat.zero_le _, fun i hi => absurd hi (Nat.not_lt_zero i)⟩, rfl⟩
  rcases Run.run_exact hok herr hinit with ⟨hids, t, ht, -⟩ | ⟨hids, e, he, hslot⟩
  · refine ⟨iff_of_true ⟨t, ht⟩ hids, fun e he => ?_⟩
    rw [ht] at he
    cases he
  · refine ⟨iff_of_false ?_ hids, fun e' he' => ?_⟩
    · rintro ⟨t, ht⟩
      rw [he] at ht
      cases ht
    · rw [he] at he'
      cases he'
      exact hslot

/-- A frame with one touch, of track id 5 at (10, 20). -/
def sixthFinger : Poll where
  bus :=
    { status := some 0x81
      points := some (((Vector.replicate _ 0).setIfInBounds 0 5).setIfInBounds 1 10 |>.setIfInBounds 3 20) }
  ts := 0
  tick := 0

/-- The driver uses track id 5 as an index of its arrays and of the buffer. -/
theorem track_id_5_out_of_bounds :
    sixthFinger.bus.frame = some [⟨5, 10, 20, 0⟩] ∧
      Run.run poll (Panel.init true) [sixthFinger] = .error (.slot 5) :=
  ⟨rfl, rfl⟩

end SwmLvgl.Touch
