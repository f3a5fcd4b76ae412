import Mathlib.Algebra.Ring.Nat
import Mathlib.Data.List.Nodup
import Mathlib.Tactic.IntervalCases
import SwmLvgl.TouchDriver

/-! What a poll of the driver does to the slots. A frame presses the slots of its ids, and lifts those of
the last frame's ids it lacks if it has fewer points; every other slot stays as it is. -/

namespace SwmLvgl.Touch

/-- A touch as the point registers give it. -/
structure Contact where
  id : Nat
  x : Nat
  y : Nat
  size : Nat
  deriving DecidableEq, Repr

def regByte (readBuf : ReadBuf) (i : Nat) : Nat := (readBuf[i]?.getD 0).toNat

/-- Two registers, the low byte first. -/
def regWord (readBuf : ReadBuf) (i : Nat) : Nat :=
  regByte readBuf i + 256 * regByte readBuf (i + 1)

def contact (readBuf : ReadBuf) (j : Nat) : Contact where
  id := regByte readBuf (j * 8) % 16
  x := regWord readBuf (j * 8 + 1)
  y := regWord readBuf (j * 8 + 3)
  size := regWord readBuf (j * 8 + 5)

namespace Bus

/-- The frame of a poll: none unless bit 7 of the status says that one is ready; its low four bits
count the touches. -/
def frame (bus : Bus) : Option (List Contact) :=
  match bus.status, bus.points with
  | some status, some readBuf =>
      if 128 ≤ status.toNat then some ((List.range (status.toNat % 16)).map (contact readBuf))
      else none
  | _, _ => none

/-- Every transfer succeeds, and a frame has at most five touches, with different ids below 5 and
coordinates below 32768. -/
structure Delivers (bus : Bus) : Prop where
  status : bus.status.isSome
  points : bus.points.isSome
  count : ∀ N, bus.frame = some N → N.length ≤ gt9147MaxTouch
  ids : ∀ N, bus.frame = some N → (N.map Contact.id).Nodup
  range : ∀ N, bus.frame = some N → ∀ t ∈ N, t.id < gt9147MaxTouch ∧ t.x < 2 ^ 15 ∧ t.y < 2 ^ 15

end Bus

/-- The ids of the last frame that a frame lifts: those it lacks, if it has fewer touches. -/
def Lifted (P : List Nat) (N : List Contact) (id : Nat) : Prop :=
  N.length < P.length ∧ id ∈ P ∧ id ∉ N.map Contact.id

instance (P : List Nat) (N : List Contact) (id : Nat) : Decidable (Lifted P N id) :=
  inferInstanceAs (Decidable (_ ∧ _ ∧ _))

theorem byteAt_of_lt {readBuf : ReadBuf} {i : Nat} (h : i < 8 * gt9147MaxTouch) :
    ∃ b : UInt8, byteAt readBuf i = .ok b ∧ b.toNat = regByte readBuf i := by
  refine ⟨readBuf[i], ?_, ?_⟩
  · rw [byteAt, CArray.get_of_lt _ h]
  · rw [regByte, Vector.getElem?_eq_getElem h]
    rfl

theorem toNat_and_15 (b : UInt8) : (b &&& 0x0f).toNat = b.toNat % 16 := by
  rw [UInt8.toNat_and]
  exact Nat.and_two_pow_sub_one_eq_mod b.toNat 4

theorem and_128_eq_zero_iff (b : UInt8) : b &&& 0x80 = 0 ↔ b.toNat < 128 := by
  have hall : ∀ n < 256, UInt8.ofNat n &&& 0x80 = 0 ↔ n < 128 := by decide +kernel
  have h := hall b.toNat b.toNat_lt
  rwa [UInt8.ofNat_toNat] at h

theorem readId_contact {readBuf : ReadBuf} {j : Nat} (hj : j < gt9147MaxTouch) :
    readId readBuf (j * 8) = .ok (Int8.ofNat (contact readBuf j).id) := by
  have hoff : j * 8 < 8 * gt9147MaxTouch := by omega
  obtain ⟨b, hb, hbyte⟩ := @byteAt_of_lt readBuf _ hoff
  have hid : b &&& 0x0f = UInt8.ofNat (contact readBuf j).id := by
    apply UInt8.toNat_inj.mp
    have hcontact : (contact readBuf j).id = b.toNat % 16 := by rw [hbyte, contact]
    rw [toNat_and_15, UInt8.toNat_ofNat', hcontact]
    omega
  rw [readId, hb]
  show Except.ok (b &&& 0x0f).toInt8 = _
  rw [hid]
  rfl

theorem toNat_or_shiftLeft (lo hi : UInt8) :
    (lo.toUInt16 ||| hi.toUInt16 <<< 8).toNat = lo.toNat + 256 * hi.toNat := by
  have hlo : lo.toNat < 2 ^ 8 := lo.toNat_lt
  have hhi := hi.toNat_lt
  have hshift : hi.toNat <<< 8 < 2 ^ 16 := by
    rw [Nat.shiftLeft_eq]
    omega
  calc
    _ = lo.toNat ||| (hi.toNat <<< 8) % 2 ^ 16 := by
      simp only [UInt16.toNat_or, UInt16.toNat_shiftLeft, UInt8.toNat_toUInt16]
      rfl
    _ = hi.toNat <<< 8 ||| lo.toNat := by rw [Nat.mod_eq_of_lt hshift, Nat.or_comm]
    _ = hi.toNat <<< 8 + lo.toNat := (Nat.shiftLeft_add_eq_or_of_lt hlo _).symm
    _ = lo.toNat + 256 * hi.toNat := by
      rw [Nat.shiftLeft_eq]
      omega

/-- A coordinate that the driver reads comes back from the slot as the registers gave it. -/
theorem readWord_regWord {readBuf : ReadBuf} {i : Nat} (h : i + 1 < 8 * gt9147MaxTouch) :
    ∃ w : Int16, readWord readBuf i = .ok w ∧ w.toUInt16.toNat = regWord readBuf i := by
  obtain ⟨lo, hlo, hlo'⟩ := @byteAt_of_lt readBuf _ (Nat.lt_of_succ_lt h)
  obtain ⟨hi, hhi, hhi'⟩ := @byteAt_of_lt readBuf _ h
  refine ⟨(lo.toUInt16 ||| hi.toUInt16 <<< 8).toInt16, ?_, ?_⟩
  · rw [readWord, hlo, hhi]
    rfl
  · rw [regWord, ← hlo', ← hhi', ← toNat_or_shiftLeft]
    simp

/-- The slot holds a touch that is down. -/
def RtTouchData.Pressed (d : RtTouchData) : Prop :=
  d.event = rtTouchEventDown ∨ d.event = rtTouchEventMove

instance (d : RtTouchData) : Decidable d.Pressed := inferInstanceAs (Decidable (_ ∨ _))

/-- The slot holds the touch. -/
structure RtTouchData.Shows (d : RtTouchData) (t : Contact) : Prop where
  pressed : d.Pressed
  x : d.xCoordinate.toNat = t.x
  y : d.yCoordinate.toNat = t.y

theorem not_pressed_of_up {d : RtTouchData} (h : d.event = rtTouchEventUp) : ¬d.Pressed := by
  rw [RtTouchData.Pressed, h]
  decide

theorem slotOf_ofNat {id : Nat} (h : id < gt9147MaxTouch) :
    slotOf (Int8.ofNat id) = .ok ⟨id, h⟩ := by
  have hid : id < 5 := h
  interval_cases id <;> rfl

theorem ofNat_inj {i j : Nat} (hi : i < gt9147MaxTouch) (hj : j < gt9147MaxTouch)
    (h : Int8.ofNat i = Int8.ofNat j) : i = j := by
  have hslot : (Except.ok ⟨i, hi⟩ : Except Fault (Fin gt9147MaxTouch)) = .ok ⟨j, hj⟩ :=
    calc
      _ = slotOf (Int8.ofNat i) := (slotOf_ofNat hi).symm
      _ = slotOf (Int8.ofNat j) := by rw [h]
      _ = _ := slotOf_ofNat hj
  exact congrArg Fin.val (Except.ok.inj hslot)

section Vectors

variable {α : Type} {n : Nat} {k k' : Fin n}

@[simp] theorem get_replicate (x : α) : (Vector.replicate n x).get k = x :=
  Vector.getElem_replicate k.isLt

@[simp] theorem get_set_self (v : Vector α n) (x : α) : (v.set k x).get k = x :=
  Vector.getElem_set_self k.isLt

theorem get_set_ne (v : Vector α n) (x : α) (h : k' ≠ k) : (v.set k x).get k' = v.get k' :=
  Vector.getElem_set_ne k.isLt k'.isLt (Fin.val_ne_of_ne h.symm)

end Vectors

namespace Reading

/-- The flag and the slot of an id. -/
def flag (r : Reading) (k : Fin gt9147MaxTouch) : UInt8 := r.gt.sTpDowm.get k

def data (r : Reading) (k : Fin gt9147MaxTouch) : RtTouchData := r.readData.get k

/-- The two agree on an id. -/
def Same (r s : Reading) (k : Fin gt9147MaxTouch) : Prop := s.flag k = r.flag k ∧ s.data k = r.data k

/-- Only flags, last points and slots differ. -/
def SameIds (r s : Reading) : Prop := s.gt.preId = r.gt.preId ∧ s.gt.preTouch = r.gt.preTouch

variable {r : Reading} {ts : UInt32} {id : Int8} {k k' : Fin gt9147MaxTouch}

theorem Same.trans {s t : Reading} (h : r.Same s k) (h' : s.Same t k) : r.Same t k :=
  ⟨h'.1.trans h.1, h'.2.trans h.2⟩

theorem same_up (h : k' ≠ k) : r.Same (r.up ts id k) k' := by
  constructor
  · simp only [flag, up]
    split
    · exact get_set_ne _ _ h
    · rfl
  · exact get_set_ne _ _ h

theorem up_self (h : r.flag k = 1) :
    (r.up ts id k).flag k = 0 ∧ ((r.up ts id k).data k).event = rtTouchEventUp := by
  have h' : r.gt.sTpDowm.get k = 1 := h
  simp [flag, data, up, h']

theorem same_down {x y w : Int16} (h : k' ≠ k) : r.Same (r.down ts id k x y w) k' := by
  constructor
  · simp only [flag, down]
    split
    · rfl
    · exact get_set_ne _ _ h
  · exact get_set_ne _ _ h

theorem down_self {x y w : Int16} {t : Contact} (hx : x.toUInt16.toNat = t.x)
    (hy : y.toUInt16.toNat = t.y) :
    (r.down ts id k x y w).flag k = 1 ∧ ((r.down ts id k x y w).data k).Shows t := by
  by_cases h : r.gt.sTpDowm.get k = 1
  · refine ⟨by simp [flag, down, h], ⟨Or.inr ?_, ?_, ?_⟩⟩ <;> simp [data, down, h, hx, hy]
  · refine ⟨by simp [flag, down, h], ⟨Or.inl ?_, ?_, ?_⟩⟩ <;> simp [data, down, h, hx, hy]

/-- The driver between two polls; `P` lists the ids of the last frame. -/
structure Holds (r : Reading) (P : List Nat) : Prop where
  count : r.gt.preTouch.toNat = P.length
  preId : ∀ i id : Nat, P[i]? = some id → r.gt.preId[i]? = some (Int8.ofNat id)
  lt : ∀ id ∈ P, id < gt9147MaxTouch
  nodup : P.Nodup
  held : ∀ k : Fin gt9147MaxTouch, (k : Nat) ∈ P → r.flag k = 1
  pressed : ∀ k, r.flag k = 1 ↔ (r.data k).Pressed
  event : ∀ k, (r.data k).event = rtTouchEventNone ∨ (r.data k).event = rtTouchEventUp ∨
    (r.data k).Pressed

/-- After the first `m` ids of the last frame: those that are not in `skip` are lifted. -/
structure LiftTo (skip P : List Nat) (r₀ : Reading) (m : Nat) (r : Reading) : Prop where
  ids : r₀.SameIds r
  lifted : ∀ k : Fin gt9147MaxTouch, (k : Nat) ∈ P.take m → (k : Nat) ∉ skip →
    r.flag k = 0 ∧ (r.data k).event = rtTouchEventUp
  same : ∀ k : Fin gt9147MaxTouch, ((k : Nat) ∈ P.take m → (k : Nat) ∈ skip) → r₀.Same r k

/-- A loop over the ids of the last frame that lifts those not in `skip`. -/
theorem lift_loop {r₀ : Reading} {P : List Nat} (h₀ : r₀.Holds P) (skip : List Nat) (ts : UInt32)
    {f : Reading → Nat → Except Fault Reading}
    (hf : ∀ m (hm : m < P.length) r, r₀.SameIds r →
      f r m = if P[m] ∈ skip then .ok r else r.gt9147TouchUp ts (Int8.ofNat P[m])) :
    ∃ r, Run.run f r₀ (List.range P.length) = .ok r ∧ LiftTo skip P r₀ P.length r := by
  refine Run.run_range (fun m hm r hr => ?_) ⟨⟨rfl, rfl⟩, by simp, fun k _ => ⟨rfl, rfl⟩⟩
  have htake : P.take (m + 1) = P.take m ++ [P[m]] := (List.take_append_getElem hm).symm
  rw [hf m hm r hr.ids]
  by_cases hskip : P[m] ∈ skip
  · refine ⟨r, if_pos hskip, hr.ids, fun k hk hkskip => ?_, fun k hk => hr.same k fun hmem => ?_⟩
    · rw [htake, List.mem_append, List.mem_singleton] at hk
      rcases hk with hk | hk
      · exact hr.lifted k hk hkskip
      · exact absurd (hk ▸ hskip) hkskip
    · exact hk (by rw [htake]; exact List.mem_append_left _ hmem)
  · have hlt : P[m] < gt9147MaxTouch := h₀.lt _ (List.getElem_mem hm)
    -- the id has not been met before, so it is still down
    have hfresh : P[m] ∉ P.take m := by
      have hnodup := h₀.nodup.sublist (List.take_sublist (m + 1) P)
      rw [htake] at hnodup
      exact fun hmem => (List.nodup_append.mp hnodup).2.2 _ hmem _ List.mem_cons_self rfl
    have hflag : r.flag ⟨P[m], hlt⟩ = 1 := by
      rw [(hr.same ⟨P[m], hlt⟩ fun hmem => absurd hmem hfresh).1]
      exact h₀.held _ (List.getElem_mem hm)
    refine ⟨r.up ts (Int8.ofNat P[m]) ⟨P[m], hlt⟩, ?_, hr.ids, fun k hk hkskip => ?_, fun k hk => ?_⟩
    · rw [if_neg hskip, gt9147TouchUp, slotOf_ofNat hlt]
      rfl
    · by_cases hkm : k = ⟨P[m], hlt⟩
      · rw [hkm]
        exact up_self hflag
      · have hsame := @same_up r ts (Int8.ofNat P[m]) _ _ hkm
        rw [hsame.1, hsame.2]
        refine hr.lifted k ?_ hkskip
        rw [htake, List.mem_append, List.mem_singleton] at hk
        exact hk.resolve_right fun hval => hkm (Fin.ext hval)
    · have hkm : k ≠ ⟨P[m], hlt⟩ := by
        rintro rfl
        exact hskip (hk (by rw [htake]; exact List.mem_append_right _ List.mem_cons_self))
      have hsame := @same_up r ts (Int8.ofNat P[m]) _ _ hkm
      have hold := hr.same k fun hmem => hk (by rw [htake]; exact List.mem_append_left _ hmem)
      exact hold.trans hsame

theorem preId_ofNat {r₀ r : Reading} {P : List Nat} (h₀ : r₀.Holds P) (h : r₀.SameIds r) {m : Nat}
    (hm : m < P.length) : r.preId m = .ok (Int8.ofNat P[m]) := by
  have hget := h₀.preId m P[m] (List.getElem?_eq_getElem hm)
  rw [Reading.preId, CArray.get_natCast, h.1, hget]

/-- A pass of the inner loop. -/
theorem upScan_cons {r₀ r : Reading} {P : List Nat} (h₀ : r₀.Holds P) (h : r₀.SameIds r)
    {readBuf : ReadBuf} {n m j : Nat} (hm : m < P.length) (hj : j < gt9147MaxTouch)
    (hid : (contact readBuf j).id < gt9147MaxTouch) (ts : UInt32) (rest : List Nat) :
    upScan ts readBuf n m (j :: rest) r =
      if P[m] = (contact readBuf j).id then .ok r
      else if n ≤ j + 1 then
        (r.gt9147TouchUp ts (Int8.ofNat P[m])).bind (upScan ts readBuf n m rest)
      else upScan ts readBuf n m rest r := by
  have hlt : P[m] < gt9147MaxTouch := h₀.lt _ (List.getElem_mem hm)
  have heq : Int8.ofNat P[m] = Int8.ofNat (contact readBuf j).id ↔ P[m] = (contact readBuf j).id :=
    ⟨ofNat_inj hlt hid, congrArg Int8.ofNat⟩
  have hlast : (j : Int) ≥ (n : Int) - 1 ↔ n ≤ j + 1 := by omega
  rw [upScan, readId_contact hj, preId_ofNat h₀ h hm]
  simp only [bind, Except.bind, heq, hlast, Int8.toInt8_toUInt8]
  rfl

/-- The inner loop lifts the id unless the frame has it. -/
theorem upScan_eq {r₀ r : Reading} {P : List Nat} (h₀ : r₀.Holds P) (h : r₀.SameIds r)
    {readBuf : ReadBuf} {n m : Nat} (hm : m < P.length) (hn : n ≤ gt9147MaxTouch)
    (hids : ∀ j < n, (contact readBuf j).id < gt9147MaxTouch) (ts : UInt32) (c j : Nat)
    (hc : j + (c + 1) = n) :
    upScan ts readBuf n m (List.range' j (c + 1)) r =
      if P[m] ∈ (List.range' j (c + 1)).map (fun i => (contact readBuf i).id) then .ok r
      else r.gt9147TouchUp ts (Int8.ofNat P[m]) := by
  have hlt : P[m] < gt9147MaxTouch := h₀.lt _ (List.getElem_mem hm)
  have hj : j < n := by omega
  induction c generalizing j with
  | zero =>
      have hlast : n ≤ j + 1 := by omega
      rw [List.range'_one, upScan_cons h₀ h hm (by omega) (hids j hj), if_pos hlast]
      simp only [List.map_cons, List.map_nil, List.mem_singleton]
      split
      · rfl
      · rw [gt9147TouchUp, slotOf_ofNat hlt]
        rfl
  | succ c ih =>
      have hmore : ¬n ≤ j + 1 := by omega
      rw [List.range'_succ, upScan_cons h₀ h hm (by omega) (hids j hj), if_neg hmore,
        ih (j + 1) (by omega) (by omega)]
      simp only [List.map_cons, List.mem_cons]
      by_cases heq : P[m] = (contact readBuf j).id
      · rw [if_pos heq, if_pos (Or.inl heq)]
      · rw [if_neg heq]
        simp only [heq, false_or]

/-- After the first `m` touches of the frame. -/
structure EnterTo (readBuf : ReadBuf) (r₀ : Reading) (m : Nat) (r : Reading) : Prop where
  preTouch : r.gt.preTouch = r₀.gt.preTouch
  preId : ∀ i < m, r.gt.preId[i]? = some (Int8.ofNat (contact readBuf i).id)
  entered : ∀ j < m, ∀ k : Fin gt9147MaxTouch, (contact readBuf j).id = k →
    r.flag k = 1 ∧ (r.data k).Shows (contact readBuf j)
  same : ∀ k : Fin gt9147MaxTouch, (∀ j < m, (contact readBuf j).id ≠ k) → r₀.Same r k

/-- A pass of the loop that enters the touches. -/
theorem pointDown_eq {r : Reading} {readBuf : ReadBuf} {m : Nat} (hm : m < gt9147MaxTouch)
    (hid : (contact readBuf m).id < gt9147MaxTouch) (ts : UInt32) :
    ∃ t, pointDown ts readBuf r m = .ok t ∧ t.gt.preTouch = r.gt.preTouch ∧
      t.gt.preId = r.gt.preId.setIfInBounds m (Int8.ofNat (contact readBuf m).id) ∧
      (t.flag ⟨_, hid⟩ = 1 ∧ (t.data ⟨_, hid⟩).Shows (contact readBuf m)) ∧
      ∀ k : Fin gt9147MaxTouch, (contact readBuf m).id ≠ k → r.Same t k := by
  have hx : m * 8 + 1 + 1 < 8 * gt9147MaxTouch := by omega
  have hy : m * 8 + 3 + 1 < 8 * gt9147MaxTouch := by omega
  have hw : m * 8 + 5 + 1 < 8 * gt9147MaxTouch := by omega
  obtain ⟨x, hx, hxw⟩ := @readWord_regWord readBuf _ hx
  obtain ⟨y, hy, hyw⟩ := @readWord_regWord readBuf _ hy
  obtain ⟨w, hw, -⟩ := @readWord_regWord readBuf _ hw
  let id := Int8.ofNat (contact readBuf m).id
  let r₁ : Reading := { r with gt := { r.gt with preId := r.gt.preId.setIfInBounds m id } }
  have hset : r.setPreId m id = .ok r₁ := by
    rw [setPreId, CArray.set_of_lt _ hm]
  refine ⟨r₁.down ts id ⟨_, hid⟩ x y w, ?_, rfl, rfl, down_self hxw hyw, fun k hk => ?_⟩
  · rw [pointDown]
    simp only [readId_contact hm, hset, hx, hy, hw, bind, Except.bind, gt9147TouchDown,
      slotOf_ofNat hid, id]
    rfl
  · exact same_down fun hval => hk (by rw [hval])

theorem enter_loop (r₀ : Reading) {readBuf : ReadBuf} {n : Nat} (hn : n ≤ gt9147MaxTouch)
    (hids : ∀ j < n, (contact readBuf j).id < gt9147MaxTouch)
    (hinj : ∀ i < n, ∀ j < n, (contact readBuf i).id = (contact readBuf j).id → i = j)
    (ts : UInt32) :
    ∃ r, Run.run (pointDown ts readBuf) r₀ (List.range n) = .ok r ∧ EnterTo readBuf r₀ n r := by
  have hstart : EnterTo readBuf r₀ 0 r₀ :=
    ⟨rfl, fun i hi => absurd hi (Nat.not_lt_zero i), fun j hj => absurd hj (Nat.not_lt_zero j),
      fun k _ => ⟨rfl, rfl⟩⟩
  refine Run.run_range (fun m hm r hr => ?_) hstart
  obtain ⟨t, ht, hpre, hpreId, hself, hsame⟩ :=
    @pointDown_eq r readBuf _ (lt_of_lt_of_le hm hn) (hids m hm) ts
  refine ⟨t, ht, ⟨hpre.trans hr.preTouch, fun i hi => ?_, fun j hj k hk => ?_, fun k hk => ?_⟩⟩
  · rw [hpreId, Vector.getElem?_setIfInBounds]
    by_cases him : m = i
    · rw [if_pos him, if_pos (by omega), him]
    · rw [if_neg him]
      exact hr.preId i (by omega)
  · by_cases hjm : j = m
    · have hkm : k = ⟨_, hids m hm⟩ := Fin.ext (by rw [← hk, hjm])
      rw [hkm, hjm]
      exact hself
    · -- the ids differ, so this touch has not been overwritten
      have hne : (contact readBuf m).id ≠ k := by
        rw [← hk]
        exact fun h => hjm (hinj m hm j (by omega) h).symm
      rw [(hsame k hne).1, (hsame k hne).2]
      exact hr.entered j (by omega) k hk
  · have hold := hr.same k fun j hj => hk j (by omega)
    exact hold.trans (hsame k (hk m (Nat.lt_succ_self m)))

/-! ### A frame -/

/-- The driver after the frame `N`, the last frame having had the ids `P`. -/
structure Framed (r : Reading) (P : List Nat) (N : List Contact) (t : Reading) : Prop where
  holds : t.Holds (N.map Contact.id)
  shown : ∀ k : Fin gt9147MaxTouch, ∀ c ∈ N, c.id = k → (t.data k).Shows c
  lifted : ∀ k : Fin gt9147MaxTouch, Lifted P N k → (t.data k).event = rtTouchEventUp
  other : ∀ k : Fin gt9147MaxTouch, (k : Nat) ∉ N.map Contact.id → ¬Lifted P N k →
    t.data k = r.data k

/-- The invariant after a frame, from what the loops leave in the flags and slots. -/
theorem framed_of {r t : Reading} {P : List Nat} {N : List Contact} (hr : r.Holds P)
    (hcount : t.gt.preTouch.toNat = N.length)
    (hpreId : ∀ (i : Nat) (c : Contact), N[i]? = some c → t.gt.preId[i]? = some (Int8.ofNat c.id))
    (hlt : ∀ c ∈ N, c.id < gt9147MaxTouch) (hnodup : (N.map Contact.id).Nodup)
    (hentered : ∀ k : Fin gt9147MaxTouch, ∀ c ∈ N, c.id = k → t.flag k = 1 ∧ (t.data k).Shows c)
    (hlifted : ∀ k : Fin gt9147MaxTouch, Lifted P N k →
      t.flag k = 0 ∧ (t.data k).event = rtTouchEventUp)
    (hother : ∀ k : Fin gt9147MaxTouch, (k : Nat) ∉ N.map Contact.id → ¬Lifted P N k →
      r.Same t k) : Framed r P N t := by
  refine ⟨⟨?_, fun i id hi => ?_, fun id hid => ?_, hnodup, fun k hk => ?_, fun k => ?_,
    fun k => ?_⟩, fun k c hc hck => (hentered k c hc hck).2, fun k hk => (hlifted k hk).2,
    fun k hk hk' => (hother k hk hk').2⟩
  · rw [hcount, List.length_map]
  · rw [List.getElem?_map, Option.map_eq_some_iff] at hi
    obtain ⟨c, hc, rfl⟩ := hi
    exact hpreId i c hc
  · obtain ⟨c, hc, rfl⟩ := List.mem_map.mp hid
    exact hlt c hc
  · obtain ⟨c, hc, hck⟩ := List.mem_map.mp hk
    exact (hentered k c hc hck).1
  · by_cases hk : (k : Nat) ∈ N.map Contact.id
    · obtain ⟨c, hc, hck⟩ := List.mem_map.mp hk
      obtain ⟨hflag, hshows⟩ := hentered k c hc hck
      exact ⟨fun _ => hshows.pressed, fun _ => hflag⟩
    · by_cases hk' : Lifted P N k
      · obtain ⟨hflag, hup⟩ := hlifted k hk'
        rw [hflag]
        exact ⟨fun h => absurd h (by decide), fun h => absurd h (not_pressed_of_up hup)⟩
      · obtain ⟨hflag, hdata⟩ := hother k hk hk'
        rw [hflag, hdata]
        exact hr.pressed k
  · by_cases hk : (k : Nat) ∈ N.map Contact.id
    · obtain ⟨c, hc, hck⟩ := List.mem_map.mp hk
      exact Or.inr (Or.inr (hentered k c hc hck).2.pressed)
    · by_cases hk' : Lifted P N k
      · exact Or.inr (Or.inl (hlifted k hk').2)
      · rw [(hother k hk hk').2]
        exact hr.event k

/-- An empty frame lifts every id of the last one. -/
theorem frame_empty {r : Reading} {P : List Nat} (hr : r.Holds P) (ts : UInt32)
    (readBuf : ReadBuf) : ∃ t, r.frame ts readBuf 0 = .ok t ∧ Framed r P [] t := by
  have hup : ∀ m (hm : m < P.length) s, r.SameIds s →
      pointUp ts s m = if P[m] ∈ ([] : List Nat) then .ok s
        else s.gt9147TouchUp ts (Int8.ofNat P[m]) := by
    intro m hm s hs
    rw [pointUp, preId_ofNat hr hs hm, if_neg List.not_mem_nil]
    rfl
  obtain ⟨s, hrun, hs⟩ := lift_loop hr [] ts hup
  -- with no point in the frame, the search for lifted ids compares nothing
  have hscan : r.liftMissing ts readBuf 0 = .ok r := by
    unfold liftMissing
    split
    · exact Run.run_idle r _
    · rfl
  have hlift : r.enterFrame ts readBuf 0 = .ok s := by
    rw [enterFrame, if_neg fun h => h rfl, hr.count]
    split
    · exact hrun
    · have hzero : r.gt.preTouch = 0 := not_ne_iff.mp ‹_›
      rw [← hrun, ← hr.count, hzero]
      rfl
  refine ⟨{ s with gt := { s.gt with preTouch := 0 } }, ?_, framed_of hr rfl (by simp) (by simp)
    (by simp) (by simp) (fun k hk => ?_) (fun k hk hk' => ?_)⟩
  · rw [frame, hscan]
    simp only [bind, Except.bind, hlift]
    rfl
  · refine hs.lifted k ?_ List.not_mem_nil
    rw [List.take_length]
    exact hk.2.1
  · refine hs.same k fun hmem => absurd ⟨?_, ?_, hk⟩ hk'
    · rw [List.take_length] at hmem
      exact List.length_pos_of_mem hmem
    · rwa [List.take_length] at hmem

/-- The search for lifted ids, with at least one point in the frame. -/
theorem scan_loop {r : Reading} {P : List Nat} (hr : r.Holds P) {readBuf : ReadBuf} {n : Nat}
    (hpos : 0 < n) (hn : n ≤ gt9147MaxTouch)
    (hids : ∀ j < n, (contact readBuf j).id < gt9147MaxTouch) (ts : UInt32) :
    ∃ s, Run.run (fun r i => upScan ts readBuf n i (List.range n) r) r (List.range P.length) =
        .ok s ∧
      LiftTo (((List.range n).map (contact readBuf)).map Contact.id) P r P.length s := by
  apply lift_loop hr _ ts
  intro m hm s hs
  obtain ⟨c, rfl⟩ : ∃ c, n = c + 1 := ⟨n - 1, by omega⟩
  rw [List.range_eq_range', upScan_eq hr hs hm hn hids ts c 0 (by omega), List.map_map]
  rfl

/-- Before a frame with touches is entered, the ids it lacks are lifted, if it has fewer. -/
theorem liftMissing_eq {r : Reading} {P : List Nat} (hr : r.Holds P) {readBuf : ReadBuf}
    {touchNum : UInt8} (hpos : 0 < touchNum.toNat) (hn : touchNum.toNat ≤ gt9147MaxTouch)
    (hids : ∀ j < touchNum.toNat, (contact readBuf j).id < gt9147MaxTouch) (ts : UInt32) :
    ∃ s, r.liftMissing ts readBuf touchNum = .ok s ∧
      (∀ k : Fin gt9147MaxTouch, Lifted P ((List.range touchNum.toNat).map (contact readBuf)) k →
        s.flag k = 0 ∧ (s.data k).event = rtTouchEventUp) ∧
      ∀ k : Fin gt9147MaxTouch, ¬Lifted P ((List.range touchNum.toNat).map (contact readBuf)) k →
        r.Same s k := by
  have hgt : r.gt.preTouch > touchNum ↔
      ((List.range touchNum.toNat).map (contact readBuf)).length < P.length := by
    rw [List.length_map, List.length_range, ← hr.count]
    exact UInt8.lt_iff_toNat_lt
  unfold liftMissing
  by_cases hfewer : r.gt.preTouch > touchNum
  · obtain ⟨s, hrun, hs⟩ := scan_loop hr hpos hn hids ts
    rw [if_pos hfewer, hr.count]
    refine ⟨s, hrun, fun k hk => hs.lifted k ?_ hk.2.2, fun k hk => hs.same k fun hmem => ?_⟩
    · rw [List.take_length]
      exact hk.2.1
    · rw [List.take_length] at hmem
      exact by_contra fun hskip => hk ⟨hgt.mp hfewer, hmem, hskip⟩
  · rw [if_neg hfewer]
    exact ⟨r, rfl, fun k hk => absurd (hgt.mpr hk.1) hfewer, fun k _ => ⟨rfl, rfl⟩⟩

/-- A frame with touches lifts the ids it lacks, if it has fewer, and enters its own. -/
theorem frame_touches {r : Reading} {P : List Nat} (hr : r.Holds P) {readBuf : ReadBuf}
    {touchNum : UInt8} (hpos : touchNum ≠ 0) (hn : touchNum.toNat ≤ gt9147MaxTouch)
    (hids : ∀ j < touchNum.toNat, (contact readBuf j).id < gt9147MaxTouch)
    (hnodup : (((List.range touchNum.toNat).map (contact readBuf)).map Contact.id).Nodup)
    (ts : UInt32) :
    ∃ t, r.frame ts readBuf touchNum = .ok t ∧
      Framed r P ((List.range touchNum.toNat).map (contact readBuf)) t := by
  let N := (List.range touchNum.toNat).map (contact readBuf)
  have hlen : N.length = touchNum.toNat := by simp [N]
  have hpos' : 0 < touchNum.toNat := Nat.pos_of_ne_zero fun h => hpos (UInt8.toNat_inj.mp h)
  have hmem : ∀ c ∈ N, ∃ j < touchNum.toNat, contact readBuf j = c := fun c hc =>
    (List.mem_map.mp hc).imp fun j hj => ⟨List.mem_range.mp hj.1, hj.2⟩
  have hmap : ∀ j < touchNum.toNat, (contact readBuf j).id ∈ N.map Contact.id := fun j hj =>
    List.mem_map_of_mem (List.mem_map_of_mem (List.mem_range.mpr hj))
  obtain ⟨s, hscan, hlifted, hsame⟩ := liftMissing_eq hr hpos' hn hids ts
  have hinj : ∀ i < touchNum.toNat, ∀ j < touchNum.toNat,
      (contact readBuf i).id = (contact readBuf j).id → i = j := by
    intro i hi j hj hij
    rw [List.map_map] at hnodup
    exact List.inj_on_of_nodup_map hnodup (List.mem_range.mpr hi) (List.mem_range.mpr hj) hij
  obtain ⟨t, hrun, ht⟩ := enter_loop s hn hids hinj ts
  have henter : s.enterFrame ts readBuf touchNum = .ok t := by
    rw [enterFrame, if_pos hpos, hrun]
  refine ⟨{ t with gt := { t.gt with preTouch := touchNum } }, ?_,
    framed_of hr ?_ ?_ ?_ hnodup ?_ ?_ ?_⟩
  · rw [frame, hscan]
    simp only [bind, Except.bind, henter]
    rfl
  · exact hlen.symm
  · intro i c hc
    obtain ⟨hi, rfl⟩ := List.getElem?_eq_some_iff.mp hc
    have hget : N[i] = contact readBuf i := by simp [N]
    rw [hget]
    exact ht.preId i (hlen ▸ hi)
  · intro c hc
    obtain ⟨j, hj, rfl⟩ := hmem c hc
    exact hids j hj
  · intro k c hc hck
    obtain ⟨j, hj, rfl⟩ := hmem c hc
    exact ht.entered j hj k hck
  · intro k hk
    have hk' := ht.same k fun j hj hjk => hk.2.2 (hjk ▸ hmap j hj)
    exact ⟨hk'.1.trans (hlifted k hk).1, hk'.2 ▸ (hlifted k hk).2⟩
  · intro k hk hk'
    have hentered := ht.same k fun j hj hjk => hk (hjk ▸ hmap j hj)
    exact (hsame k hk').trans hentered

end Reading

namespace Bus

theorem Delivers.frame_eq {bus : Bus} (h : bus.Delivers) :
    ∃ status readBuf, bus.status = some status ∧ bus.points = some readBuf ∧
      bus.frame =
        if 128 ≤ status.toNat then some ((List.range (status.toNat % 16)).map (contact readBuf))
        else none := by
  obtain ⟨status, hstatus⟩ := Option.isSome_iff_exists.mp h.status
  obtain ⟨readBuf, hpoints⟩ := Option.isSome_iff_exists.mp h.points
  exact ⟨status, readBuf, hstatus, hpoints, by rw [frame, hstatus, hpoints]⟩

end Bus

namespace Reading

theorem readPoint_noData {bus : Bus} (h : bus.Delivers) (hframe : bus.frame = none) (ts : UInt32)
    (r : Reading) : r.gt9147ReadPoint bus ts = .ok (0, r) := by
  obtain ⟨status, readBuf, hstatus, hpoints, heq⟩ := h.frame_eq
  have hready : status &&& 0x80 = 0 := by
    rw [and_128_eq_zero_iff]
    rw [hframe] at heq
    by_contra hge
    rw [if_pos (not_lt.mp hge)] at heq
    cases heq
  rw [gt9147ReadPoint, hstatus]
  simp only [hready, if_true, ite_self]

theorem readPoint_frame {bus : Bus} (h : bus.Delivers) {N : List Contact}
    (hframe : bus.frame = some N) {r : Reading} {P : List Nat} (hr : r.Holds P) (ts : UInt32) :
    ∃ t, r.gt9147ReadPoint bus ts = .ok (gt9147MaxTouch, t) ∧ Framed r P N t := by
  obtain ⟨status, readBuf, hstatus, hpoints, heq⟩ := h.frame_eq
  have hge : 128 ≤ status.toNat := by
    by_contra hlt
    rw [hframe, if_neg hlt] at heq
    cases heq
  have hN : N = (List.range (status &&& 0x0f).toNat).map (contact readBuf) := by
    rw [hframe, if_pos hge, ← toNat_and_15] at heq
    exact Option.some.inj heq
  have hcount : (status &&& 0x0f).toNat ≤ gt9147MaxTouch := by
    have hlen := h.count N hframe
    rwa [hN, List.length_map, List.length_range] at hlen
  have hne : ¬status = 0 := fun hzero => by
    rw [hzero] at hge
    exact absurd hge (by decide)
  have hready : ¬status &&& 0x80 = 0 := by
    rw [and_128_eq_zero_iff]
    exact not_lt.mpr hge
  obtain ⟨t, ht, hframed⟩ : ∃ t, r.frame ts readBuf (status &&& 0x0f) = .ok t ∧
      Framed r P N t := by
    by_cases hzero : status &&& 0x0f = 0
    · rw [hzero] at hN ⊢
      rw [hN]
      exact frame_empty hr ts readBuf
    · have hnodup := h.ids N hframe
      have hrange := h.range N hframe
      rw [hN] at hnodup hrange ⊢
      refine frame_touches hr hzero hcount (fun j hj => (hrange _ ?_).1) hnodup ts
      exact List.mem_map_of_mem (List.mem_range.mpr hj)
  refine ⟨t, ?_, hframed⟩
  rw [gt9147ReadPoint, hstatus]
  simp only [if_neg hne, if_neg hready, if_neg (not_lt.mpr hcount), hpoints, ht, bind, Except.bind]
  rfl

end Reading

end SwmLvgl.Touch
