import Mathlib.Tactic.IntervalCases
import SwmLvgl.CanDriver

/-! A message sent and received again. The identifier is spread over two or four bytes of the frame and
the data follow it. A remote frame is sent with length 0, as a request has no data of its own. -/

namespace SwmLvgl.Can

theorem getLsbD_byte_shiftLeft (v : BitVec 32) (k i : Nat) :
    (((v >>> k).setWidth 8).setWidth 32 <<< k).getLsbD i =
      (decide (k ≤ i ∧ i < k + 8 ∧ i < 32) && v.getLsbD i) := by
  rw [BitVec.getLsbD_shiftLeft, BitVec.getLsbD_setWidth, BitVec.getLsbD_setWidth,
    BitVec.getLsbD_ushiftRight]
  by_cases h : k ≤ i ∧ i < k + 8 ∧ i < 32
  · obtain ⟨hk, hk', hi⟩ := h
    have hback : k + (i - k) = i := by omega
    have hlt : i - k < 8 := by omega
    have hlt' : i - k < 32 := by omega
    simp [hk, hk', hi, hback, hlt, hlt']
  · rw [decide_eq_false h, Bool.false_and]
    by_cases hi : i < 32
    · by_cases hk : i < k
      · simp [hk]
      · have hge : ¬i - k < 8 := by omega
        simp [hge]
    · simp [hi]

theorem getLsbD_byte_ushiftRight (v : BitVec 32) (k i : Nat) :
    (((v <<< k).setWidth 8).setWidth 32 >>> k).getLsbD i =
      (decide (k + i < 8) && v.getLsbD i) := by
  rw [BitVec.getLsbD_ushiftRight, BitVec.getLsbD_setWidth, BitVec.getLsbD_setWidth,
    BitVec.getLsbD_shiftLeft, Nat.add_sub_cancel_left]
  by_cases h : k + i < 8
  · have hlt : k + i < 32 := by omega
    have hge : ¬k + i < k := by omega
    simp only [h, hlt, hge, decide_true, decide_false, Bool.true_and, Bool.not_false]
  · simp [h]

theorem getLsbD_eq_false {v : BitVec 32} {n i : Nat} (h : v.toNat < 2 ^ n) (hi : n ≤ i) :
    v.getLsbD i = false :=
  Nat.testBit_lt_two_pow (h.trans_le (Nat.pow_le_pow_right (by decide) hi))

/-- The two bytes of a standard identifier put together. -/
theorem join_std {v : BitVec 32} (h : v.toNat < 2 ^ 11) :
    ((v >>> 3).setWidth 8).setWidth 32 <<< 3 ||| ((v <<< 5).setWidth 8).setWidth 32 >>> 5 = v := by
  apply BitVec.eq_of_getLsbD_eq
  intro i hi
  rw [BitVec.getLsbD_or, getLsbD_byte_shiftLeft, getLsbD_byte_ushiftRight, ← Bool.and_or_distrib_right]
  by_cases hlt : i < 11
  · have hcover : (3 ≤ i ∧ i < 3 + 8 ∧ i < 32) ∨ 5 + i < 8 := by omega
    rw [← Bool.decide_or, decide_eq_true hcover, Bool.true_and]
  · rw [getLsbD_eq_false h (Nat.not_lt.mp hlt), Bool.and_false]

/-- The four bytes of an extended identifier put together. -/
theorem join_ext {v : BitVec 32} (h : v.toNat < 2 ^ 29) :
    ((v >>> 21).setWidth 8).setWidth 32 <<< 21 ||| ((v >>> 13).setWidth 8).setWidth 32 <<< 13 |||
        ((v >>> 5).setWidth 8).setWidth 32 <<< 5 ||| ((v <<< 3).setWidth 8).setWidth 32 >>> 3 = v := by
  apply BitVec.eq_of_getLsbD_eq
  intro i hi
  rw [BitVec.getLsbD_or, BitVec.getLsbD_or, BitVec.getLsbD_or, getLsbD_byte_shiftLeft,
    getLsbD_byte_shiftLeft, getLsbD_byte_shiftLeft, getLsbD_byte_ushiftRight,
    ← Bool.and_or_distrib_right, ← Bool.and_or_distrib_right, ← Bool.and_or_distrib_right]
  by_cases hlt : i < 29
  · have hcover : (((21 ≤ i ∧ i < 21 + 8 ∧ i < 32) ∨ (13 ≤ i ∧ i < 13 + 8 ∧ i < 32)) ∨
        (5 ≤ i ∧ i < 5 + 8 ∧ i < 32)) ∨ 3 + i < 8 := by omega
    rw [← Bool.decide_or, ← Bool.decide_or, ← Bool.decide_or, decide_eq_true hcover, Bool.true_and]
  · rw [getLsbD_eq_false h (Nat.not_lt.mp hlt), Bool.and_false]

/-- The bits of `INFO` that name the format and the kind. -/
def Ide.bit : Ide → BitVec 32
  | .stdid => 0
  | .extid => 1

def Rtr.bit : Rtr → BitVec 32
  | .dtr => 0
  | .rtr => 1

/-- Where the data bytes stand. -/
def Ide.off : Ide → Nat
  | .stdid => 2
  | .extid => 4

/-- The bytes of the identifier. -/
def RtCanMsg.idBytes (msg : RtCanMsg) : List (BitVec 8) :=
  let id : BitVec 32 := msg.id.setWidth 32
  match msg.ide with
  | .stdid => [(id >>> 3).setWidth 8, (id <<< 5).setWidth 8]
  | .extid => [(id >>> 21).setWidth 8, (id >>> 13).setWidth 8, (id >>> 5).setWidth 8,
      (id <<< 3).setWidth 8]

/-- The length a message is sent with. -/
def RtCanMsg.sentLen (msg : RtCanMsg) : BitVec 8 :=
  match msg.rtr with
  | .dtr => msg.len
  | .rtr => 0

/-- The frame carries the message. -/
structure Carries (msg : RtCanMsg) (f : Frame) : Prop where
  info : f.info = (msg.ide.bit <<< 7 ||| msg.rtr.bit <<< 6 ||| msg.sentLen.setWidth 32 <<< 0).setWidth 8
  id : ∀ (k : Nat) (b : BitVec 8), msg.idBytes[k]? = some b → f.data[k]? = some b
  data : ∀ i < msg.sentLen.toNat, f.data[i + msg.ide.off]? = msg.data[i]?

/-- A message that can be sent: a standard identifier has 11 bits, and there are at most 8 bytes. -/
structure RtCanMsg.Sendable (msg : RtCanMsg) : Prop where
  id : msg.ide = .stdid → msg.id.toNat < 2 ^ 11
  len : msg.len.toNat ≤ 8

theorem sentLen_le {msg : RtCanMsg} (h : msg.Sendable) : msg.sentLen.toNat ≤ 8 := by
  rw [RtCanMsg.sentLen]
  cases msg.rtr with
  | dtr => exact h.len
  | rtr => exact Nat.zero_le 8

/-! ### Sending -/

namespace CanTypeDef

theorem setData_of_lt (c : CanTypeDef) {i : Nat} (h : i < 12) (v : BitVec 32) :
    c.setData i v =
      .ok { c with tx := { c.tx with data := c.tx.data.setIfInBounds i (v.setWidth 8) } } := by
  rw [setData, CArray.set_of_lt _ h]

/-- After `m` data bytes. -/
structure Sent (msg : RtCanMsg) (off : Nat) (c : CanTypeDef) (m : Nat) (t : CanTypeDef) : Prop where
  info : t.tx.info = c.tx.info
  kept : ∀ k < off, t.tx.data[k]? = c.tx.data[k]?
  data : ∀ i < m, t.tx.data[i + off]? = msg.data[i]?

theorem sendByte_loop (msg : RtCanMsg) {off n : Nat} (hoff : off ≤ 4) (hn : n ≤ 8) (c : CanTypeDef) :
    ∃ t, Run.run (sendByte msg off) c (List.range n) = .ok t ∧ Sent msg off c n t := by
  refine Run.run_range (fun m hm t h => ?_) ⟨rfl, fun _ _ => rfl, nofun⟩
  have hm8 : m < 8 := by omega
  have hbyte : CArray.get msg.data m = some msg.data[m] := CArray.get_of_lt msg.data hm8
  have hback : (msg.data[m].setWidth 32).setWidth 8 = msg.data[m] := by simp
  have hlt : m + off < 12 := by omega
  have hstep : sendByte msg off t m = t.setData (m + off) (msg.data[m].setWidth 32) := by
    rw [sendByte, hbyte]
  rw [setData_of_lt t hlt, hback] at hstep
  refine ⟨_, hstep, ⟨h.info, fun k hk => ?_, fun i hi => ?_⟩⟩
  · rw [Vector.getElem?_setIfInBounds, if_neg (by omega)]
    exact h.kept k hk
  · rw [Vector.getElem?_setIfInBounds]
    by_cases him : i = m
    · subst him
      rw [if_pos rfl, if_pos hlt, Vector.getElem?_eq_getElem hm8]
    · rw [if_neg (by omega)]
      exact h.data i (by omega)

theorem sendData_spec (msg : RtCanMsg) {off : Nat} (hoff : off ≤ 4) (hlen : msg.len.toNat ≤ 8)
    (c : CanTypeDef) : ∃ t, c.sendData msg off = .ok t ∧ Sent msg off c msg.len.toNat t := by
  obtain ⟨t, ht, hsent⟩ := sendByte_loop msg hoff hlen c
  rw [sendData, ht]
  cases hcr : t.cr.getLsbD 2 with
  | true =>
      refine ⟨t.setCmd 4, ?_, hsent.info, hsent.kept, hsent.data⟩
      simp only [bind, Except.bind, hcr, if_true]
      rfl
  | false =>
      refine ⟨t.setCmd 0, ?_, hsent.info, hsent.kept, hsent.data⟩
      simp only [bind, Except.bind, hcr, Bool.false_eq_true, if_false]
      rfl

/-- The identifier bytes written to the transmit buffer. -/
def withId (msg : RtCanMsg) (c : CanTypeDef) : CanTypeDef :=
  let data := msg.idBytes.zipIdx.foldl (fun d (e : BitVec 8 × Nat) => d.setIfInBounds e.2 e.1) c.tx.data
  { c with tx := { c.tx with data := data } }

theorem withId_data (msg : RtCanMsg) (c : CanTypeDef) {k : Nat} (hk : k < msg.ide.off) :
    (c.withId msg).tx.data[k]? = msg.idBytes[k]? := by
  obtain ⟨id, ide, kind, len, data⟩ := msg
  cases ide with
  | stdid =>
      have hk2 : k < 2 := hk
      interval_cases k <;> simp [withId, RtCanMsg.idBytes]
  | extid =>
      have hk4 : k < 4 := hk
      interval_cases k <;> simp [withId, RtCanMsg.idBytes]

/-- `swm_can_sendmsg`, once the identifier has been written. -/
theorem swmCanSendmsg_eq (msg : RtCanMsg) (c : CanTypeDef) : c.swmCanSendmsg msg =
    match msg.rtr with
    | .dtr => ((c.withId msg).setInfo msg.ide.bit 0 (msg.len.setWidth 32)).sendData msg msg.ide.off
    | .rtr => .ok (((c.withId msg).setInfo msg.ide.bit 1 0).setCmd 0) := by
  obtain ⟨id, ide, kind, len, data⟩ := msg
  cases ide <;> cases kind <;>
    simp only [swmCanSendmsg, bind, Except.bind, setData_of_lt _ (show 0 < 12 by decide),
      setData_of_lt _ (show 1 < 12 by decide), setData_of_lt _ (show 2 < 12 by decide),
      setData_of_lt _ (show 3 < 12 by decide)] <;>
    rfl

theorem sendmsg_carries (c : CanTypeDef) {msg : RtCanMsg} (h : msg.Sendable) :
    ∃ t, c.swmCanSendmsg msg = .ok t ∧ Carries msg t.tx := by
  have hoff : msg.ide.off ≤ 4 := by cases msg.ide <;> decide
  have hbytes : msg.idBytes.length = msg.ide.off := by
    rw [RtCanMsg.idBytes]
    cases msg.ide <;> rfl
  have hid : ∀ (k : Nat) (b : BitVec 8), msg.idBytes[k]? = some b → k < msg.ide.off := by
    intro k b hb
    rw [← hbytes]
    exact (List.getElem?_eq_some_iff.mp hb).1
  rw [swmCanSendmsg_eq]
  cases hrtr : msg.rtr with
  | dtr =>
      obtain ⟨t, ht, hsent⟩ := sendData_spec msg hoff h.len
        ((c.withId msg).setInfo msg.ide.bit 0 (msg.len.setWidth 32))
      have hlen : msg.sentLen = msg.len := by rw [RtCanMsg.sentLen, hrtr]
      refine ⟨t, ht, ⟨?_, fun k b hb => ?_, ?_⟩⟩
      · rw [hsent.info, hlen, hrtr]
        rfl
      · rw [hsent.kept k (hid k b hb), ← hb]
        exact withId_data msg c (hid k b hb)
      · rw [hlen]
        exact hsent.data
  | rtr =>
      have hlen : msg.sentLen = 0 := by rw [RtCanMsg.sentLen, hrtr]
      refine ⟨_, rfl, ⟨?_, fun k b hb => ?_, ?_⟩⟩
      · rw [hlen, hrtr]
        rfl
      · rw [← hb]
        exact withId_data msg c (hid k b hb)
      · rw [hlen]
        exact fun i hi => absurd hi (Nat.not_lt_zero i)

/-! ### Receiving -/

theorem getData_of_some {c : CanTypeDef} {k : Nat} {b : BitVec 8} (h : c.rx.data[k]? = some b) :
    c.getData k = .ok (b.setWidth 32) := by
  rw [getData, CArray.get_natCast, h]

/-- A loop that fills the data bytes. -/
theorem fill_spec {step : Vector (BitVec 8) 8 → Nat → Except Fault (Vector (BitVec 8) 8)}
    {f : Nat → BitVec 8} {n : Nat} (hn : n ≤ 8) (hstep : ∀ i < n, ∀ a, step a i = setByte a i (f i))
    (a : Vector (BitVec 8) 8) :
    ∃ b, Run.run step a (List.range n) = .ok b ∧ ∀ i < n, b[i]? = some (f i) := by
  refine Run.run_range (I := fun m (b : Vector (BitVec 8) 8) => ∀ i < m, b[i]? = some (f i))
    (fun m hm b h => ?_) nofun
  have hm8 : m < 8 := by omega
  refine ⟨b.setIfInBounds m (f m), ?_, fun i hi => ?_⟩
  · rw [hstep m hm, setByte, CArray.set_of_lt _ hm8]
  · rw [Vector.getElem?_setIfInBounds]
    by_cases him : m = i
    · rw [if_pos him, if_pos hm8, him]
    · rw [if_neg him]
      exact h i (by omega)

end CanTypeDef

/-- The information byte taken apart. -/
theorem info_fields (ide : Ide) (kind : Rtr) {len : BitVec 8} (h : len.toNat ≤ 8) :
    let info : BitVec 32 :=
      ((ide.bit <<< 7 ||| kind.bit <<< 6 ||| len.setWidth 32 <<< 0).setWidth 8).setWidth 32
    (info &&& 0x80) >>> 7 = ide.bit ∧ (info &&& 0x40) >>> 6 = kind.bit ∧
      (info &&& 0x0F) >>> 0 = len.setWidth 32 := by
  have hall : ∀ n ≤ 8, let info : BitVec 32 :=
      ((ide.bit <<< 7 ||| kind.bit <<< 6 ||| (BitVec.ofNat 8 n).setWidth 32 <<< 0).setWidth 8).setWidth 32
    (info &&& 0x80) >>> 7 = ide.bit ∧ (info &&& 0x40) >>> 6 = kind.bit ∧
      (info &&& 0x0F) >>> 0 = (BitVec.ofNat 8 n).setWidth 32 := by
    cases ide <;> cases kind <;> decide
  have hlen := hall len.toNat h
  rwa [BitVec.ofNat_toNat, BitVec.setWidth_eq] at hlen

namespace CanTypeDef

/-- The identifier as `CAN_Receive` puts it together, and where it finds the data. -/
def receiveId (c : CanTypeDef) (format : BitVec 32) : Except Fault (BitVec 32 × Nat) :=
  if format = 0 then do
    let d0 ← c.getData 0
    let d1 ← c.getData 1
    pure (d0 <<< 3 ||| d1 >>> 5, 2)
  else do
    let d0 ← c.getData 0
    let d1 ← c.getData 1
    let d2 ← c.getData 2
    let d3 ← c.getData 3
    pure (d0 <<< 21 ||| d1 <<< 13 ||| d2 <<< 5 ||| d3 >>> 3, 4)

/-- `CAN_Receive` by its parts. -/
theorem canReceive_eq (c : CanTypeDef) (stack : Vector (BitVec 8) 8) {format remote size : BitVec 32}
    (hformat : (c.rx.info.setWidth 32 &&& 0x80 : BitVec 32) >>> 7 = format)
    (hremote : (c.rx.info.setWidth 32 &&& 0x40 : BitVec 32) >>> 6 = remote)
    (hsize : (c.rx.info.setWidth 32 &&& 0x0F : BitVec 32) >>> 0 = size) :
    c.canReceive stack = do
      let (id, off) ← c.receiveId format
      let data ← Run.run (c.receiveByte off) stack (List.range size.toNat)
      return (⟨id, format.setWidth 8, remote.setWidth 8, size.setWidth 8, data⟩, c.setCmd 2) := by
  subst hformat hremote hsize
  rw [canReceive, receiveId]
  split <;> simp only [bind_assoc, pure_bind]

theorem receiveId_spec {c : CanTypeDef} {msg : RtCanMsg} (hmsg : msg.Sendable)
    (h : Carries msg c.rx) :
    c.receiveId msg.ide.bit = .ok (msg.id.setWidth 32, msg.ide.off) := by
  obtain ⟨id, ide, kind, len, data⟩ := msg
  have hbyte := fun k b hb => getData_of_some (h.id k b hb)
  have hid : (id.setWidth 32 : BitVec 32).toNat = id.toNat :=
    BitVec.toNat_setWidth_of_le (by decide)
  cases ide with
  | stdid =>
      have hlt : (id.setWidth 32 : BitVec 32).toNat < 2 ^ 11 := hid ▸ hmsg.id rfl
      show c.receiveId 0 = .ok (id.setWidth 32, 2)
      rw [receiveId, if_pos rfl, hbyte 0 _ rfl, hbyte 1 _ rfl]
      exact congrArg (fun v => Except.ok (v, 2)) (join_std hlt)
  | extid =>
      have hlt : (id.setWidth 32 : BitVec 32).toNat < 2 ^ 29 := hid ▸ id.isLt
      show c.receiveId 1 = .ok (id.setWidth 32, 4)
      rw [receiveId, if_neg (by decide), hbyte 0 _ rfl, hbyte 1 _ rfl, hbyte 2 _ rfl, hbyte 3 _ rfl]
      exact congrArg (fun v => Except.ok (v, 4)) (join_ext hlt)

theorem canReceive_spec {c : CanTypeDef} {msg : RtCanMsg} (hmsg : msg.Sendable)
    (h : Carries msg c.rx) (stack : Vector (BitVec 8) 8) :
    ∃ data, c.canReceive stack = .ok (⟨msg.id.setWidth 32, msg.ide.bit.setWidth 8,
        msg.rtr.bit.setWidth 8, msg.sentLen, data⟩, c.setCmd 2) ∧
      ∀ i < msg.sentLen.toNat, data[i]? = msg.data[i]? := by
  have hlen := sentLen_le hmsg
  obtain ⟨hformat, hremote, hsize⟩ := info_fields msg.ide msg.rtr hlen
  rw [← h.info] at hformat hremote hsize
  have hcount : (msg.sentLen.setWidth 32 : BitVec 32).toNat = msg.sentLen.toNat :=
    BitVec.toNat_setWidth_of_le (by decide)
  have hback : (msg.sentLen.setWidth 32 : BitVec 32).setWidth 8 = msg.sentLen := by simp
  have hbyte : ∀ i < msg.sentLen.toNat, ∀ a, c.receiveByte msg.ide.off a i =
      setByte a i (msg.data[i]?.getD 0) := by
    intro i hi a
    have hi8 : i < 8 := hi.trans_le hlen
    have hdata := h.data i hi
    rw [Vector.getElem?_eq_getElem hi8] at hdata ⊢
    rw [receiveByte, getData_of_some hdata]
    simp [bind, Except.bind]
  obtain ⟨data, hrun, hdata⟩ := fill_spec hlen hbyte stack
  refine ⟨data, ?_, fun i hi => ?_⟩
  · rw [canReceive_eq c stack hformat hremote hsize, receiveId_spec hmsg h]
    simp only [bind, Except.bind, hcount, hrun, hback]
    rfl
  · rw [hdata i hi, Vector.getElem?_eq_getElem (hi.trans_le hlen)]
    rfl

/-- The frame sent arrives in the receive buffer. -/
def arrive (c : CanTypeDef) : CanTypeDef := { c with rx := c.tx }

theorem recvmsg_spec {c : CanTypeDef} {msg : RtCanMsg} (hmsg : msg.Sendable) (h : Carries msg c.rx)
    (stack : Vector (BitVec 8) 8) (buf : RtCanMsg) :
    ∃ data t, c.swmCanRecvmsg stack buf = .ok (⟨msg.id, msg.ide, msg.rtr, msg.sentLen, data⟩, t) ∧
      ∀ i < msg.sentLen.toNat, data[i]? = msg.data[i]? := by
  obtain ⟨received, hreceive, hreceived⟩ := canReceive_spec hmsg h stack
  have hlen := sentLen_le hmsg
  have hbyte : ∀ i < msg.sentLen.toNat, ∀ a, copyByte received a i =
      setByte a i (msg.data[i]?.getD 0) := by
    intro i hi a
    have hi8 : i < 8 := hi.trans_le hlen
    rw [copyByte, CArray.get_natCast, hreceived i hi, Vector.getElem?_eq_getElem hi8]
    rfl
  obtain ⟨data, hrun, hdata⟩ := fill_spec hlen hbyte buf.data
  refine ⟨data, c.setCmd 2, ?_, fun i hi => ?_⟩
  · rw [swmCanRecvmsg, hreceive]
    simp only [bind, Except.bind, hrun]
    have hid : (msg.id.setWidth 32 : BitVec 32).setWidth 29 = msg.id := by simp
    have hide : (if msg.ide.bit.setWidth 8 = (0 : BitVec 8) then Ide.stdid else .extid) = msg.ide := by
      cases msg.ide <;> rfl
    have hrtr : (if msg.rtr.bit.setWidth 8 = (0 : BitVec 8) then Rtr.dtr else .rtr) = msg.rtr := by
      cases msg.rtr <;> rfl
    rw [hid, hide, hrtr]
    rfl
  · rw [hdata i hi, Vector.getElem?_eq_getElem (hi.trans_le hlen)]
    rfl

end CanTypeDef

/-- **Round trip.** A message sent and received comes back with its format, identifier and kind; a data
frame with its length and bytes as well, a remote frame with length 0. -/
theorem frame_round_trip {msg : RtCanMsg} (h : msg.Sendable) (c : CanTypeDef)
    (stack : Vector (BitVec 8) 8) (buf : RtCanMsg) :
    ∃ c' out t, c.swmCanSendmsg msg = .ok c' ∧ c'.arrive.swmCanRecvmsg stack buf = .ok (out, t) ∧
      out.ide = msg.ide ∧ out.id = msg.id ∧ out.rtr = msg.rtr ∧
      (msg.rtr = .dtr → out.len = msg.len ∧ ∀ i < msg.len.toNat, out.data[i]? = msg.data[i]?) ∧
      (msg.rtr = .rtr → out.len = 0) := by
  obtain ⟨c', hsend, hcarries⟩ := c.sendmsg_carries h
  obtain ⟨data, t, hrecv, hdata⟩ := CanTypeDef.recvmsg_spec h
    (show Carries msg c'.arrive.rx from hcarries) stack buf
  refine ⟨c', _, t, hsend, hrecv, rfl, rfl, rfl, fun hrtr => ?_, fun hrtr => ?_⟩
  · have hlen : msg.sentLen = msg.len := by rw [RtCanMsg.sentLen, hrtr]
    exact ⟨hlen, hlen ▸ hdata⟩
  · exact show msg.sentLen = 0 by rw [RtCanMsg.sentLen, hrtr]

/-- A data frame of three bytes, in the extended format. -/
def dataMsg : RtCanMsg := ⟨0x12345, .extid, .dtr, 3, #v[0xA1, 0xB2, 0xC3, 0, 0, 0, 0, 0]⟩

/-- A remote frame of length 4. -/
def remoteMsg : RtCanMsg := ⟨0x123, .stdid, .rtr, 4, Vector.replicate 8 0⟩

/-- What was received before, in the caller's structure and on the stack, makes no difference. -/
theorem frame_round_trip_demo : ∃ c' out t, CanTypeDef.reset.swmCanSendmsg dataMsg = .ok c' ∧
    c'.arrive.swmCanRecvmsg (Vector.replicate 8 0xFF) remoteMsg = .ok (out, t) ∧
    out.ide = dataMsg.ide ∧ out.id = dataMsg.id ∧ out.rtr = dataMsg.rtr ∧
    out.len = 3 ∧ out.data[0]? = some 0xA1 ∧ out.data[1]? = some 0xB2 ∧ out.data[2]? = some 0xC3 := by
  obtain ⟨c', out, t, hsend, hrecv, hide, hid, hrtr, hdata, -⟩ :=
    @frame_round_trip dataMsg ⟨nofun, by decide⟩ CanTypeDef.reset (Vector.replicate 8 0xFF) remoteMsg
  obtain ⟨hlen, hbytes⟩ := hdata rfl
  exact ⟨c', out, t, hsend, hrecv, hide, hid, hrtr, hlen, hbytes 0 (by decide), hbytes 1 (by decide),
    hbytes 2 (by decide)⟩

/-- A remote frame of length 4 arrives with length 0. -/
theorem remote_len_lost : ∃ c' out t, CanTypeDef.reset.swmCanSendmsg remoteMsg = .ok c' ∧
    c'.arrive.swmCanRecvmsg (Vector.replicate 8 0) remoteMsg = .ok (out, t) ∧
    remoteMsg.len = 4 ∧ out.len = 0 :=
  ⟨_, _, _, rfl, rfl, rfl, by decide⟩

end SwmLvgl.Can
