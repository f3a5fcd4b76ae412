import SwmLvgl.I2cBytes

/-! A transfer of messages over the lines is the exchange of their bytes. The upper half of the master is
one program over `Link`, so a relation that the six functions of the lower half keep is kept by every
transfer. For messages that keep to the rules of the interface the exchange is defined throughout, and
without `RT_I2C_NO_STOP` it ends with a free bus. -/

namespace SwmLvgl.I2c

open Prog

/-- The functions of `L` follow those of `L'`. -/
structure Link.Follows {σ τ : Type} (R : σ → τ → Prop) (L : Link σ) (L' : Link τ) : Prop where
  start : Sim R L.start L'.start
  restart : Sim R L.restart L'.restart
  stop : Sim R L.stop L'.stop
  delay2 : Sim R L.delay2 L'.delay2
  writeb : ∀ byte, Sim R (L.writeb byte) (L'.writeb byte)
  readb : Sim R L.readb L'.readb
  sendAckOrNack : ∀ ack, Sim R (L.sendAckOrNack ack) (L'.sendAckOrNack ack)

namespace Link.Follows

variable {σ τ : Type} {R : σ → τ → Prop} {L : Link σ} {L' : Link τ} (h : Link.Follows R L L')

include h

theorem sendLoop (ignoreNack : Bool) (buf : List UInt8) (bytes : Int) :
    Sim R (L.sendLoop ignoreNack buf bytes) (L'.sendLoop ignoreNack buf bytes) := by
  induction buf generalizing bytes with
  | nil => exact Sim.pure _
  | cons b rest ih =>
      refine (h.writeb b).bind fun ret => Sim.ite (ih _) ?_
      exact Sim.ite (Sim.pure _) (Sim.pure _)

theorem recvLoop (noReadAck : Bool) (buf : List UInt8) (bytes : Int) :
    Sim R (L.recvLoop noReadAck buf bytes) (L'.recvLoop noReadAck buf bytes) := by
  induction buf generalizing bytes with
  | nil => exact Sim.pure _
  | cons old rest ih =>
      refine h.readb.bind fun val => Sim.ite ?_ (Sim.pure _)
      refine Sim.ite ((ih _).bind fun _ => Sim.pure _) ((h.sendAckOrNack _).bind fun val => ?_)
      exact Sim.ite (Sim.pure _) ((ih _).bind fun _ => Sim.pure _)

theorem sendAddressLoop (addr : UInt8) (n : Nat) :
    Sim R (L.sendAddressLoop addr n) (L'.sendAddressLoop addr n) := by
  induction n with
  | zero => exact h.writeb addr
  | succ n ih =>
      refine (h.writeb addr).bind fun ret => Sim.ite (Sim.pure _) ?_
      exact h.stop.bind fun _ => h.delay2.bind fun _ => h.start.bind fun _ => ih

theorem i2cSendAddress (addr : UInt8) (retries : Int) :
    Sim R (L.i2cSendAddress addr retries) (L'.i2cSendAddress addr retries) :=
  Sim.ite (Sim.pure _) (h.sendAddressLoop _ _)

theorem xferOut (msg : RtI2cMsg) : Sim R (L.xferOut msg) (L'.xferOut msg) := Sim.ite (Sim.pure _) h.stop

variable [Errno]

theorem i2cBitSendAddress (retries : UInt32) (msg : RtI2cMsg) :
    Sim R (L.i2cBitSendAddress retries msg) (L'.i2cBitSendAddress retries msg) := by
  refine Sim.ite ((h.i2cSendAddress _ _).bind fun ret => Sim.ite (Sim.pure _) ?_) ?_
  · refine (h.writeb _).bind fun ret => Sim.ite (Sim.pure _) (Sim.ite ?_ (Sim.pure _))
    exact h.restart.bind fun _ => (h.i2cSendAddress _ _).bind fun ret => Sim.ite (Sim.pure _) (Sim.pure _)
  · exact (h.i2cSendAddress _ _).bind fun ret => Sim.ite (Sim.pure _) (Sim.pure _)

theorem xferAddress (retries : UInt32) (i : Nat) (msg : RtI2cMsg) :
    Sim R (L.xferAddress retries i msg) (L'.xferAddress retries i msg) := by
  refine Sim.ite (Sim.pure _) ?_
  refine Sim.ite (h.restart.bind fun _ => ?_) (h.start.bind fun _ => ?_)
  · exact h.i2cBitSendAddress retries msg
  · exact h.i2cBitSendAddress retries msg

theorem xferMsg (retries : UInt32) (i : Nat) (msg : RtI2cMsg) :
    Sim R (L.xferMsg retries i msg) (L'.xferMsg retries i msg) := by
  refine (h.xferAddress retries i msg).bind fun ret => Sim.ite (Sim.pure _) (Sim.ite ?_ ?_)
  · exact (h.recvLoop _ _ _).bind fun _ => Sim.ite (Sim.pure _) (Sim.pure _)
  · exact (h.sendLoop _ _ _).bind fun _ => Sim.ite (Sim.pure _) (Sim.pure _)

theorem xferLoop (retries : UInt32) (i : Nat) (msg : RtI2cMsg) (rest : List RtI2cMsg) :
    Sim R (L.xferLoop retries i msg rest) (L'.xferLoop retries i msg rest) := by
  induction rest generalizing i msg with
  | nil => exact (h.xferMsg retries i msg).bind fun _ => (h.xferOut msg).bind fun _ => Sim.pure _
  | cons next rest ih =>
      refine (h.xferMsg retries i msg).bind fun r => ?_
      rcases r with ⟨_ | ret, buf⟩
      · exact (ih (i + 1) next).bind fun _ => Sim.pure _
      · exact (h.xferOut msg).bind fun _ => Sim.pure _

/-- A transfer follows the other one. -/
theorem i2cBitXfer (retries : UInt32) (msgs : List RtI2cMsg) :
    Sim R (L.i2cBitXfer retries msgs) (L'.i2cBitXfer retries msgs) := by
  cases msgs with
  | nil => exact Sim.pure _
  | cons msg rest => exact h.xferLoop retries 0 msg rest

end Link.Follows

/-- A device that has acknowledged its address sends or listens, as the address byte says. -/
def Mode.Granted (sends : Bool) (m : Mode) : Prop := if sends then ∃ byte, m = .talk byte else m = .listen

/-- The bytes of a message may follow: they go to a device, or nobody takes part. -/
def Mode.Ready (sends : Bool) (m : Mode) : Prop := m = .idle ∨ m.Granted sends

/-- The device leaves the data line alone, so that a start or a stop condition may follow. -/
def Mode.Stops (m : Mode) : Prop := m = .idle ∨ m = .address ∨ m = .listen

theorem Mode.Ready.stops {m : Mode} (h : m.Ready false) : m.Stops := by
  rcases h with h | h
  · exact Or.inl h
  · exact Or.inr (Or.inr h)

section Defined

variable {τ : Type} {X : Target τ}

theorem hear_cases (byte : UInt8) (first : Bool) (t : τ) :
    ((X.hear byte first t).1 = 1 ∧ (X.hear byte first t).2.mode.Granted (first && byte.toNat.testBit 0)) ∨
      ((X.hear byte first t).1 = 0 ∧ (X.hear byte first t).2.mode = .idle) := by
  rcases hanswer : if first then X.address byte t else X.write byte t with ⟨acks, t'⟩
  rw [Target.hear, hanswer]
  cases acks with
  | false => exact Or.inr ⟨rfl, rfl⟩
  | true =>
      refine Or.inl ⟨rfl, ?_⟩
      cases first && byte.toNat.testBit 0 with
      | false => exact (rfl : Mode.listen = .listen)
      | true => exact ⟨_, rfl⟩

theorem writeb_address (byte : UInt8) : Triple (fun w => w.mode = .address) (X.link.writeb byte)
    fun r w => (r = 1 ∧ w.mode.Granted (byte.toNat.testBit 0)) ∨ (r = 0 ∧ w.mode = .idle) := by
  rintro ⟨t, m⟩ rfl
  exact ⟨(X.hear byte true t).1, (X.hear byte true t).2, rfl, hear_cases byte true t⟩

theorem writeb_ready (byte : UInt8) : Triple (fun w => w.mode.Ready false) (X.link.writeb byte)
    fun _ w => w.mode.Ready false := by
  rintro ⟨t, m⟩ hm
  obtain rfl | rfl := (hm : m = .idle ∨ m = .listen)
  · exact ⟨_, _, rfl, Or.inl rfl⟩
  · refine ⟨(X.hear byte false t).1, (X.hear byte false t).2, rfl, ?_⟩
    rcases hear_cases (X := X) byte false t with ⟨-, h⟩ | ⟨-, h⟩
    · exact Or.inr h
    · exact Or.inl h

theorem stop_stops : Triple (fun w : Wire τ => w.mode.Stops) X.link.stop fun _ w => w.mode = .free := by
  rintro ⟨t, m⟩ hm
  obtain rfl | rfl | rfl := (hm : m = .idle ∨ m = .address ∨ m = .listen) <;> exact ⟨_, _, rfl, rfl⟩

theorem restart_stops :
    Triple (fun w : Wire τ => w.mode.Stops) X.link.restart fun _ w => w.mode = .address := by
  rintro ⟨t, m⟩ hm
  obtain rfl | rfl | rfl := (hm : m = .idle ∨ m = .address ∨ m = .listen) <;> exact ⟨_, _, rfl, rfl⟩

theorem start_free : Triple (fun w : Wire τ => w.mode = .free) X.link.start fun _ w => w.mode = .address := by
  rintro ⟨t, m⟩ rfl
  exact ⟨_, _, rfl, rfl⟩

theorem delay2_free : Triple (fun w : Wire τ => w.mode = .free) X.link.delay2 fun _ w => w.mode = .free := by
  rintro ⟨t, m⟩ rfl
  exact ⟨_, _, rfl, rfl⟩

/-- The address byte, sent again while nobody acknowledges it. -/
theorem sendAddressLoop_spec (addr : UInt8) (n : Nat) :
    Triple (fun w => w.mode = .address) (X.link.sendAddressLoop addr n)
      fun r w => (r = 1 ∧ w.mode.Granted (addr.toNat.testBit 0)) ∨ (r = 0 ∧ w.mode = .idle) := by
  induction n with
  | zero => exact writeb_address addr
  | succ n ih =>
      refine (writeb_address addr).bind fun ret => Triple.ite (fun hret => Triple.pure ?_) fun hret => ?_
      · intro w hw
        exact hw
      · have hidle : ∀ w : Wire τ, (ret = 1 ∧ w.mode.Granted (addr.toNat.testBit 0)) ∨
            (ret = 0 ∧ w.mode = .idle) → w.mode.Stops := fun w hw =>
          hw.elim (fun h => absurd h.1 hret) fun h => Or.inl h.2
        refine (stop_stops.weaken hidle fun _ _ h => h).bind fun _ => ?_
        exact delay2_free.bind fun _ => start_free.bind fun _ => ih

/-- With a negative number of retries the address is not sent at all. -/
theorem i2cSendAddress_spec (addr : UInt8) (retries : Int) :
    Triple (fun w => w.mode = .address) (X.link.i2cSendAddress addr retries)
      fun r w => (r = 1 ∧ w.mode.Granted (addr.toNat.testBit 0)) ∨
        (r ≠ 1 ∧ (w.mode = .idle ∨ (retries < 0 ∧ w.mode = .address))) := by
  refine Triple.ite (fun hneg => Triple.pure fun w hw => ?_) fun _ => ?_
  · exact Or.inr ⟨by decide, Or.inr ⟨hneg, hw⟩⟩
  · refine (sendAddressLoop_spec addr _).weaken (fun _ h => h) fun r w hw => ?_
    rcases hw with h | ⟨rfl, h⟩
    · exact Or.inl h
    · exact Or.inr ⟨by decide, Or.inl h⟩

/-- The address of a message. With `RT_I2C_IGNORE_NACK` it is sent once, and what comes of it counts as
success. -/
theorem address_spec (addr : UInt8) (ignoreNack : Bool) (retries : UInt32) :
    Triple (fun w => w.mode = .address)
      (X.link.i2cSendAddress addr (if ignoreNack then 0 else retries.toInt32.toInt))
      fun r w => if r ≠ 1 ∧ !ignoreNack then w.mode.Stops else w.mode.Ready (addr.toNat.testBit 0) := by
  refine (i2cSendAddress_spec addr _).weaken (fun _ h => h) fun r w hw => ?_
  rcases hw with ⟨rfl, hgranted⟩ | ⟨hr, hidle⟩
  · rw [if_neg (by simp)]
    exact Or.inr hgranted
  · cases ignoreNack with
    | true =>
        rw [if_neg (by simp)]
        exact Or.inl (hidle.resolve_right fun h => absurd h.1 (by simp))
    | false =>
        rw [if_pos (by simpa using hr)]
        exact hidle.imp id fun h => Or.inl h.2

/-- A failure to address the device is reported unless it is ignored; else the bytes may follow. -/
def Addressed (msg : RtI2cMsg) (ret : Int) (m : Mode) : Prop :=
  if ret ≠ 0 ∧ !msg.has rtI2cIgnoreNack then m.Stops else m.Ready (msg.has rtI2cRd)

theorem reported [Errno] {msg : RtI2cMsg} {ret : Int} {sends : Bool} (hsends : sends = msg.has rtI2cRd) :
    Triple (fun w : Wire τ => if ret ≠ 1 ∧ !msg.has rtI2cIgnoreNack then w.mode.Stops else w.mode.Ready sends)
      (if ret ≠ 1 ∧ !msg.has rtI2cIgnoreNack then (return -rtEio) else (return 0))
      fun r w => Addressed msg r w.mode := by
  refine Triple.ite (fun hc => Triple.pure fun w hw => ?_) fun hc => Triple.pure fun w hw => ?_
  · rw [if_pos hc] at hw
    rw [Addressed, if_pos ⟨neg_rtEio_ne_zero, hc.2⟩]
    exact hw
  · rw [if_neg hc] at hw
    rw [Addressed, if_neg (by simp), ← hsends]
    exact hw

theorem testBit_or_one (a : UInt8) : (a ||| 1).toNat.testBit 0 = true := by
  rw [UInt8.toNat_or, Nat.testBit_or]
  simp

theorem testBit_shift (a : UInt16) : (a <<< 1).toUInt8.toNat.testBit 0 = false := by
  rw [UInt16.toNat_toUInt8, Nat.testBit_mod_two_pow, UInt16.toNat_shiftLeft, Nat.testBit_mod_two_pow,
    Nat.testBit_shiftLeft]
  simp

theorem testBit_addr1 (a : UInt16) : (Link.addr1 a).toNat.testBit 0 = false := by
  rw [Link.addr1, UInt16.toNat_toUInt8, Nat.testBit_mod_two_pow, UInt16.toNat_or, Nat.testBit_or,
    UInt16.toNat_and, Nat.testBit_and]
  simp

/-- The address of a message, of seven bits or of ten. -/
theorem i2cBitSendAddress_spec [Errno] (retries : UInt32) (msg : RtI2cMsg) :
    Triple (fun w => w.mode = .address) (X.link.i2cBitSendAddress retries msg)
      fun r w => Addressed msg r w.mode := by
  refine Triple.ite (fun _ => ?_) fun _ => ?_
  · refine (address_spec (Link.addr1 msg.addr) _ retries).bind fun ret => ?_
    rw [testBit_addr1]
    refine Triple.ite (fun hc => Triple.pure fun w hw => ?_) fun hc => ?_
    · rw [if_pos hc] at hw
      rw [Addressed, if_pos ⟨neg_rtEio_ne_zero, hc.2⟩]
      exact hw
    simp only [if_neg hc]
    refine (writeb_ready _).bind fun ret => Triple.ite (fun hc => Triple.pure fun w hw => ?_) fun _ => ?_
    · rw [Addressed, if_pos ⟨neg_rtEio_ne_zero, hc.2⟩]
      exact hw.stops
    refine Triple.ite (fun hrd => ?_) fun hrd => Triple.pure fun w hw => ?_
    · refine (restart_stops.weaken (fun _ hw => hw.stops) fun _ _ h => h).bind fun _ => ?_
      refine (address_spec _ _ retries).bind fun ret => reported ?_
      rw [hrd, testBit_or_one]
    · rw [Addressed, if_neg (by simp), Bool.eq_false_iff.mpr hrd]
      exact hw
  · refine (address_spec _ _ retries).bind fun ret => reported ?_
    cases msg.has rtI2cRd with
    | false => exact testBit_shift msg.addr
    | true => exact testBit_or_one _

/-- The bytes of a message to a device. -/
theorem sendLoop_spec (ignoreNack : Bool) (buf : List UInt8) (bytes : Int) :
    Triple (fun w => w.mode.Ready false) (X.link.sendLoop ignoreNack buf bytes)
      fun _ w => w.mode.Ready false := by
  induction buf generalizing bytes with
  | nil => exact Triple.pure fun _ h => h
  | cons b rest ih =>
      refine (writeb_ready b).bind fun ret => Triple.ite (fun _ => ih _) fun _ => ?_
      exact Triple.ite (fun _ => Triple.pure fun _ h => h) fun _ => Triple.pure fun _ h => h

/-- A byte from a device, and the answer to it: with 0 the exchange is over. -/
theorem readb_ready {β : Type} {f : Int → Prog (Wire τ) β} {Q : β → Wire τ → Prop}
    (hf : ∀ val, 0 ≤ val → Triple (fun w => w.mode = .handover ∨ w.mode = .idle) (f val) Q) :
    Triple (fun w => w.mode.Ready true) (X.link.readb >>= f) Q := by
  refine Triple.bind (Q := fun val w => 0 ≤ val ∧ (w.mode = .handover ∨ w.mode = .idle)) ?_ fun val => ?_
  · rintro ⟨t, m⟩ hm
    obtain rfl | ⟨byte, rfl⟩ := (hm : m = .idle ∨ ∃ byte, m = .talk byte)
    · exact ⟨_, _, rfl, by decide, Or.inr rfl⟩
    · exact ⟨_, _, rfl, Int.natCast_nonneg _, Or.inl rfl⟩
  · intro w hw
    exact hf val hw.1 w hw.2

theorem sendAckOrNack_ready (ack : Int) :
    Triple (fun w => w.mode = .handover ∨ w.mode = .idle) (X.link.sendAckOrNack ack)
      fun r w => r = 0 ∧ w.mode.Ready true ∧ (ack = 0 → w.mode = .idle) := by
  rintro ⟨t, m⟩ hm
  obtain rfl | rfl := (hm : m = .handover ∨ m = .idle)
  · refine ⟨_, _, rfl, rfl, ?_⟩
    by_cases hack : ack ≠ 0
    · rw [if_pos hack]
      exact ⟨Or.inr ⟨_, rfl⟩, fun h => absurd h hack⟩
    · rw [if_neg hack]
      exact ⟨Or.inl rfl, fun _ => rfl⟩
  · exact ⟨_, _, rfl, rfl, Or.inl rfl, fun _ => rfl⟩

/-- The bytes of a message from a device: the last one is not acknowledged, and the device leaves. -/
theorem recvLoop_spec (buf : List UInt8) (bytes : Int) :
    Triple (fun w => w.mode.Ready true ∧ (buf = [] → w.mode = .idle)) (X.link.recvLoop false buf bytes)
      fun _ w => w.mode = .idle := by
  induction buf generalizing bytes with
  | nil => exact Triple.pure fun w hw => hw.2 rfl
  | cons old rest ih =>
      refine Triple.weaken (readb_ready fun val hval => ?_) (fun w hw => hw.1) fun _ _ h => h
      rw [if_pos hval, if_neg (by simp)]
      refine (sendAckOrNack_ready _).bind_eq ?_
      rw [if_neg (by decide)]
      refine ((ih (bytes + 1)).weaken (fun w hw => ?_) fun _ _ h => h).bind fun _ => Triple.pure fun _ h => h
      exact ⟨hw.1, fun hrest => hw.2 (by rw [hrest]; rfl)⟩

/-! ### Transfers -/

/-- A message keeps to the rules: it reads at least one byte, if it reads, and acknowledges what it reads.
Without a start condition it goes on with the message before it, and reads only if that one does. -/
structure RtI2cMsg.Follows (msg : RtI2cMsg) (prev : Option RtI2cMsg) : Prop where
  reads : msg.has rtI2cRd = true → msg.buf ≠ [] ∧ msg.has rtI2cNoReadAck = false
  continues : msg.has rtI2cNoStart = true →
    ∃ p, prev = some p ∧ (msg.has rtI2cRd = true → p.has rtI2cRd = true)

/-- All messages keep to the rules, the first one after `prev`. -/
def Regular : Option RtI2cMsg → List RtI2cMsg → Prop
  | _, [] => True
  | prev, msg :: rest => msg.Follows prev ∧ Regular (some msg) rest

/-- How far the exchange is between two messages: free before the first one; else nobody takes part, or a
device that has been written to. -/
def Between : Option RtI2cMsg → Mode → Prop
  | none, m => m = .free
  | some p, m => m = .idle ∨ (m = .listen ∧ p.has rtI2cRd = false)

theorem Between.stops {p : RtI2cMsg} {m : Mode} (h : Between (some p) m) : m.Stops := by
  rcases h with h | h
  · exact Or.inl h
  · exact Or.inr (Or.inr h.1)

theorem xferOut_spec (msg : RtI2cMsg) : Triple (fun w => w.mode.Stops) (X.link.xferOut msg)
    fun _ w => msg.has rtI2cNoStop = false → w.mode = .free :=
  Triple.ite (fun hno => Triple.pure fun _ _ h => absurd (h.symm.trans hno) Bool.false_ne_true)
    fun _ => stop_stops.weaken (fun _ h => h) fun _ _ h _ => h

/-- The end of a transfer at the message `msg`. -/
theorem out_spec {α : Type} (msg : RtI2cMsg) (r : α) : Triple (fun w => w.mode.Stops)
    (do
      X.link.xferOut msg
      return r)
    fun _ w => msg.has rtI2cNoStop = false → w.mode = .free :=
  (xferOut_spec msg).bind fun _ => Triple.pure fun _ hw => hw

variable [Errno]

/-- The start condition and the address, or neither. -/
theorem xferAddress_spec (retries : UInt32) {i : Nat} {msg : RtI2cMsg} {prev : Option RtI2cMsg}
    (hi : i = 0 ↔ prev = none) (hmsg : msg.Follows prev) :
    Triple (fun w => Between prev w.mode) (X.link.xferAddress retries i msg)
      fun r w => Addressed msg r w.mode := by
  refine Triple.ite (fun hno => Triple.pure fun w hw => ?_) fun _ => ?_
  · obtain ⟨p, rfl, hrd⟩ := hmsg.continues hno
    rw [Addressed, if_neg (by simp)]
    rcases hw with hidle | ⟨hlisten, hp⟩
    · exact Or.inl hidle
    · have hwrites : msg.has rtI2cRd = false := by
        by_contra hne
        exact Bool.false_ne_true (hp.symm.trans (hrd (Bool.not_eq_false _ ▸ hne)))
      rw [hwrites]
      exact Or.inr hlisten
  · refine Triple.ite (fun hne => ?_) fun heq => ?_
    · cases prev with
      | none => exact absurd (hi.mpr rfl) hne
      | some p =>
          refine (restart_stops.weaken (fun _ hw => hw.stops) fun _ _ h => h).bind fun _ => ?_
          exact i2cBitSendAddress_spec retries msg
    · obtain rfl := hi.mp (not_not.mp heq)
      exact start_free.bind fun _ => i2cBitSendAddress_spec retries msg

/-- A message, from its address to its last byte. -/
theorem xferMsg_spec (retries : UInt32) {i : Nat} {msg : RtI2cMsg} {prev : Option RtI2cMsg}
    (hi : i = 0 ↔ prev = none) (hmsg : msg.Follows prev) :
    Triple (fun w => Between prev w.mode) (X.link.xferMsg retries i msg)
      fun r w => w.mode.Stops ∧ (r.1 = none → Between (some msg) w.mode) := by
  refine (xferAddress_spec retries hi hmsg).bind fun ret => Triple.ite (fun hc => ?_) fun hc => ?_
  · refine Triple.pure fun w hw => ⟨?_, fun h => by cases h⟩
    rwa [Addressed, if_pos hc] at hw
  have hready : ∀ w : Wire τ, Addressed msg ret w.mode → w.mode.Ready (msg.has rtI2cRd) := fun w hw => by
    rwa [Addressed, if_neg hc] at hw
  refine Triple.ite (fun hrd => ?_) fun hrd => ?_
  · obtain ⟨hne, hack⟩ := hmsg.reads hrd
    have hrecv := recvLoop_spec (X := X) msg.buf 0
    rw [← hack] at hrecv
    refine (hrecv.weaken (fun w hw => ⟨?_, fun h => absurd h hne⟩) fun _ _ h => h).bind fun r => ?_
    · exact hrd ▸ hready w hw
    · exact Triple.ite (fun _ => Triple.pure fun w hw => ⟨Or.inl hw, fun _ => Or.inl hw⟩)
        fun _ => Triple.pure fun w hw => ⟨Or.inl hw, fun _ => Or.inl hw⟩
  · have hwr : msg.has rtI2cRd = false := Bool.eq_false_iff.mpr hrd
    have hdone : ∀ w : Wire τ, w.mode.Ready false → w.mode.Stops ∧ Between (some msg) w.mode :=
      fun w hw => ⟨hw.stops, hw.imp id fun h => ⟨h, hwr⟩⟩
    refine ((sendLoop_spec _ msg.buf 0).weaken (fun w hw => ?_) fun _ _ h => h).bind fun r => ?_
    · exact hwr ▸ hready w hw
    · exact Triple.ite (fun _ => Triple.pure fun w hw => ⟨(hdone w hw).1, fun _ => (hdone w hw).2⟩)
        fun _ => Triple.pure fun w hw => ⟨(hdone w hw).1, fun _ => (hdone w hw).2⟩

theorem xferLoop_spec (retries : UInt32) {i : Nat} {msg : RtI2cMsg} {rest : List RtI2cMsg}
    {prev : Option RtI2cMsg} (hi : i = 0 ↔ prev = none) (h : Regular prev (msg :: rest)) :
    Triple (fun w => Between prev w.mode) (X.link.xferLoop retries i msg rest)
      fun _ w => (∀ m ∈ msg :: rest, m.has rtI2cNoStop = false) → w.mode = .free := by
  induction rest generalizing i msg prev with
  | nil =>
      refine (xferMsg_spec retries hi h.1).bind fun r => ?_
      exact (out_spec msg _).weaken (fun _ hw => hw.1) fun _ _ hw hno => hw (hno msg List.mem_cons_self)
  | cons next rest ih =>
      refine (xferMsg_spec retries hi h.1).bind fun r => ?_
      rcases r with ⟨_ | ret, buf⟩
      · have hsome : i + 1 = 0 ↔ some msg = none := by simp
        refine ((ih hsome h.2).weaken (fun _ hw => hw.2 rfl) fun _ _ h => h).bind fun _ => ?_
        exact Triple.pure fun _ hw hno => hw fun m hm => hno m (List.mem_cons_of_mem _ hm)
      · exact (out_spec msg _).weaken (fun _ hw => hw.1) fun _ _ hw hno => hw (hno msg List.mem_cons_self)

/-- A transfer of regular messages from a free bus is defined. -/
theorem i2cBitXfer_spec (retries : UInt32) {msgs : List RtI2cMsg} (h : Regular none msgs) :
    Triple (fun w => w.mode = .free) (X.link.i2cBitXfer retries msgs)
      fun _ w => (∀ m ∈ msgs, m.has rtI2cNoStop = false) → w.mode = .free := by
  cases msgs with
  | nil => exact Triple.pure fun _ hw _ => hw
  | cons msg rest => exact xferLoop_spec retries (iff_of_true rfl rfl) h

end Defined

/-! ### The lines follow the exchange -/

section Lines

variable {τ : Type} {X : Target τ} {stretch : Nat → Nat} {T : Timing} {bound : Nat}

/-- A triple for the clock line low, wherever the data line stands. -/
theorem triple_low {α : Type} {m : Mode} {t : τ} {x : Prog (Bus (Slave τ)) α}
    {Q : α → Bus (Slave τ) → Prop} (hfree : m ≠ .free) (hhandover : m ≠ .handover)
    (h : Triple (fun b => ∃ d, At bound false d m.phase t b) x Q) :
    Triple (fun b => Rel bound b ⟨t, m⟩) x Q :=
  h.weaken (fun _ hb => (rel_low hfree hhandover).mp hb) fun _ _ hb => hb

theorem exists_low {α : Type} {ph : Phase} {t : τ} {x : Prog (Bus (Slave τ)) α}
    {Q : α → Bus (Slave τ) → Prop} (h : ∀ d, Triple (At bound false d ph t) x Q) :
    Triple (fun b => ∃ d, At bound false d ph t b) x Q :=
  fun b hb => hb.elim fun d hd => h d b hd

theorem At.rel {d : Bool} {m : Mode} {t : τ} {b : Bus (Slave τ)} (h : At bound false d m.phase t b)
    (hfree : m ≠ .free) (hhandover : m ≠ .handover) : Rel bound b ⟨t, m⟩ :=
  (rel_low hfree hhandover).mpr ⟨d, h⟩

variable [Errno]

theorem restart_follows (ht : Timely T stretch bound) {m : Mode} (t : τ) (hm : m.Stops) :
    Triple (fun b => Rel bound b ⟨t, m⟩) (X.ops stretch T).i2cRestart
      fun u b => u = () ∧ Rel bound b ⟨t, .address⟩ := by
  obtain ⟨hfree, hhandover, hpulls⟩ : m ≠ .free ∧ m ≠ .handover ∧ m.phase.pulls = false := by
    obtain rfl | rfl | rfl := hm <;> exact ⟨by simp, by simp, rfl⟩
  refine triple_low hfree hhandover (exists_low fun d => ?_)
  exact (i2cRestart_spec ht hpulls).weaken (fun _ h => h) fun _ b hb => ⟨rfl, hb.rel (by simp) (by simp)⟩

theorem stop_follows (ht : Timely T stretch bound) {m : Mode} (t : τ) (hm : m.Stops) :
    Triple (fun b => Rel bound b ⟨t, m⟩) (X.ops stretch T).i2cStop
      fun u b => u = () ∧ Rel bound b ⟨X.stop t, .free⟩ := by
  obtain ⟨hfree, hhandover, hpulls⟩ : m ≠ .free ∧ m ≠ .handover ∧ m.phase.pulls = false := by
    obtain rfl | rfl | rfl := hm <;> exact ⟨by simp, by simp, rfl⟩
  refine triple_low hfree hhandover (exists_low fun d => ?_)
  exact (i2cStop_spec ht hpulls).weaken (fun _ h => h) fun _ b hb => ⟨rfl, rel_free.mpr hb⟩

theorem writeb_follows (ht : Timely T stretch bound) (data : UInt8) {w w' : Wire τ} {r : Int}
    (hrun : (X.link.writeb data).run w = some (r, w')) :
    Triple (fun b => Rel bound b w) ((X.ops stretch T).i2cWriteb data)
      fun a b => a = r ∧ Rel bound b w' := by
  obtain ⟨t, m⟩ := w
  have hhear : ∀ first, X.hear data first t = (r, w') →
      Triple (fun b => ∃ d, At bound false d (.receive 0 0 first) t b) ((X.ops stretch T).i2cWriteb data)
        fun a b => a = r ∧ Rel bound b w' := fun first heq => by
    have hspec := writeb_hear (X := X) (t := t) ht data first
    rwa [heq] at hspec
  cases m with
  | free | talk | handover => cases hrun
  | idle =>
      cases hrun
      refine triple_low (by simp) (by simp) ?_
      exact (writeb_idle ht data).weaken (fun _ h => h) fun _ b hb => ⟨hb.1, hb.2.rel (by simp) (by simp)⟩
  | address => exact triple_low (by simp) (by simp) (hhear true (Option.some.inj hrun))
  | listen => exact triple_low (by simp) (by simp) (hhear false (Option.some.inj hrun))

theorem readb_follows (ht : Timely T stretch bound) {w w' : Wire τ} {r : Int}
    (hrun : X.link.readb.run w = some (r, w')) :
    Triple (fun b => Rel bound b w) (X.ops stretch T).i2cReadb fun a b => a = r ∧ Rel bound b w' := by
  obtain ⟨t, m⟩ := w
  cases m <;> cases hrun
  · refine triple_low (by simp) (by simp) ?_
    exact (readb_idle ht).weaken (fun _ h => h) fun _ b hb => ⟨hb.1, hb.2.rel (by simp) (by simp)⟩
  · refine triple_low (by simp) (by simp) ?_
    exact (readb_talk ht _).weaken (fun _ h => h) fun _ b hb => ⟨hb.1, rel_handover.mpr hb.2⟩

theorem sendAckOrNack_follows (ht : Timely T stretch bound) (ack : Int) {w w' : Wire τ} {r : Int}
    (hrun : (X.link.sendAckOrNack ack).run w = some (r, w')) :
    Triple (fun b => Rel bound b w) ((X.ops stretch T).i2cSendAckOrNack ack)
      fun a b => a = r ∧ Rel bound b w' := by
  obtain ⟨t, m⟩ := w
  cases m <;> cases hrun
  · refine triple_low (by simp) (by simp) (exists_low fun d => ?_)
    exact (sendAckOrNack_idle ht ack).weaken (fun _ h => h) fun _ b hb =>
      ⟨hb.1, (rel_low (by simp) (by simp)).mpr hb.2⟩
  · exact (sendAckOrNack_handover ht ack).weaken (fun _ hb => rel_handover.mp hb) fun _ _ hb => hb

/-- The functions that move the lines follow the exchange. -/
theorem ops_follow (ht : Timely T stretch bound) :
    Link.Follows (Rel bound) (X.ops stretch T).link X.link where
  start := Sim.of_triple fun w a w' hrun => by
    obtain ⟨t, m⟩ := w
    cases m <;> cases hrun
    exact (i2cStart_spec ht).weaken (fun _ hb => rel_free.mp hb) fun _ b hb =>
      ⟨rfl, hb.rel (by simp) (by simp)⟩
  restart := Sim.of_triple fun w a w' hrun => by
    obtain ⟨t, m⟩ := w
    cases m <;> cases hrun
    · exact restart_follows ht t (Or.inl rfl)
    · exact restart_follows ht t (Or.inr (Or.inl rfl))
    · exact restart_follows ht t (Or.inr (Or.inr rfl))
  stop := Sim.of_triple fun w a w' hrun => by
    obtain ⟨t, m⟩ := w
    cases m <;> cases hrun
    · exact stop_follows ht t (Or.inl rfl)
    · exact stop_follows ht t (Or.inr (Or.inl rfl))
    · exact stop_follows ht t (Or.inr (Or.inr rfl))
  delay2 := Sim.of_triple fun w a w' hrun => by
    obtain ⟨t, m⟩ := w
    cases m <;> cases hrun
    have hdelay : Triple (At bound true true .idle t) (X.ops stretch T).i2cDelay2
        fun _ => At bound true true .idle t := delay2_at
    exact hdelay.weaken (fun _ hb => rel_free.mp hb) fun _ _ hb => ⟨rfl, rel_free.mpr hb⟩
  writeb data := Sim.of_triple fun _ _ _ hrun => writeb_follows ht data hrun
  readb := Sim.of_triple fun _ _ _ hrun => readb_follows ht hrun
  sendAckOrNack ack := Sim.of_triple fun _ _ _ hrun => sendAckOrNack_follows ht ack hrun

/-- A transfer moves the lines as the exchange says. The exchange is defined, the codes and the buffers
are the same, and where no message keeps the bus it is free at the end. -/
theorem transfer_follows (ht : Timely T stretch bound) (retries : UInt32) {msgs : List RtI2cMsg}
    (h : Regular none msgs) {t : τ} {b : Bus (Slave τ)} (hb : Rel bound b ⟨t, .free⟩) :
    ∃ r w b', (X.link.i2cBitXfer retries msgs).run ⟨t, .free⟩ = some (r, w) ∧
      ((X.ops stretch T).link.i2cBitXfer retries msgs).run b = some (r, b') ∧ Rel bound b' w ∧
      ((∀ m ∈ msgs, m.has rtI2cNoStop = false) → w.mode = .free) := by
  obtain ⟨r, w, hwire, hfree⟩ := i2cBitXfer_spec (X := X) retries h ⟨t, .free⟩ rfl
  obtain ⟨b', hlines, hrel⟩ := (ops_follow ht).i2cBitXfer retries msgs b _ hb r w hwire
  exact ⟨r, w, b', hwire, hlines, hrel, hfree⟩

end Lines

/-- The lines at rest. -/
def Bus.resting {τ : Type} (t : τ) : Bus (Slave τ) := ⟨true, true, ⟨t, .idle, 0, 0⟩, 0⟩

theorem rel_resting {τ : Type} {bound : Nat} {t : τ} : Rel bound (Bus.resting t) ⟨t, .free⟩ :=
  rel_free.mpr ⟨rfl, rfl, rfl, rfl, Nat.zero_le _, fun _ => rfl⟩

/-- A master with a timeout of 100 ticks, whose delays take one tick each. -/
def tickTiming : Timing := ⟨1, 100, UInt32.ofNat, 200⟩

theorem tickTiming_timely {stretch : Nat → Nat} {bound : Nat} (h : ∀ k, stretch k ≤ bound)
    (hbound : bound ≤ 100) : Timely tickTiming stretch bound := by
  refine ⟨h, by simp only [tickTiming]; omega, fun n j hj => ?_⟩
  have hdiff : UInt32.ofNat (n + j) - UInt32.ofNat n = UInt32.ofNat j := by
    rw [UInt32.ofNat_add, UInt32.add_comm, UInt32.add_sub_cancel]
  rw [tickTiming, hdiff, UInt32.le_iff_toNat_le, UInt32.toNat_ofNat_of_lt' (by simp only [UInt32.size]; omega)]
  exact Nat.le_trans hj hbound

/-- A device at the address 0x5D that keeps the bytes written to it and gives them back. -/
def keeper : Target (List UInt8) where
  address byte kept := (decide (byte >>> 1 = 0x5D), kept)
  write byte kept := (true, kept ++ [byte])
  read kept := (kept.headD 0xFF, kept.tail)
  stop kept := kept

/-- Two bytes are written to the device, and one is read behind a repeated start condition. -/
def keeperMsgs : List RtI2cMsg :=
  [⟨0x5D, 0, [0x12, 0x34], by decide⟩, ⟨0x5D, rtI2cRd, [0], by decide⟩]

theorem keeperMsgs_regular : Regular none keeperMsgs := by
  refine ⟨⟨fun h => absurd h (by decide), fun h => absurd h (by decide)⟩,
    ⟨fun _ => ⟨by decide, by decide⟩, fun h => absurd h (by decide)⟩, trivial⟩

section Keeper

attribute [local instance] Errno.armlibc

theorem transfer_follows_keeper : ∃ r w b',
    (keeper.link.i2cBitXfer 1 keeperMsgs).run ⟨[], .free⟩ = some (r, w) ∧
      ((keeper.ops (fun k => k % 4) tickTiming).link.i2cBitXfer 1 keeperMsgs).run (Bus.resting []) = some (r, b') ∧
      Rel 3 b' w ∧ ((∀ m ∈ keeperMsgs, m.has rtI2cNoStop = false) → w.mode = .free) :=
  transfer_follows (tickTiming_timely (fun k => by omega) (by decide)) 1 keeperMsgs_regular rel_resting

end Keeper

end SwmLvgl.I2c
