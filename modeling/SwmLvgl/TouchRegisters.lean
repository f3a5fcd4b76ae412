import SwmLvgl.I2cTransfer

/-! The registers of the touch controller over the I2C bus (`gt9147_write_reg` and `gt9147_read_regs` of
`gt9147.c`, `rt_i2c_transfer` of `dev_i2c_core.c`). The controller is a device that keeps to the protocol:
the first two bytes written to it are the number of a register, what follows goes to the registers from
there on, and reads start where the last transfer has left the number. -/

namespace SwmLvgl.Touch

open I2c Prog

/-- The controller: its registers, the number of the next one, and how many bytes of a number it has got
since it was addressed. -/
structure Chip where
  regs : UInt16 → UInt8
  ptr : UInt16
  high : UInt8
  got : Nat

/-- `GT9147_ADDRESS_HIGH` -/
def gt9147AddressHigh : UInt16 := 0x5D

/-- The register with these bytes in its number. -/
def regNum (high low : UInt8) : UInt16 := high.toUInt16 <<< 8 ||| low.toUInt16

/-- The bytes from the register number `ptr` on become `data`. -/
def store (regs : UInt16 → UInt8) (ptr : UInt16) : List UInt8 → UInt16 → UInt8
  | [] => regs
  | b :: data => store (Function.update regs ptr b) (ptr + 1) data

def Chip.put (b : UInt8) (c : Chip) : Chip :=
  if c.got = 0 then { c with high := b, got := 1 }
  else if c.got = 1 then { c with ptr := regNum c.high b, got := 2 }
  else { c with regs := Function.update c.regs c.ptr b, ptr := c.ptr + 1 }

/-- The controller at the bus. -/
def chip : Target Chip where
  address byte c := (decide (byte >>> 1 = 0x5D), if byte.toNat.testBit 0 then c else { c with got := 0 })
  write byte c := (true, c.put byte)
  read c := (c.regs c.ptr, { c with ptr := c.ptr + 1 })
  stop c := c

/-- A message that writes. -/
def writeMsg (addr : UInt16) (data : List UInt8) (h : data.length < 2 ^ 8) : RtI2cMsg :=
  ⟨addr, 0, data, Nat.lt_trans h (by decide)⟩

/-- A message that reads. -/
def readMsg (addr : UInt16) (buf : List UInt8) (h : buf.length < 2 ^ 8) : RtI2cMsg :=
  ⟨addr, rtI2cRd, buf, Nat.lt_trans h (by decide)⟩

@[simp] theorem writeMsg_has (addr : UInt16) (data : List UInt8) (h : data.length < 2 ^ 8) (flag : UInt16) :
    (writeMsg addr data h).has flag = false := by
  rw [RtI2cMsg.has]
  show decide ((0 : UInt16) &&& flag ≠ 0) = false
  simp

theorem readMsg_has (addr : UInt16) (buf : List UInt8) (h : buf.length < 2 ^ 8) (flag : UInt16) :
    (readMsg addr buf h).has flag = decide (rtI2cRd &&& flag ≠ 0) := rfl

section Driver

variable [Errno] {σ : Type} (link : Link σ) (retries : UInt32)

/-- `gt9147_write_reg`; the transfer is that of `rt_i2c_transfer`. -/
def gt9147WriteReg (addr : UInt16) (data : List UInt8) (h : data.length < 2 ^ 8) : Prog σ Int := do
  let (ret, _) ← link.i2cBitXfer retries [writeMsg addr data h]
  return if ret = 1 then 0 else -rtError

/-- `gt9147_read_regs`: the code, and the contents of `read_buf`. -/
def gt9147ReadRegs (addr : UInt16) (cmdBuf readBuf : List UInt8) (hcmd : cmdBuf.length < 2 ^ 8)
    (hread : readBuf.length < 2 ^ 8) : Prog σ (Int × List UInt8) := do
  let (ret, bufs) ← link.i2cBitXfer retries [writeMsg addr cmdBuf hcmd, readMsg addr readBuf hread]
  return (if ret = 2 then 0 else -rtError, bufs.getD 1 readBuf)

end Driver

theorem gt9147WriteReg_follows [Errno] {σ τ : Type} {R : σ → τ → Prop} {L : Link σ} {L' : Link τ}
    (h : L.Follows R L') (retries : UInt32) (addr : UInt16) (data : List UInt8) (hd : data.length < 2 ^ 8) :
    Sim R (gt9147WriteReg L retries addr data hd) (gt9147WriteReg L' retries addr data hd) :=
  (h.i2cBitXfer retries _).bind fun _ => Sim.pure _

theorem gt9147ReadRegs_follows [Errno] {σ τ : Type} {R : σ → τ → Prop} {L : Link σ} {L' : Link τ}
    (h : L.Follows R L') (retries : UInt32) (addr : UInt16) (cmdBuf readBuf : List UInt8)
    (hcmd : cmdBuf.length < 2 ^ 8) (hread : readBuf.length < 2 ^ 8) :
    Sim R (gt9147ReadRegs L retries addr cmdBuf readBuf hcmd hread)
      (gt9147ReadRegs L' retries addr cmdBuf readBuf hcmd hread) :=
  (h.i2cBitXfer retries _).bind fun _ => Sim.pure _

/-! ### The exchange with the controller -/

section Exchange

variable {c : Chip} {retries : UInt32}

/-- The address of the controller is acknowledged at once. -/
theorem sendAddress_chip {byte : UInt8} (hbyte : byte >>> 1 = 0x5D) {retries : Int} (hr : 0 ≤ retries) :
    (chip.link.i2cSendAddress byte retries).run ⟨c, .address⟩ =
      some (1, if byte.toNat.testBit 0 then chip.offer c else ⟨{ c with got := 0 }, .listen⟩) := by
  have hear : (chip.link.writeb byte).run ⟨c, .address⟩ =
      some (1, if byte.toNat.testBit 0 then chip.offer c else ⟨{ c with got := 0 }, .listen⟩) := by
    show some (chip.hear byte true c) = _
    have hanswer : (if true then chip.address byte c else chip.write byte c) =
        (true, if byte.toNat.testBit 0 then c else { c with got := 0 }) := by
      rw [if_pos rfl]
      show (decide (byte >>> 1 = 0x5D), _) = _
      rw [decide_eq_true hbyte]
    rw [Target.hear, hanswer]
    cases byte.toNat.testBit 0 <;> rfl
  rw [Link.i2cSendAddress, if_neg (Int.not_lt.mpr hr)]
  cases retries.toNat with
  | zero => exact hear
  | succ n =>
      rw [Link.sendAddressLoop, run_bind_of_some hear]
      rfl

/-- The bytes of a message to the controller. -/
theorem sendLoop_chip (ignoreNack : Bool) (data : List UInt8) (bytes : Int) :
    (chip.link.sendLoop ignoreNack data bytes).run ⟨c, .listen⟩ =
      some (bytes + data.length, ⟨data.foldl (fun c b => c.put b) c, .listen⟩) := by
  induction data generalizing c bytes with
  | nil => simp [Link.sendLoop]
  | cons b data ih =>
      have hear : (chip.link.writeb b).run ⟨c, .listen⟩ = some (1, ⟨c.put b, .listen⟩) := rfl
      rw [Link.sendLoop, run_bind_of_some hear, if_pos (Or.inl (by decide)), ih, List.foldl_cons, List.length_cons]
      congr 2
      omega

/-- The bytes of `n` registers from number `ptr` on. -/
def load (regs : UInt16 → UInt8) (ptr : UInt16) : Nat → List UInt8
  | 0 => []
  | n + 1 => regs ptr :: load regs (ptr + 1) n

/-- The bytes of a message from the controller, which has just begun to send. -/
theorem recvLoop_chip (buf : List UInt8) (hbuf : buf ≠ []) (bytes : Int) :
    ∃ c', c'.regs = c.regs ∧ (chip.link.recvLoop false buf bytes).run (chip.offer c) =
      some ((bytes + buf.length, load c.regs c.ptr buf.length), ⟨c', .idle⟩) := by
  induction buf generalizing c bytes with
  | nil => exact absurd rfl hbuf
  | cons old rest ih =>
      have hread : chip.link.readb.run (chip.offer c) =
          some (((c.regs c.ptr).toNat : Int), ⟨{ c with ptr := c.ptr + 1 }, .handover⟩) := rfl
      have hbyte : UInt8.ofNat ((c.regs c.ptr).toNat : Int).toNat = c.regs c.ptr := by
        rw [Int.toNat_natCast, UInt8.ofNat_toNat]
      rw [Link.recvLoop, run_bind_of_some hread, if_pos (Int.natCast_nonneg _), if_neg Bool.false_ne_true, hbyte]
      cases rest with
      | nil => exact ⟨{ c with ptr := c.ptr + 1 }, rfl, rfl⟩
      | cons next rest =>
          have hack : (chip.link.sendAckOrNack ((next :: rest).length : Int)).run
              ⟨{ c with ptr := c.ptr + 1 }, .handover⟩ = some (0, chip.offer { c with ptr := c.ptr + 1 }) := by
            have hne : ((next :: rest).length : Int) ≠ 0 := by simp; omega
            show some (0, if ((next :: rest).length : Int) ≠ 0 then _ else _) = _
            rw [if_pos hne]
          obtain ⟨c', hregs, hrun⟩ := @ih { c with ptr := c.ptr + 1 } (List.cons_ne_nil _ _) (bytes + 1)
          refine ⟨c', hregs, ?_⟩
          rw [run_bind_of_some hack, if_neg (by decide), run_bind_of_some hrun]
          have hlen : bytes + 1 + ((next :: rest).length : Int) = bytes + ((old :: next :: rest).length : Int) := by
            simp only [List.length_cons]
            omega
          rw [hlen]
          rfl

/-- The controller after it has been addressed and written to. -/
def Chip.written (c : Chip) (data : List UInt8) : Chip :=
  data.foldl (fun c b => c.put b) { c with got := 0 }

/-- A number of retries that is none when it is read as an `rt_int32_t` would send nothing. -/
def Retries (retries : UInt32) : Prop := 0 ≤ retries.toInt32.toInt

/-- The stop condition behind the last message. -/
theorem xferOut_chip (msg : RtI2cMsg) (hno : msg.has rtI2cNoStop = false) {m : Mode}
    (hm : m = .listen ∨ m = .idle) :
    (chip.link.xferOut msg).run ⟨c, m⟩ = some ((), ⟨c, .free⟩) := by
  rw [Link.xferOut, hno, if_neg Bool.false_ne_true]
  rcases hm with rfl | rfl <;> rfl

theorem two_fit (high low : UInt8) : [high, low].length < 2 ^ 8 := by simp

variable [Errno]

/-- The address of seven bits of a message whose failure counts. -/
theorem i2cBitSendAddress_plain {σ : Type} (link : Link σ) {msg : RtI2cMsg}
    (h10 : msg.has rtI2cAddr10bit = false) (hign : msg.has rtI2cIgnoreNack = false) {addr : UInt8}
    (haddr : (if msg.has rtI2cRd then (msg.addr <<< 1).toUInt8 ||| 1 else (msg.addr <<< 1).toUInt8) = addr) :
    link.i2cBitSendAddress retries msg = (do
      let ret ← link.i2cSendAddress addr retries.toInt32.toInt
      if ret ≠ 1 then return -rtEio else return 0) := by
  simp [Link.i2cBitSendAddress, h10, hign, ← haddr]

/-- The start condition and the address of a message to or from the controller. -/
theorem xferAddress_chip (hr : Retries retries) (msg : RtI2cMsg) (haddr : msg.addr = gt9147AddressHigh)
    (hflags : msg.flags = 0 ∨ msg.flags = rtI2cRd) {i : Nat} {w : Wire Chip}
    (hw : (if i ≠ 0 then chip.link.restart else chip.link.start).run w = some ((), ⟨c, .address⟩)) :
    (chip.link.xferAddress retries i msg).run w =
      some (0, if msg.has rtI2cRd then chip.offer c else ⟨{ c with got := 0 }, .listen⟩) := by
  have hno : msg.has rtI2cNoStart = false := by
    rcases hflags with h | h <;> rw [RtI2cMsg.has, h] <;> rfl
  have h10 : msg.has rtI2cAddr10bit = false := by
    rcases hflags with h | h <;> rw [RtI2cMsg.has, h] <;> rfl
  have hign : msg.has rtI2cIgnoreNack = false := by
    rcases hflags with h | h <;> rw [RtI2cMsg.has, h] <;> rfl
  have haddress : (chip.link.i2cBitSendAddress retries msg).run ⟨c, .address⟩ =
      some (0, if msg.has rtI2cRd then chip.offer c else ⟨{ c with got := 0 }, .listen⟩) := by
    rw [i2cBitSendAddress_plain chip.link h10 hign rfl, haddr]
    cases msg.has rtI2cRd with
    | false => exact run_bind_of_some (sendAddress_chip (by decide) hr) _
    | true => exact run_bind_of_some (sendAddress_chip (by decide) hr) _
  rw [Link.xferAddress, hno, if_neg Bool.false_ne_true]
  by_cases hi : i ≠ 0
  · rw [if_pos hi] at hw ⊢
    rw [run_bind_of_some hw, haddress]
  · rw [if_neg hi] at hw ⊢
    rw [run_bind_of_some hw, haddress]

/-- A message to the controller. -/
theorem xferMsg_write (hr : Retries retries) (data : List UInt8) (hd : data.length < 2 ^ 8) {i : Nat}
    {w : Wire Chip}
    (hw : (if i ≠ 0 then chip.link.restart else chip.link.start).run w = some ((), ⟨c, .address⟩)) :
    (chip.link.xferMsg retries i (writeMsg gt9147AddressHigh data hd)).run w =
      some ((none, data), ⟨c.written data, .listen⟩) := by
  have haddress : (chip.link.xferAddress retries i (writeMsg gt9147AddressHigh data hd)).run w =
      some (0, ⟨{ c with got := 0 }, .listen⟩) := by
    rw [xferAddress_chip hr _ rfl (Or.inl rfl) hw, writeMsg_has]
    rfl
  have hsend : (chip.link.i2cSendBytes (writeMsg gt9147AddressHigh data hd)).run ⟨{ c with got := 0 }, .listen⟩ =
      some (0 + (data.length : Int), ⟨c.written data, .listen⟩) := sendLoop_chip _ data 0
  have hlen : ¬0 + (data.length : Int) < (writeMsg gt9147AddressHigh data hd).len := by
    rw [Int.zero_add]
    exact Int.lt_irrefl _
  have hrd : ¬(writeMsg gt9147AddressHigh data hd).has rtI2cRd = true := by simp
  rw [Link.xferMsg, run_bind_of_some haddress, if_neg (by simp), if_neg hrd, run_bind_of_some hsend, if_neg hlen]
  rfl

/-- A message from the controller. -/
theorem xferMsg_read (hr : Retries retries) (buf : List UInt8) (hb : buf.length < 2 ^ 8) (hne : buf ≠ []) {i : Nat}
    {w : Wire Chip}
    (hw : (if i ≠ 0 then chip.link.restart else chip.link.start).run w = some ((), ⟨c, .address⟩)) :
    ∃ c', c'.regs = c.regs ∧ (chip.link.xferMsg retries i (readMsg gt9147AddressHigh buf hb)).run w =
      some ((none, load c.regs c.ptr buf.length), ⟨c', .idle⟩) := by
  have haddress : (chip.link.xferAddress retries i (readMsg gt9147AddressHigh buf hb)).run w =
      some (0, chip.offer c) := by
    rw [xferAddress_chip hr _ rfl (Or.inr rfl) hw, readMsg_has]
    rfl
  obtain ⟨c', hregs, hrecv⟩ := recvLoop_chip (c := c) buf hne 0
  have hack : (readMsg gt9147AddressHigh buf hb).has rtI2cNoReadAck = false := by
    rw [readMsg_has]
    decide
  have hbytes : (chip.link.i2cRecvBytes (readMsg gt9147AddressHigh buf hb)).run (chip.offer c) =
      some ((0 + (buf.length : Int), load c.regs c.ptr buf.length), ⟨c', .idle⟩) := by
    rw [Link.i2cRecvBytes, hack]
    exact hrecv
  have hlen : ¬0 + (buf.length : Int) < (readMsg gt9147AddressHigh buf hb).len := by
    rw [Int.zero_add]
    exact Int.lt_irrefl _
  have hrd : (readMsg gt9147AddressHigh buf hb).has rtI2cRd = true := by
    rw [readMsg_has]
    decide
  refine ⟨c', hregs, ?_⟩
  rw [Link.xferMsg, run_bind_of_some haddress, if_neg (by simp), if_pos hrd, run_bind_of_some hbytes]
  dsimp only
  rw [if_neg hlen]
  rfl

/-- `gt9147_write_reg` succeeds, and the controller takes the bytes. -/
theorem gt9147WriteReg_run (hr : Retries retries) (data : List UInt8) (hd : data.length < 2 ^ 8) :
    (gt9147WriteReg chip.link retries gt9147AddressHigh data hd).run ⟨c, .free⟩ =
      some (0, ⟨c.written data, .free⟩) := by
  have hmsg : (chip.link.xferMsg retries 0 (writeMsg gt9147AddressHigh data hd)).run ⟨c, .free⟩ =
      some ((none, data), ⟨c.written data, .listen⟩) := xferMsg_write hr data hd rfl
  have hout := @xferOut_chip (c.written data) (writeMsg gt9147AddressHigh data hd) (by simp) .listen (Or.inl rfl)
  have hxfer : (chip.link.i2cBitXfer retries [writeMsg gt9147AddressHigh data hd]).run ⟨c, .free⟩ =
      some ((1, [data]), ⟨c.written data, .free⟩) := by
    rw [Link.i2cBitXfer, Link.xferLoop, run_bind_of_some hmsg]
    dsimp only
    rw [run_bind_of_some hout]
    rfl
  rw [gt9147WriteReg, run_bind_of_some hxfer]
  rfl

/-- `gt9147_read_regs` succeeds with the registers whose number it has written. -/
theorem gt9147ReadRegs_run (hr : Retries retries) (high low : UInt8) (buf : List UInt8) (hb : buf.length < 2 ^ 8)
    (hne : buf ≠ []) : ∃ c', c'.regs = c.regs ∧
      (gt9147ReadRegs chip.link retries gt9147AddressHigh [high, low] buf (two_fit high low) hb).run ⟨c, .free⟩ =
        some ((0, load c.regs (regNum high low) buf.length), ⟨c', .free⟩) := by
  have hmsg : (chip.link.xferMsg retries 0 (writeMsg gt9147AddressHigh [high, low] (two_fit high low))).run
      ⟨c, .free⟩ = some ((none, [high, low]), ⟨c.written [high, low], .listen⟩) := xferMsg_write hr _ _ rfl
  obtain ⟨c', hregs, hread⟩ := @xferMsg_read (c.written [high, low]) retries _ hr buf hb hne 1
    ⟨c.written [high, low], .listen⟩ rfl
  have hout := @xferOut_chip c' (readMsg gt9147AddressHigh buf hb) (readMsg_has _ _ _ _) .idle (Or.inr rfl)
  refine ⟨c', hregs, ?_⟩
  have hxfer : (chip.link.i2cBitXfer retries [writeMsg gt9147AddressHigh [high, low] (two_fit high low),
      readMsg gt9147AddressHigh buf hb]).run ⟨c, .free⟩ =
        some ((2, [[high, low], load c.regs (regNum high low) buf.length]), ⟨c', .free⟩) := by
    rw [Link.i2cBitXfer, Link.xferLoop, run_bind_of_some hmsg]
    dsimp only
    rw [Link.xferLoop, bind_assoc, run_bind_of_some hread]
    dsimp only
    rw [bind_assoc, run_bind_of_some hout]
    rfl
  rw [gt9147ReadRegs, run_bind_of_some hxfer]
  rfl

end Exchange

section Store

variable {regs : UInt16 → UInt8} {ptr : UInt16}

theorem add_ofNat_succ (ptr : UInt16) (i : Nat) : ptr + UInt16.ofNat (i + 1) = ptr + 1 + UInt16.ofNat i := by
  rw [UInt16.ofNat_add, UInt16.add_comm (UInt16.ofNat i), ← UInt16.add_assoc]
  rfl

/-- The registers behind those that are written stay. -/
theorem store_other (data : List UInt8) {a : UInt16}
    (ha : ∀ i < data.length, a ≠ ptr + UInt16.ofNat i) : store regs ptr data a = regs a := by
  induction data generalizing regs ptr with
  | nil => rfl
  | cons b data ih =>
      rw [store, ih, Function.update_of_ne]
      · have hzero := ha 0 (Nat.zero_lt_succ _)
        rwa [show UInt16.ofNat 0 = 0 from rfl, UInt16.add_zero] at hzero
      · intro i hi
        rw [← add_ofNat_succ]
        exact ha (i + 1) (Nat.succ_lt_succ hi)

/-- What has been written is read back. -/
theorem load_store (data : List UInt8) (hlen : data.length ≤ 2 ^ 16) :
    load (store regs ptr data) ptr data.length = data := by
  induction data generalizing regs ptr with
  | nil => rfl
  | cons b data ih =>
      rw [List.length_cons] at hlen
      rw [store, List.length_cons, load, ih (by omega), store_other, Function.update_self]
      intro i hi heq
      rw [← add_ofNat_succ] at heq
      have hzero : UInt16.ofNat (i + 1) = 0 := by
        apply (UInt16.add_right_inj ptr).mp
        rw [← heq, UInt16.add_zero]
      have hnat := congrArg UInt16.toNat hzero
      rw [UInt16.toNat_ofNat_of_lt' (by simp only [UInt16.size]; omega)] at hnat
      exact Nat.succ_ne_zero i hnat

/-- The bytes behind a number are stored from that register on. -/
theorem written_regs (c : Chip) (high low : UInt8) (data : List UInt8) :
    (c.written (high :: low :: data)).regs = store c.regs (regNum high low) data := by
  have hput : ∀ (c : Chip) (data : List UInt8), c.got = 2 →
      (data.foldl (fun c b => c.put b) c).regs = store c.regs c.ptr data := by
    intro c data
    induction data generalizing c with
    | nil => exact fun _ => rfl
    | cons b data ih =>
        intro hgot
        have hb : c.put b = { c with regs := Function.update c.regs c.ptr b, ptr := c.ptr + 1 } := by
          simp [Chip.put, hgot]
        rw [List.foldl_cons, hb]
        exact ih { c with regs := Function.update c.regs c.ptr b, ptr := c.ptr + 1 } hgot
  exact hput { c with ptr := regNum high low, high := high, got := 2 } data rfl

end Store

/-! ### Accesses in any order -/

/-- An access of the driver: bytes for the registers from a number on, or a buffer for theirs. -/
inductive Access where
  | write (high low : UInt8) (data : List UInt8) (h : (high :: low :: data).length < 2 ^ 8)
  | read (high low : UInt8) (buf : List UInt8) (h : buf.length < 2 ^ 8) (hne : buf ≠ [])

section Perform

variable [Errno] {σ : Type} (link : Link σ) (retries : UInt32)

/-- The code of an access, and the bytes that it has read. -/
def Access.perform : Access → Prog σ (Int × List UInt8)
  | .write high low data h => do
      let ret ← gt9147WriteReg link retries gt9147AddressHigh (high :: low :: data) h
      return (ret, [])
  | .read high low buf h _ =>
      gt9147ReadRegs link retries gt9147AddressHigh [high, low] buf (two_fit high low) h

/-- Accesses one after the other. -/
def performAll : List Access → Prog σ (List (Int × List UInt8))
  | [] => return []
  | a :: as => do
      let r ← a.perform link retries
      let rs ← performAll as
      return r :: rs

end Perform

/-- The registers after an access. -/
def Access.after (regs : UInt16 → UInt8) : Access → UInt16 → UInt8
  | .write high low data _ => store regs (regNum high low) data
  | .read .. => regs

/-- What an access is answered by registers that cannot fail. -/
def Access.answer (regs : UInt16 → UInt8) : Access → Int × List UInt8
  | .write .. => (0, [])
  | .read high low buf _ _ => (0, load regs (regNum high low) buf.length)

/-- The answers to accesses one after the other. -/
def answers (regs : UInt16 → UInt8) : List Access → List (Int × List UInt8)
  | [] => []
  | a :: as => a.answer regs :: answers (a.after regs) as

theorem performAll_follows [Errno] {σ τ : Type} {R : σ → τ → Prop} {L : Link σ} {L' : Link τ} (h : L.Follows R L')
    (retries : UInt32) (as : List Access) : Sim R (performAll L retries as) (performAll L' retries as) := by
  induction as with
  | nil => exact Sim.pure _
  | cons a as ih =>
      refine Sim.bind ?_ fun r => ih.bind fun rs => Sim.pure _
      cases a with
      | write high low data hd => exact (gt9147WriteReg_follows h retries _ _ hd).bind fun _ => Sim.pure _
      | read high low buf hb _ => exact gt9147ReadRegs_follows h retries _ _ buf _ hb

section Runs

variable [Errno] {retries : UInt32}

theorem perform_run (hr : Retries retries) (a : Access) (c : Chip) :
    ∃ c', c'.regs = a.after c.regs ∧
      (a.perform chip.link retries).run ⟨c, .free⟩ = some (a.answer c.regs, ⟨c', .free⟩) := by
  cases a with
  | write high low data hd =>
      refine ⟨c.written (high :: low :: data), written_regs c high low data, ?_⟩
      rw [Access.perform, run_bind_of_some (gt9147WriteReg_run hr _ hd)]
      rfl
  | read high low buf hb hne => exact gt9147ReadRegs_run hr high low buf hb hne

theorem performAll_run (hr : Retries retries) (as : List Access) (c : Chip) :
    ∃ c', c'.regs = as.foldl Access.after c.regs ∧
      (performAll chip.link retries as).run ⟨c, .free⟩ = some (answers c.regs as, ⟨c', .free⟩) := by
  induction as generalizing c with
  | nil => exact ⟨c, rfl, rfl⟩
  | cons a as ih =>
      obtain ⟨c₁, hregs, hrun⟩ := perform_run hr a c
      obtain ⟨c₂, hregs', hrun'⟩ := ih c₁
      rw [hregs] at hregs' hrun'
      refine ⟨c₂, hregs', ?_⟩
      rw [performAll, run_bind_of_some hrun, run_bind_of_some hrun']
      rfl

end Runs

section Held

attribute [local instance] Errno.armlibc

end Held

end SwmLvgl.Touch
