import SwmLvgl.I2cPins
import SwmLvgl.TouchRegisters

/-! The commands to the touch controller (`gt9147_control` of `gt9147.c`). Two of them read registers of the
controller. For all others the driver keeps the table of the configuration registers, changes it for a
command, and sends the whole of it, then the checksum over it and the flag that makes the controller take
it. -/

namespace SwmLvgl.Touch

open I2c Prog

/-- `GT9147_CONFIG` -/
def gt9147Config : UInt16 := 0x8047

/-- `GT9XX_PRODUCT_ID` -/
def gt9xxProductId : UInt16 := 0x8140

/-- `GT9147_CHECK_SUM` -/
def gt9147CheckSum : UInt16 := 0x80FF

/-- The high byte of a register number, as it is sent. -/
def highByte (r : UInt16) : UInt8 := ((r >>> 8) &&& 0xFF).toUInt8

/-- The low byte. -/
def lowByte (r : UInt16) : UInt8 := (r &&& 0xFF).toUInt8

/-- `RT_DEVICE_FLAG_INT_RX` -/
def rtDeviceFlagIntRx : UInt16 := 0x100

/-- `RT_DEVICE_FLAG_RDONLY` -/
def rtDeviceFlagRdonly : UInt16 := 0x001

/-- `sizeof(GT9147_CFG_TBL)` -/
abbrev cfgSize : Nat := 184

/-- `GT9147_CFG_TBL`; the configuration is sent behind two bytes of address, so `config[i + 2]` is its
byte `i`. -/
abbrev CfgTbl := Vector UInt8 cfgSize

/-- The initial value of `GT9147_CFG_TBL`. -/
def gt9147CfgTbl : CfgTbl := #v[
    0x00, 0xE0, 0x01, 0x10, 0x01, 0x05, 0x3C, 0x00, 0x02, 0x08, 0x1E, 0x08, 0x50, 0x3C, 0x0F, 0x05, 0x00, 0x00,
    0xFF, 0x67, 0x50, 0x00, 0x00, 0x18, 0x1A, 0x1E, 0x14, 0x89, 0x28, 0x0A, 0x30, 0x2E, 0xBB, 0x0A, 0x03, 0x00,
    0x00, 0x02, 0x33, 0x1D, 0x00, 0x00, 0x00, 0x00, 0x00, 0x00, 0x00, 0x32, 0x00, 0x00, 0x2A, 0x1C, 0x5A, 0x94,
    0xC5, 0x02, 0x07, 0x00, 0x00, 0x00, 0xB5, 0x1F, 0x00, 0x90, 0x28, 0x00, 0x77, 0x32, 0x00, 0x62, 0x3F, 0x00,
    0x52, 0x50, 0x00, 0x52, 0x00, 0x00, 0x00, 0x00, 0x00, 0x00, 0x00, 0x00, 0x00, 0x00, 0x00, 0x00, 0x00, 0x00,
    0x00, 0x00, 0x00, 0x00, 0x00, 0x00, 0x00, 0x00, 0x00, 0x0F, 0x0F, 0x03, 0x06, 0x10, 0x42, 0xF8, 0x0F, 0x14,
    0x00, 0x00, 0x00, 0x00, 0x1A, 0x18, 0x16, 0x14, 0x12, 0x10, 0x0E, 0x0C, 0x0A, 0x08, 0x00, 0x00, 0x00, 0x00,
    0x00, 0x00, 0x00, 0x00, 0x00, 0x00, 0x00, 0x00, 0x00, 0x00, 0x00, 0x00, 0x00, 0x00, 0x00, 0x00, 0x29, 0x28,
    0x24, 0x22, 0x20, 0x1F, 0x1E, 0x1D, 0x0E, 0x0C, 0x0A, 0x08, 0x06, 0x05, 0x04, 0x02, 0x00, 0xFF, 0x00, 0x00,
    0x00, 0x00, 0x00, 0x00, 0x00, 0x00, 0x00, 0x00, 0x00, 0xFF, 0xFF, 0xFF, 0xFF, 0xFF, 0xFF, 0xFF, 0xFF, 0xFF,
    0xFF, 0xFF, 0xFF, 0xFF]

/-- The commands of `gt9147_control` that send the configuration. A command that no case names sends it
as it is. -/
inductive Setting where
  | setXRange (xRan : UInt16)
  | setYRange (yRan : UInt16)
  | setXToY
  | setMode (trigType : UInt16)
  | other
  deriving DecidableEq, Repr

/-- The commands of `gt9147_control`. The first one comes with the buffer that `data` points to. -/
inductive Control where
  | getId (data : Vector UInt8 6)
  | getInfo
  | set (cmd : Setting)
  deriving DecidableEq, Repr

/-- The `switch` of `gt9147_control`. -/
def Setting.config (table : CfgTbl) : Setting → CfgTbl
  | .setXRange xRan => (table.set 2 (xRan >>> 8).toUInt8).set 1 (lowByte xRan)
  | .setYRange yRan => (table.set 4 (yRan >>> 8).toUInt8).set 3 (lowByte yRan)
  | .setXToY => table.set 6 (table[6] ^^^ 8)
  | .setMode trigType =>
      if trigType = rtDeviceFlagIntRx then table.set 6 (table[6] &&& 0xFC)
      else if trigType = rtDeviceFlagRdonly then table.set 6 (table[6] &&& 0xFC ||| 0x02)
      else table
  | .other => table

/-- The loop over the configuration that adds its bytes up. -/
def byteSum (data : List UInt8) : UInt8 := data.foldl (fun sum b => sum + b) 0

/-- `buf[2]` behind the loop. -/
def checksum (table : CfgTbl) : UInt8 := ~~~byteSum table.toList + 1

theorem config_fits (table : CfgTbl) :
    (highByte gt9147Config :: lowByte gt9147Config :: table.toList).length < 2 ^ 8 := by
  simp [cfgSize]

/-- The last message of `gt9147_control`. -/
def checksumMsg (table : CfgTbl) : List UInt8 :=
  [highByte gt9147CheckSum, lowByte gt9147CheckSum, checksum table, 1]

theorem checksumMsg_fits (table : CfgTbl) : (checksumMsg table).length < 2 ^ 8 := by
  simp [checksumMsg]

/-- The ranges and the number of points of `struct rt_touch_info`. -/
structure TouchInfo where
  rangeX : Nat
  rangeY : Nat
  pointNum : UInt8
  deriving DecidableEq, Repr

/-- What `gt9147_get_info` makes of the bytes it has read. -/
def infoOf (oprBuf : List UInt8) : TouchInfo :=
  let byte (i : Nat) : UInt8 := oprBuf.getD i 0
  ⟨((byte 2).toNat <<< 8) + (byte 1).toNat, ((byte 4).toNat <<< 8) + (byte 3).toNat, byte 5 &&& 0x0f⟩

/-- What a command stores through its pointer. -/
inductive Reply where
  | id (data : List UInt8)
  | info (info : TouchInfo)
  | nothing
  deriving DecidableEq, Repr

section Driver

variable [Errno] {σ : Type} (link : Link σ) (retries : UInt32) (addr : UInt16)

/-- `gt9147_get_product_id` for a buffer of `read_len` bytes -/
def gt9147GetProductId (data : List UInt8) (h : data.length < 2 ^ 8) : Prog σ (Int × List UInt8) := do
  let (ret, data) ← gt9147ReadRegs link retries addr [highByte gt9xxProductId, lowByte gt9xxProductId]
    data (two_fit _ _) h
  return (if ret ≠ 0 then -rtError else 0, data)

/-- `gt9147_get_info` -/
def gt9147GetInfo : Prog σ (Int × Option TouchInfo) := do
  let (ret, oprBuf) ← gt9147ReadRegs link retries addr [highByte gt9147Config, lowByte gt9147Config]
    (List.replicate 7 0) (two_fit _ _) (by decide)
  if ret ≠ 0 then return (-rtError, none) else return (0, some (infoOf oprBuf))

/-- `gt9147_control` from `rt_calloc` on: the code, and the table after it. `alloc` says whether there is
the memory. -/
def sendConfig (alloc : Bool) (cmd : Setting) (table : CfgTbl) : Prog σ (Int × CfgTbl) :=
  if !alloc then return (-rtError, table)
  else do
    let table := cmd.config table
    let ret ← gt9147WriteReg link retries addr (highByte gt9147Config :: lowByte gt9147Config :: table.toList)
      (config_fits table)
    if ret ≠ 0 then return (-rtError, table)
    else
      let _ ← gt9147WriteReg link retries addr (checksumMsg table) (checksumMsg_fits table)
      return (0, table)

/-- `gt9147_control` -/
def gt9147Control (alloc : Bool) (cmd : Control) (table : CfgTbl) : Prog σ ((Int × Reply) × CfgTbl) :=
  match cmd with
  | .getId data => do
      let (ret, data) ← gt9147GetProductId link retries addr data.toList (by simp)
      return ((ret, .id data), table)
  | .getInfo => do
      let (ret, info) ← gt9147GetInfo link retries addr
      return ((ret, (info.map Reply.info).getD .nothing), table)
  | .set cmd => do
      let (ret, table) ← sendConfig link retries addr alloc cmd table
      return ((ret, .nothing), table)

/-- Commands one after the other, each with the outcome of its allocation: what they return and store, and
the table after them. -/
def controls : List (Bool × Control) → CfgTbl → Prog σ (List (Int × Reply) × CfgTbl)
  | [], table => return ([], table)
  | (alloc, cmd) :: cmds, table => do
      let (r, table) ← gt9147Control link retries addr alloc cmd table
      let (rs, table) ← controls cmds table
      return (r :: rs, table)

end Driver

section Follows

variable [Errno] {σ τ : Type} {R : σ → τ → Prop} {L : Link σ} {L' : Link τ} (h : L.Follows R L')

include h

theorem gt9147GetInfo_follows (retries : UInt32) (addr : UInt16) :
    Sim R (gt9147GetInfo L retries addr) (gt9147GetInfo L' retries addr) :=
  (gt9147ReadRegs_follows h retries addr _ _ _ _).bind fun _ => Sim.ite (Sim.pure _) (Sim.pure _)

theorem sendConfig_follows (retries : UInt32) (addr : UInt16) (alloc : Bool) (cmd : Setting)
    (table : CfgTbl) :
    Sim R (sendConfig L retries addr alloc cmd table) (sendConfig L' retries addr alloc cmd table) := by
  refine Sim.ite (Sim.pure _) ((gt9147WriteReg_follows h retries addr _ _).bind fun ret => ?_)
  exact Sim.ite (Sim.pure _) ((gt9147WriteReg_follows h retries addr _ _).bind fun _ => Sim.pure _)

theorem gt9147Control_follows (retries : UInt32) (addr : UInt16) (alloc : Bool) (cmd : Control)
    (table : CfgTbl) :
    Sim R (gt9147Control L retries addr alloc cmd table) (gt9147Control L' retries addr alloc cmd table) := by
  cases cmd with
  | getId data =>
      have hid := (gt9147ReadRegs_follows h retries addr
        [highByte gt9xxProductId, lowByte gt9xxProductId] data.toList (two_fit _ _) (by simp)).bind
          fun r => Sim.pure (if r.1 ≠ 0 then -rtError else 0, r.2)
      exact hid.bind fun _ => Sim.pure _
  | getInfo => exact (gt9147GetInfo_follows h retries addr).bind fun _ => Sim.pure _
  | set cmd => exact (sendConfig_follows h retries addr alloc cmd table).bind fun _ => Sim.pure _

theorem controls_follows (retries : UInt32) (addr : UInt16) (cmds : List (Bool × Control)) (table : CfgTbl) :
    Sim R (controls L retries addr cmds table) (controls L' retries addr cmds table) := by
  induction cmds generalizing table with
  | nil => exact Sim.pure _
  | cons cmd cmds ih =>
      refine (gt9147Control_follows h retries addr cmd.1 cmd.2 table).bind fun r => ?_
      exact (ih r.2).bind fun _ => Sim.pure _

end Follows

/-- The controller holds the table with its checksum, and takes it. -/
structure Configured (c : Chip) (table : CfgTbl) : Prop where
  config : load c.regs gt9147Config cfgSize = table.toList
  sum : byteSum (load c.regs gt9147Config (cfgSize + 1)) = 0
  fresh : c.regs (gt9147CheckSum + 1) = 1

theorem byteSum_append (data : List UInt8) (b : UInt8) : byteSum (data ++ [b]) = byteSum data + b := by
  rw [byteSum, byteSum, List.foldl_append]
  rfl

theorem load_append (regs : UInt16 → UInt8) (ptr : UInt16) (n : Nat) :
    load regs ptr (n + 1) = load regs ptr n ++ [regs (ptr + UInt16.ofNat n)] := by
  induction n generalizing ptr with
  | zero =>
      rw [load, load, load]
      simp
  | succ n ih => rw [load, ih, load, add_ofNat_succ, List.cons_append]

theorem byteSum_checksum (table : CfgTbl) : byteSum table.toList + checksum table = 0 := by
  rw [checksum, ← UInt8.neg_eq_not_add, UInt8.add_right_neg]

theorem toNat_add_ofNat {ptr : UInt16} {i : Nat} (h : ptr.toNat + i < 2 ^ 16) :
    (ptr + UInt16.ofNat i).toNat = ptr.toNat + i := by
  rw [UInt16.toNat_add, UInt16.toNat_ofNat_of_lt' (by simp only [UInt16.size]; omega), Nat.mod_eq_of_lt h]

/-- A register outside of those written stays. -/
theorem store_outside {regs : UInt16 → UInt8} {ptr : UInt16} {data : List UInt8}
    (hfits : ptr.toNat + data.length ≤ 2 ^ 16) {a : UInt16}
    (ha : a.toNat < ptr.toNat ∨ ptr.toNat + data.length ≤ a.toNat) : store regs ptr data a = regs a := by
  apply store_other
  rintro i hi rfl
  rw [toNat_add_ofNat (by omega)] at ha
  omega

theorem load_congr {regs regs' : UInt16 → UInt8} {ptr : UInt16} {n : Nat}
    (h : ∀ i < n, regs (ptr + UInt16.ofNat i) = regs' (ptr + UInt16.ofNat i)) :
    load regs ptr n = load regs' ptr n := by
  induction n with
  | zero => rfl
  | succ n ih =>
      rw [load_append, load_append, ih fun i hi => h i (Nat.lt_succ_of_lt hi), h n (Nat.lt_succ_self n)]

/-- The controller after the two messages of a command. -/
def Chip.configure (c : Chip) (table : CfgTbl) : Chip :=
  (c.written (highByte gt9147Config :: lowByte gt9147Config :: table.toList)).written (checksumMsg table)

theorem configure_regs (c : Chip) (table : CfgTbl) : (c.configure table).regs =
    store (store c.regs gt9147Config table.toList) gt9147CheckSum [checksum table, 1] := by
  have hconfig : regNum (highByte gt9147Config) (lowByte gt9147Config) = gt9147Config := by decide
  have hsum : regNum (highByte gt9147CheckSum) (lowByte gt9147CheckSum) = gt9147CheckSum := by decide
  rw [Chip.configure, checksumMsg, written_regs, written_regs, hconfig, hsum]

theorem checksum_end (b : UInt8) : gt9147CheckSum.toNat + [b, 1].length ≤ 2 ^ 16 := by
  rw [List.length_cons, List.length_singleton]
  decide

theorem configured_configure (c : Chip) (table : CfgTbl) : Configured (c.configure table) table := by
  have hlen : table.toList.length = cfgSize := Vector.length_toList
  have hconfig : load (c.configure table).regs gt9147Config cfgSize = table.toList := by
    rw [configure_regs]
    calc load (store (store c.regs gt9147Config table.toList) gt9147CheckSum [checksum table, 1]) gt9147Config cfgSize
        = load (store c.regs gt9147Config table.toList) gt9147Config cfgSize := by
          refine load_congr fun i hi => store_outside (checksum_end _) (Or.inl ?_)
          rw [toNat_add_ofNat (Nat.lt_trans (Nat.add_lt_add_left hi _) (by decide))]
          exact Nat.lt_of_lt_of_le (Nat.add_lt_add_left hi _) (by decide)
      _ = table.toList := by
          have hload : load (store c.regs gt9147Config table.toList) gt9147Config table.toList.length =
              table.toList := load_store table.toList (by rw [hlen]; decide)
          rwa [hlen] at hload
  have hlast : load (c.configure table).regs gt9147CheckSum 2 = [checksum table, 1] := by
    rw [configure_regs]
    exact load_store [checksum table, 1] (by simp)
  obtain ⟨hsum, hfresh⟩ : (c.configure table).regs gt9147CheckSum = checksum table ∧
      (c.configure table).regs (gt9147CheckSum + 1) = 1 := by
    simpa only [load, List.cons.injEq, and_true] using hlast
  refine ⟨hconfig, ?_, hfresh⟩
  have hnext : gt9147Config + UInt16.ofNat cfgSize = gt9147CheckSum := by decide
  rw [load_append, hconfig, byteSum_append, hnext, hsum, byteSum_checksum]

/-- The registers outside of the configuration stay. -/
theorem configure_outside (c : Chip) (table : CfgTbl) {a : UInt16}
    (ha : a.toNat < gt9147Config.toNat ∨ gt9147CheckSum.toNat + 1 < a.toNat) :
    (c.configure table).regs a = c.regs a := by
  have hlen : table.toList.length = cfgSize := Vector.length_toList
  have hends : gt9147Config.toNat + cfgSize = gt9147CheckSum.toNat := by decide
  rw [configure_regs, store_outside (checksum_end _), store_outside (by rw [hlen]; decide)]
  · rw [hlen]
    omega
  · rcases ha with ha | ha
    · exact Or.inl (by omega)
    · exact Or.inr ha

/-! ### Commands in any order -/

/-- What a command is for: it sets one of the ranges, or it leaves the information. -/
def Setting.inform (info : TouchInfo) : Setting → TouchInfo
  | .setXRange xRan => { info with rangeX := xRan.toNat }
  | .setYRange yRan => { info with rangeY := yRan.toNat }
  | _ => info

theorem high_low_toNat (r : UInt16) : ((r >>> 8).toUInt8.toNat <<< 8) + (lowByte r).toNat = r.toNat := by
  have hr : r.toNat < 2 ^ 16 := r.toNat_lt
  have hhigh : (r >>> 8).toUInt8.toNat = r.toNat / 256 := by
    rw [UInt16.toNat_toUInt8, UInt16.toNat_shiftRight, Nat.shiftRight_eq_div_pow]
    exact Nat.mod_eq_of_lt (Nat.div_lt_of_lt_mul hr)
  have hlow : (lowByte r).toNat = r.toNat % 256 := by
    rw [lowByte, UInt16.toNat_toUInt8, UInt16.toNat_and]
    have hmask : r.toNat &&& (0xFF : UInt16).toNat = r.toNat % 2 ^ 8 := Nat.and_two_pow_sub_one_eq_mod r.toNat 8
    rw [hmask]
    exact Nat.mod_mod _ _
  rw [hhigh, hlow, Nat.shiftLeft_eq]
  omega

theorem infoOf_table (table : CfgTbl) : infoOf table.toList =
    ⟨(table[2].toNat <<< 8) + table[1].toNat, (table[4].toNat <<< 8) + table[3].toNat, table[5] &&& 0x0f⟩ := by
  have hbyte : ∀ i (hi : i < cfgSize), table.toList.getD i 0 = table[i] := by
    intro i hi
    rw [List.getD_eq_getElem?_getD, Vector.getElem?_toList, Vector.getElem?_eq_getElem hi, Option.getD_some]
  simp only [infoOf, hbyte 1 (by decide), hbyte 2 (by decide), hbyte 3 (by decide), hbyte 4 (by decide),
    hbyte 5 (by decide)]

theorem infoOf_config (cmd : Setting) (table : CfgTbl) :
    infoOf (cmd.config table).toList = cmd.inform (infoOf table.toList) := by
  rw [infoOf_table, infoOf_table]
  cases cmd with
  | setXRange xRan => simpa [Setting.config, Setting.inform] using high_low_toNat xRan
  | setYRange yRan => simpa [Setting.config, Setting.inform] using high_low_toNat yRan
  | setXToY => simp [Setting.config, Setting.inform]
  | setMode trigType =>
      rw [Setting.config]
      split
      · simp [Setting.inform]
      · split
        · simp [Setting.inform]
        · rfl
  | other => rfl

/-- Only the first seven bytes count. -/
theorem infoOf_take (data : List UInt8) : infoOf (data.take 7) = infoOf data := by
  simp [infoOf, List.getD_eq_getElem?_getD]

/-- The change of the table by a command whose allocation succeeds. -/
def Control.change (alloc : Bool) (table : CfgTbl) : Control → CfgTbl
  | .set cmd => if alloc then cmd.config table else table
  | _ => table

/-- The table after commands. -/
def changeAll (table : CfgTbl) (cmds : List (Bool × Control)) : CfgTbl :=
  cmds.foldl (fun table cmd => cmd.2.change cmd.1 table) table

/-- A command that sends the table. -/
def Sends (cmd : Bool × Control) : Prop := cmd.1 = true ∧ ∃ s, cmd.2 = .set s

/-- What the commands are to see: the product id, the information that the controller has, and that of the
driver's table, which the controller has once a command has sent it. -/
structure Seen where
  id : List UInt8
  chip : TouchInfo
  driver : TouchInfo
  deriving DecidableEq

def Control.next (alloc : Bool) (s : Seen) : Control → Seen
  | .set cmd => if alloc then { s with chip := cmd.inform s.driver, driver := cmd.inform s.driver } else s
  | _ => s

/-- What a command is to return and store. -/
def Control.answer (alloc : Bool) (s : Seen) : Control → Int × Reply
  | .getId _ => (0, .id s.id)
  | .getInfo => (0, .info s.chip)
  | .set _ => (if alloc then 0 else -rtError, .nothing)

/-- The answers to commands one after the other. -/
def controlAnswers (s : Seen) : List (Bool × Control) → List (Int × Reply)
  | [] => []
  | (alloc, cmd) :: cmds => cmd.answer alloc s :: controlAnswers (cmd.next alloc s) cmds

/-- What is to be seen of the controller `c` and a driver with this table. -/
def seen (c : Chip) (table : CfgTbl) : Seen where
  id := load c.regs gt9xxProductId 6
  chip := infoOf (load c.regs gt9147Config 7)
  driver := infoOf table.toList

theorem take_load (regs : UInt16 → UInt8) (ptr : UInt16) {n m : Nat} (h : n ≤ m) :
    (load regs ptr m).take n = load regs ptr n := by
  induction m generalizing ptr n with
  | zero =>
      obtain rfl := Nat.le_zero.mp h
      rfl
  | succ m ih =>
      cases n with
      | zero => rfl
      | succ n => rw [load, List.take_succ_cons, ih (ptr + 1) (Nat.le_of_succ_le_succ h), load]

theorem Configured.congr {c c' : Chip} {table : CfgTbl} (hc : Configured c table) (h : c'.regs = c.regs) :
    Configured c' table := by
  obtain ⟨hconfig, hsum, hfresh⟩ := hc
  rw [← h] at hconfig hsum hfresh
  exact ⟨hconfig, hsum, hfresh⟩

/-- A controller that holds a table has its information. -/
theorem Configured.info {c : Chip} {table : CfgTbl} (hc : Configured c table) :
    infoOf (load c.regs gt9147Config 7) = infoOf table.toList := by
  rw [← infoOf_take table.toList, ← hc.config, take_load _ _ (by decide)]

theorem seen_congr {c c' : Chip} (table : CfgTbl) (h : c'.regs = c.regs) : seen c' table = seen c table := by
  rw [seen, seen, h]

theorem seen_configure (c : Chip) (cmd : Setting) (table : CfgTbl) :
    seen (c.configure (cmd.config table)) (cmd.config table) =
      (Control.set cmd).next true (seen c table) := by
  have hid : load (c.configure (cmd.config table)).regs gt9xxProductId 6 = load c.regs gt9xxProductId 6 := by
    refine load_congr fun i hi => configure_outside c _ (Or.inr ?_)
    have hbase : gt9147CheckSum.toNat + 1 < gt9xxProductId.toNat ∧ gt9xxProductId.toNat + 6 < 2 ^ 16 := by
      decide
    rw [toNat_add_ofNat (by omega)]
    omega
  rw [seen, hid, (configured_configure c _).info, infoOf_config]
  rfl

section Runs

variable [Errno] {c : Chip} {retries : UInt32}

theorem sendConfig_run (hr : Retries retries) (cmd : Setting) (table : CfgTbl) :
    (sendConfig chip.link retries gt9147AddressHigh true cmd table).run ⟨c, .free⟩ =
      some ((0, cmd.config table), ⟨c.configure (cmd.config table), .free⟩) := by
  have hfirst := @gt9147WriteReg_run c retries _ hr _ (config_fits (cmd.config table))
  have hsecond := @gt9147WriteReg_run
    (c.written (highByte gt9147Config :: lowByte gt9147Config :: (cmd.config table).toList)) retries _ hr _
    (checksumMsg_fits (cmd.config table))
  rw [sendConfig, if_neg (by decide), run_bind_of_some hfirst, if_neg (by decide), run_bind_of_some hsecond]
  rfl

theorem gt9147GetProductId_run (hr : Retries retries) (data : Vector UInt8 6) (h : data.toList.length < 2 ^ 8) :
    ∃ c', c'.regs = c.regs ∧
      (gt9147GetProductId chip.link retries gt9147AddressHigh data.toList h).run ⟨c, .free⟩ =
        some ((0, load c.regs gt9xxProductId 6), ⟨c', .free⟩) := by
  have hnum : regNum (highByte gt9xxProductId) (lowByte gt9xxProductId) = gt9xxProductId := by decide
  have hlen : data.toList.length = 6 := Vector.length_toList
  obtain ⟨c', hregs, hread⟩ := @gt9147ReadRegs_run c retries _ hr (highByte gt9xxProductId)
    (lowByte gt9xxProductId) data.toList h (List.ne_nil_of_length_pos (by omega))
  refine ⟨c', hregs, ?_⟩
  rw [hnum, hlen] at hread
  rw [gt9147GetProductId, run_bind_of_some hread]
  rfl

theorem gt9147GetInfo_run (hr : Retries retries) :
    ∃ c', c'.regs = c.regs ∧ (gt9147GetInfo chip.link retries gt9147AddressHigh).run ⟨c, .free⟩ =
      some ((0, some (infoOf (load c.regs gt9147Config 7))), ⟨c', .free⟩) := by
  have hnum : regNum (highByte gt9147Config) (lowByte gt9147Config) = gt9147Config := by decide
  obtain ⟨c', hregs, hread⟩ := @gt9147ReadRegs_run c retries _ hr (highByte gt9147Config) (lowByte gt9147Config)
    (List.replicate 7 0) (by decide) (by decide)
  refine ⟨c', hregs, ?_⟩
  rw [hnum] at hread
  rw [gt9147GetInfo, run_bind_of_some hread]
  rfl

/-- One command: its answer, what is seen after it, and what the controller holds then. -/
theorem gt9147Control_run (hr : Retries retries) (alloc : Bool) (cmd : Control) (table : CfgTbl) :
    ∃ c', (gt9147Control chip.link retries gt9147AddressHigh alloc cmd table).run ⟨c, .free⟩ =
        some ((cmd.answer alloc (seen c table), cmd.change alloc table), ⟨c', .free⟩) ∧
      seen c' (cmd.change alloc table) = cmd.next alloc (seen c table) ∧
      (Configured c table ∨ Sends (alloc, cmd) → Configured c' (cmd.change alloc table)) ∧
      ∀ a : UInt16, a.toNat < gt9147Config.toNat ∨ gt9147CheckSum.toNat + 1 < a.toNat →
        c'.regs a = c.regs a := by
  cases cmd with
  | getId data =>
      obtain ⟨c', hregs, hrun⟩ := @gt9147GetProductId_run _ c retries hr data (by simp)
      refine ⟨c', ?_, seen_congr table hregs, ?_, fun a _ => by rw [hregs]⟩
      · rw [gt9147Control, run_bind_of_some hrun]
        rfl
      · rintro (hc | ⟨-, s, hs⟩)
        · exact hc.congr hregs
        · cases hs
  | getInfo =>
      obtain ⟨c', hregs, hrun⟩ := @gt9147GetInfo_run _ c retries hr
      refine ⟨c', ?_, seen_congr table hregs, ?_, fun a _ => by rw [hregs]⟩
      · rw [gt9147Control, run_bind_of_some hrun]
        rfl
      · rintro (hc | ⟨-, s, hs⟩)
        · exact hc.congr hregs
        · cases hs
  | set cmd =>
      cases alloc with
      | false =>
          -- nothing is sent, and the table stays
          refine ⟨c, rfl, rfl, ?_, fun _ _ => rfl⟩
          rintro (hc | ⟨halloc, -⟩)
          · exact hc
          · cases halloc
      | true =>
          refine ⟨c.configure (cmd.config table), ?_, seen_configure c cmd table,
            fun _ => configured_configure c _, fun a ha => configure_outside c _ ha⟩
          rw [gt9147Control, run_bind_of_some (sendConfig_run hr cmd table)]
          rfl

theorem controls_run (hr : Retries retries) (cmds : List (Bool × Control)) (table : CfgTbl) :
    ∃ c', (controls chip.link retries gt9147AddressHigh cmds table).run ⟨c, .free⟩ =
        some ((controlAnswers (seen c table) cmds, changeAll table cmds), ⟨c', .free⟩) ∧
      (Configured c table ∨ (∃ cmd ∈ cmds, Sends cmd) → Configured c' (changeAll table cmds)) ∧
      ∀ a : UInt16, a.toNat < gt9147Config.toNat ∨ gt9147CheckSum.toNat + 1 < a.toNat →
        c'.regs a = c.regs a := by
  induction cmds generalizing c table with
  | nil => exact ⟨c, rfl, fun h => h.resolve_right (by simp), fun _ _ => rfl⟩
  | cons cmd cmds ih =>
      obtain ⟨alloc, cmd⟩ := cmd
      obtain ⟨c₁, hrun, hseen, hconf, hout⟩ := @gt9147Control_run _ c retries hr alloc cmd table
      obtain ⟨c₂, hruns, hconfs, houts⟩ := @ih c₁ (cmd.change alloc table)
      rw [hseen] at hruns
      refine ⟨c₂, ?_, fun h => hconfs ?_, fun a ha => (houts a ha).trans (hout a ha)⟩
      · rw [controls, run_bind_of_some hrun]
        dsimp only
        rw [run_bind_of_some hruns]
        rfl
      · rcases h with h | ⟨cmd', hmem, hsends⟩
        · exact Or.inl (hconf (Or.inl h))
        · rcases List.mem_cons.mp hmem with rfl | hmem
          · exact Or.inl (hconf (Or.inr hsends))
          · exact Or.inr ⟨cmd', hmem, hsends⟩

end Runs

section Ranges

attribute [local instance] Errno.armlibc

/-- The range of each axis is set, the command between them gets no memory, and the information is asked
for before and after them. -/
def rangeCmds : List (Bool × Control) :=
  [(true, .getInfo), (true, .set (.setXRange 480)), (false, .set .setXToY), (true, .set (.setYRange 272)),
    (true, .getInfo), (true, .getId (Vector.replicate 6 0))]

end Ranges

end SwmLvgl.Touch
