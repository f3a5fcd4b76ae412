import SwmLvgl.Kerrno
import SwmLvgl.RegBits
import SwmLvgl.RunSteps

/-! The SDIO host driver (`drv_sdio.c`) with the event object of the kernel (`ipc.c`), as steps of the
thread that sends commands, of the controller and of the interrupt. `IF` is kept as the list of the
interrupts that are pending, each with the command it was raised for; its value is their bits. -/

namespace SwmLvgl.Sdio

open RegBits

/-- The part of `struct rt_mmcsd_data` that the driver uses here. -/
structure RtMmcsdData where
  blksize : BitVec 32
  blks : BitVec 32
  err : Int
  flags : BitVec 32
  deriving DecidableEq, Repr

/-- The part of `struct rt_mmcsd_cmd` that the driver uses; `data` is none where the pointer is null. -/
structure RtMmcsdCmd where
  cmdCode : BitVec 32
  arg : BitVec 32
  resp : Vector (BitVec 32) 4
  flags : BitVec 32
  err : Int
  data : Option RtMmcsdData
  deriving DecidableEq, Repr

/-- `resp_type` -/
def RtMmcsdCmd.respType (cmd : RtMmcsdCmd) : BitVec 32 := cmd.flags &&& 0xF

/-- A bit of `IF` that the controller has set for the command with this number. -/
structure Flag where
  bit : Fin 32
  cmd : Nat
  deriving DecidableEq, Repr

/-- The value of a register. -/
def word (l : List Flag) : BitVec 32 := l.foldr (fun f v => setBit v f.bit) 0

theorem getLsbD_word (l : List Flag) (i : Fin 32) :
    (word l).getLsbD i = l.any fun f => decide (f.bit = i) := by
  induction l with
  | nil => exact BitVec.getLsbD_zero
  | cons f l ih =>
      rw [List.any_cons, ← ih]
      by_cases h : f.bit = i
      · subst h
        rw [decide_eq_true rfl, Bool.true_or]
        exact getLsbD_setBit_self _ f.bit.isLt
      · rw [decide_eq_false h, Bool.false_or]
        exact getLsbD_setBit_of_ne _ fun heq => h (Fin.ext heq.symm)

theorem word_ne_zero {l : List Flag} (h : l ≠ []) : word l ≠ 0 := by
  intro hzero
  cases l with
  | nil => exact h rfl
  | cons f l =>
      have hbit := getLsbD_word (f :: l) f.bit
      rw [hzero, List.any_cons, decide_eq_true rfl, Bool.true_or] at hbit
      exact absurd hbit (by simp)

/-- A write of `mask` to `IF` clears the bits of `mask`. -/
def clear (mask : BitVec 32) (l : List Flag) : List Flag := l.filter fun f => !mask.getLsbD f.bit

/-- The registers of `SDIO_TypeDef` that the driver uses here. -/
structure SdioTypeDef where
  blk : BitVec 32
  arg : BitVec 32
  cmd : BitVec 32
  resp : Vector (BitVec 32) 4
  cr2 : BitVec 32
  pending : List Flag
  deriving DecidableEq, Repr

inductive Fault where
  | data
  deriving DecidableEq, Repr

/-- `reg_cmd` in `swm_sdio_send_command` -/
def RtMmcsdCmd.regCmd (cmd : RtMmcsdCmd) : BitVec 32 :=
  let reg := cmd.cmdCode <<< 24 ||| 0 <<< 22 ||| 0 <<< 20 ||| 0 <<< 19 ||| 0 <<< 0
  let reg := reg |||
    if cmd.respType = 0 then 0 <<< 16 else if cmd.respType = 3 then 1 <<< 16 else 2 <<< 16
  match cmd.data with
  | some data =>
      let dir : BitVec 32 := if data.flags &&& 2 ≠ 0 then 1 else 0
      let mult : BitVec 32 := if 1 < data.blks then 1 else 0
      reg ||| (1 <<< 21 ||| dir <<< 4 ||| mult <<< 5 ||| mult <<< 1 ||| 0 <<< 2)
  | none => reg ||| 0 <<< 21

/-- The registers as `swm_sdio_send_command` writes them, `CMD` last. -/
def SdioTypeDef.issue (r : SdioTypeDef) (cmd : RtMmcsdCmd) : SdioTypeDef :=
  let blk :=
    match cmd.data with
    | some data => data.blks <<< 16 ||| data.blksize <<< 0
    | none => r.blk
  { r with blk := blk, arg := cmd.arg, cmd := cmd.regCmd }

/-- `data->err = err` -/
def RtMmcsdCmd.setDataErr (err : Int) (cmd : RtMmcsdCmd) : Except Fault RtMmcsdCmd :=
  match cmd.data with
  | some data => .ok { cmd with data := some { data with err := err } }
  | none => .error .data

/-- `SDIO->CR2 |= (1 << pos)` -/
def SdioTypeDef.reset (pos : Nat) (r : SdioTypeDef) : SdioTypeDef := { r with cr2 := setBit r.cr2 pos }

/-- The response registers copied to the command. -/
def RtMmcsdCmd.readResp (r : SdioTypeDef) (cmd : RtMmcsdCmd) : RtMmcsdCmd :=
  if cmd.respType = 0 then cmd
  else if cmd.respType = 3 then
    { cmd with resp := #v[
        r.resp[3] <<< 8 + (r.resp[2] >>> 24 &&& 0xFF),
        r.resp[2] <<< 8 + (r.resp[1] >>> 24 &&& 0xFF),
        r.resp[1] <<< 8 + (r.resp[0] >>> 24 &&& 0xFF),
        r.resp[0] <<< 8 + 0x00] }
  else { cmd with resp := cmd.resp.set 0 r.resp[0] }

variable [Errno]

/-- `swm_sdio_wait_completed` after the wait, with the bits received. `pkg` is never null there, as
only the sender clears it. -/
def fill (status : BitVec 32) (cmd : RtMmcsdCmd) (r : SdioTypeDef) :
    Except Fault (RtMmcsdCmd × SdioTypeDef) := do
  let cmd := cmd.readResp r
  if status.getLsbD 15 then
    let err : Int := if status.getLsbD 17 ∧ cmd.respType &&& (4 ||| 5) ≠ 0 then 0 else -rtError
    let cmd := { cmd with err := err }
    let (cmd, r) ← if status.getLsbD 17 then (cmd.setDataErr (-rtError)).map (·, r.reset 25) else pure (cmd, r)
    let (cmd, r) := if status.getLsbD 16 then ({ cmd with err := -rtEtimeout }, r.reset 25) else (cmd, r)
    let (cmd, r) ← if status.getLsbD 21 then (cmd.setDataErr (-rtError)).map (·, r.reset 26) else pure (cmd, r)
    let (cmd, r) ← if status.getLsbD 20 then (cmd.setDataErr (-rtEtimeout)).map (·, r.reset 26) else pure (cmd, r)
    return (cmd, r)
  else return ({ cmd with err := 0 }, r)

/-! ### The interrupt -/

/-- `swm_sdio_irq_process`: the bits left in `IF`, and whether the bits read are posted. -/
def swmSdioIrqProcess (pkg : Option RtMmcsdCmd) (pending : List Flag) : List Flag × Bool :=
  let intstatus := word pending
  if intstatus.getLsbD 15 then (clear 0xFFFFFFFF pending, true)
  else
    let (pending, complete) :=
      if intstatus.getLsbD 0 then
        (clear 1 pending,
          match pkg with
          | some cmd => cmd.data.isNone
          | none => false)
      else (pending, false)
    if intstatus.getLsbD 1 then (clear 2 pending, true) else (pending, complete)

/-- A bit in the event, with the number of commands issued when the interrupt read it. -/
structure Posted where
  flag : Flag
  read : Nat
  deriving DecidableEq, Repr

/-- `rt_event_send`: the bits left in the event, and those that a suspended thread receives. The thread
waits for any bit and clears what it receives. -/
def rtEventSend (suspended : Bool) (event posted : List Posted) : List Posted × Option (List Posted) :=
  if word (posted.map Posted.flag) = 0 then (event, none)
  else if suspended then ([], some (event ++ posted))
  else (event ++ posted, none)

/-- `rt_event_recv` with all bits, `RT_EVENT_FLAG_OR` and `RT_EVENT_FLAG_CLEAR`: the bits left, and those
received, or none where the thread is suspended. -/
def rtEventRecv (event : List Posted) : List Posted × Option (List Posted) :=
  if word (event.map Posted.flag) ≠ 0 then ([], some event) else (event, none)

/-- How far `swm_sdio_send_command` has come with its command: it has stored `pkg`; it has written `CMD`;
it is suspended; it has received bits; the wait has timed out. -/
inductive Phase where
  | idle
  | saved (cmd : RtMmcsdCmd)
  | issued (cmd : RtMmcsdCmd)
  | waiting (cmd : RtMmcsdCmd)
  | woken (cmd : RtMmcsdCmd) (status : List Posted)
  | timedOut (cmd : RtMmcsdCmd)
  deriving DecidableEq, Repr

/-- `sdio->pkg` -/
def Phase.pkg : Phase → Option RtMmcsdCmd
  | .idle => none
  | .saved cmd | .issued cmd | .waiting cmd | .woken cmd _ | .timedOut cmd => some cmd

/-- A command that `swm_sdio_send_command` has returned from: its number, the bits that completed it or
none after a timeout, the command as it was sent and as it is filled in. -/
structure Completion where
  number : Nat
  status : Option (List Posted)
  sent : RtMmcsdCmd
  filled : RtMmcsdCmd
  deriving DecidableEq, Repr

/-- `struct swm_sdio_device` with its registers; `issued` counts the commands written to `CMD`. -/
structure SwmSdioDevice where
  regs : SdioTypeDef
  event : List Posted
  phase : Phase
  issued : Nat
  completed : List Completion
  deriving DecidableEq, Repr

/-- `save` to `finish` are the sender, in this order; `timeout` is the timer of its wait. The controller
raises a bit for an issued command or writes the response. -/
inductive Action where
  | save (cmd : RtMmcsdCmd)
  | issue
  | recv
  | timeout
  | finish
  | raise (bit : Fin 32) (cmd : Nat)
  | respond (resp : Vector (BitVec 32) 4)
  | irq
  deriving DecidableEq, Repr

namespace SwmSdioDevice

/-- The interrupt: `swm_sdio_irq_process`, and `rt_event_send` with the bits it has read. -/
def irq (s : SwmSdioDevice) : SwmSdioDevice :=
  let (pending, complete) := swmSdioIrqProcess s.phase.pkg s.regs.pending
  let posted := s.regs.pending.map fun f => ⟨f, s.issued⟩
  let s' := { s with regs := { s.regs with pending := pending } }
  if complete then
    match s.phase with
    | .waiting cmd =>
        match rtEventSend true s.event posted with
        | (event, some status) => { s' with event := event, phase := .woken cmd status }
        | (event, none) => { s' with event := event }
    | _ => { s' with event := (rtEventSend false s.event posted).1 }
  else s'

/-- One step; an action that the phase does not allow changes nothing. -/
def step (s : SwmSdioDevice) : Action → Except Fault SwmSdioDevice
  | .save cmd =>
      match s.phase with
      | .idle => .ok { s with phase := .saved cmd }
      | _ => .ok s
  | .issue =>
      match s.phase with
      | .saved cmd =>
          .ok { s with regs := s.regs.issue cmd, phase := .issued cmd, issued := s.issued + 1 }
      | _ => .ok s
  | .recv =>
      match s.phase with
      | .issued cmd =>
          match rtEventRecv s.event with
          | (event, some status) => .ok { s with event := event, phase := .woken cmd status }
          | (event, none) => .ok { s with event := event, phase := .waiting cmd }
      | _ => .ok s
  | .timeout =>
      match s.phase with
      | .waiting cmd => .ok { s with phase := .timedOut cmd }
      | _ => .ok s
  | .finish =>
      match s.phase with
      | .woken cmd status => do
          let (filled, regs) ← fill (word (status.map Posted.flag)) cmd s.regs
          return { s with
            regs := regs
            phase := .idle
            completed := s.completed ++ [⟨s.issued, some status, cmd, filled⟩] }
      | .timedOut cmd =>
          .ok { s with
            phase := .idle
            completed := s.completed ++ [⟨s.issued, none, cmd, { cmd with err := -rtEtimeout }⟩] }
      | _ => .ok s
  | .raise bit cmd =>
      if 1 ≤ cmd ∧ cmd ≤ s.issued then
        .ok { s with regs := { s.regs with pending := s.regs.pending ++ [⟨bit, cmd⟩] } }
      else .ok s
  | .respond resp => .ok { s with regs := { s.regs with resp := resp } }
  | .irq => .ok s.irq

end SwmSdioDevice

end SwmLvgl.Sdio
