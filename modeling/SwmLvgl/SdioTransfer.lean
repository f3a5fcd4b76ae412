import SwmLvgl.LeWords
import SwmLvgl.SdioStatus

/-! The data phase of a request (`swm_sdio_request`). The processor moves the blocks word by word
between the data port and a buffer, through the buffer `cache_buf` of the driver where the caller's is
not aligned. The card's bytes are a stream, of which each access of the port takes four; the waits for
the port to be ready are left out. -/

namespace SwmLvgl.Sdio

open Memory

/-- A conversion to `uint32_t`. -/
def u32 (n : Nat) : Nat := n % 2 ^ 32

/-- `SDIO_BUFF_SIZE` -/
def sdioBuffSize : Nat := 4096

/-- The memory and the controller with the card: the bytes it sends and how many of them have been
taken, and the bytes it has been sent. -/
structure Bus where
  mem : Mem (BitVec 8)
  regs : SdioTypeDef
  card : Nat → BitVec 8
  taken : Nat
  sent : List (BitVec 8)

inductive TransferFault where
  | memory
  | unaligned
  | assertion
  | nullData
  deriving DecidableEq, Repr

/-- `cache_buf`, an array aligned to words. -/
structure CacheBuf where
  addr : Nat
  aligned : addr % 4 = 0
  nonnull : addr ≠ 0
  fits : addr + sdioBuffSize ≤ 2 ^ 32

/-- `data->flags & DATA_DIR_WRITE` -/
def RtMmcsdData.write (data : RtMmcsdData) : Prop := data.flags &&& 1 ≠ 0

/-- `data->flags & DATA_DIR_READ` -/
def RtMmcsdData.read (data : RtMmcsdData) : Prop := data.flags &&& 2 ≠ 0

instance (data : RtMmcsdData) : Decidable data.write := inferInstanceAs (Decidable (_ ≠ _))

instance (data : RtMmcsdData) : Decidable data.read := inferInstanceAs (Decidable (_ ≠ _))

/-- The address of `buff[offset + j]`. -/
def wordAddr (buff offset j : Nat) : Nat := u32 (buff + 4 * u32 (offset + j))

/-- `buff[offset + j] = SDIO->DATA` -/
def rxWord (buff offset : Nat) (s : Bus) (j : Nat) : Except TransferFault Bus := do
  let a := wordAddr buff offset j
  if a % 4 ≠ 0 then throw .unaligned
  let mem ← storeWord .memory s.mem a (ofBytes fun k => s.card (s.taken + k))
  return { s with mem := mem, taken := s.taken + 4 }

/-- `SDIO->DATA = buff[offset + j]` -/
def txWord (buff offset : Nat) (s : Bus) (j : Nat) : Except TransferFault Bus := do
  let a := wordAddr buff offset j
  if a % 4 ≠ 0 then throw .unaligned
  let w ← loadWord .memory s.mem a
  return { s with sent := s.sent ++ [byte w 0, byte w 1, byte w 2, byte w 3] }

/-- The loops of `swm_sdio_rxconfig` and `swm_sdio_txconfig` over blocks and words. -/
def blockLoop (word : Nat → Bus → Nat → Except TransferFault Bus) (data : RtMmcsdData) (s : Bus) :
    Except TransferFault Bus :=
  Run.run (fun s i =>
    let offset := u32 (i * data.blksize.toNat) / 4
    Run.run (word offset) s (List.range (data.blksize.toNat / 4))) s (List.range data.blks.toNat)

/-- `swm_sdio_rxconfig` -/
def swmSdioRxconfig (data : RtMmcsdData) (buff : Nat) (s : Bus) : Except TransferFault Bus :=
  blockLoop (rxWord buff) data s

/-- `swm_sdio_txconfig` -/
def swmSdioTxconfig (data : RtMmcsdData) (buff : Nat) (s : Bus) : Except TransferFault Bus :=
  blockLoop (txWord buff) data s

/-- `swm_sdio_transfer`; `buff` is 0 where `pkg->buff` is null. -/
def swmSdioTransfer (data : RtMmcsdData) (buff : Nat) (s : Bus) : Except TransferFault Bus :=
  if buff = 0 then .ok s
  else if data.write then swmSdioTxconfig data buff s
  else if data.read then swmSdioRxconfig data buff s
  else .ok s

/-- What a command meets: the bits received by its wait, none after a timeout, and the response. -/
structure Answer where
  status : Option (BitVec 32)
  resp : Vector (BitVec 32) 4

variable [Errno]

/-- `swm_sdio_wait_completed` -/
def swmSdioWaitCompleted (cmd : RtMmcsdCmd) (ans : Answer) (r : SdioTypeDef) :
    Except TransferFault (RtMmcsdCmd × SdioTypeDef) :=
  let r := { r with resp := ans.resp }
  match ans.status with
  | none => .ok ({ cmd with err := -rtEtimeout }, r)
  | some status =>
      match fill status cmd r with
      | .ok x => .ok x
      | .error .data => .error .nullData

/-- `swm_sdio_send_command` -/
def swmSdioSendCommand (cmd : RtMmcsdCmd) (buff : Nat) (ans : Answer) (s : Bus) :
    Except TransferFault (RtMmcsdCmd × Bus) := do
  let s := { s with regs := s.regs.issue cmd }
  let s ←
    match cmd.data with
    | some data => swmSdioTransfer data buff s
    | none => pure s
  let (cmd, regs) ← swmSdioWaitCompleted cmd ans s.regs
  return (cmd, { s with regs := regs })

/-- `rt_memcpy` -/
def rtMemcpy (dst src n : Nat) (s : Bus) : Except TransferFault Bus :=
  (copy .memory dst src n s.mem).map fun mem => { s with mem := mem }

/-- `struct rt_mmcsd_req`; `buf` is `cmd->data->buf`. -/
structure RtMmcsdReq where
  cmd : Option RtMmcsdCmd
  buf : Nat
  stop : Option RtMmcsdCmd

/-- `size` in `swm_sdio_request` -/
def RtMmcsdData.size (data : RtMmcsdData) : Nat := u32 (data.blks.toNat * data.blksize.toNat)

/-- The first part of `swm_sdio_request`: `pkg.buff`, after the copy to `cache_buf`. -/
def preparePkg (cache : CacheBuf) (data : RtMmcsdData) (buf : Nat) (s : Bus) :
    Except TransferFault (Nat × Bus) := do
  if sdioBuffSize < data.size then throw .assertion
  if buf % 4 ≠ 0 then
    let s ← if data.write then rtMemcpy cache.addr buf data.size s else pure s
    return (cache.addr, s)
  else return (buf, s)

/-- `swm_sdio_request` for `req->cmd`. -/
def requestCmd (cache : CacheBuf) (cmd : RtMmcsdCmd) (buf : Nat) (ans : Answer) (s : Bus) :
    Except TransferFault (RtMmcsdCmd × Bus) := do
  let (buff, s) ←
    match cmd.data with
    | some data => preparePkg cache data buf s
    | none => pure (0, s)
  let (filled, s) ← swmSdioSendCommand cmd buff ans s
  let s ←
    match cmd.data with
    | some data => if data.read ∧ buf % 4 ≠ 0 then rtMemcpy buf cache.addr data.size s else pure s
    | none => pure s
  return (filled, s)

/-- `swm_sdio_request`; the stop command has no buffer. -/
def swmSdioRequest (cache : CacheBuf) (req : RtMmcsdReq) (ans stopAns : Answer) (s : Bus) :
    Except TransferFault (RtMmcsdReq × Bus) := do
  let (cmd, s) ←
    match req.cmd with
    | some cmd => do
        let (filled, s) ← requestCmd cache cmd req.buf ans s
        pure (some filled, s)
    | none => pure (none, s)
  let (stop, s) ←
    match req.stop with
    | some stop => do
        let (filled, s) ← swmSdioSendCommand stop 0 stopAns s
        pure (some filled, s)
    | none => pure (none, s)
  return ({ req with cmd := cmd, stop := stop }, s)

end SwmLvgl.Sdio
