import SwmLvgl.SdioBlocks

/-! A whole request. Both ways through the buffers are described by one outcome, which says what has
been sent or received for blocks of whole words, and which byte is left stale for all others. -/

namespace SwmLvgl.Sdio

open Memory

/-- The number of bytes of a data phase. -/
def RtMmcsdData.bytes (data : RtMmcsdData) : Nat := data.blks.toNat * data.blksize.toNat

/-- The blocks are made of whole words, or there are none. -/
def RtMmcsdData.Whole (data : RtMmcsdData) : Prop :=
  data.blksize.toNat % 4 = 0 ∨ data.blks.toNat = 0

instance (data : RtMmcsdData) : Decidable data.Whole := inferInstanceAs (Decidable (_ ∨ _))

/-- A read or write request with a buffer that the driver may use. -/
structure ValidRequest (cache : CacheBuf) (s : Bus) (data : RtMmcsdData) (buf : Nat) : Prop where
  size : data.bytes ≤ sdioBuffSize
  direction : data.write ∨ data.read
  nonnull : buf ≠ 0
  fits : buf + data.bytes ≤ 2 ^ 32
  accessible : Accessible s.mem buf data.bytes
  cacheAccessible : Accessible s.mem cache.addr sdioBuffSize
  apart : Apart buf data.bytes cache.addr sdioBuffSize

/-- Outside the buffers of the request and of the driver. -/
def Elsewhere (cache : CacheBuf) (buf n a : Nat) : Prop :=
  (a < buf ∨ buf + n ≤ a) ∧ (a < cache.addr ∨ cache.addr + sdioBuffSize ≤ a)

/-- The buffer holds the bytes that the card has sent, and nothing else has changed. -/
structure ReadExact (cache : CacheBuf) (s t : Bus) (buf n : Nat) : Prop where
  received : ∀ p < n, t.mem (buf + p) = some (s.card (s.taken + p))
  frame : ∀ a, Elsewhere cache buf n a → t.mem a = s.mem a

/-- The card has been sent the bytes of the buffer. -/
def WriteExact (s t : Bus) (buf n : Nat) : Prop :=
  t.sent.map some = s.sent.map some ++ (List.range n).map fun p => s.mem (buf + p)

section Properties

variable [Errno] (cache : CacheBuf) (s : Bus) (req : RtMmcsdReq) (data : RtMmcsdData) (ans stopAns : Answer)

/-- Whatever the card sends, the request is carried out, and it is exact. -/
def TransferExact : Prop :=
  ∀ card, ∃ req' t, swmSdioRequest cache req ans stopAns { s with card := card } = .ok (req', t) ∧
    (data.write → WriteExact s t req.buf data.bytes) ∧
    (¬data.write → ReadExact cache { s with card := card } t req.buf data.bytes)

/-- Another buffer with the same contents, aligned or not, gives the same result. -/
def PathsAgree : Prop :=
  ∀ s' buf', ValidRequest cache s' data buf' → s'.card = s.card → s'.taken = s.taken →
    s'.sent = s.sent → (∀ p < data.bytes, s'.mem (buf' + p) = s.mem (req.buf + p)) →
    ∀ r t r' t', swmSdioRequest cache req ans stopAns s = .ok (r, t) →
      swmSdioRequest cache { req with buf := buf' } ans stopAns s' = .ok (r', t') →
      (data.write → t'.sent = t.sent) ∧
      (¬data.write → ∀ p < data.bytes, t'.mem (buf' + p) = t.mem (req.buf + p))

end Properties

/-- The stop command is decoded: it does not store an error in data that it does not have. -/
def StopDecoded [Errno] (req : RtMmcsdReq) (stopAns : Answer) : Prop :=
  ∀ stop, req.stop = some stop → ∀ r, ∃ x, swmSdioWaitCompleted stop stopAns r = .ok x

/-- What a request leaves in memory and has sent. -/
structure Outcome (cache : CacheBuf) (s : Bus) (data : RtMmcsdData) (buf : Nat) (mem : Mem (BitVec 8))
    (sent : List (BitVec 8)) : Prop where
  length : data.write →
    sent.length = s.sent.length + 4 * (data.blks.toNat * (data.blksize.toNat / 4))
  sent : data.write → data.Whole → ∀ f : Nat → BitVec 8,
    (∀ p < data.bytes, s.mem (buf + p) = some (f p)) →
    sent = s.sent ++ (List.range data.bytes).map f
  received : ¬data.write → data.blksize.toNat % 4 = 0 →
    ∀ p < data.bytes, mem (buf + p) = some (s.card (s.taken + p))
  frame : ¬data.write → ∀ a, Elsewhere cache buf data.bytes a → mem a = s.mem a
  stale : ¬data.write → data.blksize.toNat % 4 ≠ 0 → 0 < data.bytes →
    mem (buf + (data.bytes - 1)) =
      s.mem ((if buf % 4 ≠ 0 then cache.addr else buf) + (data.bytes - 1))

theorem rtMemcpy_spec {dst src n : Nat} {s : Bus} (hsrc : Accessible s.mem src n)
    (hdst : Accessible s.mem dst n) (hdisj : Apart dst n src n) :
    ∃ m', rtMemcpy dst src n s = .ok { s with mem := m' } ∧ Copied dst src n s.mem m' := by
  obtain ⟨m', hcopy, hcopied⟩ := copy_spec TransferFault.memory hsrc hdst hdisj
  exact ⟨m', by rw [rtMemcpy, hcopy]; rfl, hcopied⟩

/-- A command with data is filled in. -/
theorem swmSdioWaitCompleted_of_data [Errno] {cmd : RtMmcsdCmd} {data : RtMmcsdData} (hdata : cmd.data = some data)
    (ans : Answer) (r : SdioTypeDef) : ∃ x, swmSdioWaitCompleted cmd ans r = .ok x := by
  unfold swmSdioWaitCompleted
  cases ans.status with
  | none => exact ⟨_, rfl⟩
  | some status =>
      simp only [fill_of_data hdata]
      exact ⟨_, rfl⟩

theorem swmSdioSendCommand_of_data [Errno] {cmd : RtMmcsdCmd} {data : RtMmcsdData} {buff : Nat} {s t : Bus}
    (hdata : cmd.data = some data) (ans : Answer)
    (h : swmSdioTransfer data buff { s with regs := s.regs.issue cmd } = .ok t) :
    ∃ filled r, swmSdioSendCommand cmd buff ans s = .ok (filled, { t with regs := r }) := by
  obtain ⟨⟨filled, r⟩, hwait⟩ := swmSdioWaitCompleted_of_data hdata ans t.regs
  refine ⟨filled, r, ?_⟩
  simp only [swmSdioSendCommand, hdata, h, bind, Except.bind, hwait]
  rfl

/-- The stop command moves no data. -/
theorem swmSdioSendCommand_stop [Errno] {stop : RtMmcsdCmd} {ans : Answer} (s : Bus)
    (h : ∀ r, ∃ x, swmSdioWaitCompleted stop ans r = .ok x) :
    ∃ filled r, swmSdioSendCommand stop 0 ans s = .ok (filled, { s with regs := r }) := by
  obtain ⟨⟨filled, r⟩, hwait⟩ := h (s.regs.issue stop)
  refine ⟨filled, r, ?_⟩
  cases hdata : stop.data with
  | none =>
      simp only [swmSdioSendCommand, hdata, pure, Except.pure, bind, Except.bind, hwait]
  | some data =>
      simp only [swmSdioSendCommand, hdata, swmSdioTransfer, if_pos, pure, Except.pure, bind, Except.bind,
        hwait]

theorem RtMmcsdData.size_eq {data : RtMmcsdData} (h : data.bytes ≤ sdioBuffSize) :
    data.size = data.bytes := by
  rw [RtMmcsdData.size, u32]
  exact Nat.mod_eq_of_lt (h.trans_lt (by decide))

/-- The request in its parts: the buffer is chosen, the command sent, and the cache copied back. -/
theorem requestCmd_eq [Errno] {cache : CacheBuf} {cmd filled : RtMmcsdCmd} {data : RtMmcsdData} {ans : Answer}
    {buf buff : Nat} {s s' t : Bus} (hdata : cmd.data = some data)
    (hprep : preparePkg cache data buf s = .ok (buff, s'))
    (hsend : swmSdioSendCommand cmd buff ans s' = .ok (filled, t)) :
    requestCmd cache cmd buf ans s =
      (if data.read ∧ buf % 4 ≠ 0 then rtMemcpy buf cache.addr data.size t else .ok t).map
        (filled, ·) := by
  simp only [requestCmd, hdata, hprep, hsend, bind, Except.bind]
  split
  · cases rtMemcpy buf cache.addr data.size t <;> rfl
  · rfl

section Spec

variable {cache : CacheBuf} {s : Bus} {cmd : RtMmcsdCmd} {data : RtMmcsdData} {buf : Nat}

theorem preparePkg_aligned (hv : ValidRequest cache s data buf) (halign : buf % 4 = 0) :
    preparePkg cache data buf s = .ok (buf, s) := by
  have hsize := hv.size
  rw [preparePkg, RtMmcsdData.size_eq hsize, if_neg (by omega), if_neg (by omega)]
  rfl

theorem preparePkg_unaligned (hv : ValidRequest cache s data buf) (halign : buf % 4 ≠ 0) :
    preparePkg cache data buf s =
      (if data.write then rtMemcpy cache.addr buf data.bytes s else .ok s).map (cache.addr, ·) := by
  have hsize := hv.size
  rw [preparePkg, RtMmcsdData.size_eq hsize, if_neg (by omega), if_pos halign]
  split
  · cases rtMemcpy cache.addr buf data.bytes s <;> rfl
  · rfl

/-- A write sends what the buffer holds, from the buffer itself. -/
theorem requestCmd_write_aligned [Errno] (hv : ValidRequest cache s data buf) (hdata : cmd.data = some data)
    (ans : Answer) (hw : data.write) (halign : buf % 4 = 0) {f : Nat → BitVec 8}
    (hf : ∀ p < data.bytes, s.mem (buf + p) = some (f p)) :
    ∃ filled t, requestCmd cache cmd buf ans s = .ok (filled, t) ∧
      TxInv s f data.blksize.toNat data.blks.toNat 0 t := by
  obtain ⟨t, ht, htx⟩ := @swmSdioTxconfig_spec data buf { s with regs := s.regs.issue cmd } f halign
    hv.fits hf
  have htransfer : swmSdioTransfer data buf { s with regs := s.regs.issue cmd } = .ok t := by
    rw [swmSdioTransfer, if_neg hv.nonnull, if_pos hw, ht]
  obtain ⟨filled, r, hsend⟩ := swmSdioSendCommand_of_data hdata ans htransfer
  refine ⟨filled, { t with regs := r }, ?_, htx.mem, htx.card, htx.taken, htx.length, htx.value⟩
  rw [requestCmd_eq hdata (preparePkg_aligned hv halign) hsend, if_neg (by omega)]
  rfl

/-- A write sends what the buffer holds, from the cache. -/
theorem requestCmd_write_unaligned [Errno] (hv : ValidRequest cache s data buf) (hdata : cmd.data = some data)
    (ans : Answer) (hw : data.write) (halign : buf % 4 ≠ 0) {f : Nat → BitVec 8}
    (hf : ∀ p < data.bytes, s.mem (buf + p) = some (f p)) :
    ∃ filled t, requestCmd cache cmd buf ans s = .ok (filled, t) ∧
      t.sent.length = s.sent.length + 4 * (data.blks.toNat * (data.blksize.toNat / 4)) ∧
      (data.Whole → t.sent = s.sent ++ (List.range data.bytes).map f) := by
  have hsize := hv.size
  have hcacheAcc := hv.cacheAccessible.mono hsize
  have hapart := hv.apart
  obtain ⟨m, hcopy, hcopied⟩ := rtMemcpy_spec hv.accessible hcacheAcc (by unfold Apart at *; omega)
  have hprep : preparePkg cache data buf s = .ok (cache.addr, { s with mem := m }) := by
    rw [preparePkg_unaligned hv halign, if_pos hw, hcopy]
    rfl
  obtain ⟨t, ht, htx⟩ := @swmSdioTxconfig_spec data cache.addr
    { s with mem := m, regs := s.regs.issue cmd } f cache.aligned
    ((Nat.add_le_add_left hsize _).trans cache.fits) (fun p hp => (hcopied.inside p hp).trans (hf p hp))
  have htransfer : swmSdioTransfer data cache.addr { s with mem := m, regs := s.regs.issue cmd } =
      .ok t := by
    rw [swmSdioTransfer, if_neg cache.nonnull, if_pos hw, ht]
  obtain ⟨filled, r, hsend⟩ :=
    @swmSdioSendCommand_of_data _ cmd data cache.addr { s with mem := m } t hdata ans htransfer
  have heq := requestCmd_eq hdata hprep hsend
  have hsent : t.sent.length = s.sent.length + 4 * (data.blks.toNat * (data.blksize.toNat / 4)) ∧
      (data.Whole → t.sent = s.sent ++ (List.range data.bytes).map f) :=
    ⟨htx.length, fun hbs => htx.value (hbs.imp_right fun h => ⟨h, rfl⟩)⟩
  by_cases hr : data.read
  · -- with both directions asked for, the bytes just sent are copied back
    have hdomain : ∀ a, (s.mem a).isSome → (t.mem a).isSome := fun a ha => by
      rw [htx.mem]
      exact hcopied.isSome hv.accessible ha
    obtain ⟨m', hback, -⟩ := @rtMemcpy_spec buf cache.addr data.bytes { t with regs := r }
      (fun i hi => hdomain _ (hcacheAcc i hi)) (fun i hi => hdomain _ (hv.accessible i hi))
      (by unfold Apart at *; omega)
    rw [if_pos ⟨hr, halign⟩, RtMmcsdData.size_eq hsize, hback] at heq
    exact ⟨filled, _, heq, hsent⟩
  · rw [if_neg fun h => hr h.1] at heq
    exact ⟨filled, _, heq, hsent⟩

/-- A read without a remainder fills the buffer it reads into. -/
theorem RxInv.received {t : Bus} {buff bs blks : Nat} (h : RxInv s buff (blks * bs) bs blks 0 t)
    (hbs : bs % 4 = 0) {p : Nat} (hp : p < blks * bs) :
    t.mem (buff + p) = some (s.card (s.taken + p)) :=
  h.value hbs p hp

/-- A read with a remainder leaves the last byte as it was. -/
theorem RxInv.last {t : Bus} {buff bs blks : Nat} (h : RxInv s buff (blks * bs) bs blks 0 t)
    (hbs : bs % 4 ≠ 0) (hn : 0 < blks * bs) :
    t.mem (buff + (blks * bs - 1)) = s.mem (buff + (blks * bs - 1)) := by
  have hragged : ragged bs = 1 := by
    unfold ragged
    omega
  apply h.outside
  omega

theorem requestCmd_read_aligned [Errno] (hv : ValidRequest cache s data buf) (hdata : cmd.data = some data)
    (ans : Answer) (hw : ¬data.write) (halign : buf % 4 = 0) :
    ∃ filled t, requestCmd cache cmd buf ans s = .ok (filled, t) ∧
      Outcome cache s data buf t.mem t.sent := by
  have hr := hv.direction.resolve_left hw
  obtain ⟨t, ht, hrx⟩ := @swmSdioRxconfig_spec data buf { s with regs := s.regs.issue cmd } halign
    hv.fits hv.accessible
  have htransfer : swmSdioTransfer data buf { s with regs := s.regs.issue cmd } = .ok t := by
    rw [swmSdioTransfer, if_neg hv.nonnull, if_neg hw, if_pos hr, ht]
  obtain ⟨filled, r, hsend⟩ := swmSdioSendCommand_of_data hdata ans htransfer
  refine ⟨filled, { t with regs := r }, ?_, fun h => absurd h hw, fun h => absurd h hw, ?_, ?_, ?_⟩
  · rw [requestCmd_eq hdata (preparePkg_aligned hv halign) hsend, if_neg (by omega)]
    rfl
  · exact fun _ hbs p hp => hrx.received hbs hp
  · exact fun _ a ha => hrx.outside a (ha.1.imp_right fun h => h.trans (Nat.le_add_right a _))
  · intro _ hbs hn
    rw [if_neg (by omega)]
    exact hrx.last hbs hn

theorem requestCmd_read_unaligned [Errno] (hv : ValidRequest cache s data buf) (hdata : cmd.data = some data)
    (ans : Answer) (hw : ¬data.write) (halign : buf % 4 ≠ 0) :
    ∃ filled t, requestCmd cache cmd buf ans s = .ok (filled, t) ∧
      Outcome cache s data buf t.mem t.sent := by
  have hr := hv.direction.resolve_left hw
  have hsize := hv.size
  have hapart := hv.apart
  have hcacheAcc := hv.cacheAccessible.mono hsize
  obtain ⟨t, ht, hrx⟩ := @swmSdioRxconfig_spec data cache.addr { s with regs := s.regs.issue cmd }
    cache.aligned ((Nat.add_le_add_left hsize _).trans cache.fits) hcacheAcc
  have htransfer : swmSdioTransfer data cache.addr { s with regs := s.regs.issue cmd } = .ok t := by
    rw [swmSdioTransfer, if_neg cache.nonnull, if_neg hw, if_pos hr, ht]
  obtain ⟨filled, r, hsend⟩ := swmSdioSendCommand_of_data hdata ans htransfer
  have hprep : preparePkg cache data buf s = .ok (cache.addr, s) := by
    rw [preparePkg_unaligned hv halign, if_neg hw]
    rfl
  have hacc : ∀ a n, Accessible s.mem a n → Accessible t.mem a n := fun a n h i hi => by
    rw [hrx.domain]
    exact h i hi
  obtain ⟨m, hback, hcopied⟩ := @rtMemcpy_spec buf cache.addr data.bytes { t with regs := r }
    (hacc _ _ hcacheAcc) (hacc _ _ hv.accessible) (by unfold Apart at *; omega)
  refine ⟨filled, { t with regs := r, mem := m }, ?_, fun h => absurd h hw, fun h => absurd h hw,
    ?_, ?_, ?_⟩
  · rw [requestCmd_eq hdata hprep hsend, if_pos ⟨hr, halign⟩, RtMmcsdData.size_eq hsize, hback]
    rfl
  · exact fun _ hbs p hp => (hcopied.inside p hp).trans (hrx.received hbs hp)
  · rintro _ a ⟨hbuf, hcache⟩
    refine (hcopied.outside a fun i hi => by omega).trans (hrx.outside a ?_)
    change a < cache.addr ∨ cache.addr + data.bytes ≤ a + _
    omega
  · intro _ hbs hn
    rw [if_pos halign]
    exact (hcopied.inside _ (by omega)).trans (hrx.last hbs hn)

/-- What a command with a data phase leaves and sends. -/
theorem requestCmd_spec [Errno] (hv : ValidRequest cache s data buf) (hdata : cmd.data = some data)
    (ans : Answer) :
    ∃ filled t, requestCmd cache cmd buf ans s = .ok (filled, t) ∧
      Outcome cache s data buf t.mem t.sent := by
  by_cases hw : data.write
  · obtain ⟨filled, t, hok, hlength, hsent⟩ : ∃ filled t, requestCmd cache cmd buf ans s = .ok (filled, t) ∧
        t.sent.length = s.sent.length + 4 * (data.blks.toNat * (data.blksize.toNat / 4)) ∧
        (data.Whole → ∀ f : Nat → BitVec 8,
          (∀ p < data.bytes, s.mem (buf + p) = some (f p)) →
          t.sent = s.sent ++ (List.range data.bytes).map f) := by
      obtain ⟨g, hg⟩ := hv.accessible.contents
      -- the contents of the buffer are unique
      have hunique : ∀ f : Nat → BitVec 8, (∀ p < data.bytes, s.mem (buf + p) = some (f p)) →
          (List.range data.bytes).map g = (List.range data.bytes).map f := by
        intro f hf
        refine List.map_congr_left fun p hp => ?_
        have hp := List.mem_range.mp hp
        exact Option.some_inj.mp ((hg p hp).symm.trans (hf p hp))
      by_cases halign : buf % 4 = 0
      · obtain ⟨filled, t, hok, htx⟩ := requestCmd_write_aligned hv hdata ans hw halign hg
        refine ⟨filled, t, hok, htx.length, fun hbs f hf => ?_⟩
        rw [← hunique f hf]
        exact htx.value (hbs.imp_right fun h => ⟨h, rfl⟩)
      · obtain ⟨filled, t, hok, hlength, hsent⟩ :=
          requestCmd_write_unaligned hv hdata ans hw halign hg
        refine ⟨filled, t, hok, hlength, fun hbs f hf => ?_⟩
        rw [← hunique f hf]
        exact hsent hbs
    exact ⟨filled, t, hok, fun _ => hlength, fun _ => hsent, fun h => absurd hw h, fun h => absurd hw h,
      fun h => absurd hw h⟩
  · by_cases halign : buf % 4 = 0
    · exact requestCmd_read_aligned hv hdata ans hw halign
    · exact requestCmd_read_unaligned hv hdata ans hw halign

end Spec

/-- A request is carried out whatever happens to it, if its stop command is decoded. -/
theorem swmSdioRequest_spec [Errno] {cache : CacheBuf} {s : Bus} {req : RtMmcsdReq} {cmd : RtMmcsdCmd}
    {data : RtMmcsdData} {ans stopAns : Answer} (hv : ValidRequest cache s data req.buf)
    (hcmd : req.cmd = some cmd) (hdata : cmd.data = some data) (hstop : StopDecoded req stopAns) :
    ∃ req' t, swmSdioRequest cache req ans stopAns s = .ok (req', t) ∧
      Outcome cache s data req.buf t.mem t.sent := by
  obtain ⟨filled, t, hok, hout⟩ := requestCmd_spec hv hdata ans
  cases hs : req.stop with
  | none =>
      refine ⟨{ req with cmd := some filled, stop := none }, t, ?_, hout⟩
      simp only [swmSdioRequest, hcmd, hs, hok, pure, Except.pure, bind, Except.bind]
  | some stop =>
      obtain ⟨filledStop, r, hsend⟩ := swmSdioSendCommand_stop t (hstop stop hs)
      refine ⟨{ req with cmd := some filled, stop := some filledStop }, { t with regs := r }, ?_, hout⟩
      simp only [swmSdioRequest, hcmd, hs, hok, hsend, pure, Except.pure, bind, Except.bind]

section Exact

variable {cache : CacheBuf} {s : Bus} {req : RtMmcsdReq} {cmd : RtMmcsdCmd} {data : RtMmcsdData}
  {ans stopAns : Answer}

/-- The validity of a request does not depend on the card. -/
theorem ValidRequest.withCard {buf : Nat} (hv : ValidRequest cache s data buf) (card : Nat → BitVec 8) :
    ValidRequest cache { s with card := card } data buf :=
  ⟨hv.size, hv.direction, hv.nonnull, hv.fits, hv.accessible, hv.cacheAccessible, hv.apart⟩

theorem transferExact_of_whole [Errno] (hv : ValidRequest cache s data req.buf) (hcmd : req.cmd = some cmd)
    (hdata : cmd.data = some data) (hstop : StopDecoded req stopAns) (h : data.Whole) :
    TransferExact cache s req data ans stopAns := by
  intro card
  obtain ⟨req', t, hok, hout⟩ := @swmSdioRequest_spec _ _ _ _ _ _ ans _ (hv.withCard card) hcmd hdata hstop
  refine ⟨req', t, hok, fun hw => ?_, fun hw => ⟨fun p hp => ?_, hout.frame hw⟩⟩
  · obtain ⟨f, hf⟩ := hv.accessible.contents
    rw [WriteExact, hout.sent hw h f hf, List.map_append, List.map_map]
    refine congrArg _ (List.map_congr_left fun p hp => ?_)
    exact (hf p (List.mem_range.mp hp)).symm
  · rcases h with hbs | hzero
    · exact hout.received hw hbs p hp
    · rw [RtMmcsdData.bytes, hzero, Nat.zero_mul] at hp
      exact absurd hp (Nat.not_lt_zero p)

theorem pathsAgree_of_whole [Errno] (hv : ValidRequest cache s data req.buf) (hcmd : req.cmd = some cmd)
    (hdata : cmd.data = some data) (hstop : StopDecoded req stopAns) (h : data.Whole) :
    PathsAgree cache s req data ans stopAns := by
  intro s' buf' hv' hcard htaken hsent hmem r t r' t' hrun hrun'
  obtain ⟨_, _, hok, hout⟩ := @swmSdioRequest_spec _ _ _ _ _ _ ans _ hv hcmd hdata hstop
  obtain ⟨_, _, hok', hout'⟩ :=
    @swmSdioRequest_spec _ cache s' { req with buf := buf' } cmd data ans stopAns hv' hcmd hdata hstop
  rw [hrun] at hok
  rw [hrun'] at hok'
  cases hok
  cases hok'
  constructor
  · intro hw
    obtain ⟨f, hf⟩ := hv.accessible.contents
    rw [hout.sent hw h f hf, hout'.sent hw h f fun p hp => (hmem p hp).trans (hf p hp), hsent]
  · intro hw p hp
    rcases h with hbs | hzero
    · rw [hout.received hw hbs p hp, hout'.received hw hbs p hp, hcard, htaken]
    · rw [RtMmcsdData.bytes, hzero, Nat.zero_mul] at hp
      exact absurd hp (Nat.not_lt_zero p)

/-- Blocks with a remainder are moved without it. -/
theorem not_transferExact [Errno] (hv : ValidRequest cache s data req.buf) (hcmd : req.cmd = some cmd)
    (hdata : cmd.data = some data) (hstop : StopDecoded req stopAns) (h : ¬data.Whole) :
    ¬TransferExact cache s req data ans stopAns := by
  intro hexact
  obtain ⟨hbs, hblks⟩ := not_or.mp h
  have hbytes : 4 * (data.blks.toNat * (data.blksize.toNat / 4)) < data.bytes := by
    calc 4 * (data.blks.toNat * (data.blksize.toNat / 4))
        = data.blks.toNat * (4 * (data.blksize.toNat / 4)) := Nat.mul_left_comm _ _ _
      _ < data.blks.toNat * data.blksize.toNat :=
          Nat.mul_lt_mul_of_pos_left (by omega) (Nat.pos_of_ne_zero hblks)
  -- a card whose last byte differs from the one that will be left
  let stale := s.mem ((if req.buf % 4 ≠ 0 then cache.addr else req.buf) + (data.bytes - 1))
  let card : Nat → BitVec 8 := fun _ => stale.getD 0 + 1
  obtain ⟨_, _, hok, hout⟩ :=
    @swmSdioRequest_spec _ _ _ _ _ _ ans _ (hv.withCard card) hcmd hdata hstop
  obtain ⟨_, _, hok', hwrite, hread⟩ := hexact card
  rw [hok] at hok'
  cases hok'
  by_cases hw : data.write
  · have hlength := congrArg List.length (hwrite hw)
    rw [List.length_map, List.length_append, List.length_map, List.length_map, List.length_range,
      hout.length hw] at hlength
    change s.sent.length + _ = _ at hlength
    omega
  · have hlast := (hread hw).received (data.bytes - 1) (by omega)
    rw [hout.stale hw hbs (by omega)] at hlast
    change stale = some (stale.getD 0 + 1) at hlast
    cases hstale : stale with
    | none =>
        rw [hstale] at hlast
        cases hlast
    | some v =>
        rw [hstale, Option.some_inj] at hlast
        change v = v + 1 at hlast
        revert hlast
        bv_omega

end Exact

/-- A request is exact on both ways through the buffers if and only if its blocks are made of whole
words, or there are none. -/
theorem transfer_exact_iff [Errno] {cache : CacheBuf} {s : Bus} {req : RtMmcsdReq} {cmd : RtMmcsdCmd}
    {data : RtMmcsdData} {ans stopAns : Answer} (hv : ValidRequest cache s data req.buf)
    (hcmd : req.cmd = some cmd) (hdata : cmd.data = some data) (hstop : StopDecoded req stopAns) :
    TransferExact cache s req data ans stopAns ∧ PathsAgree cache s req data ans stopAns ↔
      data.Whole := by
  refine ⟨fun ⟨hexact, _⟩ => ?_, fun h => ?_⟩
  · by_contra hno
    exact not_transferExact hv hcmd hdata hstop hno hexact
  · exact ⟨transferExact_of_whole hv hcmd hdata hstop h, pathsAgree_of_whole hv hcmd hdata hstop h⟩

/-! ### A request -/

def idleBus : Bus where
  mem := fun a => if 4096 ≤ a ∧ a < 16384 then some 0 else none
  regs := quietRegs
  card := fun p => BitVec.ofNat 8 p
  taken := 0
  sent := []

def demoCache : CacheBuf := ⟨8192, by decide, by decide, by decide⟩

/-- A read of blocks of the given size to an unaligned buffer, without a stop command. -/
def readReq (blksize : BitVec 32) : RtMmcsdReq where
  cmd := some (statusCmd (some ⟨blksize, 2, 0, 2⟩))
  buf := 4097
  stop := none

def goodAnswer : Answer := ⟨some 1, Vector.replicate 4 0⟩

theorem readReq_valid {blksize : BitVec 32} (h : blksize.toNat ≤ 512) :
    ValidRequest demoCache idleBus ⟨blksize, 2, 0, 2⟩ (readReq blksize).buf := by
  have hbytes : RtMmcsdData.bytes ⟨blksize, 2, 0, 2⟩ = 2 * blksize.toNat := rfl
  have hread : (2 : BitVec 32) &&& 2 ≠ 0 := by decide
  have hnonnull : (4097 : Nat) ≠ 0 := by decide
  refine ⟨?_, Or.inr hread, hnonnull, ?_, fun p hp => ?_, fun p hp => ?_, Or.inl ?_⟩
  · rw [hbytes, sdioBuffSize]
    omega
  · change 4097 + _ ≤ _
    omega
  · have hin : 4096 ≤ 4097 + p ∧ 4097 + p < 16384 := by omega
    exact (congrArg Option.isSome (if_pos hin)).trans rfl
  · have hin : 4096 ≤ 8192 + p ∧ 8192 + p < 16384 := by
      rw [sdioBuffSize] at hp
      omega
    exact (congrArg Option.isSome (if_pos hin)).trans rfl
  · change 4097 + _ ≤ 8192
    omega

section Demo

attribute [local instance] Errno.armlibc

theorem transfer_exact_demo : TransferExact demoCache idleBus (readReq 512) ⟨512, 2, 0, 2⟩ goodAnswer
      goodAnswer ∧ PathsAgree demoCache idleBus (readReq 512) ⟨512, 2, 0, 2⟩ goodAnswer goodAnswer ↔
    RtMmcsdData.Whole ⟨512, 2, 0, 2⟩ :=
  transfer_exact_iff (readReq_valid (by decide)) rfl rfl nofun

/-- Two blocks of six bytes are not read completely. -/
theorem six_byte_blocks : ValidRequest demoCache idleBus ⟨6, 2, 0, 2⟩ (readReq 6).buf ∧
    ¬TransferExact demoCache idleBus (readReq 6) ⟨6, 2, 0, 2⟩ goodAnswer goodAnswer :=
  ⟨readReq_valid (by decide),
    not_transferExact (readReq_valid (by decide)) rfl rfl nofun (by decide)⟩

end Demo

end SwmLvgl.Sdio
