import SwmLvgl.SdioDriver

/-! What a status word does to a command. `swm_sdio_wait_completed` turns the bits it has received into
the results of the command and of its data; the results are functions of a few bits, of the response
type and of whether there is a data phase. -/

namespace SwmLvgl.Sdio

/-- The bits of `IF` that stand for one error each: `CMDTIMEOUT` to `DMAERR`, and `RESPERR`. -/
def specificErrors : List Nat := [16, 17, 18, 19, 20, 21, 22, 23, 24, 25, 28]

/-- `ERROR` is set exactly when a specific error is. -/
def SummaryExact (status : BitVec 32) : Prop :=
  status.getLsbD 15 = true ↔ ∃ i ∈ specificErrors, status.getLsbD i = true

/-- The only specific error is `CMDCRCERR`. -/
def OnlyCmdCrc (status : BitVec 32) : Prop :=
  status.getLsbD 17 = true ∧ ∀ i ∈ specificErrors, status.getLsbD i = true → i = 17

/-- `RESP_R3` and `RESP_R4` carry no CRC. -/
def CrcLess (respType : BitVec 32) : Prop := respType = 4 ∨ respType = 5

instance (status : BitVec 32) : Decidable (SummaryExact status) := inferInstanceAs (Decidable (_ ↔ _))

instance (status : BitVec 32) : Decidable (OnlyCmdCrc status) := inferInstanceAs (Decidable (_ ∧ _))

instance (respType : BitVec 32) : Decidable (CrcLess respType) := inferInstanceAs (Decidable (_ ∨ _))

/-- The command is filled in without an access through a null pointer, and its results say what the
status says. -/
def StatusDecoded [Errno] (status : BitVec 32) (cmd : RtMmcsdCmd) (r : SdioTypeDef) : Prop :=
  ∃ filled r', fill status cmd r = .ok (filled, r') ∧
    (filled.err = 0 ↔ (∀ i ∈ specificErrors, status.getLsbD i = false) ∨
      (OnlyCmdCrc status ∧ CrcLess cmd.respType)) ∧
    (status.getLsbD 16 = true → filled.err = -rtEtimeout) ∧
    ∀ data, filled.data = some data →
      status.getLsbD 20 = true ∨ status.getLsbD 21 = true → data.err ≠ 0

/-- A command without data has none of the errors that are also stored in the data. -/
def DataPresent (status : BitVec 32) (cmd : RtMmcsdCmd) : Prop :=
  cmd.data = none →
    status.getLsbD 17 = false ∧ status.getLsbD 20 = false ∧ status.getLsbD 21 = false

/-- A response CRC error without a timeout, on a type that has a bit of `RESP_R3 | RESP_R4` in common,
comes alone and on one of these two types. -/
def ExemptionSound (status respType : BitVec 32) : Prop :=
  status.getLsbD 17 = true ∧ status.getLsbD 16 = false ∧ respType &&& (4 ||| 5) ≠ 0 →
    OnlyCmdCrc status ∧ CrcLess respType

/-- The result of the command. -/
def cmdErr [Errno] (status respType : BitVec 32) : Int :=
  if status.getLsbD 15 then
    if status.getLsbD 16 then -rtEtimeout
    else if status.getLsbD 17 ∧ respType &&& (4 ||| 5) ≠ 0 then 0
    else -rtError
  else 0

/-- The result of the data. -/
def dataErr [Errno] (status : BitVec 32) (err : Int) : Int :=
  if status.getLsbD 15 then
    if status.getLsbD 20 then -rtEtimeout
    else if status.getLsbD 17 ∨ status.getLsbD 21 then -rtError
    else err
  else err

/-- The resets of the two parts of the controller. -/
def SdioTypeDef.resets (status : BitVec 32) (r : SdioTypeDef) : SdioTypeDef :=
  if status.getLsbD 15 then
    let r := if status.getLsbD 17 then r.reset 25 else r
    let r := if status.getLsbD 16 then r.reset 25 else r
    let r := if status.getLsbD 21 then r.reset 26 else r
    if status.getLsbD 20 then r.reset 26 else r
  else r

@[simp] theorem RtMmcsdCmd.readResp_data (cmd : RtMmcsdCmd) (r : SdioTypeDef) :
    (cmd.readResp r).data = cmd.data := by
  unfold RtMmcsdCmd.readResp
  split
  · rfl
  split <;> rfl

@[simp] theorem RtMmcsdCmd.readResp_respType (cmd : RtMmcsdCmd) (r : SdioTypeDef) :
    (cmd.readResp r).respType = cmd.respType := by
  unfold RtMmcsdCmd.readResp
  split
  · rfl
  split <;> rfl

/-- With a data phase the command is always filled in. -/
theorem fill_of_data [Errno] {status : BitVec 32} {cmd : RtMmcsdCmd} {r : SdioTypeDef} {data : RtMmcsdData}
    (h : cmd.data = some data) :
    fill status cmd r = .ok
      ({ cmd.readResp r with
          err := cmdErr status cmd.respType
          data := some { data with err := dataErr status data.err } },
        r.resets status) := by
  have hdata : (cmd.readResp r).data = some data := by rw [RtMmcsdCmd.readResp_data, h]
  rw [← RtMmcsdCmd.readResp_respType cmd r]
  unfold fill cmdErr dataErr SdioTypeDef.resets
  generalize cmd.readResp r = c at hdata ⊢
  cases status.getLsbD 15
  · cases c
    cases hdata
    rfl
  cases status.getLsbD 17 <;> cases status.getLsbD 16 <;> cases status.getLsbD 21 <;>
    cases status.getLsbD 20 <;>
    simp [RtMmcsdCmd.setDataErr, hdata, Except.map, bind, Except.bind, pure, Except.pure]

/-- Without one it is filled in exactly if no error has to be stored in the data. -/
theorem fill_of_none [Errno] {status : BitVec 32} {cmd : RtMmcsdCmd} {r : SdioTypeDef} (h : cmd.data = none) :
    fill status cmd r =
      if status.getLsbD 15 ∧ (status.getLsbD 17 ∨ status.getLsbD 20 ∨ status.getLsbD 21) then
        .error .data
      else .ok ({ cmd.readResp r with err := cmdErr status cmd.respType }, r.resets status) := by
  have hdata : (cmd.readResp r).data = none := by rw [RtMmcsdCmd.readResp_data, h]
  rw [← RtMmcsdCmd.readResp_respType cmd r]
  unfold fill cmdErr SdioTypeDef.resets
  generalize cmd.readResp r = c at hdata ⊢
  cases status.getLsbD 15
  · rfl
  cases status.getLsbD 17 <;> cases status.getLsbD 16 <;> cases status.getLsbD 21 <;>
    cases status.getLsbD 20 <;>
    simp [RtMmcsdCmd.setDataErr, hdata, Except.map, bind, Except.bind, pure, Except.pure]

theorem SummaryExact.error {status : BitVec 32} (h : SummaryExact status) {i : Nat}
    (hi : i ∈ specificErrors) (hbit : status.getLsbD i = true) : status.getLsbD 15 = true :=
  h.mpr ⟨i, hi, hbit⟩

theorem SummaryExact.no_error_iff {status : BitVec 32} (h : SummaryExact status) :
    status.getLsbD 15 = false ↔ ∀ i ∈ specificErrors, status.getLsbD i = false := by
  rw [← Bool.not_eq_true, not_congr h]
  simp only [not_exists, not_and, Bool.not_eq_true]

theorem CrcLess.exempt {respType : BitVec 32} (h : CrcLess respType) :
    respType &&& (4 ||| 5) ≠ 0 := by
  rcases h with rfl | rfl <;> decide

theorem cmdErr_of_timeout [Errno] {status : BitVec 32} (respType : BitVec 32) (h : SummaryExact status)
    (hbit : status.getLsbD 16 = true) : cmdErr status respType = -rtEtimeout := by
  rw [cmdErr, if_pos (h.error (by decide) hbit), if_pos hbit]

theorem dataErr_ne_zero [Errno] {status : BitVec 32} (err : Int) (h : SummaryExact status)
    (hbit : status.getLsbD 20 = true ∨ status.getLsbD 21 = true) : dataErr status err ≠ 0 := by
  have hsum : status.getLsbD 15 = true :=
    hbit.elim (h.error (by decide)) (h.error (by decide))
  rw [dataErr, if_pos hsum]
  split
  · exact neg_rtEtimeout_ne_zero
  · rw [if_pos (Or.inr (hbit.resolve_left ‹_›))]
    decide

theorem cmdErr_eq_zero_iff [Errno] {status respType : BitVec 32} :
    cmdErr status respType = 0 ↔ status.getLsbD 15 = false ∨
      (status.getLsbD 17 = true ∧ status.getLsbD 16 = false ∧ respType &&& (4 ||| 5) ≠ 0) := by
  unfold cmdErr
  cases status.getLsbD 15
  · simp
  cases status.getLsbD 16
  · simp [rtError]
  · simp [Int.ne_of_gt rtEtimeout_pos]

/-- The result of the command is right exactly where the exemption from the CRC error is. -/
theorem cmdErr_right_iff [Errno] {status : BitVec 32} (respType : BitVec 32) (h : SummaryExact status) :
    (cmdErr status respType = 0 ↔ (∀ i ∈ specificErrors, status.getLsbD i = false) ∨
      (OnlyCmdCrc status ∧ CrcLess respType)) ↔ ExemptionSound status respType := by
  rw [cmdErr_eq_zero_iff, ← h.no_error_iff]
  constructor
  · intro hiff hex
    refine (hiff.mp (Or.inr hex)).resolve_left fun hnone => ?_
    rw [h.error (by decide) hex.1] at hnone
    cases hnone
  · intro hsound
    refine or_congr_right' fun _ => ⟨hsound, fun ⟨honly, hless⟩ => ⟨honly.1, ?_, hless.exempt⟩⟩
    -- a timeout would be a second error
    cases hbit : status.getLsbD 16 with
    | false => rfl
    | true => exact absurd (honly.2 16 (by decide) hbit) (by decide)

/-- Without a data phase no error needs one exactly if the code stores none. -/
theorem dataPresent_iff {status : BitVec 32} {cmd : RtMmcsdCmd} (h : SummaryExact status)
    (hdata : cmd.data = none) :
    DataPresent status cmd ↔
      ¬(status.getLsbD 15 ∧ (status.getLsbD 17 ∨ status.getLsbD 20 ∨ status.getLsbD 21)) := by
  constructor
  · rintro hp ⟨-, hbit⟩
    obtain ⟨h17, h20, h21⟩ := hp hdata
    rw [h17, h20, h21] at hbit
    simp at hbit
  · intro hno _
    have hclear : ∀ i ∈ specificErrors, i = 17 ∨ i = 20 ∨ i = 21 → status.getLsbD i = false := by
      intro i hi hcase
      cases hbit : status.getLsbD i with
      | false => rfl
      | true =>
          refine absurd ⟨h.error hi hbit, ?_⟩ hno
          rcases hcase with rfl | rfl | rfl <;> simp [hbit]
    exact ⟨hclear 17 (by decide) (by simp), hclear 20 (by decide) (by simp),
      hclear 21 (by decide) (by simp)⟩

/-- A status is decoded correctly if and only if no error has to be stored in data that is not there, and
the exemption from the CRC error is not given to a type that has a CRC or beside another error. -/
theorem status_decoded_iff [Errno] {status : BitVec 32} (cmd : RtMmcsdCmd) (r : SdioTypeDef)
    (h : SummaryExact status) :
    StatusDecoded status cmd r ↔ DataPresent status cmd ∧ ExemptionSound status cmd.respType := by
  rw [← cmdErr_right_iff cmd.respType h]
  cases hdata : cmd.data with
  | some data =>
      have hpresent : DataPresent status cmd := fun hnone => by rw [hnone] at hdata; cases hdata
      constructor
      · rintro ⟨filled, r', hfill, herr, -⟩
        rw [fill_of_data hdata] at hfill
        cases hfill
        exact ⟨hpresent, herr⟩
      · rintro ⟨-, herr⟩
        refine ⟨_, _, fill_of_data hdata, herr, cmdErr_of_timeout _ h, ?_⟩
        rintro _ ⟨⟩ hbit
        exact dataErr_ne_zero _ h hbit
  | none =>
      rw [dataPresent_iff h hdata]
      constructor
      · rintro ⟨filled, r', hfill, herr, -⟩
        rw [fill_of_none hdata] at hfill
        split at hfill
        · cases hfill
        · cases hfill
          exact ⟨‹_›, herr⟩
      · rintro ⟨hno, herr⟩
        refine ⟨_, _, (fill_of_none hdata).trans (if_neg hno), herr, cmdErr_of_timeout _ h, ?_⟩
        intro data hsome
        rw [RtMmcsdCmd.readResp_data, hdata] at hsome
        cases hsome

/-- A read of status (`CMD13`, `RESP_R1`) with the data pointer given. -/
def statusCmd (data : Option RtMmcsdData) : RtMmcsdCmd where
  cmdCode := 13
  arg := 0
  resp := #v[0, 0, 0, 0]
  flags := 1
  err := 0
  data := data

def quietRegs : SdioTypeDef where
  blk := 0
  arg := 0
  cmd := 0
  resp := #v[0, 0, 0, 0]
  cr2 := 0
  pending := []

section Witnesses

attribute [local instance] Errno.armlibc

theorem status_decoded_timeout : SummaryExact 0x18000 ∧
    (StatusDecoded 0x18000 (statusCmd none) quietRegs ↔
      DataPresent 0x18000 (statusCmd none) ∧ ExemptionSound 0x18000 (statusCmd none).respType) :=
  ⟨by decide, status_decoded_iff _ _ (by decide)⟩

/-- A CRC error of a response of type R1 is stored through the null pointer of a command without data,
and counts as success for a command with data. -/
theorem crc_error_lost : SummaryExact 0x28000 ∧
    ¬StatusDecoded 0x28000 (statusCmd none) quietRegs ∧
    ¬StatusDecoded 0x28000 (statusCmd (some ⟨512, 1, 0, 0⟩)) quietRegs := by
  refine ⟨by decide, ?_, ?_⟩
  · rintro ⟨filled, r', hfill, -⟩
    cases hfill
  · rintro ⟨filled, r', hfill, herr, -⟩
    cases hfill
    exact absurd (herr.mp (by decide)) (by decide)

end Witnesses

end SwmLvgl.Sdio
