import SwmLvgl.SdioDriver

/-! Which interrupts complete a command. Only the branch for the end of a command looks at `pkg`; the
end of a transfer and an error are posted at any time, and nothing clears the event before the next
command, which takes what is left there. -/

namespace SwmLvgl.Sdio

/-- The bits that `swm_sdio_irq_process` and `swm_sdio_wait_completed` look at: the end of a transfer,
`ERROR` with the four errors told apart, and the end of the command where it has no data. -/
def RtMmcsdCmd.deciding (cmd : RtMmcsdCmd) : BitVec 32 :=
  0x338002 ||| if cmd.data.isNone then 1 else 0

/-- What a command is filled with depends on these bits of the status only. -/
theorem fill_congr [Errno] {a b : BitVec 32} (cmd : RtMmcsdCmd) (r : SdioTypeDef)
    (h : a &&& cmd.deciding = b &&& cmd.deciding) : fill a cmd r = fill b cmd r := by
  have hbit : ∀ i, (0x338000#32).getLsbD i = true → a.getLsbD i = b.getLsbD i := by
    intro i hi
    have hmask : cmd.deciding.getLsbD i = true := by
      have hsub : 0x338000#32 &&& cmd.deciding = 0x338000#32 := by
        rw [RtMmcsdCmd.deciding]
        cases cmd.data.isNone <;> decide
      rw [← hsub, BitVec.getLsbD_and, Bool.and_eq_true] at hi
      exact hi.2
    have hand := congrArg (·.getLsbD i) h
    simpa [hmask] using hand
  rw [fill, fill, hbit 15 (by decide), hbit 16 (by decide), hbit 17 (by decide), hbit 20 (by decide),
    hbit 21 (by decide)]

/-- A posted bit belongs to the command with number `n`: it was read after that command was issued, and
if it is a deciding one, it was raised for it. -/
def Posted.Own (n : Nat) (cmd : RtMmcsdCmd) (p : Posted) : Prop :=
  p.read = n ∧ (cmd.deciding.getLsbD p.flag.bit = true → p.flag.cmd = n)

/-- The bits that completed the command belong to it. -/
def Completion.Own (c : Completion) : Prop :=
  ∀ status, c.status = some status → ∀ p ∈ status, p.Own c.number c.sent

namespace SwmSdioDevice

/-- The interrupt would post. -/
def Posts (s : SwmSdioDevice) : Prop := (swmSdioIrqProcess s.phase.pkg s.regs.pending).2 = true

instance (s : SwmSdioDevice) : Decidable s.Posts := inferInstanceAs (Decidable (_ = _))

/-- The deciding bits that are pending were raised for the last command. -/
def PendingOwn (s : SwmSdioDevice) (cmd : RtMmcsdCmd) : Prop :=
  ∀ f ∈ s.regs.pending, cmd.deciding.getLsbD f.bit = true → f.cmd = s.issued

instance (s : SwmSdioDevice) (cmd : RtMmcsdCmd) : Decidable (s.PendingOwn cmd) :=
  inferInstanceAs (Decidable (∀ f ∈ s.regs.pending, _))

/-- The command that has been issued and has not received anything yet. -/
def Outstanding (s : SwmSdioDevice) : Prop :=
  match s.phase with
  | .issued cmd | .waiting cmd => s.PendingOwn cmd
  | _ => False

instance (s : SwmSdioDevice) : Decidable s.Outstanding :=
  match h : s.phase with
  | .issued cmd | .waiting cmd => decidable_of_iff (s.PendingOwn cmd) (by rw [Outstanding, h])
  | .idle | .saved _ | .woken _ _ | .timedOut _ => isFalse (by rw [Outstanding, h]; exact id)

/-- An interrupt that posts comes while a command is issued or waiting, and the deciding bits it reads
were raised for that command. -/
def Timely (s : SwmSdioDevice) : Action → Prop
  | .irq => s.Posts → s.Outstanding
  | _ => True

instance (s : SwmSdioDevice) : ∀ a, Decidable (s.Timely a)
  | .irq => inferInstanceAs (Decidable (s.Posts → s.Outstanding))
  | .save _ | .issue | .recv | .timeout | .finish | .raise _ _ | .respond _ =>
      inferInstanceAs (Decidable True)

/-- No command has been sent. -/
structure Fresh (s : SwmSdioDevice) : Prop where
  event : s.event = []
  phase : s.phase = .idle
  completed : s.completed = []

/-- The bits in the event and in the status belong to the last command. -/
def EventOwn (n : Nat) : Phase → List Posted → Prop
  | .issued cmd, event => ∀ p ∈ event, p.Own n cmd
  | .woken cmd status, event => event = [] ∧ ∀ p ∈ status, p.Own n cmd
  | _, event => event = []

structure Inv (s : SwmSdioDevice) : Prop where
  completed : ∀ c ∈ s.completed, c.Own
  event : EventOwn s.issued s.phase s.event

theorem Fresh.inv {s : SwmSdioDevice} (h : s.Fresh) : s.Inv := by
  refine ⟨?_, ?_⟩
  · rw [h.completed]
    exact fun c hc => absurd hc List.not_mem_nil
  · rw [h.phase, h.event]
    rfl

/-- One more command that has returned. -/
theorem Inv.append {s : SwmSdioDevice} (h : s.Inv) {c : Completion} (hc : c.Own) :
    ∀ c' ∈ s.completed ++ [c], c'.Own := by
  intro c' hc'
  rcases List.mem_append.mp hc' with hc' | hc'
  · exact h.completed c' hc'
  · rw [List.mem_singleton.mp hc']
    exact hc

/-- What an interrupt posts belongs to the outstanding command. -/
theorem own_posted {s : SwmSdioDevice} {cmd : RtMmcsdCmd} (h : s.PendingOwn cmd) :
    ∀ p ∈ s.regs.pending.map (fun f => (⟨f, s.issued⟩ : Posted)), p.Own s.issued cmd := by
  intro p hp
  obtain ⟨f, hf, rfl⟩ := List.mem_map.mp hp
  exact ⟨rfl, h f hf⟩

/-- Bits sent without a suspended thread are added to the event. -/
theorem forall_rtEventSend {P : Posted → Prop} {event posted : List Posted} (hevent : ∀ p ∈ event, P p)
    (hposted : ∀ p ∈ posted, P p) : ∀ p ∈ (rtEventSend false event posted).1, P p := by
  rw [rtEventSend]
  split
  · exact hevent
  · exact fun p hp => (List.mem_append.mp hp).elim (hevent p) (hposted p)

theorem irq_inv {s : SwmSdioDevice} (hI : s.Inv) (hC : s.Timely .irq) : s.irq.Inv := by
  have hevent := hI.event
  rw [irq]
  cases hproc : swmSdioIrqProcess s.phase.pkg s.regs.pending with
  | mk pending complete =>
    cases complete with
    | false => exact ⟨hI.completed, hI.event⟩
    | true =>
        have hout : s.Outstanding := hC (by rw [Posts, hproc])
        rw [Outstanding] at hout
        cases hphase : s.phase with
        | issued cmd =>
            rw [hphase] at hout hevent
            exact ⟨hI.completed, forall_rtEventSend hevent (own_posted hout)⟩
        | waiting cmd =>
            rw [hphase] at hout hevent
            have hnil : s.event = [] := hevent
            simp only [rtEventSend, if_true, hnil, List.nil_append]
            split
            · next heq =>
              split at heq
              · cases heq
              · cases heq
                exact ⟨hI.completed, rfl, own_posted hout⟩
            · next heq =>
              split at heq
              · cases heq
                exact ⟨hI.completed, rfl⟩
              · cases heq
        | idle | saved cmd | woken cmd status | timedOut cmd =>
            rw [hphase] at hout
            exact hout.elim

theorem recv_inv [Errno] {s t : SwmSdioDevice} (hI : s.Inv) (h : s.step .recv = .ok t) : t.Inv := by
  have hevent := hI.event
  simp only [step, rtEventRecv] at h
  split at h
  · next cmd hphase =>
    rw [hphase] at hevent
    by_cases hnil : s.event = []
    · rw [hnil] at h
      cases h
      exact ⟨hI.completed, rfl⟩
    · rw [if_pos (word_ne_zero fun hmap => hnil (List.map_eq_nil_iff.mp hmap))] at h
      cases h
      exact ⟨hI.completed, rfl, hevent⟩
  · cases h
    exact hI

theorem finish_inv [Errno] {s t : SwmSdioDevice} (hI : s.Inv) (h : s.step .finish = .ok t) : t.Inv := by
  have hevent := hI.event
  simp only [step] at h
  split at h
  · next cmd status hphase =>
    rw [hphase] at hevent
    cases hfill : fill (word (status.map Posted.flag)) cmd s.regs with
    | error e =>
        rw [hfill] at h
        cases h
    | ok r =>
        rw [hfill] at h
        cases h
        refine ⟨hI.append ?_, hevent.1⟩
        intro st hst
        cases hst
        exact hevent.2
  · next hphase =>
    cases h
    rw [hphase] at hevent
    exact ⟨hI.append nofun, hevent⟩
  · cases h
    exact hI

/-- A timely step keeps the invariant. -/
theorem step_inv [Errno] (s : SwmSdioDevice) (a : Action) (t : SwmSdioDevice) (hI : s.Inv) (hC : s.Timely a)
    (h : s.step a = .ok t) : t.Inv := by
  have hevent := hI.event
  cases a with
  | save cmd =>
      simp only [step] at h
      split at h
      · next hphase =>
        cases h
        rw [hphase] at hevent
        exact ⟨hI.completed, hevent⟩
      · cases h
        exact hI
  | issue =>
      simp only [step] at h
      split at h
      · next hphase =>
        cases h
        rw [hphase] at hevent
        have hnil : s.event = [] := hevent
        refine ⟨hI.completed, fun p hp => ?_⟩
        rw [hnil] at hp
        exact absurd hp List.not_mem_nil
      · cases h
        exact hI
  | recv => exact recv_inv hI h
  | timeout =>
      simp only [step] at h
      split at h
      · next hphase =>
        cases h
        rw [hphase] at hevent
        exact ⟨hI.completed, hevent⟩
      · cases h
        exact hI
  | finish => exact finish_inv hI h
  | raise bit cmd =>
      simp only [step] at h
      split at h
      · cases h
        exact ⟨hI.completed, hI.event⟩
      · cases h
        exact hI
  | respond resp =>
      cases h
      exact ⟨hI.completed, hI.event⟩
  | irq =>
      cases h
      exact irq_inv hI hC

/-- **Completions.** Along every run of timely steps, every command returned was completed by bits of its
own, or timed out. -/
theorem completions_own [Errno] {s t : SwmSdioDevice} (hs : s.Fresh) {w : List Action}
    (hw : Run.AllSteps step Timely s w) (h : Run.run step s w = .ok t) : ∀ c ∈ t.completed, c.Own :=
  (hw.invariant step_inv hs.inv h).completed

theorem Posts.pending_ne_nil {s : SwmSdioDevice} (h : s.Posts) : s.regs.pending ≠ [] := by
  intro hnil
  rw [Posts, hnil] at h
  simp [swmSdioIrqProcess, word] at h

theorem irq_idle {s : SwmSdioDevice} (hphase : s.phase = .idle) (hposts : s.Posts) :
    ∃ pending, s.irq = { s with
      regs := { s.regs with pending := pending }
      event := s.event ++ s.regs.pending.map fun f => ⟨f, s.issued⟩ } := by
  have hmap : (s.regs.pending.map fun f => (⟨f, s.issued⟩ : Posted)).map Posted.flag ≠ [] := fun h =>
    hposts.pending_ne_nil (List.map_eq_nil_iff.mp (List.map_eq_nil_iff.mp h))
  cases hproc : swmSdioIrqProcess s.phase.pkg s.regs.pending with
  | mk pending complete =>
      have hcomplete : complete = true := by rwa [Posts, hproc] at hposts
      subst hcomplete
      refine ⟨pending, ?_⟩
      rw [irq, hproc]
      simp only [if_true, hphase, rtEventSend, if_neg (word_ne_zero hmap), Bool.false_eq_true, if_false]

/-- What an interrupt posts while no command is sent completes the next command, whatever it is. -/
theorem late_post_completes_next [Errno] {s : SwmSdioDevice} (hphase : s.phase = .idle) (hposts : s.Posts)
    (cmd : RtMmcsdCmd) : ∃ t status, Run.run step s [.irq, .save cmd, .issue, .recv] = .ok t ∧
      t.phase = .woken cmd status ∧ t.issued = s.issued + 1 ∧ ∃ p ∈ status, p.read = s.issued := by
  obtain ⟨pending, hirq⟩ := irq_idle hphase hposts
  obtain ⟨f, hf⟩ := List.exists_mem_of_ne_nil _ hposts.pending_ne_nil
  have hmem : (⟨f, s.issued⟩ : Posted) ∈
      s.event ++ s.regs.pending.map fun f => (⟨f, s.issued⟩ : Posted) :=
    List.mem_append_right _ (List.mem_map_of_mem hf)
  have hword : word ((s.event ++ s.regs.pending.map fun f => (⟨f, s.issued⟩ : Posted)).map Posted.flag) ≠ 0 :=
    word_ne_zero fun h => absurd (List.map_eq_nil_iff.mp h ▸ hmem) List.not_mem_nil
  have hstep : s.step .irq = .ok s.irq := rfl
  refine ⟨{ s with
    regs := { s.regs with pending := pending }.issue cmd
    event := []
    phase := .woken cmd (s.event ++ s.regs.pending.map fun f => ⟨f, s.issued⟩)
    issued := s.issued + 1 }, _, ?_, rfl, rfl, _, hmem, rfl⟩
  rw [Run.run_cons_of_ok hstep, hirq]
  simp only [Run.run, step, hphase, rtEventRecv, if_pos hword]

end SwmSdioDevice

/-- Commands without data that expect a short response. -/
def selectCard : RtMmcsdCmd := ⟨7, 0, Vector.replicate 4 0, 1, 0, none⟩

def stopTransmission : RtMmcsdCmd := ⟨12, 0, Vector.replicate 4 0, 1, 0, none⟩

def idleDevice : SwmSdioDevice := ⟨⟨0, 0, 0, Vector.replicate 4 0, 0, []⟩, [], .idle, 0, []⟩

section Runs

attribute [local instance] Errno.armlibc

/-- Two commands, each completed by the end of its own. -/
def twoCommands : List Action :=
  [.save selectCard, .issue, .recv, .raise 0 1, .irq, .finish,
    .save stopTransmission, .issue, .recv, .raise 0 2, .irq, .finish]

theorem completions_own_demo : ∃ t, Run.run SwmSdioDevice.step idleDevice twoCommands = .ok t ∧
    t.completed = [⟨1, some [⟨⟨0, 1⟩, 1⟩], selectCard, selectCard⟩,
      ⟨2, some [⟨⟨0, 2⟩, 2⟩], stopTransmission, stopTransmission⟩] ∧ ∀ c ∈ t.completed, c.Own :=
  ⟨_, rfl, rfl, SwmSdioDevice.completions_own (s := idleDevice) ⟨rfl, rfl, rfl⟩ (w := twoCommands)
    (by decide) rfl⟩

/-- The end of a transfer of the first command, which has timed out, completes the second one. -/
theorem stale_completion : ∃ t, Run.run SwmSdioDevice.step idleDevice
    [.save selectCard, .issue, .recv, .timeout, .finish, .raise 1 1, .irq,
      .save selectCard, .issue, .recv, .finish] = .ok t ∧
    ⟨2, some [⟨⟨1, 1⟩, 1⟩], selectCard, selectCard⟩ ∈ t.completed ∧ ¬∀ c ∈ t.completed, c.Own := by
  refine ⟨_, rfl, by decide, fun h => ?_⟩
  have hown := h ⟨2, some [⟨⟨1, 1⟩, 1⟩], selectCard, selectCard⟩ (by decide) _ rfl ⟨⟨1, 1⟩, 1⟩ (by decide)
  exact absurd hown.1 (by decide)

end Runs

end SwmLvgl.Sdio
