import Mathlib.Data.List.Perm.Basic
import SwmLvgl.AppSpec

/-! What a console command asks for and what the execution of its request does. The two agree unless
the typed integer is outside `0 .. LV_PM_PAGE_NUM` and only its low byte passes the checks, or a
positive multiple of 2^16 animations is running, which `lv_anim_count_running` returns as 0. -/

namespace SwmLvgl.App

open Pm (Fault LvPmOpenOptions Mem State lvPmPageNum)

namespace Shell

/-- The number of running animations. -/
def running (sh : Shell) : Nat := sh.pm.ui.anims.entries.length + sh.foreign

/-- The id on top of the history, as a number. -/
def topId (sh : Shell) : Option Int := sh.pm.top.map fun id => (id.toNat : Int)

end Shell

namespace Command

/-- The call of the page manager that a command asks for when its request is executed. -/
def asks (sh : Shell) : Command → Option PmCall
  | .pmOpen n =>
      if 0 ≤ n ∧ n < lvPmPageNum ∧ sh.topId ≠ some n ∧ sh.running = 0 then
        some (.openPage (UInt8.ofNat n.toNat))
      else none
  | .pmBack => if 2 ≤ sh.pm.stack.length ∧ sh.running = 0 then some .back else none

/-- The execution of a command's request from `sh` to `t` does what the command asks: it makes that
call and no other, and a page it opens has the id that was typed. -/
structure Served (command : Command) (mem : Mem) (sh t : Shell) : Prop where
  call :
    match command.asks sh with
    | some call => call.perform sh.options mem sh.pm = .ok t.pm ∧ t.calls = sh.calls ++ [call]
    | none => t.pm = sh.pm ∧ t.calls = sh.calls
  typed : ∀ id, t.calls = sh.calls ++ [PmCall.openPage id] → command = .pmOpen id.toNat

/-- The condition under which the request of a command does what the command asks. -/
def Fits (sh : Shell) : Command → Prop
  | .pmOpen n =>
      n % 256 < lvPmPageNum → sh.topId ≠ some (n % 256) → sh.running % 2 ^ 16 = 0 →
        0 ≤ n ∧ n < lvPmPageNum ∧ sh.running = 0
  | .pmBack => 2 ≤ sh.pm.stack.length → sh.running % 2 ^ 16 = 0 → sh.running = 0

end Command

/-- The condition on a step: the request it executes fits its command. -/
def RequestFits (sh : Shell) : ShellAction → Prop
  | .execute k _ => ∀ q, sh.queue[k]? = some q → q.command.Fits sh
  | _ => True

namespace Shell

theorem count_eq_zero_iff {sh : Shell} : sh.lvAnimCountRunning = 0 ↔ sh.running % 2 ^ 16 = 0 := by
  rw [lvAnimCountRunning, ← UInt16.toNat_inj, UInt16.toNat_ofNat']
  rfl

theorem topId_eq_some {sh : Shell} {n : Int} {id : UInt8} (h : (id.toNat : Int) = n) :
    sh.topId = some n ↔ sh.pm.top = some id := by
  rw [topId, Option.map_eq_some_iff]
  constructor
  · rintro ⟨x, hx, hxn⟩
    have : x = id := UInt8.toNat_inj.mp (by omega)
    rw [hx, this]
  · exact fun htop => ⟨id, htop, h⟩

theorem toNat_ofInt (n : Int) : ((UInt8.ofInt n).toNat : Int) = n % 256 := by
  rw [UInt8.ofInt, UInt8.toNat_ofNat']
  omega

theorem mod_eq {n : Int} (hn : 0 ≤ n) (hn' : n < lvPmPageNum) : n % 256 = n := by
  have : lvPmPageNum = 10 := rfl
  omega

theorem allows_open_iff {sh : Shell} {n : Int} :
    sh.Allows (request (.pmOpen n)) ↔
      n % 256 < lvPmPageNum ∧ sh.topId ≠ some (n % 256) ∧ sh.running % 2 ^ 16 = 0 := by
  have hn := toNat_ofInt n
  rw [Ne, topId_eq_some hn, ← count_eq_zero_iff, ← hn]
  exact and_congr_left' (Int.ofNat_lt).symm

theorem allows_back_iff {sh : Shell} :
    sh.Allows (request .pmBack) ↔ 2 ≤ sh.pm.stack.length ∧ sh.running % 2 ^ 16 = 0 := by
  rw [← count_eq_zero_iff]
  rfl

end Shell

namespace Command

/-- A request that passes the checks and fits makes the call its command asks for. -/
theorem asks_of_allows {sh : Shell} {command : Command} (h : sh.Allows (Shell.request command))
    (hfits : command.Fits sh) : command.asks sh = some (Shell.request command).call := by
  cases command with
  | pmBack =>
      obtain ⟨hlen, hcount⟩ := Shell.allows_back_iff.mp h
      exact if_pos ⟨hlen, hfits hlen hcount⟩
  | pmOpen n =>
      obtain ⟨hid, htop, hcount⟩ := Shell.allows_open_iff.mp h
      obtain ⟨hn, hn', hrun⟩ := hfits hid htop hcount
      have hmod : n % 256 = n := Shell.mod_eq hn hn'
      rw [hmod] at htop
      -- narrowing does not change an integer in the range
      have hid' : UInt8.ofNat n.toNat = UInt8.ofInt n := by
        apply UInt8.toNat_inj.mp
        have := Shell.toNat_ofInt n
        rw [UInt8.toNat_ofNat']
        omega
      rw [asks, if_pos ⟨hn, hn', htop, hrun⟩, hid']
      rfl

/-- A command whose request does not pass the checks asks for nothing. -/
theorem asks_of_not_allows {sh : Shell} {command : Command}
    (h : ¬sh.Allows (Shell.request command)) : command.asks sh = none := by
  cases command with
  | pmBack =>
      rw [asks, if_neg]
      intro hasks
      refine h (Shell.allows_back_iff.mpr ⟨hasks.1, ?_⟩)
      rw [hasks.2, Nat.zero_mod]
  | pmOpen n =>
      refine if_neg fun hasks => h (Shell.allows_open_iff.mpr ?_)
      obtain ⟨hn, hn', htop, hrun⟩ := hasks
      have hmod : n % 256 = n := Shell.mod_eq hn hn'
      rw [hmod, hrun]
      exact ⟨hn', htop, rfl⟩

/-- A request that does not fit passes the checks and makes a call its command does not ask for. -/
theorem asks_of_not_fits {sh : Shell} {command : Command} (h : ¬command.Fits sh) :
    sh.Allows (Shell.request command) ∧ command.asks sh = none := by
  cases command with
  | pmBack =>
      simp only [Fits, Classical.not_imp] at h
      obtain ⟨hlen, hcount, hrun⟩ := h
      exact ⟨Shell.allows_back_iff.mpr ⟨hlen, hcount⟩, if_neg fun hasks => hrun hasks.2⟩
  | pmOpen n =>
      simp only [Fits, Classical.not_imp] at h
      obtain ⟨hid, htop, hcount, hbad⟩ := h
      exact ⟨Shell.allows_open_iff.mpr ⟨hid, htop, hcount⟩,
        if_neg fun hasks => hbad ⟨hasks.1, hasks.2.1, hasks.2.2.2⟩⟩

end Command

/-- A request does what its command asks exactly if it fits. -/
theorem Ran.served_iff {sh t : Shell} {command : Command} {mem : Mem}
    (h : Ran sh (Shell.request command) mem t) : command.Served mem sh t ↔ command.Fits sh := by
  constructor
  · intro hserved
    by_contra hfits
    obtain ⟨hallows, hasks⟩ := Command.asks_of_not_fits hfits
    have hcall := hserved.call
    rw [hasks] at hcall
    cases h with
    | refused text h => exact h hallows
    | called text h hperform => exact absurd hcall.2 (by simp [Shell.rtKprintf])
  · intro hfits
    cases h with
    | refused text h =>
        refine ⟨?_, fun id hid => absurd hid (by simp [Shell.rtKprintf])⟩
        rw [Command.asks_of_not_allows h]
        exact ⟨rfl, rfl⟩
    | called text h hperform =>
        refine ⟨?_, fun id hid => ?_⟩
        · rw [Command.asks_of_allows h hfits]
          exact ⟨hperform, rfl⟩
        · have hcall : (Shell.request command).call = .openPage id := by
            simpa [Shell.rtKprintf] using hid
          cases command with
          | pmBack => cases hcall
          | pmOpen n =>
              obtain ⟨hid', htop, hcount⟩ := Shell.allows_open_iff.mp h
              obtain ⟨hn, hn', -⟩ := hfits hid' htop hcount
              have hmod : n % 256 = n := Shell.mod_eq hn hn'
              cases hcall
              exact congrArg Command.pmOpen ((Shell.toNat_ofInt n).trans hmod).symm

/-! ### The queue and the heap -/

/-- What holds between two steps: each request in the queue is the one its command built, and the
blocks executed and the blocks in the queue are different blocks, of which the executed ones have been
freed. -/
structure QueueOk (sh : Shell) : Prop where
  ready : sh.pm.Ready
  request : ∀ q ∈ sh.queue, q.req = Shell.request q.command
  freed : sh.freed = sh.executed
  once : (sh.executed ++ sh.queue.map Queued.block).Nodup
  old : ∀ b ∈ sh.executed ++ sh.queue.map Queued.block, b < sh.nextBlock

/-- Before the first command. -/
structure Shell.Fresh (sh : Shell) : Prop where
  ready : sh.pm.Ready
  queue : sh.queue = []
  executed : sh.executed = []
  freed : sh.freed = []

theorem Shell.Fresh.queueOk {sh : Shell} (h : sh.Fresh) : QueueOk sh := by
  refine ⟨h.ready, ?_, h.freed.trans h.executed.symm, ?_, ?_⟩ <;> simp [h.queue, h.executed]

/-- A request changes neither the queue nor the blocks. -/
theorem Ran.frame {sh t : Shell} {req : PmAsyncReq} {mem : Mem} (h : Ran sh req mem t) :
    t.queue = sh.queue ∧ t.nextBlock = sh.nextBlock ∧ t.executed = sh.executed ∧
      t.freed = sh.freed := by
  cases h <;> exact ⟨rfl, rfl, rfl, rfl⟩

theorem QueueOk.command {sh : Shell} (hs : QueueOk sh) (command : Command) (alloc async : Bool) :
    QueueOk (sh.cmd command alloc async) := by
  have hold : ∀ b ∈ sh.executed ++ sh.queue.map Queued.block, b < sh.nextBlock + 1 :=
    fun b hb => (hs.old b hb).trans (Nat.lt_succ_self _)
  cases alloc with
  | false => exact ⟨hs.ready, hs.request, hs.freed, hs.once, hs.old⟩
  | true =>
      cases async with
      | false => exact ⟨hs.ready, hs.request, hs.freed, hs.once, hold⟩
      | true =>
          have hblocks : sh.executed ++
              (sh.queue ++ [Queued.mk sh.nextBlock (Shell.request command) command]).map Queued.block =
              sh.executed ++ sh.queue.map Queued.block ++ [sh.nextBlock] := by
            rw [List.map_append, ← List.append_assoc]
            rfl
          refine ⟨hs.ready, fun q hq => ?_, hs.freed, ?_, fun b hb => ?_⟩
          · rcases List.mem_append.mp hq with hq | hq
            · exact hs.request q hq
            · rw [List.mem_singleton.mp hq]
          · show (sh.executed ++ (sh.queue ++ [_]).map Queued.block).Nodup
            rw [hblocks, ← List.concat_eq_append]
            exact hs.once.concat fun hmem => lt_irrefl _ (hs.old _ hmem)
          · change b ∈ sh.executed ++ (sh.queue ++ [_]).map Queued.block at hb
            rw [hblocks] at hb
            rcases List.mem_append.mp hb with hb | hb
            · exact hold b hb
            · rw [List.mem_singleton.mp hb]
              exact Nat.lt_succ_self _

theorem QueueOk.step {sh t : Shell} (hs : QueueOk sh) {a : ShellAction} (h : ShellTo sh a t)
    (ht : t.pm.Ready) : QueueOk t := by
  cases h with
  | command command alloc async => exact hs.command command alloc async
  | usage => exact ⟨ht, hs.request, hs.freed, hs.once, hs.old⟩
  | foreign n => exact ⟨ht, hs.request, hs.freed, hs.once, hs.old⟩
  | noRequest _ => exact hs
  | noClick => exact hs
  | lvgl a => exact ⟨ht, hs.request, hs.freed, hs.once, hs.old⟩
  | clicked hlive hcb hopen => exact ⟨ht, hs.request, hs.freed, hs.once, hs.old⟩
  | @executed k mem q t hq hran =>
      obtain ⟨hqueue, hnext, hexecuted, hfreed⟩ := hran.frame
      obtain ⟨hk, rfl⟩ := List.getElem?_eq_some_iff.mp hq
      -- the request goes from the queue to the end of those executed
      have hperm : (t.executed ++ [sh.queue[k].block] ++ t.queue.map Queued.block).Perm
          (sh.executed ++ sh.queue.map Queued.block) := by
        rw [hexecuted, hqueue, List.append_assoc]
        exact ((List.getElem_cons_eraseIdx_perm hk).map Queued.block).append_left _
      refine ⟨ht, fun q hq => hs.request q ?_, ?_, hperm.nodup_iff.mpr hs.once, fun b hb => ?_⟩
      · change q ∈ t.queue at hq
        rw [hqueue] at hq
        exact List.mem_of_mem_eraseIdx hq
      · show t.freed ++ _ = t.executed ++ _
        rw [hfreed, hexecuted]
        exact congrArg (· ++ _) hs.freed
      · show b < t.nextBlock
        rw [hnext]
        exact hs.old b (hperm.mem_iff.mp hb)

theorem queueOk_total {sh : Shell} (hs : QueueOk sh) (a : ShellAction) :
    ∃ t, shellStep sh a = .ok t ∧ ShellTo sh a t ∧ QueueOk t := by
  obtain ⟨t, ht, hto, hready⟩ := shellStep_total hs.ready a
  exact ⟨t, ht, hto, hs.step hto hready⟩

theorem queueOk_step {sh t : Shell} (hs : QueueOk sh) {a : ShellAction}
    (h : shellStep sh a = .ok t) : ShellTo sh a t ∧ QueueOk t :=
  Run.of_exists_ok (queueOk_total hs a) h

/-- Every request executed has been freed once, and none that waits has been freed. -/
def FreedOnce (sh : Shell) : Prop :=
  sh.freed = sh.executed ∧ sh.freed.Nodup ∧ ∀ q ∈ sh.queue, q.block ∉ sh.freed

theorem QueueOk.freedOnce {sh : Shell} (h : QueueOk sh) : FreedOnce sh := by
  obtain ⟨hnodup, -, hdisjoint⟩ := List.nodup_append.mp h.once
  rw [FreedOnce, h.freed]
  exact ⟨rfl, hnodup, fun q hq hmem =>
    hdisjoint q.block hmem q.block (List.mem_map_of_mem hq) rfl⟩

/-- Every request executed along the run does what its command asks. -/
def RequestsServed (sh : Shell) (w : List ShellAction) : Prop :=
  ∀ p k mem q t u, p ++ [.execute k mem] <+: w → Run.run shellStep sh p = .ok t →
    t.queue[k]? = some q → shellStep t (.execute k mem) = .ok u → q.command.Served mem t u

theorem served_iff_fits {sh t : Shell} (hs : QueueOk sh) {k : Nat} {mem : Mem} {q : Queued}
    (hq : sh.queue[k]? = some q) (h : shellStep sh (.execute k mem) = .ok t) :
    q.command.Served mem sh t ↔ q.command.Fits sh := by
  obtain ⟨hto, -⟩ := queueOk_step hs h
  cases hto with
  | noRequest hnone =>
      rw [hnone] at hq
      cases hq
  | @executed _ _ q' t hq' hran =>
      rw [hq] at hq'
      cases hq'
      rw [hs.request q (List.mem_of_getElem? hq)] at hran
      have hiff := hran.served_iff
      exact ⟨fun hserved => hiff.mp ⟨hserved.call, hserved.typed⟩,
        fun hfits => ⟨(hiff.mpr hfits).call, (hiff.mpr hfits).typed⟩⟩

/-- From any start, every sequence of commands, executions, clicks and steps of LVGL runs without a
fault and frees each request executed once; and the requests executed do what their commands ask if
and only if each of them fits. -/
theorem requests_exact {sh : Shell} (hs : sh.Fresh) (w : List ShellAction) :
    (∃ t, Run.run shellStep sh w = .ok t) ∧
      (∀ p t, p <+: w → Run.run shellStep sh p = .ok t → FreedOnce t) ∧
      (RequestsServed sh w ↔ Run.AllSteps shellStep RequestFits sh w) := by
  have hkeep : ∀ s a t, QueueOk s → shellStep s a = .ok t → QueueOk t :=
    fun s a t hs h => (queueOk_step hs h).2
  refine ⟨?_, fun p t _ ht => (Run.run_invariant hkeep hs.queueOk ht).freedOnce, ?_⟩
  · have hstep : ∀ s a, QueueOk s → ∃ t, shellStep s a = .ok t ∧ QueueOk t := fun s a hs =>
      (queueOk_total hs a).imp fun t ht => ⟨ht.1, ht.2.2⟩
    exact (Run.run_total hstep hs.queueOk w).imp fun t ht => ht.1
  · rw [Run.allSteps_iff_prefix]
    constructor
    · intro h p a t hp ht
      cases a with
      | execute k mem =>
          intro q hq
          have ht' := Run.run_invariant hkeep hs.queueOk ht
          obtain ⟨u, hu, -⟩ := queueOk_total ht' (.execute k mem)
          exact (served_iff_fits ht' hq hu).mp (h p k mem q t u hp ht hq hu)
      | _ => trivial
    · intro h p k mem q t u hp ht hq hu
      exact (served_iff_fits (Run.run_invariant hkeep hs.queueOk ht) hq hu).mpr
        (h p (.execute k mem) t hp ht q hq)

/-- The application on the demonstration display, after its start. -/
def demoShell : Shell :=
  match lvAppStart Pm.demo.disp with
  | .ok sh => sh
  | .error _ => ⟨Pm.boot Pm.demo.disp zeroApp, initOptions, [], 0, 0, [], [], [], []⟩

theorem demoShell_start : lvAppStart Pm.demo.disp = .ok demoShell := rfl

theorem demoShell_fresh : demoShell.Fresh := by
  obtain ⟨s, ret, t, -, -, happ, hready⟩ := lvAppStart_eq Pm.demo.disp
  rw [demoShell_start] at happ
  have hshell : demoShell = _ := Except.ok.inj happ
  rw [hshell]
  exact ⟨hready, rfl, rfl, rfl⟩

/-- On page 0, `pm_open 1` opens page 1. -/
theorem requests_exact_demo :
    RequestsServed demoShell [.command (.pmOpen 1) true true, .execute 0 ⟨true, true⟩] := by
  refine (requests_exact demoShell_fresh _).2.2.mpr ⟨trivial, fun q hq => ?_, trivial⟩
  cases hq
  exact fun _ _ _ => ⟨by decide, by decide, rfl⟩

/-- On page 0, `pm_open 257` opens page 1. -/
theorem pm_open_257_opens_page1 :
    ∃ sh t, lvAppStart Pm.demo.disp = .ok sh ∧
      Run.run shellStep sh [.command (.pmOpen 257) true true, .execute 0 ⟨true, true⟩] = .ok t ∧
      t.calls = [.openPage 1] ∧
      ¬RequestsServed sh [.command (.pmOpen 257) true true, .execute 0 ⟨true, true⟩] := by
  refine ⟨demoShell, _, demoShell_start, rfl, rfl, fun h => ?_⟩
  have hserved := h [.command (.pmOpen 257) true true] 0 ⟨true, true⟩ _ _ _ (List.prefix_refl _) rfl
    rfl rfl
  -- the command asks for nothing, yet a call is made
  exact absurd hserved.call.2 (by decide)

end SwmLvgl.App
