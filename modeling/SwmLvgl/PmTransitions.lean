import SwmLvgl.PmSettle

/-! What becomes of each call of `_pm_anima_appear` and `_pm_anima_disAppear` and of the block it
allocates. Every call completes once and every block is freed, except where the animation kind is not
handled after the allocation, where `lv_anim_start` deletes the animation of an earlier call, and where
it finds no memory for its own. `KeepsCalls` excludes these three; it is exact. -/

namespace SwmLvgl.Pm

variable {ω : Type}

namespace Ui

/-- The blocks that the running animations point to. -/
def runningBlocks (u : Ui ω) : List Nat := u.anims.entries.map fun e => e.2.userData.block

/-- The live blocks are those of the running animations, and each call has completed once or is the
call of one running animation. -/
structure Accounted (u : Ui ω) : Prop where
  live : u.blocks.Perm u.runningBlocks
  once : ∀ c, u.done.count c + u.runningBlocks.count c = if c < u.calls then 1 else 0

theorem length_runningBlocks (u : Ui ω) : u.runningBlocks.length = u.running := by
  simp [runningBlocks, running]

/-- An animation that runs is one entry of the list, next to those left when it is deleted. -/
theorem entries_perm_erase {anims : AList fun _ : AnimKey => LvAnim} {key : AnimKey} {a : LvAnim}
    (h : anims.lookup key = some a) : anims.entries.Perm (⟨key, a⟩ :: (anims.erase key).entries) := by
  have hmem : key ∈ anims.entries.keys := by
    rw [← AList.keys, ← AList.mem_keys, ← AList.lookup_isSome, h]
    rfl
  obtain ⟨b, l₁, l₂, -, hentries, herase⟩ := List.exists_of_kerase hmem
  have hb : anims.lookup key = some b :=
    AList.mem_lookup_iff.mpr (by rw [hentries]; exact List.mem_append_right _ List.mem_cons_self)
  rw [h] at hb
  cases hb
  rw [show (anims.erase key).entries = l₁ ++ l₂ from herase, hentries]
  exact List.perm_middle

theorem Accounted.congr {u v : Ui ω} (h : u.Accounted) (hanims : v.anims = u.anims)
    (hblocks : v.blocks = u.blocks) (hcalls : v.calls = u.calls) (hdone : v.done = u.done) :
    v.Accounted := by
  have hrunning : v.runningBlocks = u.runningBlocks := by rw [runningBlocks, hanims]; rfl
  refine ⟨?_, fun c => ?_⟩
  · rw [hblocks, hrunning]
    exact h.live
  · rw [hdone, hrunning, hcalls]
    exact h.once c

/-- The call allocates a block that it neither frees nor hands to an animation, or asks for an animation
that does not start or that deletes one which is running. -/
def Drops (u : Ui ω) (p : Addr) (animation : LvPmPageAnima) (malloc node : Bool) : Prop :=
  (animation = .slideScale ∧ malloc) ∨
    ∃ ax, startedAxis animation malloc = some ax ∧
      (node = false ∨ (u.anims.lookup (p, ax)).isSome)

section Transit

variable (u : Ui ω) (start stop : ExecCb → Int) (p : Addr) (behavior : LvPmOpenOptions)
  (cb : CompleteCb) (malloc node : Bool)

theorem anims_transit :
    (u.transit start stop p behavior cb malloc node).anims =
      match startedAxis behavior.animation malloc with
      | none => u.anims
      | some ax =>
          if node then (u.anims.erase (p, ax)).insert (p, ax)
            ⟨start ax, stop ax, ⟨p, cb, behavior, u.calls⟩⟩
          else u.anims.erase (p, ax) := by
  unfold transit
  cases startedAxis behavior.animation malloc with
  | none => exact complete_anims (u.openCall behavior.animation malloc) _ _ _ _
  | some ax =>
      cases node with
      | false => cases ax <;> rfl
      | true =>
          simp only [lvAnimStart, anims_exec, lvAnimDel]
          cases ax <;> rfl

/-- An animation that does not start is not in the list, nor is the one deleted for it. -/
theorem isSome_lookup_transit (key : AnimKey) :
    ((u.transit start stop p behavior cb malloc node).anims.lookup key).isSome =
      if key.1 = p ∧ startedAxis behavior.animation malloc = some key.2 then node
      else (u.anims.lookup key).isSome := by
  obtain ⟨q, ax'⟩ := key
  rw [anims_transit]
  cases startedAxis behavior.animation malloc with
  | none => simp
  | some ax =>
      by_cases h : q = p ∧ ax = ax'
      · obtain ⟨rfl, rfl⟩ := h
        cases node <;> simp
      · have hne : (q, ax') ≠ (p, ax) := fun h' =>
          h ⟨congrArg Prod.fst h', (congrArg Prod.snd h').symm⟩
        cases node <;> simp [h, AList.lookup_insert_ne hne, AList.lookup_erase_ne hne]

theorem blocks_openCall (a : LvPmPageAnima) :
    (u.openCall a malloc).blocks =
      if (startedAxis a malloc).isSome ∨ (a = .slideScale ∧ malloc) then u.calls :: u.blocks
      else u.blocks := by
  cases a <;> cases malloc <;> simp [openCall, startedAxis]

/-- A call that drops something leaves more live blocks than running animations. -/
theorem length_transit :
    (u.transit start stop p behavior cb malloc node).blocks.length + u.running ≥
      u.blocks.length + (u.transit start stop p behavior cb malloc node).running ∧
    (u.Drops p behavior.animation malloc node →
      (u.transit start stop p behavior cb malloc node).blocks.length + u.running >
        u.blocks.length + (u.transit start stop p behavior cb malloc node).running) := by
  obtain ⟨-, hblocks, -⟩ := ledger_transit u start stop p behavior cb malloc node
  have hanims := anims_transit u start stop p behavior cb malloc node
  rw [blocks_openCall] at hblocks
  unfold running
  cases hax : startedAxis behavior.animation malloc with
  | none =>
      simp only [hax, Option.isSome_none, Bool.false_eq_true, false_or] at hblocks hanims
      rw [hanims, hblocks]
      constructor
      · split <;> simp
      · rintro (hscale | ⟨ax, hax', -⟩)
        · rw [if_pos hscale]
          simp
        · cases hax.symm.trans hax'
  | some ax =>
      simp only [hax, Option.isSome_some, true_or, if_true] at hblocks hanims
      have hle : (u.anims.erase (p, ax)).entries.length ≤ u.anims.entries.length :=
        (List.kerase_sublist _ _).length_le
      rw [hblocks, List.length_cons, hanims]
      cases node with
      | false =>
          -- the block is live, and no animation has been added
          simp only [Bool.false_eq_true, if_false]
          exact ⟨by omega, fun _ => by omega⟩
      | true =>
          have hnew : (p, ax) ∉ u.anims.erase (p, ax) := by
            rw [AList.mem_erase]
            exact fun h => h.1 rfl
          rw [if_pos rfl, AList.entries_insert_of_notMem hnew, List.length_cons]
          refine ⟨by omega, ?_⟩
          rintro (⟨hscale, -⟩ | ⟨ax', hax', hsome⟩)
          · simp [startedAxis, hscale] at hax
          · obtain rfl : ax = ax' := Option.some.inj (hax.symm.trans hax')
            obtain ⟨a, ha⟩ := Option.isSome_iff_exists.mp (hsome.resolve_left (by simp))
            have := (entries_perm_erase ha).length_eq
            rw [List.length_cons] at this
            omega

variable {u start stop p behavior cb malloc node}

/-- A call that drops nothing keeps the account. -/
theorem Accounted.transit (h : u.Accounted) (hdrop : ¬u.Drops p behavior.animation malloc node) :
    (u.transit start stop p behavior cb malloc node).Accounted := by
  obtain ⟨hcalls, hblocks, hdone⟩ := ledger_transit u start stop p behavior cb malloc node
  have hanims := anims_transit u start stop p behavior cb malloc node
  have hscale : ¬(behavior.animation = .slideScale ∧ malloc) := fun h => hdrop (Or.inl h)
  rw [blocks_openCall] at hblocks
  cases hax : startedAxis behavior.animation malloc with
  | none =>
      -- the call completes at once
      simp only [hax, Option.isSome_none, Bool.false_eq_true, false_or, if_neg hscale, if_true]
        at hblocks hdone hanims
      have hrunning : (u.transit start stop p behavior cb malloc node).runningBlocks =
          u.runningBlocks := by
        rw [runningBlocks, hanims]
        rfl
      refine ⟨by rw [hblocks, hrunning]; exact h.live, fun c => ?_⟩
      have hc := h.once c
      simp only [hdone, hrunning, hcalls, List.count_append, List.count_singleton, beq_iff_eq]
      split_ifs at hc ⊢ <;> omega
  | some ax =>
      -- the call starts an animation, and none is deleted for it
      have hkeep : ¬(node = false ∨ (u.anims.lookup (p, ax)).isSome) := fun h =>
        hdrop (Or.inr ⟨ax, hax, h⟩)
      rw [not_or, Bool.not_eq_false, Option.isSome_iff_ne_none, not_not] at hkeep
      obtain ⟨rfl, hnone⟩ := hkeep
      simp only [hax, Option.isSome_some, true_or, if_true, reduceCtorEq, if_false]
        at hblocks hdone hanims
      have hrunning : (u.transit start stop p behavior cb malloc).runningBlocks =
          u.calls :: u.runningBlocks := by
        have herase : (u.anims.erase (p, ax)).entries = u.anims.entries :=
          List.kerase_of_notMem_keys fun hmem =>
            AList.lookup_eq_none.mp hnone (AList.mem_keys.mpr hmem)
        rw [runningBlocks, hanims, AList.entries_insert_of_notMem, herase]
        · rfl
        · rw [AList.mem_erase]
          exact fun h => h.1 rfl
      refine ⟨by rw [hblocks, hrunning]; exact h.live.cons _, fun c => ?_⟩
      have hc := h.once c
      simp only [hdone, hrunning, hcalls, List.count_cons, beq_iff_eq]
      split_ifs at hc ⊢ <;> omega

end Transit

/-! ### Transitions and steps of LVGL -/

section Halves

variable {u v u₁ u₂ u₃ : Ui ω} {m : Move} {nodes : AnimNodes}

/-- Whether the second call of a transition drops something, in the state before the transition, if the
first drops nothing. -/
theorem drops_second (h : u.Halves m v u₁ u₂ u₃ nodes)
    (hfirst : ∀ q, m.away = some q →
      ¬u₁.Drops q m.options.animation m.mem.disAppear nodes.disAppear) :
    u₃.Drops m.page m.options.animation m.mem.appear nodes.appear ↔
      (m.options.animation = .slideScale ∧ m.mem.appear) ∨
        ∃ ax, m.appearing = some ax ∧ (nodes.appear = false ∨ (u.anims.lookup (m.page, ax)).isSome ∨
          (m.away = some m.page ∧ m.leaving = some ax)) := by
  have hlookup : ∀ ax, (u₃.anims.lookup (m.page, ax)).isSome ↔
      (u.anims.lookup (m.page, ax)).isSome ∨ (m.away = some m.page ∧ m.leaving = some ax) := by
    intro ax
    rw [show u₃.anims = u₂.anims from h.shown.anims]
    have hleave := h.leave
    cases haway : m.away with
    | none =>
        simp only [haway] at hleave
        rw [hleave, h.before.anims]
        simp
    | some q =>
        simp only [haway] at hleave
        rw [hleave, isSome_lookup_transit, h.before.anims, ← Move.leaving]
        simp only [Option.some.injEq, @eq_comm _ q]
        by_cases hax : m.page = q ∧ m.leaving = some ax
        · have hnode : nodes.disAppear = true := by
            by_contra hnot
            exact hfirst q haway (Or.inr ⟨ax, hax.2, Or.inl (Bool.eq_false_iff.mpr hnot)⟩)
          simp [hax, hnode]
        · simp [hax]
  unfold Drops Move.appearing
  simp only [hlookup]

theorem drops_first (h : u.Halves m v u₁ u₂ u₃ nodes) (q : Addr) (animation : LvPmPageAnima)
    (malloc node : Bool) : u₁.Drops q animation malloc node ↔ u.Drops q animation malloc node := by
  unfold Drops
  rw [h.before.anims]

end Halves

end Ui

/-- Neither call of the transition drops anything: the animation kind is handled or nothing was
allocated, each animation asked for starts, and none has the page and the axis of one that runs. -/
def KeepsCalls (s : State ω) (m : Move) (nodes : AnimNodes) : Prop :=
  (∀ q ∈ m.away, ¬(m.options.animation = .slideScale ∧ m.mem.disAppear) ∧
    ∀ ax ∈ m.leaving, nodes.disAppear ∧ s.ui.anims.lookup (q, ax) = none) ∧
  ¬(m.options.animation = .slideScale ∧ m.mem.appear) ∧
  ∀ ax ∈ m.appearing, nodes.appear ∧ s.ui.anims.lookup (m.page, ax) = none ∧
    ¬(m.away = some m.page ∧ m.leaving = some ax)

instance (s : State ω) (m : Move) (nodes : AnimNodes) : Decidable (KeepsCalls s m nodes) :=
  inferInstanceAs (Decidable ((∀ q ∈ m.away, _ ∧ ∀ ax ∈ m.leaving, _) ∧ _ ∧ ∀ ax ∈ m.appearing, _))

/-- The transition that the action makes, if any, keeps its calls. -/
def StepKeepsCalls (s : State ω) (a : Action × AnimNodes) : Prop :=
  MoveMeets (KeepsCalls · · a.2) s a.1

instance (s : State ω) (a : Action × AnimNodes) : Decidable (StepKeepsCalls s a) :=
  inferInstanceAs (Decidable (MoveMeets _ s a.1))

namespace Ui

section Halves

variable {nodes : AnimNodes}

theorem keepsCalls_iff {s : State ω} {v u₁ u₂ u₃ : Ui ω} {m : Move}
    (h : s.ui.Halves m v u₁ u₂ u₃ nodes) :
    KeepsCalls s m nodes ↔
      (∀ q, m.away = some q → ¬u₁.Drops q m.options.animation m.mem.disAppear nodes.disAppear) ∧
        ¬u₃.Drops m.page m.options.animation m.mem.appear nodes.appear := by
  have hfirst : ∀ q, ¬u₁.Drops q m.options.animation m.mem.disAppear nodes.disAppear ↔
      ¬(m.options.animation = .slideScale ∧ m.mem.disAppear) ∧
        ∀ ax ∈ m.leaving, nodes.disAppear ∧ s.ui.anims.lookup (q, ax) = none := by
    intro q
    rw [drops_first h, Drops, not_or]
    simp [Move.leaving]
  have hall : (∀ q ∈ m.away, ¬(m.options.animation = .slideScale ∧ m.mem.disAppear) ∧
      ∀ ax ∈ m.leaving, nodes.disAppear ∧ s.ui.anims.lookup (q, ax) = none) ↔
        ∀ q, m.away = some q →
          ¬u₁.Drops q m.options.animation m.mem.disAppear nodes.disAppear := by
    simp only [hfirst]
    simp
  rw [KeepsCalls, hall]
  refine and_congr_right fun hkeep => ?_
  rw [drops_second h hkeep, not_or]
  simp

/-- The half in which a page is sent away: it keeps the account if it drops nothing. -/
theorem Halves.accounted {u v u₁ u₂ u₃ : Ui ω} {m : Move} (hh : u.Halves m v u₁ u₂ u₃ nodes)
    (h₁ : u₁.Accounted) :
    ((∀ q, m.away = some q → ¬u₁.Drops q m.options.animation m.mem.disAppear nodes.disAppear) →
      u₂.Accounted) ∧
      u₂.running ≤ u₂.blocks.length ∧
      (¬(∀ q, m.away = some q → ¬u₁.Drops q m.options.animation m.mem.disAppear nodes.disAppear) →
        u₂.running < u₂.blocks.length) := by
  have hbalance : u₁.blocks.length = u₁.running := by
    rw [h₁.live.length_eq, length_runningBlocks]
  have hleave := hh.leave
  cases haway : m.away with
  | none =>
      simp only [haway] at hleave
      rw [hleave]
      exact ⟨fun _ => h₁, hbalance.ge, fun h => absurd (fun q hq => by cases hq) h⟩
  | some q =>
      simp only [haway] at hleave
      obtain ⟨hge, hgt⟩ := length_transit u₁ (disAppearStart m.back)
        (disAppearEnd u.disp m.back) q m.options m.disAppearCb m.mem.disAppear nodes.disAppear
      rw [hleave]
      refine ⟨fun h => h₁.transit (h q rfl), by omega, fun h => ?_⟩
      have hdrop : u₁.Drops q m.options.animation m.mem.disAppear nodes.disAppear := by
        by_contra hnot
        exact h fun x hx => by
          cases hx
          exact hnot
      have := hgt hdrop
      omega

/-- A transition keeps the account if it drops nothing, and leaves more live blocks than running
animations if it does. -/
theorem accounted_moved {s : State ω} {v : Ui ω} {m : Move} (h : s.ui.Moved m v nodes)
    (hs : s.ui.Accounted) :
    (KeepsCalls s m nodes → v.Accounted) ∧
      (¬KeepsCalls s m nodes → v.running < v.blocks.length) := by
  obtain ⟨u₁, u₂, u₃, hh⟩ := h.halves
  have h₁ : u₁.Accounted := hs.congr hh.before.anims hh.before.blocks hh.before.calls hh.before.done
  have hshown : u₃.running = u₂.running ∧ u₃.blocks = u₂.blocks :=
    ⟨by rw [running, hh.shown.anims]; rfl, hh.shown.blocks⟩
  obtain ⟨hacc, hle, hlt⟩ := hh.accounted h₁
  obtain ⟨hge, hgt⟩ := length_transit u₃ (appearStart s.ui.disp m.back) (appearEnd m.back) m.page
    m.options m.appearCb m.mem.appear nodes.appear
  rw [← hh.appear, hshown.1, hshown.2] at hge hgt
  rw [keepsCalls_iff hh]
  constructor
  · rintro ⟨hfirst, hsecond⟩
    rw [hh.appear]
    refine Accounted.transit ?_ hsecond
    exact (hacc hfirst).congr hh.shown.anims hh.shown.blocks hh.shown.calls hh.shown.done
  · intro hnot
    by_cases hfirst : ∀ q, m.away = some q →
        ¬u₁.Drops q m.options.animation m.mem.disAppear nodes.disAppear
    · have := hgt (by by_contra hsecond; exact hnot ⟨hfirst, hsecond⟩)
      omega
    · have := hlt hfirst
      omega

end Halves

/-- The end of an animation frees its block and counts its call as done. -/
theorem Accounted.animReady {u : Ui ω} (h : u.Accounted) (key : AnimKey) :
    (u.animReady key).Accounted := by
  cases hlook : u.anims.lookup key with
  | none => rwa [animReady_of_none hlook]
  | some a =>
      have hperm : u.runningBlocks.Perm (a.userData.block :: (u.animReady key).runningBlocks) := by
        rw [runningBlocks, runningBlocks, anims_animReady]
        exact (entries_perm_erase hlook).map _
      obtain ⟨hcalls, hblocks, hdone⟩ := ledger_complete ((u.exec key a.endValue).lvAnimDel key)
        a.userData.block a.userData.cb a.userData.pmPage a.userData.options
      have hexec : (u.exec key a.endValue).calls = u.calls ∧
          (u.exec key a.endValue).blocks = u.blocks ∧ (u.exec key a.endValue).done = u.done := by
        unfold exec
        split <;> exact ⟨rfl, rfl, rfl⟩
      have hcalls' : (u.animReady key).calls = u.calls := by
        rw [animReady_of_lookup hlook]
        exact hcalls.trans hexec.1
      have hblocks' : (u.animReady key).blocks = u.blocks.erase a.userData.block := by
        rw [animReady_of_lookup hlook]
        exact congrArg (·.erase a.userData.block) (hblocks.trans hexec.2.1)
      have hdone' : (u.animReady key).done = u.done ++ [a.userData.block] := by
        rw [animReady_of_lookup hlook]
        exact hdone.trans (congrArg (· ++ [a.userData.block]) hexec.2.2)
      refine ⟨?_, fun c => ?_⟩
      · rw [hblocks']
        have := (h.live.trans hperm).erase a.userData.block
        rwa [List.erase_cons_head] at this
      · calc
          _ = u.done.count c + (a.userData.block :: (u.animReady key).runningBlocks).count c := by
            rw [hdone', List.count_append, List.count_singleton, List.count_cons]
            omega
          _ = u.done.count c + u.runningBlocks.count c := by rw [hperm.count_eq c]
          _ = if c < (u.animReady key).calls then 1 else 0 := by rw [h.once c, hcalls']

theorem Accounted.step {u : Ui ω} (h : u.Accounted) (x : UiAction) : (u.step x).Accounted := by
  cases x with
  | layout p => exact h.congr rfl rfl rfl rfl
  | ready key => exact h.animReady key
  | progress key v =>
      simp only [Ui.step, animProgress]
      split
      · exact h
      · unfold exec
        split <;> exact h.congr rfl rfl rfl rfl

end Ui

/-- The live blocks are as many as the running animations, and once nothing runs each call has
completed exactly once. -/
def CallsComplete (s : State ω) : Prop :=
  s.ui.blocks.length = s.ui.running ∧
    (s.ui.running = 0 → ∀ c < s.ui.calls, s.ui.done.count c = 1)

theorem callsComplete_of_accounted {s : State ω} (h : s.ui.Accounted) : CallsComplete s := by
  refine ⟨by rw [h.live.length_eq, Ui.length_runningBlocks], fun hquiet c hc => ?_⟩
  have hnil : s.ui.runningBlocks = [] := by
    rw [← List.length_eq_zero_iff, Ui.length_runningBlocks, hquiet]
  have := h.once c
  rwa [hnil, List.count_nil, Nat.add_zero, if_pos hc] at this

/-- **Transitions complete exactly once and leak nothing** in every state along a run, in which any
allocation and any `lv_anim_start` may run out of memory, if and only if every step of the run meets
`StepKeepsCalls`. -/
theorem calls_complete_once (c : Setup ω) {s₀ : State ω} (h₀ : c.Starts s₀)
    (w : List (Action × AnimNodes)) :
    (∀ v t, v <+: w → Run.run stepNodes s₀ v = .ok t → CallsComplete t) ↔
      Run.AllSteps stepNodes StepKeepsCalls s₀ w := by
  have hstart := h₀.started
  refine Run.prefixes_iff_allSteps (I := fun s : State ω => s.Ready ∧ s.ui.Accounted)
    (fun s hs => callsComplete_of_accounted hs.2) ?_ ?_ ⟨hstart.ready, ?_, fun c => ?_⟩
  · rintro s ⟨a, nodes⟩ t ⟨hs, hacc⟩ hC ht
    have hto : StepTo s a t nodes := Run.of_exists_ok (stepNodes_total hs a nodes) ht
    refine ⟨hto.ready hs, ?_⟩
    cases hto.moveTo with
    | stays _ => exact hacc
    | lvgl => exact hacc.step _
    | moves hsome hui _ _ _ =>
        simp only [StepKeepsCalls, MoveMeets, hsome] at hC
        exact (Ui.accounted_moved hui hacc).1 hC
  · rintro s ⟨a, nodes⟩ ⟨hs, hacc⟩ hP
    obtain ⟨t, ht, hto⟩ := stepNodes_total hs a nodes
    unfold StepKeepsCalls
    cases hto.moveTo with
    | stays hnone => simp [MoveMeets, hnone]
    | lvgl => simp [MoveMeets, State.moveOf]
    | moves hsome hui _ _ _ =>
        simp only [MoveMeets, hsome]
        by_contra hnot
        have hlt := (Ui.accounted_moved hui hacc).2 hnot
        exact hlt.ne' (hP t ht).1
  · rw [hstart.blocks, Ui.runningBlocks, hstart.anims]
    exact .refl _
  · rw [hstart.done, hstart.calls, Ui.runningBlocks, hstart.anims]
    rfl

/-- A slide of page 0 that starts while an earlier slide of page 0 runs deletes it: the first call is
never completed and its block stays live. -/
theorem cancelled_call_lost : demo.Starts demoState ∧
    ∃ t, Run.run stepNodes demoState
      [(.openPage (.ofNat 0) (some ⟨.slide, .new, .left⟩) ⟨true, true⟩, .all),
        (.openPage (.ofNat 1) (some ⟨.slide, .new, .left⟩) ⟨true, true⟩, .all),
        (.lvgl (.ready (0, .translateX)), .all), (.lvgl (.ready (1, .translateX)), .all)] = .ok t ∧
    t.ui.running = 0 ∧ t.ui.calls = 3 ∧ t.ui.done = [1, 2] ∧ t.ui.blocks = [0] ∧
    ¬CallsComplete t := by
  refine ⟨demo_starts, _, rfl, by decide, by decide, by decide, by decide, fun h => ?_⟩
  exact absurd h.1 (by decide)

/-- A slide, a popup, a back whose second allocation fails and an open whose allocations both fail, each
after the animations before have ended. Where nothing is to start, `lv_anim_start` is not asked for
memory. -/
def transitionsDemo : List (Action × AnimNodes) :=
  [(.openPage (.ofNat 0) (some ⟨.slide, .new, .left⟩) ⟨true, true⟩, ⟨false, true⟩),
    (.lvgl (.ready (0, .translateX)), .all),
    (.openPage (.ofNat 1) (some ⟨.popup, .reset, .left⟩) ⟨true, true⟩, .all),
    (.lvgl (.ready (1, .translateY)), .all), (.lvgl (.ready (0, .translateY)), .all),
    (.back ⟨true, false⟩, ⟨true, false⟩),
    (.openPage (.ofNat 2) (some ⟨.slideScale, .new, .left⟩) ⟨false, false⟩, ⟨false, false⟩)]

theorem calls_complete_once_demo :
    Run.AllSteps stepNodes StepKeepsCalls demoState transitionsDemo ∧
    ∀ v t, v <+: transitionsDemo → Run.run stepNodes demoState v = .ok t → CallsComplete t :=
  have h : Run.AllSteps stepNodes StepKeepsCalls demoState transitionsDemo := by decide
  ⟨h, (calls_complete_once demo demo_starts transitionsDemo).mpr h⟩

end SwmLvgl.Pm
