import SwmLvgl.CrcDriver

/-! What an update of one context returns while others use the unit as well. The driver skips `CRC_Init`
when the recorded configuration is that of the context, though a destroyed context may have disabled the
unit; it goes on from the value read, which may have been inverted; and it leaves a result of 0 as it is. -/

namespace SwmLvgl.Crc

variable {fold : Fold} {ι : Type*} [DecidableEq ι]

/-- A unit freshly set up for the configuration, after these bytes. -/
def fresh (fold : Fold) (cfg : HwcryptoCrcCfg) (mode : CrcInitStructure) (bytes : List (BitVec 8)) :
    CrcTypeDef :=
  (CrcTypeDef.init mode cfg.lastVal).writeAll fold bytes

/-- The CRC of the bytes, before the final exclusive or. -/
def raw (fold : Fold) (cfg : HwcryptoCrcCfg) (bytes : List (BitVec 8)) : BitVec 32 :=
  match cfg.mode with
  | some mode => (fresh fold cfg mode bytes).result
  | none => 0

/-- The updates of one context. -/
def own (c : ι) (updates : List (Update ι)) : List (Update ι) := updates.filter fun u => u.ctx = c

/-- All bytes given to one context. -/
def fed (c : ι) (updates : List (Update ι)) : List (BitVec 8) := (own c updates).flatMap Update.input

/-- Every update of the context returned the value of its bytes so far. -/
def Correct (fold : Fold) (cfg : HwcryptoCrcCfg) (c : ι) (updates : List (Update ι)) : Prop :=
  ∀ before u, before ++ [u] <+: updates → u.ctx = c →
    u.value = raw fold cfg (fed c (before ++ [u])) ^^^ cfg.xorout

theorem fed_append_self (updates : List (Update ι)) (c : ι) (input : List (BitVec 8)) (value : BitVec 32) :
    fed c (updates ++ [⟨c, input, value⟩]) = fed c updates ++ input := by
  simp [fed, own]

theorem own_append_of_ne {c : ι} (updates : List (Update ι)) {u : Update ι} (h : u.ctx ≠ c) :
    own c (updates ++ [u]) = own c updates := by
  simp [own, h]

/-- One more update. -/
theorem Correct.append {cfg : HwcryptoCrcCfg} {c : ι} {updates : List (Update ι)} {u : Update ι}
    (h : Correct fold cfg c updates)
    (hu : u.ctx = c → u.value = raw fold cfg (fed c (updates ++ [u])) ^^^ cfg.xorout) :
    Correct fold cfg c (updates ++ [u]) := by
  intro before v hv hctx
  rcases List.prefix_concat_iff.mp hv with heq | hpre
  · obtain ⟨rfl, hlast⟩ := List.append_inj' heq rfl
    cases hlast
    exact hu hctx
  · exact h before v hpre hctx

/-- The unit is in the state that `swm_crc_cfg` describes, if it describes one. -/
def Driver.Coherent (d : Driver) : Prop :=
  ∀ mode, d.cfg.mode = some mode → d.unit.mode = mode ∧ d.unit.result = d.cfg.lastVal

/-- The unit when the loop starts. -/
def Driver.start (d : Driver) (cfg : HwcryptoCrcCfg) (mode : CrcInitStructure) : CrcTypeDef :=
  if d.cfg = cfg then d.unit else .init mode cfg.lastVal

/-- An update with an accepted configuration, by the unit it starts from. -/
theorem swmCrcUpdate_spec (fold : Fold) (d : Driver) (ctx : HwcryptoCrc) {mode : CrcInitStructure}
    (hmode : ctx.cfg.mode = some mode) (input : List (BitVec 8)) :
    let result := ((d.start ctx.cfg mode).writeAll fold input).result
    ∃ crcx, swmCrcUpdate fold d ctx input =
      (⟨(d.start ctx.cfg mode).writeAll fold input, ctx.cfg.withLastVal result⟩,
        ⟨ctx.cfg.withLastVal result, crcx⟩,
        if result ≠ 0 then result ^^^ ctx.cfg.xorout else result) := by
  rw [swmCrcUpdate, Driver.start]
  by_cases hcfg : d.cfg = ctx.cfg
  · refine ⟨ctx.crcx, ?_⟩
    rw [if_neg (not_not.mpr hcfg), if_pos hcfg, process, hcfg]
  · refine ⟨true, ?_⟩
    rw [if_pos hcfg, if_neg hcfg]
    simp only [hmode]
    rfl

theorem Driver.Coherent.start_mode {d : Driver} (h : d.Coherent) {cfg : HwcryptoCrcCfg}
    {mode : CrcInitStructure} (hmode : cfg.mode = some mode) : (d.start cfg mode).mode = mode := by
  rw [start]
  split
  · next hcfg => exact (h mode (hcfg ▸ hmode)).1
  · rfl

/-- An update leaves the driver coherent. -/
theorem Driver.Coherent.update {d : Driver} (h : d.Coherent) {cfg : HwcryptoCrcCfg}
    {mode : CrcInitStructure} (hmode : cfg.mode = some mode) (input : List (BitVec 8)) :
    let unit := (d.start cfg mode).writeAll fold input
    (Driver.mk unit (cfg.withLastVal unit.result)).Coherent := by
  intro unit mode' hmode'
  have heq : mode' = mode := Option.some.inj (hmode'.symm.trans hmode)
  subst heq
  exact ⟨((d.start cfg mode').writeAll_kept fold input).2.trans (h.start_mode hmode), rfl⟩

/-- The condition on an update of the context: with the recorded configuration the unit is enabled, or the
bytes do not change the CRC; where the output is inverted, the configuration is the recorded one exactly
if the context has been updated before; and the CRC is not 0 or there is no final exclusive or. -/
structure UpdateMeets (fold : Fold) (cfg : HwcryptoCrcCfg) (d : Driver) (now : HwcryptoCrcCfg)
    (updated : Bool) (before input : List (BitVec 8)) : Prop where
  enabled : d.cfg = now → d.unit.en = true ∨ raw fold cfg (before ++ input) = raw fold cfg before
  refout : cfg.flags.getLsbD 1 = true → (d.cfg = now ↔ updated = true)
  xorout : raw fold cfg (before ++ input) ≠ 0 ∨ cfg.xorout = 0

instance (cfg now : HwcryptoCrcCfg) (d : Driver) (updated : Bool) (before input : List (BitVec 8)) :
    Decidable (UpdateMeets fold cfg d now updated before input) :=
  decidable_of_iff
    ((d.cfg = now → d.unit.en = true ∨ raw fold cfg (before ++ input) = raw fold cfg before) ∧
      (cfg.flags.getLsbD 1 = true → (d.cfg = now ↔ updated = true)) ∧
      (raw fold cfg (before ++ input) ≠ 0 ∨ cfg.xorout = 0))
    ⟨fun h => ⟨h.1, h.2.1, h.2.2⟩, fun h => ⟨h.enabled, h.refout, h.xorout⟩⟩

/-- The condition on a step, for the context `c`. -/
def Meets (fold : Fold) (cfg : HwcryptoCrcCfg) (c : ι) (s : Crypto ι) : Action ι → Prop
  | .update c' input => c' = c → ∀ ctx, s.ctx c = some ctx →
      UpdateMeets fold cfg s.driver ctx.cfg (!(own c s.updates).isEmpty) (fed c s.updates) input
  | .destroy _ | .reset _ => True

instance (cfg : HwcryptoCrcCfg) (c : ι) (s : Crypto ι) : ∀ a, Decidable (Meets fold cfg c s a)
  | .update c' input =>
      match h : s.ctx c with
      | some ctx =>
          decidable_of_iff
            (c' = c → UpdateMeets fold cfg s.driver ctx.cfg (!(own c s.updates).isEmpty)
              (fed c s.updates) input)
            ⟨fun hmeets hc ctx' hctx => by cases h.symm.trans hctx; exact hmeets hc,
              fun hmeets hc => hmeets hc ctx h⟩
      | none => isTrue fun _ ctx hctx => by cases h.symm.trans hctx
  | .destroy _ | .reset _ => inferInstanceAs (Decidable True)

/-- Before the first update: nothing is recorded, and every configuration is accepted. -/
structure Start (s : Crypto ι) (cfg : ι → HwcryptoCrcCfg) : Prop where
  driver : s.driver.cfg = ⟨0, 0, 0, 0, 0, 0, 0⟩
  ctx : ∀ c ctx, s.ctx c = some ctx → ctx.cfg = cfg c
  accepted : ∀ c, (cfg c).mode.isSome
  updates : s.updates = []

/-- The value a context goes on from. -/
def lastValOf (fold : Fold) (cfg : HwcryptoCrcCfg) (c : ι) (updates : List (Update ι)) : BitVec 32 :=
  if (own c updates).isEmpty then cfg.lastVal else raw fold cfg (fed c updates)

structure Inv (fold : Fold) (cfg : ι → HwcryptoCrcCfg) (c : ι) (s : Crypto ι) : Prop where
  coherent : s.driver.Coherent
  ctx : ∀ c' ctx, s.ctx c' = some ctx → ∃ v, ctx.cfg = (cfg c').withLastVal v
  own : ∀ ctx, s.ctx c = some ctx → ctx.cfg = (cfg c).withLastVal (lastValOf fold (cfg c) c s.updates)
  correct : Correct fold (cfg c) c s.updates

theorem Start.inv {s : Crypto ι} {cfg : ι → HwcryptoCrcCfg} (h : Start s cfg) (c : ι) :
    Inv fold cfg c s := by
  refine ⟨fun mode hmode => ?_, fun c' ctx hctx => ?_, fun ctx hctx => ?_, fun before u hu => ?_⟩
  · rw [h.driver] at hmode
    exact absurd hmode (by decide +revert)
  · exact ⟨(cfg c').lastVal, h.ctx c' ctx hctx⟩
  · rw [h.updates]
    exact h.ctx c ctx hctx
  · rw [h.updates] at hu
    exact absurd (List.prefix_nil.mp hu) (by simp)

theorem flagsCode_outNot {flags : BitVec 16} {r : Bool × Bool}
    (h : HwcryptoCrcCfg.flagsCode flags = some r) : r.2 = flags.getLsbD 1 := by
  rw [HwcryptoCrcCfg.flagsCode] at h
  split_ifs at h with h0 h1 h2 h3 <;> cases h
  · rw [h0]
    rfl
  · rw [h1]
    rfl
  · rw [h2]
    rfl
  · rw [h3]
    rfl

theorem outNot_eq {cfg : HwcryptoCrcCfg} {mode : CrcInitStructure} (h : cfg.mode = some mode) :
    mode.outNot = cfg.flags.getLsbD 1 := by
  rw [HwcryptoCrcCfg.mode] at h
  obtain ⟨poly, -, h⟩ := Option.bind_eq_some_iff.mp h
  obtain ⟨inWidth, -, h⟩ := Option.bind_eq_some_iff.mp h
  obtain ⟨flags, hflags, h⟩ := Option.bind_eq_some_iff.mp h
  cases h
  exact flagsCode_outNot hflags

theorem fresh_kept (fold : Fold) (cfg : HwcryptoCrcCfg) (mode : CrcInitStructure) (bytes : List (BitVec 8)) :
    (fresh fold cfg mode bytes).en = true ∧ (fresh fold cfg mode bytes).mode = mode :=
  (CrcTypeDef.init mode cfg.lastVal).writeAll_kept fold bytes

theorem raw_eq {cfg : HwcryptoCrcCfg} {mode : CrcInitStructure} (h : cfg.mode = some mode)
    (bytes : List (BitVec 8)) : raw fold cfg bytes = (fresh fold cfg mode bytes).result := by
  rw [raw, h]

theorem raw_append {cfg : HwcryptoCrcCfg} {mode : CrcInitStructure} (h : cfg.mode = some mode)
    (a b : List (BitVec 8)) :
    raw fold cfg (a ++ b) = ((fresh fold cfg mode a).writeAll fold b).result := by
  rw [raw_eq h, fresh, CrcTypeDef.writeAll_append]
  rfl

section

variable {cfg : HwcryptoCrcCfg} {mode : CrcInitStructure} {d : Driver} {updated : Bool}
  {before input : List (BitVec 8)} {v : BitVec 32}

/-- Where the recorded configuration is that of the context, the unit holds the value of the bytes
before. -/
theorem hit_running (hmode : cfg.mode = some mode) (hd : d.Coherent)
    (hbefore : updated = false → before = [])
    (hv : v = if updated then raw fold cfg before else cfg.lastVal)
    (hC : UpdateMeets fold cfg d (cfg.withLastVal v) updated before input)
    (hhit : d.cfg = cfg.withLastVal v) :
    d.unit.mode = mode ∧ d.unit.running = (fresh fold cfg mode before).running := by
  obtain ⟨hunit, hresult⟩ := hd mode (hhit ▸ hmode)
  have hlast : d.unit.result = v := by rw [hresult, hhit, HwcryptoCrcCfg.withLastVal]
  refine ⟨hunit, ?_⟩
  cases updated with
  | true =>
      rw [if_pos rfl, raw_eq hmode] at hv
      exact CrcTypeDef.running_eq (hunit.trans (fresh_kept fold cfg mode before).2.symm) (hlast.trans hv)
  | false =>
      -- the first update: another context has left the same configuration
      have hout : mode.outNot = false := by
        rw [outNot_eq hmode, Bool.eq_false_iff]
        exact fun h => Bool.false_ne_true ((hC.refout h).mp hhit)
      rw [CrcTypeDef.result, hunit, hout, if_neg Bool.false_ne_true] at hlast
      rw [hlast, hv, hbefore rfl]
      rfl

/-- Where it is not, `CRC_Init` sets the unit to that value. -/
theorem miss_init (hmode : cfg.mode = some mode) (hbefore : updated = false → before = [])
    (hv : v = if updated then raw fold cfg before else cfg.lastVal)
    (hC : UpdateMeets fold cfg d (cfg.withLastVal v) updated before input)
    (hmiss : d.cfg ≠ cfg.withLastVal v) : CrcTypeDef.init mode v = fresh fold cfg mode before := by
  cases updated with
  | true =>
      obtain ⟨hen, hkept⟩ := fresh_kept fold cfg mode before
      have hout : mode.outNot = false := by
        rw [outNot_eq hmode, Bool.eq_false_iff]
        exact fun h => hmiss ((hC.refout h).mpr rfl)
      rw [if_pos rfl, raw_eq hmode, CrcTypeDef.result, hkept, hout, if_neg Bool.false_ne_true] at hv
      exact CrcTypeDef.ext hen.symm hkept.symm hv
  | false =>
      rw [hv, hbefore rfl]
      rfl

/-- Under the condition, the bytes are folded into the value of the bytes before. -/
theorem start_result (hmode : cfg.mode = some mode) (hd : d.Coherent)
    (hbefore : updated = false → before = [])
    (hv : v = if updated then raw fold cfg before else cfg.lastVal)
    (hC : UpdateMeets fold cfg d (cfg.withLastVal v) updated before input) :
    ((d.start (cfg.withLastVal v) mode).writeAll fold input).result = raw fold cfg (before ++ input) := by
  obtain ⟨hen, hkept⟩ := fresh_kept fold cfg mode before
  rw [Driver.start]
  by_cases hhit : d.cfg = cfg.withLastVal v
  · rw [if_pos hhit]
    obtain ⟨hunit, hrunning⟩ := hit_running hmode hd hbefore hv hC hhit
    cases hdis : d.unit.en with
    | true =>
        have heq : d.unit = fresh fold cfg mode before :=
          CrcTypeDef.ext (hdis.trans hen.symm) (hunit.trans hkept.symm) hrunning
        rw [heq, raw_append hmode]
    | false =>
        have hsame : raw fold cfg (before ++ input) = raw fold cfg before := by
          refine (hC.enabled hhit).resolve_left ?_
          rw [hdis]
          exact Bool.false_ne_true
        rw [CrcTypeDef.writeAll_disabled hdis, hsame, raw_eq hmode, CrcTypeDef.result,
          CrcTypeDef.result, hunit, hkept, hrunning]
  · rw [if_neg hhit, raw_append hmode]
    have hinit := miss_init hmode hbefore hv hC hhit
    exact congrArg (fun u => (CrcTypeDef.writeAll fold u input).result) hinit

end

/-! ### Runs -/

theorem own_result {cfg : ι → HwcryptoCrcCfg} {c : ι} {s : Crypto ι} (hI : Inv fold cfg c s)
    {ctx : HwcryptoCrc} (hctx : s.ctx c = some ctx) {mode : CrcInitStructure}
    (hmode : (cfg c).mode = some mode) {input : List (BitVec 8)}
    (hC : Meets fold (cfg c) c s (.update c input)) :
    ((s.driver.start ctx.cfg mode).writeAll fold input).result =
      raw fold (cfg c) (fed c s.updates ++ input) := by
  have hmeets := hC rfl ctx hctx
  rw [hI.own ctx hctx] at hmeets ⊢
  refine start_result hmode hI.coherent (fun hupdated => ?_) ?_ hmeets
  · rw [Bool.not_eq_false', List.isEmpty_iff] at hupdated
    rw [fed, hupdated, List.flatMap_nil]
  · rw [lastValOf]
    cases (own c s.updates).isEmpty <;> rfl

/-- What an update does to the state. -/
theorem step_update {s t : Crypto ι} {c : ι} {input : List (BitVec 8)}
    (h : step fold s (.update c input) = .ok t) : ∃ ctx, s.ctx c = some ctx ∧
      ∀ mode, ctx.cfg.mode = some mode → ∃ unit crcx,
        unit = (s.driver.start ctx.cfg mode).writeAll fold input ∧
        t.driver = ⟨unit, ctx.cfg.withLastVal unit.result⟩ ∧
        t.ctx = Function.update s.ctx c (some ⟨ctx.cfg.withLastVal unit.result, crcx⟩) ∧
        t.updates = s.updates ++
          [⟨c, input, if unit.result ≠ 0 then unit.result ^^^ ctx.cfg.xorout else unit.result⟩] := by
  simp only [step] at h
  split at h
  · cases h
  · next ctx hctx =>
    refine ⟨ctx, hctx, fun mode hmode => ?_⟩
    obtain ⟨crcx, hupdate⟩ := swmCrcUpdate_spec fold s.driver ctx hmode input
    rw [hupdate] at h
    cases h
    exact ⟨_, crcx, rfl, rfl, rfl, rfl⟩

/-- An update keeps the invariant. -/
theorem update_inv {cfg : ι → HwcryptoCrcCfg} (hcfg : ∀ c, (cfg c).mode.isSome) {c c' : ι}
    {s t : Crypto ι} {input : List (BitVec 8)} (hI : Inv fold cfg c s)
    (hC : Meets fold (cfg c) c s (.update c' input)) (h : step fold s (.update c' input) = .ok t) :
    Inv fold cfg c t := by
  obtain ⟨mode, hmode⟩ := Option.isSome_iff_exists.mp (hcfg c')
  obtain ⟨ctx, hctx, hupdate⟩ := step_update h
  obtain ⟨v, hv⟩ := hI.ctx c' ctx hctx
  have hmode' : ctx.cfg.mode = some mode := by rw [hv, HwcryptoCrcCfg.mode_withLastVal, hmode]
  obtain ⟨unit, crcx, hunit, hdriver, hctxs, hupdates⟩ := hupdate mode hmode'
  have hresult : c' = c → unit.result = raw fold (cfg c) (fed c s.updates ++ input) := by
    rintro rfl
    rw [hunit]
    exact own_result hI hctx hmode hC
  refine ⟨?_, fun d ctx' hd => ?_, fun ctx' hd => ?_, ?_⟩
  · rw [hdriver, hunit]
    exact hI.coherent.update hmode' input
  · rw [hctxs] at hd
    by_cases hdc : d = c'
    · subst hdc
      rw [Function.update_self] at hd
      cases hd
      exact ⟨unit.result, by rw [hv]; rfl⟩
    · rw [Function.update_of_ne hdc] at hd
      exact hI.ctx d ctx' hd
  · rw [hctxs] at hd
    by_cases hdc : c' = c
    · subst hdc
      rw [Function.update_self] at hd
      cases hd
      have hown : (own c' t.updates).isEmpty = false := by
        rw [hupdates]
        simp [own]
      rw [lastValOf, hown, if_neg Bool.false_ne_true, hupdates, fed_append_self, ← hresult rfl, hv]
      rfl
    · rw [Function.update_of_ne (Ne.symm hdc)] at hd
      rw [hI.own ctx' hd, hupdates, lastValOf, lastValOf, fed, fed, own_append_of_ne _ hdc]
  · rw [hupdates]
    refine hI.correct.append fun hdc => ?_
    have hdc' : c' = c := hdc
    subst hdc'
    have hxorout : ctx.cfg.xorout = (cfg c').xorout := by rw [hv]; rfl
    rw [fed_append_self, ← hresult rfl]
    show (if unit.result ≠ 0 then unit.result ^^^ ctx.cfg.xorout else unit.result) = _
    rcases (hC rfl ctx hctx).xorout with hne | hzero
    · rw [if_pos (hresult rfl ▸ hne), hxorout]
    · have hkeep : unit.result ^^^ 0 = unit.result := BitVec.xor_zero
      rw [hxorout, hzero, hkeep, ite_self]

/-- A context that is still there after another was freed. -/
theorem of_update_none {ctx : ι → Option HwcryptoCrc} {c d : ι} {x : HwcryptoCrc}
    (h : Function.update ctx c none d = some x) : ctx d = some x := by
  by_cases hdc : d = c
  · rw [hdc, Function.update_self] at h
    cases h
  · rwa [Function.update_of_ne hdc] at h

/-- A step under the condition keeps the invariant. -/
theorem step_inv {cfg : ι → HwcryptoCrcCfg} (hcfg : ∀ c, (cfg c).mode.isSome) {c : ι} (s : Crypto ι)
    (a : Action ι) (t : Crypto ι) (hI : Inv fold cfg c s) (hC : Meets fold (cfg c) c s a)
    (h : step fold s a = .ok t) : Inv fold cfg c t := by
  cases a with
  | update c' input => exact update_inv hcfg hI hC h
  | destroy c' =>
      simp only [step] at h
      split at h
      · cases h
      · split at h
        · cases h
          exact ⟨hI.coherent, fun d ctx hd => hI.ctx d ctx (of_update_none hd),
            fun ctx hd => hI.own ctx (of_update_none hd), hI.correct⟩
        · cases h
  | reset c' =>
      simp only [step] at h
      split at h
      · cases h
      · split at h
        · cases h
          exact ⟨hI.coherent, hI.ctx, hI.own, hI.correct⟩
        · cases h

/-- **Contexts.** Along every run whose updates of a context meet the condition, each of them returns the
CRC of all bytes the context was given so far, combined with `xorout`. -/
theorem updates_correct {cfg : ι → HwcryptoCrcCfg} {s t : Crypto ι} (hs : Start s cfg) (c : ι)
    {w : List (Action ι)} (hw : Run.AllSteps (step fold) (Meets fold (cfg c) c) s w)
    (h : Run.run (step fold) s w = .ok t) : Correct fold (cfg c) c t.updates :=
  (hw.invariant (step_inv hs.accepted) (hs.inv c) h).correct

/-- Eight steps of the division by a polynomial of degree 8. -/
def crc8 (poly : BitVec 32) (v : BitVec 32) : Nat → BitVec 32
  | 0 => v
  | n + 1 => crc8 poly (if v.getLsbD 7 then (v <<< 1 ^^^ poly) &&& 0xFF else (v <<< 1) &&& 0xFF) n

/-- The unit for the polynomial 0x07 and words of 8 bits. -/
def crc8Fold (_ : CrcInitStructure) (running data : BitVec 32) : BitVec 32 :=
  crc8 0x07 (running ^^^ data) 8

/-- `HWCRYPTO_CRC8_CFG` -/
def crc8Cfg : HwcryptoCrcCfg := ⟨0, 0x07, 8, 0, 0, 0, 0⟩

/-- Two contexts of this configuration. -/
def twoContexts : Crypto Bool where
  driver := ⟨⟨false, ⟨0, 0, false, false⟩, 0⟩, ⟨0, 0, 0, 0, 0, 0, 0⟩⟩
  ctx := fun _ => some ⟨crc8Cfg, false⟩
  updates := []

theorem twoContexts_start : Start twoContexts fun _ => crc8Cfg :=
  ⟨rfl, fun _ _ h => by cases h; rfl, fun _ => rfl, rfl⟩

theorem updates_correct_demo : ∃ t, Run.run (step crc8Fold) twoContexts
    [.update true [1], .update false [2], .update true [0]] = .ok t ∧
    t.updates = [⟨true, [1], 0x07⟩, ⟨false, [2], 0x0E⟩, ⟨true, [0], 0x15⟩] ∧
    Correct crc8Fold crc8Cfg true t.updates := by
  have hw : Run.AllSteps (step crc8Fold) (Meets crc8Fold crc8Cfg true) twoContexts
      [.update true [1], .update false [2], .update true [0]] := by decide
  exact ⟨_, rfl, rfl, updates_correct twoContexts_start true hw rfl⟩

/-- The byte 0 given to a context after another one was destroyed is lost. -/
theorem destroyed_context_disables : ∃ t, Run.run (step crc8Fold) twoContexts
    [.update false [1], .update true [1], .destroy false, .update true [0]] = .ok t ∧
    ¬Correct crc8Fold crc8Cfg true t.updates := by
  refine ⟨_, rfl, fun h => ?_⟩
  have hlast := h [⟨false, [1], 0x07⟩, ⟨true, [1], 0x07⟩] ⟨true, [0], 0x07⟩ (List.prefix_refl _) rfl
  have hraw : raw crc8Fold crc8Cfg [1, 0] = 0x15 := by decide +kernel
  have hvalue : (0x07 : BitVec 32) = raw crc8Fold crc8Cfg [1, 0] ^^^ 0 := hlast
  rw [hraw] at hvalue
  exact absurd hvalue (by decide)

end SwmLvgl.Crc
