import Mathlib.Logic.Function.Basic
import SwmLvgl.RunSteps

/-! The CRC part of the crypto driver (`drv_crypto.c`) with `CRC_Init` of the library (`SWM341_crc.c`).
All contexts share one unit and one record of the configuration it was last set up for. How the unit
folds a word into its value is a parameter. -/

namespace SwmLvgl.Crc

/-- `struct hwcrypto_crc_cfg`, with the two halfwords of padding that `memcmp` compares as well. -/
structure HwcryptoCrcCfg where
  lastVal : BitVec 32
  poly : BitVec 32
  width : BitVec 16
  padWidth : BitVec 16
  xorout : BitVec 32
  flags : BitVec 16
  padFlags : BitVec 16
  deriving DecidableEq, Repr

/-- `CRC_InitStructure` without the initial value; `in_rev` and `out_rev` are always `CRC_REV_NOT`. -/
structure CrcInitStructure where
  poly : BitVec 8
  inWidth : BitVec 8
  inNot : Bool
  outNot : Bool
  deriving DecidableEq, Repr

/-- The running value after one more word. -/
abbrev Fold := CrcInitStructure → BitVec 32 → BitVec 32 → BitVec 32

/-- The CRC unit: `CR` by its fields, and the running value. -/
@[ext]
structure CrcTypeDef where
  en : Bool
  mode : CrcInitStructure
  running : BitVec 32
  deriving DecidableEq, Repr

/-- `struct hwcrypto_crc`; `crcx` says that the pointer in `struct swm_crc_cfg` is set. -/
structure HwcryptoCrc where
  cfg : HwcryptoCrcCfg
  crcx : Bool
  deriving DecidableEq, Repr

inductive Fault where
  | freed
  | null
  deriving DecidableEq, Repr

namespace CrcTypeDef

/-- `CRC_Init` -/
def init (mode : CrcInitStructure) (initCrc : BitVec 32) : CrcTypeDef := ⟨true, mode, initCrc⟩

/-- `CRC_Result` -/
def result (u : CrcTypeDef) : BitVec 32 := if u.mode.outNot then ~~~u.running else u.running

/-- `CRCx->CR &= ~CRC_CR_EN_Msk` -/
def disable (u : CrcTypeDef) : CrcTypeDef := { u with en := false }

variable (fold : Fold)

/-- `CRC_Write` -/
def write (u : CrcTypeDef) (data : BitVec 32) : CrcTypeDef :=
  if u.en then { u with running := fold u.mode u.running data } else u

/-- The loop over the bytes. -/
def writeAll (u : CrcTypeDef) (input : List (BitVec 8)) : CrcTypeDef :=
  input.foldl (fun u b => u.write fold (b.setWidth 32)) u

theorem write_kept (u : CrcTypeDef) (data : BitVec 32) :
    (u.write fold data).en = u.en ∧ (u.write fold data).mode = u.mode := by
  rw [write]
  split <;> exact ⟨rfl, rfl⟩

theorem writeAll_kept (u : CrcTypeDef) (input : List (BitVec 8)) :
    (u.writeAll fold input).en = u.en ∧ (u.writeAll fold input).mode = u.mode := by
  induction input generalizing u with
  | nil => exact ⟨rfl, rfl⟩
  | cons b input ih =>
      obtain ⟨hen, hmode⟩ := ih (u.write fold (b.setWidth 32))
      obtain ⟨hen', hmode'⟩ := u.write_kept fold (b.setWidth 32)
      exact ⟨hen.trans hen', hmode.trans hmode'⟩

variable {fold}

theorem writeAll_append (u : CrcTypeDef) (a b : List (BitVec 8)) :
    u.writeAll fold (a ++ b) = (u.writeAll fold a).writeAll fold b :=
  List.foldl_append

/-- A disabled unit ignores what is written. -/
theorem writeAll_disabled {u : CrcTypeDef} (h : u.en = false) (input : List (BitVec 8)) :
    u.writeAll fold input = u := by
  induction input with
  | nil => rfl
  | cons b input ih =>
      have hwrite : u.write fold (b.setWidth 32) = u := by rw [write, h, if_neg Bool.false_ne_true]
      calc u.writeAll fold (b :: input) = (u.write fold (b.setWidth 32)).writeAll fold input := rfl
        _ = u := by rw [hwrite, ih]

/-- The result tells the running value. -/
theorem running_eq {u v : CrcTypeDef} (hmode : u.mode = v.mode) (h : u.result = v.result) :
    u.running = v.running := by
  rw [result, result, hmode] at h
  split at h
  · rw [← BitVec.not_not (b := u.running), h, BitVec.not_not]
  · exact h

end CrcTypeDef

namespace HwcryptoCrcCfg

/-- The first `switch` of `swm_crc_update`. -/
def polyCode (poly : BitVec 32) : Option (BitVec 8) :=
  if poly = 0x07 then some 1
  else if poly = 0x1021 then some 0
  else if poly = 0x8005 then some 2
  else if poly = 0x04C11DB7 then some 3
  else none

def widthCode (width : BitVec 16) : Option (BitVec 8) :=
  if width = 8 then some 2
  else if width = 16 then some 1
  else if width = 32 then some 0
  else none

/-- `in_not` and `out_not` for `CRC_FLAG_REFIN` and `CRC_FLAG_REFOUT`. -/
def flagsCode (flags : BitVec 16) : Option (Bool × Bool) :=
  if flags = 0 then some (false, false)
  else if flags = 1 then some (true, false)
  else if flags = 2 then some (false, true)
  else if flags = 1 ||| 2 then some (true, true)
  else none

/-- How the unit is set up for the configuration, or none where a `switch` ends the update. -/
def mode (cfg : HwcryptoCrcCfg) : Option CrcInitStructure := do
  let poly ← polyCode cfg.poly
  let inWidth ← widthCode cfg.width
  let (inNot, outNot) ← flagsCode cfg.flags
  return ⟨poly, inWidth, inNot, outNot⟩

def withLastVal (cfg : HwcryptoCrcCfg) (v : BitVec 32) : HwcryptoCrcCfg := { cfg with lastVal := v }

theorem mode_withLastVal (cfg : HwcryptoCrcCfg) (v : BitVec 32) : (cfg.withLastVal v).mode = cfg.mode := rfl

end HwcryptoCrcCfg

/-! ### The driver -/

/-- The unit and `swm_crc_cfg`. -/
structure Driver where
  unit : CrcTypeDef
  cfg : HwcryptoCrcCfg
  deriving DecidableEq, Repr

section

variable (fold : Fold)

/-- `swm_crc_update` from the loop on. -/
def process (d : Driver) (ctx : HwcryptoCrc) (input : List (BitVec 8)) :
    Driver × HwcryptoCrc × BitVec 32 :=
  let unit := d.unit.writeAll fold input
  let result := unit.result
  (⟨unit, d.cfg.withLastVal result⟩, { ctx with cfg := ctx.cfg.withLastVal result },
    if result ≠ 0 then result ^^^ ctx.cfg.xorout else result)

/-- `swm_crc_update` -/
def swmCrcUpdate (d : Driver) (ctx : HwcryptoCrc) (input : List (BitVec 8)) :
    Driver × HwcryptoCrc × BitVec 32 :=
  if d.cfg ≠ ctx.cfg then
    let ctx := { ctx with crcx := true }
    match ctx.cfg.mode with
    | some mode => process fold ⟨.init mode ctx.cfg.lastVal, ctx.cfg⟩ ctx input
    | none => (d, ctx, 0)
  else process fold d ctx input

end

/-- An update that has returned. -/
structure Update (ι : Type*) where
  ctx : ι
  input : List (BitVec 8)
  value : BitVec 32
  deriving DecidableEq, Repr

/-- The contexts by name, none where freed, and the updates so far. -/
structure Crypto (ι : Type*) where
  driver : Driver
  ctx : ι → Option HwcryptoCrc
  updates : List (Update ι)

inductive Action (ι : Type*) where
  | update (c : ι) (input : List (BitVec 8))
  | destroy (c : ι)
  | reset (c : ι)

variable {ι : Type*} [DecidableEq ι]

/-- `swm_crc_update`, `swm_crypto_destroy` and `swm_crypto_reset`. The last two write `CR` through the
pointer of the context. -/
def step (fold : Fold) (s : Crypto ι) :
    Action ι → Except Fault (Crypto ι)
  | .update c input =>
      match s.ctx c with
      | none => .error .freed
      | some ctx =>
          let (driver, ctx, value) := swmCrcUpdate fold s.driver ctx input
          .ok ⟨driver, Function.update s.ctx c (some ctx), s.updates ++ [⟨c, input, value⟩]⟩
  | .destroy c =>
      match s.ctx c with
      | none => .error .freed
      | some ctx =>
          if ctx.crcx then
            .ok { s with
              driver := { s.driver with unit := s.driver.unit.disable }
              ctx := Function.update s.ctx c none }
          else .error .null
  | .reset c =>
      match s.ctx c with
      | none => .error .freed
      | some ctx =>
          if ctx.crcx then .ok { s with driver := { s.driver with unit := s.driver.unit.disable } }
          else .error .null

/-- The context is not freed. It is destroyed or reset only with the pointer set, that is once an update of it
has found another configuration recorded. -/
def NoFault (s : Crypto ι) : Action ι → Prop
  | .update c _ => (s.ctx c).isSome
  | .destroy c | .reset c => ∃ ctx ∈ s.ctx c, ctx.crcx

theorem step_ok_iff {fold : Fold} (s : Crypto ι) (a : Action ι) :
    (∃ t, step fold s a = .ok t) ↔ NoFault s a := by
  have hpointer : ∀ (ctx : HwcryptoCrc) (r : Crypto ι),
      (∃ t, (if ctx.crcx then .ok r else .error .null : Except Fault (Crypto ι)) = .ok t) ↔ ctx.crcx := by
    intro ctx r
    split <;> simp [*]
  cases a with
  | update c input => cases h : s.ctx c <;> simp [step, NoFault, h]
  | destroy c => cases h : s.ctx c <;> simp [step, NoFault, h, hpointer]
  | reset c => cases h : s.ctx c <;> simp [step, NoFault, h, hpointer]

/-- A run ends without a fault exactly if no step of it is one. -/
theorem run_ok_iff {fold : Fold} {s : Crypto ι} {w : List (Action ι)} :
    (∃ t, Run.run (step fold) s w = .ok t) ↔ Run.AllSteps (step fold) NoFault s w :=
  Run.run_ok_iff step_ok_iff

end SwmLvgl.Crc
