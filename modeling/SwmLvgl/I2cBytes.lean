import SwmLvgl.I2cLines

/-! The master's functions for single bytes carry on the exchange of bytes: wherever the exchange defines
what one of them does, moving the lines does the same. -/

namespace SwmLvgl.I2c

open Prog

/-- The bits of a byte from bit `i` up. -/
def topBits (byte : UInt8) (i : Nat) : UInt8 := UInt8.ofNat (byte.toNat >>> i)

theorem topBits_zero (byte : UInt8) : topBits byte 0 = byte := by
  rw [topBits, Nat.shiftRight_zero, UInt8.ofNat_toNat]

theorem topBits_eight (byte : UInt8) : topBits byte 8 = 0 := by
  rw [topBits, Nat.shiftRight_eq_div_pow, Nat.div_eq_of_lt byte.toNat_lt]
  rfl

/-- One more bit is shifted in from below. -/
theorem topBits_succ (byte : UInt8) (i : Nat) :
    topBits byte (i + 1) <<< 1 ||| (if byte.toNat.testBit i then 1 else 0) = topBits byte i := by
  have hlt : byte.toNat >>> i < 256 := Nat.lt_of_le_of_lt (Nat.shiftRight_le _ _) byte.toNat_lt
  have hhigh : (topBits byte (i + 1)).toNat = byte.toNat >>> i / 2 := by
    rw [topBits, Nat.shiftRight_succ]
    exact UInt8.toNat_ofNat_of_lt' (by simp only [UInt8.size]; omega)
  have hlow : (if byte.toNat.testBit i then (1 : UInt8) else 0).toNat = byte.toNat >>> i % 2 := by
    rw [Nat.testBit_eq_decide_div_mod_eq, Nat.shiftRight_eq_div_pow]
    rcases Nat.mod_two_eq_zero_or_one (byte.toNat / 2 ^ i) with h | h <;> simp [h]
  apply UInt8.toNat_inj.mp
  calc (topBits byte (i + 1) <<< 1 ||| (if byte.toNat.testBit i then 1 else 0)).toNat
      = 2 ^ 1 * (byte.toNat >>> i / 2) ||| byte.toNat >>> i % 2 := by
        rw [UInt8.toNat_or, UInt8.toNat_shiftLeft, hhigh, hlow, Nat.mul_comm, ← Nat.shiftLeft_eq]
        congr 1
        apply Nat.mod_eq_of_lt
        rw [show (1 : UInt8).toNat % 8 = 1 from rfl, Nat.shiftLeft_eq]
        omega
    _ = byte.toNat >>> i := by
        rw [← Nat.two_pow_add_eq_or_of_lt (Nat.mod_lt _ (by decide))]
        exact Nat.div_add_mod _ 2
    _ = (topBits byte i).toNat := (UInt8.toNat_ofNat_of_lt' (by simpa only [UInt8.size] using hlt)).symm

section Bits

variable {τ : Type} {X : Target τ} {stretch : Nat → Nat} {T : Timing} {bound : Nat} {t : τ}

/-- The clock line goes low, if it was high with an edge that leaves the phase as it is. -/
theorem sclL_at (ht : Timely T stretch bound) {ph : Phase} (hfall : X.fall ph t = (ph, t)) :
    Triple (fun b => ∃ c d, At bound c d ph t b) (X.ops stretch T).sclL
      fun _ b => ∃ d, At bound false d ph t b := by
  rintro b ⟨c, d, h⟩
  cases c with
  | false =>
      obtain ⟨a, b', hrun, hb'⟩ := sclL_low b h
      exact ⟨a, b', hrun, d, hb'⟩
  | true =>
      obtain ⟨a, b', hrun, hb'⟩ := sclL_high ht b h
      rw [hfall] at hb'
      exact ⟨a, b', hrun, d, hb'⟩

theorem setSda_at (v : Bool) {ph : Phase} : Triple (fun b => ∃ d, At bound false d ph t b)
    ((X.ops stretch T).setSda v) fun _ => At bound false v ph t := by
  rintro b ⟨d, h⟩
  exact setSda_low v b h

variable [Errno]

/-- The bits of a byte go to a device whose phases `ph` take them from bit `n` down. -/
theorem writeBits_spec (ht : Timely T stretch bound) {data : UInt8} {ph : Nat → Phase}
    (hpulls : ∀ i, (ph i).pulls = false) (hfall : ∀ i, X.fall (ph (i + 1)) t = (ph (i + 1), t)) {n : Nat}
    (hrise : ∀ i ≤ n, Target.rise (data.toNat.testBit i) (ph (i + 1)) = ph i) :
    Triple (fun b => ∃ c d, At bound c d (ph (n + 1)) t b) ((X.ops stretch T).writeBits data (n + 1))
      fun r b => r = 0 ∧ ∃ d, At bound true d (ph 0) t b := by
  have hbit : ∀ i ≤ n, Triple (At bound false (data.toNat.testBit i) (ph (i + 1)) t)
      (X.ops stretch T).sclH fun r b => r = 0 ∧ At bound true (data.toNat.testBit i) (ph i) t b := by
    intro i hi
    refine (sclH_spec ht).weaken (fun _ h => h) fun r b hb => ?_
    rwa [hpulls, Bool.not_false, Bool.and_true, hrise i hi] at hb
  induction n with
  | zero =>
      refine (sclL_at ht (hfall 0)).bind fun _ => (setSda_at _).bind fun _ => delay_at.bind fun _ => ?_
      refine (hbit 0 (Nat.le_refl 0)).bind_eq ?_
      rw [if_neg (by decide)]
      exact Triple.pure fun b hb => ⟨rfl, _, hb⟩
  | succ n ih =>
      refine (sclL_at ht (hfall _)).bind fun _ => (setSda_at _).bind fun _ => delay_at.bind fun _ => ?_
      refine (hbit (n + 1) (Nat.le_refl _)).bind_eq ?_
      rw [if_neg (by decide)]
      have hrest := ih (fun i hi => hrise i (Nat.le_succ_of_le hi)) fun i hi => hbit i (Nat.le_succ_of_le hi)
      exact hrest.weaken (fun b hb => ⟨_, _, hb⟩) fun _ _ h => h

/-- The bits of a byte come from a device whose phases `ph` send the bits that `v` gathers. -/
theorem readBits_spec (ht : Timely T stretch bound) {ph : Nat → Phase} {v : Nat → UInt8}
    (hrise : ∀ i, Target.rise (!(ph (i + 1)).pulls) (ph (i + 1)) = ph (i + 1)) {n : Nat}
    (hfall : ∀ i < n, X.fall (ph (i + 1)) t = (ph i, t))
    (hv : ∀ i < n, (if !(ph (i + 1)).pulls then v (i + 1) <<< 1 ||| 1 else v (i + 1) <<< 1) = v i) :
    Triple (At bound false true (ph n) t) ((X.ops stretch T).readBits n (v n))
      fun r b => r = (v 0).toNat ∧ At bound false true (ph 0) t b := by
  induction n with
  | zero => exact Triple.pure fun b hb => ⟨rfl, hb⟩
  | succ n ih =>
      have hclock : Triple (At bound false true (ph (n + 1)) t) (X.ops stretch T).sclH
          fun r b => r = 0 ∧ At bound true true (ph (n + 1)) t b := by
        refine (sclH_spec ht).weaken (fun _ h => h) fun r b hb => ?_
        rwa [Bool.true_and, hrise n] at hb
      refine hclock.bind_eq ?_
      rw [if_neg (by decide)]
      refine getSda_at.bind_eq ((sclL_high ht).bind fun _ => delay2_at.bind fun _ => ?_)
      rw [hfall n (Nat.lt_succ_self n), hv n (Nat.lt_succ_self n)]
      exact ih (fun i hi => hfall i (Nat.lt_succ_of_lt hi)) fun i hi => hv i (Nat.lt_succ_of_lt hi)

/-- The ninth clock: what the device pulls is its answer. -/
theorem i2cWaitack_spec (ht : Timely T stretch bound) {d : Bool} {ph : Phase}
    (hrise : Target.rise (!ph.pulls) ph = ph) :
    Triple (At bound false d ph t) (X.ops stretch T).i2cWaitack
      fun r b => r = (if ph.pulls then 1 else 0) ∧ At bound false true (X.fall ph t).1 (X.fall ph t).2 b := by
  have hclock : Triple (At bound false true ph t) (X.ops stretch T).sclH
      fun r b => r = 0 ∧ At bound true true ph t b := by
    refine (sclH_spec ht).weaken (fun _ h => h) fun r b hb => ?_
    rwa [Bool.true_and, hrise] at hb
  refine (setSda_low true).bind fun _ => delay_at.bind fun _ => hclock.bind_eq ?_
  rw [if_neg (by decide)]
  refine getSda_at.bind_eq ((sclL_high ht).bind fun _ => Triple.pure fun b hb => ⟨?_, hb⟩)
  rw [Bool.not_not]

/-- A byte goes to a device: its bits, the falling edge behind the last one, and the ninth clock. -/
theorem i2cWriteb_spec (ht : Timely T stretch bound) {data : UInt8} {ph : Nat → Phase}
    (hpulls : ∀ i, (ph i).pulls = false) (hfall : ∀ i, X.fall (ph (i + 1)) t = (ph (i + 1), t))
    (hrise : ∀ i ≤ 7, Target.rise (data.toNat.testBit i) (ph (i + 1)) = ph i) {q : Phase} {t' : τ}
    (hlast : X.fall (ph 0) t = (q, t')) (hq : Target.rise (!q.pulls) q = q) :
    Triple (fun b => ∃ d, At bound false d (ph 8) t b) ((X.ops stretch T).i2cWriteb data)
      fun r b => r = (if q.pulls then 1 else 0) ∧
        At bound false true (X.fall q t').1 (X.fall q t').2 b := by
  have hbits : Triple (fun b => ∃ d, At bound false d (ph 8) t b) ((X.ops stretch T).writeBits data 8)
      fun r b => r = 0 ∧ ∃ d, At bound true d (ph 0) t b :=
    (writeBits_spec ht hpulls hfall hrise).weaken (fun b hb => ⟨_, hb⟩) fun _ _ h => h
  have hedge : Triple (fun b => ∃ d, At bound true d (ph 0) t b) (X.ops stretch T).sclL
      fun _ b => ∃ d, At bound false d q t' b := by
    rintro b ⟨d, hb⟩
    obtain ⟨a, b', hrun, hb'⟩ := sclL_high ht b hb
    rw [hlast] at hb'
    exact ⟨a, b', hrun, d, hb'⟩
  have hdelay : Triple (fun b => ∃ d, At bound false d q t' b) (X.ops stretch T).i2cDelay
      fun _ b => ∃ d, At bound false d q t' b := by
    rintro b ⟨d, hb⟩
    obtain ⟨a, b', hrun, hb'⟩ := delay_at b hb
    exact ⟨a, b', hrun, d, hb'⟩
  refine hbits.bind_eq ?_
  rw [if_neg (by decide)]
  refine hedge.bind fun _ => hdelay.bind fun _ => ?_
  rintro b ⟨d, hb⟩
  exact i2cWaitack_spec ht hq b hb

end Bits

/-! ### The exchange -/

/-- The phase of the device in a mode of the exchange. -/
def Mode.phase : Mode → Phase
  | .free => .idle
  | .idle => .idle
  | .address => .receive 0 0 true
  | .listen => .receive 0 0 false
  | .talk byte => .transmit 0 byte
  | .handover => .awaitAck false

/-- The lines stand as the exchange says: high while the bus is free; else the clock line is low, and the
master has let go of the data line where it has not answered a byte yet. -/
def Rel {τ : Type} (bound : Nat) (b : Bus (Slave τ)) (w : Wire τ) : Prop :=
  ∃ d, At bound (decide (w.mode = .free)) d w.mode.phase w.target b ∧
    (w.mode = .free ∨ w.mode = .handover → d = true)

section Exchange

variable {τ : Type} {X : Target τ} {stretch : Nat → Nat} {T : Timing} {bound : Nat} {t : τ}

theorem rel_free {b : Bus (Slave τ)} : Rel bound b ⟨t, .free⟩ ↔ At bound true true .idle t b := by
  constructor
  · rintro ⟨d, hb, hd⟩
    rwa [hd (Or.inl rfl)] at hb
  · exact fun hb => ⟨true, hb, fun _ => rfl⟩

theorem rel_handover {b : Bus (Slave τ)} :
    Rel bound b ⟨t, .handover⟩ ↔ At bound false true (.awaitAck false) t b := by
  constructor
  · rintro ⟨d, hb, hd⟩
    rwa [hd (Or.inr rfl)] at hb
  · exact fun hb => ⟨true, hb, fun _ => rfl⟩

/-- With the clock line low the data line may stand as it likes, a handover aside. -/
theorem rel_low {b : Bus (Slave τ)} {m : Mode} (hfree : m ≠ .free) (hhandover : m ≠ .handover) :
    Rel bound b ⟨t, m⟩ ↔ ∃ d, At bound false d m.phase t b := by
  have hlow : decide ((⟨t, m⟩ : Wire τ).mode = .free) = false := decide_eq_false hfree
  constructor
  · rintro ⟨d, hb, -⟩
    rw [hlow] at hb
    exact ⟨d, hb⟩
  · rintro ⟨d, hb⟩
    refine ⟨d, ?_, fun h => (h.elim hfree hhandover).elim⟩
    rw [hlow]
    exact hb

theorem i2cStart_spec (ht : Timely T stretch bound) :
    Triple (At bound true true .idle t) (X.ops stretch T).i2cStart
      fun _ => At bound false false (.receive 0 0 true) t :=
  (setSda_start rfl).bind fun _ => delay_at.bind fun _ => sclL_high ht

/-- The phases in which a device takes the bits of a byte. -/
def taking (data : UInt8) (first : Bool) (i : Nat) : Phase := .receive (8 - i) (topBits data i) first

theorem taking_fall (data : UInt8) (first : Bool) (i : Nat) :
    X.fall (taking data first (i + 1)) t = (taking data first (i + 1), t) := by
  have hn : ¬8 - (i + 1) = 8 := by omega
  rw [taking, Target.fall, if_neg hn]

theorem taking_rise (data : UInt8) (first : Bool) {i : Nat} (hi : i ≤ 7) :
    Target.rise (data.toNat.testBit i) (taking data first (i + 1)) = taking data first i := by
  have hn : 8 - (i + 1) + 1 = 8 - i := by omega
  rw [taking, Target.rise, hn, topBits_succ, taking]

/-- The phases in which a device sends a byte; at the end it waits for the answer. -/
def sending (byte : UInt8) : Nat → Phase
  | 0 => .awaitAck false
  | i + 1 => .transmit (7 - i) byte

theorem sending_fall (byte : UInt8) {i : Nat} (hi : i < 8) :
    X.fall (sending byte (i + 1)) t = (sending byte i, t) := by
  cases i with
  | zero => rfl
  | succ i =>
      have hn : ¬7 - (i + 1) = 7 := by omega
      have hnext : 7 - (i + 1) + 1 = 7 - i := by omega
      rw [sending, Target.fall, if_neg hn, hnext, sending]

theorem sending_pulls (byte : UInt8) {i : Nat} (hi : i < 8) :
    (!(sending byte (i + 1)).pulls) = byte.toNat.testBit i := by
  have hn : 7 - (7 - i) = i := by omega
  rw [sending, Phase.pulls, hn, Bool.not_not]

variable [Errno]

theorem i2cRestart_spec (ht : Timely T stretch bound) {d : Bool} {ph : Phase} (hph : ph.pulls = false) :
    Triple (At bound false d ph t) (X.ops stretch T).i2cRestart
      fun _ => At bound false false (.receive 0 0 true) t := by
  refine (setSda_low true).bind fun _ => (sclH_spec ht).bind_eq (delay_at.bind fun _ => ?_)
  rw [hph]
  exact (setSda_start ((rise_pulls _ ph).trans hph)).bind fun _ => delay_at.bind fun _ => sclL_high ht

theorem i2cStop_spec (ht : Timely T stretch bound) {d : Bool} {ph : Phase} (hph : ph.pulls = false) :
    Triple (At bound false d ph t) (X.ops stretch T).i2cStop
      fun _ => At bound true true .idle (X.stop t) := by
  refine (setSda_low false).bind fun _ => delay_at.bind fun _ =>
    (sclH_spec ht).bind_eq (delay_at.bind fun _ => ?_)
  exact (setSda_stop ((rise_pulls _ ph).trans hph)).bind fun _ => delay2_at

/-- A byte to a device that listens goes as the exchange says. -/
theorem writeb_hear (ht : Timely T stretch bound) (data : UInt8) (first : Bool) :
    Triple (fun b => ∃ d, At bound false d (.receive 0 0 first) t b) ((X.ops stretch T).i2cWriteb data)
      fun r b => r = (X.hear data first t).1 ∧ Rel bound b (X.hear data first t).2 := by
  have hstart : taking data first 8 = .receive 0 0 first := by
    rw [taking, topBits_eight]
  have hlast : X.fall (taking data first 0) t = X.byteIn data first t := by
    rw [taking, Target.fall, if_pos rfl, topBits_zero]
  rw [← hstart]
  rcases hanswer : if first then X.address data t else X.write data t with ⟨acks, t'⟩
  have hbyteIn : X.byteIn data first t =
      (if acks then .acking (first && data.toNat.testBit 0) else .idle, t') := by
    rw [Target.byteIn, hanswer]
  have hhear : X.hear data first t = if acks then
      (1, if first && data.toNat.testBit 0 then X.offer t' else ⟨t', .listen⟩) else (0, ⟨t', .idle⟩) := by
    rw [Target.hear, hanswer]
  have hspec : ∀ q, X.byteIn data first t = (q, t') → Target.rise (!q.pulls) q = q →
      Triple (fun b => ∃ d, At bound false d (taking data first 8) t b) ((X.ops stretch T).i2cWriteb data)
        fun r b => r = (if q.pulls then 1 else 0) ∧
          At bound false true (X.fall q t').1 (X.fall q t').2 b := fun q hq =>
    i2cWriteb_spec ht (fun _ => rfl) (taking_fall data first) (fun _ hi => taking_rise data first hi)
      (hlast.trans hq)
  rw [hhear]
  cases acks with
  | false =>
      refine (hspec .idle hbyteIn rfl).weaken (fun _ h => h) fun r b hb => ?_
      exact ⟨hb.1, (rel_low (by simp) (by simp)).mpr ⟨true, hb.2⟩⟩
  | true =>
      refine (hspec _ hbyteIn rfl).weaken (fun _ h => h) fun r b hb => ⟨hb.1, ?_⟩
      have hat := hb.2
      dsimp only [Target.fall, if_true] at hat ⊢
      cases hsends : first && data.toNat.testBit 0 with
      | false =>
          rw [hsends] at hat
          exact (rel_low (by simp) (by simp)).mpr ⟨true, hat⟩
      | true =>
          rw [hsends] at hat
          exact (rel_low (by simp) (by simp)).mpr ⟨true, hat⟩

/-- A byte to a device that takes no part is not acknowledged. -/
theorem writeb_idle (ht : Timely T stretch bound) (data : UInt8) :
    Triple (fun b => ∃ d, At bound false d .idle t b) ((X.ops stretch T).i2cWriteb data)
      fun r b => r = 0 ∧ At bound false true .idle t b :=
  @i2cWriteb_spec τ X stretch T bound t _ ht data (fun _ => .idle) (fun _ => rfl) (fun _ => rfl) (fun _ _ => rfl)
    .idle t rfl rfl

/-- A byte comes from a device that sends it. -/
theorem readb_talk (ht : Timely T stretch bound) (byte : UInt8) :
    Triple (fun b => ∃ d, At bound false d (.transmit 0 byte) t b) (X.ops stretch T).i2cReadb
      fun r b => r = byte.toNat ∧ At bound false true (.awaitAck false) t b := by
  have hbits := @readBits_spec τ X stretch T bound t _ ht (sending byte) (topBits byte) (fun _ => rfl) 8
    (fun i hi => sending_fall byte hi) fun i hi => by
      rw [sending_pulls byte hi, ← topBits_succ byte i]
      cases byte.toNat.testBit i <;> simp
  rw [topBits_eight, topBits_zero] at hbits
  exact (setSda_at true).bind fun _ => delay_at.bind fun _ => hbits

/-- Nobody sends, and all bits are high. -/
theorem readb_idle (ht : Timely T stretch bound) :
    Triple (fun b => ∃ d, At bound false d .idle t b) (X.ops stretch T).i2cReadb
      fun r b => r = 255 ∧ At bound false true .idle t b := by
  have hbits := @readBits_spec τ X stretch T bound t _ ht (fun _ => .idle) (topBits 255) (fun _ => rfl) 8
    (fun _ _ => rfl) (by decide)
  rw [topBits_eight, topBits_zero] at hbits
  exact (setSda_at true).bind fun _ => delay_at.bind fun _ => hbits

/-- The ninth clock of a byte that the master has received. -/
theorem sendAckOrNack_handover (ht : Timely T stretch bound) (ack : Int) :
    Triple (At bound false true (.awaitAck false) t) ((X.ops stretch T).i2cSendAckOrNack ack)
      fun r b => r = 0 ∧ Rel bound b (if ack ≠ 0 then X.offer t else ⟨t, .idle⟩) := by
  have hclock : ∀ d, Triple (At bound false d (.awaitAck false) t) (X.ops stretch T).sclH
      fun r b => r = 0 ∧ At bound true d (.awaitAck (!d)) t b := fun d => by
    refine (sclH_spec ht).weaken (fun _ h => h) fun r b hb => ?_
    rwa [show (d && !(Phase.awaitAck false).pulls) = d from Bool.and_true d] at hb
  unfold RtI2cBitOps.i2cSendAckOrNack
  by_cases hack : ack ≠ 0
  · rw [if_pos hack, if_pos hack]
    refine (setSda_low false).bind fun _ => delay_at.bind fun _ => (hclock false).bind_eq ?_
    rw [if_neg (by decide)]
    refine (sclL_high ht).bind fun _ => Triple.pure fun b hb => ⟨rfl, ?_⟩
    exact (rel_low (by simp) (by simp)).mpr ⟨false, hb⟩
  · rw [if_neg hack, if_neg hack]
    refine delay_at.bind fun _ => (hclock true).bind_eq ?_
    rw [if_neg (by decide)]
    refine (sclL_high ht).bind fun _ => Triple.pure fun b hb => ⟨rfl, ?_⟩
    exact (rel_low (by simp) (by simp)).mpr ⟨true, hb⟩

theorem sendAckOrNack_idle (ht : Timely T stretch bound) {d : Bool} (ack : Int) :
    Triple (At bound false d .idle t) ((X.ops stretch T).i2cSendAckOrNack ack)
      fun r b => r = 0 ∧ ∃ d, At bound false d .idle t b := by
  have hclock : ∀ d, Triple (At bound false d .idle t) (X.ops stretch T).sclH
      fun r b => r = 0 ∧ At bound true d .idle t b := fun d => sclH_spec ht
  have hrest : ∀ d, Triple (At bound false d .idle t) (do
      (X.ops stretch T).i2cDelay
      if (← (X.ops stretch T).sclH) < 0 then return -rtEtimeout
      else
        (X.ops stretch T).sclL
        return 0) fun r b => r = 0 ∧ ∃ d, At bound false d .idle t b := fun d => by
    refine delay_at.bind fun _ => (hclock d).bind_eq ?_
    rw [if_neg (by decide)]
    exact (sclL_high ht).bind fun _ => Triple.pure fun b hb => ⟨rfl, d, hb⟩
  unfold RtI2cBitOps.i2cSendAckOrNack
  by_cases hack : ack ≠ 0
  · rw [if_pos hack]
    exact (setSda_low false).bind fun _ => hrest false
  · rw [if_neg hack]
    exact hrest d

end Exchange

end SwmLvgl.I2c
