import SwmLvgl.GpioDriver
import SwmLvgl.Kerrno

/-! Pin names (`swm_pin_get`). A name is a port letter and a pin number, as in `PA.0`. The parser takes
each character behind the dot for a decimal digit and bounds the number from above only, so the names
it accepts are the well-formed ones and some others, which are listed exactly. -/

namespace SwmLvgl.Gpio

/-- A string in memory: the characters before the terminating NUL. -/
structure CString where
  chars : List UInt8
  noNul : 0 ∉ chars
  fits : chars.length < 2 ^ 32
  deriving DecidableEq

/-- `name[i]`, the terminator at the end. -/
def CString.char (name : CString) (i : Nat) : UInt8 := name.chars.getD i 0

/-- The length of the string as an `int`. -/
def CString.rtStrlen (name : CString) : Int := (BitVec.ofNat 32 name.chars.length).toInt

/-- The value of a plain `char`, which the compiler takes for signed or for unsigned. -/
def charVal (signed : Bool) (c : UInt8) : Int := if signed then c.toBitVec.toInt else c.toNat

/-- The `switch` of `swm_pin_get` on the port letter. -/
def portBase (c : UInt8) : Option Int :=
  if c = 65 then some 0         -- 'A'
  else if c = 66 then some 16   -- 'B'
  else if c = 67 then some 32   -- 'C'
  else if c = 68 then some 48   -- 'D'
  else if c = 69 then some 64   -- 'E'
  else if c = 77 then some 80   -- 'M'
  else if c = 78 then some 96   -- 'N'
  else none

/-- `swm_pin_get` -/
def swmPinGet [Errno] (signed : Bool) (name : CString) : Int :=
  let nameLen := name.rtStrlen
  if nameLen < 4 ∨ 6 ≤ nameLen then -rtEinval
  else if name.char 0 ≠ 80 ∨ name.char 2 ≠ 46 then -rtEinval   -- 'P', '.'
  else
    match portBase (name.char 1) with
    | none => -rtEinval
    | some pin =>
        let pinNumber := (List.range' 3 (nameLen.toNat - 3)).foldl
          (fun n i => n * 10 + (charVal signed (name.char i) - 48)) 0
        if pinNumber < 16 then pin + pinNumber else -rtEinval

/-- The ports in the order of `pin_obj`, each with its letter. -/
def ports : List (UInt8 × GpioTypeDef) :=
  [(65, .gpioA), (66, .gpioB), (67, .gpioC), (68, .gpioD), (69, .gpioE), (77, .gpioM), (78, .gpioN)]

/-- A decimal digit. -/
def Digit (c : UInt8) : Prop := 48 ≤ c.toNat ∧ c.toNat ≤ 57

instance (c : UInt8) : Decidable (Digit c) := inferInstanceAs (Decidable (_ ∧ _))

/-- The number that decimal digits denote. -/
def decimal (digits : List UInt8) : Nat := digits.foldl (fun n c => n * 10 + (c.toNat - 48)) 0

/-- The name is `P`, the letter of the port at position `p`, a dot and `tail`. -/
def Shape (name : CString) (p : Nat) (tail : List UInt8) : Prop :=
  ∃ port, ports[p]? = some port ∧ name.chars = 80 :: port.1 :: 46 :: tail

/-- The name of pin `n` of the port at position `p`: one or two digits behind the dot denote `n`. -/
structure Names (name : CString) (p n : Nat) (digits : List UInt8) : Prop where
  shape : Shape name p digits
  length : digits.length = 1 ∨ digits.length = 2
  digit : ∀ c ∈ digits, Digit c
  value : decimal digits = n
  bound : n ≤ 15

/-- The parser is right about a name: it accepts the names of pins and no others, gives the index in
`pin_obj` of the pin that is named, and refuses all else with `-RT_EINVAL`. -/
structure PinGetCorrect [Errno] (signed : Bool) (name : CString) : Prop where
  accepts : 0 ≤ swmPinGet signed name ↔ ∃ p n digits, Names name p n digits
  index : ∀ p n digits, Names name p n digits →
    swmPinGet signed name = 16 * p + n ∧
      ∃ port, ports[p]? = some port ∧ pinObj[16 * p + n]? = some (swmPin (16 * p + n) port.2 n)
  refuses : (¬∃ p n digits, Names name p n digits) → swmPinGet signed name = -rtEinval

/-- What may stand behind the dot, as the characters are compared with their codes. Behind the port at
position `p`: digits, characters whose weighted codes are too large, or those few that happen to give
`-RT_EINVAL`. -/
def TailSound [Errno] (signed : Bool) (p : Nat) : List UInt8 → Prop
  | [c] => Digit c ∨ 64 ≤ charVal signed c ∨ 16 * p + charVal signed c + rtEinval = 48
  | [c, d] => (Digit c ∧ Digit d) ∨ 544 ≤ charVal signed c * 10 + charVal signed d ∨
      16 * p + (charVal signed c * 10 + charVal signed d) + rtEinval = 528
  | _ => True

/-- Every entry of `pin_obj` stands at sixteen times the position of its port plus its pin. -/
theorem pinObj_of_ports {p n : Nat} (hn : n ≤ 15) {port : UInt8 × GpioTypeDef}
    (hp : ports[p]? = some port) : pinObj[16 * p + n]? = some (swmPin (16 * p + n) port.2 n) := by
  have h : ∀ p : Fin 7, ∀ n : Fin 16,
      pinObj[16 * p.val + n.val]? = ports[p.val]?.map fun q => swmPin (16 * p + n) q.2 n := by decide
  obtain ⟨hlt, -⟩ := List.getElem?_eq_some_iff.mp hp
  have hp7 : p < 7 := hlt
  have := h ⟨p, hp7⟩ ⟨n, by omega⟩
  rw [hp] at this
  exact this

/-- The `switch` finds sixteen times the position of the port. -/
theorem portBase_eq_some_iff {c : UInt8} {b : Int} :
    portBase c = some b ↔ ∃ p : Nat, ∃ port, ports[p]? = some port ∧ c = port.1 ∧ b = 16 * p := by
  constructor
  · intro h
    unfold portBase at h
    split at h
    · exact ⟨0, _, rfl, ‹_›, by simpa using h.symm⟩
    split at h
    · exact ⟨1, _, rfl, ‹_›, by simpa using h.symm⟩
    split at h
    · exact ⟨2, _, rfl, ‹_›, by simpa using h.symm⟩
    split at h
    · exact ⟨3, _, rfl, ‹_›, by simpa using h.symm⟩
    split at h
    · exact ⟨4, _, rfl, ‹_›, by simpa using h.symm⟩
    split at h
    · exact ⟨5, _, rfl, ‹_›, by simpa using h.symm⟩
    split at h
    · exact ⟨6, _, rfl, ‹_›, by simpa using h.symm⟩
    · cases h
  · rintro ⟨p, port, hp, rfl, rfl⟩
    have hall : ∀ p : Fin 7, ∀ port ∈ ports[p.val]?, portBase port.1 = some (16 * (p.val : Int)) := by
      decide
    obtain ⟨hlt, -⟩ := List.getElem?_eq_some_iff.mp hp
    exact hall ⟨p, hlt⟩ port hp

/-- The position of a port is determined by its letter. -/
theorem Shape.unique {name : CString} {p q : Nat} {s t : List UInt8} (hs : Shape name p s)
    (ht : Shape name q t) : p = q ∧ s = t := by
  obtain ⟨a, ha, hsa⟩ := hs
  obtain ⟨b, hb, htb⟩ := ht
  rw [hsa] at htb
  obtain ⟨-, hab, -, rfl⟩ : (80 : UInt8) = 80 ∧ a.1 = b.1 ∧ (46 : UInt8) = 46 ∧ s = t := by
    simpa using htb
  refine ⟨?_, rfl⟩
  have h1 := portBase_eq_some_iff.mpr ⟨p, a, ha, rfl, rfl⟩
  have h2 := portBase_eq_some_iff.mpr ⟨q, b, hb, rfl, rfl⟩
  rw [hab, h2, Option.some_inj] at h1
  omega

/-! ### What the parser computes -/

/-- The number the parser takes the characters behind the dot for. -/
def tailNumber (signed : Bool) (tail : List UInt8) : Int :=
  tail.foldl (fun n c => n * 10 + (charVal signed c - 48)) 0

theorem rtStrlen_mem_iff (name : CString) :
    ¬(name.rtStrlen < 4 ∨ 6 ≤ name.rtStrlen) ↔ name.chars.length = 4 ∨ name.chars.length = 5 := by
  have hfits := name.fits
  rw [CString.rtStrlen, BitVec.toInt_ofNat', Int.bmod_def]
  split <;> omega

theorem rtStrlen_of_length {name : CString} {k : Nat} (hk : k < 8) (h : name.chars.length = k) :
    name.rtStrlen = k := by
  rw [CString.rtStrlen, BitVec.toInt_ofNat', Int.bmod_def, h]
  split <;> omega

/-- A name of the right shape gives its number, if that is below 16. -/
theorem swmPinGet_of_shape [Errno] {signed : Bool} {name : CString} {p : Nat} {tail : List UInt8}
    (h : Shape name p tail) (hlen : tail.length = 1 ∨ tail.length = 2) :
    swmPinGet signed name =
      if tailNumber signed tail < 16 then 16 * p + tailNumber signed tail else -rtEinval := by
  obtain ⟨port, hport, hchars⟩ := h
  have hbase : portBase port.1 = some (16 * (p : Int)) :=
    portBase_eq_some_iff.mpr ⟨p, port, hport, rfl, rfl⟩
  obtain ⟨c, rfl⟩ | ⟨c, d, rfl⟩ : (∃ c, tail = [c]) ∨ ∃ c d, tail = [c, d] :=
    hlen.imp List.length_eq_one_iff.mp List.length_eq_two.mp
  · have hl := @rtStrlen_of_length name 4 (by decide) (by rw [hchars]; rfl)
    simp [swmPinGet, hl, CString.char, hchars, hbase, tailNumber, List.range'_succ]
  · have hl := @rtStrlen_of_length name 5 (by decide) (by rw [hchars]; rfl)
    simp [swmPinGet, hl, CString.char, hchars, hbase, tailNumber, List.range'_succ]

/-- Everything else is refused. -/
theorem swmPinGet_of_not_shape [Errno] {signed : Bool} {name : CString}
    (h : ¬∃ p tail, Shape name p tail ∧ (tail.length = 1 ∨ tail.length = 2)) :
    swmPinGet signed name = -rtEinval := by
  unfold swmPinGet
  simp only
  split
  · rfl
  rename_i hlen
  split
  · rfl
  rename_i hhead
  split
  · rfl
  rename_i b hb
  exfalso
  apply h
  obtain ⟨p, port, hport, hc, -⟩ := portBase_eq_some_iff.mp hb
  obtain ⟨h0, h2⟩ := not_or.mp hhead
  rw [rtStrlen_mem_iff] at hlen
  match hchars : name.chars with
  | x :: y :: z :: tail =>
      simp only [CString.char, hchars, List.getD_cons_zero, List.getD_cons_succ, not_not] at h0 h2 hc
      rw [hchars] at hlen
      refine ⟨p, tail, ⟨port, hport, ?_⟩, ?_⟩
      · rw [hchars, h0, h2, hc]
      · simpa using hlen
  | [] => simp [hchars] at hlen
  | [_] => simp [hchars] at hlen
  | [_, _] => simp [hchars] at hlen

theorem charVal_of_digit {c : UInt8} (signed : Bool) (h : Digit c) : charVal signed c = c.toNat := by
  obtain ⟨h1, h2⟩ := h
  cases signed
  · rfl
  · show c.toBitVec.toInt = (c.toBitVec.toNat : Int)
    rw [BitVec.toInt_eq_toNat_of_lt]
    change 2 * c.toNat < 2 ^ 8
    omega

/-- On digits the parser computes the number they denote. -/
theorem tailNumber_of_digits {signed : Bool} {tail : List UInt8} (h : ∀ c ∈ tail, Digit c) :
    tailNumber signed tail = decimal tail := by
  induction tail using List.reverseRecOn with
  | nil => rfl
  | append_singleton tail c ih =>
      have hc := h c (by simp)
      have ih := ih fun d hd => h d (by simp [hd])
      have ⟨h1, h2⟩ := hc
      rw [tailNumber, decimal] at ih ⊢
      rw [List.foldl_append, List.foldl_append, ih, List.foldl_cons, List.foldl_cons, List.foldl_nil,
        List.foldl_nil, charVal_of_digit signed hc]
      omega

/-- The digits of a well-formed name. -/
theorem Names.tailNumber_eq {name : CString} {p n : Nat} {digits : List UInt8} (signed : Bool)
    (h : Names name p n digits) : tailNumber signed digits = n := by
  rw [tailNumber_of_digits h.digit, h.value]

theorem swmPinGet_of_names [Errno] {name : CString} {p n : Nat} {digits : List UInt8} (signed : Bool)
    (h : Names name p n digits) : swmPinGet signed name = 16 * p + n := by
  rw [swmPinGet_of_shape h.shape h.length, h.tailNumber_eq signed, if_pos]
  have := h.bound
  omega

/-- In terms of the number computed: digits, a number that is too large, or the value of the error. -/
theorem tailSound_iff [Errno] {signed : Bool} {p : Nat} {tail : List UInt8}
    (hlen : tail.length = 1 ∨ tail.length = 2) :
    TailSound signed p tail ↔ (∀ c ∈ tail, Digit c) ∨ 16 ≤ tailNumber signed tail ∨
      16 * p + tailNumber signed tail = -rtEinval := by
  obtain ⟨c, rfl⟩ | ⟨c, d, rfl⟩ : (∃ c, tail = [c]) ∨ ∃ c d, tail = [c, d] :=
    hlen.imp List.length_eq_one_iff.mp List.length_eq_two.mp
  · simp only [TailSound, tailNumber, List.foldl_cons, List.foldl_nil, List.forall_mem_singleton]
    refine or_congr Iff.rfl (or_congr ?_ ?_)
    · omega
    · omega
  · simp only [TailSound, tailNumber, List.foldl_cons, List.foldl_nil]
    refine or_congr ?_ (or_congr ?_ ?_)
    · simp
    · omega
    · omega

theorem names_iff {name : CString} {p : Nat} {tail : List UInt8} (signed : Bool)
    (h : Shape name p tail) (hlen : tail.length = 1 ∨ tail.length = 2) :
    (∃ n, Names name p n tail) ↔ (∀ c ∈ tail, Digit c) ∧ tailNumber signed tail < 16 := by
  constructor
  · rintro ⟨n, hn⟩
    have := hn.bound
    exact ⟨hn.digit, by rw [hn.tailNumber_eq signed]; omega⟩
  · rintro ⟨hdigit, hlt⟩
    rw [tailNumber_of_digits hdigit] at hlt
    exact ⟨_, h, hlen, hdigit, rfl, by omega⟩

/-- The name of a pin is accepted with the right index. -/
theorem pinGetCorrect_of_names [Errno] {signed : Bool} {name : CString} {p n : Nat} {digits : List UInt8}
    (h : Names name p n digits) : PinGetCorrect signed name := by
  have hvalue := swmPinGet_of_names signed h
  refine ⟨iff_of_true (by omega) ⟨p, n, digits, h⟩, fun q m ds hm => ?_,
    fun hno => absurd ⟨p, n, digits, h⟩ hno⟩
  obtain ⟨port, hport, -⟩ := hm.shape
  exact ⟨swmPinGet_of_names signed hm, port, hport, pinObj_of_ports hm.bound hport⟩

/-- A string that names no pin is right to be refused. -/
theorem pinGetCorrect_of_refused [Errno] {signed : Bool} {name : CString}
    (hno : ¬∃ p n digits, Names name p n digits) (hrefused : swmPinGet signed name = -rtEinval) :
    PinGetCorrect signed name :=
  ⟨iff_of_false (by have := rtEinval_pos; omega) hno, fun p n digits h => absurd ⟨p, n, digits, h⟩ hno,
    fun _ => hrefused⟩

/-- A string of the shape of a name that is no name with its own tail is none at all. -/
theorem Shape.no_names {name : CString} {p : Nat} {tail : List UInt8} (h : Shape name p tail)
    (hno : ¬∃ n, Names name p n tail) : ¬∃ q n digits, Names name q n digits := by
  rintro ⟨q, n, digits, hn⟩
  obtain ⟨rfl, rfl⟩ := h.unique hn.shape
  exact hno ⟨n, hn⟩

/-- With one or two characters behind the dot the parser is right if and only if these are sound. -/
theorem swmPinGet_correct_iff_tail [Errno] {signed : Bool} {name : CString} {p : Nat} {tail : List UInt8}
    (h : Shape name p tail) (hlen : tail.length = 1 ∨ tail.length = 2) :
    PinGetCorrect signed name ↔ TailSound signed p tail := by
  have hget := @swmPinGet_of_shape _ signed name p tail h hlen
  rw [tailSound_iff hlen]
  constructor
  · intro hc
    by_contra hbad
    obtain ⟨hdigit, hbad⟩ := not_or.mp hbad
    obtain ⟨hlt, hne⟩ := not_or.mp hbad
    rw [if_pos (by omega)] at hget
    -- the name is not well formed, so the code would have to refuse it
    have hno := h.no_names fun ⟨n, hn⟩ => hdigit hn.digit
    exact hne (hget.symm.trans (hc.refuses hno))
  · intro ht
    by_cases hn : ∃ n, Names name p n tail
    · obtain ⟨n, hn⟩ := hn
      exact pinGetCorrect_of_names hn
    · apply pinGetCorrect_of_refused (h.no_names hn)
      rw [names_iff signed h hlen, not_and] at hn
      rw [hget]
      split
      · rcases ht with hdigit | hge | heq
        · exact absurd (hn hdigit) (by omega)
        · omega
        · exact heq
      · rfl

/-- A name is parsed correctly if and only if it does not have the shape of a pin's name, or what stands
behind its dot is sound. -/
theorem swmPinGet_correct_iff [Errno] (signed : Bool) (name : CString) :
    PinGetCorrect signed name ↔ ∀ p tail, Shape name p tail → TailSound signed p tail := by
  by_cases hshape : ∃ p tail, Shape name p tail ∧ (tail.length = 1 ∨ tail.length = 2)
  · obtain ⟨p, tail, h, hlen⟩ := hshape
    rw [swmPinGet_correct_iff_tail h hlen]
    refine ⟨fun ht q t hq => ?_, fun hall => hall p tail h⟩
    obtain ⟨rfl, rfl⟩ := h.unique hq
    exact ht
  · have hno : ¬∃ p n digits, Names name p n digits := by
      rintro ⟨p, n, digits, hn⟩
      exact hshape ⟨p, digits, hn.shape, hn.length⟩
    have hrefused := pinGetCorrect_of_refused hno (@swmPinGet_of_not_shape _ signed name hshape)
    refine iff_of_true hrefused fun p tail h => ?_
    match tail, h with
    | [], _ => trivial
    | [c], h => exact absurd ⟨p, _, h, Or.inl rfl⟩ hshape
    | [c, d], h => exact absurd ⟨p, _, h, Or.inr rfl⟩ hshape
    | _ :: _ :: _ :: _, _ => trivial

/-- `PA.:` is no pin's name and is taken for the pin 10. -/
def colonName : CString where
  chars := [80, 65, 46, 58]
  noNul := by decide
  fits := by decide

section Colon

attribute [local instance] Errno.armlibc

theorem swmPinGet_colon : swmPinGet false colonName = 10 ∧
    ¬∀ (signed : Bool) (name : CString), PinGetCorrect signed name := by
  refine ⟨by decide, fun h => ?_⟩
  obtain ⟨p, n, digits, hn⟩ := (h false colonName).accepts.mp (by decide)
  obtain ⟨port, -, hchars⟩ := hn.shape
  obtain ⟨-, -, rfl⟩ : 65 = port.1 ∧ (46 : UInt8) = 46 ∧ [58] = digits := by
    simpa [colonName] using hchars
  exact absurd (hn.digit 58 (by simp)) (by decide)

end Colon

end SwmLvgl.Gpio
