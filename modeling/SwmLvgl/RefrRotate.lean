import SwmLvgl.DispBlit
import SwmLvgl.Loops

/-! The rotation of a part of the picture in software (`draw_buf_rotate_180`, `draw_buf_rotate_90` and
`draw_buf_rotate_90_sqr` of `lv_refr.c`): the reversal of the buffer, the copy to a second buffer and, for a
square, the rotation in place. Each moves every pixel to its place in the rotated picture. -/

namespace SwmLvgl.Refr

open Disp (u32)

variable {γ : Type}

/-- The exchange of two pixels. -/
def swap (px : Nat → γ) (i j : Nat) : Nat → γ := Function.update (Function.update px i (px j)) j (px i)

/-- The loop of `draw_buf_rotate_180`. -/
def rotate180Step : Nat × Nat × (Nat → γ) → Nat × Nat × (Nat → γ) ⊕ (Nat → γ)
  | (i, j, px) => if i > j then .inl (i - 1, j + 1, swap px i j) else .inr px

/-- `draw_buf_rotate_180` on the pixels. -/
def drawBufRotate180 (total : Nat) (px : Nat → γ) : Option (Nat → γ) :=
  Loop.run rotate180Step (total + 1) (total - 1, 0, px)

/-- The body of the inner loop of `draw_buf_rotate_90`, on `rot_buf`, `i` and `orig_color_p`. -/
def rotate90Pixel (invertI : Bool) (areaH : Nat) (orig : Nat → γ) (st : (Nat → γ) × Nat × Nat) (_x : Nat) :
    (Nat → γ) × Nat × Nat :=
  let (rot, i, k) := st
  (Function.update rot i (orig k), if invertI then u32 (i + areaH) else u32 ((i : Int) - areaH), k + 1)

/-- The body of the outer loop, on `rot_buf` and `orig_color_p`. -/
def rotate90Row (invertI : Bool) (areaW areaH : Nat) (orig : Nat → γ) (st : (Nat → γ) × Nat) (y : Nat) :
    (Nat → γ) × Nat :=
  let invert := areaW * areaH - 1
  let initialI := (areaW - 1) * areaH
  let i := initialI + y
  let i := if invertI then invert - i else i
  let (rot, _, k) := (List.range areaW).foldl (rotate90Pixel invertI areaH orig) (st.1, i, st.2)
  (rot, k)

/-- `draw_buf_rotate_90` -/
def drawBufRotate90 (invertI : Bool) (areaW areaH : Nat) (orig rot : Nat → γ) : Nat → γ :=
  ((List.range areaH).foldl (rotate90Row invertI areaW areaH orig) (rot, 0)).1

/-- `draw_buf_rotate4` -/
def drawBufRotate4 (a b c d : Nat) (px : Nat → γ) : Nat → γ :=
  let tmp := px a
  let px := Function.update px a (px b)
  let px := Function.update px b (px c)
  let px := Function.update px c (px d)
  Function.update px d tmp

/-- The body of the inner loop of `draw_buf_rotate_90_sqr`. -/
def rotateSqrPixel (is270 : Bool) (w i : Nat) (px : Nat → γ) (j : Nat) : Nat → γ :=
  let invI := w - 1 - i
  let invJ := w - 1 - j
  if is270 then drawBufRotate4 (i * w + j) (invJ * w + i) (invI * w + invJ) (j * w + invI) px
  else drawBufRotate4 (i * w + j) (j * w + invI) (invI * w + invJ) (invJ * w + i) px

/-- `draw_buf_rotate_90_sqr` -/
def drawBufRotate90Sqr (is270 : Bool) (w : Nat) (px : Nat → γ) : Nat → γ :=
  (List.range (w / 2)).foldl
    (fun px i => (List.range ((w + 1) / 2)).foldl (rotateSqrPixel is270 w i) px) px

theorem swap_apply (px : Nat → γ) (i j k : Nat) :
    swap px i j k = if k = j then px i else if k = i then px j else px k := by
  rw [swap, Function.update_apply, Function.update_apply]

/-- The pixels are in reverse order. -/
theorem drawBufRotate180_spec (total : Nat) (px : Nat → γ) : ∃ px', drawBufRotate180 total px = some px' ∧
    (∀ k < total, px' k = px (total - 1 - k)) ∧ ∀ k, total ≤ k → px' k = px k := by
  -- outside `j` to `i` the exchange is done
  let I : Nat × Nat × (Nat → γ) → Prop := fun st => st.1 + st.2.1 = total - 1 ∧ st.2.1 ≤ total ∧
    ∀ k, st.2.2 k = if k < total ∧ (k < st.2.1 ∨ st.1 < k) then px (total - 1 - k) else px k
  refine Loop.run_of_measure (I := I) (fun st => st.1) (fun st hI => ?_) ?_ (by dsimp only; omega)
  · obtain ⟨i, j, q⟩ := st
    obtain ⟨hsum, hle, hq⟩ := hI
    dsimp only at hsum hle hq
    by_cases hij : i > j
    · refine .inl ⟨_, if_pos hij, ⟨by dsimp only; omega, by dsimp only; omega, fun k => ?_⟩, by dsimp only; omega⟩
      dsimp only
      rw [swap_apply, hq i, hq j, hq k]
      by_cases hkj : k = j
      · rw [if_pos hkj, if_neg (by omega), if_pos (by omega), show i = total - 1 - k by omega]
      · by_cases hki : k = i
        · rw [if_neg hkj, if_pos hki, if_neg (by omega), if_pos (by omega), show j = total - 1 - k by omega]
        · rw [if_neg hkj, if_neg hki]
          apply if_congr _ rfl rfl
          omega
    · refine .inr ⟨q, if_neg hij, fun k hk => ?_, fun k hk => ?_⟩
      · rw [hq]
        by_cases hmid : k < j ∨ i < k
        · rw [if_pos ⟨hk, hmid⟩]
        · rw [if_neg (by omega), show total - 1 - k = k by omega]
      · rw [hq, if_neg (by omega)]
  · refine ⟨by dsimp only; omega, by dsimp only; omega, fun k => ?_⟩
    dsimp only
    rw [if_neg (by omega)]

/-- The place of a pixel in a picture of `w` times `h` that is turned by 90 (or, inverted, 270) degrees. -/
def turned (invertI : Bool) (w h y x : Nat) : Nat :=
  if invertI then x * h + (h - 1 - y) else (w - 1 - x) * h + y

section Turn

variable {invertI : Bool} {w h x y : Nat} {orig : Nat → γ}

theorem turned_mod (hy : y < h) : turned invertI w h y x % h = if invertI then h - 1 - y else y := by
  rw [turned]
  split
  · rw [Nat.mul_comm, Nat.mul_add_mod, Nat.mod_eq_of_lt (by omega)]
  · rw [Nat.mul_comm, Nat.mul_add_mod, Nat.mod_eq_of_lt hy]

theorem turned_div (hy : y < h) : turned invertI w h y x / h = if invertI then x else w - 1 - x := by
  have hpos : 0 < h := by omega
  rw [turned]
  split
  · rw [Nat.mul_comm, Nat.mul_add_div hpos, Nat.div_eq_of_lt (by omega), Nat.add_zero]
  · rw [Nat.mul_comm, Nat.mul_add_div hpos, Nat.div_eq_of_lt hy, Nat.add_zero]

theorem turned_inj {x' y' : Nat} (hx : x < w) (hy : y < h) (hx' : x' < w) (hy' : y' < h)
    (heq : turned invertI w h y x = turned invertI w h y' x') : x = x' ∧ y = y' := by
  have hmod := @turned_mod invertI w h x y hy
  have hdiv := @turned_div invertI w h x y hy
  rw [heq, turned_mod hy'] at hmod
  rw [heq, turned_div hy'] at hdiv
  split at hmod <;> simp_all <;> omega

theorem turned_lt (hx : x < w) (hy : y < h) : turned invertI w h y x < w * h := by
  have hrow : ∀ k < w, k * h + h ≤ w * h := by
    intro k hk
    rw [← Nat.succ_mul]
    exact Nat.mul_le_mul_right h hk
  rw [turned]
  split
  · have := hrow x hx
    omega
  · have := hrow (w - 1 - x) (by omega)
    omega

/-- From one pixel of a row to the next. -/
theorem turned_succ (hx : x + 1 < w) (hy : y < h) (hlt : w * h < 2 ^ 32) :
    (if invertI then u32 ((turned invertI w h y x : Int) + h) else u32 ((turned invertI w h y x : Int) - h)) =
      turned invertI w h y (x + 1) := by
  have hnext := @turned_lt invertI w h (x + 1) y hx hy
  have hthis := @turned_lt invertI w h x y (by omega) hy
  cases invertI with
  | true =>
      simp only [turned, if_true, Nat.succ_mul] at hnext hthis ⊢
      rw [Disp.u32_of_lt (by omega) (by omega)]
      omega
  | false =>
      have hsplit : (w - 1 - x) * h = (w - 1 - (x + 1)) * h + h := by
        rw [← Nat.succ_mul]
        congr 1
        omega
      simp only [turned, Bool.false_eq_true, if_false, hsplit] at hnext hthis ⊢
      rw [Disp.u32_of_lt (by omega) (by omega)]
      omega

/-- One row: its pixels are where they belong, all others stay. -/
theorem rotate90Row_spec (hw : 0 < w) (hy : y < h) (hlt : w * h < 2 ^ 32) (rot : Nat → γ) (k : Nat) :
    ∃ rot', rotate90Row invertI w h orig (rot, k) y = (rot', k + w) ∧
      (∀ x < w, rot' (turned invertI w h y x) = orig (k + x)) ∧
      ∀ a, (∀ x < w, a ≠ turned invertI w h y x) → rot' a = rot a := by
  have hstart : (if invertI then w * h - 1 - ((w - 1) * h + y) else (w - 1) * h + y) =
      turned invertI w h y 0 := by
    have hsplit : w * h = (w - 1) * h + h := by
      rw [← Nat.succ_mul]
      congr 1
      omega
    rw [turned, Nat.sub_zero, Nat.zero_mul]
    split <;> omega
  let I : Nat → (Nat → γ) × Nat × Nat → Prop := fun m st =>
    (m < w → st.2.1 = turned invertI w h y m) ∧ st.2.2 = k + m ∧
      (∀ x < m, st.1 (turned invertI w h y x) = orig (k + x)) ∧
      ∀ a, (∀ x < m, a ≠ turned invertI w h y x) → st.1 a = rot a
  have hloop : I w ((List.range w).foldl (rotate90Pixel invertI h orig)
      (rot, turned invertI w h y 0, k)) := by
    refine Run.foldl_range (I := I) (fun m hm st hI => ?_) ⟨fun _ => rfl, rfl, nofun, fun _ _ => rfl⟩
    obtain ⟨q, i, k'⟩ := st
    obtain ⟨hi, hk, hdone, hkept⟩ := hI
    dsimp only at hi hk hdone hkept
    have hi := hi hm
    subst hi hk
    refine ⟨fun hm' => turned_succ hm' hy hlt, rfl, fun x hx => ?_, fun a ha => ?_⟩
    · dsimp only [rotate90Pixel]
      rcases Nat.lt_succ_iff_lt_or_eq.mp hx with hx | rfl
      · rw [Function.update_of_ne, hdone x hx]
        intro heq
        have := (turned_inj (by omega) hy hm hy heq).1
        omega
      · rw [Function.update_self]
    · dsimp only [rotate90Pixel]
      rw [Function.update_of_ne (ha m (Nat.lt_succ_self m))]
      exact hkept a fun x hx => ha x (Nat.lt_succ_of_lt hx)
  obtain ⟨-, hk, hdone, hkept⟩ := hloop
  refine ⟨_, ?_, hdone, hkept⟩
  rw [rotate90Row]
  dsimp only
  rw [hstart, hk]

/-- **The copy to a second buffer** turns the picture. -/
theorem drawBufRotate90_spec (hw : 0 < w) (hlt : w * h < 2 ^ 32) (rot : Nat → γ) (hy : y < h) (hx : x < w) :
    drawBufRotate90 invertI w h orig rot (turned invertI w h y x) = orig (y * w + x) := by
  let I : Nat → (Nat → γ) × Nat → Prop := fun m st =>
    st.2 = m * w ∧ ∀ y < m, ∀ x < w, st.1 (turned invertI w h y x) = orig (y * w + x)
  have hloop : I h ((List.range h).foldl (rotate90Row invertI w h orig) (rot, 0)) := by
    refine Run.foldl_range (I := I) (fun m hm st hI => ?_) ⟨(Nat.zero_mul w).symm, nofun⟩
    obtain ⟨q, k⟩ := st
    obtain ⟨rfl, hdone⟩ := hI
    obtain ⟨q', hq', hrow, hkept⟩ := @rotate90Row_spec _ invertI w h m orig hw hm hlt q (m * w)
    rw [hq']
    refine ⟨(Nat.succ_mul m w).symm, fun y hy x hx => ?_⟩
    dsimp only at hdone ⊢
    rcases Nat.lt_succ_iff_lt_or_eq.mp hy with hy | rfl
    · rw [hkept, hdone y hy x hx]
      intro x' hx' heq
      have := (turned_inj hx (by omega) hx' hm heq).2
      omega
    · exact hrow x hx
  exact hloop.2 y hy x hx

end Turn

/-! ### A square in place -/

section Square

variable {is270 : Bool} {w i j r c : Nat} {px orig : Nat → γ}

/-- Where the pixel of a row and column of the turned square comes from. -/
def origin (is270 : Bool) (w r c : Nat) : Nat × Nat := if is270 then (w - 1 - c, r) else (c, w - 1 - r)

/-- The four cells that go round with the cell in row `i` and column `j`. -/
def OnOrbit (w i j r c : Nat) : Prop :=
  (r = i ∧ c = j) ∨ (r = j ∧ c = w - 1 - i) ∨ (r = w - 1 - i ∧ c = w - 1 - j) ∨ (r = w - 1 - j ∧ c = i)

instance (w i j r c : Nat) : Decidable (OnOrbit w i j r c) := inferInstanceAs (Decidable (_ ∨ _ ∨ _ ∨ _))

theorem cell_inj {r' c' : Nat} (hc : c < w) (hc' : c' < w) : r * w + c = r' * w + c' ↔ r = r' ∧ c = c' := by
  refine ⟨fun heq => ?_, fun h => by rw [h.1, h.2]⟩
  rcases Nat.lt_trichotomy r r' with hlt | rfl | hlt
  · have := Nat.mul_le_mul_right w (Nat.succ_le_of_lt hlt)
    rw [Nat.succ_mul] at this
    omega
  · omega
  · have := Nat.mul_le_mul_right w (Nat.succ_le_of_lt hlt)
    rw [Nat.succ_mul] at this
    omega

theorem drawBufRotate4_apply {a b c d : Nat} (hac : a ≠ c) (had : a ≠ d) (hbd : b ≠ d) (k : Nat) :
    drawBufRotate4 a b c d px k =
      if k = d then px a else if k = c then px d else if k = b then px c else if k = a then px b else px k := by
  simp only [drawBufRotate4, Function.update_apply, if_neg hac.symm, if_neg had.symm, if_neg hbd.symm]

/-- A pass of the inner loop turns four cells. -/
theorem rotateSqrPixel_apply (hi : i < w / 2) (hj : j < (w + 1) / 2) (hr : r < w) (hc : c < w) :
    rotateSqrPixel is270 w i px j (r * w + c) =
      if OnOrbit w i j r c then px ((origin is270 w r c).1 * w + (origin is270 w r c).2)
      else px (r * w + c) := by
  have hcell : ∀ r' c', c' < w → (r * w + c = r' * w + c' ↔ r = r' ∧ c = c') := fun r' c' hc' =>
    cell_inj hc hc'
  have hne : ∀ r c r' c', c < w → c' < w → ¬(r = r' ∧ c = c') → r * w + c ≠ r' * w + c' :=
    fun r c r' c' h h' hne heq => hne ((cell_inj h h').mp heq)
  have hj' : j < w := by omega
  have hi' : i < w := by omega
  have hinvj : w - 1 - j < w := by omega
  have hinvi : w - 1 - i < w := by omega
  have hbacki : w - 1 - (w - 1 - i) = i := by omega
  have hbackj : w - 1 - (w - 1 - j) = j := by omega
  -- cells of the orbit that are not next to each other are different
  have hopposite : i * w + j ≠ (w - 1 - i) * w + (w - 1 - j) := hne _ _ _ _ hj' hinvj (by omega)
  have hopposite' : j * w + (w - 1 - i) ≠ (w - 1 - j) * w + i := hne _ _ _ _ hinvi hi' (by omega)
  have hnext : i * w + j ≠ j * w + (w - 1 - i) := hne _ _ _ _ hj' hinvi (by omega)
  have hnext' : i * w + j ≠ (w - 1 - j) * w + i := hne _ _ _ _ hj' hi' (by omega)
  by_cases hon : OnOrbit w i j r c
  · rw [if_pos hon, rotateSqrPixel, origin]
    -- the place of the cell among the four decides which exchange it is in
    split
    · rw [drawBufRotate4_apply hopposite hnext hopposite'.symm]
      simp only [hcell _ _ hj', hcell _ _ hi', hcell _ _ hinvj, hcell _ _ hinvi]
      rcases hon with ⟨rfl, rfl⟩ | ⟨rfl, rfl⟩ | ⟨rfl, rfl⟩ | ⟨rfl, rfl⟩
      · rw [if_neg (by omega), if_neg (by omega), if_neg (by omega), if_pos (by omega)]
      · rw [if_pos (by omega), hbacki]
      · rw [if_neg (by omega), if_pos (by omega), hbackj]
      · rw [if_neg (by omega), if_neg (by omega), if_pos (by omega)]
    · rw [drawBufRotate4_apply hopposite hnext' hopposite']
      simp only [hcell _ _ hj', hcell _ _ hi', hcell _ _ hinvj, hcell _ _ hinvi]
      rcases hon with ⟨rfl, rfl⟩ | ⟨rfl, rfl⟩ | ⟨rfl, rfl⟩ | ⟨rfl, rfl⟩
      · rw [if_neg (by omega), if_neg (by omega), if_neg (by omega), if_pos (by omega)]
      · rw [if_neg (by omega), if_neg (by omega), if_pos (by omega)]
      · rw [if_neg (by omega), if_pos (by omega), hbacki]
      · rw [if_pos (by omega), hbackj]
  · rw [if_neg hon, rotateSqrPixel]
    obtain ⟨h₁, hrest⟩ := not_or.mp hon
    obtain ⟨h₂, hrest⟩ := not_or.mp hrest
    obtain ⟨h₃, h₄⟩ := not_or.mp hrest
    split
    · rw [drawBufRotate4_apply hopposite hnext hopposite'.symm]
      simp only [hcell _ _ hj', hcell _ _ hi', hcell _ _ hinvj, hcell _ _ hinvi, if_neg h₁, if_neg h₂, if_neg h₃,
        if_neg h₄]
    · rw [drawBufRotate4_apply hopposite hnext' hopposite']
      simp only [hcell _ _ hj', hcell _ _ hi', hcell _ _ hinvj, hcell _ _ hinvi, if_neg h₁, if_neg h₂, if_neg h₃,
        if_neg h₄]

/-- The cells that have been turned before the pass for `i` and `j`: their orbit has been met. -/
def Turned (w i j r c : Nat) : Prop := ∃ i' j', j' < (w + 1) / 2 ∧ (i' < i ∨ i' = i ∧ j' < j) ∧ OnOrbit w i' j' r c

/-- Two cells of the quarter have no common orbit. -/
theorem OnOrbit.unique {i' j' : Nat} (hi : i < w / 2) (hj : j < (w + 1) / 2) (hi' : i' < w / 2)
    (hj' : j' < (w + 1) / 2) (h : OnOrbit w i j r c) (h' : OnOrbit w i' j' r c) : i = i' ∧ j = j' := by
  unfold OnOrbit at h h'
  omega

/-- With a cell, the one it comes from is on the orbit. -/
theorem OnOrbit.origin (hi : i < w) (hj : j < w) (h : OnOrbit w i j r c) :
    OnOrbit w i j (Refr.origin is270 w r c).1 (Refr.origin is270 w r c).2 := by
  have hbacki : w - 1 - (w - 1 - i) = i := by omega
  have hbackj : w - 1 - (w - 1 - j) = j := by omega
  rw [Refr.origin]
  split
  · rcases h with ⟨rfl, rfl⟩ | ⟨rfl, rfl⟩ | ⟨rfl, rfl⟩ | ⟨rfl, rfl⟩
    · exact .inr (.inr (.inr ⟨rfl, rfl⟩))
    · exact .inl ⟨hbacki, rfl⟩
    · exact .inr (.inl ⟨hbackj, rfl⟩)
    · exact .inr (.inr (.inl ⟨rfl, rfl⟩))
  · rcases h with ⟨rfl, rfl⟩ | ⟨rfl, rfl⟩ | ⟨rfl, rfl⟩ | ⟨rfl, rfl⟩
    · exact .inr (.inl ⟨rfl, rfl⟩)
    · exact .inr (.inr (.inl ⟨rfl, rfl⟩))
    · exact .inr (.inr (.inr ⟨rfl, hbacki⟩))
    · exact .inl ⟨rfl, hbackj⟩

/-- Every cell is on the orbit of one in the quarter, or in the centre. -/
theorem exists_onOrbit (hr : r < w) (hc : c < w) :
    (∃ i j, i < w / 2 ∧ j < (w + 1) / 2 ∧ OnOrbit w i j r c) ∨ r = w - 1 - r ∧ c = r := by
  unfold OnOrbit
  by_cases h₁ : r < w / 2 ∧ c < (w + 1) / 2
  · exact .inl ⟨r, c, h₁.1, h₁.2, .inl ⟨rfl, rfl⟩⟩
  by_cases h₂ : r < (w + 1) / 2 ∧ w - 1 - c < w / 2
  · exact .inl ⟨w - 1 - c, r, h₂.2, h₂.1, .inr (.inl (by omega))⟩
  by_cases h₃ : w - 1 - r < w / 2 ∧ w - 1 - c < (w + 1) / 2
  · exact .inl ⟨w - 1 - r, w - 1 - c, h₃.1, h₃.2, .inr (.inr (.inl (by omega)))⟩
  by_cases h₄ : c < w / 2 ∧ w - 1 - r < (w + 1) / 2
  · exact .inl ⟨c, w - 1 - r, h₄.1, h₄.2, .inr (.inr (.inr (by omega)))⟩
  · right
    omega

theorem turned_succ_iff (hj : j < (w + 1) / 2) :
    Turned w i (j + 1) r c ↔ Turned w i j r c ∨ OnOrbit w i j r c := by
  constructor
  · rintro ⟨i', j', hj', hlt, hon⟩
    by_cases heq : i' = i ∧ j' = j
    · obtain ⟨rfl, rfl⟩ := heq
      exact .inr hon
    · exact .inl ⟨i', j', hj', by omega, hon⟩
  · rintro (⟨i', j', hj', hlt, hon⟩ | hon)
    · exact ⟨i', j', hj', by omega, hon⟩
    · exact ⟨i, j, hj, .inr ⟨rfl, Nat.lt_succ_self j⟩, hon⟩

theorem turned_row_iff : Turned w i ((w + 1) / 2) r c ↔ Turned w (i + 1) 0 r c := by
  constructor <;>
  · rintro ⟨i', j', hj', hlt, hon⟩
    exact ⟨i', j', hj', by omega, hon⟩

/-- The square in the course of the rotation. -/
def PartTurned (is270 : Bool) (w : Nat) (px : Nat → γ) (i j : Nat) (q : Nat → γ) : Prop :=
  ∀ r < w, ∀ c < w,
    (Turned w i j r c → q (r * w + c) = px ((origin is270 w r c).1 * w + (origin is270 w r c).2)) ∧
      (¬Turned w i j r c → q (r * w + c) = px (r * w + c))

theorem PartTurned.pixel {q : Nat → γ} (hi : i < w / 2) (hj : j < (w + 1) / 2)
    (h : PartTurned is270 w px i j q) : PartTurned is270 w px i (j + 1) (rotateSqrPixel is270 w i q j) := by
  intro r hr c hc
  rw [rotateSqrPixel_apply hi hj hr hc, turned_succ_iff hj]
  by_cases hon : OnOrbit w i j r c
  · rw [if_pos hon]
    refine ⟨fun _ => ?_, fun hnot => absurd (.inr hon) hnot⟩
    -- the cell that it comes from is on the same orbit, and still in its place
    have horigin : OnOrbit w i j (origin is270 w r c).1 (origin is270 w r c).2 :=
      hon.origin (by omega) (by omega)
    have hlt : (origin is270 w r c).1 < w ∧ (origin is270 w r c).2 < w := by
      rw [origin]
      split <;> dsimp only <;> omega
    refine (h _ hlt.1 _ hlt.2).2 ?_
    rintro ⟨i', j', hj', hbefore, hon'⟩
    have := horigin.unique hi hj (by omega) hj' hon'
    omega
  · rw [if_neg hon, or_iff_left hon]
    exact h r hr c hc

/-- **The rotation in place** turns the square. -/
theorem drawBufRotate90Sqr_spec (hr : r < w) (hc : c < w) : drawBufRotate90Sqr is270 w px (r * w + c) =
    px ((origin is270 w r c).1 * w + (origin is270 w r c).2) := by
  have hstart : PartTurned is270 w px 0 0 px := by
    intro r _ c _
    refine ⟨?_, fun _ => rfl⟩
    rintro ⟨i, j, -, hlt, -⟩
    omega
  have hlast : PartTurned is270 w px (w / 2) 0 (drawBufRotate90Sqr is270 w px) := by
    refine Run.foldl_range (I := fun i => PartTurned is270 w px i 0) (fun i hi q hq => ?_) hstart
    have hrow : PartTurned is270 w px i ((w + 1) / 2)
        ((List.range ((w + 1) / 2)).foldl (rotateSqrPixel is270 w i) q) :=
      Run.foldl_range (I := PartTurned is270 w px i) (fun j hj q hq => hq.pixel hi hj) hq
    intro r hr c hc
    rw [← turned_row_iff]
    exact hrow r hr c hc
  rcases exists_onOrbit hr hc with ⟨i, j, hi, hj, hon⟩ | ⟨hcentre, rfl⟩
  · exact (hlast r hr c hc).1 ⟨i, j, hj, .inl hi, hon⟩
  · by_cases hturned : Turned w (w / 2) 0 c c
    · exact (hlast c hr c hc).1 hturned
    · rw [(hlast c hr c hc).2 hturned, origin]
      split
      · rw [← hcentre]
      · rw [← hcentre]

/-- Nothing behind the square is touched. -/
theorem drawBufRotate90Sqr_of_le {k : Nat} (hk : w * w ≤ k) : drawBufRotate90Sqr is270 w px k = px k := by
  have hlt : ∀ r < w, ∀ c < w, k ≠ r * w + c := by
    intro r hr c hc
    have hrow : r * w + w ≤ w * w := by
      rw [← Nat.succ_mul]
      exact Nat.mul_le_mul_right w hr
    omega
  have hpixel : ∀ i < w / 2, ∀ j < (w + 1) / 2, ∀ q : Nat → γ, rotateSqrPixel is270 w i q j k = q k := by
    intro i hi j hj q
    have hne : ∀ a b c d : Nat, k ≠ a → k ≠ b → k ≠ c → k ≠ d → drawBufRotate4 a b c d q k = q k := by
      intro a b c d ha hb hc hd
      simp only [drawBufRotate4, Function.update_of_ne ha, Function.update_of_ne hb, Function.update_of_ne hc,
        Function.update_of_ne hd]
    rw [rotateSqrPixel]
    split
    · exact hne _ _ _ _ (hlt _ (by omega) _ (by omega)) (hlt _ (by omega) _ (by omega))
        (hlt _ (by omega) _ (by omega)) (hlt _ (by omega) _ (by omega))
    · exact hne _ _ _ _ (hlt _ (by omega) _ (by omega)) (hlt _ (by omega) _ (by omega))
        (hlt _ (by omega) _ (by omega)) (hlt _ (by omega) _ (by omega))
  let I : Nat → (Nat → γ) → Prop := fun _ q => q k = px k
  refine Run.foldl_range (I := I) (fun i hi q hq => ?_) rfl
  exact Run.foldl_range (I := I) (fun j hj q hq => (hpixel i hi j hj q).trans hq) hq

/-- The rotation in place and the copy put the pixels of a square in the same places. -/
theorem drawBufRotate90Sqr_turned {x y : Nat} (hx : x < w) (hy : y < w) :
    drawBufRotate90Sqr is270 w px (turned is270 w w y x) = px (y * w + x) := by
  rw [turned]
  split
  · next h270 =>
    rw [drawBufRotate90Sqr_spec hx (by omega), origin, if_pos h270]
    dsimp only
    rw [show w - 1 - (w - 1 - y) = y by omega]
  · next h90 =>
    rw [drawBufRotate90Sqr_spec (by omega) hy, origin, if_neg h90]
    congr 1
    show y * w + (w - 1 - (w - 1 - x)) = y * w + x
    omega

end Square

end SwmLvgl.Refr
