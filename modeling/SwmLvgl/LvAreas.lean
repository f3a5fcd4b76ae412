import SwmLvgl.DispFlush

/-! The areas of LVGL (`lv_area.c`) as sets of pixels. The difference of two areas is meant to be their
difference as sets, up to the rows and columns at the cut; where an area of one row is cut on its right, the
left rest is lost. -/

namespace SwmLvgl.Disp

open Pm (lvCoord lvCoord_of_range)

namespace LvArea

variable (a b : LvArea)

/-- The pixels of an area. -/
def points : Set (Int × Int) := {p | (a.x1 ≤ p.1 ∧ p.1 ≤ a.x2) ∧ a.y1 ≤ p.2 ∧ p.2 ≤ a.y2}

/-- `lv_area_get_width` -/
def getWidth : Int := lvCoord (a.x2 - a.x1 + 1)

/-- `lv_area_get_height` -/
def getHeight : Int := lvCoord (a.y2 - a.y1 + 1)

/-- `lv_area_get_size` -/
def getSize : Nat := u32 ((a.x2 - a.x1 + 1) * (a.y2 - a.y1 + 1))

/-- `lv_area_increase` -/
def increase (wExtra hExtra : Int) : LvArea :=
  ⟨lvCoord (a.x1 - wExtra), lvCoord (a.y1 - hExtra), lvCoord (a.x2 + wExtra), lvCoord (a.y2 + hExtra)⟩

/-- `_lv_area_intersect` -/
def intersect : LvArea × Bool :=
  let res : LvArea := ⟨max a.x1 b.x1, max a.y1 b.y1, min a.x2 b.x2, min a.y2 b.y2⟩
  (res, decide (¬(res.x1 > res.x2 ∨ res.y1 > res.y2)))

/-- `_lv_area_join` -/
def join : LvArea := ⟨min a.x1 b.x1, min a.y1 b.y1, max a.x2 b.x2, max a.y2 b.y2⟩

/-- `_lv_area_is_on` -/
def isOn : Bool := decide (a.x1 ≤ b.x2 ∧ a.x2 ≥ b.x1 ∧ a.y1 ≤ b.y2 ∧ a.y2 ≥ b.y1)

/-- `_lv_area_is_in`, with radius 0. -/
def isIn : Bool := decide (a.x1 ≥ b.x1 ∧ a.y1 ≥ b.y1 ∧ a.x2 ≤ b.x2 ∧ a.y2 ≤ b.y2)

/-- `_lv_area_diff`; none for -1. -/
def diff : Option (List LvArea) :=
  if a.isOn b = false then none
  else if a.isIn b then some []
  else
    let w := lvCoord (a.getWidth - 1)
    let h := lvCoord (a.getHeight - 1)
    let th := lvCoord (b.y1 - a.y1)
    let top : List LvArea := if th > 0 then [⟨a.x1, a.y1, a.x2, lvCoord (a.y1 + th)⟩] else []
    let bh := lvCoord (h - (b.y2 - a.y1))
    let bottom : List LvArea :=
      if bh > 0 ∧ b.y2 < a.y2 then [⟨a.x1, b.y2, a.x2, lvCoord (b.y2 + bh)⟩] else []
    let y1 := if b.y1 > a.y1 then b.y1 else a.y1
    let y2 := if b.y2 < a.y2 then b.y2 else a.y2
    let sh := lvCoord (y2 - y1)
    let lw := lvCoord (b.x1 - a.x1)
    let left : List LvArea :=
      if lw > 0 ∧ sh > 0 then [⟨a.x1, y1, lvCoord (a.x1 + lw), lvCoord (y1 + sh)⟩] else []
    let rw := lvCoord (w - (b.x2 - a.x1))
    let right : List LvArea := if rw > 0 then [⟨b.x2, y1, lvCoord (b.x2 + rw), lvCoord (y1 + sh)⟩] else []
    some (top ++ bottom ++ left ++ right)

/-- A non-empty area of a screen. -/
structure Proper : Prop where
  x : 0 ≤ a.x1 ∧ a.x1 ≤ a.x2 ∧ a.x2 + 1 < 2 ^ 15
  y : 0 ≤ a.y1 ∧ a.y1 ≤ a.y2 ∧ a.y2 + 1 < 2 ^ 15

variable {a b} {p : Int × Int}

theorem mem_points : p ∈ a.points ↔ (a.x1 ≤ p.1 ∧ p.1 ≤ a.x2) ∧ a.y1 ≤ p.2 ∧ p.2 ≤ a.y2 := Iff.rfl

instance (p : Int × Int) : Decidable (p ∈ a.points) := inferInstanceAs (Decidable ((_ ∧ _) ∧ _ ∧ _))

theorem mem_intersect : p ∈ (a.intersect b).1.points ↔ p ∈ a.points ∧ p ∈ b.points := by
  simp only [intersect, mem_points]
  omega

/-- The flag says whether the areas have a pixel in common. -/
theorem intersect_nonempty : (a.intersect b).2 = true ↔ (a.points ∩ b.points).Nonempty := by
  simp only [intersect, decide_eq_true_iff]
  constructor
  · intro h
    refine ⟨(max a.x1 b.x1, max a.y1 b.y1), ?_, ?_⟩ <;> rw [mem_points] <;> omega
  · rintro ⟨p, ha, hb⟩
    rw [mem_points] at ha hb
    omega

theorem isIn_iff : a.isIn b = true ↔ a.x1 ≥ b.x1 ∧ a.y1 ≥ b.y1 ∧ a.x2 ≤ b.x2 ∧ a.y2 ≤ b.y2 :=
  decide_eq_true_iff

theorem subset_of_isIn (h : a.isIn b = true) : a.points ⊆ b.points := by
  intro p hp
  rw [isIn_iff] at h
  rw [mem_points] at hp ⊢
  omega

theorem subset_join_left : a.points ⊆ (a.join b).points := by
  intro p hp
  rw [mem_points] at hp
  show (min a.x1 b.x1 ≤ p.1 ∧ p.1 ≤ max a.x2 b.x2) ∧ min a.y1 b.y1 ≤ p.2 ∧ p.2 ≤ max a.y2 b.y2
  omega

theorem subset_join_right : b.points ⊆ (a.join b).points := by
  intro p hp
  rw [mem_points] at hp
  show (min a.x1 b.x1 ≤ p.1 ∧ p.1 ≤ max a.x2 b.x2) ∧ min a.y1 b.y1 ≤ p.2 ∧ p.2 ≤ max a.y2 b.y2
  omega

theorem isOn_iff (ha : a.Proper) (hb : b.Proper) : a.isOn b = true ↔ (a.points ∩ b.points).Nonempty := by
  obtain ⟨hax, hay⟩ := ha
  obtain ⟨hbx, hby⟩ := hb
  simp only [isOn, decide_eq_true_iff]
  constructor
  · intro h
    refine ⟨(max a.x1 b.x1, max a.y1 b.y1), ?_, ?_⟩ <;> rw [mem_points] <;> omega
  · rintro ⟨p, ha, hb⟩
    rw [mem_points] at ha hb
    omega

/-- The cut that goes wrong: an area of one row, of which the left end stays. -/
def LosesLeft (a b : LvArea) : Prop := a.y1 = a.y2 ∧ a.x1 < b.x1

instance (a b : LvArea) : Decidable (LosesLeft a b) := inferInstanceAs (Decidable (_ ∧ _))

/-- The difference without the conversions to `lv_coord_t`. -/
theorem diff_eq (ha : a.Proper) (hb : b.Proper) : a.diff b =
    if a.isOn b = false then none
    else if a.isIn b then some []
    else
      some ((if a.y1 < b.y1 then [⟨a.x1, a.y1, a.x2, b.y1⟩] else []) ++
        (if b.y2 < a.y2 then [⟨a.x1, b.y2, a.x2, a.y2⟩] else []) ++
        (if a.x1 < b.x1 ∧ max a.y1 b.y1 < min a.y2 b.y2 then
          [⟨a.x1, max a.y1 b.y1, b.x1, min a.y2 b.y2⟩] else []) ++
        if b.x2 < a.x2 then [⟨b.x2, max a.y1 b.y1, a.x2, min a.y2 b.y2⟩] else []) := by
  obtain ⟨hax, hay⟩ := ha
  obtain ⟨hbx, hby⟩ := hb
  have hy1 : (if b.y1 > a.y1 then b.y1 else a.y1) = max a.y1 b.y1 := by split <;> omega
  have hy2 : (if b.y2 < a.y2 then b.y2 else a.y2) = min a.y2 b.y2 := by split <;> omega
  have hw : lvCoord (a.getWidth - 1) = a.x2 - a.x1 := by
    rw [getWidth, lvCoord_of_range (v := a.x2 - a.x1 + 1) (by omega) (by omega), lvCoord_of_range] <;> omega
  have hh : lvCoord (a.getHeight - 1) = a.y2 - a.y1 := by
    rw [getHeight, lvCoord_of_range (v := a.y2 - a.y1 + 1) (by omega) (by omega), lvCoord_of_range] <;> omega
  have hth : lvCoord (b.y1 - a.y1) = b.y1 - a.y1 := lvCoord_of_range (by omega) (by omega)
  have hlw : lvCoord (b.x1 - a.x1) = b.x1 - a.x1 := lvCoord_of_range (by omega) (by omega)
  have hbh : lvCoord (a.y2 - a.y1 - (b.y2 - a.y1)) = a.y2 - b.y2 := by
    rw [lvCoord_of_range] <;> omega
  have hrw : lvCoord (a.x2 - a.x1 - (b.x2 - a.x1)) = a.x2 - b.x2 := by
    rw [lvCoord_of_range] <;> omega
  have hback : ∀ u v : Int, 0 ≤ v → v < 2 ^ 15 → lvCoord (u + (v - u)) = v := by
    intro u v hv hv'
    rw [show u + (v - u) = v by omega, lvCoord_of_range (by omega) hv']
  unfold diff
  split
  · rfl
  · next hon =>
    have hon : a.isOn b = true := by simpa using hon
    rw [isOn, decide_eq_true_iff] at hon
    split
    · rfl
    · have hsh : lvCoord (min a.y2 b.y2 - max a.y1 b.y1) = min a.y2 b.y2 - max a.y1 b.y1 := by
        rw [lvCoord_of_range] <;> omega
      simp only [hy1, hy2, hw, hh, hth, hlw, hbh, hrw, hsh]
      rw [hback _ _ (by omega) (by omega), hback _ _ (by omega) (by omega), hback _ _ (by omega) (by omega),
        hback _ _ (by omega) (by omega), hback _ _ (by omega) (by omega)]
      simp only [gt_iff_lt, Int.sub_pos, and_self]

/-- The parts of the difference. -/
theorem mem_diff (ha : a.Proper) (hb : b.Proper) (hon : a.isOn b = true) (hout : ¬a.isIn b = true) :
    ∃ l, a.diff b = some l ∧ ∀ c, c ∈ l ↔
      (((a.y1 < b.y1 ∧ c = ⟨a.x1, a.y1, a.x2, b.y1⟩) ∨ (b.y2 < a.y2 ∧ c = ⟨a.x1, b.y2, a.x2, a.y2⟩)) ∨
        ((a.x1 < b.x1 ∧ max a.y1 b.y1 < min a.y2 b.y2) ∧ c = ⟨a.x1, max a.y1 b.y1, b.x1, min a.y2 b.y2⟩)) ∨
        b.x2 < a.x2 ∧ c = ⟨b.x2, max a.y1 b.y1, a.x2, min a.y2 b.y2⟩ := by
  rw [diff_eq ha hb, if_neg (by simp [hon]), if_neg hout]
  refine ⟨_, rfl, fun c => ?_⟩
  simp only [List.mem_append, List.mem_ite_nil_right, List.mem_singleton]

/-- The parts lie in the first area. -/
theorem diff_parts (ha : a.Proper) (hb : b.Proper) (hon : a.isOn b = true) :
    ∃ l, a.diff b = some l ∧ ∀ c ∈ l, c.Proper ∧ c.points ⊆ a.points := by
  by_cases hin : a.isIn b = true
  · exact ⟨[], by rw [diff_eq ha hb, if_neg (by simp [hon]), if_pos hin], nofun⟩
  · obtain ⟨l, hl, hmem⟩ := mem_diff ha hb hon hin
    rw [isOn, decide_eq_true_iff] at hon
    obtain ⟨hax, hay⟩ := ha
    obtain ⟨hbx, hby⟩ := hb
    refine ⟨l, hl, fun c hc => ?_⟩
    rcases (hmem c).mp hc with ((⟨h, rfl⟩ | ⟨h, rfl⟩) | ⟨h, rfl⟩) | ⟨h, rfl⟩ <;>
    · refine ⟨⟨?_, ?_⟩, fun p hp => ?_⟩
      · dsimp only
        omega
      · dsimp only
        omega
      · rw [mem_points] at hp ⊢
        dsimp only at hp
        omega

/-- Where the left end is not lost nothing is. -/
theorem diff_cover (ha : a.Proper) (hb : b.Proper) {l : List LvArea} (h : a.diff b = some l)
    (hkeep : ¬LosesLeft a b) (hp : p ∈ a.points) (hpb : p ∉ b.points) : ∃ c ∈ l, p ∈ c.points := by
  have hon : a.isOn b = true := by
    by_contra hoff
    rw [diff, if_pos (by simpa using hoff)] at h
    cases h
  have hout : ¬a.isIn b = true := fun hin => hpb (subset_of_isIn hin hp)
  obtain ⟨l', hl', hmem⟩ := mem_diff ha hb hon hout
  cases h.symm.trans hl'
  obtain ⟨hax, hay⟩ := ha
  obtain ⟨hbx, hby⟩ := hb
  simp only [hmem, or_and_right, exists_or, and_assoc, exists_and_left, exists_eq_left]
  rw [isOn, decide_eq_true_iff] at hon
  unfold LosesLeft at hkeep
  simp only [mem_points] at hp hpb ⊢
  omega

/-- **The difference of two areas**: its parts lie in the first area, and they have every pixel of it that
is not in the second one, if and only if no left end is lost. -/
theorem diff_exact (ha : a.Proper) (hb : b.Proper) (hon : (a.points ∩ b.points).Nonempty) :
    ∃ l, a.diff b = some l ∧ (∀ c ∈ l, c.Proper ∧ c.points ⊆ a.points) ∧
      ((∀ p ∈ a.points, p ∉ b.points → ∃ c ∈ l, p ∈ c.points) ↔ ¬LosesLeft a b) := by
  have hon' := (isOn_iff ha hb).mpr hon
  obtain ⟨l, hl, hparts⟩ := diff_parts ha hb hon'
  refine ⟨l, hl, hparts, ?_, fun hkeep p hp hpb => diff_cover ha hb hl hkeep hp hpb⟩
  rintro h ⟨hrow, hlt⟩
  have hout : ¬a.isIn b = true := by
    rw [isIn_iff]
    omega
  obtain ⟨l', hl', hmem⟩ := mem_diff ha hb hon' hout
  cases hl.symm.trans hl'
  rw [isOn, decide_eq_true_iff] at hon'
  obtain ⟨hax, hay⟩ := ha
  obtain ⟨hbx, hby⟩ := hb
  -- the first pixel of the row is in no part
  have hfirst := h (a.x1, a.y1) (by rw [mem_points]; omega) (by rw [mem_points]; omega)
  simp only [hmem, or_and_right, exists_or, and_assoc, exists_and_left, exists_eq_left] at hfirst
  simp only [mem_points] at hfirst
  omega

/-- A row that is cut in the middle. -/
theorem diff_exact_row : ∃ l, LvArea.diff ⟨0, 1, 9, 1⟩ ⟨4, 0, 6, 3⟩ = some l ∧
    (∀ c ∈ l, c.Proper ∧ c.points ⊆ LvArea.points ⟨0, 1, 9, 1⟩) ∧
    ((∀ p ∈ LvArea.points ⟨0, 1, 9, 1⟩, p ∉ LvArea.points ⟨4, 0, 6, 3⟩ → ∃ c ∈ l, p ∈ c.points) ↔
      ¬LosesLeft ⟨0, 1, 9, 1⟩ ⟨4, 0, 6, 3⟩) :=
  diff_exact ⟨by decide, by decide⟩ ⟨by decide, by decide⟩ ⟨(4, 1), by decide, by decide⟩

end LvArea

end SwmLvgl.Disp
