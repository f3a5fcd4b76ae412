import Mathlib.Algebra.Order.Group.Int
import Mathlib.Data.Set.Basic

/-! Rectangles of an integer plane as sets of points. Equal rectangles in rows and columns are laid out
inside a page exactly when the columns are along its width and the rows are along its height, so that a
question about all pairs of rectangles becomes two questions about intervals. -/

namespace SwmLvgl.Rects

structure Rect where
  x : Int
  y : Int
  width : Int
  height : Int
  deriving DecidableEq, Repr

def Rect.points (r : Rect) : Set (Int × Int) :=
  {p | (r.x ≤ p.1 ∧ p.1 < r.x + r.width) ∧ (r.y ≤ p.2 ∧ p.2 < r.y + r.height)}

/-- No point is in both rectangles. -/
def Rect.Disjoint (r s : Rect) : Prop := ∀ p ∈ r.points, p ∉ s.points

/-- Non-empty rectangles inside the page of a given size, no two of which share a point. -/
structure LaidOut (size : Int × Int) (l : List Rect) : Prop where
  nonempty : ∀ r ∈ l, r.points.Nonempty
  inside : ∀ r ∈ l, r.points ⊆ Rect.points ⟨0, 0, size.1, size.2⟩
  disjoint : l.Pairwise Rect.Disjoint

/-- Rectangles of one size, row after row, where column `i` starts at `xs i` and row `i` at `ys i`. -/
def grid (cols rows : Nat) (xs ys : Nat → Int) (width height : Int) : List Rect :=
  (List.range (rows * cols)).map fun i => ⟨xs (i % cols), ys (i / cols), width, height⟩

/-- Intervals of one length that lie between 0 and `size`, each before or after every other. -/
structure Spaced (size : Int) (n : Nat) (xs : Nat → Int) (length : Int) : Prop where
  inside : ∀ i < n, 0 ≤ xs i ∧ xs i + length ≤ size
  apart : ∀ i j, i < j → j < n → xs i + length ≤ xs j ∨ xs j + length ≤ xs i

/-- Intervals with the same gap before, between and after them. -/
theorem spaced_even {size gap length : Int} {n : Nat} (hgap : 0 ≤ gap) (hlength : 0 ≤ length)
    (hsize : gap + n * (length + gap) ≤ size) :
    Spaced size n (fun i => gap + i * (length + gap)) length := by
  have hstep : ∀ i j : Nat, i < j → (i : Int) * (length + gap) + (length + gap) ≤ j * (length + gap) := by
    intro i j hij
    have hle : (i : Int) + 1 ≤ j := by omega
    calc (i : Int) * (length + gap) + (length + gap) = (i + 1) * (length + gap) := by
          rw [Int.add_mul, Int.one_mul]
      _ ≤ j * (length + gap) := Int.mul_le_mul_of_nonneg_right hle (by omega)
  constructor
  · intro i hi
    have hpos : 0 ≤ (i : Int) * (length + gap) := Int.mul_nonneg (by omega) (by omega)
    have := hstep i n hi
    omega
  · intro i j hij _
    have := hstep i j hij
    left
    omega

section Grid

variable {cols rows : Nat} {xs ys : Nat → Int} {width height : Int}

theorem mem_grid {r : Rect} :
    r ∈ grid cols rows xs ys width height ↔
      ∃ i < rows * cols, r = ⟨xs (i % cols), ys (i / cols), width, height⟩ := by
  simp only [grid, List.mem_map, List.mem_range, eq_comm]

theorem grid_getElem {i : Nat} (hi : i < (grid cols rows xs ys width height).length) :
    (grid cols rows xs ys width height)[i] = ⟨xs (i % cols), ys (i / cols), width, height⟩ := by
  simp only [grid, List.getElem_map, List.getElem_range]

theorem grid_length : (grid cols rows xs ys width height).length = rows * cols := by
  simp only [grid, List.length_map, List.length_range]

/-- Two rectangles of one size are apart when their columns are or their rows are. -/
theorem grid_disjoint_iff {x y x' y' : Int} :
    Rect.Disjoint ⟨x, y, width, height⟩ ⟨x', y', width, height⟩ ↔
      (x + width ≤ x' ∨ x' + width ≤ x) ∨ (y + height ≤ y' ∨ y' + height ≤ y) := by
  constructor
  · intro h
    by_contra hnot
    have hcorner : (max x x', max y y') ∈ Rect.points ⟨x, y, width, height⟩ := by
      show (x ≤ max x x' ∧ max x x' < x + width) ∧ (y ≤ max y y' ∧ max y y' < y + height)
      omega
    apply h _ hcorner
    show (x' ≤ max x x' ∧ max x x' < x' + width) ∧ (y' ≤ max y y' ∧ max y y' < y' + height)
    omega
  · rintro h ⟨a, b⟩ ⟨⟨hx, hx'⟩, hy, hy'⟩ ⟨⟨hx₁, hx₁'⟩, hy₁, hy₁'⟩
    dsimp only at *
    omega

theorem grid_inside_iff (hw : 0 < width) (hh : 0 < height) {x y : Int} {size : Int × Int} :
    Rect.points ⟨x, y, width, height⟩ ⊆ Rect.points ⟨0, 0, size.1, size.2⟩ ↔
      (0 ≤ x ∧ x + width ≤ size.1) ∧ (0 ≤ y ∧ y + height ≤ size.2) := by
  constructor
  · intro h
    have hfirst : (x, y) ∈ Rect.points ⟨0, 0, size.1, size.2⟩ :=
      h ⟨⟨le_refl x, Int.lt_add_of_pos_right x hw⟩, le_refl y, Int.lt_add_of_pos_right y hh⟩
    have hlast : (x + width - 1, y + height - 1) ∈ Rect.points ⟨0, 0, size.1, size.2⟩ := by
      apply h
      show (x ≤ x + width - 1 ∧ x + width - 1 < x + width) ∧
        (y ≤ y + height - 1 ∧ y + height - 1 < y + height)
      omega
    obtain ⟨⟨hx, -⟩, hy, -⟩ := hfirst
    obtain ⟨⟨-, hx'⟩, -, hy'⟩ := hlast
    dsimp only at *
    omega
  · rintro h ⟨a, b⟩ ⟨⟨hx, hx'⟩, hy, hy'⟩
    dsimp only at hx hx' hy hy'
    show (0 ≤ a ∧ a < 0 + size.1) ∧ (0 ≤ b ∧ b < 0 + size.2)
    omega

/-- The rectangle in a given column and row. -/
theorem grid_index {c r : Nat} (hc : c < cols) (hr : r < rows) :
    r * cols + c < rows * cols ∧ (r * cols + c) % cols = c ∧ (r * cols + c) / cols = r := by
  have hpos : 0 < cols := by omega
  refine ⟨?_, ?_, ?_⟩
  · calc r * cols + c < r * cols + cols := by omega
      _ = (r + 1) * cols := by rw [Nat.add_mul, Nat.one_mul]
      _ ≤ rows * cols := Nat.mul_le_mul_right cols hr
  · rw [Nat.mul_comm, Nat.mul_add_mod, Nat.mod_eq_of_lt hc]
  · rw [Nat.mul_comm, Nat.mul_add_div hpos, Nat.div_eq_of_lt hc, Nat.add_zero]

variable {size : Int × Int}

/-- The columns are seen in the first row and the rows in the first column. -/
theorem LaidOut.spaced (h : LaidOut size (grid cols rows xs ys width height)) (hw : 0 < width)
    (hh : 0 < height) (hcols : 0 < cols) (hrows : 0 < rows) :
    Spaced size.1 cols xs width ∧ Spaced size.2 rows ys height := by
  have hin : ∀ c < cols, ∀ r < rows,
      (0 ≤ xs c ∧ xs c + width ≤ size.1) ∧ (0 ≤ ys r ∧ ys r + height ≤ size.2) := by
    intro c hc r hr
    obtain ⟨hlt, hmod, hdiv⟩ := grid_index hc hr
    have := h.inside _ (mem_grid.mpr ⟨_, hlt, rfl⟩)
    rwa [hmod, hdiv, grid_inside_iff hw hh] at this
  have hpair : ∀ c < cols, ∀ r < rows, ∀ c' < cols, ∀ r' < rows, r * cols + c < r' * cols + c' →
      (xs c + width ≤ xs c' ∨ xs c' + width ≤ xs c) ∨
        (ys r + height ≤ ys r' ∨ ys r' + height ≤ ys r) := by
    intro c hc r hr c' hc' r' hr' hlt
    obtain ⟨hi, hmod, hdiv⟩ := grid_index hc hr
    obtain ⟨hj, hmod', hdiv'⟩ := grid_index hc' hr'
    have := List.pairwise_iff_getElem.mp h.disjoint _ _ (hi.trans_eq grid_length.symm)
      (hj.trans_eq grid_length.symm) hlt
    rwa [grid_getElem, grid_getElem, hmod, hdiv, hmod', hdiv', grid_disjoint_iff] at this
  refine ⟨⟨fun c hc => (hin c hc 0 hrows).1, fun c c' hcc hc' => ?_⟩,
    ⟨fun r hr => (hin 0 hcols r hr).2, fun r r' hrr hr' => ?_⟩⟩
  · have := hpair c (by omega) 0 hrows c' hc' 0 hrows (by omega)
    omega
  · have hmul : r * cols < r' * cols := Nat.mul_lt_mul_of_pos_right hrr hcols
    have := hpair 0 hcols r (by omega) 0 hcols r' hr' (by omega)
    omega

theorem Spaced.laidOut (hx : Spaced size.1 cols xs width) (hy : Spaced size.2 rows ys height)
    (hw : 0 < width) (hh : 0 < height) (hcols : 0 < cols) :
    LaidOut size (grid cols rows xs ys width height) := by
  refine ⟨fun r hr => ?_, fun r hr => ?_, List.pairwise_iff_getElem.mpr fun i j hi hj hij => ?_⟩
  · obtain ⟨i, -, rfl⟩ := mem_grid.mp hr
    exact ⟨(xs (i % cols), ys (i / cols)), ⟨le_refl _, Int.lt_add_of_pos_right _ hw⟩, le_refl _,
      Int.lt_add_of_pos_right _ hh⟩
  · obtain ⟨i, hi, rfl⟩ := mem_grid.mp hr
    rw [grid_inside_iff hw hh]
    exact ⟨hx.inside _ (Nat.mod_lt i hcols), hy.inside _ ((Nat.div_lt_iff_lt_mul hcols).mpr hi)⟩
  · rw [grid_length] at hi hj
    rw [grid_getElem, grid_getElem, grid_disjoint_iff]
    by_cases hrow : i / cols = j / cols
    · -- in one row the columns are apart
      left
      apply hx.apart _ _ _ (Nat.mod_lt j hcols)
      have hdi := Nat.div_add_mod i cols
      have hdj := Nat.div_add_mod j cols
      rw [hrow] at hdi
      omega
    · right
      apply hy.apart _ _ _ ((Nat.div_lt_iff_lt_mul hcols).mpr hj)
      have := Nat.div_le_div_right (c := cols) hij.le
      omega

theorem laidOut_grid_iff (hw : 0 < width) (hh : 0 < height) (hcols : 0 < cols) (hrows : 0 < rows) :
    LaidOut size (grid cols rows xs ys width height) ↔
      Spaced size.1 cols xs width ∧ Spaced size.2 rows ys height :=
  ⟨fun h => h.spaced hw hh hcols hrows, fun ⟨hx, hy⟩ => hx.laidOut hy hw hh hcols⟩

end Grid

end SwmLvgl.Rects
