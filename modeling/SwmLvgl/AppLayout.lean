import SwmLvgl.AppShell
import SwmLvgl.Rectangles

/-! Where the buttons of the two pages lie. page1 takes the margins off the page before it divides what
is left among the cells, so its 40 buttons fit every page with room for them. page2 halves its buttons on
a page narrower or lower than two of them and then still asks for a margin on either side: between such
a page and one that has room for two buttons and both margins, the buttons overlap. -/

namespace SwmLvgl.App

open Pm (Addr Display LvObj lvCoord lvCoord_of_range)
open Rects

def Btn.rect (b : Btn) : Rect := ⟨b.x, b.y, b.width, b.height⟩

/-- The rectangles of the buttons that a callback made. -/
def Widgets.added (before after : Widgets) : List Rect :=
  (after.live.drop before.live.length).map fun e => e.2.rect

theorem onLoad_added {n : Nat} (table : Nat → Btn) {p : PageBtns n} (hp : p.created = 0) (w : Widgets) :
    w.added (p.onLoad table w).2 = (List.range n).map fun i => (table i).rect := by
  have hcreate := (PageBtns.create_spec table (p.btn, w) (le_refl n)).2
  simp only [PageBtns.onLoad, hp, if_true, hcreate, Widgets.added, List.drop_left, List.map_map]
  rfl

theorem pageSize_range (disp : Display) {o : LvObj} (hw : o.coordsWidth < 2 ^ 15)
    (hh : o.coordsHeight < 2 ^ 15) :
    (0 < (pageSize disp o).1 ∧ (pageSize disp o).1 < 2 ^ 15) ∧
      (0 < (pageSize disp o).2 ∧ (pageSize disp o).2 < 2 ^ 15) := by
  have := disp.hor_range
  have := disp.ver_range
  unfold pageSize
  constructor <;> split <;> omega

/-- The side of a cell and the room that the cells and their margins take. -/
theorem p1Cell_spec {size : Int} (cells : Int) (hcells : 0 < cells) (hsize : size < 2 ^ 15)
    (hroom : 10 * cells + (cells + 1) * 6 ≤ size) :
    10 ≤ p1Cell size cells ∧ 6 + cells * (p1Cell size cells + 6) ≤ size := by
  have hpos : 0 ≤ size - (cells + 1) * 6 := by omega
  have hdiv : (size - (cells + 1) * 6).tdiv cells = (size - (cells + 1) * 6) / cells :=
    Int.tdiv_eq_ediv_of_nonneg hpos
  have hten : 10 ≤ (size - (cells + 1) * 6) / cells := (Int.le_ediv_iff_mul_le hcells).mpr (by omega)
  have hle : (size - (cells + 1) * 6) / cells ≤ size - (cells + 1) * 6 := Int.ediv_le_self _ hpos
  have hmul : cells * ((size - (cells + 1) * 6) / cells) ≤ size - (cells + 1) * 6 :=
    Int.mul_ediv_self_le (by omega)
  have hcell : p1Cell size cells = (size - (cells + 1) * 6) / cells := by
    simp only [p1Cell, hdiv]
    rw [lvCoord_of_range (by omega) (by omega), if_neg (by omega)]
  rw [hcell, Int.mul_add]
  omega

theorem p1Cell_spaced {size : Int} (cells : Nat) (hcells : 0 < cells) (hsize : size < 2 ^ 15)
    (hroom : 10 * (cells : Int) + (cells + 1) * 6 ≤ size) :
    Spaced size cells (fun i => 6 + i * (p1Cell size cells + 6)) (p1Cell size cells) := by
  obtain ⟨hten, hfit⟩ := p1Cell_spec cells (by omega) hsize hroom
  exact spaced_even (by decide) (by omega) hfit

/-- The buttons of page1 are a grid of 8 columns and 5 rows. -/
theorem p1Button_grid (page : Addr) {w h : Int} (hw : w < 2 ^ 15) (hh : h < 2 ^ 15)
    (hw' : 134 ≤ w) (hh' : 86 ≤ h) :
    ((List.range 40).map fun i => (p1Button page (w, h) i).rect) =
      grid 8 5 (fun i => 6 + i * (p1Cell w 8 + 6)) (fun i => 6 + i * (p1Cell h 5 + 6)) (p1Cell w 8)
        (p1Cell h 5) := by
  apply List.map_congr_left
  intro i hi
  rw [List.mem_range] at hi
  have hx := (p1Cell_spaced 8 (by decide) hw (by omega)).inside (i % 8) (by omega)
  have hy := (p1Cell_spaced 5 (by decide) hh (by omega)).inside (i / 8) (by omega)
  obtain ⟨hbw, -⟩ := p1Cell_spec 8 (by decide) hw (by omega)
  obtain ⟨hbh, -⟩ := p1Cell_spec 5 (by decide) hh (by omega)
  simp only [Nat.cast_ofNat] at hx hy
  simp only [Btn.rect, p1Button]
  rw [lvCoord_of_range (by omega) (by omega), lvCoord_of_range (by omega) (by omega)]

theorem page1_laidOut (page : Addr) {w h : Int} (hw : w < 2 ^ 15) (hh : h < 2 ^ 15) (hw' : 134 ≤ w)
    (hh' : 86 ≤ h) : LaidOut (w, h) ((List.range 40).map fun i => (p1Button page (w, h) i).rect) := by
  obtain ⟨hbw, -⟩ := p1Cell_spec 8 (by decide) hw (by omega)
  obtain ⟨hbh, -⟩ := p1Cell_spec 5 (by decide) hh (by omega)
  rw [p1Button_grid page hw hh hw' hh', laidOut_grid_iff (by omega) (by omega) (by decide) (by decide)]
  exact ⟨p1Cell_spaced 8 (by decide) hw (by omega),
    p1Cell_spaced 5 (by decide) hh (by omega)⟩

/-- The first and the last of two buttons of page2 along one side. -/
def p2Edge (size b : Int) (i : Nat) : Int := if i = 0 then 10 else size - p2Side size b - 10

theorem p2Side_eq {size b : Int} (hpos : 0 < size) (hsize : size < 2 ^ 15) :
    p2Side size b = if size / 2 < b then size / 2 else b := by
  simp only [p2Side, hpos, true_and, Int.tdiv_eq_ediv_of_nonneg hpos.le]
  rw [lvCoord_of_range (by omega) (by omega)]

/-- Two buttons of side `b` and their margins fit along a side of the page when there is room for them
at full size. -/
theorem p2Edge_spaced_iff {size b : Int} (hb : 20 ≤ b) (hmin : 40 ≤ size) (hsize : size < 2 ^ 15) :
    Spaced size 2 (p2Edge size b) (p2Side size b) ↔ 2 * b + 20 ≤ size := by
  have hside := p2Side_eq (b := b) (by omega) hsize
  constructor
  · intro h
    have := h.apart 0 1 (by decide) (by decide)
    simp only [p2Edge, if_true, Nat.one_ne_zero, if_false] at this
    split at hside <;> omega
  · intro hroom
    rw [if_neg (by omega)] at hside
    constructor
    · intro i _
      unfold p2Edge
      split <;> omega
    · intro i j hij hj
      have hi : i = 0 := by omega
      have hj : j = 1 := by omega
      simp only [hi, hj, p2Edge, if_true, Nat.one_ne_zero, if_false]
      omega

theorem p2Button_grid (page : Addr) {w h : Int} (hw : w < 2 ^ 15) (hh : h < 2 ^ 15) (hw' : 40 ≤ w)
    (hh' : 40 ≤ h) :
    ((List.range 4).map fun i => (p2Button page (w, h) i).rect) =
      grid 2 2 (p2Edge w 120) (p2Edge h 60) (p2Side w 120) (p2Side h 60) := by
  have hbw := p2Side_eq (b := 120) (by omega : 0 < w) hw
  have hbh := p2Side_eq (b := 60) (by omega : 0 < h) hh
  apply List.map_congr_left
  intro i _
  have hx : lvCoord (w - p2Side w 120 - 10) = w - p2Side w 120 - 10 := by
    apply lvCoord_of_range <;> split at hbw <;> omega
  have hy : lvCoord (h - p2Side h 60 - 10) = h - p2Side h 60 - 10 := by
    apply lvCoord_of_range <;> split at hbh <;> omega
  simp only [Btn.rect, p2Button, p2Edge, hx, hy]

theorem page2_laidOut_iff (page : Addr) {w h : Int} (hw : w < 2 ^ 15) (hh : h < 2 ^ 15) (hw' : 40 ≤ w)
    (hh' : 40 ≤ h) :
    LaidOut (w, h) ((List.range 4).map fun i => (p2Button page (w, h) i).rect) ↔ 260 ≤ w ∧ 140 ≤ h := by
  have hbw : 0 < p2Side w 120 := by rw [p2Side_eq (by omega) hw]; split <;> omega
  have hbh : 0 < p2Side h 60 := by rw [p2Side_eq (by omega) hh]; split <;> omega
  rw [p2Button_grid page hw hh hw' hh', laidOut_grid_iff hbw hbh (by decide) (by decide)]
  exact and_congr (p2Edge_spaced_iff (by decide) hw' hw) (p2Edge_spaced_iff (by decide) hh' hh)

section OnLoad

variable {disp : Display} {page : Addr} {o : LvObj} {app : AppState}

/-- The buttons that `onLoad` makes are laid out on page1 whenever its cells have room, and on page2
when two of its buttons and both margins have room in either direction. -/
theorem layouts_fit_iff (hp1 : app.p1.created = 0) (hp2 : app.p2.created = 0)
    (hwidth : o.coordsWidth < 2 ^ 15) (hheight : o.coordsHeight < 2 ^ 15) :
    (134 ≤ (pageSize disp o).1 → 86 ≤ (pageSize disp o).2 →
      LaidOut (pageSize disp o) (app.widgets.added (pagePage1OnLoad disp page o app).widgets)) ∧
    (40 ≤ (pageSize disp o).1 → 40 ≤ (pageSize disp o).2 →
      (LaidOut (pageSize disp o) (app.widgets.added (pagePage2OnLoad disp page o app).widgets) ↔
        260 ≤ (pageSize disp o).1 ∧ 140 ≤ (pageSize disp o).2)) := by
  obtain ⟨⟨-, hw⟩, -, hh⟩ := pageSize_range disp hwidth hheight
  have h1 := onLoad_added (p1Button page (pageSize disp o)) hp1 app.widgets
  have h2 := onLoad_added (p2Button page (pageSize disp o)) hp2 app.widgets
  constructor
  · intro hw' hh'
    rw [pagePage1OnLoad, h1]
    exact page1_laidOut page hw hh hw' hh'
  · intro hw' hh'
    rw [pagePage2OnLoad, h2]
    exact page2_laidOut_iff page hw hh hw' hh'

end OnLoad

/-- A page object that the last layout gave a size. -/
def pageOf (width height : Int) : LvObj := ⟨false, 0, 0, width, height, 0, width, height⟩

theorem layouts_fit_demo :
    LaidOut (480, 272) (zeroApp.widgets.added
      (pagePage1OnLoad Pm.demo.disp 1 (pageOf 480 272) zeroApp).widgets) ∧
    LaidOut (480, 272) (zeroApp.widgets.added
      (pagePage2OnLoad Pm.demo.disp 1 (pageOf 480 272) zeroApp).widgets) := by
  obtain ⟨h1, h2⟩ := @layouts_fit_iff Pm.demo.disp 1 (pageOf 480 272) zeroApp (by decide) (by decide)
    (by decide) (by decide)
  exact ⟨h1 (by decide) (by decide), (h2 (by decide) (by decide)).mpr (by decide)⟩

/-- On a page of 200 by 200 the buttons are 100 wide, the first from 10 to 110 and the second from 90. -/
theorem page2_overlaps :
    ¬LaidOut (200, 200) (zeroApp.widgets.added
      (pagePage2OnLoad Pm.demo.disp 1 (pageOf 200 200) zeroApp).widgets) := by
  rw [pagePage2OnLoad, onLoad_added _ (by decide)]
  intro h
  have hfirst := List.pairwise_iff_getElem.mp h.disjoint 0 1 (by decide) (by decide) (by decide)
  have hpoint : ((100, 10) : Int × Int) ∈ Rect.points ⟨10, 10, 100, 60⟩ := by
    simp [Rect.points]
  have hpoint' : ((100, 10) : Int × Int) ∈ Rect.points ⟨90, 10, 100, 60⟩ := by
    simp [Rect.points]
  exact hfirst _ hpoint hpoint'

end SwmLvgl.App
