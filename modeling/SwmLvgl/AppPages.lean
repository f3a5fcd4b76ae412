import Mathlib.Data.List.Nodup
import SwmLvgl.PmModel

/-! The two pages of the application (`page1.c`, `page2.c`). `onLoad` creates the page's buttons and
keeps their pointers in a static array, `unLoad` deletes what the array holds; a static flag says which
of the two comes next. The 40 buttons of page1 and the 4 of page2 differ in their rectangles and labels
alone, so both pages are the same loops over a table. -/

namespace SwmLvgl.App

open Pm (Addr Display LvObj LvPmLifecycle lvCoord)

/-- The callbacks given to `lv_obj_add_event_cb`. -/
inductive EventCb where
  | p1Btn1EventCb
  | p2Btn1EventCb
  deriving DecidableEq, Repr

/-- A button on a page: what `lv_obj_set_pos`, `lv_obj_set_size`, `lv_label_set_text` and
`lv_obj_add_event_cb` are given. -/
structure Btn where
  page : Addr
  x : Int
  y : Int
  width : Int
  height : Int
  label : String
  eventCb : Option EventCb
  deriving DecidableEq, Repr

/-- The buttons LVGL holds, by address. `next` is the address of the next one, and `deleted` lists the
arguments of `lv_obj_del` in order. -/
structure Widgets where
  next : Nat
  live : List (Nat × Btn)
  deleted : List Nat
  deriving DecidableEq, Repr

namespace Widgets

/-- `lv_btn_create` and the settings of the new button. -/
def lvBtnCreate (b : Btn) (w : Widgets) : Nat × Widgets :=
  (w.next, { w with next := w.next + 1, live := w.live ++ [(w.next, b)] })

/-- `lv_obj_del` -/
def lvObjDel (obj : Nat) (w : Widgets) : Widgets :=
  { w with live := w.live.filter fun e => e.1 ≠ obj, deleted := w.deleted ++ [obj] }

end Widgets

/-- The static pointer array of a page file and its `created` flag. -/
structure PageBtns (n : Nat) where
  btn : Vector (Option Nat) n
  created : UInt8
  deriving DecidableEq

/-- The statics of `page1.c` and `page2.c` and the buttons LVGL holds for them. -/
structure AppState where
  widgets : Widgets
  p1 : PageBtns 40
  p2 : PageBtns 4
  deriving DecidableEq

namespace PageBtns

variable {n : Nat}

/-- The statics at program start. -/
def zero (n : Nat) : PageBtns n := ⟨Vector.replicate n none, 0⟩

/-- Creates the buttons of the table from index 0 up to `k`. -/
def create (table : Nat → Btn) (k : Nat) (s : Vector (Option Nat) n × Widgets) :
    Vector (Option Nat) n × Widgets :=
  (List.range k).foldl
    (fun s i =>
      let (obj, w) := s.2.lvBtnCreate (table i)
      (s.1.setIfInBounds i (some obj), w)) s

/-- Deletes the buttons of the array from index 0 up to `k`. -/
def delete (k : Nat) (s : Vector (Option Nat) n × Widgets) : Vector (Option Nat) n × Widgets :=
  (List.range k).foldl
    (fun s i =>
      match s.1[i]? with
      | some (some obj) => (s.1.setIfInBounds i none, s.2.lvObjDel obj)
      | _ => s) s

/-- The part of `onLoad` under `if (!created)`. -/
def onLoad (table : Nat → Btn) (p : PageBtns n) (w : Widgets) : PageBtns n × Widgets :=
  if p.created = 0 then
    let (btn, w) := create table n (p.btn, w)
    (⟨btn, 1⟩, w)
  else (p, w)

/-- `unLoad` -/
def unLoad (p : PageBtns n) (w : Widgets) : PageBtns n × Widgets :=
  if p.created = 0 then (p, w)
  else
    let (btn, w) := delete n (p.btn, w)
    (⟨btn, 0⟩, w)

end PageBtns

/-- `lv_obj_get_width` and `lv_obj_get_height`, with the display size where these are not positive. -/
def pageSize (disp : Display) (page : LvObj) : Int × Int :=
  (if page.coordsWidth ≤ 0 then disp.horRes else page.coordsWidth,
    if page.coordsHeight ≤ 0 then disp.verRes else page.coordsHeight)

/-- `bw` of `page_page1_onLoad`, and `bh` with 5 rows in place of 8 columns. -/
def p1Cell (size cells : Int) : Int :=
  let margin := 6
  let b := lvCoord ((size - (cells + 1) * margin).tdiv cells)
  if b < 10 then 10 else b

/-- `p1_btn[i]` -/
def p1Button (page : Addr) (size : Int × Int) (i : Nat) : Btn :=
  let margin := 6
  let bw := p1Cell size.1 8
  let bh := p1Cell size.2 5
  { page := page
    x := lvCoord (margin + ((i % 8 : Nat) : Int) * (bw + margin))
    y := lvCoord (margin + ((i / 8 : Nat) : Int) * (bh + margin))
    width := bw
    height := bh
    label := "P1-" ++ toString (i + 1)
    eventCb := if i = 0 then some .p1Btn1EventCb else none }

def pagePage1OnLoad : LvPmLifecycle AppState := fun disp page o app =>
  let (p1, widgets) := app.p1.onLoad (p1Button page (pageSize disp o)) app.widgets
  { app with p1 := p1, widgets := widgets }

def pagePage1UnLoad : LvPmLifecycle AppState := fun _ _ _ app =>
  let (p1, widgets) := app.p1.unLoad app.widgets
  { app with p1 := p1, widgets := widgets }

/-- `bw` and `bh` of `page_page2_onLoad`. -/
def p2Side (size b : Int) : Int :=
  if 0 < size ∧ size.tdiv 2 < b then lvCoord (size.tdiv 2) else b

/-- `p2_btn[i]` -/
def p2Button (page : Addr) (size : Int × Int) (i : Nat) : Btn :=
  let margin := 10
  let bw := p2Side size.1 120
  let bh := p2Side size.2 60
  { page := page
    x := if i % 2 = 0 then margin else lvCoord (size.1 - bw - margin)
    y := if i / 2 = 0 then margin else lvCoord (size.2 - bh - margin)
    width := bw
    height := bh
    label := "P2-" ++ toString (i + 1)
    eventCb := if i = 0 then some .p2Btn1EventCb else none }

def pagePage2OnLoad : LvPmLifecycle AppState := fun disp page o app =>
  let (p2, widgets) := app.p2.onLoad (p2Button page (pageSize disp o)) app.widgets
  { app with p2 := p2, widgets := widgets }

def pagePage2UnLoad : LvPmLifecycle AppState := fun _ _ _ app =>
  let (p2, widgets) := app.p2.unLoad app.widgets
  { app with p2 := p2, widgets := widgets }

/-! ### Ownership of the buttons -/

/-- No button is live, and those deleted were deleted once. -/
structure Widgets.Clean (w : Widgets) : Prop where
  live : w.live = []
  old : ∀ obj ∈ w.deleted, obj < w.next
  once : w.deleted.Nodup

/-- The pointers of the array are the buttons of the table, made one after the other, and these are all
that is live. -/
structure PageBtns.Holds {n : Nat} (table : Nat → Btn) (p : PageBtns n) (w : Widgets) : Prop where
  created : p.created = 1
  next : n ≤ w.next
  btn : ∀ i < n, p.btn[i]? = some (some (w.next - n + i))
  live : w.live = (List.range n).map fun i => (w.next - n + i, table i)
  old : ∀ obj ∈ w.deleted, obj < w.next - n
  once : w.deleted.Nodup

/-- The array is empty. -/
structure PageBtns.Empty {n : Nat} (p : PageBtns n) : Prop where
  created : p.created = 0
  btn : ∀ i < n, p.btn[i]? = some none

namespace PageBtns

variable {n : Nat}

theorem create_succ (table : Nat → Btn) (k : Nat) (s : Vector (Option Nat) n × Widgets) :
    create table (k + 1) s =
      ((create table k s).1.setIfInBounds k (some (create table k s).2.next),
        ((create table k s).2.lvBtnCreate (table k)).2) := by
  simp only [create, List.range_succ, List.foldl_append, List.foldl_cons, List.foldl_nil]
  rfl

/-- The loop after `k` buttons. -/
theorem create_spec (table : Nat → Btn) (s : Vector (Option Nat) n × Widgets) {k : Nat}
    (hk : k ≤ n) :
    (∀ i < k, (create table k s).1[i]? = some (some (s.2.next + i))) ∧
      (create table k s).2 =
        { s.2 with
          next := s.2.next + k
          live := s.2.live ++ (List.range k).map fun i => (s.2.next + i, table i) } := by
  induction k with
  | zero =>
      refine ⟨fun i hi => absurd hi (Nat.not_lt_zero i), ?_⟩
      simp [create]
  | succ k ih =>
      obtain ⟨hbtn, hw⟩ := ih (by omega)
      rw [create_succ, hw]
      refine ⟨fun i hi => ?_, ?_⟩
      · rw [Vector.getElem?_setIfInBounds]
        by_cases h : k = i
        · simp only [h, if_true]
          rw [if_pos (by omega)]
        · rw [if_neg h, hbtn i (by omega)]
      · simp only [Widgets.lvBtnCreate, List.range_succ, List.map_append, List.map_cons, List.map_nil,
          List.append_assoc, Nat.add_assoc]

theorem onLoad_holds (table : Nat → Btn) {p : PageBtns n} {w : Widgets} (hp : p.Empty)
    (hw : w.Clean) : (p.onLoad table w).1.Holds table (p.onLoad table w).2 := by
  obtain ⟨hbtn, hcreate⟩ := create_spec table (p.btn, w) (le_refl n)
  simp only [onLoad, hp.created, if_true, hcreate]
  have hnext : w.next + n - n = w.next := Nat.add_sub_cancel _ _
  refine ⟨rfl, Nat.le_add_left _ _, fun i hi => ?_, ?_, fun obj hobj => ?_, hw.once⟩
  · simp only [hnext]
    exact hbtn i hi
  · simp only [hw.live, List.nil_append, hnext]
  · simp only [hnext]
    exact hw.old obj hobj

theorem delete_succ (k : Nat) (s : Vector (Option Nat) n × Widgets) :
    delete (k + 1) s =
      match (delete k s).1[k]? with
      | some (some obj) =>
          ((delete k s).1.setIfInBounds k none, (delete k s).2.lvObjDel obj)
      | _ => delete k s := by
  simp only [delete, List.range_succ, List.foldl_append, List.foldl_cons, List.foldl_nil]
  rfl

/-- The loop after `k` buttons of an array that holds consecutive addresses. -/
theorem delete_spec {base : Nat} (s : Vector (Option Nat) n × Widgets) {k : Nat} (hk : k ≤ n)
    (hs : ∀ i < n, s.1[i]? = some (some (base + i))) :
    (∀ i < n, (delete k s).1[i]? = some (if i < k then none else some (base + i))) ∧
      (delete k s).2 =
        { s.2 with
          live := s.2.live.filter fun e => e.1 < base ∨ base + k ≤ e.1
          deleted := s.2.deleted ++ (List.range k).map fun i => base + i } := by
  induction k with
  | zero =>
      refine ⟨fun i hi => by simpa [delete] using hs i hi, ?_⟩
      have hall : ∀ e : Nat × Btn, e.1 < base ∨ base ≤ e.1 := fun e => Nat.lt_or_ge _ _
      simp [delete, hall]
  | succ k ih =>
      obtain ⟨hbtn, hw⟩ := ih (by omega)
      have hk' := hbtn k (by omega)
      rw [if_neg (lt_irrefl k)] at hk'
      rw [delete_succ, hk']
      simp only [hw]
      refine ⟨fun i hi => ?_, ?_⟩
      · rw [Vector.getElem?_setIfInBounds]
        by_cases h : k = i
        · simp only [h, if_true, Nat.lt_succ_self]
          rw [if_pos hi]
        · rw [if_neg h, hbtn i hi]
          have : i < k + 1 ↔ i < k := by omega
          simp only [this]
      · simp only [Widgets.lvObjDel, List.filter_filter, List.range_succ, List.map_append,
          List.map_cons, List.map_nil, List.append_assoc]
        congr 1
        apply List.filter_congr
        intro e _
        rw [← Bool.decide_and, decide_eq_decide]
        omega

theorem unLoad_empty {table : Nat → Btn} {p : PageBtns n} {w : Widgets} (h : p.Holds table w) :
    (p.unLoad w).1.Empty ∧ (p.unLoad w).2.Clean := by
  obtain ⟨hbtn, hdelete⟩ := delete_spec (p.btn, w) (le_refl n) h.btn
  have hne : ¬p.created = 0 := by rw [h.created]; decide
  have hnext := h.next
  simp only [unLoad, if_neg hne, hdelete]
  refine ⟨⟨rfl, fun i hi => ?_⟩, ?_, fun obj hobj => ?_, ?_⟩
  · have := hbtn i hi
    rwa [if_pos hi] at this
  · simp only [h.live, List.filter_eq_nil_iff, List.mem_map, List.mem_range]
    rintro e ⟨i, hi, rfl⟩
    simp
    omega
  · simp only [List.mem_append, List.mem_map, List.mem_range] at hobj ⊢
    rcases hobj with hobj | ⟨i, hi, rfl⟩
    · exact lt_of_lt_of_le (h.old obj hobj) (Nat.sub_le _ _)
    · omega
  · simp only [List.nodup_append]
    refine ⟨h.once, ?_, ?_⟩
    · exact (List.nodup_range).map fun i j hij => Nat.add_left_cancel hij
    · intro obj hobj x hx
      obtain ⟨i, -, rfl⟩ := List.mem_map.mp hx
      have := h.old obj hobj
      omega

end PageBtns

end SwmLvgl.App
