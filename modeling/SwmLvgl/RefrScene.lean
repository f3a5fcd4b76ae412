import SwmLvgl.LvAreas

/-! The rendering of the objects (`lv_refr.c`). A part of the screen is drawn from the topmost object that
covers it: what lies below is left out. `render_apply` says that nobody sees this: each pixel is what all the
objects, drawn one after the other on the background, make of it. -/

namespace SwmLvgl.Refr

open Disp

/-- `lv_cover_res_t` -/
inductive CoverRes where
  | cover
  | notCover
  | masked
  deriving DecidableEq, Repr

abbrev Canvas (γ : Type) := Int × Int → γ

/-- What an object draws at a pixel, behind its masks, over what is there. -/
abbrev Painter (γ μ : Type) := List μ → Int × Int → γ → γ

/-- What the refresh uses of an `lv_obj_t` besides its children. The event handlers are what they draw
(`DRAW_MAIN`, `DRAW_POST`), the masks that are in force between the two, and the answer to `COVER_CHECK`. An
object with an intermediate layer draws itself and its children there, and the layer is blended as a whole. -/
structure Widget (γ μ : Type) where
  coords : LvArea
  extDrawSize : Int
  hidden : Bool
  overflowVisible : Bool
  layer : Option (Painter γ μ)
  coverCheck : LvArea → CoverRes
  masks : List μ
  drawMain : Painter γ μ
  drawPost : Painter γ μ

/-- `lv_obj_t` -/
inductive LvObj (γ μ : Type) where
  | mk (w : Widget γ μ) (children : List (LvObj γ μ))

variable {γ μ : Type}

/-- Drawing in the clip area. -/
def drawIn (clip : LvArea) (f : Int × Int → γ → γ) (c : Canvas γ) : Canvas γ := fun p =>
  if p ∈ clip.points then f p (c p) else c p

/-- The coordinates with the extra draw size. -/
def Widget.coordsExt (w : Widget γ μ) : LvArea := w.coords.increase w.extDrawSize w.extDrawSize

/-- `lv_obj_redraw` -/
def lvObjRedraw (w : Widget γ μ) (children : LvArea → List μ → Canvas γ → Canvas γ) (clip : LvArea)
    (masks : List μ) (c : Canvas γ) : Canvas γ :=
  let (clipObj, comClipRes) := clip.intersect w.coordsExt
  let shouldDraw := comClipRes || w.overflowVisible
  let c := if shouldDraw then drawIn clipObj (w.drawMain masks) c else c
  let (clipChildren, refrChildren) := if w.overflowVisible then (clip, true) else clip.intersect w.coords
  let c := if refrChildren then children clipChildren (w.masks ++ masks) c else c
  if shouldDraw then drawIn clipObj (w.drawPost masks) c else c

mutual

/-- `refr_obj` -/
def refrObj : LvObj γ μ → LvArea → List μ → Canvas γ → Canvas γ
  | .mk w children, clip, masks, c =>
      if w.hidden then c
      else
        match w.layer with
        | none => lvObjRedraw w (refrObjs children) clip masks c
        | some f => drawIn clip (f masks) c

/-- `refr_obj` for one object after the other. -/
def refrObjs : List (LvObj γ μ) → LvArea → List μ → Canvas γ → Canvas γ
  | [], _, _, c => c
  | o :: os, clip, masks, c => refrObjs os clip masks (refrObj o clip masks c)

end

/-- The parents of an object, the next one first, each with the children that are younger than the branch
the object is on. -/
abbrev Parents (γ μ : Type) := List (Widget γ μ × List (LvObj γ μ))

mutual

/-- `lv_refr_get_top_obj`, with the parents of the object found. -/
def getTopObj (area : LvArea) : LvObj γ μ → Option (LvObj γ μ × Parents γ μ)
  | .mk w children =>
      if area.isIn w.coords = false then none
      else if w.hidden then none
      else if w.layer.isSome then none
      else if w.coverCheck area = .masked then none
      else
        match topOfChildren area children with
        | some (top, parents, younger) => some (top, parents ++ [(w, younger)])
        | none => if w.coverCheck area = .cover then some (.mk w children, []) else none

/-- The loop over the children, the youngest first. -/
def topOfChildren (area : LvArea) :
    List (LvObj γ μ) → Option (LvObj γ μ × Parents γ μ × List (LvObj γ μ))
  | [] => none
  | o :: os =>
      match topOfChildren area os with
      | some found => some found
      | none => (getTopObj area o).map fun (top, parents) => (top, parents, os)

end

/-- `refr_obj_and_children`: the object, and then on each level the younger ones and the end of the
parent. -/
def refrObjAndChildren (clip : LvArea) (top : LvObj γ μ × Parents γ μ) (c : Canvas γ) : Canvas γ :=
  top.2.foldl (fun c (w, younger) => drawIn clip (w.drawPost []) (refrObjs younger clip [] c))
    (refrObj top.1 clip [] c)

/-- What a display shows: the background and the screens and layers on it. -/
structure Scene (γ μ : Type) where
  drawBg : Int × Int → γ → γ
  actScr : LvObj γ μ
  prevScr : Option (LvObj γ μ)
  drawPrevOverAct : Bool
  topLayer : LvObj γ μ
  sysLayer : LvObj γ μ

namespace Scene

/-- The drawing in `refr_area_part`. -/
def render (s : Scene γ μ) (bufArea clip : LvArea) (c : Canvas γ) : Canvas γ :=
  let topActScr := getTopObj bufArea s.actScr
  let topPrevScr := s.prevScr.bind (getTopObj bufArea)
  let c := if topActScr.isNone && topPrevScr.isNone then drawIn clip s.drawBg c else c
  let act := refrObjAndChildren clip (topActScr.getD (s.actScr, []))
  let prev := fun c =>
    match s.prevScr with
    | none => c
    | some scr => refrObjAndChildren clip (topPrevScr.getD (scr, [])) c
  let c := if s.drawPrevOverAct then prev (act c) else act (prev c)
  let c := refrObjAndChildren clip (s.topLayer, []) c
  refrObjAndChildren clip (s.sysLayer, []) c

/-- The drawing without the search for the topmost objects: the background and every object. -/
def renderAll (s : Scene γ μ) (clip : LvArea) (c : Canvas γ) : Canvas γ :=
  let prev := fun c => s.prevScr.elim c fun scr => refrObj scr clip [] c
  let c := drawIn clip s.drawBg c
  let c := if s.drawPrevOverAct then prev (refrObj s.actScr clip [] c) else refrObj s.actScr clip [] (prev c)
  refrObj s.sysLayer clip [] (refrObj s.topLayer clip [] c)

end Scene

mutual

/-- What an object and its children make of a pixel. -/
def paint (p : Int × Int) : LvObj γ μ → List μ → γ → γ
  | .mk w children, masks, x =>
      if w.hidden then x
      else
        match w.layer with
        | some f => f masks p x
        | none =>
            let x := if p ∈ w.coordsExt.points then w.drawMain masks p x else x
            let x :=
              if w.overflowVisible ∨ p ∈ w.coords.points then paints p children (w.masks ++ masks) x else x
            if p ∈ w.coordsExt.points then w.drawPost masks p x else x

/-- What one object after the other makes of a pixel. -/
def paints (p : Int × Int) : List (LvObj γ μ) → List μ → γ → γ
  | [], _, x => x
  | o :: os, masks, x => paints p os masks (paint p o masks x)

end

/-- What the whole scene makes of a pixel: the background, both screens and the layers, each with all its
objects. -/
def Scene.paint (s : Scene γ μ) (p : Int × Int) (x : γ) : γ :=
  let act := Refr.paint p s.actScr []
  let prev := fun x => s.prevScr.elim x fun scr => Refr.paint p scr [] x
  let x := s.drawBg p x
  let x := if s.drawPrevOverAct then prev (act x) else act (prev x)
  Refr.paint p s.sysLayer [] (Refr.paint p s.topLayer [] x)

/-- The coordinates leave room for the extra draw size, an object with masks says so, and one that says that
it covers an area leaves nothing of what was there. -/
structure Widget.Honest (w : Widget γ μ) : Prop where
  ext : 0 ≤ w.extDrawSize
  low : -2 ^ 15 ≤ w.coords.x1 - w.extDrawSize ∧ -2 ^ 15 ≤ w.coords.y1 - w.extDrawSize
  high : w.coords.x2 + w.extDrawSize < 2 ^ 15 ∧ w.coords.y2 + w.extDrawSize < 2 ^ 15
  masked : ∀ area, w.masks ≠ [] → w.coverCheck area = .masked
  covers : ∀ area, w.coverCheck area = .cover → area.points ⊆ w.coords.points → ∀ p ∈ area.points,
    ∀ x y, w.drawMain [] p x = w.drawMain [] p y

mutual

def LvObj.Honest : LvObj γ μ → Prop
  | .mk w children => w.Honest ∧ AllHonest children

def AllHonest : List (LvObj γ μ) → Prop
  | [] => True
  | o :: os => o.Honest ∧ AllHonest os

end

structure Scene.Honest (s : Scene γ μ) : Prop where
  act : s.actScr.Honest
  prev : ∀ scr, s.prevScr = some scr → scr.Honest
  top : s.topLayer.Honest
  sys : s.sysLayer.Honest

variable {p : Int × Int} {clip area : LvArea} {c : Canvas γ}

theorem drawIn_of_mem (h : p ∈ clip.points) (f : Int × Int → γ → γ) : drawIn clip f c p = f p (c p) := if_pos h

theorem drawIn_of_notMem (h : p ∉ clip.points) (f : Int × Int → γ → γ) : drawIn clip f c p = c p := if_neg h

theorem drawIn_intersect (h : p ∈ clip.points) (f : Int × Int → γ → γ) :
    drawIn (clip.intersect area).1 f c p = if p ∈ area.points then f p (c p) else c p := by
  simp only [drawIn, LvArea.mem_intersect, h, true_and]

/-- Nothing is skipped where the areas meet. -/
theorem notMem_of_intersect (h : p ∈ clip.points) (hempty : (clip.intersect area).2 = false) :
    p ∉ area.points := by
  intro hp
  have hne := LvArea.intersect_nonempty.mpr ⟨p, h, hp⟩
  rw [hempty] at hne
  cases hne

/-- The objects of a list draw only in the clip area, and there they make of a pixel what `f` does. -/
def Draws (p : Int × Int) (draw : LvArea → List μ → Canvas γ → Canvas γ) (f : List μ → γ → γ) : Prop :=
  ∀ clip masks c, draw clip masks c p = if p ∈ clip.points then f masks (c p) else c p

theorem lvObjRedraw_apply (w : Widget γ μ) {children : LvArea → List μ → Canvas γ → Canvas γ}
    {f : List μ → γ → γ} (hchildren : Draws p children f) (h : p ∈ clip.points) (masks : List μ) :
    lvObjRedraw w children clip masks c p =
      let x := if p ∈ w.coordsExt.points then w.drawMain masks p (c p) else c p
      let x := if w.overflowVisible ∨ p ∈ w.coords.points then f (w.masks ++ masks) x else x
      if p ∈ w.coordsExt.points then w.drawPost masks p x else x := by
  -- the two draws of the object itself
  have hdraw : ∀ (g : Int × Int → γ → γ) (c : Canvas γ),
      (if (clip.intersect w.coordsExt).2 || w.overflowVisible then drawIn (clip.intersect w.coordsExt).1 g c
        else c) p = if p ∈ w.coordsExt.points then g p (c p) else c p := by
    intro g c
    split
    · exact drawIn_intersect h g
    · next hno =>
      have hempty : (clip.intersect w.coordsExt).2 = false := by
        simp only [Bool.or_eq_true, not_or, Bool.not_eq_true] at hno
        exact hno.1
      rw [if_neg (notMem_of_intersect h hempty)]
  have hinner : ∀ c : Canvas γ,
      (if (if w.overflowVisible then (clip, true) else clip.intersect w.coords).2 then
        children (if w.overflowVisible then (clip, true) else clip.intersect w.coords).1 (w.masks ++ masks) c
        else c) p = if w.overflowVisible ∨ p ∈ w.coords.points then f (w.masks ++ masks) (c p) else c p := by
    intro c
    cases hov : w.overflowVisible with
    | true =>
        rw [if_pos rfl, if_pos rfl, if_pos (.inl rfl), hchildren, if_pos h]
    | false =>
        simp only [Bool.false_eq_true, if_false, false_or]
        split
        · rw [hchildren]
          simp only [LvArea.mem_intersect, h, true_and]
        · next hno =>
          rw [if_neg (notMem_of_intersect h (by simpa using hno))]
  simp only [lvObjRedraw]
  rw [hdraw, hinner, hdraw]

theorem lvObjRedraw_notMem (w : Widget γ μ) {children : LvArea → List μ → Canvas γ → Canvas γ}
    {f : List μ → γ → γ} (hchildren : Draws p children f) (h : p ∉ clip.points) (masks : List μ) :
    lvObjRedraw w children clip masks c p = c p := by
  have hout : ∀ a : LvArea, p ∉ (clip.intersect a).1.points := fun a hp => h (LvArea.mem_intersect.mp hp).1
  have hdraw : ∀ (b : Bool) (g : Int × Int → γ → γ) (c : Canvas γ),
      (if b then drawIn (clip.intersect w.coordsExt).1 g c else c) p = c p := by
    intro b g c
    split
    · exact drawIn_of_notMem (hout _) g
    · rfl
  have hinner : ∀ (q : LvArea × Bool) (c : Canvas γ), p ∉ q.1.points →
      (if q.2 then children q.1 (w.masks ++ masks) c else c) p = c p := by
    intro q c hq
    split
    · rw [hchildren, if_neg hq]
    · rfl
  have hclip : p ∉ (if w.overflowVisible then (clip, true) else clip.intersect w.coords).1.points := by
    split
    · exact h
    · exact hout _
  simp only [lvObjRedraw]
  rw [hdraw, hinner _ _ hclip, hdraw]

mutual

theorem refrObj_draws (p : Int × Int) :
    ∀ o : LvObj γ μ, Draws p (refrObj o) (paint p o)
  | .mk w children => by
      intro clip masks c
      rw [refrObj, paint]
      split
      · simp
      · cases w.layer with
        | some f => rfl
        | none =>
            by_cases h : p ∈ clip.points
            · rw [if_pos h]
              exact lvObjRedraw_apply w (refrObjs_draws p children) h masks
            · rw [if_neg h]
              exact lvObjRedraw_notMem w (refrObjs_draws p children) h masks

theorem refrObjs_draws (p : Int × Int) :
    ∀ os : List (LvObj γ μ), Draws p (refrObjs os) (paints p os)
  | [] => fun clip masks c => by
      rw [refrObjs, paints, ite_self]
  | o :: os => fun clip masks c => by
      rw [refrObjs, paints, refrObjs_draws p os, refrObj_draws p o]
      split <;> rfl

end

/-! ### Drawing from the topmost object -/

theorem Widget.Honest.ext_subset {w : Widget γ μ} (h : w.Honest) : w.coords.points ⊆ w.coordsExt.points := by
  intro p hp
  have hext := h.ext
  have hlow := h.low
  have hhigh := h.high
  rw [LvArea.mem_points] at hp
  simp only [Widget.coordsExt, LvArea.increase, LvArea.mem_points]
  rw [Pm.lvCoord_of_range (by omega) (by omega), Pm.lvCoord_of_range (by omega) (by omega),
    Pm.lvCoord_of_range (by omega) (by omega), Pm.lvCoord_of_range (by omega) (by omega)]
  omega

/-- What is made of a pixel by drawing from `top` on. -/
def paintFrom (p : Int × Int) (top : LvObj γ μ × Parents γ μ) (x : γ) : γ :=
  top.2.foldl (fun x (w, younger) => w.drawPost [] p (paints p younger [] x)) (paint p top.1 [] x)

theorem refrObjAndChildren_apply (top : LvObj γ μ × Parents γ μ) :
    refrObjAndChildren clip top c p = if p ∈ clip.points then paintFrom p top (c p) else c p := by
  obtain ⟨top, parents⟩ := top
  have hstart : refrObj top clip [] c p = if p ∈ clip.points then paint p top [] (c p) else c p :=
    refrObj_draws p top clip [] c
  rw [refrObjAndChildren, paintFrom]
  generalize refrObj top clip [] c = d at hstart ⊢
  generalize hx : paint p top [] (c p) = x at hstart ⊢
  clear hx
  induction parents generalizing d x with
  | nil => exact hstart
  | cons parent parents ih =>
      obtain ⟨w, younger⟩ := parent
      rw [List.foldl_cons, List.foldl_cons]
      apply ih
      show drawIn clip (w.drawPost []) (refrObjs younger clip [] d) p =
        if p ∈ clip.points then w.drawPost [] p (paints p younger [] x) else c p
      by_cases h : p ∈ clip.points
      · rw [drawIn_of_mem h, refrObjs_draws p younger, if_pos h, hstart, if_pos h, if_pos h]
      · rw [drawIn_of_notMem h, refrObjs_draws p younger, if_neg h, hstart, if_neg h, if_neg h]

theorem paintFrom_append (p : Int × Int) (top : LvObj γ μ) (parents : Parents γ μ) (w : Widget γ μ)
    (younger : List (LvObj γ μ)) (x : γ) : paintFrom p (top, parents ++ [(w, younger)]) x =
      w.drawPost [] p (paints p younger [] (paintFrom p (top, parents) x)) := by
  rw [paintFrom, List.foldl_append]
  rfl

mutual

/-- From the topmost covering object on, the pixels of the area are those of the whole tree, whatever was
there before. -/
theorem paintFrom_eq (hp : p ∈ area.points) :
    ∀ {o : LvObj γ μ} {top}, o.Honest → getTopObj area o = some top → ∀ x y,
      paintFrom p top x = paint p o [] y
  | .mk w children, top, ⟨hw, hchildren⟩, htop, x, y => by
      rw [getTopObj] at htop
      split at htop
      · cases htop
      next hin =>
      split at htop
      · cases htop
      next hhidden =>
      split at htop
      · cases htop
      next hlayer =>
      split at htop
      · cases htop
      next hmasked =>
      have hsub : area.points ⊆ w.coords.points := LvArea.subset_of_isIn (by simpa using hin)
      have hlayer : w.layer = none := by simpa using hlayer
      have hmasks : w.masks = [] := by
        by_contra hne
        exact hmasked (hw.masked area hne)
      have hpaint : ∀ y, paint p (.mk w children) [] y =
          w.drawPost [] p (paints p children [] (w.drawMain [] p y)) := by
        intro y
        simp only [paint, hhidden, hlayer, if_pos (hw.ext_subset (hsub hp)), hmasks, List.append_nil]
        rw [if_neg Bool.false_ne_true, if_pos (.inr (hsub hp))]
      rw [hpaint]
      cases hfound : topOfChildren area children with
      | some found =>
          obtain ⟨top', parents, younger⟩ := found
          rw [hfound] at htop
          cases htop
          rw [paintFrom_append, paintsFrom_eq hp hchildren hfound x (w.drawMain [] p y)]
      | none =>
          rw [hfound] at htop
          dsimp only at htop
          split at htop
          · next hcover =>
            cases htop
            show paint p (.mk w children) [] x = _
            rw [hpaint, hw.covers area hcover hsub p hp x y]
          · cases htop

theorem paintsFrom_eq (hp : p ∈ area.points) :
    ∀ {os : List (LvObj γ μ)} {top parents younger}, AllHonest os →
      topOfChildren area os = some (top, parents, younger) → ∀ x y,
        paints p younger [] (paintFrom p (top, parents) x) = paints p os [] y
  | [], _, _, _, _, htop, _, _ => by cases htop
  | o :: os, top, parents, younger, ⟨ho, hos⟩, htop, x, y => by
      rw [topOfChildren] at htop
      rw [paints]
      cases hfound : topOfChildren area os with
      | some found =>
          rw [hfound] at htop
          cases htop
          exact paintsFrom_eq hp hos hfound x _
      | none =>
          rw [hfound] at htop
          dsimp only at htop
          obtain ⟨top', htop', heq⟩ := Option.map_eq_some_iff.mp htop
          cases heq
          rw [paintFrom_eq hp ho htop' x y]

end

/-- A screen from its topmost covering object on; where there is one, it does not matter what was there
before. -/
theorem screen_apply {scr : LvObj γ μ} (hscr : scr.Honest) (hsub : clip.points ⊆ area.points)
    (c : Canvas γ) : refrObjAndChildren clip ((getTopObj area scr).getD (scr, [])) c p =
      if p ∈ clip.points then paint p scr [] (c p) else c p := by
  rw [refrObjAndChildren_apply]
  by_cases hp : p ∈ clip.points
  · rw [if_pos hp, if_pos hp]
    cases htop : getTopObj area scr with
    | none => rfl
    | some top => exact paintFrom_eq (hsub hp) hscr htop _ _
  · rw [if_neg hp, if_neg hp]

theorem screen_covers {scr : LvObj γ μ} (hscr : scr.Honest) (hp : p ∈ area.points)
    (htop : getTopObj area scr ≠ none) (x y : γ) : paint p scr [] x = paint p scr [] y := by
  obtain ⟨top, htop⟩ := Option.ne_none_iff_exists'.mp htop
  rw [← paintFrom_eq hp hscr htop x x, paintFrom_eq hp hscr htop x y]

namespace Scene

variable {s : Scene γ μ}

/-- What both screens make of a pixel. -/
def paintScreens (s : Scene γ μ) (p : Int × Int) (x : γ) : γ :=
  let prev := fun x => s.prevScr.elim x fun scr => Refr.paint p scr [] x
  if s.drawPrevOverAct then prev (Refr.paint p s.actScr [] x) else Refr.paint p s.actScr [] (prev x)

/-- A topmost object on one of the screens hides the background. -/
theorem paintScreens_covers (hs : s.Honest) (hp : p ∈ area.points)
    (htop : getTopObj area s.actScr ≠ none ∨ s.prevScr.bind (getTopObj area) ≠ none) (x y : γ) :
    s.paintScreens p x = s.paintScreens p y := by
  rw [paintScreens, paintScreens]
  rcases htop with htop | htop
  · have hact := screen_covers hs.act hp htop
    split
    · rw [hact x y]
    · exact hact _ _
  · obtain ⟨top, htop⟩ := Option.ne_none_iff_exists'.mp htop
    obtain ⟨scr, hscr, htop⟩ := Option.bind_eq_some_iff.mp htop
    have hprev := screen_covers (hs.prev scr hscr) hp (by rw [htop]; exact Option.some_ne_none top)
    simp only [hscr, Option.elim_some]
    split
    · exact hprev _ _
    · rw [hprev x y]

/-- In the clip area every pixel is what the background and all objects of the scene, one after the other, make
of it; the other pixels stay. -/
theorem render_apply (hs : s.Honest) (hsub : clip.points ⊆ area.points) (c : Canvas γ) :
    s.render area clip c p = if p ∈ clip.points then s.paint p (c p) else c p := by
  have hlayer : ∀ (o : LvObj γ μ) (c : Canvas γ), refrObjAndChildren clip (o, []) c p =
      if p ∈ clip.points then Refr.paint p o [] (c p) else c p := fun o c => refrObj_draws p o clip [] c
  have hact : ∀ c : Canvas γ,
      refrObjAndChildren clip ((getTopObj area s.actScr).getD (s.actScr, [])) c p =
        if p ∈ clip.points then Refr.paint p s.actScr [] (c p) else c p := fun c =>
    screen_apply hs.act hsub c
  have hprev : ∀ c : Canvas γ, (match s.prevScr with
      | none => c
      | some scr => refrObjAndChildren clip ((s.prevScr.bind (getTopObj area)).getD (scr, [])) c) p =
        if p ∈ clip.points then s.prevScr.elim (c p) fun scr => Refr.paint p scr [] (c p) else c p := by
    intro c
    cases hscr : s.prevScr with
    | none => exact (ite_self _).symm
    | some scr => exact screen_apply (hs.prev scr hscr) hsub c
  rw [render]
  dsimp only
  rw [hlayer, hlayer]
  by_cases hp : p ∈ clip.points
  · simp only [if_pos hp] at hact hprev ⊢
    have hscreens : ∀ c : Canvas γ, (if s.drawPrevOverAct then
        (match s.prevScr with
          | none => refrObjAndChildren clip ((getTopObj area s.actScr).getD (s.actScr, [])) c
          | some scr => refrObjAndChildren clip ((s.prevScr.bind (getTopObj area)).getD (scr, []))
              (refrObjAndChildren clip ((getTopObj area s.actScr).getD (s.actScr, [])) c))
        else refrObjAndChildren clip ((getTopObj area s.actScr).getD (s.actScr, []))
          (match s.prevScr with
            | none => c
            | some scr => refrObjAndChildren clip ((s.prevScr.bind (getTopObj area)).getD (scr, [])) c)) p =
        s.paintScreens p (c p) := by
      intro c
      rw [paintScreens]
      split
      · rw [hprev, hact]
      · rw [hact, hprev]
    rw [hscreens]
    congr 2
    split
    · rw [drawIn_of_mem hp]
      rfl
    · next hsome =>
      refine paintScreens_covers hs (hsub hp) ?_ _ _
      simpa [Option.isNone_iff_eq_none, or_iff_not_imp_left] using hsome
  · simp only [if_neg hp] at hact hprev ⊢
    have hbg : (if (getTopObj area s.actScr).isNone && (s.prevScr.bind (getTopObj area)).isNone then
        drawIn clip s.drawBg c else c) p = c p := by
      split
      · exact drawIn_of_notMem hp _
      · rfl
    split
    · rw [hprev, hact, hbg]
    · rw [hact, hprev, hbg]

theorem renderAll_apply (c : Canvas γ) :
    s.renderAll clip c p = if p ∈ clip.points then s.paint p (c p) else c p := by
  have hobj : ∀ (o : LvObj γ μ) (c : Canvas γ), refrObj o clip [] c p =
      if p ∈ clip.points then Refr.paint p o [] (c p) else c p := fun o c => refrObj_draws p o clip [] c
  have hprev : ∀ c : Canvas γ, (s.prevScr.elim c fun scr => refrObj scr clip [] c) p =
      if p ∈ clip.points then s.prevScr.elim (c p) fun scr => Refr.paint p scr [] (c p) else c p := by
    intro c
    cases s.prevScr with
    | none => exact (ite_self _).symm
    | some scr => exact hobj scr c
  rw [renderAll]
  dsimp only
  rw [hobj, hobj]
  by_cases hp : p ∈ clip.points
  · simp only [if_pos hp] at hobj hprev ⊢
    rw [paint]
    congr 2
    split
    · rw [hprev, hobj, drawIn_of_mem hp]
    · rw [hobj, hprev, drawIn_of_mem hp]
  · simp only [if_neg hp] at hobj hprev ⊢
    split
    · rw [hprev, hobj, drawIn_of_notMem hp]
    · rw [hobj, hprev, drawIn_of_notMem hp]

/-- **The topmost objects are enough**: leaving out what they hide makes no difference to any pixel. -/
theorem render_eq_renderAll (hs : s.Honest) (hsub : clip.points ⊆ area.points) :
    s.render area clip = s.renderAll clip := by
  funext c p
  rw [render_apply hs hsub, renderAll_apply]

end Scene

/-- A rectangle of one colour; a colour of its own is opaque. -/
def plain (coords : LvArea) (color : Option LvColor) (children : List (LvObj LvColor Unit)) :
    LvObj LvColor Unit :=
  .mk
    { coords := coords
      extDrawSize := 2
      hidden := false
      overflowVisible := false
      layer := none
      coverCheck := fun area => if color.isSome ∧ area.isIn coords then .cover else .notCover
      masks := []
      drawMain := fun _ p x => if p ∈ coords.points then color.getD (x + 1) else x
      drawPost := fun _ _ x => x } children

/-- A screen with an opaque rectangle, and a translucent one on it. -/
def plainScene : Scene LvColor Unit where
  drawBg := fun _ _ => 0
  actScr := plain ⟨0, 0, 19, 19⟩ (some 10) [plain ⟨0, 0, 9, 9⟩ (some 20) [], plain ⟨2, 2, 5, 5⟩ none []]
  prevScr := none
  drawPrevOverAct := false
  topLayer := plain ⟨0, 0, 19, 19⟩ none []
  sysLayer := plain ⟨0, 0, 19, 19⟩ none []

theorem plain_honest {coords : LvArea} {color : Option LvColor} {children : List (LvObj LvColor Unit)}
    (hx : 2 ≤ coords.x1 + 2 ^ 15 ∧ coords.x2 + 2 < 2 ^ 15) (hy : 2 ≤ coords.y1 + 2 ^ 15 ∧ coords.y2 + 2 < 2 ^ 15)
    (hchildren : AllHonest children) : (plain coords color children).Honest := by
  refine ⟨⟨Int.natCast_nonneg 2, ⟨?_, ?_⟩, ⟨hx.2, hy.2⟩, fun _ h => absurd rfl h, ?_⟩, hchildren⟩
  · show -2 ^ 15 ≤ coords.x1 - 2
    omega
  · show -2 ^ 15 ≤ coords.y1 - 2
    omega
  · intro area hcover hsub p hp x y
    cases color with
    | none => simp at hcover
    | some color => simp only [if_pos (hsub hp), Option.getD_some]

theorem plainScene_honest : plainScene.Honest := by
  have hempty : AllHonest ([] : List (LvObj LvColor Unit)) := trivial
  refine ⟨?_, nofun, ?_, ?_⟩
  · exact plain_honest (by decide) (by decide)
      ⟨plain_honest (by decide) (by decide) hempty, plain_honest (by decide) (by decide) hempty, hempty⟩
  · exact plain_honest (by decide) (by decide) hempty
  · exact plain_honest (by decide) (by decide) hempty

/-- Drawing starts from the opaque rectangle. -/
theorem render_eq_renderAll_plain :
    plainScene.render ⟨0, 0, 7, 7⟩ ⟨0, 0, 7, 3⟩ = plainScene.renderAll ⟨0, 0, 7, 3⟩ :=
  Scene.render_eq_renderAll plainScene_honest (LvArea.subset_of_isIn rfl)

example : plainScene.render ⟨0, 0, 7, 7⟩ ⟨0, 0, 7, 3⟩ (fun _ => 99) (3, 3) = 23 := rfl

end SwmLvgl.Refr
