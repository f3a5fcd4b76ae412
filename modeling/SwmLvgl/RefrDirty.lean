import SwmLvgl.RefrStrips

/-! The invalid areas, the areas that are joined, and the areas that are copied from one draw buffer to the
other: whichever way they are recorded, no invalid pixel gets lost. -/

namespace SwmLvgl.Refr

open Disp
open Pm (lvCoord lvCoord_of_range)

variable {d : Driver} {σ ε γ μ : Type} {s s' s₀ : LvDisp σ γ μ} {a b area : LvArea} {p : Int × Int}

/-- The pixels of the invalid areas. -/
def LvDisp.dirty (s : LvDisp σ γ μ) : Set (Int × Int) := {p | ∃ i < s.invP, p ∈ (s.invAreas i).points}

/-- The pixels of the areas that have not been joined into others, from the area `n` on. -/
def LvDisp.pending (s : LvDisp σ γ μ) (n : Nat) : Set (Int × Int) :=
  {p | ∃ i < s.invP, n ≤ i ∧ s.invAreaJoined i = false ∧ p ∈ (s.invAreas i).points}

/-- The areas are areas of the screen, and there is room for them. -/
structure Driver.Valid (d : Driver) (s : LvDisp σ γ μ) : Prop where
  areas : ∀ i < s.invP, d.OnScreen (s.invAreas i)
  count : s.invP ≤ lvInvBufSize

theorem onScreen_intersect (hd : d.Ok) (h : (area.intersect d.screen).2 = true) :
    d.OnScreen (area.intersect d.screen).1 := by
  rw [hd.screen_eq] at h ⊢
  simp only [LvArea.intersect, decide_eq_true_iff] at h
  constructor
  · simp only [LvArea.intersect]
    omega
  · simp only [LvArea.intersect]
    omega

/-- The areas with one more, or with one instead of all others. -/
theorem Driver.Valid.update (h : d.Valid s) {n : Nat} (hn : n ≤ s.invP) (hcount : n < lvInvBufSize)
    (harea : d.OnScreen area) :
    d.Valid { s with invAreas := Function.update s.invAreas n area, invP := n + 1 } := by
  refine ⟨fun i hi => ?_, hcount⟩
  show d.OnScreen (Function.update s.invAreas n area i)
  by_cases heq : i = n
  · rw [heq, Function.update_self]
    exact harea
  · rw [Function.update_of_ne heq]
    exact h.areas i (Nat.lt_of_lt_of_le (by have : i < n + 1 := hi; omega) hn)

/-- What is invalidated is recorded. -/
theorem lvInvArea_spec (hd : d.Ok) (h : d.Valid s) (henabled : 0 < s.invEnCnt)
    (hidle : s.renderingInProgress = false) (area : LvArea) :
    ∃ areas n, s.lvInvArea d (some area) = { s with invAreas := areas, invP := n } ∧
      d.Valid { s with invAreas := areas, invP := n } ∧
      ∀ p ∈ d.screen.points, p ∈ s.dirty ∨ p ∈ area.points →
        p ∈ LvDisp.dirty { s with invAreas := areas, invP := n } := by
  have hall : ∀ p ∈ d.screen.points,
      p ∈ LvDisp.dirty { s with invAreas := Function.update s.invAreas 0 d.screen, invP := 1 } :=
    fun p hp => ⟨0, Nat.one_pos, show p ∈ (Function.update s.invAreas 0 d.screen 0).points by
      rwa [Function.update_self]⟩
  have hvalid : d.Valid { s with invAreas := Function.update s.invAreas 0 d.screen, invP := 1 } :=
    h.update (Nat.zero_le _) (by decide) hd.onScreen
  have hnot : ¬s.renderingInProgress = true := by
    rw [hidle]
    exact Bool.false_ne_true
  rw [LvDisp.lvInvArea, if_neg (not_not_intro henabled), if_neg hnot]
  dsimp only
  split
  · next hsuc =>
    refine ⟨s.invAreas, s.invP, rfl, h, fun p hp hdirty => hdirty.resolve_right fun hin => ?_⟩
    have hne : (area.intersect d.screen).2 = true := LvArea.intersect_nonempty.mpr ⟨p, hin, hp⟩
    rw [hsuc] at hne
    cases hne
  · next hsuc =>
    have hcom := onScreen_intersect hd (by simpa using hsuc)
    split
    · exact ⟨_, _, rfl, hvalid, fun p hp _ => hall p hp⟩
    · split
      · next hin =>
        refine ⟨s.invAreas, s.invP, rfl, h, fun p hp hdirty => hdirty.elim id fun harea => ?_⟩
        obtain ⟨i, hi, hisIn⟩ := List.any_eq_true.mp hin
        exact ⟨i, List.mem_range.mp hi, LvArea.subset_of_isIn hisIn (LvArea.mem_intersect.mpr ⟨harea, hp⟩)⟩
      · split
        · next hroom =>
          refine ⟨_, _, rfl, h.update (le_refl _) hroom hcom, fun p hp hdirty => ?_⟩
          rcases hdirty with ⟨i, hi, hp'⟩ | harea
          · refine ⟨i, Nat.lt_succ_of_lt hi, ?_⟩
            show p ∈ (Function.update s.invAreas s.invP _ i).points
            rwa [Function.update_of_ne (Nat.ne_of_lt hi)]
          · refine ⟨s.invP, Nat.lt_succ_self _, ?_⟩
            show p ∈ (Function.update s.invAreas s.invP _ s.invP).points
            rw [Function.update_self]
            exact LvArea.mem_intersect.mpr ⟨harea, hp⟩
        · exact ⟨_, _, rfl, hvalid, fun p hp _ => hall p hp⟩

/-- In the course of the joining no invalid pixel is lost. -/
structure Joining (d : Driver) (s₀ s : LvDisp σ γ μ) : Prop where
  same : ∃ areas joined, s = { s₀ with invAreas := areas, invAreaJoined := joined }
  valid : d.Valid s
  covers : s₀.dirty ⊆ s.pending 0

theorem onScreen_join (ha : d.OnScreen a) (hb : d.OnScreen b) : d.OnScreen (a.join b) := by
  obtain ⟨hax, hay⟩ := ha
  obtain ⟨hbx, hby⟩ := hb
  constructor
  · simp only [LvArea.join]
    omega
  · simp only [LvArea.join]
    omega

theorem joinFrom_spec {i k : Nat} (h : Joining d s₀ s) (hi : i < s₀.invP) (hk : k < s₀.invP)
    (hroot : s.invAreaJoined i = false) :
    Joining d s₀ (s.joinFrom i k) ∧ (s.joinFrom i k).invAreaJoined i = false := by
  obtain ⟨areas, joined, rfl⟩ := h.same
  rw [LvDisp.joinFrom]
  split
  · exact ⟨h, hroot⟩
  · next hother =>
    have hother : joined k = false ∧ i ≠ k := by simpa using hother
    split
    · exact ⟨h, hroot⟩
    · dsimp only
      split
      · refine ⟨⟨⟨_, _, rfl⟩, ⟨fun j hj => ?_, h.valid.count⟩, fun p hp => ?_⟩, ?_⟩
        · show d.OnScreen (Function.update areas i _ j)
          by_cases heq : j = i
          · rw [heq, Function.update_self]
            exact onScreen_join (h.valid.areas i hi) (h.valid.areas k hk)
          · rw [Function.update_of_ne heq]
            exact h.valid.areas j hj
        · obtain ⟨j, hj, -, hjoined, hmem⟩ := h.covers hp
          have hmem : p ∈ (areas j).points := hmem
          -- the pixels of the two areas are in the joined one, all others where they were
          have hroot' : Function.update joined k true i = false := by
            rw [Function.update_of_ne hother.2]
            exact hroot
          by_cases hji : j = i
          · refine ⟨i, hi, Nat.zero_le i, hroot', ?_⟩
            show p ∈ (Function.update areas i _ i).points
            rw [Function.update_self]
            exact LvArea.subset_join_left (hji ▸ hmem)
          · by_cases hjk : j = k
            · refine ⟨i, hi, Nat.zero_le i, hroot', ?_⟩
              show p ∈ (Function.update areas i _ i).points
              rw [Function.update_self]
              exact LvArea.subset_join_right (hjk ▸ hmem)
            · refine ⟨j, hj, Nat.zero_le j, ?_, ?_⟩
              · show Function.update joined k true j = false
                rw [Function.update_of_ne hjk]
                exact hjoined
              · show p ∈ (Function.update areas i _ j).points
                rwa [Function.update_of_ne hji]
        · show Function.update joined k true i = false
          rw [Function.update_of_ne hother.2]
          exact hroot
      · exact ⟨h, hroot⟩

theorem lvRefrJoinArea_spec (h : d.Valid s) (hunjoined : ∀ i, s.invAreaJoined i = false) :
    Joining d s s.lvRefrJoinArea := by
  have hstart : Joining d s s :=
    ⟨⟨_, _, rfl⟩, h, fun p ⟨i, hi, hp⟩ => ⟨i, hi, Nat.zero_le i, hunjoined i, hp⟩⟩
  rw [LvDisp.lvRefrJoinArea]
  refine Run.foldl_range (I := fun _ => Joining d s) (fun i hi t ht => ?_) hstart
  split
  · exact ht
  · next hroot =>
    obtain ⟨areas, joined, rfl⟩ := ht.same
    refine (Run.foldl_range (I := fun _ t => Joining d s t ∧ t.invAreaJoined i = false) (fun k hk t ht => ?_)
      ⟨ht, by simpa using hroot⟩).1
    exact joinFrom_spec ht.1 hi hk ht.2

/-! ### Copying from one draw buffer to the other -/

/-- The pixels of the areas of a list. -/
def union (l : List LvArea) : Set (Int × Int) := {p | ∃ a ∈ l, p ∈ a.points}

/-- In taking the areas `invs` away from the others no left end is lost. -/
def CutsKeep : List LvArea → List LvArea → Prop
  | _, [] => True
  | sync, inv :: invs => (∀ a ∈ sync, a.isOn inv = true → ¬a.LosesLeft inv) ∧
      CutsKeep (LvDisp.syncWithout sync inv) invs

instance cutsKeepDecidable : ∀ sync invs, Decidable (CutsKeep sync invs)
  | _, [] => inferInstanceAs (Decidable True)
  | sync, inv :: invs =>
      have := cutsKeepDecidable (LvDisp.syncWithout sync inv) invs
      inferInstanceAs (Decidable (_ ∧ _))

theorem Driver.OnScreen.proper (hd : d.Ok) (ha : d.OnScreen a) : a.Proper := by
  obtain ⟨hx, hy⟩ := ha
  obtain ⟨hw, hh, -⟩ := hd.range_screen
  constructor <;> omega

/-- Taking an area away leaves areas of the screen, and every pixel that is not in it. -/
theorem syncWithout_spec (hd : d.Ok) {sync : List LvArea} (hsync : ∀ a ∈ sync, d.OnScreen a) {inv : LvArea}
    (hinv : d.OnScreen inv) (hkeep : ∀ a ∈ sync, a.isOn inv = true → ¬a.LosesLeft inv) :
    (∀ a ∈ LvDisp.syncWithout sync inv, d.OnScreen a) ∧ union (LvDisp.syncWithout sync inv) ⊆ union sync ∧
      ∀ p ∈ union sync, p ∉ inv.points → p ∈ union (LvDisp.syncWithout sync inv) := by
  -- what becomes of one area
  have hcut : ∀ a ∈ sync, (∀ c ∈ (a.diff inv).getD [a], d.OnScreen c ∧ c.points ⊆ a.points) ∧
      ∀ p ∈ a.points, p ∉ inv.points → ∃ c ∈ (a.diff inv).getD [a], p ∈ c.points := by
    intro a ha
    have hon := hsync a ha
    by_cases hmeet : a.isOn inv = true
    · obtain ⟨l, hl, hparts⟩ := LvArea.diff_parts (hon.proper hd) (hinv.proper hd) hmeet
      rw [hl, Option.getD_some]
      refine ⟨fun c hc => ⟨?_, (hparts c hc).2⟩, fun p hp hout =>
        LvArea.diff_cover (hon.proper hd) (hinv.proper hd) hl (hkeep a ha hmeet) hp hout⟩
      obtain ⟨⟨hcx, hcy⟩, hsub⟩ := hparts c hc
      have hfirst := hsub (show (c.x1, c.y1) ∈ c.points by rw [LvArea.mem_points]; omega)
      have hlast := hsub (show (c.x2, c.y2) ∈ c.points by rw [LvArea.mem_points]; omega)
      rw [LvArea.mem_points] at hfirst hlast
      obtain ⟨hax, hay⟩ := hon
      constructor <;> omega
    · rw [LvArea.diff, if_pos (by simpa using hmeet), Option.getD_none]
      refine ⟨fun c hc => ?_, fun p hp _ => ⟨a, List.mem_singleton_self a, hp⟩⟩
      rw [List.mem_singleton.mp hc]
      exact ⟨hon, fun _ hp => hp⟩
  refine ⟨fun c hc => ?_, fun p hp => ?_, fun p hp hout => ?_⟩
  · obtain ⟨a, ha, hc⟩ := List.mem_flatMap.mp hc
    exact ((hcut a ha).1 c hc).1
  · obtain ⟨c, hc, hp⟩ := hp
    obtain ⟨a, ha, hc⟩ := List.mem_flatMap.mp hc
    exact ⟨a, ha, ((hcut a ha).1 c hc).2 hp⟩
  · obtain ⟨a, ha, hp⟩ := hp
    obtain ⟨c, hc, hp⟩ := (hcut a ha).2 p hp hout
    exact ⟨c, List.mem_flatMap.mpr ⟨a, ha, hc⟩, hp⟩

theorem syncWithout_all (hd : d.Ok) {invs : List LvArea} (hinvs : ∀ a ∈ invs, d.OnScreen a) :
    ∀ {sync : List LvArea}, (∀ a ∈ sync, d.OnScreen a) → CutsKeep sync invs →
      union (invs.foldl LvDisp.syncWithout sync) ⊆ union sync ∧
        ∀ p ∈ union sync, p ∉ union invs → p ∈ union (invs.foldl LvDisp.syncWithout sync) := by
  induction invs with
  | nil => exact fun _ _ => ⟨fun _ hp => hp, fun _ hp _ => hp⟩
  | cons inv invs ih =>
      intro sync hsync hkeep
      obtain ⟨hon, hsub, hcover⟩ := syncWithout_spec hd hsync (hinvs inv List.mem_cons_self) hkeep.1
      obtain ⟨hsub', hcover'⟩ := ih (fun a ha => hinvs a (List.mem_cons_of_mem inv ha)) hon hkeep.2
      refine ⟨fun p hp => hsub (hsub' hp), fun p hp hout => hcover' p (hcover p hp ?_) ?_⟩
      · exact fun hin => hout ⟨inv, List.mem_cons_self, hin⟩
      · exact fun ⟨a, ha, hin⟩ => hout ⟨a, List.mem_cons_of_mem inv ha, hin⟩

/-- All the copies together. -/
theorem bufferCopy_all (sync : List LvArea) (dst src : Nat → γ) (hp : p ∈ d.screen.points) :
    (p ∈ union sync → sync.foldl (fun dst area => LvDisp.bufferCopy d area dst src) dst
      (pixelIndex d.screen p) = src (pixelIndex d.screen p)) ∧
    (p ∉ union sync → sync.foldl (fun dst area => LvDisp.bufferCopy d area dst src) dst
      (pixelIndex d.screen p) = dst (pixelIndex d.screen p)) := by
  induction sync generalizing dst with
  | nil => exact ⟨fun ⟨a, ha, _⟩ => absurd ha (List.not_mem_nil), fun _ => rfl⟩
  | cons area sync ih =>
      have hcopy : LvDisp.bufferCopy d area dst src (pixelIndex d.screen p) =
          if p ∈ area.points then src (pixelIndex d.screen p) else dst (pixelIndex d.screen p) := by
        rw [LvDisp.bufferCopy, pixelAt_pixelIndex hp]
      obtain ⟨hcopied, hkept⟩ := ih (LvDisp.bufferCopy d area dst src)
      rw [List.foldl_cons]
      by_cases hrest : p ∈ union sync
      · refine ⟨fun _ => hcopied hrest, fun hout => absurd ?_ hout⟩
        obtain ⟨a, ha, hin⟩ := hrest
        exact ⟨a, List.mem_cons_of_mem area ha, hin⟩
      · rw [hkept hrest, hcopy]
        by_cases hin : p ∈ area.points
        · exact ⟨fun _ => if_pos hin, fun hout => absurd ⟨area, List.mem_cons_self, hin⟩ hout⟩
        · refine ⟨fun hall => ?_, fun _ => if_neg hin⟩
          obtain ⟨a, ha, hin'⟩ := hall
          rcases List.mem_cons.mp ha with rfl | ha
          · exact absurd hin' hin
          · exact absurd ⟨a, ha, hin'⟩ hrest

theorem mem_unjoined : a ∈ s.unjoined ↔ ∃ i < s.invP, s.invAreaJoined i = false ∧ s.invAreas i = a := by
  simp only [LvDisp.unjoined, List.mem_map, List.mem_filter, List.mem_range, Bool.not_eq_eq_eq_not, Bool.not_true,
    and_assoc]

theorem union_unjoined : union s.unjoined = s.pending 0 := by
  ext p
  constructor
  · rintro ⟨a, ha, hp⟩
    obtain ⟨i, hi, hjoined, rfl⟩ := mem_unjoined.mp ha
    exact ⟨i, hi, Nat.zero_le i, hjoined, hp⟩
  · rintro ⟨i, hi, -, hjoined, hp⟩
    exact ⟨_, mem_unjoined.mpr ⟨i, hi, hjoined, rfl⟩, hp⟩

end SwmLvgl.Refr
