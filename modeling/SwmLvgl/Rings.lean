import Mathlib.Data.List.Chain
import Mathlib.Data.List.Nodup
import Mathlib.Logic.Function.Basic
import Mathlib.Tactic.Common

/-! Doubly linked rings. A ring is given by two functions, from a node to the next one and to the one
before; its nodes are a header and a list. The rules for an insertion and a removal ask what the new
functions are at the nodes that change, and that they are the old ones elsewhere. -/

namespace SwmLvgl.Rings

variable {α : Type*} {next prev next' prev' : α → α}

/-- Consecutive nodes are linked both ways. -/
def Links (next prev : α → α) : List α → Prop := List.IsChain fun a b => next a = b ∧ prev b = a

/-- The ring of the header `r` and the nodes `xs`. -/
structure Ring (next prev : α → α) (r : α) (xs : List α) : Prop where
  links : Links next prev (r :: xs ++ [r])
  nodup : (r :: xs).Nodup

theorem Links.congr {l : List α} (h : Links next prev l) (hnext : ∀ a ∈ l.dropLast, next' a = next a)
    (hprev : ∀ a ∈ l.tail, prev' a = prev a) : Links next' prev' l := by
  induction l with
  | nil => exact .nil
  | cons a l ih =>
      cases l with
      | nil => exact .singleton a
      | cons b l =>
          obtain ⟨⟨h1, h2⟩, htail⟩ := List.isChain_cons_cons.mp h
          have ha : a ∈ (a :: b :: l).dropLast := by simp
          refine List.isChain_cons_cons.mpr ⟨⟨?_, ?_⟩, ih htail ?_ ?_⟩
          · rw [hnext a ha, h1]
          · rw [hprev b List.mem_cons_self, h2]
          · intro c hc
            exact hnext c (by rw [List.dropLast_cons_cons]; exact List.mem_cons_of_mem a hc)
          · intro c hc
            exact hprev c (List.mem_cons_of_mem b hc)

/-- A list of nodes is linked if and only if its halves are, and the one to the other. -/
theorem links_append {xs ys : List α} {u v : α} :
    Links next prev (xs ++ [u] ++ v :: ys) ↔
      Links next prev (xs ++ [u]) ∧ (next u = v ∧ prev v = u) ∧ Links next prev (v :: ys) := by
  constructor
  · intro h
    obtain ⟨hleft, hright, hjoin⟩ := List.isChain_append.mp h
    exact ⟨hleft, hjoin u (by simp) v rfl, hright⟩
  · rintro ⟨hleft, hjoin, hright⟩
    refine List.isChain_append.mpr ⟨hleft, hright, fun a ha b hb => ?_⟩
    have hau : a = u := by simpa using ha.symm
    have hbv : b = v := by simpa using hb.symm
    rw [hau, hbv]
    exact hjoin

variable {r n u v : α} {xs ys : List α}

/-- The nodes on both sides of a cut. -/
theorem exists_cut (r : α) (xs ys : List α) :
    ∃ as u v bs, r :: xs = as ++ [u] ∧ ys ++ [r] = v :: bs := by
  obtain ⟨as, u, hl⟩ := List.eq_nil_or_concat (r :: xs) |>.resolve_left (List.cons_ne_nil r xs)
  rw [List.concat_eq_append] at hl
  cases ys with
  | nil => exact ⟨as, u, r, [], hl, rfl⟩
  | cons v bs => exact ⟨as, u, v, bs ++ [r], hl, rfl⟩

/-- The links on both sides of a cut stay, when only the links between `u` and `v` change: the nodes from
which a link leads are distinct, and so are those to which one leads. -/
theorem links_sides {as bs : List α} (hnodup : (r :: (xs ++ ys)).Nodup) (hl : r :: xs = as ++ [u])
    (hr : ys ++ [r] = v :: bs) (hnext : ∀ a ∈ r :: (xs ++ ys), a ≠ u → next' a = next a)
    (hprev : ∀ a ∈ r :: (xs ++ ys), a ≠ v → prev' a = prev a) (hleft : Links next prev (as ++ [u]))
    (hright : Links next prev (v :: bs)) : Links next' prev' (as ++ [u]) ∧ Links next' prev' (v :: bs) := by
  have hfrom : as ++ [u] ++ ys = r :: (xs ++ ys) := by rw [← hl, List.cons_append]
  have hto : xs ++ v :: bs = xs ++ ys ++ [r] := by rw [← hr, List.append_assoc]
  have hmem : ∀ a, a ∈ xs ++ v :: bs → a ∈ r :: (xs ++ ys) := by
    intro a ha
    rw [hto, List.mem_append, List.mem_singleton] at ha
    exact List.mem_cons.mpr ha.symm
  have hnodupFrom : (as ++ [u] ++ ys).Nodup := hfrom ▸ hnodup
  have hnodupTo : (xs ++ v :: bs).Nodup := by
    rw [hto, List.nodup_append_comm]
    exact hnodup
  obtain ⟨hnodupLeft, -, hleftYs⟩ := List.nodup_append.mp hnodupFrom
  obtain ⟨-, hnodupRight, hxsRight⟩ := List.nodup_append.mp hnodupTo
  constructor
  · refine hleft.congr ?_ ?_
    · intro a ha
      rw [List.dropLast_concat] at ha
      refine hnext a (by rw [← hfrom]; simp [ha]) ?_
      rintro rfl
      exact (List.nodup_append.mp hnodupLeft).2.2 _ ha _ (List.mem_singleton_self _) rfl
    · intro a ha
      rw [← hl, List.tail_cons] at ha
      refine hprev a (List.mem_cons_of_mem r (List.mem_append_left ys ha)) ?_
      rintro rfl
      exact hxsRight _ ha _ List.mem_cons_self rfl
  · refine hright.congr ?_ ?_
    · intro a ha
      rw [← hr, List.dropLast_concat] at ha
      refine hnext a (List.mem_cons_of_mem r (List.mem_append_right xs ha)) ?_
      rintro rfl
      exact hleftYs a (by simp) _ ha rfl
    · intro a ha
      rw [List.tail_cons] at ha
      refine hprev a (hmem a (List.mem_append_right xs (List.mem_cons_of_mem v ha))) ?_
      rintro rfl
      exact (List.nodup_cons.mp hnodupRight).1 ha

theorem perm_middle_of_ring (r n : α) (xs ys : List α) :
    (r :: (xs ++ n :: ys)).Perm (n :: r :: (xs ++ ys)) :=
  (List.Perm.cons r List.perm_middle).trans (List.Perm.swap n r _)

/-- A new node is put between two neighbours. -/
theorem Ring.insert (h : Ring next prev r (xs ++ ys)) (hu : (r :: xs).getLast? = some u)
    (hv : (ys ++ [r]).head? = some v) (hn : n ∉ r :: (xs ++ ys)) (hun : next' u = n) (hnv : next' n = v)
    (hvn : prev' v = n) (hnu : prev' n = u) (hnext : ∀ a, a ≠ u → a ≠ n → next' a = next a)
    (hprev : ∀ a, a ≠ v → a ≠ n → prev' a = prev a) : Ring next' prev' r (xs ++ n :: ys) := by
  obtain ⟨as, u', v', bs, hl, hr⟩ := exists_cut r xs ys
  have hu' : u' = u := by simpa [hl] using hu
  have hv' : v' = v := by simpa [hr] using hv
  subst hu' hv'
  obtain ⟨hlinks, hnodup⟩ := h
  have hcut : r :: (xs ++ ys) ++ [r] = as ++ [u'] ++ v' :: bs := by
    rw [← hl, ← hr, List.cons_append, List.append_assoc, List.cons_append]
  have hwhole : r :: (xs ++ n :: ys) ++ [r] = as ++ [u'] ++ n :: (v' :: bs) := by
    rw [← hl, ← hr]
    simp
  rw [hcut, links_append] at hlinks
  obtain ⟨hleft, -, hright⟩ := hlinks
  have hfresh : ∀ a ∈ r :: (xs ++ ys), a ≠ n := fun a ha heq => hn (heq ▸ ha)
  obtain ⟨hleft', hright'⟩ := links_sides hnodup hl hr (fun a ha hau => hnext a hau (hfresh a ha))
    (fun a ha hav => hprev a hav (hfresh a ha)) hleft hright
  constructor
  · rw [hwhole, links_append]
    exact ⟨hleft', ⟨hun, hnu⟩, List.isChain_cons_cons.mpr ⟨⟨hnv, hvn⟩, hright'⟩⟩
  · rw [(perm_middle_of_ring r n xs ys).nodup_iff, List.nodup_cons]
    exact ⟨hn, hnodup⟩

/-- A node is taken out from between its neighbours. -/
theorem Ring.remove (h : Ring next prev r (xs ++ n :: ys)) (hnext' : next' (prev n) = next n)
    (hprev' : prev' (next n) = prev n) (hnext : ∀ a, a ≠ prev n → a ≠ n → next' a = next a)
    (hprev : ∀ a, a ≠ next n → a ≠ n → prev' a = prev a) : Ring next' prev' r (xs ++ ys) := by
  obtain ⟨as, u, v, bs, hl, hr⟩ := exists_cut r xs ys
  obtain ⟨hlinks, hnodup⟩ := h
  rw [(perm_middle_of_ring r n xs ys).nodup_iff, List.nodup_cons] at hnodup
  obtain ⟨hn, hnodup⟩ := hnodup
  have hcut : r :: (xs ++ ys) ++ [r] = as ++ [u] ++ v :: bs := by
    rw [← hl, ← hr, List.cons_append, List.append_assoc, List.cons_append]
  have hwhole : r :: (xs ++ n :: ys) ++ [r] = as ++ [u] ++ n :: (v :: bs) := by
    rw [← hl, ← hr]
    simp
  rw [hwhole, links_append, Links, List.isChain_cons_cons] at hlinks
  obtain ⟨hleft, ⟨-, hnu⟩, ⟨hnv, -⟩, hright⟩ := hlinks
  rw [hnu, hnv] at hnext' hprev'
  rw [hnu] at hnext
  rw [hnv] at hprev
  have hfresh : ∀ a ∈ r :: (xs ++ ys), a ≠ n := fun a ha heq => hn (heq ▸ ha)
  obtain ⟨hleft', hright'⟩ := links_sides hnodup hl hr (fun a ha hau => hnext a hau (hfresh a ha))
    (fun a ha hav => hprev a hav (hfresh a ha)) hleft hright
  refine ⟨?_, hnodup⟩
  rw [hcut, links_append]
  exact ⟨hleft', ⟨hnext', hprev'⟩, hright'⟩

theorem Ring.next_header (h : Ring next prev r xs) : next r = (xs ++ [r]).head (by simp) := by
  have hlinks := h.links
  cases xs with
  | nil => exact (List.isChain_cons_cons.mp hlinks).1.1
  | cons x xs => exact (List.isChain_cons_cons.mp hlinks).1.1

/-- The neighbours of a node. -/
theorem Ring.next_node (h : Ring next prev r (xs ++ n :: ys)) : next n = (ys ++ [r]).head (by simp) := by
  obtain ⟨as, u, v, bs, hl, hr⟩ := exists_cut r xs ys
  have hwhole : r :: (xs ++ n :: ys) ++ [r] = as ++ [u] ++ n :: (v :: bs) := by
    rw [← hl, ← hr]
    simp
  have hlinks := h.links
  rw [hwhole, links_append, Links, List.isChain_cons_cons] at hlinks
  simp only [hr, List.head_cons]
  exact hlinks.2.2.1.1

theorem Ring.prev_node (h : Ring next prev r (xs ++ n :: ys)) : prev n = (r :: xs).getLast (by simp) := by
  obtain ⟨as, u, v, bs, hl, hr⟩ := exists_cut r xs ys
  have hwhole : r :: (xs ++ n :: ys) ++ [r] = as ++ [u] ++ n :: (v :: bs) := by
    rw [← hl, ← hr]
    simp
  have hlinks := h.links
  rw [hwhole, links_append] at hlinks
  simp only [hl, List.getLast_concat]
  exact hlinks.2.1.2

theorem Ring.mem_of_next (h : Ring next prev r (xs ++ n :: ys)) : next n ∈ r :: (xs ++ ys) := by
  rw [h.next_node]
  have hmem := List.head_mem (l := ys ++ [r]) (by simp)
  simp only [List.mem_append, List.mem_cons] at hmem ⊢
  tauto

theorem Ring.mem_of_prev (h : Ring next prev r (xs ++ n :: ys)) : prev n ∈ r :: (xs ++ ys) := by
  rw [h.prev_node]
  have hmem := List.getLast_mem (l := r :: xs) (by simp)
  simp only [List.mem_append, List.mem_cons] at hmem ⊢
  tauto

theorem Ring.mem_of_next_header (h : Ring next prev r xs) : next r ∈ r :: xs := by
  rw [h.next_header]
  have hmem := List.head_mem (l := xs ++ [r]) (by simp)
  rw [List.mem_append, List.mem_singleton] at hmem
  exact List.mem_cons.mpr hmem.symm

theorem Ring.notMem (h : Ring next prev r (xs ++ n :: ys)) : n ∉ r :: (xs ++ ys) := by
  have hnodup := h.nodup
  rw [(perm_middle_of_ring r n xs ys).nodup_iff] at hnodup
  exact (List.nodup_cons.mp hnodup).1

theorem Ring.next_ne (h : Ring next prev r (xs ++ n :: ys)) : next n ≠ n :=
  fun heq => h.notMem (heq ▸ h.mem_of_next)

/-- The way back from the next node. -/
theorem Ring.prev_next (h : Ring next prev r xs) {a : α} (ha : a ∈ r :: xs) : prev (next a) = a := by
  obtain ⟨as, bs, hsplit⟩ := List.append_of_mem ha
  have hlinks := h.links
  cases bs with
  | nil =>
      have hwhole : r :: xs ++ [r] = as ++ [a] ++ r :: [] := by rw [hsplit]
      rw [hwhole, links_append] at hlinks
      rw [hlinks.2.1.1, hlinks.2.1.2]
  | cons b bs =>
      have hwhole : r :: xs ++ [r] = as ++ [a] ++ b :: (bs ++ [r]) := by
        rw [hsplit]
        simp
      rw [hwhole, links_append] at hlinks
      rw [hlinks.2.1.1, hlinks.2.1.2]

/-- Only the nodes of a ring count. -/
theorem Ring.congr (h : Ring next prev r xs) (hnext : ∀ a ∈ r :: xs, next' a = next a)
    (hprev : ∀ a ∈ r :: xs, prev' a = prev a) : Ring next' prev' r xs := by
  refine ⟨h.links.congr (fun a ha => hnext a ?_) (fun a ha => hprev a ?_), h.nodup⟩
  · rwa [List.dropLast_concat] at ha
  · simpa [or_comm] using ha

/-! ### Stores to the links -/

section Update

variable [DecidableEq α]

/-- A node is linked in behind the header. -/
theorem Ring.link_header (h : Ring next prev r ys) (hn : n ∉ r :: ys) :
    Ring (Function.update (Function.update next n (next r)) r n)
      (Function.update (Function.update prev n r) (next r) n) r (n :: ys) := by
  have hnr : n ≠ r := fun heq => hn (heq ▸ List.mem_cons_self)
  have hv : (ys ++ [r]).head? = some (next r) := by rw [h.next_header, List.head?_eq_some_head]
  have hvn : next r ≠ n := by
    rintro heq
    have hmem := List.mem_of_mem_head? (heq ▸ hv)
    simp only [List.mem_append, List.mem_singleton] at hmem
    exact hn (List.mem_cons.mpr hmem.symm)
  refine Ring.insert (show Ring next prev r ([] ++ ys) from h) (u := r) (v := next r) rfl hv hn ?_ ?_ ?_ ?_ ?_ ?_
  · rw [Function.update_self]
  · rw [Function.update_of_ne hnr, Function.update_self]
  · rw [Function.update_self]
  · rw [Function.update_of_ne hvn.symm, Function.update_self]
  · intro a har han
    rw [Function.update_of_ne har, Function.update_of_ne han]
  · intro a hav han
    rw [Function.update_of_ne hav, Function.update_of_ne han]

/-- A node is linked in behind another one. -/
theorem Ring.link_node {p : α} (h : Ring next prev r (xs ++ p :: ys)) (hn : n ∉ r :: (xs ++ p :: ys)) :
    Ring (Function.update (Function.update next n (next p)) p n)
      (Function.update (Function.update prev n p) (next p) n) r (xs ++ p :: n :: ys) := by
  have hnp : n ≠ p := by
    rintro rfl
    exact hn (by simp)
  have hv : (ys ++ [r]).head? = some (next p) := by rw [h.next_node, List.head?_eq_some_head]
  have hvn : next p ≠ n := by
    intro heq
    have hmem := h.mem_of_next
    rw [heq] at hmem
    exact hn (by
      simp only [List.mem_cons, List.mem_append] at hmem ⊢
      tauto)
  have hu : (r :: (xs ++ [p])).getLast? = some p :=
    List.getLast?_concat (l := r :: xs) (a := p)
  rw [List.append_cons] at h hn ⊢
  refine Ring.insert h hu hv hn ?_ ?_ ?_ ?_ ?_ ?_
  · rw [Function.update_self]
  · rw [Function.update_of_ne hnp, Function.update_self]
  · rw [Function.update_self]
  · rw [Function.update_of_ne hvn.symm, Function.update_self]
  · intro a har han
    rw [Function.update_of_ne har, Function.update_of_ne han]
  · intro a hav han
    rw [Function.update_of_ne hav, Function.update_of_ne han]

/-- A node is taken out. -/
theorem Ring.unlink (h : Ring next prev r (xs ++ n :: ys)) :
    Ring (Function.update next (prev n) (next n)) (Function.update prev (next n) (prev n)) r (xs ++ ys) := by
  apply h.remove
  · rw [Function.update_self]
  · rw [Function.update_self]
  · intro a hap _
    rw [Function.update_of_ne hap]
  · intro a han _
    rw [Function.update_of_ne han]

end Update

end SwmLvgl.Rings
