import Mathlib.Data.List.Sort

/-!
# Reading an ordered list in pages

Each page is cut out of its own copy of the list: `L k`, for page `k`, is any arrangement of the
rows `l` in the order of their ranks, so rows of one rank may stand in a different order in each.
Where no page boundary separates rows of one rank (`Cut`), all arrangements have the same rows on a
page, and the pages together are an arrangement again (`pages_perm`, `pages_sorted`). Where one
does, some arrangement shows a row on two pages (`exists_twice`).
-/

namespace Paging

variable {α β : Type} [LinearOrder β] (rank : α → β) {l l' : List α} {L : Nat → List α} {p s n k : Nat}

/-- Position `p` does not separate rows of one rank. -/
def Cut (l : List α) (p : Nat) : Prop :=
  ∀ x ∈ l, p ≤ l.countP (fun y => rank y < rank x) ∨ l.countP (fun y => rank y ≤ rank x) ≤ p

instance (l : List α) (p : Nat) : Decidable (Cut rank l p) := inferInstanceAs (Decidable (∀ x ∈ l, _ ∨ _))

/-- The rows in the order of their ranks. -/
def Ordered (l : List α) : Prop := l.Pairwise fun x y => rank x ≤ rank y

variable {rank}

/-- Cuts depend on the rows only. -/
theorem Cut.perm (h : Cut rank l p) (hp : l'.Perm l) : Cut rank l' p := by
  intro x hx
  rw [hp.countP_eq, hp.countP_eq]
  exact h x (hp.mem_iff.1 hx)

theorem Ordered.take_drop (h : Ordered rank l) {x y : α} (hx : x ∈ l.take p) (hy : y ∈ l.drop p) :
    rank x ≤ rank y := by
  unfold Ordered at h
  rw [← List.take_append_drop p l, List.pairwise_append] at h
  exact h.2.2 x hx y hy

theorem countP_split (P : α → Bool) : l.countP P = (l.take p).countP P + (l.drop p).countP P := by
  rw [← List.countP_append, List.take_append_drop]

theorem lt_countP_of_mem_drop (h : Ordered rank l) {x : α} (hx : x ∈ l.drop p) :
    p < l.countP fun y => rank y ≤ rank x := by
  have hfirst : (l.take p).countP (fun y => rank y ≤ rank x) = (l.take p).length :=
    List.countP_eq_length.2 fun y hy => by simpa using h.take_drop hy hx
  have hafter : 0 < (l.drop p).countP fun y => rank y ≤ rank x := List.countP_pos_iff.2 ⟨x, hx, by simp⟩
  have hlen : p < l.length := by simpa using List.ne_nil_of_mem hx
  rw [countP_split (p := p), hfirst, List.length_take]
  omega

theorem countP_le_of_lt_drop {x : α} (h : ∀ y ∈ l.drop p, rank x < rank y) :
    l.countP (fun y => rank y ≤ rank x) ≤ p := by
  have hafter : (l.drop p).countP (fun y => rank y ≤ rank x) = 0 :=
    List.countP_eq_zero.2 fun y hy => by simpa using h y hy
  have := List.countP_le_length (p := fun y => decide (rank y ≤ rank x)) (l := l.take p)
  have := List.length_take_le p l
  rw [countP_split (p := p)]
  omega

/-- The rows before a cut have smaller ranks than the rows after it. -/
theorem cut_iff (hl : Ordered rank l) : Cut rank l p ↔ ∀ x ∈ l.take p, ∀ y ∈ l.drop p, rank x < rank y := by
  constructor
  · intro h x hx y hy
    by_contra hxy
    have heq : rank x = rank y := le_antisymm (hl.take_drop hx hy) (not_lt.1 hxy)
    rcases h x (List.mem_of_mem_take hx) with h | h
    · -- not all of the first `p` rows rank below `x`, and no later one does
      have hafter : (l.drop p).countP (fun z => rank z < rank x) = 0 :=
        List.countP_eq_zero.2 fun z hz => by simpa using hl.take_drop hx hz
      have hfirst : (l.take p).countP (fun z => rank z < rank x) ≠ (l.take p).length := by
        intro hall
        have := List.countP_eq_length.1 hall x hx
        simp at this
      have := List.countP_le_length (p := fun z => decide (rank z < rank x)) (l := l.take p)
      have := List.length_take_le p l
      rw [countP_split (p := p)] at h
      omega
    · rw [heq] at h
      have := lt_countP_of_mem_drop hl hy
      omega
  · intro h x hx
    rw [← List.take_append_drop p l, List.mem_append] at hx
    rcases hx with hx | hx
    · exact .inr (countP_le_of_lt_drop (h x hx))
    · refine .inl ?_
      have hfirst : (l.take p).countP (fun z => rank z < rank x) = (l.take p).length :=
        List.countP_eq_length.2 fun z hz => by simpa using h z hz x hx
      have hlen : p < l.length := by simpa using List.ne_nil_of_mem hx
      rw [countP_split (p := p), hfirst, List.length_take]
      omega

/-- The rows before a cut are those that at most `p` rows rank up to. -/
theorem take_eq_filter (hl : Ordered rank l) (h : Cut rank l p) :
    l.take p = l.filter fun x => l.countP (fun y => rank y ≤ rank x) ≤ p := by
  have hbefore : (l.take p).filter (fun x => l.countP (fun y => rank y ≤ rank x) ≤ p) = l.take p :=
    List.filter_eq_self.2 fun x hx => by
      simpa using countP_le_of_lt_drop ((cut_iff hl).1 h x hx)
  have hafter : (l.drop p).filter (fun x => l.countP (fun y => rank y ≤ rank x) ≤ p) = [] :=
    List.filter_eq_nil_iff.2 fun x hx => by
      simpa using lt_countP_of_mem_drop hl hx
  have hsplit (P : α → Bool) : l.filter P = (l.take p).filter P ++ (l.drop p).filter P := by
    rw [← List.filter_append, List.take_append_drop]
  rw [hsplit, hbefore, hafter, List.append_nil]

/-- All arrangements have the same rows before a cut. -/
theorem take_perm (hl : Ordered rank l) (hl' : Ordered rank l') (hp : l'.Perm l) (h : Cut rank l p) :
    (l'.take p).Perm (l.take p) := by
  rw [take_eq_filter hl h, take_eq_filter hl' (h.perm hp)]
  have hcount (x : α) : l'.countP (fun y => decide (rank y ≤ rank x)) = l.countP fun y => rank y ≤ rank x :=
    hp.countP_eq _
  simp only [hcount]
  exact hp.filter _

/-! ## Pages -/

/-- Page `k`, counted from 0, of pages of `s` rows. -/
def page (s k : Nat) (l : List α) : List α := (l.drop (k * s)).take s

/-- The first `n` pages, page `k` being cut out of `L k`. -/
def pages (s n : Nat) (L : Nat → List α) : List (List α) := (List.range n).map fun k => page s k (L k)

theorem take_succ_mul (s k : Nat) (l : List α) : l.take ((k + 1) * s) = l.take (k * s) ++ page s k l := by
  rw [Nat.succ_mul, List.take_add, page]

theorem pages_succ (s n : Nat) (L : Nat → List α) :
    pages s (n + 1) L = pages s n L ++ [page s n (L n)] := by
  simp [pages, List.range_succ]

theorem length_page (s k : Nat) (l : List α) : (page s k l).length = min s (l.length - k * s) := by
  simp [page]

/-- All arrangements have the same rows on a page between two cuts. -/
theorem page_perm (hl : Ordered rank l) (hl' : Ordered rank l') (hp : l'.Perm l)
    (hcut : ∀ k, Cut rank l (k * s)) : (page s k l').Perm (page s k l) := by
  have hupTo := take_perm hl hl' hp (hcut (k + 1))
  rw [take_succ_mul, take_succ_mul] at hupTo
  have hfirst := take_perm hl hl' hp (hcut k)
  exact (List.perm_append_left_iff _).1 (hupTo.trans (hfirst.symm.append_right _))

theorem pages_perm (hl : Ordered rank l) (hL : ∀ k, Ordered rank (L k)) (hp : ∀ k, (L k).Perm l)
    (hcut : ∀ k, Cut rank l (k * s)) (n : Nat) : (pages s n L).flatten.Perm (l.take (n * s)) := by
  induction n with
  | zero => simp [pages]
  | succ n ih =>
    rw [pages_succ, List.flatten_append, List.flatten_singleton, take_succ_mul]
    exact ih.append (page_perm hl (hL n) (hp n) hcut)

theorem pages_sorted (hl : Ordered rank l) (hL : ∀ k, Ordered rank (L k)) (hp : ∀ k, (L k).Perm l)
    (hcut : ∀ k, Cut rank l (k * s)) (n : Nat) : Ordered rank (pages s n L).flatten := by
  induction n with
  | zero => simp [pages, Ordered]
  | succ n ih =>
    rw [pages_succ, List.flatten_append, List.flatten_singleton]
    refine List.pairwise_append.2 ⟨ih, ?_, fun x hx y hy => ?_⟩
    · exact (hL n).sublist ((List.take_sublist _ _).trans (List.drop_sublist _ _))
    · have hx' := (pages_perm hl hL hp hcut n).mem_iff.1 hx
      have hy' := (page_perm hl (hL n) (hp n) hcut).mem_iff.1 hy
      exact hl.take_drop hx' (List.mem_of_mem_take hy')

/-- Neighbours of one rank may change places. -/
theorem Ordered.swap {a b : α} {A B : List α} (h : Ordered rank (A ++ a :: b :: B))
    (hba : rank b ≤ rank a) :
    Ordered rank (A ++ b :: a :: B) := by
  unfold Ordered at h ⊢
  simp only [List.pairwise_append, List.pairwise_cons, List.mem_cons, forall_eq_or_imp] at h ⊢
  obtain ⟨hA, ⟨⟨-, haB⟩, hbB, hB⟩, hAB⟩ := h
  exact ⟨hA, ⟨⟨hba, hbB⟩, haB, hB⟩, fun x hx => ⟨(hAB x hx).2.1, (hAB x hx).1, (hAB x hx).2.2⟩⟩

/-- Where a position separates rows of one rank, the rows on its two sides have one rank. -/
theorem exists_tie (hl : Ordered rank l) (hp : 0 < p) (h : ¬ Cut rank l p) :
    ∃ A a b B, l = A ++ a :: b :: B ∧ A.length + 1 = p ∧ rank b ≤ rank a := by
  rw [cut_iff hl] at h
  push Not at h
  obtain ⟨x, hx, y, hy, hxy⟩ := h
  obtain ⟨m, rfl⟩ : ∃ m, p = m + 1 := ⟨p - 1, by omega⟩
  have hlen : m + 1 < l.length := by simpa using List.ne_nil_of_mem hy
  have hdrop : l.drop m = l[m] :: l[m + 1] :: l.drop (m + 2) := by
    rw [List.drop_eq_getElem_cons (by omega), List.drop_eq_getElem_cons hlen]
  have hsplit : l = l.take m ++ l[m] :: l[m + 1] :: l.drop (m + 2) := by
    rw [← hdrop, List.take_append_drop]
  refine ⟨l.take m, l[m], l[m + 1], l.drop (m + 2), hsplit, by simp; omega, ?_⟩
  have hxa : rank x ≤ rank l[m] := by
    rw [List.take_succ_eq_append_getElem (by omega), List.mem_append, List.mem_singleton] at hx
    rcases hx with hx | rfl
    · exact hl.take_drop hx (by rw [hdrop]; exact List.mem_cons_self)
    · exact le_refl _
  have hby : rank l[m + 1] ≤ rank y := by
    rw [List.drop_eq_getElem_cons hlen, List.mem_cons] at hy
    rcases hy with rfl | hy
    · exact le_refl _
    · refine hl.take_drop ?_ hy
      rw [List.take_succ_eq_append_getElem hlen]
      exact List.mem_append_right _ (List.mem_singleton_self _)
  exact (hby.trans hxy).trans hxa

/-- A boundary that separates rows of one rank: in some arrangement, the next page begins with the
last row of the page before. -/
theorem exists_twice (hl : Ordered rank l) (hs : 0 < s) (h : ¬ Cut rank l ((k + 1) * s)) :
    ∃ x l', l'.Perm l ∧ Ordered rank l' ∧ x ∈ page s k l ∧ x ∈ page s (k + 1) l' := by
  obtain ⟨A, a, b, B, rfl, hA, hba⟩ := exists_tie hl (Nat.mul_pos (Nat.succ_pos k) hs) h
  rw [Nat.succ_mul] at hA
  refine ⟨a, A ++ b :: a :: B, (List.Perm.swap a b B).append_left A, hl.swap hba, ?_, ?_⟩
  · have hdrop : (A.drop (k * s)).length = s - 1 := by
      rw [List.length_drop]
      omega
    unfold page
    rw [List.drop_append_of_le_length (by omega), List.take_append, hdrop]
    refine List.mem_append_right _ ?_
    rw [show s - (s - 1) = 0 + 1 by omega]
    exact List.mem_cons_self
  · obtain ⟨t, rfl⟩ : ∃ t, s = t + 1 := ⟨s - 1, by omega⟩
    unfold page
    rw [Nat.succ_mul, ← hA, List.drop_append, List.drop_eq_nil_of_le (Nat.le_succ _),
      Nat.add_sub_cancel_left]
    exact List.mem_cons_self

/-- A row on two consecutive pages is read twice. -/
theorem not_nodup_of_twice {x : α} (hk : k + 1 < n) (hx : x ∈ page s k (L k))
    (hx' : x ∈ page s (k + 1) (L (k + 1))) :
    ¬ (pages s n L).flatten.Nodup := by
  intro hnodup
  have hdisjoint := List.pairwise_iff_getElem.1 (List.nodup_flatten.1 hnodup).2 k (k + 1)
    (by simp [pages]; omega) (by simpa [pages] using hk) (Nat.lt_succ_self k)
  simp only [pages, List.getElem_map, List.getElem_range] at hdisjoint
  exact hdisjoint hx hx'

end Paging
