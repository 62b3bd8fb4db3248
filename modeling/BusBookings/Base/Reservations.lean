import Mathlib.Data.List.Count
import Mathlib.Data.Set.Insert
import Mathlib.Logic.Function.Basic

/-!
# A reservation office

An office offers resources, gives each to at most one holder, under a ticket of its own, and takes it
back; what was given back is not given away again. It also enrolls members under distinct names.
`Step` is what an operation does, one after the other.

* `Steps.life`: the operations on one resource, in order: it is offered, taken and given back.
* `Steps.taken_iff`, `Steps.released_iff`: the state of a resource, read off the operations.
* `Steps.members_eq`, `Steps.enrolls`: a name is enrolled at most once.
-/

namespace Reservations

/-- Giving a resource back twice is allowed, and does nothing the second time. -/
inductive Slot (U B : Type) where
  | absent
  | free
  | taken (u : U) (b : B)
  | released (u : U) (b : B)

inductive Op (S U B E : Type) where
  | offer (ss : List S)
  | take (u : U) (s : S) (b : B)
  | release (u : U) (s : S) (b : B)
  | enroll (e : E)

/-- What an operation does to one resource. -/
inductive Act (U B : Type) where
  | offered
  | took (u : U) (b : B)
  | gaveBack (u : U) (b : B)

@[ext] structure Office (S U B E : Type) where
  slot : S → Slot U B
  members : Set E

section

variable {S U B E : Type} {o o' o₁ : Office S U B E} {op : Op S U B E} {h h' : List (Op S U B E)}

namespace Office

/-- An office with members and nothing to give away. -/
def empty (members : Set E) : Office S U B E := ⟨fun _ => .absent, members⟩

/-- A ticket that no resource was given away under. -/
def Unused (o : Office S U B E) (b : B) : Prop :=
  ∀ s u, o.slot s ≠ .taken u b ∧ o.slot s ≠ .released u b

end Office

variable [DecidableEq S]

inductive Step (o : Office S U B E) : Op S U B E → Office S U B E → Prop
  | offer {ss : List S} : (∀ s ∈ ss, o.slot s = .absent) →
      Step o (.offer ss) { o with slot := fun s => if s ∈ ss then .free else o.slot s }
  | take {u : U} {s : S} {b : B} : o.slot s = .free → o.Unused b →
      Step o (.take u s b) { o with slot := Function.update o.slot s (.taken u b) }
  | release {u : U} {s : S} {b : B} : o.slot s = .taken u b →
      Step o (.release u s b) { o with slot := Function.update o.slot s (.released u b) }
  | again {u : U} {s : S} {b : B} : o.slot s = .released u b → Step o (.release u s b) o
  | enroll {e : E} : e ∉ o.members →
      Step o (.enroll e) { o with members := insert e o.members }

/-- The operations of a list, in order. -/
inductive Steps (o : Office S U B E) : List (Op S U B E) → Office S U B E → Prop
  | nil : Steps o [] o
  | snoc {h : List (Op S U B E)} {op : Op S U B E} {o₁ o' : Office S U B E} :
      Steps o h o₁ → Step o₁ op o' → Steps o (h ++ [op]) o'

/-! ## One resource -/

/-- What the operation does to the resource `s`. -/
def Op.at (s : S) : Op S U B E → Option (Act U B)
  | .offer ss => if s ∈ ss then some .offered else none
  | .take u s' b => if s' = s then some (.took u b) else none
  | .release u s' b => if s' = s then some (.gaveBack u b) else none
  | .enroll _ => none

/-- The operations on a resource in each of its states. -/
inductive Life : Slot U B → List (Act U B) → Prop
  | absent : Life .absent []
  | free : Life .free [.offered]
  | taken {u : U} {b : B} : Life (.taken u b) [.offered, .took u b]
  | released {u : U} {b : B} {n : Nat} :
      Life (.released u b) (.offered :: .took u b :: List.replicate (n + 1) (.gaveBack u b))

theorem Step.life {s : S} {acts : List (Act U B)} (hs : Step o op o') (hl : Life (o.slot s) acts) :
    Life (o'.slot s) (acts ++ (op.at s).toList) := by
  cases hs with
  | offer hss =>
    rename_i ss
    by_cases h : s ∈ ss
    · simp only [Op.at, h, if_true, Option.toList]
      rw [hss s h] at hl
      cases hl
      exact .free
    · simpa [Op.at, h] using hl
  | take hfree hb =>
    rename_i u s' b
    by_cases h : s' = s
    · subst h
      rw [hfree] at hl
      cases hl
      simpa [Op.at] using Life.taken
    · simpa [Op.at, h, Function.update_of_ne (Ne.symm h)] using hl
  | release htaken =>
    rename_i u s' b
    by_cases h : s' = s
    · subst h
      rw [htaken] at hl
      cases hl
      simpa [Op.at] using Life.released (n := 0)
    · simpa [Op.at, h, Function.update_of_ne (Ne.symm h)] using hl
  | again hrel =>
    rename_i u s' b
    by_cases h : s' = s
    · subst h
      rw [hrel] at hl ⊢
      cases hl
      rename_i n
      simpa [Op.at, ← List.replicate_succ'] using Life.released (n := n + 1)
    · simpa [Op.at, h] using hl
  | enroll he => simpa [Op.at] using hl

/-- **The operations on a resource**: it is offered once, then taken once, then given back. -/
theorem Steps.life {members : Set E} (hs : Steps (.empty members) h o) (s : S) :
    Life (o.slot s) (h.filterMap (Op.at s)) := by
  induction hs with
  | nil => exact .absent
  | snoc _ hstep ih =>
    rename_i op _ _ _
    have hop : [op].filterMap (Op.at s) = (op.at s).toList := by cases h : op.at s <;> simp [h]
    rw [List.filterMap_append, hop]
    exact hstep.life ih

theorem Op.at_eq_took {s : S} {u : U} {b : B} : op.at s = some (.took u b) ↔ op = .take u s b := by
  cases op with
  | offer ss => simp [Op.at]
  | take u' s' b' =>
    simp only [Op.at, Op.take.injEq]
    split <;> simp_all
  | release u' s' b' => simp [Op.at]
  | enroll e => simp [Op.at]

theorem Op.at_eq_gaveBack {s : S} {u : U} {b : B} :
    op.at s = some (.gaveBack u b) ↔ op = .release u s b := by
  cases op with
  | offer ss => simp [Op.at]
  | take u' s' b' => simp [Op.at]
  | release u' s' b' =>
    simp only [Op.at, Op.release.injEq]
    split <;> simp_all
  | enroll e => simp [Op.at]

theorem took_mem {s : S} {u : U} {b : B} :
    .took u b ∈ h.filterMap (Op.at s) ↔ .take u s b ∈ h := by
  simp [Op.at_eq_took]

theorem gaveBack_mem {s : S} {u : U} {b : B} :
    .gaveBack u b ∈ h.filterMap (Op.at s) ↔ .release u s b ∈ h := by
  simp [Op.at_eq_gaveBack]

section

variable {members : Set E} {s s' : S} {u u' : U} {b : B}

/-- A resource is with the holder of a ticket iff it was taken under it and not given back. -/
theorem Steps.taken_iff (hs : Steps (.empty members) h o) :
    o.slot s = .taken u b ↔ .take u s b ∈ h ∧ .release u s b ∉ h := by
  rw [← took_mem, ← gaveBack_mem]
  have hl := hs.life s
  generalize o.slot s = slot, h.filterMap (Op.at s) = acts at hl
  cases hl with
  | absent | free => simp
  | taken => simpa using ⟨fun ⟨hu, hb⟩ => ⟨hu.symm, hb.symm⟩, fun ⟨hu, hb⟩ => ⟨hu.symm, hb.symm⟩⟩
  | released =>
    simp only [reduceCtorEq, false_iff, not_and, not_not]
    intro hm
    obtain ⟨rfl, rfl⟩ : _ = _ ∧ _ = _ := by simpa using hm
    simp

theorem Steps.released_iff (hs : Steps (.empty members) h o) :
    o.slot s = .released u b ↔ .release u s b ∈ h := by
  rw [← gaveBack_mem]
  have hl := hs.life s
  generalize o.slot s = slot, h.filterMap (Op.at s) = acts at hl
  cases hl with
  | absent | free | taken => simp
  | released => simpa using ⟨fun ⟨hu, hb⟩ => ⟨hu.symm, hb.symm⟩, fun ⟨hu, hb⟩ => ⟨hu.symm, hb.symm⟩⟩

/-- The holder of a resource and the ticket. -/
def Slot.ticket? : Slot U B → Option (U × B)
  | .taken u b | .released u b => some (u, b)
  | _ => none

theorem Steps.ticket (hs : Steps (.empty members) h o) (ht : .take u s b ∈ h) :
    (o.slot s).ticket? = some (u, b) := by
  rw [← took_mem] at ht
  have hl := hs.life s
  generalize o.slot s = slot, h.filterMap (Op.at s) = acts at hl ht
  cases hl with
  | absent | free => simp at ht
  | taken | released =>
    obtain ⟨rfl, rfl⟩ : _ = _ ∧ _ = _ := by simpa using ht
    rfl

theorem Step.ticket (hs : Step o op o') (hu : (o'.slot s).ticket? = some (u, b)) :
    (o.slot s).ticket? = some (u, b) ∨ op = .take u s b ∧ o.Unused b := by
  cases hs with
  | offer hss =>
    rename_i ss
    by_cases hs : s ∈ ss
    · simp [hs, Slot.ticket?] at hu
    · exact .inl (by simpa [hs] using hu)
  | take hfree hb =>
    rename_i u' s' b'
    by_cases hs : s = s'
    · subst hs
      obtain ⟨rfl, rfl⟩ : u' = u ∧ b' = b := by simpa [Slot.ticket?] using hu
      exact .inr ⟨rfl, hb⟩
    · exact .inl (by simpa [Function.update_of_ne hs] using hu)
  | release htaken =>
    rename_i u' s' b'
    by_cases hs : s = s'
    · subst hs
      exact .inl (by simpa [htaken, Slot.ticket?] using hu)
    · exact .inl (by simpa [Function.update_of_ne hs] using hu)
  | again | enroll => exact .inl hu

theorem not_unused {slot : Slot U B} (h : slot.ticket? = some (u, b)) :
    slot = .taken u b ∨ slot = .released u b := by
  cases slot with
  | absent | free => cases h
  | taken | released =>
    obtain ⟨rfl, rfl⟩ : _ = _ ∧ _ = _ := by simpa [Slot.ticket?] using h
    simp

/-- **A ticket is for one resource.** -/
theorem Steps.ticket_unique (hs : Steps (.empty members) h o) (ht : (o.slot s).ticket? = some (u, b))
    (ht' : (o.slot s').ticket? = some (u', b)) : s = s' := by
  induction hs with
  | nil => cases ht
  | snoc _ hstep ih =>
    have hused {s : S} {u : U} {o : Office S U B E} (h : (o.slot s).ticket? = some (u, b)) : ¬ o.Unused b :=
      fun hn => (not_unused h).elim (hn s u).1 (hn s u).2
    rcases hstep.ticket ht, hstep.ticket ht' with ⟨h | ⟨rfl, hn⟩, h' | ⟨he, hn'⟩⟩
    · exact ih h h'
    · exact absurd hn' (hused h)
    · exact absurd hn (hused h')
    · cases he
      rfl

/-! ## Taken once -/

/-- The operation takes the resource `s`. -/
def Op.takes (s : S) : Op S U B E → Bool
  | .take _ s' _ => s' = s
  | _ => false

def Act.took? : Act U B → Bool
  | .took .. => true
  | _ => false

theorem Op.takes_eq (op : Op S U B E) : op.takes s = ((op.at s).map Act.took?).getD false := by
  cases op with
  | offer ss =>
    by_cases h : s ∈ ss <;> simp [takes, Op.at, h, Act.took?]
  | take u s' b =>
    by_cases h : s' = s <;> simp [takes, Op.at, h, Act.took?]
  | release u s' b =>
    by_cases h : s' = s <;> simp [takes, Op.at, h, Act.took?]
  | enroll e => simp [takes, Op.at]

/-- **A resource is taken at most once.** -/
theorem Steps.take_once (hs : Steps (.empty members) h o) (s : S) : h.countP (Op.takes s) ≤ 1 := by
  have hl := hs.life s
  rw [show (Op.takes s : Op S U B E → Bool) = fun op => ((op.at s).map Act.took?).getD false
    from funext Op.takes_eq,
    ← List.countP_filterMap]
  generalize o.slot s = slot, h.filterMap (Op.at s) = acts at hl
  cases hl with
  | absent | free | taken => simp [Act.took?]
  | released => simp [Act.took?, List.countP_cons, List.countP_replicate]

/-! ## Members -/

/-- The name an operation enrolls. -/
def Op.enrolls? : Op S U B E → Option E
  | .enroll e => some e
  | _ => none

/-- **A name is enrolled at most once**, and never one of the members the office had before. -/
theorem Steps.enrolled (hs : Steps (.empty members) h o) : (h.filterMap Op.enrolls?).Nodup ∧
    (∀ e ∈ h.filterMap Op.enrolls?, e ∉ members) ∧
    ∀ e, e ∈ o.members ↔ e ∈ members ∨ e ∈ h.filterMap Op.enrolls? := by
  induction hs with
  | nil => simp [Office.empty]
  | snoc _ hstep ih =>
    obtain ⟨hnodup, hnew, hmem⟩ := ih
    cases hstep with
    | enroll he =>
      rename_i h o₁ _ e
      obtain ⟨he₁, he₂⟩ := not_or.1 (fun hm => he ((hmem e).2 hm))
      simp only [List.filterMap_append, List.filterMap_cons, Op.enrolls?, List.filterMap_nil]
      refine ⟨List.nodup_append.2 ⟨hnodup, by simp, fun x hx y hy => ?_⟩, fun x hx => ?_, fun x => ?_⟩
      · obtain rfl := List.mem_singleton.1 hy
        exact fun hxy => he₂ (hxy ▸ hx)
      · rcases List.mem_append.1 hx with hx | hx
        · exact hnew x hx
        · rw [List.mem_singleton.1 hx]
          exact he₁
      · simp only [Set.mem_insert_iff, hmem, List.mem_append, List.mem_singleton]
        tauto
    | _ =>
      rw [List.filterMap_append, List.filterMap_cons_none rfl, List.filterMap_nil, List.append_nil]
      exact ⟨hnodup, hnew, hmem⟩

end

end

end Reservations
