import Mathlib.Data.List.Induction
import Mathlib.Logic.Function.Basic

/-!
# Logs that are pruned as they grow

Items with keys come in order. Each removes from the log of its key what it prunes, and is appended:
`logOf items key` is what is left (`mem_logOf`). Its last item is the last one of the key
(`getLast?_logOf`).
-/

namespace PrunedLog

variable {α κ : Type} [DecidableEq κ] (key : α → κ) (prunes : α → α → Prop) [DecidableRel prunes]

/-- What `c` leaves of a log. -/
def remaining (c : α) (log : List α) : List α := log.filter fun x => ¬ prunes c x

def push (logs : κ → List α) (c : α) : κ → List α :=
  Function.update logs (key c) (remaining prunes c (logs (key c)) ++ [c])

/-- The logs after the items. -/
def logOf (items : List α) : κ → List α := items.foldl (push key prunes) fun _ => []

variable {key prunes} {items : List α} {k : κ} {x c : α}

@[simp] theorem logOf_nil (k : κ) : logOf key prunes [] k = [] := rfl

theorem logOf_snoc (items : List α) (c : α) :
    logOf key prunes (items ++ [c]) = push key prunes (logOf key prunes items) c := by
  simp [logOf]

@[simp] theorem push_self (logs : κ → List α) (c : α) :
    push key prunes logs c (key c) = remaining prunes c (logs (key c)) ++ [c] := by
  simp [push]

theorem push_ne (logs : κ → List α) (h : k ≠ key c) : push key prunes logs c k = logs k := by
  simp [push, h]

omit [DecidableEq κ] in
theorem mem_remaining {log : List α} : x ∈ remaining prunes c log ↔ x ∈ log ∧ ¬ prunes c x := by
  simp [remaining]

omit [DecidableEq κ] in
theorem snoc_eq_append_cons {before after : List α} : items ++ [c] = before ++ x :: after ↔
    (after = [] ∧ before = items ∧ x = c) ∨ ∃ after', after = after' ++ [c] ∧
      items = before ++ x :: after' := by
  constructor
  · intro heq
    rcases List.eq_nil_or_concat after with rfl | ⟨after, d, rfl⟩
    · obtain ⟨rfl, hcx⟩ := List.append_inj' heq rfl
      exact .inl ⟨rfl, rfl, by simpa using hcx.symm⟩
    · rw [List.concat_eq_append, ← List.cons_append, ← List.append_assoc] at heq
      obtain ⟨rfl, hcd⟩ := List.append_inj' heq rfl
      exact .inr ⟨after, by simpa using hcd.symm, rfl⟩
  · rintro (⟨rfl, rfl, rfl⟩ | ⟨after, rfl, rfl⟩) <;> simp

/-- The items left are those of the key that no later one prunes. -/
theorem mem_logOf : x ∈ logOf key prunes items k ↔ ∃ before after, items = before ++ x :: after ∧
    key x = k ∧ ∀ y ∈ after, key y = k → ¬ prunes y x := by
  induction items using List.reverseRecOn with
  | nil => simp
  | append_singleton items c ih =>
    rw [logOf_snoc]
    by_cases hk : k = key c
    · subst hk
      rw [push_self, List.mem_append, mem_remaining, List.mem_singleton, ih]
      constructor
      · rintro (⟨⟨before, after, rfl, hx, hafter⟩, hc⟩ | rfl)
        · refine ⟨before, after ++ [c], by simp, hx, fun y hy hyk => ?_⟩
          rcases List.mem_append.1 hy with hy | hy
          · exact hafter y hy hyk
          · rwa [List.mem_singleton.1 hy]
        · exact ⟨items, [], rfl, rfl, by simp⟩
      · intro ⟨before, after, heq, hx, hafter⟩
        rcases snoc_eq_append_cons.1 heq with ⟨-, -, rfl⟩ | ⟨after, rfl, rfl⟩
        · exact .inr rfl
        · exact .inl ⟨⟨before, after, rfl, hx, fun y hy => hafter y (by simp [hy])⟩,
            hafter c (by simp) rfl⟩
    · rw [push_ne _ hk, ih]
      constructor
      · intro ⟨before, after, heq, hx, hafter⟩
        refine ⟨before, after ++ [c], by simp [heq], hx, fun y hy hyk => ?_⟩
        rcases List.mem_append.1 hy with hy | hy
        · exact hafter y hy hyk
        · exact absurd (List.mem_singleton.1 hy ▸ hyk.symm) hk
      · intro ⟨before, after, heq, hx, hafter⟩
        rcases snoc_eq_append_cons.1 heq with ⟨-, -, rfl⟩ | ⟨after, rfl, rfl⟩
        · exact absurd hx.symm hk
        · exact ⟨before, after, rfl, hx, fun y hy => hafter y (by simp [hy])⟩

theorem sublist_logOf : (logOf key prunes items k).Sublist items := by
  induction items using List.reverseRecOn with
  | nil => simp
  | append_singleton items c ih =>
    rw [logOf_snoc]
    by_cases hk : k = key c
    · subst hk
      rw [push_self]
      exact (List.filter_sublist.trans ih).append (List.Sublist.refl _)
    · rw [push_ne _ hk]
      exact ih.trans (List.sublist_append_left items [c])

theorem getLast?_logOf :
    (logOf key prunes items k).getLast? = (items.filter (key · = k)).getLast? := by
  induction items using List.reverseRecOn with
  | nil => rfl
  | append_singleton items c ih =>
    rw [logOf_snoc, List.filter_append, List.filter_cons, List.filter_nil]
    by_cases hk : k = key c
    · subst hk
      simp
    · rw [push_ne _ hk, ih]
      simp [Ne.symm hk]

/-- The last item of a log is the last one of its key. -/
theorem getLast?_logOf_eq_some : (logOf key prunes items k).getLast? = some x ↔
    ∃ before after, items = before ++ x :: after ∧ key x = k ∧ ∀ y ∈ after, key y ≠ k := by
  rw [getLast?_logOf, List.getLast?_eq_head?_reverse, ← List.filter_reverse, List.head?_filter,
    List.find?_eq_some_iff_append]
  simp only [decide_eq_true_eq, Bool.not_eq_true', decide_eq_false_iff_not]
  constructor
  · intro ⟨hx, after, before, heq, hafter⟩
    refine ⟨before.reverse, after.reverse, ?_, hx, by simpa using hafter⟩
    rw [← List.reverse_reverse items, heq]
    simp
  · intro ⟨before, after, heq, hx, hafter⟩
    exact ⟨hx, after.reverse, before.reverse, by simp [heq], by simpa using hafter⟩

end PrunedLog
