import Mathlib.Data.List.Basic
import Mathlib.Data.List.Induction

/-!
# The sliding-window log

Calls on keys at times: a call is admitted if at most `limit` calls on its key, itself included, lie
in its window, the `width` time units that end with it. Rejected calls count too.

* `length_admitted_le`: of calls of one key that are less than `width` apart at most `limit` are
  admitted.
* `decisions_filter`: calls on other keys do not matter.
* `admits_of_idle`: a call on a key without calls in its window is admitted.
* `countP_letThrough_le`: where some calls are let through unrecorded, they are what is let through
  beyond the limit.
-/

namespace SlidingWindow

/-! ## Functions of a call and the calls before it -/

section

variable {α β : Type} (f : List α → α → β)

/-- `f` of each call and the calls before it; `past` came before the first. -/
def onPrefixes : (past : List α) → List α → List β
  | _, [] => []
  | past, c :: cs => f past c :: onPrefixes (past ++ [c]) cs

variable {f}

@[simp] theorem length_onPrefixes (past cs : List α) : (onPrefixes f past cs).length = cs.length := by
  induction cs generalizing past with
  | nil => rfl
  | cons c cs ih => simp [onPrefixes, ih]

theorem onPrefixes_snoc (past cs : List α) (c : α) :
    onPrefixes f past (cs ++ [c]) = onPrefixes f past cs ++ [f (past ++ cs) c] := by
  induction cs generalizing past with
  | nil => simp [onPrefixes]
  | cons x cs ih => simp [onPrefixes, ih]

theorem getElem?_onPrefixes (past cs : List α) (i : Nat) :
    (onPrefixes f past cs)[i]? = cs[i]?.map (f (past ++ cs.take i)) := by
  induction cs generalizing past i with
  | nil => rfl
  | cons c cs ih =>
    cases i with
    | zero => simp [onPrefixes]
    | succ i => simp [onPrefixes, ih]

theorem onPrefixes_map {γ : Type} (g : β → γ) (past cs : List α) :
    onPrefixes (fun p c => g (f p c)) past cs = (onPrefixes f past cs).map g := by
  induction cs generalizing past with
  | nil => rfl
  | cons c cs ih => simp [onPrefixes, ih]

/-- The calls for which `f` holds. -/
def chosen (f : List α → α → Bool) (cs : List α) : List α :=
  ((cs.zip (onPrefixes f [] cs)).filter (·.2)).map (·.1)

theorem chosen_snoc (f : List α → α → Bool) (cs : List α) (c : α) :
    chosen f (cs ++ [c]) = chosen f cs ++ if f cs c then [c] else [] := by
  unfold chosen
  rw [onPrefixes_snoc, List.zip_append (by simp), List.filter_append, List.map_append]
  simp only [List.zip_cons_cons, List.zip_nil_left, List.nil_append]
  cases f cs c <;> rfl

theorem chosen_sublist {f g : List α → α → Bool} (h : ∀ past c, f past c = true → g past c = true)
    (cs : List α) : (chosen f cs).Sublist (chosen g cs) := by
  induction cs using List.reverseRecOn with
  | nil => exact List.Sublist.refl _
  | append_singleton cs c ih =>
    rw [chosen_snoc, chosen_snoc]
    refine ih.append ?_
    cases hf : f cs c with
    | false => exact List.nil_sublist _
    | true => rw [if_pos rfl, if_pos (h cs c hf)]

theorem exists_of_mem_chosen {f : List α → α → Bool} {cs : List α} {c : α} (h : c ∈ chosen f cs) :
    c ∈ cs ∧ ∃ past, f past c = true := by
  induction cs using List.reverseRecOn with
  | nil => cases h
  | append_singleton cs x ih =>
    rw [chosen_snoc] at h
    rcases List.mem_append.1 h with h | h
    · exact ⟨List.mem_append_left _ (ih h).1, (ih h).2⟩
    · split at h
      · rename_i hf
        obtain rfl := List.mem_singleton.1 h
        exact ⟨by simp, cs, hf⟩
      · cases h

theorem chosen_eq_self {f : List α → α → Bool} {cs : List α}
    (h : ∀ past c, past ++ [c] <+: cs → f past c = true) : chosen f cs = cs := by
  induction cs using List.reverseRecOn with
  | nil => rfl
  | append_singleton cs c ih =>
    rw [chosen_snoc, if_pos (h cs c List.prefix_rfl),
      ih fun past x hx => h past x (hx.trans (List.prefix_append cs [c]))]

end

/-! ## The log -/

section

variable {α κ : Type} [DecidableEq κ] (key : α → κ) (time : α → Int) (width : Int) (limit : α → Nat)

/-- The calls before `c` on its key and in its window. -/
def recent (past : List α) (c : α) : List α :=
  past.filter fun x => key x = key c ∧ time c - width < time x

def admits (past : List α) (c : α) : Bool := (recent key time width past c).length + 1 ≤ limit c

def decisions (cs : List α) : List Bool := onPrefixes (admits key time width limit) [] cs

def admitted (cs : List α) : List α :=
  ((cs.zip (decisions key time width limit cs)).filter (·.2)).map (·.1)

variable {key time width limit}

theorem decisions_snoc (cs : List α) (c : α) : decisions key time width limit (cs ++ [c]) =
    decisions key time width limit cs ++ [admits key time width limit cs c] :=
  onPrefixes_snoc [] cs c

theorem zip_decisions_snoc (cs : List α) (c : α) :
    (cs ++ [c]).zip (decisions key time width limit (cs ++ [c])) =
      cs.zip (decisions key time width limit cs) ++ [(c, admits key time width limit cs c)] := by
  rw [decisions_snoc, List.zip_append (by simp [decisions])]
  rfl

theorem admitted_snoc (cs : List α) (c : α) : admitted key time width limit (cs ++ [c]) =
    admitted key time width limit cs ++ if admits key time width limit cs c then [c] else [] :=
  chosen_snoc _ cs c

theorem admitted_sublist (cs : List α) : (admitted key time width limit cs).Sublist cs := by
  induction cs using List.reverseRecOn with
  | nil => exact List.Sublist.refl _
  | append_singleton cs c ih =>
    rw [admitted_snoc]
    refine ih.append ?_
    split
    · exact List.Sublist.refl _
    · exact List.nil_sublist _

/-- **At most `n` calls of one key that lie within one window are admitted.** -/
theorem length_admitted_le {p : α → Bool} {n : Nat} (hlimit : ∀ c, p c = true → limit c ≤ n)
    (hkey : ∀ c c', p c = true → p c' = true → key c = key c')
    (htime : ∀ c c', p c = true → p c' = true → time c - width < time c') (cs : List α) :
    ((admitted key time width limit cs).filter p).length ≤ n := by
  induction cs using List.reverseRecOn with
  | nil => exact Nat.zero_le n
  | append_singleton cs c ih =>
    rw [admitted_snoc, List.filter_append, List.length_append]
    by_cases hc : admits key time width limit cs c = true ∧ p c = true
    · -- the calls in `p` before `c` are in its window
      have hsub : ((admitted key time width limit cs).filter p).length ≤
          (recent key time width cs c).length := by
        refine List.Sublist.length_le (((admitted_sublist cs).filter p).trans ?_)
        apply List.monotone_filter_right cs
        intro x hx
        simp only [decide_eq_true_eq]
        exact ⟨hkey x c hx hc.2, htime c x hc.2 hx⟩
      have hadm : (recent key time width cs c).length + 1 ≤ limit c := by simpa [admits] using hc.1
      have := hlimit c hc.2
      simp only [hc.1, if_true, List.filter_cons_of_pos hc.2, List.filter_nil, List.length_singleton]
      omega
    · have : (if admits key time width limit cs c = true then [c] else []).filter p = [] := by
        split
        · rename_i hadm
          simpa using fun hp => hc ⟨hadm, hp⟩
        · rfl
      rw [this]
      exact ih

theorem recent_filter {k : κ} {c : α} (hc : key c = k) (cs : List α) :
    recent key time width (cs.filter (key · = k)) c = recent key time width cs c := by
  unfold recent
  rw [List.filter_filter]
  apply List.filter_congr
  intro x _
  rw [hc]
  by_cases hx : key x = k <;> simp [hx]

/-- **Calls on other keys do not matter.** -/
theorem decisions_filter (k : κ) (cs : List α) :
    ((cs.zip (decisions key time width limit cs)).filter (key ·.1 = k)).map (·.2) =
      decisions key time width limit (cs.filter (key · = k)) := by
  induction cs using List.reverseRecOn with
  | nil => rfl
  | append_singleton cs c ih =>
    rw [zip_decisions_snoc, List.filter_append, List.map_append, ih, List.filter_append]
    by_cases hc : key c = k
    · simp [hc, decisions_snoc, admits, recent_filter hc]
    · simp [hc]

/-- A call on a key that was idle for a window is admitted. -/
theorem admits_of_idle {cs : List α} {c : α} (hlimit : 1 ≤ limit c)
    (h : ∀ x ∈ cs, key x = key c → time x ≤ time c - width) : admits key time width limit cs c = true := by
  have : recent key time width cs c = [] := by
    apply List.filter_eq_nil_iff.2
    intro x hx
    simp only [decide_eq_true_eq, not_and]
    exact fun hk ht => absurd (h x hx hk) (by omega)
  simpa [admits, this] using hlimit

end

/-! ## Calls that are not recorded -/

section

variable {α κ : Type} [DecidableEq κ] (key : α → κ) (time : α → Int) (width : Int) (limit : α → Nat)
  (recorded : α → Bool)

/-- A call that is not recorded is let through. -/
def lets (past : List α) (c : α) : Bool :=
  !recorded c || admits key time width limit (past.filter recorded) c

/-- The calls that are let through. -/
def letThrough (cs : List α) : List α := chosen (lets key time width limit recorded) cs

variable {key time width limit recorded}

theorem letThrough_snoc (cs : List α) (c : α) :
    letThrough key time width limit recorded (cs ++ [c]) =
      letThrough key time width limit recorded cs ++
        if lets key time width limit recorded cs c then [c] else [] := chosen_snoc _ cs c

theorem letThrough_sublist (cs : List α) :
    (letThrough key time width limit recorded cs).Sublist cs := by
  induction cs using List.reverseRecOn with
  | nil => exact List.Sublist.refl _
  | append_singleton cs c ih =>
    rw [letThrough_snoc]
    refine ih.append ?_
    split
    · exact List.Sublist.refl _
    · exact List.nil_sublist _

/-- **Of calls of one key that lie within one window** at most the limit and those that are not
recorded are let through. -/
theorem countP_letThrough_le {p : α → Bool} {n : Nat} (hlimit : ∀ c, p c = true → limit c ≤ n)
    (hkey : ∀ c c', p c = true → p c' = true → key c = key c')
    (htime : ∀ c c', p c = true → p c' = true → time c - width < time c') (cs : List α) :
    (letThrough key time width limit recorded cs).countP p ≤
      n + (cs.filter (!recorded ·)).countP p := by
  induction cs using List.reverseRecOn with
  | nil => exact Nat.zero_le _
  | append_singleton cs c ih =>
    rw [letThrough_snoc, List.countP_append, List.filter_append, List.countP_append]
    by_cases hc : lets key time width limit recorded cs c = true ∧ p c = true
    · rw [if_pos hc.1, List.countP_singleton, if_pos hc.2]
      cases hrec : recorded c with
      | false =>
        have hskip : [c].filter (!recorded ·) = [c] := by simp [hrec]
        rw [hskip, List.countP_singleton, if_pos hc.2]
        omega
      | true =>
        -- the recorded calls in `p` before `c` are in its window
        have hadm : (recent key time width (cs.filter recorded) c).length + 1 ≤ limit c := by
          simpa [lets, hrec, admits] using hc.1
        have hsub : (cs.filter recorded).countP p ≤
            (recent key time width (cs.filter recorded) c).length := by
          rw [List.countP_eq_length_filter]
          refine (List.monotone_filter_right _ fun x hx => ?_).length_le
          simp only [decide_eq_true_eq]
          exact ⟨hkey x c hx hc.2, htime c x hc.2 hx⟩
        have hle : (letThrough key time width limit recorded cs).countP p ≤ cs.countP p :=
          (letThrough_sublist cs).countP_le
        rw [List.countP_eq_countP_filter_add cs p recorded] at hle
        have := hlimit c hc.2
        have hadd := Nat.zero_le (([c].filter (!recorded ·)).countP p)
        omega
    · have hnone :
          (if lets key time width limit recorded cs c = true then [c] else []).countP p = 0 := by
        split
        · rename_i hlets
          rw [List.countP_singleton, if_neg fun hp => hc ⟨hlets, hp⟩]
        · rfl
      omega

end

end SlidingWindow
