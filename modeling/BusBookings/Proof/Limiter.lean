import BusBookings.App.RateLimiter
import BusBookings.Base.SlidingWindow

/-!
# The limiter is a sliding-window log

`Keeps`: at any later time, what a key's sorted set still holds of its window are the calls on the key
that lie in it. Each call keeps this (`Keeps.step`), so the answers are those of the log over the
whole history (`answers_sliding_window`).
-/

namespace BusBookings

open Redis SlidingWindow

/-- A call of `is_allowed`: its key, its time in milliseconds and what the script draws. -/
structure LimiterCall where
  key : String
  nowMs : Int
  random : Nat

section

variable (luaText : Int → String)

/-- The answers to calls executed in order by a working Redis whose clock the calls' times are from. -/
def answers (limit windowSeconds : Nat) : ZSpace → List LimiterCall → List (Bool × Nat)
  | _, [] => []
  | ks, c :: cs =>
    let (answer, ks) :=
      isAllowed luaText true c.nowMs c.nowMs c.random c.key limit windowSeconds ks
    answer :: answers limit windowSeconds ks cs

def LimiterCall.member (c : LimiterCall) : String := scriptMember luaText c.nowMs c.random

/-- The window of a call, in milliseconds. -/
abbrev windowMs (windowSeconds : Nat) : Int := windowSeconds * 1000

/-- The sets hold, of every window still to come, the calls made so far. -/
def Keeps (windowSeconds : Nat) (cs : List LimiterCall) (ks : ZSpace) : Prop :=
  ∀ key now, (∀ c ∈ cs, c.nowMs ≤ now) →
    (ks.rows now key).filter (now - windowMs windowSeconds < ·.2) =
      (cs.filter fun c => c.key = key ∧ now - windowMs windowSeconds < c.nowMs).map fun c =>
        (c.member luaText, c.nowMs)

/-- The answer of the log. -/
def logAnswer (limit windowSeconds : Nat) (past : List LimiterCall) (c : LimiterCall) : Bool × Nat :=
  if admits LimiterCall.key LimiterCall.nowMs (windowMs windowSeconds) (fun _ => limit) past c then
    (true, 0)
  else (false, windowSeconds)

variable {luaText} {limit windowSeconds : Nat} {cs : List LimiterCall} {c : LimiterCall} {ks : ZSpace}

theorem keeps_empty : Keeps luaText windowSeconds [] ∅ := fun _ _ _ => rfl

/-- **One execution of the script**: it counts the calls in the window, and the sets keep the log. -/
theorem Keeps.script (h : Keeps luaText windowSeconds cs ks) (limit : Nat)
    (hclock : ∀ x ∈ cs, x.nowMs ≤ c.nowMs)
    (hnew : ∀ x ∈ cs, x.key = c.key → x.member luaText ≠ c.member luaText) : ∃ ks',
    slidingWindowScript luaText c.nowMs c.key c.nowMs (windowMs windowSeconds) limit
      (windowSeconds + 1) c.random ks =
        ((recent LimiterCall.key LimiterCall.nowMs (windowMs windowSeconds) cs c).length + 1, ks') ∧
      Keeps luaText windowSeconds (cs ++ [c]) ks' := by
  have hc := h c.key c.nowMs hclock
  have hold : ∀ p ∈ ks.rows c.nowMs c.key, c.nowMs - windowMs windowSeconds < p.2 →
      p.1 ≠ c.member luaText := fun p hp ht => by
    have hmem : p ∈ (ks.rows c.nowMs c.key).filter (c.nowMs - windowMs windowSeconds < ·.2) :=
      List.mem_filter.2 ⟨hp, by simpa using ht⟩
    rw [hc] at hmem
    obtain ⟨x, hx, rfl⟩ := List.mem_map.1 hmem
    simp only [List.mem_filter, decide_eq_true_eq] at hx
    exact hnew x hx.1 hx.2.1
  obtain ⟨hcount, hrows⟩ := ZSpace.rows_prune_add_expire c.nowMs
    (show (0 : Int) < windowSeconds + 1 by omega) hold
  rw [hc] at hcount hrows
  refine ⟨_, Prod.ext (hcount.trans (by simp [recent])) rfl, fun key now hnow => ?_⟩
  have hle : c.nowMs ≤ now := hnow c (by simp)
  have hcs : ∀ x ∈ cs, x.nowMs ≤ now := fun x hx => hnow x (by simp [hx])
  by_cases hkey : key = c.key
  · subst hkey
    refine (congrArg _ (hrows now)).trans ?_
    split
    · -- what is in the window at `now` was in it at `c.nowMs`
      rw [List.filter_append, List.filter_append, List.map_append, List.filter_map,
        List.filter_filter]
      congr 1
      · refine congrArg _ (List.filter_congr fun x _ => ?_)
        simp only [Function.comp_apply, ← Bool.decide_and, decide_eq_decide]
        constructor
        · exact fun ⟨h1, h2, _⟩ => ⟨h2, h1⟩
        · exact fun ⟨h1, h2⟩ => ⟨h2, h1, by omega⟩
      · simp [List.filter_cons]
        split <;> rfl
    · -- the deadline has passed, and with it the window of every call
      have hnone : ((cs ++ [c]).filter fun x =>
          x.key = c.key ∧ now - windowMs windowSeconds < x.nowMs) = [] := by
        apply List.filter_eq_nil_iff.2
        intro x hx
        have : x.nowMs ≤ c.nowMs := by
          rcases List.mem_append.1 hx with hx | hx
          · exact hclock x hx
          · exact Int.le_of_eq (congrArg LimiterCall.nowMs (List.mem_singleton.1 hx))
        simp only [windowMs, decide_eq_true_eq]
        omega
      rw [hnone]
      rfl
  · have hget (t : Int) : ZSpace.rows (slidingWindowScript luaText c.nowMs c.key c.nowMs
        (windowMs windowSeconds) limit (windowSeconds + 1) c.random ks).2 t key = ks.rows t key := by
      simp only [slidingWindowScript, ZSpace.rows, ZSpace.find,
        ZSpace.get_expire hkey, ZSpace.get_zadd hkey, ZSpace.get_zremrangebyscore hkey]
    refine (congrArg _ (hget now)).trans ?_
    rw [h key now hcs, List.filter_append, List.filter_cons_of_neg (by simp [Ne.symm hkey])]
    simp

theorem isAllowed_of_script {n : Nat} {ks' : ZSpace}
    (h : slidingWindowScript luaText c.nowMs c.key c.nowMs (windowMs windowSeconds) limit
      (windowSeconds + 1) c.random ks = (n, ks')) :
    isAllowed luaText true c.nowMs c.nowMs c.random c.key limit windowSeconds ks =
      (if n ≤ limit then (true, 0) else (false, windowSeconds), ks') := by
  simp only [isAllowed, if_true, h]
  by_cases hn : n ≤ limit <;> simp [hn]

/-- What a history needs: times in order, and distinct members for each key. -/
structure Fair (luaText : Int → String) (cs : List LimiterCall) : Prop where
  clock : (cs.map (·.nowMs)).Pairwise (· ≤ ·)
  members : cs.Pairwise fun x y => x.key = y.key → x.member luaText ≠ y.member luaText

theorem Fair.next {cs' : List LimiterCall} (h : Fair luaText (cs ++ c :: cs')) :
    (∀ x ∈ cs, x.nowMs ≤ c.nowMs) ∧
      ∀ x ∈ cs, x.key = c.key → x.member luaText ≠ c.member luaText :=
  ⟨fun x hx => (List.pairwise_append.1 (List.pairwise_map.1 h.clock)).2.2 x hx c (by simp),
    fun x hx => (List.pairwise_append.1 h.members).2.2 x hx c (by simp)⟩

/-- **The answers are those of the log.** -/
theorem Keeps.answers (h : Keeps luaText windowSeconds cs ks) {cs' : List LimiterCall}
    (hfair : Fair luaText (cs ++ cs')) :
    answers luaText limit windowSeconds ks cs' = onPrefixes (logAnswer limit windowSeconds) cs cs' := by
  induction cs' generalizing cs ks with
  | nil => rfl
  | cons c cs' ih =>
    obtain ⟨hclock, hnew⟩ := hfair.next
    obtain ⟨ks', hs, hk⟩ := h.script limit hclock hnew
    simp only [BusBookings.answers, isAllowed_of_script hs, onPrefixes]
    rw [ih hk (by simpa using hfair)]
    simp [logAnswer, admits]

theorem answers_eq (hfair : Fair luaText cs) : answers luaText limit windowSeconds ∅ cs =
    (decisions LimiterCall.key LimiterCall.nowMs (windowMs windowSeconds) (fun _ => limit) cs).map
      fun ok => if ok then (true, 0) else (false, windowSeconds) :=
  (keeps_empty.answers hfair).trans
    (onPrefixes_map (fun ok : Bool => if ok then (true, 0) else (false, windowSeconds)) [] cs)

theorem Fair.sublist {cs' : List LimiterCall} (h : Fair luaText cs) (hs : cs'.Sublist cs) :
    Fair luaText cs' :=
  ⟨h.clock.sublist (hs.map _), h.members.sublist hs⟩

theorem Fair.le (h : Fair luaText cs) {i j : Nat} {x y : LimiterCall} (hij : i ≤ j)
    (hx : cs[i]? = some x) (hy : cs[j]? = some y) : x.nowMs ≤ y.nowMs := by
  rcases Nat.lt_or_eq_of_le hij with hlt | rfl
  · obtain ⟨hi, rfl⟩ := List.getElem?_eq_some_iff.1 hx
    obtain ⟨hj, rfl⟩ := List.getElem?_eq_some_iff.1 hy
    exact List.pairwise_iff_getElem.1 (List.pairwise_map.1 h.clock) i j hi hj hlt
  · rw [hx] at hy
    cases hy
    exact Int.le_refl _

variable (luaText limit windowSeconds cs) in
/-- The calls that were allowed. -/
def allowedCalls : List LimiterCall :=
  ((cs.zip (answers luaText limit windowSeconds ∅ cs)).filter (·.2.1)).map (·.1)

theorem allowedCalls_eq (hfair : Fair luaText cs) : allowedCalls luaText limit windowSeconds cs =
    admitted LimiterCall.key LimiterCall.nowMs (windowMs windowSeconds) (fun _ => limit) cs := by
  unfold allowedCalls admitted
  rw [answers_eq hfair, List.zip_map_right, List.filter_map, List.map_map]
  refine congrArg _ (List.filter_congr fun p _ => ?_)
  obtain ⟨c, ok⟩ := p
  cases ok <;> rfl

/-- A call is allowed iff the calls of its window, itself included, are at most the limit. -/
theorem getElem?_answers (hfair : Fair luaText cs) (hwindow : 1 ≤ windowSeconds) {i : Nat}
    (hi : cs[i]? = some c) : (answers luaText limit windowSeconds ∅ cs)[i]? =
      some (if ((cs.take (i + 1)).filter fun x =>
          x.key = c.key ∧ c.nowMs - windowMs windowSeconds < x.nowMs).length ≤ limit
        then (true, 0) else (false, windowSeconds)) := by
  have hself : c.nowMs - windowMs windowSeconds < c.nowMs := by simp only [windowMs]; omega
  have hcount : ((cs.take (i + 1)).filter fun x =>
      x.key = c.key ∧ c.nowMs - windowMs windowSeconds < x.nowMs).length =
        (recent LimiterCall.key LimiterCall.nowMs (windowMs windowSeconds) (cs.take i) c).length + 1 := by
    rw [List.take_add_one, hi, List.filter_append]
    simp [recent, hself]
  rw [hcount, answers_eq hfair, List.getElem?_map, decisions, getElem?_onPrefixes, hi]
  simp [admits]

/-- The next call on a rejected key is allowed once the time it was told has passed. -/
theorem allowed_after_rejection (hfair : Fair luaText cs) (hlimit : 1 ≤ limit) {i j r : Nat}
    {d : LimiterCall} (hi : cs[i]? = some c) (hj : cs[j]? = some d) (hkey : d.key = c.key)
    (hrej : (answers luaText limit windowSeconds ∅ cs)[i]? = some (false, r))
    (hwait : c.nowMs + 1000 * r ≤ d.nowMs)
    (hnone : ∀ (k : Nat) x, i < k → k < j → cs[k]? = some x → x.key ≠ c.key) :
    (answers luaText limit windowSeconds ∅ cs)[j]? = some (true, 0) := by
  have hr : r = windowSeconds := by
    rw [answers_eq hfair, List.getElem?_map] at hrej
    obtain ⟨ok, -, hok⟩ := Option.map_eq_some_iff.1 hrej
    cases ok <;> simp_all
  have hidle : admits LimiterCall.key LimiterCall.nowMs (windowMs windowSeconds) (fun _ => limit)
      (cs.take j) d = true := by
    apply admits_of_idle hlimit
    intro x hx hxk
    obtain ⟨k, hk⟩ := List.mem_iff_getElem?.1 hx
    obtain ⟨hk, hkj⟩ : cs[k]? = some x ∧ k < j := by
      rw [List.getElem?_take] at hk
      split at hk
      · exact ⟨hk, by assumption⟩
      · cases hk
    have hki : k ≤ i := Nat.le_of_not_lt fun hlt => hnone k x hlt hkj hk (hxk.trans hkey)
    have := hfair.le hki hk hi
    simp only [windowMs]
    omega
  rw [answers_eq hfair, List.getElem?_map, decisions, getElem?_onPrefixes, hj]
  simp [hidle]

/-- **The limiter is exactly a sliding-window log.** -/
theorem answers_sliding_window (hlimit : 1 ≤ limit) (hwindow : 1 ≤ windowSeconds)
    (hfair : Fair luaText cs) :
    (∀ i c, cs[i]? = some c → (answers luaText limit windowSeconds ∅ cs)[i]? =
      some (if ((cs.take (i + 1)).filter fun x =>
          x.key = c.key ∧ c.nowMs - windowMs windowSeconds < x.nowMs).length ≤ limit
        then (true, 0) else (false, windowSeconds))) ∧
    (∀ key t, ((allowedCalls luaText limit windowSeconds cs).filter fun c =>
        c.key = key ∧ t ≤ c.nowMs ∧ c.nowMs < t + windowMs windowSeconds).length ≤ limit ∧
      ((allowedCalls luaText limit windowSeconds cs).filter fun c =>
        c.key = key ∧ t < c.nowMs ∧ c.nowMs ≤ t + windowMs windowSeconds).length ≤ limit) ∧
    (∀ key, ((cs.zip (answers luaText limit windowSeconds ∅ cs)).filter (·.1.key = key)).map (·.2) =
      answers luaText limit windowSeconds ∅ (cs.filter (·.key = key))) ∧
    ∀ (i j r : Nat) (c d : LimiterCall), cs[i]? = some c → cs[j]? = some d → d.key = c.key →
      (answers luaText limit windowSeconds ∅ cs)[i]? = some (false, r) → c.nowMs + 1000 * r ≤ d.nowMs →
      (∀ (k : Nat) (x : LimiterCall), i < k → k < j → cs[k]? = some x → x.key ≠ c.key) →
      (answers luaText limit windowSeconds ∅ cs)[j]? = some (true, 0) := by
  refine ⟨fun i c hi => getElem?_answers hfair hwindow hi, fun key t => ?_, fun key => ?_,
    fun i j r c d hi hj hkey hrej hwait hnone =>
      allowed_after_rejection hfair hlimit hi hj hkey hrej hwait hnone⟩
  · rw [allowedCalls_eq hfair]
    constructor
    all_goals
      refine length_admitted_le (fun _ _ => Nat.le_refl _) (fun c c' hc hc' => ?_)
        (fun c c' hc hc' => ?_) cs
      · simp only [decide_eq_true_eq] at hc hc'
        rw [hc.1, hc'.1]
      · simp only [decide_eq_true_eq] at hc hc'
        omega
  · rw [answers_eq hfair, answers_eq (hfair.sublist List.filter_sublist), ← decisions_filter,
      List.zip_map_right, List.filter_map, List.map_map, List.map_map]
    rfl

end

/-- Two calls fill the window, the third is rejected and told to wait. -/
theorem answers_sliding_window_full :
    let cs : List LimiterCall := [⟨"rl:a:/x", 0, 1⟩, ⟨"rl:a:/x", 0, 2⟩, ⟨"rl:a:/x", 999, 1⟩,
      ⟨"rl:b:/x", 999, 1⟩, ⟨"rl:a:/x", 1999, 1⟩]
    (answers toString 2 1 ∅ cs)[2]? = some (false, 1) ∧
      (answers toString 2 1 ∅ cs)[4]? = some (true, 0) := by
  intro cs
  have hfair : Fair toString cs := ⟨by decide, by decide⟩
  obtain ⟨hanswer, -, -, hwait⟩ :=
    answers_sliding_window (show 0 < 2 by decide) (show 0 < 1 by decide) hfair
  have hrej : (answers toString 2 1 ∅ cs)[2]? = some (false, 1) := hanswer 2 _ rfl
  refine ⟨hrej, hwait 2 4 1 _ _ rfl rfl rfl hrej (by decide) fun k x hk hj hx => ?_⟩
  obtain rfl : k = 3 := by omega
  cases hx
  decide

end BusBookings
