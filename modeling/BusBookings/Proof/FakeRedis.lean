import Mathlib
import BusBookings.App.FakeRedis
import BusBookings.Base.PrunedLog

/-!
# The limiter's script against its test double

Both keep, of each key, the calls that no later one has pruned: `FakeRedis` one member for each
(`Refers.fake`), the script's sorted set too as long as members differ and the key does not expire
(`Holds.run`). A member is `now_ms:random`, so two calls of one millisecond that draw the same number
count once (`scriptCounts_eq_iff`).
-/

namespace BusBookings

open Redis PrunedLog

namespace ScriptCall

/-- Call `c` removes the member of `x`. -/
def Prunes (c x : ScriptCall) : Prop := x.nowMs ≤ c.nowMs - c.windowMs

instance : DecidableRel Prunes := fun c x => inferInstanceAs (Decidable (x.nowMs ≤ c.nowMs - c.windowMs))

/-- When the key expires if no call follows. -/
def deadline (c : ScriptCall) : Int := c.clock + c.ttl * 1000

theorem ttl_pos (c : ScriptCall) : 0 < c.ttl := by unfold ttl; omega

/-- What `c` leaves of the calls on its key. -/
def left (logs : String → List ScriptCall) (c : ScriptCall) : List ScriptCall :=
  remaining Prunes c (logs c.key)

def push (logs : String → List ScriptCall) (c : ScriptCall) : String → List ScriptCall :=
  PrunedLog.push key Prunes logs c

variable {logs : String → List ScriptCall} {c x : ScriptCall}

theorem mem_left : x ∈ c.left logs ↔ x ∈ logs c.key ∧ ¬ c.Prunes x := mem_remaining

theorem push_self : c.push logs c.key = c.left logs ++ [c] := PrunedLog.push_self logs c

theorem push_ne {key : String} (h : key ≠ c.key) : c.push logs key = logs key :=
  PrunedLog.push_ne logs h

end ScriptCall

section

variable {logs : String → List ScriptCall} {cs : List ScriptCall}

/-! ## The test double -/

/-- The stores have a member for each call that is left. -/
structure Refers (r : FakeRedis) (logs : String → List ScriptCall) : Prop where
  scores : ∀ key, (r.store key).rows.map (·.2) = (logs key).map (·.nowMs)
  members : ∀ key, ∀ p ∈ (r.store key).rows, ∃ n ≤ r.counter, p.1 = toString n

theorem refers_empty : Refers {} fun _ => [] := ⟨fun _ => rfl, fun _ _ hp => by cases hp⟩

/-- **A call of the test double** counts what is left and itself. -/
theorem Refers.fake {r : FakeRedis} (h : Refers r logs) (c : ScriptCall) :
    (c.fake r).1 = (c.left logs).length + 1 ∧ Refers (c.fake r).2 (c.push logs) := by
  let pruned : Store := (r.store c.key).filter fun p => ¬ p.2 ≤ c.nowMs - c.windowMs
  let member := toString (r.counter + 1)
  have hscores : pruned.rows.map (·.2) = (c.left logs).map (·.nowMs) := by
    have hall := congrArg (List.filter fun t : Int => ¬ t ≤ c.nowMs - c.windowMs) (h.scores c.key)
    rw [List.filter_map, List.filter_map] at hall
    exact hall
  -- The counter has not been a member before.
  have hnew : ∀ p ∈ pruned.rows, p.1 ≠ member := fun p hp heq => by
    obtain ⟨n, hn, hpn⟩ := h.members c.key p (List.mem_filter.1 hp).1
    have := Nat.repr_injective (hpn.symm.trans heq)
    omega
  have hself : (pruned.filter (·.1 ≠ member)).rows = pruned.rows :=
    List.filter_eq_self.2 fun p hp => by simpa using hnew p hp
  have hrows : ((pruned.filter (·.1 ≠ member)).insert (member, c.nowMs)).rows =
      pruned.rows ++ [(member, c.nowMs)] := by
    rw [← hself]
    exact Table.rows_insert fun p hp => hnew p (hself ▸ hp)
  have hlength : pruned.rows.length = (c.left logs).length := by
    simpa using congrArg List.length hscores
  have hstore (key : String) : ((c.fake r).2.store key).rows =
      if key = c.key then pruned.rows ++ [(member, c.nowMs)] else (r.store key).rows := by
    rw [← hrows]
    simp only [ScriptCall.fake, FakeRedis.evalsha, FakeRedis.store, Keyspace.get_set]
    split <;> rfl
  refine ⟨?_, fun key => ?_, fun key p hp => ?_⟩
  · rw [← hlength]
    exact (congrArg List.length hrows).trans (by simp)
  · rw [hstore]
    by_cases hkey : key = c.key
    · subst hkey
      rw [if_pos rfl, ScriptCall.push_self, List.map_append, List.map_append, hscores]
      rfl
    · rw [if_neg hkey, ScriptCall.push_ne hkey]
      exact h.scores key
  · rw [hstore] at hp
    have hold {key : String} (hp : p ∈ (r.store key).rows) :
        ∃ n ≤ (c.fake r).2.counter, p.1 = toString n := by
      obtain ⟨n, hn, hpn⟩ := h.members key p hp
      exact ⟨n, Nat.le_succ_of_le hn, hpn⟩
    split at hp
    · rcases List.mem_append.1 hp with hp | hp
      · exact hold (List.mem_filter.1 hp).1
      · exact ⟨r.counter + 1, Nat.le_refl _, by rw [List.mem_singleton.1 hp]⟩
    · exact hold hp

/-! ## The script -/

variable (luaText : Int → String)

/-- The sorted sets hold the calls that are left, and expire after the last call on their key. -/
structure Holds (ks : ZSpace) (logs : String → List ScriptCall) : Prop where
  absent : ∀ key, logs key = [] → ks.get key = none
  entry : ∀ key last, (logs key).getLast? = some last → ∃ e, ks.get key = some e ∧
    e.members.rows = (logs key).map (fun x => (x.member luaText, x.nowMs)) ∧
      e.deadline = some last.deadline

/-- Call `c` adds a member, to a key that has not expired while it holds a call of the window. -/
structure Adds (logs : String → List ScriptCall) (c : ScriptCall) : Prop where
  distinct : ∀ x ∈ c.left logs, x.member luaText ≠ c.member luaText
  lasting : ∀ last, (logs c.key).getLast? = some last → c.clock ≤ last.deadline ∨ c.left logs = []

variable {luaText} {ks : ZSpace} {c : ScriptCall}

theorem holds_empty : Holds luaText ∅ fun _ => [] := ⟨fun _ _ => rfl, fun _ _ h => by cases h⟩

/-- What is left of the sorted set once the script has pruned it. -/
theorem Holds.pruned (h : Holds luaText ks logs) (c : ScriptCall) :
    let pruned := (ks.rows c.clock c.key).filter (c.nowMs - c.windowMs < ·.2)
    (pruned = (c.left logs).map (fun x => (x.member luaText, x.nowMs)) ∧
      ∀ last, (logs c.key).getLast? = some last → c.clock ≤ last.deadline ∨ c.left logs = []) ∨
    (pruned = [] ∧ ∃ last, (logs c.key).getLast? = some last ∧ ¬ c.clock ≤ last.deadline) := by
  intro pruned
  cases hlast : (logs c.key).getLast? with
  | none =>
    have hnil : logs c.key = [] := List.getLast?_eq_none_iff.1 hlast
    have hrows : ks.rows c.clock c.key = [] := by
      simp [ZSpace.rows, ZSpace.find, h.absent c.key hnil]
    refine .inl ⟨?_, fun last heq => by cases heq⟩
    simp only [pruned, ScriptCall.left, hrows, hnil]
    rfl
  | some last =>
    obtain ⟨e, he, hrows, hdeadline⟩ := h.entry c.key last hlast
    have hfind : ks.find c.clock c.key = if c.clock ≤ last.deadline then some e else none := by
      rw [ZSpace.find_of_get he, hdeadline]
      simp [ZSpace.live]
    by_cases hlive : c.clock ≤ last.deadline
    · refine .inl ⟨?_, fun last' heq => .inl (Option.some.inj heq ▸ hlive)⟩
      simp only [pruned, ZSpace.rows, hfind, if_pos hlive, Option.map_some, Option.getD_some, hrows,
        List.filter_map, ScriptCall.left, remaining]
      refine congrArg _ (List.filter_congr fun x _ => ?_)
      simp [ScriptCall.Prunes]
    · refine .inr ⟨?_, last, rfl, hlive⟩
      simp only [pruned, ZSpace.rows, hfind, if_neg hlive, Option.map_none, Option.getD_none,
        List.filter_nil]

/-- **The script's count** is that of the log iff the call adds a member. -/
theorem Holds.count_iff (h : Holds luaText ks logs) :
    (c.run luaText ks).1 = (c.left logs).length + 1 ↔ Adds luaText logs c := by
  have hcount : (c.run luaText ks).1 = (((ks.rows c.clock c.key).filter
      (c.nowMs - c.windowMs < ·.2)).filter (·.1 ≠ c.member luaText)).length + 1 := by
    rw [← ZSpace.rows_zremrangebyscore, ← ZSpace.zcard_zadd c.nowMs]
    rfl
  rw [hcount, Nat.add_right_cancel_iff]
  rcases h.pruned c with ⟨heq, hlasting⟩ | ⟨heq, last, hlast, hdead⟩
  · rw [heq, List.filter_map, List.length_map, List.length_filter_eq_length_iff]
    exact ⟨fun hd => ⟨fun x hx => by simpa using hd x hx, hlasting⟩,
      fun hadds x hx => by simpa using hadds.distinct x hx⟩
  · rw [heq]
    constructor
    · intro hlen
      have hnil : c.left logs = [] := List.eq_nil_of_length_eq_zero hlen.symm
      exact ⟨fun x hx => (by rw [hnil] at hx; cases hx), fun _ _ => .inr hnil⟩
    · intro hadds
      rw [(hadds.lasting last hlast).resolve_left hdead]
      rfl

/-- **One call that adds its member**: the sorted sets keep the log. -/
theorem Holds.run (h : Holds luaText ks logs) (hadds : Adds luaText logs c) :
    Holds luaText (c.run luaText ks).2 (c.push logs) := by
  have hpruned : (ks.rows c.clock c.key).filter (c.nowMs - c.windowMs < ·.2) =
      (c.left logs).map (fun x => (x.member luaText, x.nowMs)) := by
    rcases h.pruned c with ⟨heq, -⟩ | ⟨heq, last, hlast, hdead⟩
    · exact heq
    · rw [heq, (hadds.lasting last hlast).resolve_left hdead]
      rfl
  have hnew : ∀ p ∈ ks.rows c.clock c.key, c.nowMs - c.windowMs < p.2 → p.1 ≠ c.member luaText := by
    intro p hp hlt
    have hmem : p ∈ (ks.rows c.clock c.key).filter (c.nowMs - c.windowMs < ·.2) :=
      List.mem_filter.2 ⟨hp, by simpa using hlt⟩
    rw [hpruned] at hmem
    obtain ⟨x, hx, rfl⟩ := List.mem_map.1 hmem
    exact hadds.distinct x hx
  obtain ⟨e, he, hrows, hdeadline⟩ := ZSpace.get_prune_add_expire c.nowMs c.ttl_pos hnew
  have hself : (c.run luaText ks).2.get c.key = some e := he
  have hother (key : String) (hkey : key ≠ c.key) : (c.run luaText ks).2.get key = ks.get key := by
    simp only [ScriptCall.run, slidingWindowScript, ZSpace.get_expire hkey, ZSpace.get_zadd hkey,
      ZSpace.get_zremrangebyscore hkey]
  refine ⟨fun key hnil => ?_, fun key last hlast => ?_⟩
  · by_cases hkey : key = c.key
    · subst hkey
      rw [ScriptCall.push_self] at hnil
      exact absurd hnil (by simp)
    · rw [ScriptCall.push_ne hkey] at hnil
      rw [hother key hkey]
      exact h.absent key hnil
  · by_cases hkey : key = c.key
    · subst hkey
      rw [ScriptCall.push_self] at hlast ⊢
      obtain rfl : c = last := by simpa using hlast
      refine ⟨e, hself, ?_, hdeadline⟩
      rw [hrows, hpruned, List.map_append]
      rfl
    · rw [ScriptCall.push_ne hkey] at hlast ⊢
      rw [hother key hkey]
      exact h.entry key last hlast

/-- Every call of the sequence adds its member. -/
def AllAdd (luaText : Int → String) : (logs : String → List ScriptCall) → List ScriptCall → Prop
  | _, [] => True
  | logs, c :: cs => Adds luaText logs c ∧ AllAdd luaText (c.push logs) cs

/-- **Both count the same** iff every call adds its member. -/
theorem Holds.counts_iff {r : FakeRedis} (h : Holds luaText ks logs) (hr : Refers r logs) :
    scriptCounts luaText ks cs = fakeCounts r cs ↔ AllAdd luaText logs cs := by
  induction cs generalizing ks r logs with
  | nil => exact iff_of_true rfl trivial
  | cons c cs ih =>
    obtain ⟨hfake, hnext⟩ := hr.fake c
    simp only [scriptCounts, fakeCounts, AllAdd, List.cons.injEq, hfake, h.count_iff]
    exact and_congr_right fun hadds => ih (h.run hadds) hnext

theorem allAdd_iff : AllAdd luaText logs cs ↔ ∀ before c after, cs = before ++ c :: after →
    Adds luaText (before.foldl (fun logs c => c.push logs) logs) c := by
  induction cs generalizing logs with
  | nil => simp [AllAdd]
  | cons c cs ih =>
    rw [AllAdd, ih]
    constructor
    · intro ⟨hc, hcs⟩ before d after heq
      cases before with
      | nil =>
        obtain ⟨rfl, -⟩ := List.cons.inj heq
        exact hc
      | cons b before =>
        obtain ⟨rfl, hrest⟩ := List.cons.inj heq
        exact hcs before d after hrest
    · intro hall
      exact ⟨hall [] c cs rfl, fun before d after heq => hall (c :: before) d after (by simp [heq])⟩

/-! ## The condition on the calls -/

/-- Of two calls on a key with equal members the first one's is removed up to the second. -/
def Distinct (luaText : Int → String) (cs : List ScriptCall) : Prop :=
  ∀ before x between c after, cs = before ++ x :: between ++ c :: after → c.key = x.key →
    c.member luaText = x.member luaText → ∃ y ∈ between ++ [c], y.key = x.key ∧ y.Prunes x

/-- Of two consecutive calls on a key the second comes before the key expires, or removes the
first one's member. -/
def Lasting (cs : List ScriptCall) : Prop :=
  ∀ before x between c after, cs = before ++ x :: between ++ c :: after → c.key = x.key →
    (∀ y ∈ between, y.key ≠ x.key) → c.clock ≤ x.deadline ∨ c.Prunes x

/-- The calls left on a key before `c`. -/
theorem mem_left_logOf {before : List ScriptCall} {x : ScriptCall} :
    x ∈ c.left (logOf ScriptCall.key ScriptCall.Prunes before) ↔ ∃ before' between,
      before = before' ++ x :: between ∧ c.key = x.key ∧
        ¬ ∃ y ∈ between ++ [c], y.key = x.key ∧ y.Prunes x := by
  rw [ScriptCall.mem_left, mem_logOf]
  constructor
  · intro ⟨⟨before', between, heq, hkey, hbetween⟩, hc⟩
    refine ⟨before', between, heq, hkey.symm, fun ⟨y, hy, hykey, hprunes⟩ => ?_⟩
    rcases List.mem_append.1 hy with hy | hy
    · exact hbetween y hy (hykey.trans hkey) hprunes
    · exact hc (List.mem_singleton.1 hy ▸ hprunes)
  · intro ⟨before', between, heq, hkey, hnone⟩
    refine ⟨⟨before', between, heq, hkey.symm, fun y hy hykey hprunes => ?_⟩, fun hprunes => ?_⟩
    · exact hnone ⟨y, List.mem_append_left _ hy, hykey.trans hkey, hprunes⟩
    · exact hnone ⟨c, by simp, hkey, hprunes⟩

/-- While times do not decrease, a call that removes the last member of its key removes all. -/
theorem left_eq_nil_iff {before : List ScriptCall} {last : ScriptCall}
    (hclock : (before.map (·.nowMs)).Pairwise (· ≤ ·))
    (hlast : (logOf ScriptCall.key ScriptCall.Prunes before c.key).getLast? = some last) :
    c.left (logOf ScriptCall.key ScriptCall.Prunes before) = [] ↔ c.Prunes last := by
  obtain ⟨init, hinit⟩ := List.getLast?_eq_some_iff.1 hlast
  have hle : ∀ x ∈ init ++ [last], x.nowMs ≤ last.nowMs := by
    have hsorted := (List.pairwise_map.1 hclock).sublist (hinit ▸ sublist_logOf)
    intro x hx
    rcases List.mem_append.1 hx with hx | hx
    · exact (List.pairwise_append.1 hsorted).2.2 x hx last (by simp)
    · rw [List.mem_singleton.1 hx]
  rw [List.eq_nil_iff_forall_not_mem]
  simp only [ScriptCall.mem_left, hinit, not_and, not_not]
  exact ⟨fun hall => hall last (by simp), fun hp x hx => Int.le_trans (hle x hx) hp⟩

theorem allAdd_iff_calls (hclock : (cs.map (·.nowMs)).Pairwise (· ≤ ·)) :
    AllAdd luaText (fun _ => []) cs ↔ Distinct luaText cs ∧ Lasting cs := by
  rw [allAdd_iff]
  have hlog (before : List ScriptCall) : before.foldl (fun logs c => c.push logs) (fun _ => []) =
      logOf ScriptCall.key ScriptCall.Prunes before := rfl
  have hstart {before after : List ScriptCall} (heq : cs = before ++ after) :
      (before.map (·.nowMs)).Pairwise (· ≤ ·) :=
    hclock.sublist ((heq ▸ List.sublist_append_left before after).map _)
  simp only [hlog]
  constructor
  · intro hall
    refine ⟨fun before x between c after heq hkey hmember => ?_,
      fun before x between c after heq hkey hbetween => ?_⟩
    · by_contra hnone
      exact (hall _ c after heq).distinct x (mem_left_logOf.2 ⟨before, between, rfl, hkey, hnone⟩)
        hmember.symm
    · have hlast : (logOf ScriptCall.key ScriptCall.Prunes (before ++ x :: between) c.key).getLast? =
          some x :=
        getLast?_logOf_eq_some.2 ⟨before, between, rfl, hkey.symm, fun y hy => hkey ▸ hbetween y hy⟩
      exact ((hall _ c after heq).lasting x hlast).imp_right (left_eq_nil_iff (hstart heq) hlast).1
  · rintro ⟨hdistinct, hlasting⟩ before c after heq
    refine ⟨fun x hx hmember => ?_, fun last hlast => ?_⟩
    · obtain ⟨before', between, rfl, hkey, hnone⟩ := mem_left_logOf.1 hx
      exact hnone (hdistinct before' x between c after heq hkey hmember.symm)
    · have hnil := left_eq_nil_iff (hstart heq) hlast
      obtain ⟨before', between, rfl, hkey, hbetween⟩ := getLast?_logOf_eq_some.1 hlast
      refine (hlasting before' last between c after heq hkey.symm ?_).imp_right hnil.2
      exact fun y hy => hkey ▸ hbetween y hy

/-- Keys last when each has one window and Redis's clock is that of the calls. -/
theorem lasting_of_windows (hclock : ∀ x ∈ cs, x.clock = x.nowMs)
    (hwindow : ∀ x ∈ cs, ∀ y ∈ cs, y.key = x.key → y.windowSeconds = x.windowSeconds) :
    Lasting cs := by
  intro before x between c after heq hkey _
  have hx : x ∈ cs := by simp [heq]
  have hc : c ∈ cs := by simp [heq]
  have hsame := hwindow x hx c hc hkey
  simp only [ScriptCall.deadline, ScriptCall.ttl, ScriptCall.Prunes, ScriptCall.windowMs, hsame,
    hclock x hx, hclock c hc]
  omega

theorem distinct_of_pairwise
    (h : cs.Pairwise fun x y => y.key = x.key → y.member luaText ≠ x.member luaText) :
    Distinct luaText cs := by
  intro before x between c after heq hkey hmember
  rw [heq, List.append_assoc, List.pairwise_append] at h
  exact absurd hmember ((List.pairwise_cons.1 h.2.1).1 c (by simp) hkey)

variable (luaText cs) in
/-- **The script agrees with its test double** exactly when no two calls on a key have the same
member at once, and no key expires while it holds a member of the next call's window. -/
theorem scriptCounts_eq_iff (hclock : (cs.map (·.nowMs)).Pairwise (· ≤ ·)) :
    scriptCounts luaText ∅ cs = fakeCounts {} cs ↔ Distinct luaText cs ∧ Lasting cs :=
  (holds_empty.counts_iff refers_empty).trans (allAdd_iff_calls hclock)

end

/-- Two calls of one millisecond with different numbers count as two. -/
theorem scriptCounts_eq_iff_pair :
    let cs : List ScriptCall := [⟨"rl:a:/x", 5, 5, 60, 10, 1⟩, ⟨"rl:a:/x", 5, 5, 60, 10, 2⟩]
    scriptCounts toString ∅ cs = fakeCounts {} cs := by
  intro cs
  exact (scriptCounts_eq_iff cs toString (by decide)).2
    ⟨distinct_of_pairwise (by decide), lasting_of_windows (by decide) (by decide)⟩

/-- Two calls of one millisecond that draw the same number count as one. -/
theorem scriptCounts_collision :
    let cs : List ScriptCall := [⟨"rl:a:/x", 5, 5, 60, 10, 1⟩, ⟨"rl:a:/x", 5, 5, 60, 10, 1⟩]
    scriptCounts toString ∅ cs = [1, 1] ∧ fakeCounts {} cs = [1, 2] := by
  decide

end BusBookings
