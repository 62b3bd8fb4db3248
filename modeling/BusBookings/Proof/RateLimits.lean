import Mathlib
import BusBookings.Proof.Limiter

/-!
# Rate limits of endpoints

The limiter counts the visits with one key for which Redis works (`answers_visits`), and the key contains
the client and `request.url.path`. So a client's requests to an endpoint are bounded exactly where they have
one such path (`bounded_iff`): of `DELETE /bookings/{booking_id}` the client chooses the path, and of every
endpoint the header `Host`, which Starlette puts in front of the path.
-/

namespace BusBookings

open Redis SlidingWindow

/-! ## The answers -/

section

variable (luaText : Int → String) (bracketedOk : String → Bool) (s : Settings)

/-- The call of `is_allowed` that a visit makes. -/
def Visit.call (v : Visit) : Option LimiterCall :=
  (v.key bracketedOk s).map fun key => ⟨key, v.nowMs, v.random⟩

/-- What the dependencies answer to visits executed in order, each with the client that it finds; Redis's
clock is the one that the visits' times are from. -/
def visitAnswers : ZSpace → List (RedisClient × Visit) → List (Except Refusal Unit)
  | _, [] => []
  | ks, (redis, v) :: rs =>
    let (answer, ks) := rateLimitDependency luaText bracketedOk s redis v.nowMs v ks
    answer :: visitAnswers ks rs

/-- The visits that get past the dependency. -/
def passed (rs : List (RedisClient × Visit)) : List (RedisClient × Visit) :=
  ((rs.zip ((visitAnswers luaText bracketedOk s ∅ rs).map Except.isOk)).filter (·.2)).map (·.1)

/-- The rejection of a visit over its limit. -/
def rejection (v : Visit) : Rejection :=
  ⟨429, s!"Too many requests. Please wait {s.rateLimitWindowSeconds} seconds.",
    [("Retry-After", toString s.rateLimitWindowSeconds),
     ("X-RateLimit-Limit", toString (v.endpoint.limit s)),
     ("X-RateLimit-Window", toString s.rateLimitWindowSeconds)]⟩

/-- How many visits before `r` count against it. -/
def counted (past : List (RedisClient × Visit)) (r : RedisClient × Visit) : Nat :=
  past.countP fun x => x.1 = .working ∧ x.2.key bracketedOk s = r.2.key bracketedOk s ∧
    r.2.nowMs - windowMs s.rateLimitWindowSeconds < x.2.nowMs

/-- The answer to `r` after the visits `past`. -/
def visitAnswer (past : List (RedisClient × Visit)) (r : RedisClient × Visit) : Except Refusal Unit :=
  if r.1 = .disconnected then .ok ()
  else if r.2.key bracketedOk s = none then .error .value
  else if r.1 = .working ∧ r.2.endpoint.limit s ≤ counted bracketedOk s past r then
    .error (.http (rejection s r.2))
  else .ok ()

/-- The log of the visits for which Redis works lets the visit through. -/
abbrev letsVisit : List (RedisClient × Visit) → RedisClient × Visit → Bool :=
  lets (fun r => r.2.key bracketedOk s) (fun r => r.2.nowMs) (windowMs s.rateLimitWindowSeconds)
    (fun r => r.2.endpoint.limit s) fun r => r.1 = .working

/-- A visit of client `ip` to `e` in the window that begins at `t`. -/
def inWindow (e : Endpoint) (ip : String) (t : Int) (r : RedisClient × Visit) : Bool :=
  r.2.endpoint = e ∧ r.2.ip = ip ∧ t ≤ r.2.nowMs ∧ r.2.nowMs < t + windowMs s.rateLimitWindowSeconds

/-- One with this `request.url.path`. -/
def ofClient (e : Endpoint) (ip path : String) (t : Int) (r : RedisClient × Visit) : Bool :=
  inWindow s e ip t r ∧ r.2.urlPath bracketedOk s = some path

/-- The calls of `is_allowed`, whether Redis executes them or not. -/
def limiterCalls (rs : List (RedisClient × Visit)) : List LimiterCall :=
  rs.filterMap (·.2.call bracketedOk s)

/-- The calls that Redis executes. -/
def executed (rs : List (RedisClient × Visit)) : List LimiterCall :=
  rs.filterMap fun r => if r.1 = .working then r.2.call bracketedOk s else none

variable {luaText bracketedOk s} {rs past : List (RedisClient × Visit)} {r : RedisClient × Visit}
  {ks : ZSpace} {v : Visit}

theorem mem_limiterCalls_of_executed {c : LimiterCall} (h : c ∈ executed bracketedOk s rs) :
    c ∈ limiterCalls bracketedOk s rs := by
  obtain ⟨r, hr, hc⟩ := List.mem_filterMap.1 h
  refine List.mem_filterMap.2 ⟨r, hr, ?_⟩
  split at hc
  · exact hc
  · cases hc

/-- The executed calls in the window of a visit are the visits that count against it. -/
theorem length_recent_executed {c : LimiterCall} (hc : v.call bracketedOk s = some c) :
    (recent LimiterCall.key LimiterCall.nowMs (windowMs s.rateLimitWindowSeconds)
      (executed bracketedOk s past) c).length = counted bracketedOk s past (.working, v) := by
  obtain ⟨key, hkey, rfl⟩ := Option.map_eq_some_iff.1 hc
  rw [recent, ← List.countP_eq_length_filter, executed, List.countP_filterMap]
  refine List.countP_congr fun x _ => ?_
  by_cases hw : x.1 = .working
  · cases hx : x.2.key bracketedOk s <;> simp [hw, hx, hkey, Visit.call]
  · simp [hw]

/-- A visit that Redis does not execute changes nothing. -/
theorem dependency_unexecuted (h : r.1 ≠ .working ∨ r.2.key bracketedOk s = none) (clock : Int) :
    rateLimitDependency luaText bracketedOk s r.1 clock r.2 ks = (visitAnswer bracketedOk s past r, ks) := by
  obtain ⟨redis, v⟩ := r
  unfold rateLimitDependency visitAnswer
  cases redis with
  | disconnected => rfl
  | failing =>
    cases hkey : v.key bracketedOk s with
    | none => simp
    | some key => simp [isAllowed]
  | working =>
    have hkey : v.key bracketedOk s = none := h.resolve_left fun hne => hne rfl
    simp [hkey]

/-- A visit that Redis executes is answered by the log, and recorded. -/
theorem dependency_executed {c : LimiterCall} (hc : v.call bracketedOk s = some c)
    (h : Keeps luaText s.rateLimitWindowSeconds (executed bracketedOk s past) ks)
    (hclock : ∀ x ∈ executed bracketedOk s past, x.nowMs ≤ c.nowMs)
    (hnew : ∀ x ∈ executed bracketedOk s past, x.key = c.key → x.member luaText ≠ c.member luaText) :
    ∃ ks', rateLimitDependency luaText bracketedOk s .working v.nowMs v ks =
        (visitAnswer bracketedOk s past (.working, v), ks') ∧
      Keeps luaText s.rateLimitWindowSeconds (executed bracketedOk s past ++ [c]) ks' := by
  obtain ⟨ks', hs, hk⟩ := h.script (v.endpoint.limit s) hclock hnew
  rw [length_recent_executed hc] at hs
  obtain ⟨key, hkey, rfl⟩ := Option.map_eq_some_iff.1 hc
  have hallowed := isAllowed_of_script hs
  simp only [Nat.succ_le_iff] at hallowed
  refine ⟨ks', ?_, hk⟩
  simp only [rateLimitDependency, visitAnswer, reduceCtorEq, if_false, hkey, decide_true, hallowed,
    true_and]
  by_cases hlt : counted bracketedOk s past (.working, v) < v.endpoint.limit s
  · simp [hlt, Nat.not_le.2 hlt]
  · simp [hlt, Nat.not_lt.1 hlt, rejection]

/-- **The answers are those of the visits that count.** -/
theorem visitAnswers_eq (h : Keeps luaText s.rateLimitWindowSeconds (executed bracketedOk s past) ks)
    (hfair : Fair luaText (limiterCalls bracketedOk s (past ++ rs))) :
    visitAnswers luaText bracketedOk s ks rs = onPrefixes (visitAnswer bracketedOk s) past rs := by
  induction rs generalizing past ks with
  | nil => rfl
  | cons r rs ih =>
    have hrest : Fair luaText (limiterCalls bracketedOk s ((past ++ [r]) ++ rs)) := by
      rwa [List.append_assoc, List.singleton_append]
    have hsnoc : executed bracketedOk s (past ++ [r]) = executed bracketedOk s past ++
        (if r.1 = .working then r.2.call bracketedOk s else none).toList := by
      rw [executed, List.filterMap_append]
      cases hr : (if r.1 = .working then r.2.call bracketedOk s else none) <;> simp [hr, executed]
    by_cases hexec : r.1 ≠ .working ∨ r.2.key bracketedOk s = none
    · have hnone : (if r.1 = .working then r.2.call bracketedOk s else none) = none := by
        rcases hexec with hw | hkey
        · rw [if_neg hw]
        · simp [Visit.call, hkey]
      have hnext : Keeps luaText s.rateLimitWindowSeconds (executed bracketedOk s (past ++ [r])) ks := by
        rw [hsnoc, hnone]
        simpa using h
      have hdep : rateLimitDependency luaText bracketedOk s r.1 r.2.nowMs r.2 ks =
          (visitAnswer bracketedOk s past r, ks) := dependency_unexecuted hexec r.2.nowMs
      simp only [visitAnswers, onPrefixes, hdep, ih hnext hrest]
    · obtain ⟨hw, hkey⟩ := not_or.1 hexec
      obtain ⟨redis, v⟩ := r
      obtain rfl : redis = .working := not_not.1 hw
      obtain ⟨key, hkey⟩ := Option.ne_none_iff_exists'.1 hkey
      have hc : v.call bracketedOk s = some ⟨key, v.nowMs, v.random⟩ := by simp [Visit.call, hkey]
      have hcalls : limiterCalls bracketedOk s (past ++ (.working, v) :: rs) =
          limiterCalls bracketedOk s past ++ ⟨key, v.nowMs, v.random⟩ :: limiterCalls bracketedOk s rs := by
        simp [limiterCalls, List.filterMap_append, hc]
      rw [hcalls] at hfair
      obtain ⟨hclock, hnew⟩ := hfair.next
      obtain ⟨ks', hdep, hk⟩ := dependency_executed hc h
        (fun x hx => hclock x (mem_limiterCalls_of_executed hx))
        fun x hx => hnew x (mem_limiterCalls_of_executed hx)
      have hnext : Keeps luaText s.rateLimitWindowSeconds
          (executed bracketedOk s (past ++ [(.working, v)])) ks' := by
        rw [hsnoc, if_pos rfl, hc]
        exact hk
      simp only [visitAnswers, onPrefixes, hdep, ih hnext hrest]

theorem visitAnswers_empty (hfair : Fair luaText (limiterCalls bracketedOk s rs)) :
    visitAnswers luaText bracketedOk s ∅ rs = onPrefixes (visitAnswer bracketedOk s) [] rs :=
  visitAnswers_eq (show Keeps luaText s.rateLimitWindowSeconds (executed bracketedOk s []) ∅ from
    keeps_empty) hfair

/-- What passes is not executed or within the limit. -/
theorem letsVisit_of_isOk (hok : (visitAnswer bracketedOk s past r).isOk = true) :
    letsVisit bracketedOk s past r = true := by
  rw [letsVisit, lets, Bool.or_eq_true, admits]
  by_cases hw : r.1 = .working
  · right
    have hnot : ¬ r.2.endpoint.limit s ≤ counted bracketedOk s past r := fun hle => by
      unfold visitAnswer at hok
      rw [if_neg (by rw [hw]; simp)] at hok
      split at hok
      · cases hok
      · rw [if_pos ⟨hw, hle⟩] at hok
        cases hok
    have hcount : (recent (fun r : RedisClient × Visit => r.2.key bracketedOk s) (fun r => r.2.nowMs)
        (windowMs s.rateLimitWindowSeconds) (past.filter fun r => r.1 = .working) r).length =
          counted bracketedOk s past r := by
      rw [recent, List.filter_filter, ← List.countP_eq_length_filter]
      refine List.countP_congr fun x _ => ?_
      simp only [Bool.and_eq_true, decide_eq_true_eq, and_comm]
    rw [hcount]
    exact decide_eq_true (by omega)
  · left
    simpa using hw

theorem passed_eq (hfair : Fair luaText (limiterCalls bracketedOk s rs)) :
    passed luaText bracketedOk s rs =
      chosen (fun past r => (visitAnswer bracketedOk s past r).isOk) rs := by
  unfold passed chosen
  rw [visitAnswers_empty hfair, onPrefixes_map]

theorem key_ofClient {e : Endpoint} {ip path : String} {t : Int}
    (hr : ofClient bracketedOk s e ip path t r = true) :
    r.2.key bracketedOk s = some (limiterKey ip path) := by
  obtain ⟨hin, hpath⟩ := of_decide_eq_true hr
  rw [LimitedRequest.key, hpath, (of_decide_eq_true hin).2.1]
  rfl

/-- What passes while Redis works has a key, and a limit that is not 0. -/
theorem of_mem_passed (hfair : Fair luaText (limiterCalls bracketedOk s rs))
    (hr : r ∈ passed luaText bracketedOk s rs) :
    r ∈ rs ∧ (r.1 = .working → (∃ key, r.2.key bracketedOk s = some key) ∧ r.2.endpoint.limit s ≠ 0) := by
  rw [passed_eq hfair] at hr
  obtain ⟨hmem, past, hok⟩ := exists_of_mem_chosen hr
  refine ⟨hmem, fun hw => ?_⟩
  rw [visitAnswer, if_neg (by rw [hw]; simp)] at hok
  split at hok
  · cases hok
  · rename_i hkey
    refine ⟨Option.ne_none_iff_exists'.1 hkey, fun hzero => ?_⟩
    rw [if_pos ⟨hw, hzero ▸ Nat.zero_le _⟩] at hok
    cases hok

/-! ## The limit -/

/-- **A client's visits to an endpoint with one path**: of those within one window, the limit and those that
Redis does not execute pass at most. -/
theorem countP_ofClient_le (hfair : Fair luaText (limiterCalls bracketedOk s rs)) (e : Endpoint)
    (ip path : String) (t : Int) : (passed luaText bracketedOk s rs).countP (ofClient bracketedOk s e ip path t) ≤
      e.limit s + rs.countP fun r => ofClient bracketedOk s e ip path t r && r.1 ≠ .working := by
  rw [passed_eq hfair]
  have hsub : (chosen (fun past r => (visitAnswer bracketedOk s past r).isOk) rs).Sublist
      (chosen (letsVisit bracketedOk s) rs) := chosen_sublist (fun _ _ => letsVisit_of_isOk) rs
  have hwithin {r : RedisClient × Visit} (hr : ofClient bracketedOk s e ip path t r = true) :
      r.2.endpoint = e ∧ t ≤ r.2.nowMs ∧ r.2.nowMs < t + windowMs s.rateLimitWindowSeconds := by
    obtain ⟨hin, -⟩ := of_decide_eq_true hr
    obtain ⟨he, -, ht⟩ := of_decide_eq_true hin
    exact ⟨he, ht⟩
  have hlets : (chosen (letsVisit bracketedOk s) rs).countP (ofClient bracketedOk s e ip path t) ≤
      e.limit s + (rs.filter fun r => !decide (r.1 = .working)).countP (ofClient bracketedOk s e ip path t) := by
    refine countP_letThrough_le (fun r hr => ?_) (fun r r' hr hr' => ?_) (fun r r' hr hr' => ?_) rs
    · exact Nat.le_of_eq (congrArg _ (hwithin hr).1)
    · rw [key_ofClient hr, key_ofClient hr']
    · have h := hwithin hr
      have h' := hwithin hr'
      omega
  rw [List.countP_filter] at hlets
  refine hsub.countP_le.trans (hlets.trans_eq ?_)
  simp only [ne_eq, decide_not]

end

/-! ## Which requests are bounded -/

section

variable (luaText : Int → String) (bracketedOk : String → Bool) (s : Settings)

/-- The visits, Redis working for each. -/
def working (vs : List Visit) : List (RedisClient × Visit) := vs.map fun v => (.working, v)

/-- Of the requests that client `ip` makes to `e` as `R` allows it, no more than the limit get past the
dependency within one window. -/
def Bounded (R : LimitedRequest → Prop) (e : Endpoint) (ip : String) : Prop :=
  ∀ vs : List Visit, (∀ v ∈ vs, R v.toLimitedRequest) →
    Fair luaText (limiterCalls bracketedOk s (working vs)) → ∀ t : Int,
      (passed luaText bracketedOk s (working vs)).countP (inWindow s e ip t) ≤ e.limit s

/-- These requests have one `request.url.path`. -/
def OnePath (R : LimitedRequest → Prop) (e : Endpoint) (ip : String) : Prop :=
  ∀ r r' path path', R r → R r' → r.endpoint = e → r'.endpoint = e → r.ip = ip → r'.ip = ip →
    r.urlPath bracketedOk s = some path → r'.urlPath bracketedOk s = some path' → path = path'

variable {luaText bracketedOk s} {R : LimitedRequest → Prop} {e : Endpoint} {ip : String}

theorem Endpoint.path_of_not_hasParam (h : e.hasParam = false) (param param' : String) :
    e.path s param = e.path s param' := by
  cases e <;> first | rfl | cases h

theorem mem_working {vs : List Visit} {r : RedisClient × Visit} (h : r ∈ working vs) :
    r.2 ∈ vs ∧ r.1 = .working := by
  obtain ⟨v, hv, rfl⟩ := List.mem_map.1 h
  exact ⟨hv, rfl⟩

theorem limiterKey_injective {path path' : String} (h : limiterKey ip path = limiterKey ip path') :
    path = path' := by
  have hlist := congrArg String.toList h
  simp only [limiterKey, toString, String.toList_append, List.append_assoc,
    List.append_cancel_left_eq] at hlist
  exact String.toList_inj.1 hlist

theorem scriptMember_injective {now : Int} {m n : Nat}
    (h : scriptMember luaText now m = scriptMember luaText now n) : m = n := by
  have hlist := congrArg String.toList h
  simp only [scriptMember, toString, String.toList_append, List.append_assoc,
    List.append_cancel_left_eq] at hlist
  exact Nat.repr_injective (String.toList_inj.1 hlist)

/-- What passes has a path, and a limit that is not 0. -/
theorem path_of_mem_passed {vs : List Visit} {r : RedisClient × Visit}
    (hfair : Fair luaText (limiterCalls bracketedOk s (working vs)))
    (hr : r ∈ passed luaText bracketedOk s (working vs)) :
    r.2 ∈ vs ∧ ∃ path, r.2.urlPath bracketedOk s = some path ∧ r.2.endpoint.limit s ≠ 0 := by
  obtain ⟨hmem, hworks⟩ := of_mem_passed hfair hr
  obtain ⟨hv, hw⟩ := mem_working hmem
  obtain ⟨⟨key, hkey⟩, hlimit⟩ := hworks hw
  obtain ⟨path, hpath, -⟩ := Option.map_eq_some_iff.1 hkey
  exact ⟨hv, path, hpath, hlimit⟩

/-- Requests with one path count against each other. -/
theorem bounded_of_onePath
    (h : e.limit s = 0 ∨ s.rateLimitWindowSeconds = 0 ∨ OnePath bracketedOk s R e ip) :
    Bounded luaText bracketedOk s R e ip := by
  intro vs hR hfair t
  by_cases hsome : ∃ x ∈ passed luaText bracketedOk s (working vs), inWindow s e ip t x = true
  · -- one that passed says which path the others have
    obtain ⟨x, hx, hin⟩ := hsome
    obtain ⟨he, hip, ht, ht'⟩ := of_decide_eq_true hin
    have hwindow : s.rateLimitWindowSeconds ≠ 0 := fun hzero => by
      simp only [windowMs, hzero] at ht'
      omega
    obtain ⟨hmem, path, hpath, hlimit⟩ := path_of_mem_passed hfair hx
    have hone := (h.resolve_left (he ▸ hlimit)).resolve_left hwindow
    refine (List.countP_mono_left fun r hr hp => ?_).trans
      ((countP_ofClient_le hfair e ip path t).trans_eq ?_)
    · obtain ⟨hmem', path', hpath', -⟩ := path_of_mem_passed hfair hr
      obtain ⟨he', hip', -⟩ := of_decide_eq_true hp
      obtain rfl := hone _ _ _ _ (hR _ hmem') (hR _ hmem) he' he hip' hip hpath' hpath
      exact decide_eq_true ⟨hp, hpath'⟩
    · rw [List.countP_eq_zero.2 fun r hr => ?_, Nat.add_zero]
      simp [(mem_working hr).2]
  · rw [List.countP_eq_zero.2 fun x hx hin => hsome ⟨x, hx, hin⟩]
    exact Nat.zero_le _

/-- **An endpoint without a path parameter** is limited where the header `Host` is one. -/
theorem bounded_of_host (he : e.hasParam = false) (host : String) :
    Bounded luaText bracketedOk s (·.host = host) e ip := by
  refine bounded_of_onePath (.inr (.inr fun r r' path path' hR hR' he' he'' _ _ hpath hpath' => ?_))
  have heq : r.urlPath bracketedOk s = r'.urlPath bracketedOk s := by
    unfold LimitedRequest.urlPath
    rw [hR, hR', he', he'', Endpoint.path_of_not_hasParam he r.param r'.param]
  exact Option.some.inj (hpath.symm.trans (heq.trans hpath'))

/-- `n` visits at one moment, and another one. -/
def burst (n : Nat) (r r' : LimitedRequest) : List Visit :=
  (List.range n).map (fun k => ⟨r, 0, k + 1⟩) ++ [⟨r', 0, 1⟩]

theorem mem_burst {n : Nat} {r r' : LimitedRequest} {v : Visit} (h : v ∈ burst n r r') :
    v.nowMs = 0 ∧ (v.toLimitedRequest = r ∨ v.toLimitedRequest = r') := by
  simp only [burst, List.mem_append, List.mem_map, List.mem_singleton] at h
  rcases h with ⟨k, -, rfl⟩ | rfl
  · exact ⟨rfl, .inl rfl⟩
  · exact ⟨rfl, .inr rfl⟩

theorem burst_fair {n : Nat} {r r' : LimitedRequest} {key key' : String}
    (hr : r.key bracketedOk s = some key) (hr' : r'.key bracketedOk s = some key') (hne : key ≠ key') :
    Fair luaText (limiterCalls bracketedOk s (working (burst n r r'))) := by
  have hcalls : limiterCalls bracketedOk s (working (burst n r r')) =
      (List.range n).map (fun k => ⟨key, 0, k + 1⟩) ++ [⟨key', 0, 1⟩] := by
    simp [limiterCalls, working, burst, List.filterMap_append, List.filterMap_map, Function.comp_def,
      Visit.call, hr, hr']
  rw [hcalls]
  constructor
  · simp only [List.map_append, List.map_map, Function.comp_def, List.map_cons, List.map_nil]
    refine List.pairwise_append.2 ⟨?_, List.pairwise_singleton _ _, fun x hx y hy => ?_⟩
    · exact List.pairwise_map.2 (List.pairwise_of_forall fun _ _ => Int.le_refl 0)
    · obtain ⟨k, -, rfl⟩ := List.mem_map.1 hx
      rw [List.mem_singleton.1 hy]
  · refine List.pairwise_append.2 ⟨?_, List.pairwise_singleton _ _, fun x hx y hy hkey => ?_⟩
    · refine List.pairwise_map.2 (List.nodup_range.imp fun hkk _ hm => hkk ?_)
      exact Nat.succ_injective (scriptMember_injective hm)
    · obtain ⟨k, -, rfl⟩ := List.mem_map.1 hx
      rw [List.mem_singleton.1 hy] at hkey
      exact absurd hkey hne

/-- They all pass. -/
theorem passed_burst {r r' : LimitedRequest} {key key' : String} (hlimit : r.endpoint.limit s ≠ 0)
    (he : r'.endpoint = r.endpoint) (hr : r.key bracketedOk s = some key)
    (hr' : r'.key bracketedOk s = some key') (hne : key ≠ key') :
    passed luaText bracketedOk s (working (burst (r.endpoint.limit s) r r')) =
      working (burst (r.endpoint.limit s) r r') := by
  rw [passed_eq (burst_fair hr hr' hne)]
  refine chosen_eq_self fun past x hx => ?_
  have hok (hkey : x.2.key bracketedOk s ≠ none)
      (hlt : counted bracketedOk s past x < x.2.endpoint.limit s) :
      (visitAnswer bracketedOk s past x).isOk = true := by
    rw [visitAnswer, if_neg hkey]
    split
    · rfl
    · rw [if_neg fun h => absurd h.2 (Nat.not_le.2 hlt)]
      rfl
  rw [working, burst, List.map_append, List.map_singleton] at hx
  rcases List.prefix_concat_iff.1 hx with heq | hpre
  · -- the other one has a key of its own
    obtain ⟨hpast, hlast⟩ := List.append_inj' heq rfl
    obtain rfl := List.singleton_inj.1 hlast
    refine hok (by simp [hr']) ?_
    have hzero : counted bracketedOk s past (.working, ⟨r', 0, 1⟩) = 0 := by
      refine List.countP_eq_zero.2 fun y hy => ?_
      rw [hpast, List.map_map] at hy
      obtain ⟨k, -, rfl⟩ := List.mem_map.1 hy
      simp [hr, hr', hne]
    rw [hzero]
    exact Nat.pos_of_ne_zero (by simpa [he] using hlimit)
  · have hmem : x ∈ ((List.range (r.endpoint.limit s)).map fun k => (⟨r, 0, k + 1⟩ : Visit)).map
        fun v => (RedisClient.working, v) := hpre.subset (by simp)
    rw [List.map_map] at hmem
    obtain ⟨k, -, rfl⟩ := List.mem_map.1 hmem
    refine hok (by simp [hr]) ?_
    have hlen := hpre.length_le
    simp only [List.length_append, List.length_singleton, List.length_map, List.length_range] at hlen
    have hcount : counted bracketedOk s past (.working, ⟨r, 0, k + 1⟩) ≤ past.length := List.countP_le_length
    exact Nat.lt_of_le_of_lt hcount (Nat.lt_of_succ_le hlen)

/-- Requests with two paths are not limited. -/
theorem not_bounded_of_paths {r r' : LimitedRequest} {path path' : String} (hlimit : e.limit s ≠ 0)
    (hwindow : s.rateLimitWindowSeconds ≠ 0) (hR : R r) (hR' : R r') (he : r.endpoint = e)
    (he' : r'.endpoint = e) (hip : r.ip = ip) (hip' : r'.ip = ip) (hpath : r.urlPath bracketedOk s = some path)
    (hpath' : r'.urlPath bracketedOk s = some path') (hne : path ≠ path') :
    ¬ Bounded luaText bracketedOk s R e ip := by
  subst he
  have hr : r.key bracketedOk s = some (limiterKey ip path) := by
    simp [LimitedRequest.key, hpath, hip]
  have hr' : r'.key bracketedOk s = some (limiterKey ip path') := by
    simp [LimitedRequest.key, hpath', hip']
  have hkeys : limiterKey ip path ≠ limiterKey ip path' := fun hk => hne (limiterKey_injective hk)
  intro h
  have hbound := h (burst (r.endpoint.limit s) r r') (fun v hv => ?_) (burst_fair hr hr' hkeys) 0
  · -- all of them pass, one more than the limit
    rw [passed_burst hlimit he' hr hr' hkeys, List.countP_eq_length.2 fun x hx => ?_] at hbound
    · simp only [working, burst, List.length_map, List.length_append, List.length_range,
        List.length_singleton] at hbound
      omega
    · obtain ⟨hx, -⟩ := mem_working hx
      obtain ⟨hnow, hreq⟩ := mem_burst hx
      have hzero : (0 : Int) < 0 + windowMs s.rateLimitWindowSeconds := by
        simp only [windowMs]
        omega
      rcases hreq with hreq | hreq
      · exact decide_eq_true ⟨by rw [hreq], by rw [hreq, hip], by omega, by omega⟩
      · exact decide_eq_true ⟨by rw [hreq, he'], by rw [hreq, hip'], by omega, by omega⟩
  · rcases (mem_burst hv).2 with hreq | hreq
    · exact hreq ▸ hR
    · exact hreq ▸ hR'

/-- **A client's requests to an endpoint are limited exactly if they have one `request.url.path`** (or
nothing is let through, or the window is empty). -/
theorem bounded_iff : Bounded luaText bracketedOk s R e ip ↔
    e.limit s = 0 ∨ s.rateLimitWindowSeconds = 0 ∨ OnePath bracketedOk s R e ip := by
  constructor
  · intro h
    by_cases hlimit : e.limit s = 0
    · exact .inl hlimit
    by_cases hwindow : s.rateLimitWindowSeconds = 0
    · exact .inr (.inl hwindow)
    refine .inr (.inr fun r r' path path' hR hR' he he' hip hip' hpath hpath' => ?_)
    by_contra hne
    exact not_bounded_of_paths hlimit hwindow hR hR' he he' hip hip' hpath hpath' hne h
  · exact bounded_of_onePath

end

/-- One request to each endpoint in a minute. -/
def strictSettings : Settings := ⟨"/api/v1", 60, 1, 1, 1⟩

/-- A client cancels two bookings at one moment, or logs in under two hosts, where one request in a
minute is allowed. -/
theorem two_pass_of_one :
    let delete (param : String) : Visit := ⟨⟨.cancelBooking, param, "bus.com", none, some "10.0.0.1"⟩, 0, 1⟩
    let login (host : String) : Visit := ⟨⟨.login, "", host, none, some "10.0.0.1"⟩, 0, 1⟩
    let deletes := working [delete "1", delete "2"]
    let logins := working [login "bus.com/1", login "bus.com/2"]
    passed toString (fun _ => true) strictSettings deletes = deletes ∧
      passed toString (fun _ => true) strictSettings logins = logins ∧
      ¬ Bounded toString (fun _ => true) strictSettings (fun _ => True) .cancelBooking "10.0.0.1" ∧
      ¬ Bounded toString (fun _ => true) strictSettings (fun _ => True) .login "10.0.0.1" := by
  intro delete login deletes logins
  have hdeletes : passed toString (fun _ => true) strictSettings deletes = deletes := by decide +kernel
  have hlogins : passed toString (fun _ => true) strictSettings logins = logins := by decide +kernel
  refine ⟨hdeletes, hlogins, fun h => ?_, fun h => ?_⟩
  · have := h [delete "1", delete "2"] (fun _ _ => trivial) ⟨by decide +kernel, by decide +kernel⟩ 0
    rw [hdeletes] at this
    revert this
    decide +kernel
  · have := h [login "bus.com/1", login "bus.com/2"] (fun _ _ => trivial)
      ⟨by decide +kernel, by decide +kernel⟩ 0
    rw [hlogins] at this
    revert this
    decide +kernel

end BusBookings
