import Mathlib
import BusBookings.App.Api
import BusBookings.App.RateLimiter

/-!
# The keys of the cache

The entries are those of `seatsKey` and `routesKey`. A route's pattern matches the entry of its own
seats only (`isMatch_seatsPattern`), and `routes:*` the searches only (`isMatch_routesPattern`): an
identifier is rendered without a colon, so what follows it in a key starts where it ends.

The limiter's entries are in the same keyspace. An invalidation removes the entries it is for, and no
other (`deletePattern_exact`).
-/

namespace BusBookings

open Redis

/-! ## Rendered identifiers -/

theorem mem_toString {n : Int} {c : Char} (h : c ∈ (toString n).toList) : c = '-' ∨ c.isDigit = true := by
  have hnat {m : Nat} (hm : c ∈ m.repr.toList) : c.isDigit = true := by
    rw [Nat.toList_repr] at hm
    exact Nat.isDigit_of_mem_toDigits (by omega) (by omega) hm
  rw [show toString n = n.repr from rfl, Int.repr_eq_if] at h
  split at h
  · exact .inr (hnat h)
  · rw [String.toList_append, List.mem_append] at h
    exact h.imp (by simp) hnat

theorem colon_notMem (n : Int) : ':' ∉ (toString n).toList := fun h => by
  rcases mem_toString h with h | h
  · cases h
  · exact absurd h (by decide)

/-- A rendered identifier has no character with a meaning in a pattern. -/
theorem plain_toString {n : Int} {c : Char} (h : c ∈ (toString n).toList) : Glob.plain c = true := by
  rcases mem_toString h with rfl | h
  · decide
  · simp only [Glob.plain, List.mem_cons, List.not_mem_nil, or_false, not_or, decide_eq_true_eq]
    refine ⟨?_, ?_, ?_, ?_⟩ <;> rintro rfl <;> exact absurd h (by decide)

/-! ## Seats -/

theorem toList_seatsKey (r : Int) :
    (seatsKey r).toList = "seats:".toList ++ ((toString r).toList ++ ':' :: "all".toList) := by
  rw [show seatsKey r = "seats:" ++ toString r ++ ":all" from rfl]
  simp

theorem seatsKey_injective : Function.Injective seatsKey := fun r r' h => by
  have hlist := congrArg String.toList h
  rw [toList_seatsKey, toList_seatsKey] at hlist
  have := List.append_cancel_right (List.append_cancel_left hlist)
  exact Int.repr_injective (String.toList_injective this)

/-- The pattern of a route matches what starts with `seats:{route_id}:`. -/
theorem isMatch_seatsPattern {r : Int} {key : String} : Glob.isMatch (seatsPattern r) key = true ↔
    ∃ t, key.toList = "seats:".toList ++ ((toString r).toList ++ ':' :: t) := by
  have hpattern : seatsPattern r = "seats:" ++ toString r ++ ":" ++ "*" := by
    apply String.toList_injective
    rw [show seatsPattern r = "seats:" ++ toString r ++ ":*" from rfl]
    simp
  rw [hpattern, Glob.matches_literal_star]
  · simp
  · intro c hc
    rw [String.toList_append, String.toList_append, List.mem_append, List.mem_append] at hc
    rcases hc with (hc | hc) | hc
    · exact (show ∀ c ∈ "seats:".toList, Glob.plain c = true by simp [Glob.plain]) c hc
    · exact plain_toString hc
    · exact (show ∀ c ∈ ":".toList, Glob.plain c = true by simp [Glob.plain]) c hc

theorem isMatch_seatsKey (r r' : Int) : Glob.isMatch (seatsPattern r) (seatsKey r') = true ↔ r' = r := by
  rw [isMatch_seatsPattern, toList_seatsKey]
  constructor
  · intro ⟨t, ht⟩
    obtain ⟨h, -⟩ := (List.append_cons_inj_of_notMem (colon_notMem r') (by decide)).1
      (List.append_cancel_left ht)
    exact Int.repr_injective (String.toList_injective h)
  · rintro rfl
    exact ⟨_, rfl⟩

/-! ## Searches -/

theorem toList_routesKey (q : RouteQuery) : ∃ t, (routesKey q).toList = "routes:".toList ++ t := by
  rw [show routesKey q = "routes:" ++ pyStr q.origin ++ ":" ++ pyStr q.destination ++ ":" ++
    toString q.page ++ ":" ++ toString q.size from rfl]
  simp only [String.toList_append, List.append_assoc]
  exact ⟨_, rfl⟩

theorem isMatch_routesPattern {key : String} :
    Glob.isMatch "routes:*" key = true ↔ ∃ t, key.toList = "routes:".toList ++ t := by
  rw [show "routes:*" = "routes:" ++ "*" from by decide, Glob.matches_literal_star (by simp [Glob.plain])]

theorem seatsKey_ne_routesKey (r : Int) (q : RouteQuery) : seatsKey r ≠ routesKey q := fun h => by
  obtain ⟨t, ht⟩ := toList_routesKey q
  rw [← h, toList_seatsKey] at ht
  cases ht

theorem not_isMatch_routesKey (r : Int) (q : RouteQuery) :
    ¬ Glob.isMatch (seatsPattern r) (routesKey q) = true := by
  rw [isMatch_seatsPattern]
  intro ⟨t, ht⟩
  obtain ⟨t', ht'⟩ := toList_routesKey q
  rw [ht'] at ht
  cases ht

/-! ## The shared keyspace -/

/-- The keys that the program writes. -/
inductive Written : String → Prop where
  | limiter (ip path : String) : Written (limiterKey ip path)
  | search (q : RouteQuery) : Written (routesKey q)
  | seats (r : Int) : Written (seatsKey r)

theorem LimitedRequest.written_key {bracketedOk : String → Bool} {s : Settings} {r : LimitedRequest}
    {key : String} (h : r.key bracketedOk s = some key) : Written key := by
  obtain ⟨path, -, rfl⟩ := Option.map_eq_some_iff.1 h
  exact .limiter ..

theorem toList_limiterKey (ip path : String) : ∃ t, (limiterKey ip path).toList = 'r' :: 'l' :: t := by
  rw [show limiterKey ip path = "rl:" ++ ip ++ ":" ++ path from rfl]
  simp only [String.toList_append, List.append_assoc]
  exact ⟨_, rfl⟩

/-- Of the keys that are written, a route's pattern matches the key of its seats only. -/
theorem Written.isMatch_seats {key : String} (h : Written key) (r : Int) :
    Glob.isMatch (seatsPattern r) key = true ↔ key = seatsKey r := by
  cases h with
  | limiter ip path =>
    obtain ⟨t, ht⟩ := toList_limiterKey ip path
    constructor
    · intro hmatch
      obtain ⟨t', ht'⟩ := isMatch_seatsPattern.1 hmatch
      rw [ht'] at ht
      cases ht
    · intro heq
      rw [heq, toList_seatsKey] at ht
      cases ht
  | search q =>
    exact ⟨fun hmatch => absurd hmatch (not_isMatch_routesKey r q),
      fun heq => absurd heq.symm (seatsKey_ne_routesKey r q)⟩
  | seats r' => exact (isMatch_seatsKey r r').trans seatsKey_injective.eq_iff.symm

/-- Of the keys that are written, `routes:*` matches those of the searches only. -/
theorem Written.isMatch_routes {key : String} (h : Written key) :
    Glob.isMatch "routes:*" key = true ↔ ∃ q, key = routesKey q := by
  refine ⟨fun hmatch => ?_, fun ⟨q, hq⟩ => isMatch_routesPattern.2 (hq ▸ toList_routesKey q)⟩
  obtain ⟨t, ht⟩ := isMatch_routesPattern.1 hmatch
  cases h with
  | limiter ip path =>
    obtain ⟨t', ht'⟩ := toList_limiterKey ip path
    rw [ht'] at ht
    cases ht
  | search q => exact ⟨q, rfl⟩
  | seats r =>
    rw [toList_seatsKey] at ht
    cases ht

section

variable {ν : Type}

/-- `KEYS` and `DEL` on a keyspace whose entries may be of any type. -/
def onKeyspace : (c : Call) → Keyspace ν → Option (Except Exc (Reply c) × Keyspace ν)
  | .keys pattern, ks => some (.ok (ks.keysOf pattern), ks)
  | .delete keys, ks => some (.ok (), ks.del keys)
  | _, _ => none

theorem exec_onKeyspace {server : Server} {i : Nat} {c : Call} {w : World} {r : Except Exc (Reply c)}
    {ks : Keyspace Json} (h : onKeyspace c w.redis = some (r, ks)) :
    exec server .ok i c w = some (r, { w with redis := ks }) := by
  cases c with
  | keys pattern => cases h; rfl
  | delete keys => cases h; rfl
  | _ => cases h

/-- `delete_pattern` without interruption. -/
def runDeletePattern (pattern : String) (s : Session) (ks : Keyspace ν) :
    Option (Except Exc (Unit × Session) × Keyspace ν) :=
  Async.Coro.run onKeyspace (ExceptT.run ((CacheService.deletePattern pattern).run s)) ks

theorem runDeletePattern_eq (pattern : String) (s : Session) (ks : Keyspace ν) :
    runDeletePattern pattern s ks = some (.ok ((), s),
      if (ks.keysOf pattern).isEmpty then ks else ks.del (ks.keysOf pattern)) := by
  have hkeys : runDeletePattern pattern s ks = Async.Coro.run onKeyspace (ExceptT.run
      ((if !(ks.keysOf pattern).isEmpty then await (.delete (ks.keysOf pattern))
        else pure () : SessionM Unit).run s)) ks := rfl
  rw [hkeys]
  cases (ks.keysOf pattern).isEmpty <;> rfl

/-- **`delete_pattern` alone** removes the entries whose keys match. -/
theorem runDeletePattern_get (pattern : String) (s : Session) (ks : Keyspace ν) : ∃ ks',
    runDeletePattern pattern s ks = some (.ok ((), s), ks') ∧
      ∀ key, ks'.get key = if Glob.isMatch pattern key = true then none else ks.get key := by
  refine ⟨_, runDeletePattern_eq pattern s ks, fun key => ?_⟩
  have hmem : key ∈ ks.keysOf pattern ↔ (ks.get key).isSome ∧ Glob.isMatch pattern key = true :=
    Keyspace.mem_keysOf
  split
  · rename_i hempty
    rw [List.isEmpty_iff.1 hempty] at hmem
    split
    · rename_i hmatch
      simpa [hmatch] using hmem
    · rfl
  · rw [Keyspace.get_del]
    cases hget : ks.get key <;> simp [hmem, hget]

/-- **Invalidation is exact**: on a keyspace of the program's entries, a route's pattern removes the
entry of its seats and `routes:*` those of the searches, and neither touches another entry. -/
theorem deletePattern_exact (s : Session) (ks : Keyspace ν) (hks : ∀ key ∈ ks.keys, Written key) :
    (∀ r, ∃ ks', runDeletePattern (seatsPattern r) s ks = some (.ok ((), s), ks') ∧
      ks'.get (seatsKey r) = none ∧ ∀ key, key ≠ seatsKey r → ks'.get key = ks.get key) ∧
    ∃ ks', runDeletePattern "routes:*" s ks = some (.ok ((), s), ks') ∧
      (∀ q, ks'.get (routesKey q) = none) ∧
        ∀ key, (∀ q, key ≠ routesKey q) → ks'.get key = ks.get key := by
  -- A key without an entry is as before in either case.
  have hframe {key : String} {p : Prop} [Decidable p] (h : Written key → ¬ p) :
      (if p then none else ks.get key) = ks.get key := by
    by_cases hmem : key ∈ ks.keys
    · rw [if_neg (h (hks key hmem))]
    · have hnone : ks.get key = none := AList.lookup_eq_none.2 hmem
      rw [hnone, ite_self]
  refine ⟨fun r => ?_, ?_⟩
  · obtain ⟨ks', hrun, hget⟩ := runDeletePattern_get (seatsPattern r) s ks
    refine ⟨ks', hrun, ?_, fun key hne => ?_⟩
    · rw [hget, if_pos ((isMatch_seatsKey r r).2 rfl)]
    · rw [hget]
      exact hframe fun hw hmatch => hne ((hw.isMatch_seats r).1 hmatch)
  · obtain ⟨ks', hrun, hget⟩ := runDeletePattern_get "routes:*" s ks
    refine ⟨ks', hrun, fun q => ?_, fun key hne => ?_⟩
    · rw [hget, if_pos (isMatch_routesPattern.2 (toList_routesKey q))]
    · rw [hget]
      apply hframe
      intro hw hmatch
      obtain ⟨q, hq⟩ := hw.isMatch_routes.1 hmatch
      exact hne q hq

end

/-- Route 1 loses its seats, route 11 and the limiter keep their entries. -/
theorem deletePattern_route_one :
    let ks : Keyspace Unit := (((∅ : Keyspace Unit).set (seatsKey 1) ()).set (seatsKey 11) ()).set
      (limiterKey "seats:1:" "/api/v1/bookings") ()
    ∃ ks', runDeletePattern (seatsPattern 1) {} ks = some (.ok ((), {}), ks') ∧
      ks'.get (seatsKey 1) = none ∧ ks'.get (seatsKey 11) = ks.get (seatsKey 11) := by
  intro ks
  have hks : ∀ key ∈ ks.keys, Written key := by
    intro key hmem
    have hkeys : key ∈ [limiterKey "seats:1:" "/api/v1/bookings", seatsKey 11, seatsKey 1] := hmem
    simp only [List.mem_cons, List.not_mem_nil, or_false] at hkeys
    rcases hkeys with rfl | rfl | rfl
    · exact .limiter ..
    · exact .seats 11
    · exact .seats 1
  obtain ⟨ks', hrun, hgone, hkept⟩ := (deletePattern_exact {} ks hks).1 1
  exact ⟨ks', hrun, hgone, hkept _ fun h => absurd (seatsKey_injective h) (by decide)⟩

end BusBookings
