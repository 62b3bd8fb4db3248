import BusBookings.Proof.RateLimits
import Mathlib.Data.List.Forall2

/-!
# The rate limits while Redis fails

The visits that find Redis working are answered by those of them that came before (`visitAnswers_empty`).
So an outage can only let more visits pass, by no more than are made during it (`outages_only_admit`).
-/

namespace BusBookings

open Redis SlidingWindow

section

/-- The same visits; Redis works for each in `rs'` for which it works in `rs`. -/
def FewerOutages (rs' rs : List (RedisClient × Visit)) : Prop :=
  List.Forall₂ (fun r r' => r'.2 = r.2 ∧ (r.1 = .working → r'.1 = .working)) rs rs'

variable {luaText : Int → String} {bracketedOk : String → Bool} {s : Settings} {rs rs' : List (RedisClient × Visit)}
  {r : RedisClient × Visit}

/-- The answer to each visit. -/
theorem getElem?_visitAnswers (hfair : Fair luaText (limiterCalls bracketedOk s rs)) (i : Nat) :
    (visitAnswers luaText bracketedOk s ∅ rs)[i]? =
      rs[i]?.map fun r => visitAnswer bracketedOk s (rs.take i) r := by
  rw [visitAnswers_empty hfair, getElem?_onPrefixes, List.nil_append]

/-- Only the limit rejects. -/
theorem visitAnswer_eq_http {past : List (RedisClient × Visit)} {e : Rejection} :
    visitAnswer bracketedOk s past r = .error (.http e) ↔ r.1 = .working ∧
      r.2.key bracketedOk s ≠ none ∧ r.2.endpoint.limit s ≤ counted bracketedOk s past r ∧
        rejection s r.2 = e := by
  unfold visitAnswer
  split
  · rename_i hdisconnected
    simp [hdisconnected]
  · split
    · rename_i hkey
      simp [hkey]
    · rename_i hkey
      split
      · rename_i hover
        simp [hover.1, hkey, hover.2]
      · rename_i hunder
        simp only [reduceCtorEq, false_iff]
        exact fun h => hunder ⟨h.1, h.2.2.1⟩

/-! ## More outages -/

theorem FewerOutages.visits (h : FewerOutages rs' rs) : rs'.map (·.2) = rs.map (·.2) := by
  induction h with
  | nil => rfl
  | cons hr _ ih => rw [List.map_cons, List.map_cons, ih, hr.1]

theorem FewerOutages.calls (h : FewerOutages rs' rs) :
    limiterCalls bracketedOk s rs' = limiterCalls bracketedOk s rs := by
  have hmap (rs : List (RedisClient × Visit)) :
      limiterCalls bracketedOk s rs = (rs.map (·.2)).filterMap (Visit.call bracketedOk s) := by
    rw [List.filterMap_map]
    rfl
  rw [hmap, hmap, h.visits]

theorem FewerOutages.counted_le (h : FewerOutages rs' rs) (r : RedisClient × Visit) :
    counted bracketedOk s rs r ≤ counted bracketedOk s rs' r := by
  unfold counted
  induction h with
  | nil => exact Nat.le_refl 0
  | @cons x x' _ _ hx _ ih =>
    rw [List.countP_cons, List.countP_cons, hx.1]
    by_cases hw : x.1 = .working
    · simpa only [hw, hx.2 hw] using Nat.add_le_add_right ih _
    · simpa [hw] using Nat.le_add_right_of_le ih

theorem FewerOutages.getElem? (h : FewerOutages rs' rs) {i : Nat} (hi : rs[i]? = some r) :
    ∃ r', rs'[i]? = some r' ∧ r'.2 = r.2 ∧ (r.1 = .working → r'.1 = .working) := by
  obtain ⟨hlt, rfl⟩ := List.getElem?_eq_some_iff.1 hi
  have hlt' : i < rs'.length := List.Forall₂.length_eq h ▸ hlt
  exact ⟨rs'[i], List.getElem?_eq_getElem hlt', h.get hlt hlt'⟩

/-- A visit that is rejected with more outages is rejected with fewer. -/
theorem FewerOutages.rejected (h : FewerOutages rs' rs)
    (hfair : Fair luaText (limiterCalls bracketedOk s rs)) {i : Nat} {e : Rejection}
    (hrej : (visitAnswers luaText bracketedOk s ∅ rs)[i]? = some (.error (.http e))) :
    (visitAnswers luaText bracketedOk s ∅ rs')[i]? = some (.error (.http e)) := by
  rw [getElem?_visitAnswers hfair] at hrej
  obtain ⟨r, hr, hanswer⟩ := Option.map_eq_some_iff.1 hrej
  obtain ⟨hworks, hkey, hover, he⟩ := visitAnswer_eq_http.1 hanswer
  obtain ⟨r', hr', hv, hw⟩ := h.getElem? hr
  have hle : counted bracketedOk s (rs.take i) r ≤ counted bracketedOk s (rs'.take i) r' := by
    have : counted bracketedOk s (rs.take i) r = counted bracketedOk s (rs.take i) r' := by
      rw [counted, counted, hv]
    exact this ▸ FewerOutages.counted_le (List.forall₂_take i h) r'
  rw [getElem?_visitAnswers (h.calls ▸ hfair), hr', Option.map_some, visitAnswer_eq_http.2]
  rw [hv]
  exact ⟨hw hworks, hkey, hover.trans hle, he⟩

/-- **Redis's outages only let more visits pass**, and no more than are made during them. -/
theorem outages_only_admit (hfair : Fair luaText (limiterCalls bracketedOk s rs)) :
    (∀ (i : Nat) (r : RedisClient × Visit), rs[i]? = some r →
      (visitAnswers luaText bracketedOk s ∅ rs)[i]? = some
        (if r.1 = .disconnected then .ok ()
        else if r.2.key bracketedOk s = none then .error .value
        else if r.1 = .working ∧ r.2.endpoint.limit s ≤ counted bracketedOk s (rs.take i) r then
          .error (.http (rejection s r.2))
        else .ok ())) ∧
    (∀ rs', FewerOutages rs' rs → ∀ (i : Nat) (e : Rejection),
      (visitAnswers luaText bracketedOk s ∅ rs)[i]? = some (.error (.http e)) →
        (visitAnswers luaText bracketedOk s ∅ rs')[i]? = some (.error (.http e))) ∧
    ∀ (e : Endpoint) (ip path : String) (t : Int),
      (passed luaText bracketedOk s rs).countP (ofClient bracketedOk s e ip path t) ≤
        e.limit s + rs.countP fun r => ofClient bracketedOk s e ip path t r && r.1 ≠ .working := by
  refine ⟨fun i r hr => ?_, fun rs' h i e => h.rejected hfair, countP_ofClient_le hfair⟩
  rw [getElem?_visitAnswers hfair, hr, Option.map_some, visitAnswer]

end

/-- Redis fails for the second of three logins within a minute where one is allowed. -/
theorem outages_only_admit_login :
    let login (t : Int) : Visit := ⟨⟨.login, "", "bus.com", none, some "10.0.0.1"⟩, t, 1⟩
    let rs : List (RedisClient × Visit) :=
      [(.working, login 0), (.failing, login 1000), (.working, login 2000)]
    let answers := visitAnswers toString (fun _ => true) strictSettings ∅
    let rejected : Option (Except Refusal Unit) :=
      some (.error (.http (rejection strictSettings (login 2000))))
    (answers rs)[1]? = some (.ok ()) ∧ (answers rs)[2]? = rejected ∧
      (answers (rs.map fun r => (.working, r.2)))[2]? = rejected ∧
      (passed toString (fun _ => true) strictSettings rs).countP
        (ofClient (fun _ => true) strictSettings .login "10.0.0.1" "/api/v1/auth/login" 0) ≤ 2 := by
  intro login rs answers rejected
  have hfair : Fair toString (limiterCalls (fun _ => true) strictSettings rs) :=
    ⟨by decide +kernel, by decide +kernel⟩
  obtain ⟨hanswer, hfewer, hbound⟩ := outages_only_admit hfair
  have hworks : FewerOutages (rs.map fun r => (.working, r.2)) rs :=
    List.forall₂_map_right_iff.2 (List.forall₂_same.2 fun _ _ => ⟨rfl, fun _ => rfl⟩)
  have hthird : (answers rs)[2]? = rejected := (hanswer 2 _ rfl).trans (by decide +kernel)
  refine ⟨(hanswer 1 _ rfl).trans (by decide +kernel), hthird, hfewer _ hworks 2 _ hthird, ?_⟩
  exact (hbound .login "10.0.0.1" "/api/v1/auth/login" 0).trans_eq (by decide +kernel)

end BusBookings
