import BusBookings.Proof.Law
import BusBookings.Proof.Logins

/-!
# Requests of deactivated users

The dependency of the ordinary endpoints decodes the token and does not look at its user;
`get_current_admin_user` does. A token comes from a login that found its user active, and whether he is
active is changed directly only (`Standing`). So only the requests to the ordinary endpoints that are in
flight when their user has been deactivated are served although he may not act (`served_active`).
-/

namespace BusBookings

open Async

/-! ## Users of requests -/

/-- The user a request acts for. -/
def Request.user? : Request → Option Int
  | .createRoute u _ | .createBooking u _ _ | .myBookings u | .cancelBooking u _ => some u
  | _ => none

/-- The user of a request whose endpoint does not look at him. -/
def Request.unchecked? : Request → Option Int
  | .createBooking u _ _ | .myBookings u | .cancelBooking u _ => some u
  | _ => none

def Http.token? {Token : Type} : Http Token → Option Token
  | .createRoute auth _ | .createBooking auth _ | .myBookings auth | .cancelBooking auth _ => auth
  | _ => none

def Response.ok : Response → Bool
  | .error .. => false
  | _ => true

def ActiveUser (db : Db) (u : Int) : Prop := ∃ user ∈ db.users.rows, user.id = u ∧ user.isActive = true

instance (db : Db) (u : Int) : Decidable (ActiveUser db u) :=
  inferInstanceAs (Decidable (∃ user ∈ db.users.rows, _))

section

variable (server : Server) (sys₀ : System) (ls : List Label)

/-- User `u` was deactivated directly in the steps `ls`, and not activated since. -/
def Deactivated (u : Int) : Prop := ∃ ls₁ ls₂ sys₁, ls = ls₁ ++ .env (.setActive u false) :: ls₂ ∧
  (semantics server).steps sys₀ ls₁ = some sys₁ ∧ (∃ user ∈ sys₁.shared.db.users.rows, user.id = u) ∧
    .env (.setActive u true) ∉ ls₂

/-- `P` was true at a moment at which request `j` was in flight. -/
def During (j : Nat) (P : List Label → System → Prop) : Prop :=
  (semantics server).Once sys₀ (fun ls₁ sys₁ => (sys₁.request j).isSome ∧ sys₁.answer j = none ∧ P ls₁ sys₁) ls

/-- `P` was true at all of these moments. -/
def Throughout (j : Nat) (P : List Label → System → Prop) : Prop :=
  ∀ ls₁ sys₁, ls₁ <+: ls → (semantics server).steps sys₀ ls₁ = some sys₁ → (sys₁.request j).isSome →
    sys₁.answer j = none → P ls₁ sys₁

end

section

variable {Token : Type} (jwt : Jwt Token) (pydantic : Pydantic) (expireMinutes : Int)
  (log : Nat → Option (Http Token × Int))

/-- The token comes from a login that has been answered. -/
def Issued (sys : System) (token : Token) : Prop :=
  ∃ k sub t, sys.answer k = some (.token sub) ∧
    (Response.token sub).accessToken jwt expireMinutes t = some token

/-- A request that arrives has a token that was issued before, if it has one. -/
def Carries (sys : System) (l : Label) : Prop :=
  ∀ q h t token, l = .spawn q → log sys.tasks.length = some (h, t) → h.token? = some token →
    Issued jwt expireMinutes sys token

variable {jwt pydantic expireMinutes log} {server : Server} {sys₀ sys sys' : System}
  {a a' : Abs World Request Stage} {i : Nat} {q : Request} {g g' : Stage} {w w' : World} {c : Call}
  {o : Outcome} {l : Label} {call : Option Call} {u : Int} {sub : String} {ls : List Label}

/-- The user of a request is that of its token. -/
theorem Http.request_user {h : Http Token} {t : Int} (hq : h.request jwt pydantic t = some q)
    (hu : q.user? = some u) :
    ∃ token, h.token? = some token ∧ getCurrentUserId jwt t token = .ok u := by
  have hbearer {auth : Option Token} (h : bearer jwt t auth = .ok u) :
      ∃ token, auth = some token ∧ getCurrentUserId jwt t token = .ok u := by
    cases auth with
    | none => cases h
    | some token => exact ⟨token, rfl, h⟩
  cases h with
  | createRoute auth payload | myBookings auth | cancelBooking auth bookingId =>
    obtain ⟨userId, huser, hq⟩ := Option.bind_eq_some_iff.1 hq
    cases hq
    cases hu
    exact hbearer (toOption_eq_some huser)
  | createBooking auth body =>
    obtain ⟨userId, payload, huser, -, rfl⟩ := Http.request_of_createBooking hq
    cases hu
    exact hbearer huser
  | register body salt =>
    obtain ⟨payload, -, hq⟩ := Option.bind_eq_some_iff.1 hq
    cases hq
    cases hu
  | _ =>
    cases hq
    cases hu

/-- The token of a login is accepted as that of the user whose id is its `sub`. -/
theorem eq_of_accessToken {t₀ t n : Int} {token : Token}
    (h : (Response.token (toString n)).accessToken jwt expireMinutes t₀ = some token)
    (hu : getCurrentUserId jwt t token = .ok u) : u = n := by
  have hok : datetimeOk (t₀ + expireMinutes * 60000000) = true := by
    by_contra hok
    simp [Response.accessToken, createAccessToken, hok] at h
  rw [accessToken_token _ _ hok] at h
  cases h
  have hsub : (subject (toString n)).lookup "sub" = some (.str (toString n)) := AList.lookup_insert _
  rw [getCurrentUserId_encode, hsub] at hu
  split at hu
  · cases hu
  · replace hu : pyInt (.str (toString n)) = .ok u := hu
    rcases pyInt_str (toString n) with ⟨m, hm, hint⟩ | herr
    · rw [hint] at hu
      cases hu
      exact eq_of_intOfText hm
    · rw [herr] at hu
      cases hu

/-! ## The subjects of tokens -/

def Response.sub? : Response → Option String
  | .token sub => some sub
  | _ => none

/-- The subject of the token that a request has made. -/
def Stage.sub? : Stage → Option String
  | .storing _ _ _ resp | .ended resp => resp.sub?
  | .invalidating j | .deleting j _ | .invalidated j | .notifying j _ | .closing j => j.response.sub?
  | _ => none

theorem sub_afterDelete (j : Job) : (Stage.afterDelete j).sub? = j.response.sub? := by
  cases j <;> rfl

theorem sub_afterPublish (j : Job) : (Stage.afterPublish j).sub? = j.response.sub? := by
  cases j with
  | cancel b free => cases free <;> rfl
  | _ => rfl

theorem sub_errorResponse (e : Exc) : (errorResponse e).sub? = none := by
  cases e <;> rfl

/-- A token is made for an active user that a login has found. -/
theorem Reads.subject {v : Db} (h : Reads server v q c g g') (hsub : sub ∈ g'.sub?) :
    sub ∈ g.sub? ∨ g = .start ∧ ∃ user ∈ v.users.rows, sub = toString user.id ∧ user.isActive = true := by
  cases h with
  | again ha hp => cases ha <;> exact .inl hsub
  | login =>
    unfold loginCheck at hsub
    split at hsub
    · cases hsub
    · rename_i user hfound
      split at hsub
      · cases hsub
      · split at hsub
        · cases hsub
        · rename_i hactive
          cases hsub
          exact .inr ⟨rfl, user, List.mem_of_find?_eq_some hfound, rfl, by simpa using hactive⟩
  | route =>
    revert hsub
    exact routeCheck_ind (fun _ h => by cases h) (fun _ h => by cases h) _
  | seat =>
    revert hsub
    exact seatCheck_ind (fun _ h => by cases h) (fun h => by cases h) _
  | booking =>
    revert hsub
    exact cancelCheck_ind (fun _ h => by cases h) (fun _ h => by cases h) _
  | admin =>
    revert hsub
    exact adminCheck_ind (fun _ h => by cases h) (fun h => by cases h) _
  | email =>
    revert hsub
    exact registerCheck_ind (fun _ h => by cases h) (fun h => by cases h) _
  | creator | owner => exact .inl hsub
  | _ => cases hsub

theorem Step.subject (hinv : Inv server a) (hi : a.phase i = some (q, g))
    (hs : Step server q i o c g a.shared g' w')
    (hsub : sub ∈ g'.sub?) : sub ∈ g.sub? ∨
      ∃ user ∈ a.shared.db.users.rows, sub = toString user.id ∧ user.isActive = true := by
  cases hs with
  | read hr =>
    rcases hr.subject hsub with hold | ⟨rfl, user, huser, hid, hactive⟩
    · exact .inl hold
    · rw [hinv.view hi (by simp)] at huser
      exact .inr ⟨user, huser, hid, hactive⟩
  | write hw hch => cases hw <;> cases hsub
  | cachedRoutes | cachedSeats =>
    revert hsub
    exact cacheCheck_ind (fun _ h => by cases h) (fun h => by cases h) (fun _ h => by cases h) _
  | store => exact .inl hsub
  | keys =>
    unfold Stage.afterKeys at hsub
    split at hsub
    · rw [sub_afterDelete] at hsub
      exact .inl hsub
    · exact .inl hsub
  | delete =>
    rw [sub_afterDelete] at hsub
    exact .inl hsub
  | publish =>
    rw [sub_afterPublish] at hsub
    exact .inl hsub
  | commit => exact .inl hsub
  | rollback =>
    rw [show (Stage.ended (errorResponse _)).sub? = none from sub_errorResponse _] at hsub
    cases hsub
  | _ => cases hsub

/-! ## Direct changes -/

theorem Deactivated.now (h : (semantics server).steps sys₀ ls = some sys)
    (hu : ∃ user ∈ sys.shared.db.users.rows, user.id = u) :
    Deactivated server sys₀ (ls ++ [.env (.setActive u false)]) u :=
  ⟨ls, [], sys, rfl, h, hu, by simp⟩

theorem Deactivated.snoc (h : Deactivated server sys₀ ls u) (hl : l ≠ .env (.setActive u true)) :
    Deactivated server sys₀ (ls ++ [l]) u := by
  obtain ⟨ls₁, ls₂, sys₁, rfl, hsteps, hu, hnot⟩ := h
  exact ⟨ls₁, ls₂ ++ [l], sys₁, by simp, hsteps, hu, by simp [hnot, Ne.symm hl]⟩

theorem Deactivated.of_snoc (h : Deactivated server sys₀ (ls ++ [l]) u)
    (hsteps : (semantics server).steps sys₀ ls = some sys) :
    (l = .env (.setActive u false) ∧ ∃ user ∈ sys.shared.db.users.rows, user.id = u) ∨
      (Deactivated server sys₀ ls u ∧ l ≠ .env (.setActive u true)) := by
  obtain ⟨ls₁, ls₂, sys₁, heq, hsteps₁, hu, hnot⟩ := h
  rcases List.eq_nil_or_concat ls₂ with rfl | ⟨ls₂, l', rfl⟩
  · obtain ⟨rfl, hlast⟩ := List.append_inj' heq rfl
    obtain rfl := List.singleton_inj.1 hlast
    rw [hsteps, Option.some.injEq] at hsteps₁
    exact .inl ⟨rfl, hsteps₁ ▸ hu⟩
  · rw [List.concat_eq_append, ← List.cons_append, ← List.append_assoc] at heq
    obtain ⟨rfl, hlast⟩ := List.append_inj' heq rfl
    obtain rfl := List.singleton_inj.1 hlast
    rw [List.concat_eq_append, List.mem_append, not_or] at hnot
    exact .inr ⟨⟨ls₁, ls₂, sys₁, rfl, hsteps₁, hu, hnot.1⟩, fun hl => hnot.2 (by simp [hl])⟩

/-- User `u` exists, and is active or has been deactivated. -/
def Standing (server : Server) (sys₀ : System) (ls : List Label) (a : Abs World Request Stage) (u : Int) : Prop :=
  ∃ user ∈ a.shared.db.users.rows, user.id = u ∧ (user.isActive = true ∨ Deactivated server sys₀ ls u)

/-- Direct changes say who has been deactivated; who has a token, or a request in flight, exists. -/
structure Activity (server : Server) (sys₀ : System) (ls : List Label) (a : Abs World Request Stage) : Prop where
  inactive : ∀ u, Deactivated server sys₀ ls u →
    ∃ user ∈ a.shared.db.users.rows, user.id = u ∧ user.isActive = false
  subjects : ∀ i q g sub, a.phase i = some (q, g) → sub ∈ g.sub? →
    ∃ u, sub = toString u ∧ Standing server sys₀ ls a u
  requests : ∀ i q g u, a.phase i = some (q, g) → q.unchecked? = some u → Standing server sys₀ ls a u

theorem Standing.step (h : Standing server sys₀ ls a u) (hv : View server sys a)
    (hsteps : (semantics server).steps sys₀ ls = some sys) (hs : UsersStep a l a'.shared.db.users.rows) :
    Standing server sys₀ (ls ++ [l]) a' u := by
  obtain ⟨user, huser, rfl, hstanding⟩ := h
  refine ⟨onUser l user, hs.user huser, onUser_id l user, ?_⟩
  cases hactive : (onUser l user).isActive with
  | true => exact .inl rfl
  | false =>
    right
    rcases isActive_onUser hactive with hold | rfl
    · refine (hstanding.resolve_left (by simp [hold])).snoc fun hl => ?_
      subst hl
      simp [onUser] at hactive
    · exact Deactivated.now hsteps ⟨user, hv.shared ▸ huser, rfl⟩

/-- Who carries a token that was issued exists. -/
theorem Activity.arrives (h : Activity server sys₀ ls a) (hv : View server sys a) (hinv : Inv server a)
    (harr : Arrives jwt pydantic log sys (.spawn q)) (hcar : Carries jwt expireMinutes log sys (.spawn q))
    (hu : q.unchecked? = some u) : Standing server sys₀ ls a u := by
  obtain ⟨http, t, hlog, hq⟩ := harr q rfl
  have huser : q.user? = some u := by cases q <;> first | exact hu | cases hu
  obtain ⟨token, htoken, haccept⟩ := Http.request_user hq huser
  obtain ⟨k, sub, t₀, hans, hissue⟩ := hcar q http t token rfl hlog htoken
  obtain ⟨q', hk⟩ := (answer_iff hv hinv).1 hans
  obtain ⟨u', rfl, hstanding⟩ := h.subjects k q' _ sub hk rfl
  exact eq_of_accessToken hissue haccept ▸ hstanding

theorem Activity.step (h : Activity server sys₀ ls a) (hv : View server sys a) (hinv : Inv server a)
    (hsteps : (semantics server).steps sys₀ ls = some sys)
    (hl : Arrives jwt pydantic log sys l ∧ Carries jwt expireMinutes log sys l)
    (hs : (protocol server).Step envStep a l call a') : Activity server sys₀ (ls ++ [l]) a' := by
  have husers := hinv.users_step hs
  refine ⟨fun u hgone => ?_, fun i q g sub hi hsub => ?_, fun i q g u hi hu => ?_⟩
  · rcases hgone.of_snoc hsteps with ⟨rfl, user, huser, rfl⟩ | ⟨hgone, hl⟩
    · exact ⟨onUser _ user, husers.user (hv.shared ▸ huser), onUser_id _ user, by simp [onUser]⟩
    · obtain ⟨user, huser, rfl, hinactive⟩ := h.inactive u hgone
      refine ⟨onUser l user, husers.user huser, onUser_id l user, ?_⟩
      cases hactive : (onUser l user).isActive with
      | false => rfl
      | true =>
        rcases isActive_onUser hactive with hold | hdirect
        · rw [hinactive] at hold
          cases hold
        · exact absurd hdirect hl
  · have hkept : (∃ u, sub = toString u ∧ Standing server sys₀ ls a u) →
        ∃ u, sub = toString u ∧ Standing server sys₀ (ls ++ [l]) a' u :=
      fun ⟨u, hu, hstanding⟩ => ⟨u, hu, hstanding.step hv hsteps husers⟩
    rcases hs.phase_eq hi with hold | ⟨-, -, rfl⟩ | ⟨o, c, g₀, -, -, hi₀, -, hst⟩
    · exact hkept (h.subjects i q g sub hold hsub)
    · cases hsub
    · rcases hst.subject hinv hi₀ hsub with hsub₀ | ⟨user, huser, hid, hactive⟩
      · exact hkept (h.subjects i q g₀ sub hi₀ hsub₀)
      · exact hkept ⟨user.id, hid, user, huser, rfl, .inl hactive⟩
  · rcases hs.phase_eq hi with hold | ⟨rfl, -, -⟩ | ⟨o, c, g₀, -, -, hi₀, -, -⟩
    · exact (h.requests i q g u hold hu).step hv hsteps husers
    · exact (h.arrives hv hinv hl.1 hl.2 hu).step hv hsteps husers
    · exact (h.requests i q g₀ u hi₀ hu).step hv hsteps husers

/-- A user of an ordinary request is active unless he has been deactivated. -/
theorem Activity.active_iff (h : Activity server sys₀ ls a) (hi : a.phase i = some (q, g))
    (hu : q.unchecked? = some u) : ActiveUser a.shared.db u ↔ ¬ Deactivated server sys₀ ls u := by
  constructor
  · intro ⟨user, huser, hid, hactive⟩ hgone
    obtain ⟨user', huser', hid', hinactive⟩ := h.inactive u hgone
    obtain rfl := Table.eq_of_key huser huser' (hid.trans hid'.symm)
    rw [hactive] at hinactive
    cases hinactive
  · intro hnot
    obtain ⟨user, huser, hid, hstanding⟩ := h.requests i q g u hi hu
    exact ⟨user, huser, hid, hstanding.resolve_right hnot⟩

/-! ## The check of `create_route` -/

/-- A request is past the check of its user. -/
def Stage.Passed : Stage → Prop
  | .start | .failing _ => False
  | .ended resp => resp.ok = true
  | _ => True

/-- A request in flight. -/
theorem inFlight_of_phase (hv : View server sys a) (hinv : Inv server a) (hi : a.phase i = some (q, g))
    (hg : ∀ resp, g ≠ .ended resp) : (sys.request i).isSome ∧ sys.answer i = none := by
  refine ⟨by rw [hv.request hi]; rfl, ?_⟩
  cases hans : sys.answer i with
  | none => rfl
  | some resp =>
    obtain ⟨q', hi'⟩ := (answer_iff hv hinv).1 hans
    rw [hi] at hi'
    cases hi'
    exact absurd rfl (hg resp)

/-- Only an active user passes the check of `create_route`. -/
theorem Step.passed {p : RouteCreate} (hinv : Inv server a) (hi : a.phase i = some (.createRoute u p, g))
    (hw : Waits (.createRoute u p) g c) (hs : Step server (.createRoute u p) i o c g a.shared g' w')
    (hg' : g'.Passed) : g.Passed ∨ (∀ resp, g ≠ .ended resp) ∧ ActiveUser a.shared.db u := by
  cases g with
  | start =>
    refine .inr ⟨by simp, ?_⟩
    cases hs with
    | fail => exact hg'.elim
    | read hr =>
      cases hr with
      | again ha => cases ha
      | lost hno hex => obtain ⟨_, _, ha⟩ := hex; cases ha
      | admin =>
        rw [hinv.view hi (by simp)] at hg'
        unfold adminCheck at hg'
        split at hg'
        · exact hg'.elim
        · rename_i user hfound
          obtain ⟨hmem, hid⟩ := Table.find?_eq_some.1 hfound
          split at hg'
          · exact hg'.elim
          · rename_i hactive
            exact ⟨user, hmem, hid, by simpa using hactive⟩
    | write hwr => cases hwr
    | writeFails hwr => cases hwr
    | cachedRoutes hq | cachedSeats hq => cases hq
  | failing e =>
    obtain ⟨e', -, rfl⟩ := hs.of_failing hw
    cases e' <;> cases hg'
  | ended resp => exact absurd hw not_waits_ended
  | _ => exact .inl trivial

/-- Who got past the check of `create_route` was active while his request was in flight. -/
def Cleared (server : Server) (sys₀ : System) (ls : List Label) (a : Abs World Request Stage) : Prop :=
  ∀ i u p g, a.phase i = some (.createRoute u p, g) → g.Passed →
    During server sys₀ ls i fun _ sys₁ => ActiveUser sys₁.shared.db u

theorem Cleared.step (h : Cleared server sys₀ ls a) (hv : View server sys a) (hinv : Inv server a)
    (hsteps : (semantics server).steps sys₀ ls = some sys)
    (hs : (protocol server).Step envStep a l call a') : Cleared server sys₀ (ls ++ [l]) a' := by
  intro i u p g hi hpassed
  rcases hs.phase_eq hi with hold | ⟨-, -, rfl⟩ | ⟨o, c, g₀, -, -, hi₀, hw, hst⟩
  · exact (h i u p g hold hpassed).append [l]
  · exact hpassed.elim
  · rcases hst.passed hinv hi₀ hw hpassed with hg₀ | ⟨hg₀, hactive⟩
    · exact (h i u p g₀ hi₀ hg₀).append [l]
    · obtain ⟨hreq, hans⟩ := inFlight_of_phase hv hinv hi₀ hg₀
      rw [hv.shared] at hactive
      exact (Semantics.Once.now hsteps ⟨hreq, hans, hactive⟩).append [l]

theorem activity (h₀ : Start sys₀)
    (hr : Trace (semantics server) (fun sys l => Arrives jwt pydantic log sys l ∧
      Carries jwt expireMinutes log sys l) sys₀ ls sys) :
    ∃ a, View server sys a ∧ Inv server a ∧ Activity server sys₀ ls a ∧ Cleared server sys₀ ls a := by
  obtain ⟨users, nextUser, hu, -, rfl⟩ := h₀
  refine Trace.invariant
    (I := fun ls a => Inv server a ∧ Activity server _ ls a ∧ Cleared server _ ls a) handler_sim
    (fun _ _ _ _ _ _ hpre hl _ hv _ ⟨hinv, hact, hcl⟩ hs => ⟨hinv.step hs,
      hact.step hv hinv hpre.steps hl hs, hcl.step hv hinv hpre.steps hs⟩)
    hr (Refines.initial _) ⟨inv_start hu, ⟨?_, fun i q g sub hi => (by cases hi), fun i q g u hi => (by
      cases hi)⟩, fun i u p g hi => (by cases hi)⟩
  rintro u ⟨ls₁, ls₂, sys₁, heq, -⟩
  simp at heq

/-! ## Which requests are served -/

/-- At each moment, the user of an ordinary request is active unless he has been deactivated. -/
theorem moment_iff (h₀ : Start sys₀)
    (hr : Trace (semantics server) (fun sys l => Arrives jwt pydantic log sys l ∧
      Carries jwt expireMinutes log sys l) sys₀ ls sys)
    (hreq : sys.request i = some q) (hu : q.unchecked? = some u) {ls₁ : List Label} {sys₁ : System}
    (hpre : ls₁ <+: ls) (hsteps : (semantics server).steps sys₀ ls₁ = some sys₁)
    (hsome : (sys₁.request i).isSome) : ActiveUser sys₁.shared.db u ↔ ¬ Deactivated server sys₀ ls₁ u := by
  obtain ⟨q₁, hreq₁⟩ := Option.isSome_iff_exists.1 hsome
  obtain ⟨ls₂, hrest⟩ := Semantics.steps_of_prefix hpre hsteps hr.steps
  obtain rfl : q₁ = q := Option.some.inj ((Semantics.steps_request hrest hreq₁).symm.trans hreq)
  obtain ⟨a, hv, -, hact, -⟩ := activity h₀ (hr.of_prefix hpre hsteps)
  obtain ⟨g, hi⟩ := hv.phase hreq₁
  rw [← hv.shared]
  exact hact.active_iff hi hu

/-- **Which successes are those of active users**: a route is created by a user who was active while his
request was in flight; the user of another request exists, and he was active at exactly those moments of its
handling at which he had not been deactivated directly. -/
theorem served_active (h₀ : Start sys₀)
    (hr : Trace (semantics server) (fun sys l => Arrives jwt pydantic log sys l ∧
      Carries jwt expireMinutes log sys l) sys₀ ls sys)
    (hreq : sys.request i = some q) {resp : Response} (hans : sys.answer i = some resp)
    (hok : resp.ok = true) :
    (∀ u p, q = .createRoute u p → During server sys₀ ls i fun _ sys₁ => ActiveUser sys₁.shared.db u) ∧
    ∀ u, q.unchecked? = some u →
      ((Throughout server sys₀ ls i fun _ sys₁ => ActiveUser sys₁.shared.db u) ↔
        Throughout server sys₀ ls i fun ls₁ _ => ¬ Deactivated server sys₀ ls₁ u) ∧
      ((During server sys₀ ls i fun _ sys₁ => ActiveUser sys₁.shared.db u) ↔
        During server sys₀ ls i fun ls₁ _ => ¬ Deactivated server sys₀ ls₁ u) := by
  refine ⟨fun u p hq => ?_, fun u hu => ⟨?_, ?_⟩⟩
  · subst hq
    obtain ⟨a, hv, hinv, -, hcleared⟩ := activity h₀ hr
    exact hcleared i u p _ (ended_of_answer hv hinv hreq hans) hok
  · constructor
    · intro h ls₁ sys₁ hpre hsteps hsome hnone
      exact (moment_iff h₀ hr hreq hu hpre hsteps hsome).1 (h ls₁ sys₁ hpre hsteps hsome hnone)
    · intro h ls₁ sys₁ hpre hsteps hsome hnone
      exact (moment_iff h₀ hr hreq hu hpre hsteps hsome).2 (h ls₁ sys₁ hpre hsteps hsome hnone)
  · constructor
    · intro ⟨ls₁, sys₁, hpre, hsteps, hsome, hnone, h⟩
      exact ⟨ls₁, sys₁, hpre, hsteps, hsome, hnone, (moment_iff h₀ hr hreq hu hpre hsteps hsome).1 h⟩
    · intro ⟨ls₁, sys₁, hpre, hsteps, hsome, hnone, h⟩
      exact ⟨ls₁, sys₁, hpre, hsteps, hsome, hnone, (moment_iff h₀ hr hreq hu hpre hsteps hsome).2 h⟩

end

/-- Cid registers, logs in and asks for his bookings. -/
def cidArrivals : Nat → Option (Http (Claims × Int) × Int)
  | 0 => some (.register (someBody "cid@bus.com" "password") "salt", 0)
  | 1 => some (.login "cid@bus.com" "password", 0)
  | 2 => some (.myBookings (some (subject "4", 1800000000)), 0)
  | _ => none

/-- Cid uses his token when he has it. -/
def cidHasToken (sys : System) : Label → Bool
  | .spawn _ => sys.tasks.length ≠ 2 || sys.answer 1 = some (.token "4")
  | _ => true

theorem carries_cid {sys : System} {l : Label} (h : cidHasToken sys l = true) :
    Carries plainJwt 30 cidArrivals sys l := by
  intro q http t token hl hlog htoken
  subst hl
  match hn : sys.tasks.length with
  | 0 | 1 =>
    rw [hn] at hlog
    cases hlog
    cases htoken
  | 2 =>
    rw [hn] at hlog
    cases hlog
    cases htoken
    simp only [cidHasToken, hn] at h
    exact ⟨1, "4", 0, by simpa using h, rfl⟩
  | n + 3 =>
    rw [hn] at hlog
    cases hlog

/-- Cid has registered and logged in. -/
def cidLoggedIn : List Label :=
  .spawn (.register (someAccount "cid@bus.com" "password" (by decide)) "salt") :: calls 0 4 ++
    .spawn (.login "cid@bus.com" "password") :: calls 1 2

/-- Cid's bookings are listed. -/
def cidListed : List Label := .spawn (.myBookings 4) :: calls 2 2

theorem served_active_cid : ∃ sys : System, sys.answer 2 = some (.bookings []) ∧
    Throughout bcryptServer someStart (cidLoggedIn ++ cidListed) 2 fun _ sys₁ =>
      ActiveUser sys₁.shared.db 4 := by
  have hruns : ((semantics bcryptServer).stepsIf
    (fun sys l => Arrives plainJwt mailPydantic cidArrivals sys l ∧ cidHasToken sys l = true)
      someStart (cidLoggedIn ++ cidListed)).any (fun sys =>
        sys.request 2 = some (.myBookings 4) ∧ sys.answer 2 = some (.bookings [])) = true := by
    decide +kernel
  obtain ⟨sys, hsys, hP⟩ := (Option.any_eq_true _ _).1 hruns
  obtain ⟨hreq, hans⟩ := of_decide_eq_true hP
  have htrace : Trace (semantics bcryptServer)
    (fun sys l => Arrives plainJwt mailPydantic cidArrivals sys l ∧ Carries plainJwt 30 cidArrivals sys l)
      someStart (cidLoggedIn ++ cidListed) sys :=
    (Trace.of_stepsIf hsys).mono fun s l ⟨harr, htoken⟩ => ⟨harr, carries_cid htoken⟩
  refine ⟨sys, hans, ((served_active start_someStart htrace hreq hans rfl).2 4 rfl).1.2 ?_⟩
  rintro ls₁ sys₁ hpre - - - ⟨ls₂, ls₃, -, rfl, -⟩
  have hmem : .env (.setActive 4 false) ∈ cidLoggedIn ++ cidListed := hpre.subset (by simp)
  simp [cidLoggedIn, cidListed, calls] at hmem

/-- Cid is deactivated after he has logged in, and his bookings are listed. -/
theorem served_deactivated : ∃ sys, Trace (semantics bcryptServer) (fun sys l =>
      Arrives plainJwt mailPydantic cidArrivals sys l ∧ Carries plainJwt 30 cidArrivals sys l) someStart
      (cidLoggedIn ++ .env (.setActive 4 false) :: cidListed) sys ∧
    sys.request 2 = some (.myBookings 4) ∧ sys.answer 2 = some (.bookings []) ∧
    ¬ During bcryptServer someStart (cidLoggedIn ++ .env (.setActive 4 false) :: cidListed) 2 fun _ sys₁ =>
      ActiveUser sys₁.shared.db 4 := by
  have hruns : ((semantics bcryptServer).stepsIf
    (fun sys l => Arrives plainJwt mailPydantic cidArrivals sys l ∧
      cidHasToken sys l = true) someStart
      (cidLoggedIn ++ .env (.setActive 4 false) :: cidListed)).any (fun sys =>
        sys.request 2 = some (.myBookings 4) ∧ sys.answer 2 = some (.bookings [])) = true := by
    decide +kernel
  have hinactive : (cidLoggedIn ++ .env (.setActive 4 false) :: cidListed).inits.all (fun ls₁ =>
      ((semantics bcryptServer).steps someStart ls₁).all fun sys₁ => ¬ ((sys₁.request 2).isSome ∧
        sys₁.answer 2 = none ∧ ActiveUser sys₁.shared.db 4)) = true := by
    decide +kernel
  obtain ⟨sys, hsys, hP⟩ := (Option.any_eq_true _ _).1 hruns
  obtain ⟨hreq, hans⟩ := of_decide_eq_true hP
  refine ⟨sys, (Trace.of_stepsIf hsys).mono fun s l ⟨harr, htoken⟩ => ⟨harr, carries_cid htoken⟩,
    hreq, hans, ?_⟩
  intro ⟨ls₁, sys₁, hpre, hsteps, hmoment⟩
  have hall := List.all_eq_true.1 hinactive ls₁ ((List.mem_inits _ _).2 hpre)
  rw [hsteps, Option.all_some] at hall
  exact of_decide_eq_true hall hmoment

end BusBookings
