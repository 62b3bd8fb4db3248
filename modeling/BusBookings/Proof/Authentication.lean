import BusBookings.Proof.Rights

/-!
# Whoever acts has logged in

A token names its user and nothing else, so what a request does is only as good as the way to its
token. When no token but those of the service arrives (`Carries`), a request that acts for a user
arrives with a token that a login for the same user was answered with, and whose lifetime is not over
(`authenticated`); the login found the user's e-mail and password while he was active. So there is
such a login before each committed route, booking and cancellation, and before anybody's bookings are
listed (`acts_after_login`).
-/

namespace BusBookings

open Async ReadCommitted

/-- The user `u` is active, and these are his e-mail and his password. -/
def LogsInAs (server : Server) (db : Db) (username password : String) (u : Int) : Prop :=
  ∃ user ∈ db.users.rows, user.id = u ∧ user.email = username ∧
    server.checkpw password user.hashedPassword = true ∧ user.isActive = true

section

variable (server : Server) (sys₀ : System)

/-- Request `j` has logged `u` in. -/
def Granted (ls : List Label) (sys : System) (j : Nat) (u : Int) : Prop := ∃ username password,
  sys.request j = some (.login username password) ∧ sys.answer j = some (.token (toString u)) ∧
    (semantics server).Once sys₀ (fun _ sys => InFlight sys j (.login username password) ∧
      LogsInAs server sys.shared.db username password u) ls

variable {Token : Type} (jwt : Jwt Token) (expireMinutes : Int)
  (log : Nat → Option (Http Token × Int))

/-- Request `i` has come with a token that a login of `u` before it was answered with, and that was
not too old. -/
def Authenticated (ls : List Label) (i : Nat) (u : Int) : Prop :=
  ∃ http t token, log i = some (http, t) ∧ http.token? = some token ∧
    (semantics server).Once sys₀ (fun ls sys => sys.request i = none ∧
      ∃ j t₀, Granted server sys₀ ls sys j u ∧
        (Response.token (toString u)).accessToken jwt expireMinutes t₀ = some token ∧
        second t ≤ second (t₀ + expireMinutes * 60000000)) ls

end

section

variable {Token : Type} {jwt : Jwt Token} {pydantic : Pydantic} {expireMinutes : Int}
  {log : Nat → Option (Http Token × Int)} {server : Server} {sys₀ sys sys' : System}
  {ls : List Label} {a a' : Abs World Request Stage} {i j : Nat} {q : Request} {g : Stage} {l : Label}
  {call : Option Call} {u : Int} {b : Booking}

/-! ## Tokens -/

/-- A token of the service that is accepted is not too old. -/
theorem live_of_accessToken {t₀ t : Int} {sub : String} {token : Token}
    (h : (Response.token sub).accessToken jwt expireMinutes t₀ = some token)
    (hu : getCurrentUserId jwt t token = .ok u) :
    second t ≤ second (t₀ + expireMinutes * 60000000) := by
  have hok : datetimeOk (t₀ + expireMinutes * 60000000) = true := by
    by_contra hok
    simp [Response.accessToken, createAccessToken, hok] at h
  rw [accessToken_token _ _ hok] at h
  cases h
  rw [getCurrentUserId_encode] at hu
  split at hu
  · cases hu
  · omega

theorem exists_request {resp : Response} (h : sys.answer i = some resp) :
    ∃ q, sys.request i = some q := by
  obtain ⟨task, htask, -⟩ := Option.bind_eq_some_iff.1 h
  exact ⟨task.req, by simp [System.request, htask]⟩

/-- A token is the answer to a login of its user. -/
theorem granted_of_token (h₀ : Start sys₀) (h : (semantics server).steps sys₀ ls = some sys)
    {sub : String} (hans : sys.answer j = some (.token sub)) :
    ∃ u, sub = toString u ∧ Granted server sys₀ ls sys j u := by
  obtain ⟨q, hreq⟩ := exists_request hans
  obtain ⟨username, password, rfl, ls₁, sys₁, hpre, hs₁, hfly, user, hmem, hemail, hpassword,
    hactive, rfl⟩ := vouched_of_answer h₀ h hreq hans
  exact ⟨user.id, rfl, username, password, hreq, hans, ls₁, sys₁, hpre, hs₁, hfly, user, hmem, rfl,
    hemail, hpassword, hactive⟩

/-- A request that arrives for a user is authenticated. -/
theorem authenticated_of_arrives (h₀ : Start sys₀) (h : (semantics server).steps sys₀ ls = some sys)
    (harr : Arrives jwt pydantic log sys (.spawn q))
    (hcar : Carries jwt expireMinutes log sys (.spawn q)) (hu : q.user? = some u) :
    Authenticated server sys₀ jwt expireMinutes log ls sys.tasks.length u := by
  obtain ⟨http, t, hlog, hq⟩ := harr q rfl
  obtain ⟨token, htoken, haccept⟩ := Http.request_user hq hu
  obtain ⟨k, sub, t₀, hans, hissue⟩ := hcar q http t token rfl hlog htoken
  obtain ⟨u', rfl, hgranted⟩ := granted_of_token h₀ h hans
  obtain rfl := eq_of_accessToken hissue haccept
  exact ⟨http, t, token, hlog, htoken, .now h ⟨by simp [System.request], k, t₀, hgranted, hissue,
    live_of_accessToken hissue haccept⟩⟩

theorem Authenticated.append (h : Authenticated server sys₀ jwt expireMinutes log ls i u)
    (ls' : List Label) : Authenticated server sys₀ jwt expireMinutes log (ls ++ ls') i u := by
  obtain ⟨http, t, token, hlog, htoken, h⟩ := h
  exact ⟨http, t, token, hlog, htoken, h.append ls'⟩

/-- In a run in which no other tokens arrive, a request that acts for a user is authenticated. -/
theorem authenticated (h₀ : Start sys₀)
    (hr : Trace (semantics server) (fun sys l => Arrives jwt pydantic log sys l ∧
      Carries jwt expireMinutes log sys l) sys₀ ls sys)
    (hreq : sys.request i = some q) (hu : q.user? = some u) :
    Authenticated server sys₀ jwt expireMinutes log ls i u := by
  induction hr with
  | nil =>
    obtain ⟨users, nextUser, -, -, rfl⟩ := h₀
    cases hreq
  | @snoc ls l sys sys' htr hl hstep ih =>
    by_cases hold : sys.request i = some q
    · exact (ih hold).append _
    · -- only an arrival adds a request
      rw [← System.requests_getElem?, step_requests hstep] at hreq
      rw [← System.requests_getElem?] at hold
      cases l with
      | run | env => exact absurd (by simpa using hreq) hold
      | spawn q' =>
        have hlast : i = sys.tasks.length ∧ q' = q := by
          rw [List.getElem?_append] at hreq
          split at hreq
          · exact absurd hreq hold
          · rename_i hge
            have hlen : sys.requests.length = sys.tasks.length := by simp [System.requests]
            obtain ⟨hlt, hget⟩ := List.getElem?_eq_some_iff.1 hreq
            simp only [List.length_cons, List.length_nil] at hlt
            exact ⟨by omega, by simpa using hget⟩
        obtain ⟨rfl, rfl⟩ := hlast
        exact (authenticated_of_arrives h₀ htr.steps hl.1 hl.2 hu).append _

/-! ## Bookings -/

/-- The requests that the bookings come from. -/
structure Requested (a : Abs World Request Stage) (b : Booking) : Prop where
  created : ∃ i, a.phase i =
    some (.createBooking b.userId b.routeId b.seatId, .ended (.created (Db.setStatus .confirmed b)))
  cancelled : b.status = .cancelled →
    ∃ i, a.phase i = some (.cancelBooking b.userId b.id, .ended (.cancelled b))

theorem Requested.step (h : Requested a b) (hs : (protocol server).Step envStep a l call a') :
    Requested a' b where
  created := by
    obtain ⟨i, hi⟩ := h.created
    exact ⟨i, hs.phase_keep hi fun _ => id⟩
  cancelled hb := by
    obtain ⟨i, hi⟩ := h.cancelled hb
    exact ⟨i, hs.phase_keep hi fun _ => id⟩

/-- A booking that a step changes is committed by the request that has made it, or that cancels it. -/
theorem Inv.requested_commit (hinv : Inv server a)
    (hall : ∀ b ∈ a.shared.db.bookings.rows, Requested a b) {j : Job}
    (hi : a.phase i = some (q, .closing j)) (hs : (protocol server).Step envStep a l call
      ⟨a.shared.commit i, Function.update a.phase i (some (q, .ended j.response))⟩)
    (hb : b ∈ (a.shared.commit i).db.bookings.rows) :
    Requested ⟨a.shared.commit i, Function.update a.phase i (some (q, .ended j.response))⟩ b := by
  have hfacts : j.Facts server a.shared.db q := hinv.facts i _ _ hi
  cases j with
  | create b₀ route =>
    obtain ⟨u, r, s, rfl, hres⟩ := hfacts
    rw [(hinv.commit_create hi).2.2.2, List.mem_append, List.mem_singleton] at hb
    rcases hb with hb | rfl
    · exact (hall b hb).step hs
    · refine ⟨⟨i, ?_⟩, fun hc => by cases hc⟩
      rw [hres.booking]
      exact Function.update_self ..
  | cancel b₀ free =>
    obtain ⟨u, rfl, hheld, -⟩ := hfacts
    rw [(hinv.commit_cancel hi).2.2.2] at hb
    obtain ⟨y, hy, rfl⟩ := Db.mem_updateBooking.1 hb
    have hold := (hall y hy).step hs
    split
    · rename_i hid
      -- the row is the one that was read, cancelled or not
      have hrow : Db.setStatus .cancelled y = Db.setStatus .cancelled b₀ := by
        rcases hheld.row with hb₀ | hb₀
        · rw [a.shared.db.bookings.eq_of_key hy hb₀ hid]
        · rw [a.shared.db.bookings.eq_of_key hy hb₀ hid]
          rfl
      refine ⟨hold.created, fun _ => ⟨i, ?_⟩⟩
      rw [hrow]
      simp [← hheld.user, Job.response, Db.setStatus]
    · exact hold
  | _ =>
    have hview : (a.shared.commit i).db = _ := hinv.view hi (by simp)
    rw [hview] at hb
    exact (hall b hb).step hs

theorem Inv.requested_step (hinv : Inv server a)
    (hall : ∀ b ∈ a.shared.db.bookings.rows, Requested a b)
    (hs : (protocol server).Step envStep a l call a') :
    ∀ b ∈ a'.shared.db.bookings.rows, Requested a' b := by
  intro b hb
  have hs' := hs
  cases hs with
  | env he =>
    rename_i e w'
    cases e <;> cases he <;> exact (hall b hb).step hs'
  | spawn hi => exact (hall b hb).step hs'
  | run hi hw hst =>
    rename_i o i q g g' c w'
    by_cases hend : ∃ resp, g' = .ended resp
    · obtain ⟨resp, rfl⟩ := hend
      rcases hst.ended with ⟨j, rfl, rfl, rfl⟩ | ⟨e, e', -, -, rfl⟩
      · exact hinv.requested_commit hall hi hs' hb
      · exact (hall b hb).step hs'
    · rw [show w'.db = a.shared.db from hst.db_eq (hinv.ne_lost hi) (not_exists.1 hend)] at hb
      exact (hall b hb).step hs'

theorem Reachable.requested (h : Reachable server sys) :
    ∃ a, View server sys a ∧ Inv server a ∧ ∀ b ∈ a.shared.db.bookings.rows, Requested a b := by
  refine h.keeps (fun users nextUser _ b hb => ?_) fun a l call a' hinv hall hs =>
    hinv.requested_step hall hs
  cases hb

/-- **Nobody else acts**: each route was answered to a request to create it, each booking to a request
of its user for its route and its seat, each cancelled one also to a request of its user to cancel it,
and the bookings that a request was answered are those of its user; and each of these requests has
come after a login of its user, with a token of that login. -/
theorem acts_after_login (h₀ : Start sys₀)
    (hr : Trace (semantics server) (fun sys l => Arrives jwt pydantic log sys l ∧
      Carries jwt expireMinutes log sys l) sys₀ ls sys) :
    let auth := Authenticated server sys₀ jwt expireMinutes log ls
    (∀ r ∈ sys.shared.db.routes.rows, ∃ i u p, sys.request i = some (.createRoute u p) ∧
      sys.answer i = some (.route (.ofRoute r)) ∧ auth i u) ∧
    (∀ b ∈ sys.shared.db.bookings.rows,
      (∃ i, sys.request i = some (.createBooking b.userId b.routeId b.seatId) ∧
        sys.answer i = some (.created (Db.setStatus .confirmed b)) ∧ auth i b.userId) ∧
      (b.status = .cancelled → ∃ i, sys.request i = some (.cancelBooking b.userId b.id) ∧
        sys.answer i = some (.cancelled b) ∧ auth i b.userId)) ∧
    ∀ i l, sys.answer i = some (.bookings l) → ∃ u, sys.request i = some (.myBookings u) ∧
      auth i u ∧ ∀ b ∈ l, b.userId = u := by
  intro auth
  have hlogin {i : Nat} {q : Request} {u : Int} (hreq : sys.request i = some q)
      (hu : q.user? = some u) : auth i u := authenticated h₀ hr hreq hu
  refine ⟨fun r hmem => ?_, fun b hb => ?_, fun i l hans => ?_⟩
  · obtain ⟨a, hv, hinv, hrights⟩ := rights h₀ hr.steps
    obtain ⟨i, u, p, hi, -⟩ := hrights.routes r (hv.shared ▸ hmem)
    exact ⟨i, u, p, hv.request hi, (answer_iff hv hinv).2 ⟨_, hi⟩, hlogin (hv.request hi) rfl⟩
  · have hreach : Reachable server sys := ⟨sys₀, h₀, hr.run.mono fun _ _ _ => trivial⟩
    obtain ⟨a, hv, hinv, hall⟩ := hreach.requested
    obtain ⟨⟨i, hi⟩, hcancel⟩ := hall b (hv.shared ▸ hb)
    refine ⟨⟨i, hv.request hi, (answer_iff hv hinv).2 ⟨_, hi⟩, hlogin (hv.request hi) rfl⟩,
      fun hst => ?_⟩
    obtain ⟨i, hi⟩ := hcancel hst
    exact ⟨i, hv.request hi, (answer_iff hv hinv).2 ⟨_, hi⟩, hlogin (hv.request hi) rfl⟩
  · obtain ⟨q, hreq⟩ := exists_request hans
    obtain ⟨u, rfl, ls₁, sys₁, -, -, -, rfl⟩ := vouched_of_answer h₀ hr.steps hreq hans
    refine ⟨u, hreq, hlogin hreq rfl, fun b hb => ?_⟩
    have hfilter := (server.newestFirst_perm _).mem_iff.1 hb
    simpa using (List.mem_filter.1 hfilter).2

end

/-- The administrator and Ann log in; he creates a route, and she books seat 1. -/
def loggedInArrivals : Nat → Option (Http (Claims × Int) × Int)
  | 0 => some (.login "root@bus.com" "h1", 0)
  | 1 => some (.createRoute (some (subject "1", 1800000000)) somePayload, 0)
  | 2 => some (.login "ann@bus.com" "h2", 0)
  | 3 => some (.createBooking (some (subject "2", 1800000000))
      (.obj [("route_id", .num 1), ("seat_id", .num 1)]), 60000000)
  | _ => none

def loggedInRun : List Label :=
  .spawn (.login "root@bus.com" "h1") :: calls 0 2 ++
    .spawn (.createRoute 1 somePayload) :: calls 1 6 ++
    .spawn (.login "ann@bus.com" "h2") :: calls 2 2 ++ .spawn (.createBooking 2 1 1) :: calls 3 13

/-- They use their tokens when they have them. -/
def haveTokens (sys : System) : Label → Bool
  | .spawn _ => (sys.tasks.length ≠ 1 || sys.answer 0 = some (.token "1")) &&
    (sys.tasks.length ≠ 3 || sys.answer 2 = some (.token "2"))
  | _ => true

theorem carries_haveTokens {sys : System} {l : Label} (h : haveTokens sys l = true) :
    Carries plainJwt 30 loggedInArrivals sys l := by
  intro q http t token hl hlog htoken
  subst hl
  match hn : sys.tasks.length with
  | 0 | 2 =>
    rw [hn] at hlog
    cases hlog
    cases htoken
  | 1 =>
    rw [hn] at hlog
    cases hlog
    cases htoken
    simp only [haveTokens, hn] at h
    exact ⟨0, "1", 0, by simpa using h, rfl⟩
  | 3 =>
    rw [hn] at hlog
    cases hlog
    cases htoken
    simp only [haveTokens, hn] at h
    exact ⟨2, "2", 0, by simpa using h, rfl⟩
  | n + 4 =>
    rw [hn] at hlog
    cases hlog

/-- Ann has logged in before she books seat 1. -/
theorem acts_after_login_ann : ∃ (sys : System) (b : Booking),
    b ∈ sys.shared.db.bookings.rows ∧ b.seatId = 1 ∧ ∃ i, sys.request i = some (.createBooking 2 1 1) ∧
      Authenticated plainServer someStart plainJwt 30 loggedInArrivals loggedInRun i 2 := by
  have hruns : ((semantics plainServer).stepsIf (fun sys l =>
      Arrives plainJwt plainPydantic loggedInArrivals sys l ∧ haveTokens sys l = true) someStart
      loggedInRun).any (fun sys =>
        sys.shared.db.bookings.rows = [⟨1, 2, 1, 1, .confirmed, 150000⟩]) = true := by
    decide +kernel
  obtain ⟨sys, hsys, hP⟩ := (Option.any_eq_true _ _).1 hruns
  have hrows := of_decide_eq_true hP
  have htrace := (Trace.of_stepsIf hsys).mono fun s l ⟨harr, htoken⟩ =>
    (⟨harr, carries_haveTokens htoken⟩ : _ ∧ Carries plainJwt 30 loggedInArrivals s l)
  have hmem : ⟨1, 2, 1, 1, .confirmed, 150000⟩ ∈ sys.shared.db.bookings.rows := by simp [hrows]
  obtain ⟨⟨i, hreq, -, hauth⟩, -⟩ := (acts_after_login start_someStart htrace).2.1 _ hmem
  exact ⟨sys, _, hmem, rfl, i, hreq, hauth⟩

end BusBookings
