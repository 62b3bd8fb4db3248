import BusBookings.Proof.Accounts
import BusBookings.Proof.Tokens

/-!
# Logins of registered users

`register` stores the normalised e-mail, `login` looks for the text as it is typed:
`login_registered_iff`. bcrypt compares the first 72 bytes of two passwords: `login_rejected_iff`.
-/

namespace BusBookings

open Async

/-- The token of the answer decodes, until it expires, to claims with the id of the user. -/
def LogsIn {Token : Type} (jwt : Jwt Token) (expireMinutes id : Int) (resp : Response) : Prop :=
  ∀ t₀, datetimeOk (t₀ + expireMinutes * 60000000) = true →
    ∃ token, resp.accessToken jwt expireMinutes t₀ = some token ∧
      ∀ t, second t ≤ second (t₀ + expireMinutes * 60000000) →
        (jwt.decode t token).bind (·.lookup "sub") = some (.str (toString id))

/-- No call of request `k` fails, and user `id` is not deactivated. -/
def Undisturbed (k : Nat) (id : Int) (l : Label) : Prop := l ≠ .run .fail k ∧ l ≠ .env (.setActive id false)

/-- The user `id` has the e-mail and the hash and is active. -/
def HasActive (users : List User) (id : Int) (email hashed : String) : Prop :=
  ∃ u ∈ users, u.id = id ∧ u.email = email ∧ u.hashedPassword = hashed ∧ u.isActive = true

section

variable {Token : Type} {jwt : Jwt Token} {expireMinutes id n : Int} {server : Server} {l : Label}
  {a : Abs World Request Stage} {users : List User} {email hashed password : String}

/-! ## Tokens of logins -/

theorem accessToken_token (sub : String) (t₀ : Int)
    (h : datetimeOk (t₀ + expireMinutes * 60000000) = true) :
    (Response.token sub).accessToken jwt expireMinutes t₀ =
      some (jwt.encode (subject sub) (t₀ + expireMinutes * 60000000)) := by
  simp [Response.accessToken, createAccessToken, h]

theorem decode_subject {sub : String} {t exp : Int} (h : second t ≤ second exp) :
    (jwt.decode t (jwt.encode (subject sub) exp)).bind (·.lookup "sub") = some (.str sub) := by
  have hsub : (subject sub).lookup "sub" = some (.str sub) := AList.lookup_insert _
  rw [jwt.decode_encode, if_neg (by omega), hsub]
  simp [AList.lookup_insert_ne, hsub]

theorem logsIn_token : LogsIn jwt expireMinutes id (.token (toString n)) ↔ n = id := by
  constructor
  · intro h
    -- a token that expires at the epoch, decoded then
    have hok : datetimeOk (-(expireMinutes * 60000000) + expireMinutes * 60000000) = true := by
      rw [Int.add_left_neg]
      rfl
    obtain ⟨token, htoken, hdecode⟩ := h _ hok
    rw [accessToken_token _ _ hok] at htoken
    cases htoken
    have hsub := hdecode _ (Int.le_refl _)
    rw [decode_subject (Int.le_refl _)] at hsub
    simp only [Option.some.injEq, Json.str.injEq] at hsub
    exact Int.repr_injective hsub
  · rintro rfl t₀ hok
    exact ⟨_, accessToken_token _ _ hok, fun t ht => decode_subject ht⟩

theorem not_logsIn_error (e : Exc) : ¬ LogsIn jwt expireMinutes id (errorResponse e) := by
  intro h
  obtain ⟨token, htoken, -⟩ := h (-(expireMinutes * 60000000)) (by rw [Int.add_left_neg]; rfl)
  unfold errorResponse at htoken
  split at htoken <;> cases htoken

/-! ## The user that is found -/

theorem find?_email {u : User} (h : (users.map (·.email)).Nodup) (hu : u ∈ users) :
    users.find? (·.email = u.email) = some u :=
  Table.find?_mem (t := (⟨users, h⟩ : Table User User.email)) hu

/-- A user that the check does not accept is not logged in. -/
theorem settles_of_not_found {found : Option User} {good : Response → Prop}
    (he : ∀ e, good (errorResponse e)) (hu : ∀ u ∈ found, good (.token (toString u.id))) :
    Settles good (loginCheck server password found) := by
  unfold loginCheck
  split
  · exact he _
  · split
    · exact he _
    · split
      · exact he _
      · exact hu _ rfl

theorem loginCheck_active {u : User} (hcheck : server.checkpw password u.hashedPassword = true)
    (hactive : u.isActive = true) :
    loginCheck server password (some u) = .closing (.read (.token (toString u.id))) := by
  simp [loginCheck, hcheck, hactive]

theorem UsersStep.hasActive (hs : UsersStep a l users) (hl : l ≠ .env (.setActive id false))
    (h : HasActive a.shared.db.users.rows id email hashed) : HasActive users id email hashed := by
  obtain ⟨u, hu, rfl, rfl, rfl, hactive⟩ := h
  refine ⟨onUser l u, hs.user hu, onUser_id l u, onUser_email l u, onUser_hashedPassword l u, ?_⟩
  by_contra hinactive
  rcases isActive_onUser (Bool.eq_false_iff.2 hinactive) with hold | hdirect
  · rw [hactive] at hold
    cases hold
  · exact hl hdirect

/-! ## The e-mail -/

theorem UserRegister.ofJson_eq {pydantic : Pydantic} {body : Json} {payload : UserRegister} {e p : String}
    (h : UserRegister.ofJson? pydantic body = some payload) (he : body.text "email" = some e)
    (hp : body.text "password" = some p) :
    pydantic.emailStr e = some payload.email ∧ payload.password = p := by
  unfold UserRegister.ofJson? at h
  simp only [he, hp, Option.bind_eq_bind, Option.bind_some] at h
  obtain ⟨email, hemail, h⟩ := Option.bind_eq_some_iff.1 h
  obtain ⟨username, -, h⟩ := Option.bind_eq_some_iff.1 h
  obtain ⟨firstName, -, h⟩ := Option.bind_eq_some_iff.1 h
  obtain ⟨lastName, -, h⟩ := Option.bind_eq_some_iff.1 h
  split at h
  · cases h
    exact ⟨hemail, rfl⟩
  · cases h

/-- A registered user who is still active and types the e-mail and the password of his registration
gets a token of his exactly if `EmailStr` leaves the text of the e-mail as it is. -/
theorem login_registered_iff {sys sys' : System} {pydantic : Pydantic} {body : Json}
    {payload : UserRegister} {salt e p : String} {account : UserOut} {i k : Nat} {resp : Response}
    (hcheck : ∀ salt p, server.checkpw p (server.hashpw salt p) = true) (h : Reachable server sys)
    (hbody : UserRegister.ofJson? pydantic body = some payload) (he : body.text "email" = some e)
    (hp : body.text "password" = some p) (hreg : sys.request i = some (.register payload salt))
    (hans : sys.answer i = some (.user account))
    (hactive : ∃ u ∈ sys.shared.db.users.rows, u.id = account.id ∧ u.isActive = true)
    (hr : Run (semantics server) (fun _ => Undisturbed k account.id) sys sys') (hk : sys.tasks.length ≤ k)
    (hlogin : sys'.request k = some (.login e p)) (hresp : sys'.answer k = some resp) :
    LogsIn jwt expireMinutes account.id resp ↔ pydantic.emailStr e = some e := by
  obtain ⟨hemail, rfl⟩ := UserRegister.ofJson_eq hbody he hp
  let I (users : List User) : Prop :=
    HasActive users account.id payload.email (server.hashpw salt payload.password)
  have hI : I sys.shared.db.users.rows := by
    obtain ⟨u, hu, hid, hact⟩ := hactive
    obtain ⟨u', hu', hid', hemail', hhash⟩ := h.hasAccount hreg hans
    obtain rfl := Table.eq_of_key hu hu' (hid.trans hid'.symm)
    exact ⟨u, hu, hid, hemail', hhash, hact⟩
  have hkept (_ : System) (a : Abs World Request Stage) (l : Label) (users : List User)
      (hl : Undisturbed k account.id l) (hs : UsersStep a l users) (hI : I a.shared.db.users.rows) :
      I users :=
    hs.hasActive hl.2 hI
  constructor
  · intro hgood
    by_contra hne
    refine login_answer (¬ LogsIn jwt expireMinutes account.id ·) I h hr (fun _ _ hl => hl.1) hI hkept
      (fun users hnodup hu => settles_of_not_found not_logsIn_error fun u' hfound => ?_) hk hlogin
      hresp hgood
    -- the user with this very e-mail is another one
    rw [logsIn_token]
    intro hid
    obtain ⟨u, hu, hid', hemail', -⟩ := hu
    obtain rfl := Table.eq_of_key (List.mem_of_find?_eq_some hfound) hu (hid.trans hid'.symm)
    have hue : u'.email = e := by simpa using List.find?_some hfound
    exact hne (by rw [hemail, ← hemail', hue])
  · intro hfix
    have hpe : payload.email = e := by
      rw [hemail] at hfix
      exact Option.some.inj hfix
    refine login_answer (LogsIn jwt expireMinutes account.id) I h hr (fun _ _ hl => hl.1) hI hkept
      (fun users hnodup hu => ?_) hk hlogin hresp
    obtain ⟨u, hu, hid, hemail', hhash, hact⟩ := hu
    rw [← hpe, ← hemail', find?_email hnodup hu, loginCheck_active (by rw [hhash]; exact hcheck _ _) hact]
    exact logsIn_token.2 hid

/-! ## The password -/

/-- `password.encode()`. -/
def utf8 (password : String) : List UInt8 := password.toList.flatMap String.utf8EncodeChar

/-- The bytes of a password that bcrypt reads. -/
def bcryptInput (password : String) : List UInt8 := (utf8 password).take 72

theorem loginCheck_wrong {u : User} (hcheck : server.checkpw password u.hashedPassword = false) :
    loginCheck server password (some u) = .failing (.http 401 "Incorrect email or password") := by
  simp [loginCheck, hcheck]

/-- After a registration, a login with the password `q` is answered 401 exactly if the first 72
bytes of `q` and of the password of the registration differ. -/
theorem login_rejected_iff {sys sys' : System} {payload : UserRegister} {salt q : String}
    {account : UserOut} {i k : Nat} {resp : Response}
    (hbcrypt : ∀ salt p q, server.checkpw q (server.hashpw salt p) = true ↔ bcryptInput q = bcryptInput p)
    (h : Reachable server sys) (hreg : sys.request i = some (.register payload salt))
    (hans : sys.answer i = some (.user account))
    (hr : Run (semantics server) (fun _ l => l ≠ .run .fail k) sys sys') (hk : sys.tasks.length ≤ k)
    (hlogin : sys'.request k = some (.login payload.email q)) (hresp : sys'.answer k = some resp) :
    resp.statusCode = 401 ↔ bcryptInput q ≠ bcryptInput payload.password := by
  let I (users : List User) : Prop :=
    HasAccount users account.id payload.email (server.hashpw salt payload.password)
  have hI : I sys.shared.db.users.rows := h.hasAccount hreg hans
  have hkept (_ : System) (a : Abs World Request Stage) (l : Label) (users : List User)
      (_ : l ≠ .run .fail k) (hs : UsersStep a l users) (hI : I a.shared.db.users.rows) :
      I users := hs.hasAccount hI
  constructor
  · intro hstatus hsame
    refine login_answer (·.statusCode ≠ 401) I h hr (fun _ _ hl => hl) hI hkept
      (fun users hnodup hu => ?_) hk hlogin hresp hstatus
    obtain ⟨u, hu, -, hemail, hhash⟩ := hu
    have hcheck : server.checkpw q u.hashedPassword = true := by
      rw [hhash]
      exact (hbcrypt _ _ _).2 hsame
    rw [← hemail, find?_email hnodup hu]
    cases hact : u.isActive with
    | true =>
      rw [loginCheck_active hcheck hact]
      exact (by decide : (200 : Nat) ≠ 401)
    | false =>
      simp only [loginCheck, hcheck, hact]
      exact (by decide : (403 : Nat) ≠ 401)
  · intro hne
    refine login_answer (·.statusCode = 401) I h hr (fun _ _ hl => hl) hI hkept
      (fun users hnodup hu => ?_) hk hlogin hresp
    obtain ⟨u, hu, -, hemail, hhash⟩ := hu
    have hcheck : server.checkpw q u.hashedPassword = false := by
      rw [hhash, Bool.eq_false_iff]
      exact fun htrue => hne ((hbcrypt _ _ _).1 htrue)
    rw [← hemail, find?_email hnodup hu, loginCheck_wrong hcheck]
    rfl

end

/-! ## A registration and a login -/

/-- A byte as a character that is no `$`. -/
def hashChar (b : UInt8) : Char := Char.ofNat (256 + b.toNat)

theorem hashChar_toNat (b : UInt8) : (hashChar b).toNat = 256 + b.toNat := by
  have := b.toNat_lt
  unfold hashChar
  rw [Char.toNat_ofNat, if_pos]
  left
  omega

/-- A server whose hashes are the bytes that bcrypt reads and the salt. -/
def bcryptServer : Server := { plainServer with
  hashpw := fun salt password => String.ofList ((bcryptInput password).map hashChar ++ '$' :: salt.toList)
  checkpw := fun password hashed =>
    (bcryptInput password).map hashChar = hashed.toList.takeWhile (· ≠ '$') }

theorem checkpw_bcryptServer (salt p q : String) :
    bcryptServer.checkpw q (bcryptServer.hashpw salt p) = true ↔ bcryptInput q = bcryptInput p := by
  have hinj : Function.Injective hashChar := fun b b' h => by
    have := congrArg Char.toNat h
    rw [hashChar_toNat, hashChar_toNat] at this
    exact UInt8.toNat_inj.1 (by omega)
  have hkept : ∀ c ∈ (bcryptInput p).map hashChar, decide (c ≠ '$') = true := by
    intro c hc
    obtain ⟨b, -, rfl⟩ := List.mem_map.1 hc
    apply decide_eq_true
    intro he
    have := hashChar_toNat b
    rw [he] at this
    simp at this
    omega
  simp only [bcryptServer, String.toList_ofList, List.takeWhile_append_of_pos hkept]
  simpa using (List.map_injective_iff.2 hinj).eq_iff

/-- The body of a registration. -/
def someBody (email password : String) : Json :=
  .obj [("email", .str email), ("username", .str "cid"), ("first_name", .str "C"), ("last_name", .str "D"),
    ("password", .str password)]

def someAccount (email password : String) (h : 8 ≤ password.length) : UserRegister :=
  ⟨email, "cid", "C", "D", password, h⟩

/-- Validators with an `EmailStr` that lower-cases the domain and refuses the reserved one `test`. -/
def mailPydantic : Pydantic where
  int
    | .num n => some n
    | _ => none
  emailStr text :=
    let (name, domain) := text.toList.span (· ≠ '@')
    let domain := domain.map Char.toLower
    if domain.isEmpty || ".test".toList.isSuffixOf domain then none
    else some (String.ofList (name ++ domain))

/-- The step is an arrival or a call that succeeds. -/
def smooth : Label → Bool
  | .spawn _ | .run .ok _ => true
  | _ => false

theorem undisturbed_of_smooth {l : Label} (h : smooth l = true) (k : Nat) (id : Int) :
    Undisturbed k id l := by
  constructor
  · rintro rfl
    cases h
  · rintro rfl
    cases h

/-- The account of the registration. -/
def someAccountOut (email : String) : UserOut := ⟨4, email, "cid", "C", "D", true, .user⟩

/-- The account is registered, as user 4, and the answer of the login is `resp`. -/
structure LoggedIn (payload : UserRegister) (username password : String) (resp : Response)
    (sys sys' : System) : Prop where
  reachable : Reachable bcryptServer sys
  registers : sys.request 0 = some (.register payload "salt")
  registered : sys.answer 0 = some (.user (someAccountOut payload.email))
  active : ∃ u ∈ sys.shared.db.users.rows, u.id = 4 ∧ u.isActive = true
  run : Run (semantics bcryptServer) (fun _ l => smooth l = true) sys sys'
  first : sys.tasks.length ≤ 1
  logs : sys'.request 1 = some (.login username password)
  answered : sys'.answer 1 = some resp

/-- What is checked of a registration and a login one after the other. -/
theorem exists_loggedIn (payload : UserRegister) (username password : String) (resp : Response)
    (h : ((semantics bcryptServer).steps someStart
        (.spawn (.register payload "salt") :: calls 0 4)).any (fun sys =>
      sys.request 0 = some (.register payload "salt") ∧
        sys.answer 0 = some (.user (someAccountOut payload.email)) ∧
        (∃ u ∈ sys.shared.db.users.rows, u.id = 4 ∧ u.isActive = true) ∧ sys.tasks.length ≤ 1 ∧
        ((semantics bcryptServer).stepsIf (fun _ l => smooth l) sys
          (.spawn (.login username password) :: calls 1 2)).any (fun sys' =>
            sys'.request 1 = some (.login username password) ∧ sys'.answer 1 = some resp) = true) =
      true) :
    ∃ sys sys', LoggedIn payload username password resp sys sys' := by
  obtain ⟨sys, hsys, h⟩ := (Option.any_eq_true _ _).1 h
  obtain ⟨hreq, hans, hactive, hlen, h⟩ := of_decide_eq_true h
  obtain ⟨sys', hsys', h⟩ := (Option.any_eq_true _ _).1 h
  obtain ⟨hlogs, hresp⟩ := of_decide_eq_true h
  exact ⟨sys, sys', ⟨someStart, start_someStart, Run.of_steps hsys⟩, hreq, hans, hactive,
    Run.of_stepsIf hsys', hlen, hlogs, hresp⟩

/-- Cid, whose domain has no capitals, logs in. -/
theorem login_registered_iff_cid : ∃ sys sys', LoggedIn (someAccount "Cid@bus.com" "password" (by decide))
    "Cid@bus.com" "password" (.token "4") sys sys' ∧ LogsIn plainJwt 30 4 (.token "4") := by
  obtain ⟨sys, sys', h⟩ := exists_loggedIn (someAccount "Cid@bus.com" "password" (by decide))
    "Cid@bus.com" "password" (.token "4") (by decide +kernel)
  have hbody : UserRegister.ofJson? mailPydantic (someBody "Cid@bus.com" "password") =
      some (someAccount "Cid@bus.com" "password" (by decide)) := by decide
  exact ⟨sys, sys', h, (login_registered_iff (fun salt p => (checkpw_bcryptServer salt p p).2 rfl)
    h.reachable hbody rfl rfl h.registers h.registered h.active
    (h.run.mono fun _ _ hl => undisturbed_of_smooth hl 1 4) h.first h.logs h.answered).2 (by decide)⟩

/-- Cid types the capitals of his domain again. -/
theorem login_registered_fails : ∃ sys sys',
    UserRegister.ofJson? mailPydantic (someBody "Cid@BUS.com" "password") =
      some (someAccount "Cid@bus.com" "password" (by decide)) ∧
    LoggedIn (someAccount "Cid@bus.com" "password" (by decide)) "Cid@BUS.com" "password"
      (errorResponse (.http 401 "Incorrect email or password")) sys sys' ∧
    ¬ LogsIn plainJwt 30 4 (errorResponse (.http 401 "Incorrect email or password")) := by
  obtain ⟨sys, sys', h⟩ := exists_loggedIn (someAccount "Cid@bus.com" "password" (by decide))
    "Cid@BUS.com" "password" (errorResponse (.http 401 "Incorrect email or password"))
    (by decide +kernel)
  exact ⟨sys, sys', by decide, h, not_logsIn_error _⟩

/-- Cid mistypes his password. -/
theorem login_rejected_iff_cid : ∃ sys sys',
    LoggedIn (someAccount "cid@bus.com" "password" (by decide)) "cid@bus.com" "Password"
      (errorResponse (.http 401 "Incorrect email or password")) sys sys' ∧
    (errorResponse (.http 401 "Incorrect email or password")).statusCode = 401 := by
  obtain ⟨sys, sys', h⟩ := exists_loggedIn (someAccount "cid@bus.com" "password" (by decide))
    "cid@bus.com" "Password" (errorResponse (.http 401 "Incorrect email or password"))
    (by decide +kernel)
  exact ⟨sys, sys', h, (login_rejected_iff checkpw_bcryptServer h.reachable h.registers h.registered
    (h.run.mono fun _ _ hl => (undisturbed_of_smooth hl 1 4).1) h.first h.logs h.answered).2 (by decide)⟩

/-- A password of 36 letters `я`, which are 72 bytes, and a digit. -/
def longPassword (digit : Char) : String := String.ofList (List.replicate 36 'я' ++ [digit])

/-- Cid mistypes the last character of a long password and is logged in. -/
theorem login_rejected_fails : longPassword '2' ≠ longPassword '1' ∧ ∃ sys sys',
    LoggedIn (someAccount "cid@bus.com" (longPassword '1') (by decide)) "cid@bus.com"
      (longPassword '2') (.token "4") sys sys' ∧ (Response.token "4").statusCode = 200 := by
  obtain ⟨sys, sys', h⟩ := exists_loggedIn
    (someAccount "cid@bus.com" (longPassword '1') (by decide)) "cid@bus.com" (longPassword '2')
    (.token "4") (by decide +kernel)
  exact ⟨by decide, sys, sys', h, rfl⟩

end BusBookings
