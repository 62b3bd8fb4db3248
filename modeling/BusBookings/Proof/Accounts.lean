import BusBookings.App.Http
import BusBookings.Proof.Runs

/-!
# Accounts

A registration leaves a row with its e-mail and the hash of its password; later steps change at most
whether that user is active and his role, and no two users have one e-mail (`Accounts`). So a login
finds that row or none, and its answer is that of the check of what it finds (`Settles`).
-/

namespace BusBookings

open Async ReadCommitted

/-! ## The users -/

/-- What a step does to a user's row directly. -/
def onUser : Label → User → User
  | .env (.setActive userId isActive), u => if u.id = userId then { u with isActive } else u
  | .env (.setRole userId role), u => if u.id = userId then { u with role } else u
  | _, u => u

@[simp] theorem onUser_id (l : Label) (u : User) : (onUser l u).id = u.id := by
  unfold onUser
  split <;> [split; split; skip] <;> rfl

@[simp] theorem onUser_email (l : Label) (u : User) : (onUser l u).email = u.email := by
  unfold onUser
  split <;> [split; split; skip] <;> rfl

@[simp] theorem onUser_hashedPassword (l : Label) (u : User) :
    (onUser l u).hashedPassword = u.hashedPassword := by
  unfold onUser
  split <;> [split; split; skip] <;> rfl

/-- Whether a user is active is changed directly only. -/
theorem isActive_onUser {l : Label} {u : User} {isActive : Bool} (h : (onUser l u).isActive = isActive) :
    u.isActive = isActive ∨ l = .env (.setActive u.id isActive) := by
  unfold onUser at h
  split at h
  · split at h
    · rename_i isActive' hid
      obtain rfl : isActive' = isActive := h
      exact .inr (by rw [hid])
    · exact .inl h
  · split at h <;> exact .inl h
  · exact .inl h

/-- The rows of the users after step `l`. -/
inductive UsersStep (a : Abs World Request Stage) (l : Label) : List User → Prop
  | direct : UsersStep a l (a.shared.db.users.rows.map (onUser l))
  | register {i : Nat} {o : Outcome} {q : Request} {u : User} : l = .run o i →
      a.phase i = some (q, .closing (.register u)) → (∀ u' ∈ a.shared.db.users.rows, u'.email ≠ u.email) →
      UsersStep a l (a.shared.db.users.rows ++ [u])

section

variable {server : Server} {a a' : Abs World Request Stage} {i : Nat} {q : Request} {g g' : Stage}
  {l : Label} {call : Option Call} {sys sys' : System} {users : List User}

/-- A registration adds its user, whose e-mail is new. -/
theorem Inv.commit_register (hinv : Inv server a) {u : User}
    (hi : a.phase i = some (q, .closing (.register u))) :
    (a.shared.commit i).db.users.rows = a.shared.db.users.rows ++ [u] ∧
      ∀ u' ∈ a.shared.db.users.rows, u'.email ≠ u.email := by
  have hview : (a.shared.commit i).db =
      Store.applyAll Db.schema (Stage.closing (.register u)).writes a.shared.db :=
    hinv.view hi (by simp)
  have hvacant (k : LockKey) (hk : k ∈ Db.locks (.insertUser u)) : ¬ a.shared.db.Occupied k :=
    hinv.vacant hi (by simp) (.insertUser u) (by simp [Stage.writes, Job.writes]) rfl hk
  have hid := hvacant (.user u.id) (by simp [Db.locks])
  have hemail := hvacant (.email u.email) (by simp [Db.locks])
  rw [hview]
  exact ⟨Table.rows_insert fun u' hu' he => hid ⟨u', hu', he⟩, fun u' hu' he => hemail ⟨u', hu', he⟩⟩

theorem UsersStep.same (hl : ∀ u, onUser l u = u) : UsersStep a l a.shared.db.users.rows := by
  have hid : a.shared.db.users.rows.map (onUser l) = a.shared.db.users.rows :=
    (List.map_congr_left fun u _ => hl u).trans (List.map_id _)
  exact hid ▸ .direct

theorem Inv.users_commit (hinv : Inv server a) {o : Outcome} {j : Job}
    (hi : a.phase i = some (q, .closing j)) : UsersStep a (.run o i) (a.shared.commit i).db.users.rows := by
  cases j with
  | register u =>
    obtain ⟨hrows, hnew⟩ := hinv.commit_register hi
    rw [hrows]
    exact .register rfl hi hnew
  | _ =>
    have hview : (a.shared.commit i).db = _ := hinv.view hi (by simp)
    rw [hview]
    first | exact .same fun _ => rfl | (rename_i b free; cases free <;> exact .same fun _ => rfl)

theorem Inv.users_step (hinv : Inv server a) (hs : (protocol server).Step envStep a l call a') :
    UsersStep a l a'.shared.db.users.rows := by
  cases hs with
  | env he =>
    rename_i e w'
    cases e with
    | expire key =>
      cases he
      exact .same fun _ => rfl
    | setActive id isActive | setRole id role =>
      cases he
      exact .direct
  | spawn hi => exact .same fun _ => rfl
  | run hi hw hst =>
    rename_i o i q g g' c w'
    by_cases hend : ∃ resp, g' = .ended resp
    · obtain ⟨resp, rfl⟩ := hend
      rcases hst.ended with ⟨j, rfl, -, rfl⟩ | ⟨e, e', -, -, rfl⟩
      · exact hinv.users_commit hi
      · exact .same fun _ => rfl
    · show UsersStep a _ w'.db.users.rows
      rw [hst.db_eq (hinv.ne_lost hi) (not_exists.1 hend)]
      exact .same fun _ => rfl

/-- The user `id` has the e-mail and the hash. -/
def HasAccount (users : List User) (id : Int) (email hashed : String) : Prop :=
  ∃ u ∈ users, u.id = id ∧ u.email = email ∧ u.hashedPassword = hashed

/-- A user's row is kept, but for direct changes. -/
theorem UsersStep.user (hs : UsersStep a l users) {u : User} (hu : u ∈ a.shared.db.users.rows) :
    onUser l u ∈ users := by
  cases hs with
  | direct => exact List.mem_map_of_mem hu
  | register hl hi hnew =>
    subst hl
    exact List.mem_append_left _ hu

/-- An account is kept. -/
theorem UsersStep.hasAccount (hs : UsersStep a l users) {id : Int} {email hashed : String}
    (h : HasAccount a.shared.db.users.rows id email hashed) : HasAccount users id email hashed := by
  obtain ⟨u, hu, rfl, rfl, rfl⟩ := h
  exact ⟨onUser l u, hs.user hu, onUser_id l u, onUser_email l u, onUser_hashedPassword l u⟩

/-- E-mails stay distinct. -/
theorem UsersStep.emails (hs : UsersStep a l users) (h : (a.shared.db.users.rows.map (·.email)).Nodup) :
    (users.map (·.email)).Nodup := by
  cases hs with
  | direct =>
    rw [List.map_map]
    convert h using 2
    funext u
    exact onUser_email l u
  | register hl hi hnew =>
    rw [List.map_append, List.nodup_append]
    refine ⟨h, List.nodup_singleton _, fun e he e' he' heq => ?_⟩
    obtain ⟨u', hu', rfl⟩ := List.mem_map.1 he
    obtain rfl := List.mem_singleton.1 he'
    exact hnew u' hu' heq

/-! ## Registrations -/

/-- What the registrations leave. -/
structure Accounts (server : Server) (a : Abs World Request Stage) : Prop where
  emails : (a.shared.db.users.rows.map (·.email)).Nodup
  inserted : ∀ i p salt g u, a.phase i = some (.register p salt, g) → Change.insertUser u ∈ g.writes →
    u.email = p.email ∧ u.hashedPassword = server.hashpw salt p.password
  registered : ∀ i p salt u, a.phase i = some (.register p salt, .ended (.user u)) →
    HasAccount a.shared.db.users.rows u.id p.email (server.hashpw salt p.password)

/-- The user of a registration is inserted once. -/
theorem Step.inserted {p : UserRegister} {salt : String} {o : Outcome} {c : Call} {w w' : World} {u : User}
    (h : Step server (.register p salt) i o c g w g' w') (hl : g' ≠ .lost)
    (hu : Change.insertUser u ∈ g'.writes) :
    Change.insertUser u ∈ g.writes ∨
      u.email = p.email ∧ u.hashedPassword = server.hashpw salt p.password := by
  cases h with
  | read hr => exact .inl (hr.writes_eq hl ▸ hu)
  | write hw hch =>
    cases hw with
    | insertUser hrow hnew =>
      obtain rfl : u = _ := by simpa [Stage.writes] using hu
      rw [hnew]
      exact .inr ⟨rfl, rfl⟩
    | free => simp [Stage.writes] at hu
  | keys =>
    unfold Stage.afterKeys at hu
    split at hu
    · rw [writes_afterDelete] at hu
      exact .inl hu
    · exact .inl hu
  | delete =>
    rw [writes_afterDelete] at hu
    exact .inl hu
  | publish =>
    rw [writes_afterPublish] at hu
    exact .inl hu
  | store => exact .inl hu
  | cachedRoutes hq | cachedSeats hq => cases hq
  | _ => cases hu

theorem Accounts.step (h : Accounts server a) (hinv : Inv server a)
    (hs : (protocol server).Step envStep a l call a') : Accounts server a' := by
  have husers := hinv.users_step hs
  have hinv' := hinv.step hs
  refine ⟨husers.emails h.emails, fun i p salt g u hi hu => ?_, fun i p salt u hi => ?_⟩
  · rcases hs.phase_eq hi with hi | ⟨-, -, rfl⟩ | ⟨o, c, g₀, -, -, hi₀, -, hst⟩
    · exact h.inserted i p salt g u hi hu
    · cases hu
    · rcases hst.inserted (hinv'.ne_lost hi) hu with hu | hu
      · exact h.inserted i p salt g₀ u hi₀ hu
      · exact hu
  · rcases hs.phase_eq hi with hi | ⟨-, -, he⟩ | ⟨o, c, g₀, -, -, hi₀, -, hst⟩
    · exact husers.hasAccount (h.registered i p salt u hi)
    · cases he
    · rcases hst.ended with ⟨j, rfl, hresp, hw⟩ | ⟨e, e', -, hresp, -⟩
      · obtain ⟨u', rfl, -⟩ := (hinv.facts i _ _ hi₀ : j.Facts server a.shared.db _).isRegister
        cases hresp
        obtain ⟨hemail, hhash⟩ := h.inserted i p salt _ u' hi₀ (by simp [Stage.writes, Job.writes])
        refine ⟨u', ?_, rfl, hemail, hhash⟩
        rw [hw, (hinv.commit_register hi₀).1]
        exact List.mem_append_right _ (List.mem_singleton_self _)
      · unfold errorResponse at hresp
        split at hresp <;> cases hresp

theorem Reachable.accounts (h : Reachable server sys) :
    ∃ a, View server sys a ∧ Inv server a ∧ Accounts server a := by
  refine h.keeps (fun users nextUser hemails => ?_) fun a l call a' hinv hacc hs => hacc.step hinv hs
  exact ⟨hemails, fun i p salt g u hi => (by cases hi), fun i p salt u hi => by cases hi⟩

/-- A registration that has been answered has left its account. -/
theorem Reachable.hasAccount (h : Reachable server sys) {p : UserRegister} {salt : String}
    {account : UserOut}
    (hreq : sys.request i = some (.register p salt)) (hans : sys.answer i = some (.user account)) :
    HasAccount sys.shared.db.users.rows account.id p.email (server.hashpw salt p.password) := by
  obtain ⟨a, hv, hinv, hacc⟩ := h.accounts
  exact hv.shared ▸ hacc.registered i p salt account (ended_of_answer hv hinv hreq hans)

/-! ## Logins -/

/-- The answer is settled as `good`, or a login has not read the user yet. -/
def Settles (good : Response → Prop) : Stage → Prop
  | .start => True
  | .closing j => good j.response
  | .failing e => good (errorResponse e)
  | .ended resp => good resp
  | _ => False

theorem Settles.step {good : Response → Prop} {username password : String} {c : Call} {w' : World}
    (h : Settles good g) (hinv : Inv server a) (hi : a.phase i = some (.login username password, g))
    (hgood : Settles good (loginCheck server password (a.shared.db.users.rows.find? (·.email = username))))
    (hst : Step server (.login username password) i .ok c g a.shared g' w') : Settles good g' := by
  cases hst with
  | read hr =>
    have hview := hinv.view hi hr.not_failing
    cases hr with
    | again ha hp => cases ha
    | lost hno hex => obtain ⟨p, g', ha⟩ := hex; cases ha
    | login =>
      rw [hview]
      exact hgood
  | write hw hch => cases hw; exact h.elim
  | writeFails hw hch => cases hw; exact h.elim
  | cachedRoutes hq | cachedSeats hq => cases hq
  | commit | rollback => exact h
  | _ => exact h.elim

/-- **The answer of a login** is that of the check of the user it finds: where every state of a run
that no call of the login fails in has users of which the check is good, so is the answer. -/
theorem login_answer (good : Response → Prop) (I : List User → Prop) {Adm : System → Label → Prop}
    {username password : String} {k : Nat} {resp : Response} (h : Reachable server sys)
    (hr : Run (semantics server) Adm sys sys') (hok : ∀ s l, Adm s l → l ≠ .run .fail k)
    (hI : I sys.shared.db.users.rows)
    (hstep : ∀ s (a : Abs World Request Stage) l users, Adm s l → UsersStep a l users →
      I a.shared.db.users.rows → I users)
    (hgood : ∀ users : Table User User.id, (users.rows.map (·.email)).Nodup → I users.rows →
      Settles good (loginCheck server password (users.rows.find? (·.email = username))))
    (hk : sys.tasks.length ≤ k) (hreq : sys'.request k = some (.login username password))
    (hans : sys'.answer k = some resp) : good resp := by
  obtain ⟨a, hv, hinv, hacc⟩ := h.accounts
  obtain ⟨a', hv', ⟨hinv', -⟩, -, hsettled⟩ := Run.invariant
      (I := fun a => (Inv server a ∧ Accounts server a) ∧ I a.shared.db.users.rows ∧
        ∀ g, a.phase k = some (.login username password, g) → Settles good g) handler_sim
    (fun s a l a' _ hl ⟨⟨hinv, hacc⟩, hI, hset⟩ hs =>
      ⟨⟨hinv.step hs, hacc.step hinv hs⟩, hstep s a l _ hl (hinv.users_step hs) hI, fun g hg => by
        rcases hs.phase_eq hg with hg | ⟨-, -, rfl⟩ | ⟨o, c, g₀, rfl, -, hg₀, -, hst⟩
        · exact hset g hg
        · trivial
        · cases o with
          | fail => exact absurd rfl (hok _ _ hl)
          | ok => exact (hset g₀ hg₀).step hinv hg₀ (hgood _ hacc.emails hI) hst⟩)
    hr hv ⟨⟨hinv, hacc⟩, by rwa [hv.shared], fun g hg => by
      rw [hv.fresh k (by simpa using hk)] at hg
      cases hg⟩
  exact hsettled _ (ended_of_answer hv' hinv' hreq hans)

end

end BusBookings
