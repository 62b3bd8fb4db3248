import BusBookings.App.Migrations

/-!
# Up, down and up again

The scripts that create an enumerated type never drop it, so their downgrade does not restore the
schema and their second upgrade fails (`not_restored`). The others add columns that are `NOT NULL`
without a default, which fails as soon as there is a user (`rows_of_upgrade`). What is left is the
second script on a database without users (`fixModels_migrates`).
-/

namespace BusBookings

open Ddl

section

variable {ν : Type} [DecidableEq ν] (eval : String → ν)

/-- The schema of the database is that of revision `r`. -/
def At (r : Option Revision) (db : Ddl.Db ν) : Prop :=
  ∃ db₀, run eval (Revision.history r) .empty = some db₀ ∧ SameSchema db db₀

/-- `upgrade()` succeeds and keeps what it does not drop, `downgrade()` restores the schema, and
`upgrade()` succeeds again. -/
def Migrates (r : Revision) (db : Ddl.Db ν) : Prop :=
  ∃ db₁, run eval r.upgrade db = some db₁ ∧ Ddl.Keeps r.upgrade db db₁ ∧
    ∃ db₂, run eval r.downgrade db₁ = some db₂ ∧ SameSchema db₂ db ∧
      ∃ db₃, run eval r.upgrade db₂ = some db₃

omit [DecidableEq ν] in
/-- There is no user. -/
def NoUsers (db : Ddl.Db ν) : Prop := ∀ T, db.tables.find? "users" = some T → T.rows = []

variable {eval} {r : Revision} {db db₁ db₂ : Ddl.Db ν}

/-! ## Types -/

/-- A type that `upgrade()` creates is there after `downgrade()`. -/
theorem not_restored {n : String} {labels : List String}
    (hmem : .createType n labels ∈ r.upgrade) (h₁ : run eval r.upgrade db = some db₁)
    (h₂ : run eval r.downgrade db₁ = some db₂) : ¬ SameSchema db₂ db := by
  obtain ⟨hbefore, hafter⟩ := creates_type h₁ hmem
  intro hsame
  have htypes := hsame.types n
  rw [types_of_run h₂ hafter, hbefore] at htypes
  cases htypes

theorem Migrates.creates_nothing (h : Migrates eval r db) (n : String) (labels : List String) :
    .createType n labels ∉ r.upgrade := fun hmem => by
  obtain ⟨db₁, h₁, -, db₂, h₂, hsame, -⟩ := h
  exact not_restored hmem h₁ h₂ hsame

/-! ## Users -/

/-- The first new column of a user fails if there is one. -/
theorem noUsers_of_addColumn {column : Column}
    (h : (Stmt.addColumn "users" column).run eval db = some db₁) (hnull : column.nullable = false)
    (hdefault : column.serverDefault = none) : NoUsers db := by
  intro T hT
  cases Stmt.effect h with
  | @addColumn _ _ T' _ hT' _ hrows =>
    obtain rfl : T' = T := Option.some.inj (hT'.symm.trans hT)
    simpa [hnull, hdefault] using hrows

/-- **The second script needs a database without users.** -/
theorem noUsers_of_upgrade (h : run eval Revision.fixModels.upgrade db = some db₁) : NoUsers db := by
  obtain ⟨db', h', -⟩ := Option.bind_eq_some_iff.1 h
  exact noUsers_of_addColumn h' rfl rfl

/-! ## The second script -/

/-- The columns that the second script adds or drops. -/
def changed : List String := ["username", "first_name", "last_name", "full_name"]

/-- What the second script finds at its down revision: users have a full name instead of a username
and two names, and nothing else is about these columns. -/
structure Initial (T : Relation ν) (db : Ddl.Db ν) : Prop where
  users : db.tables.find? "users" = some T
  username : T.columns "username" = none
  firstName : T.columns "first_name" = none
  lastName : T.columns "last_name" = none
  fullName : T.columns "full_name" = some ⟨"full_name", .string 255, false, none⟩
  constraints : ∀ c ∈ changed, ∀ k ∈ T.constraints, c ∉ k.columns
  indexes : ∀ c ∈ changed, ∀ i ∈ db.indexes.rows, i.table = "users" → c ∉ i.columns
  references : ∀ c ∈ changed, db.isReferenced "users" (some c) = false

variable (eval) in
theorem initial_history : ∃ (db₀ : Ddl.Db ν) (T : Relation ν),
    run eval (Revision.history (some .init)) .empty = some db₀ ∧ Initial T db₀ := by
  refine ⟨_, _, rfl, ⟨rfl, rfl, rfl, rfl, rfl, ?_, ?_, ?_⟩⟩
  · show ∀ c ∈ changed, ∀ k ∈ [Constraint.primaryKey ["id"]], c ∉ k.columns
    decide
  · show ∀ c ∈ changed, ∀ i ∈ [
      Index.mk "ix_routes_destination" "routes" ["destination"] false,
      ⟨"ix_routes_origin", "routes", ["origin"], false⟩,
      ⟨"ix_users_email", "users", ["email"], true⟩,
      ⟨"ix_seats_route_id", "seats", ["route_id"], false⟩,
      ⟨"ix_bookings_route_id", "bookings", ["route_id"], false⟩,
      ⟨"ix_bookings_user_id", "bookings", ["user_id"], false⟩], i.table = "users" → c ∉ i.columns
    decide
  · intro c hc
    simp only [changed, List.mem_cons, List.not_mem_nil, or_false] at hc
    rcases hc with rfl | rfl | rfl | rfl <;> rfl

omit [DecidableEq ν] in
theorem Initial.sameSchema {T : Relation ν} {db₀ : Ddl.Db ν} (h : Initial T db₀)
    (hs : SameSchema db db₀) : ∃ T', Initial T' db := by
  obtain ⟨T', hT', hcolumns, hconstraints⟩ := hs.symm.find? h.users
  refine ⟨T', hT', ?_, ?_, ?_, ?_, ?_, ?_, fun c hc => ?_⟩
  · rw [hcolumns, h.username]
  · rw [hcolumns, h.firstName]
  · rw [hcolumns, h.lastName]
  · rw [hcolumns, h.fullName]
  · rw [hconstraints]
    exact h.constraints
  · exact fun c hc i hi => h.indexes c hc i (hs.mem_indexes hi)
  · rw [Bool.eq_false_iff]
    intro href
    have := h.references c hc
    rw [hs.isReferenced_mono href] at this
    cases this

omit [DecidableEq ν] in
theorem Initial.replaces {T T' : Relation ν} {db' : Ddl.Db ν} (h : Initial T db)
    (hr : Replaces "users" T' db db') (hcolumns : T'.columns = T.columns)
    (hconstraints : T'.constraints = T.constraints) : Initial T' db' := by
  refine ⟨hr.self, ?_, ?_, ?_, ?_, ?_, ?_, fun c hc => (hr.referenced _).trans (h.references c hc)⟩
  · rw [hcolumns, h.username]
  · rw [hcolumns, h.firstName]
  · rw [hcolumns, h.lastName]
  · rw [hcolumns, h.fullName]
  · rw [hconstraints]
    exact h.constraints
  · rw [hr.indexes]
    exact h.indexes

/-- A text column of users. -/
def text (name : String) : Column := ⟨name, .string 255, false, none⟩

theorem upgrade_fixModels : Revision.fixModels.upgrade = [.addColumn "users" (text "username"),
    .addColumn "users" (text "first_name"), .addColumn "users" (text "last_name"),
    .dropColumn "users" "full_name"] := rfl

theorem downgrade_fixModels : Revision.fixModels.downgrade = [.addColumn "users" (text "full_name"),
    .dropColumn "users" "last_name", .dropColumn "users" "first_name",
    .dropColumn "users" "username"] := rfl

/-- The users after the second script. -/
def upgraded (T : Relation ν) : Relation ν :=
  (((T.addColumn (text "username") none).addColumn (text "first_name") none).addColumn
    (text "last_name") none).dropColumn "full_name"

/-- The users after its downgrade. -/
def downgraded (T : Relation ν) : Relation ν :=
  ((((upgraded T).addColumn (text "full_name") none).dropColumn "last_name").dropColumn
    "first_name").dropColumn "username"

/-- **`upgrade()` without users** succeeds and changes the users' table only. -/
theorem turns_upgrade {T : Relation ν} (h : Initial T db) (hrows : T.rows = []) :
    Turns eval Revision.fixModels.upgrade "users" db T (upgraded T) := by
  have hc : "full_name" ∈ changed := by decide
  rw [upgrade_fixModels]
  refine .addColumn hrows h.username rfl (.addColumn ?_ ?_ rfl (.addColumn ?_ ?_ rfl
    (.dropColumn ?_ (h.references _ hc) (h.indexes _ hc) .nil)))
  · simp [Relation.addColumn, hrows]
  · simp [Relation.addColumn, text, h.firstName]
  · simp [Relation.addColumn, hrows]
  · simp [Relation.addColumn, text, h.lastName]
  · simp [Relation.addColumn, text, h.fullName]

theorem turns_downgrade {T : Relation ν} (h : Initial T db) (hrows : T.rows = []) :
    Turns eval Revision.fixModels.downgrade "users" db (upgraded T) (downgraded T) := by
  have hc {c : String} (hc : c ∈ changed) := And.intro (h.references c hc) (h.indexes c hc)
  obtain ⟨hlast, hlast'⟩ := hc (c := "last_name") (by decide)
  obtain ⟨hfirst, hfirst'⟩ := hc (c := "first_name") (by decide)
  obtain ⟨hname, hname'⟩ := hc (c := "username") (by decide)
  rw [downgrade_fixModels]
  refine .addColumn ?_ ?_ rfl (.dropColumn ?_ hlast hlast' (.dropColumn ?_ hfirst hfirst'
    (.dropColumn ?_ hname hname' .nil)))
  all_goals simp [upgraded, Relation.addColumn, Relation.dropColumn, text, hrows]

omit [DecidableEq ν] in
/-- The downgrade restores the columns. -/
theorem columns_downgraded {T : Relation ν} (h : Initial T db) : (downgraded T).columns = T.columns := by
  funext c
  simp only [downgraded, upgraded, Relation.addColumn, Relation.dropColumn, Function.update_apply, text]
  split_ifs with h1 h2 h3 h4
  · rw [h1, h.username]
  · rw [h2, h.firstName]
  · rw [h3, h.lastName]
  · rw [h4, h.fullName]
  · rfl

omit [DecidableEq ν] in
theorem constraints_downgraded {T : Relation ν} (h : Initial T db) :
    (downgraded T).constraints = T.constraints := by
  have hall {c : String} (hc : c ∈ changed) (k : Constraint) (hk : k ∈ T.constraints) :
      decide (c ∉ k.columns) = true := decide_eq_true (h.constraints c hc k hk)
  simp only [downgraded, upgraded, Relation.addColumn, Relation.dropColumn]
  rw [List.filter_eq_self.2 (hall (c := "full_name") (by decide)),
    List.filter_eq_self.2 (hall (c := "last_name") (by decide)),
    List.filter_eq_self.2 (hall (c := "first_name") (by decide)),
    List.filter_eq_self.2 (hall (c := "username") (by decide))]

/-- **Without users** the second script goes up, down and up again. -/
theorem fixModels_migrates {T : Relation ν} (h : Initial T db) (hrows : T.rows = []) :
    Migrates eval .fixModels db := by
  obtain ⟨db₁, h₁, hr₁⟩ := turns_upgrade h hrows db (.refl h.users)
  obtain ⟨db₂, h₂, hr₂⟩ := turns_downgrade h hrows db₁ hr₁
  have hcolumns := columns_downgraded h
  have hconstraints := constraints_downgraded h
  have hrows₂ : (downgraded T).rows = [] := by
    simp [downgraded, upgraded, Relation.addColumn, Relation.dropColumn, hrows]
  have hinit := h.replaces hr₂ hcolumns hconstraints
  obtain ⟨db₃, h₃, -⟩ := turns_upgrade hinit hrows₂ db₂ (.refl hinit.users)
  exact ⟨db₁, h₁, run_keeps h₁, db₂, h₂, hr₂.sameSchema h.users hcolumns hconstraints, db₃, h₃⟩

/-! ## All scripts -/

/-- **Going up, down and up again** works exactly for the second script on a database without
users. -/
theorem migrates_iff (hdb : At eval r.downRevision db) :
    Migrates eval r db ↔ r = .fixModels ∧ NoUsers db := by
  constructor
  · intro h
    cases r with
    | init =>
      exact absurd (by decide)
        (h.creates_nothing "bookingstatus" ["PENDING", "CONFIRMED", "CANCELLED"])
    | fixModels =>
      obtain ⟨db₁, h₁, -⟩ := h
      exact ⟨rfl, noUsers_of_upgrade h₁⟩
    | addUserstatus =>
      exact absurd (by decide) (h.creates_nothing "userstatus" ["USER", "ADMIN"])
  · rintro ⟨rfl, hnone⟩
    obtain ⟨db₀, hdb₀, hsame⟩ := hdb
    obtain ⟨db₀', T₀, hdb₀', hinit⟩ := initial_history eval
    obtain rfl : db₀' = db₀ := Option.some.inj (hdb₀'.symm.trans hdb₀)
    obtain ⟨T, hT⟩ := hinit.sameSchema hsame
    exact fixModels_migrates hT (hnone T hT.users)

end

/-! ## Examples -/

/-- A row of users at the first revision. -/
def ann : Row String := fun c => ([("id", "1"), ("email", "ann@bus.com"), ("hashed_password", "-"),
  ("full_name", "Ann"), ("is_active", "t"), ("created_at", "2024-01-01")].find? (·.1 = c)).map (·.2)

/-- Without users the second script can be taken back and repeated. -/
theorem migrates_iff_empty : ∃ db : Ddl.Db String, At (fun _ => "2024-01-01") (some .init) db ∧
    Migrates (fun _ => "2024-01-01") .fixModels db := by
  obtain ⟨db, T, hrun, hinit⟩ := initial_history (ν := String) fun _ => "2024-01-01"
  have hat : At (fun _ => "2024-01-01") (some .init) db :=
    ⟨db, hrun, fun _ => rfl, fun _ => rfl, fun _ => rfl⟩
  refine ⟨db, hat, (migrates_iff (r := .fixModels) hat).2 ⟨rfl, fun T' hT' => ?_⟩⟩
  cases hrun
  cases hT'
  rfl

/-- With one user the second script fails. -/
theorem upgrade_fails_with_user : ∃ db : Ddl.Db String, At (fun _ => "2024-01-01") (some .init) db ∧
    (db.tables.find? "users").map (·.rows) = some [ann] ∧
      run (fun _ => "2024-01-01") Revision.fixModels.upgrade db = none ∧
        ¬ Migrates (fun _ => "2024-01-01") .fixModels db := by
  obtain ⟨db₀, T, hrun, hinit⟩ := initial_history (ν := String) fun _ => "2024-01-01"
  have hr := replaces_update (f := fun T => { T with rows := [ann] }) (fun _ => rfl) hinit.users
  have hfail : run (fun _ => "2024-01-01") Revision.fixModels.upgrade
      { db₀ with tables := db₀.tables.update "users" (fun T => { T with rows := [ann] }) fun _ => rfl } =
        none := by
    cases h : run (fun _ => "2024-01-01") Revision.fixModels.upgrade
      { db₀ with
        tables := db₀.tables.update "users" (fun T => { T with rows := [ann] }) fun _ => rfl } with
    | none => rfl
    | some db₁ => cases noUsers_of_upgrade h _ hr.self
  refine ⟨_, ⟨db₀, hrun, hr.sameSchema hinit.users rfl rfl⟩, by rw [hr.self]; rfl, hfail, ?_⟩
  intro ⟨db₁, h₁, _⟩
  rw [hfail] at h₁
  cases h₁

end BusBookings
