import Mathlib.Data.List.Forall2
import Mathlib.Logic.Function.Basic
import BusBookings.Base.Table

/-!
# Data definition statements of PostgreSQL

A database has enumerated types, tables with rows, and indexes. A statement fails (`none`) or
changes them: `CREATE TYPE` and `CREATE TABLE` fail if the name is taken, `ADD COLUMN` with
`NOT NULL` and no default fails on a table with rows, and no statement here drops a type.

* `run_keeps`: statements that succeed keep every row, and every column and value, that they do not
  drop.
* `types_of_run`: they keep every type.
* `Replaces`: only one table changes; how a successful `ADD COLUMN` or `DROP COLUMN` is used.
-/

namespace Ddl

inductive ColumnType where
  | integer
  | boolean
  | string (length : Nat)
  | timestamptz
  | numeric (precision scale : Nat)
  | enum (name : String)
deriving DecidableEq, Repr

structure Column where
  name : String
  type : ColumnType
  nullable : Bool
  serverDefault : Option String
deriving DecidableEq, Repr

inductive Constraint where
  | primaryKey (columns : List String)
  | unique (name : Option String) (columns : List String)
  | foreignKey (columns : List String) (table : String) (references : List String)
deriving DecidableEq, Repr

namespace Constraint

def columns : Constraint → List String
  | primaryKey columns | unique _ columns | foreignKey columns _ _ => columns

/-- The constraint refers to the table, or to its column. -/
def refersTo (table : String) (column : Option String) : Constraint → Bool
  | foreignKey _ table' references => table' = table && column.all (· ∈ references)
  | _ => false

end Constraint

/-- The value of each column; `none`: `NULL`, or no such column. -/
abbrev Row (ν : Type) := String → Option ν

structure Relation (ν : Type) where
  name : String
  columns : String → Option Column
  constraints : List Constraint
  rows : List (Row ν)

structure Index where
  name : String
  table : String
  columns : List String
  isUnique : Bool
deriving DecidableEq, Repr

structure Db (ν : Type) where
  /-- The enumerated types with their labels. -/
  types : String → Option (List String)
  tables : Table (Relation ν) Relation.name
  indexes : Table Index Index.name

inductive Stmt where
  | createType (name : String) (labels : List String)
  | createTable (name : String) (columns : List Column) (constraints : List Constraint)
  | createIndex (index : Index)
  | dropIndex (name : String)
  | dropTable (name : String)
  | addColumn (table : String) (column : Column)
  | dropColumn (table column : String)
deriving DecidableEq, Repr

variable {ν : Type}

/-! ## Execution -/

namespace Relation

/-- No two rows have the same values in the columns, `NULL`s apart. -/
def distinctOn [DecidableEq ν] (T : Relation ν) (columns : List String) : Bool :=
  T.rows.Pairwise fun r r' => ¬ columns.all fun c => (r c).isSome && r c = r' c

def addColumn (T : Relation ν) (column : Column) (value : Option ν) : Relation ν := { T with
  columns := Function.update T.columns column.name (some column)
  rows := T.rows.map (Function.update · column.name value) }

/-- The constraints of the table that involve the column go with it. -/
def dropColumn (T : Relation ν) (column : String) : Relation ν := { T with
  columns := Function.update T.columns column none
  constraints := T.constraints.filter (column ∉ ·.columns)
  rows := T.rows.map (Function.update · column none) }

theorem name_addColumn (column : Column) (value : Option ν) (T : Relation ν) :
    (T.addColumn column value).name = T.name := rfl

theorem name_dropColumn (column : String) (T : Relation ν) : (T.dropColumn column).name = T.name := rfl

end Relation

namespace Db

def empty : Db ν := ⟨fun _ => none, .empty, .empty⟩

/-- A column of this type can be declared. -/
def hasType (db : Db ν) : ColumnType → Bool
  | .enum name => (db.types name).isSome
  | _ => true

/-- What the constraint refers to exists. -/
def hasTarget (db : Db ν) : Constraint → Bool
  | .foreignKey _ table references =>
    (db.tables.find? table).any fun T => references.all fun c => (T.columns c).isSome
  | _ => true

/-- A foreign key of another table refers to the table, or to its column. -/
def isReferenced (db : Db ν) (table : String) (column : Option String) : Bool :=
  db.tables.rows.any fun T => T.name ≠ table && T.constraints.any (·.refersTo table column)

end Db

/-- The statement's effect; `eval` is the value that a default expression has now. -/
def Stmt.run [DecidableEq ν] (eval : String → ν) (db : Db ν) : Stmt → Option (Db ν)
  | .createType name labels =>
    if (db.types name).isNone then
      some { db with types := Function.update db.types name (some labels) }
    else none
  | .createTable name columns constraints =>
    if (db.tables.find? name).isNone && columns.all (db.hasType ·.type) &&
        constraints.all db.hasTarget then
      let T : Relation ν := ⟨name, fun c => columns.find? (·.name = c), constraints, []⟩
      some { db with tables := db.tables.insert T }
    else none
  | .createIndex index =>
    match db.tables.find? index.table with
    | none => none
    | some T =>
      if (db.indexes.find? index.name).isNone && index.columns.all (fun c => (T.columns c).isSome) &&
          (!index.isUnique || T.distinctOn index.columns) then
        some { db with indexes := db.indexes.insert index }
      else none
  | .dropIndex name =>
    if (db.indexes.find? name).isSome then
      some { db with indexes := db.indexes.filter (·.name ≠ name) }
    else none
  | .dropTable name =>
    if (db.tables.find? name).isSome && !db.isReferenced name none then
      some { db with
        tables := db.tables.filter (·.name ≠ name)
        indexes := db.indexes.filter (·.table ≠ name) }
    else none
  | .addColumn table column =>
    match db.tables.find? table with
    | none => none
    | some T =>
      if (T.columns column.name).isNone && db.hasType column.type &&
          (column.nullable || column.serverDefault.isSome || T.rows.isEmpty) then
        let value := column.serverDefault.map eval
        some { db with tables := db.tables.update table (·.addColumn column value) fun _ => rfl }
      else none
  | .dropColumn table column =>
    match db.tables.find? table with
    | none => none
    | some T =>
      if (T.columns column).isSome && !db.isReferenced table (some column) then
        some { db with
          tables := db.tables.update table (·.dropColumn column) fun _ => rfl
          indexes := db.indexes.filter fun i => ¬ (i.table = table ∧ column ∈ i.columns) }
      else none

/-- The statements in order; the first failure ends them. -/
def run [DecidableEq ν] (eval : String → ν) (stmts : List Stmt) (db : Db ν) : Option (Db ν) :=
  stmts.foldlM (Stmt.run eval) db

/-! ## What statements keep -/

section

variable [DecidableEq ν] {eval : String → ν} {db db' db'' : Db ν} {stmt : Stmt}
  {stmts : List Stmt}

theorem run_cons : run eval (stmt :: stmts) db = (stmt.run eval db).bind (run eval stmts) := rfl

/-- What a statement that succeeds does. -/
inductive Effect (eval : String → ν) (db : Db ν) : Stmt → Db ν → Prop where
  | createType {name : String} {labels : List String} (h : db.types name = none) :
    Effect eval db (.createType name labels)
      { db with types := Function.update db.types name (some labels) }
  | createTable {name : String} {columns : List Column} {constraints : List Constraint}
    (T : Relation ν) : Effect eval db (.createTable name columns constraints)
      { db with tables := db.tables.insert T }
  | createIndex {index : Index} (indexes : Table Index Index.name) :
    Effect eval db (.createIndex index) { db with indexes }
  | dropIndex {name : String} (indexes : Table Index Index.name) :
    Effect eval db (.dropIndex name) { db with indexes }
  | dropTable {name : String} (indexes : Table Index Index.name) :
    Effect eval db (.dropTable name) { db with tables := db.tables.filter (·.name ≠ name), indexes }
  | addColumn {table : String} {column : Column} {T : Relation ν} (value : Option ν)
    (hT : db.tables.find? table = some T) (hnew : T.columns column.name = none)
    (hrows : column.nullable = true ∨ column.serverDefault.isSome = true ∨ T.rows = []) :
    Effect eval db (.addColumn table column)
      { db with tables := db.tables.update table (·.addColumn column value) fun _ => rfl }
  | dropColumn {table column : String} (indexes : Table Index Index.name) :
    Effect eval db (.dropColumn table column)
      { db with tables := db.tables.update table (·.dropColumn column) fun _ => rfl, indexes }

theorem Stmt.effect (h : stmt.run eval db = some db') : Effect eval db stmt db' := by
  unfold Stmt.run at h
  split at h
  · split at h
    · rename_i hnone
      cases h
      exact .createType (Option.isNone_iff_eq_none.1 hnone)
    · cases h
  · split at h
    · cases h
      exact .createTable _
    · cases h
  · split at h
    · cases h
    · split at h
      · cases h
        exact .createIndex _
      · cases h
  · split at h
    · cases h
      exact .dropIndex _
    · cases h
  · split at h
    · cases h
      exact .dropTable _
    · cases h
  · split at h
    · cases h
    · rename_i T hT
      split at h
      · rename_i hok
        simp only [Bool.and_eq_true, Bool.or_eq_true, Option.isNone_iff_eq_none,
          List.isEmpty_iff, or_assoc] at hok
        cases h
        exact .addColumn _ hT hok.1.1 hok.2
      · cases h
  · split at h
    · cases h
    · split at h
      · cases h
        exact .dropColumn _
      · cases h

omit [DecidableEq ν] in
/-- **A statement drops no type.** -/
theorem Effect.types (h : Effect eval db stmt db') {n : String} {labels : List String}
    (hn : db.types n = some labels) : db'.types n = some labels := by
  cases h with
  | @createType name _ hnone =>
    have hne : n ≠ name := fun he => by rw [← he, hn] at hnone; cases hnone
    simpa [hne] using hn
  | _ => exact hn

theorem types_of_run (h : run eval stmts db = some db') {n : String} {labels : List String}
    (hn : db.types n = some labels) : db'.types n = some labels := by
  induction stmts generalizing db with
  | nil =>
    cases h
    exact hn
  | cons stmt stmts ih =>
    rw [run_cons] at h
    obtain ⟨db₁, h₁, h⟩ := Option.bind_eq_some_iff.1 h
    exact ih h ((Stmt.effect h₁).types hn)

/-- A type that a successful script creates was not there before, and is there after. -/
theorem creates_type (h : run eval stmts db = some db') {n : String} {labels : List String}
    (hmem : .createType n labels ∈ stmts) : db.types n = none ∧ db'.types n = some labels := by
  induction stmts generalizing db with
  | nil => cases hmem
  | cons stmt stmts ih =>
    rw [run_cons] at h
    obtain ⟨db₁, h₁, h⟩ := Option.bind_eq_some_iff.1 h
    rcases List.mem_cons.1 hmem with rfl | hmem
    · cases Stmt.effect h₁ with
      | createType hnone => exact ⟨hnone, types_of_run h (by simp)⟩
    · obtain ⟨hnone, hsome⟩ := ih h hmem
      refine ⟨?_, hsome⟩
      cases hn : db.types n with
      | none => rfl
      | some labels' =>
        rw [(Stmt.effect h₁).types hn] at hnone
        cases hnone

/-- The columns of `T` that are not dropped are in `T'`, with their values in every row. -/
structure Relation.Kept (dropped : String → Prop) (T T' : Relation ν) : Prop where
  columns : ∀ c column, T.columns c = some column → ¬ dropped c → T'.columns c = some column
  rows : List.Forall₂ (fun r r' => ∀ c, (T.columns c).isSome → ¬ dropped c → r' c = r c) T.rows T'.rows

/-- Every table, row, column and value that `stmts` do not drop is still there. -/
def Keeps (stmts : List Stmt) (db db' : Db ν) : Prop :=
  ∀ t T, db.tables.find? t = some T → .dropTable t ∉ stmts →
    ∃ T', db'.tables.find? t = some T' ∧ T.Kept (.dropColumn t · ∈ stmts) T'

omit [DecidableEq ν] in
theorem Relation.Kept.refl (dropped : String → Prop) (T : Relation ν) : T.Kept dropped T :=
  ⟨fun _ _ h _ => h, List.forall₂_same.2 fun _ _ _ _ _ => rfl⟩

theorem forall₂_trans {α : Type} {R S U : α → α → Prop} (h : ∀ a b c, R a b → S b c → U a c)
    {as bs cs : List α} (hR : List.Forall₂ R as bs) (hS : List.Forall₂ S bs cs) :
    List.Forall₂ U as cs := by
  induction hR generalizing cs with
  | nil =>
    cases hS
    exact .nil
  | cons hab _ ih =>
    cases hS with
    | cons hbc hS => exact .cons (h _ _ _ hab hbc) (ih hS)

omit [DecidableEq ν] in
theorem Relation.Kept.trans {dropped : String → Prop} {T T' T'' : Relation ν}
    (h : T.Kept dropped T') (h' : T'.Kept dropped T'') : T.Kept dropped T'' := by
  refine ⟨fun c column hc hd => h'.columns c column (h.columns c column hc hd) hd, ?_⟩
  refine forall₂_trans (fun r r' r'' hr hr' c hc hd => ?_) h.rows h'.rows
  obtain ⟨column, hcolumn⟩ := Option.isSome_iff_exists.1 hc
  have hc' : (T'.columns c).isSome := by
    rw [h.columns c column hcolumn hd]
    rfl
  exact (hr' c hc' hd).trans (hr c hc hd)

omit [DecidableEq ν] in
/-- A table that changes in one column only, which is new or dropped. -/
theorem Relation.kept_update {dropped : String → Prop} {T T' : Relation ν} {c : String}
    {column : Option Column} {value : Option ν} (hc : T.columns c = none ∨ dropped c)
    (hcolumns : T'.columns = Function.update T.columns c column)
    (hrows : T'.rows = T.rows.map (Function.update · c value)) : T.Kept dropped T' := by
  have hne {c' : String} {column' : Column} (hc' : T.columns c' = some column') (hd : ¬ dropped c') :
      c' ≠ c := by
    rintro rfl
    rcases hc with hc | hc
    · rw [hc] at hc'
      cases hc'
    · exact hd hc
  refine ⟨fun c' column' hc' hd => ?_, ?_⟩
  · rw [hcolumns, Function.update_of_ne (hne hc' hd), hc']
  · rw [hrows]
    refine List.forall₂_map_right_iff.2 (List.forall₂_same.2 fun r _ c' hc' hd => ?_)
    obtain ⟨column', hc'⟩ := Option.isSome_iff_exists.1 hc'
    exact Function.update_of_ne (hne hc' hd) _ _

omit [DecidableEq ν] in
/-- **One statement** keeps what it does not drop. -/
theorem Effect.keeps (h : Effect eval db stmt db') (hmem : stmt ∈ stmts) : Keeps stmts db db' := by
  intro t T hT hdrop
  have hsame : ∃ T', db.tables.find? t = some T' ∧ T.Kept (.dropColumn t · ∈ stmts) T' :=
    ⟨T, hT, .refl _ T⟩
  cases h with
  | createTable T' =>
    obtain ⟨hrow, hname⟩ := Table.find?_eq_some.1 hT
    exact ⟨T, Table.find?_eq_some.2 ⟨Table.mem_insert_of_mem hrow, hname⟩, .refl _ T⟩
  | @dropTable name indexes =>
    obtain ⟨hrow, hname⟩ := Table.find?_eq_some.1 hT
    have hne : t ≠ name := fun he => hdrop (he ▸ hmem)
    refine ⟨T, Table.find?_eq_some.2 ⟨?_, hname⟩, .refl _ T⟩
    exact List.mem_filter.2 ⟨hrow, by simpa [hname] using hne⟩
  | @addColumn table column T' value hT' hnew hrows =>
    have hname := Relation.name_addColumn column value
    by_cases ht : t = table
    · subst ht
      obtain rfl : T' = T := Option.some.inj (hT'.symm.trans hT)
      exact ⟨_, Table.find?_update_self hname hT, Relation.kept_update (.inl hnew) rfl rfl⟩
    · exact ⟨T, (Table.find?_update_ne hname ht).trans hT, .refl _ T⟩
  | @dropColumn table column indexes =>
    have hname := Relation.name_dropColumn (ν := ν) column
    by_cases ht : t = table
    · subst ht
      exact ⟨_, Table.find?_update_self hname hT, Relation.kept_update (.inr hmem) rfl rfl⟩
    · exact ⟨T, (Table.find?_update_ne hname ht).trans hT, .refl _ T⟩
  | _ => exact hsame

omit [DecidableEq ν] in
theorem Keeps.trans (h : Keeps stmts db db') (h' : Keeps stmts db' db'') : Keeps stmts db db'' := by
  intro t T hT hdrop
  obtain ⟨T', hT', hkept⟩ := h t T hT hdrop
  obtain ⟨T'', hT'', hkept'⟩ := h' t T' hT' hdrop
  exact ⟨T'', hT'', hkept.trans hkept'⟩

/-- **Statements that succeed** keep what they do not drop. -/
theorem run_keeps (h : run eval stmts db = some db') : Keeps stmts db db' := by
  have key : ∀ {rest db}, rest ⊆ stmts → run eval rest db = some db' → Keeps stmts db db' := by
    intro rest
    induction rest with
    | nil =>
      intro db _ h
      cases h
      exact fun t T hT _ => ⟨T, hT, .refl _ T⟩
    | cons stmt rest ih =>
      intro db hsub h
      rw [run_cons] at h
      obtain ⟨db₁, h₁, h⟩ := Option.bind_eq_some_iff.1 h
      exact ((Stmt.effect h₁).keeps (hsub (by simp))).trans
        (ih (fun x hx => hsub (List.mem_cons_of_mem _ hx)) h)
  exact key (fun _ hx => hx) h

/-! ## The schema -/

/-- Both have the same types, the same tables but for their rows, and the same indexes. -/
structure SameSchema (db db' : Db ν) : Prop where
  types : ∀ n, db.types n = db'.types n
  tables : ∀ t, (db.tables.find? t).map (fun T => (T.columns, T.constraints)) =
    (db'.tables.find? t).map fun T => (T.columns, T.constraints)
  indexes : ∀ n, db.indexes.find? n = db'.indexes.find? n

omit [DecidableEq ν] in
theorem SameSchema.find? (h : SameSchema db db') {t : String} {T : Relation ν}
    (hT : db.tables.find? t = some T) : ∃ T', db'.tables.find? t = some T' ∧
      T'.columns = T.columns ∧ T'.constraints = T.constraints := by
  have heq := h.tables t
  rw [hT, Option.map_some, eq_comm, Option.map_eq_some_iff] at heq
  obtain ⟨T', hT', hsame⟩ := heq
  obtain ⟨hcolumns, hconstraints⟩ := Prod.mk.inj hsame
  exact ⟨T', hT', hcolumns, hconstraints⟩

omit [DecidableEq ν] in
theorem SameSchema.symm (h : SameSchema db db') : SameSchema db' db :=
  ⟨fun n => (h.types n).symm, fun t => (h.tables t).symm, fun n => (h.indexes n).symm⟩

omit [DecidableEq ν] in
theorem SameSchema.mem_indexes (h : SameSchema db db') {i : Index} (hi : i ∈ db.indexes.rows) :
    i ∈ db'.indexes.rows :=
  (Table.find?_eq_some.1 ((h.indexes i.name).symm.trans (Table.find?_mem hi))).1

omit [DecidableEq ν] in
theorem SameSchema.isReferenced_mono (h : SameSchema db db') {t : String} {c : Option String}
    (href : db.isReferenced t c = true) : db'.isReferenced t c = true := by
  simp only [Db.isReferenced, List.any_eq_true, Bool.and_eq_true, decide_eq_true_eq] at href ⊢
  obtain ⟨T, hmem, hname, hconstraint⟩ := href
  obtain ⟨T', hT', -, hsame⟩ := h.find? (Table.find?_mem hmem)
  obtain ⟨hmem', hname'⟩ := Table.find?_eq_some.1 hT'
  exact ⟨T', hmem', hname' ▸ hname, hsame ▸ hconstraint⟩

/-- `db'` is `db` with table `t` replaced by `T`. -/
structure Replaces (t : String) (T : Relation ν) (db db' : Db ν) : Prop where
  types : db'.types = db.types
  indexes : db'.indexes = db.indexes
  self : db'.tables.find? t = some T
  others : ∀ t', t' ≠ t → db'.tables.find? t' = db.tables.find? t'
  referenced : ∀ c, db'.isReferenced t c = db.isReferenced t c

omit [DecidableEq ν] in
theorem Replaces.trans {t : String} {T T' : Relation ν} (h : Replaces t T db db')
    (h' : Replaces t T' db' db'') : Replaces t T' db db'' :=
  ⟨h'.types.trans h.types, h'.indexes.trans h.indexes, h'.self,
    fun t' ht' => (h'.others t' ht').trans (h.others t' ht'),
    fun c => (h'.referenced c).trans (h.referenced c)⟩

omit [DecidableEq ν] in
/-- A table that is replaced by one with its columns and constraints leaves the schema as it was. -/
theorem Replaces.sameSchema {t : String} {T T' : Relation ν} (h : Replaces t T' db db')
    (hT : db.tables.find? t = some T) (hcolumns : T'.columns = T.columns)
    (hconstraints : T'.constraints = T.constraints) : SameSchema db' db := by
  refine ⟨fun n => congrFun h.types n, fun t' => ?_, fun n => by rw [h.indexes]⟩
  by_cases ht : t' = t
  · subst ht
    rw [h.self, hT, Option.map_some, Option.map_some, hcolumns, hconstraints]
  · rw [h.others t' ht]

omit [DecidableEq ν] in
theorem Replaces.refl {t : String} {T : Relation ν} (hT : db.tables.find? t = some T) :
    Replaces t T db db :=
  ⟨rfl, rfl, hT, fun _ _ => rfl, fun _ => rfl⟩

omit [DecidableEq ν] in
theorem replaces_update {t : String} {T : Relation ν} {f : Relation ν → Relation ν}
    (hf : ∀ T, (f T).name = T.name) (hT : db.tables.find? t = some T) :
    Replaces t (f T) db { db with tables := db.tables.update t f hf } := by
  refine ⟨rfl, rfl, Table.find?_update_self hf hT, fun t' ht' => Table.find?_update_ne hf ht',
    fun c => ?_⟩
  simp only [Db.isReferenced, Table.update, List.any_map]
  congr 1
  funext T'
  simp only [Function.comp_apply]
  split
  · rename_i hname
    simp [hf, hname]
  · rfl

/-- `ADD COLUMN` on a table without rows. -/
theorem run_addColumn {t : String} {T : Relation ν} {column : Column}
    (hT : db.tables.find? t = some T) (hrows : T.rows = []) (hnew : T.columns column.name = none)
    (htype : db.hasType column.type = true) : ∃ db',
    (Stmt.addColumn t column).run eval db = some db' ∧
      Replaces t (T.addColumn column (column.serverDefault.map eval)) db db' := by
  refine ⟨_, ?_, replaces_update (Relation.name_addColumn column _) hT⟩
  simp [Stmt.run, hT, hrows, hnew, htype]

/-- `DROP COLUMN` of a column without indexes and references. -/
theorem run_dropColumn {t : String} {T : Relation ν} {column : String}
    (hT : db.tables.find? t = some T) (hold : (T.columns column).isSome = true)
    (href : db.isReferenced t (some column) = false)
    (hindex : ∀ i ∈ db.indexes.rows, i.table = t → column ∉ i.columns) : ∃ db',
    (Stmt.dropColumn t column).run eval db = some db' ∧
      Replaces t (T.dropColumn column) db db' := by
  have hfilter : db.indexes.filter (fun i => ¬ (i.table = t ∧ column ∈ i.columns)) = db.indexes :=
    Table.ext (List.filter_eq_self.2 fun i hi =>
      decide_eq_true fun ⟨htable, hc⟩ => hindex i hi htable hc)
  refine ⟨_, ?_, replaces_update (Relation.name_dropColumn column) hT⟩
  simp only [Stmt.run, hT, hold, href, hfilter, Bool.not_false, Bool.and_self, if_true]

/-- In databases that are `db` but for table `t`, the statements turn `T` into `T'`. -/
def Turns (eval : String → ν) (stmts : List Stmt) (t : String) (db : Db ν) (T T' : Relation ν) : Prop :=
  ∀ d, Replaces t T db d → ∃ d', run eval stmts d = some d' ∧ Replaces t T' db d'

namespace Turns

variable {t : String} {T T' : Relation ν}

theorem nil : Turns eval [] t db T T := fun d h => ⟨d, rfl, h⟩

theorem addColumn {column : Column} (hrows : T.rows = []) (hnew : T.columns column.name = none)
    (htype : db.hasType column.type = true)
    (h : Turns eval stmts t db (T.addColumn column (column.serverDefault.map eval)) T') :
    Turns eval (.addColumn t column :: stmts) t db T T' := by
  intro d hd
  have htype' : d.hasType column.type = true := by
    unfold Db.hasType at htype ⊢
    rwa [hd.types]
  obtain ⟨d₁, hrun, h₁⟩ := run_addColumn hd.self hrows hnew htype'
  obtain ⟨d', hrest, h'⟩ := h d₁ (hd.trans h₁)
  exact ⟨d', by rw [run_cons, hrun]; exact hrest, h'⟩

theorem dropColumn {column : String} (hold : (T.columns column).isSome = true)
    (href : db.isReferenced t (some column) = false)
    (hindex : ∀ i ∈ db.indexes.rows, i.table = t → column ∉ i.columns)
    (h : Turns eval stmts t db (T.dropColumn column) T') :
    Turns eval (.dropColumn t column :: stmts) t db T T' := by
  intro d hd
  obtain ⟨d₁, hrun, h₁⟩ := run_dropColumn hd.self hold ((hd.referenced _).trans href)
    (by rw [hd.indexes]; exact hindex)
  obtain ⟨d', hrest, h'⟩ := h d₁ (hd.trans h₁)
  exact ⟨d', by rw [run_cons, hrun]; exact hrest, h'⟩

end Turns

end

end Ddl
