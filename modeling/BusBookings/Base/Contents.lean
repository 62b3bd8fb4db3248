import BusBookings.Base.Ddl

/-!
# The rows that a schema admits

`Sound`: every row has values of the columns of its table, and the rows keep the primary keys, the
unique constraints and indexes, and the foreign keys. PostgreSQL carries a statement out iff it
leaves the database sound.

* `admits_iff`: a row whose values are listed in the order of the columns.
* `distinctOn_map`, `satisfies_foreignKey`: the constraints of tables whose rows stand for lists.
-/

namespace Ddl

variable {ν : Type}

/-- The row with these values. -/
def Row.of (values : List (String × ν)) : Row ν := fun c => (values.find? (·.1 = c)).map (·.2)

/-- The database with these rows in its tables. -/
def Db.fill (db : Db ν) (rows : String → List (Row ν)) : Db ν := { db with
  tables := ⟨db.tables.rows.map fun T => { T with rows := rows T.name }, by
    rw [List.map_map]
    exact db.tables.nodup⟩ }

section

variable (hasType : (String → Option (List String)) → ColumnType → ν → Prop)

/-- What may stand in a column, if there is one. -/
def Admits (types : String → Option (List String)) : Option Column → Option ν → Prop
  | none, value => value = none
  | some column, none => column.nullable = true
  | some column, some v => hasType types column.type v

namespace Db

/-- The row has values of the columns of the table, and of nothing else. -/
def Typed (db : Db ν) (T : Relation ν) (row : Row ν) : Prop :=
  ∀ c, Admits hasType db.types (T.columns c) (row c)

/-- The rows of the table keep the constraint. -/
def Satisfies [DecidableEq ν] (db : Db ν) (T : Relation ν) : Constraint → Prop
  | .primaryKey columns =>
    T.distinctOn columns = true ∧ ∀ row ∈ T.rows, ∀ c ∈ columns, (row c).isSome = true
  | .unique _ columns => T.distinctOn columns = true
  | .foreignKey columns table references => ∀ row ∈ T.rows, (∃ c ∈ columns, row c = none) ∨
      ∃ T', db.tables.find? table = some T' ∧
        ∃ row' ∈ T'.rows, references.map row' = columns.map row

structure Sound [DecidableEq ν] (db : Db ν) : Prop where
  typed : ∀ T ∈ db.tables.rows, ∀ row ∈ T.rows, db.Typed hasType T row
  constraints : ∀ T ∈ db.tables.rows, ∀ k ∈ T.constraints, db.Satisfies T k
  indexes : ∀ i ∈ db.indexes.rows, i.isUnique = true → ∀ T ∈ db.tables.rows, T.name = i.table →
    T.distinctOn i.columns = true

end Db

end

variable {hasType : (String → Option (List String)) → ColumnType → ν → Prop} {db : Db ν}
  {T : Relation ν}

theorem sameSchema_fill (db : Db ν) (rows : String → List (Row ν)) :
    SameSchema (db.fill rows) db := by
  refine ⟨fun _ => rfl, fun t => ?_, fun _ => rfl⟩
  simp only [Db.fill, Table.find?, List.find?_map, Option.map_map]
  rfl

/-- Values in the order of the columns. -/
theorem admits_iff {types : String → Option (List String)} {columns : List Column}
    {values : List (String × ν)} (hnodup : (columns.map (·.name)).Nodup)
    (hnames : values.map (·.1) = columns.map (·.name)) :
    (∀ c, Admits hasType types (columns.find? (·.name = c)) (Row.of values c)) ↔
      List.Forall₂ (fun column value => hasType types column.type value.2) columns values := by
  induction columns generalizing values with
  | nil =>
    obtain rfl : values = [] := by simpa using hnames
    exact iff_of_true (fun _ => rfl) .nil
  | cons column columns ih =>
    cases values with
    | nil => cases hnames
    | cons value values =>
      obtain ⟨hname, hnames⟩ := List.cons.inj hnames
      obtain ⟨hnew, hnodup⟩ := List.nodup_cons.1 hnodup
      rw [List.forall₂_cons, ← ih hnodup hnames]
      have hrest {c : String} (hc : c ≠ column.name) :
          (column :: columns).find? (·.name = c) = columns.find? (·.name = c) ∧
            Row.of (value :: values) c = Row.of values c := by
        have hc' : value.1 ≠ c := fun he => hc (he ▸ hname)
        simp [Row.of, Ne.symm hc, hc']
      have hfirst : (column :: columns).find? (·.name = column.name) = some column ∧
          Row.of (value :: values) column.name = some value.2 := by
        simp [Row.of, hname]
      constructor
      · refine fun h => ⟨?_, fun c => ?_⟩
        · have := h column.name
          rwa [hfirst.1, hfirst.2] at this
        · by_cases hc : c = column.name
          · subst hc
            have hnone : columns.find? (·.name = column.name) = none :=
              List.find?_eq_none.2 fun x hx he =>
                hnew (List.mem_map.2 ⟨x, hx, of_decide_eq_true he⟩)
            have hnone' : Row.of values column.name = none := by
              rw [Row.of, Option.map_eq_none_iff, List.find?_eq_none]
              exact fun x hx he =>
                hnew (hnames ▸ List.mem_map.2 ⟨x, hx, of_decide_eq_true he⟩)
            rw [hnone, hnone']
            exact (rfl : (none : Option ν) = none)
          · have := h c
            rwa [(hrest hc).1, (hrest hc).2] at this
      · rintro ⟨h, hs⟩ c
        by_cases hc : c = column.name
        · subst hc
          rw [hfirst.1, hfirst.2]
          exact h
        · rw [(hrest hc).1, (hrest hc).2]
          exact hs c

/-- The rows that stand for a list of elements with distinct keys. -/
theorem distinctOn_map [DecidableEq ν] {α κ : Type} {xs : List α} {f : α → Row ν} {key : α → κ}
    {columns : List String} (hrows : T.rows = xs.map f)
    (hkey : ∀ x y, (∀ c ∈ columns, (f x c).isSome = true ∧ f x c = f y c) ↔ key x = key y) :
    T.distinctOn columns = true ↔ (xs.map key).Nodup := by
  rw [Relation.distinctOn, decide_eq_true_eq, hrows, List.pairwise_map, List.Nodup,
    List.pairwise_map]
  refine List.Pairwise.iff fun {x y} => not_congr ?_
  rw [← hkey]
  simp

/-- A foreign key of one column, between rows that stand for two lists. -/
theorem satisfies_foreignKey [DecidableEq ν] {α β κ : Type} {xs : List α} {ys : List β}
    {f : α → Row ν} {g : β → Row ν} {column table reference : String} {T' : Relation ν}
    {value : κ → ν} (hvalue : Function.Injective value) {a : α → κ} {b : β → κ}
    (hrows : T.rows = xs.map f) (hT' : db.tables.find? table = some T')
    (hrows' : T'.rows = ys.map g)
    (hf : ∀ x, f x column = some (value (a x))) (hg : ∀ y, g y reference = some (value (b y))) :
    db.Satisfies T (.foreignKey [column] table [reference]) ↔ ∀ x ∈ xs, ∃ y ∈ ys, b y = a x := by
  simp [Db.Satisfies, hrows, hT', hrows', hf, hg, hvalue.eq_iff]

end Ddl
