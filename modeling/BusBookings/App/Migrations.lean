import BusBookings.Base.Ddl

/-!
# The migrations (`migration/versions`)

`Op` is what Alembic's operations send to PostgreSQL: `create_table` first creates the enumerated
types of its columns without asking whether they exist, `add_column` creates none, and no operation
drops one. The sequence of an integer key belongs to its table.
-/

namespace BusBookings

open Ddl

/-! ## Alembic -/

/-- A column's type in SQLAlchemy; `dateTime` is with a time zone. -/
inductive SaType where
  | integer
  | boolean
  | string (length : Nat)
  | dateTime
  | numeric (precision scale : Nat)
  | enum (labels : List String) (name : String)
deriving DecidableEq, Repr

namespace SaType

def compile : SaType → ColumnType
  | integer => .integer
  | boolean => .boolean
  | string length => .string length
  | dateTime => .timestamptz
  | numeric precision scale => .numeric precision scale
  | enum _ name => .enum name

/-- `CREATE TYPE`, for an enumeration. -/
def create? : SaType → Option Stmt
  | enum labels name => some (.createType name labels)
  | _ => none

end SaType

/-- `sa.Column`. -/
structure SaColumn where
  name : String
  type : SaType
  nullable : Bool
  serverDefault : Option String

def SaColumn.compile (c : SaColumn) : Column := ⟨c.name, c.type.compile, c.nullable, c.serverDefault⟩

namespace Op

def createTable (name : String) (columns : List SaColumn) (constraints : List Constraint) : List Stmt :=
  columns.filterMap (·.type.create?) ++
    [.createTable name (columns.map SaColumn.compile) constraints]

def createIndex (name table : String) (columns : List String) (isUnique : Bool) : List Stmt :=
  [.createIndex ⟨name, table, columns, isUnique⟩]

def dropIndex (name : String) : List Stmt := [.dropIndex name]

def dropTable (name : String) : List Stmt := [.dropTable name]

def addColumn (table : String) (column : SaColumn) : List Stmt := [.addColumn table column.compile]

def dropColumn (table column : String) : List Stmt := [.dropColumn table column]

end Op

/-! ## The scripts -/

/-- `ad60df1100dd_init`, `011ecd79da3a_fix_models`, `d97294d6ba68_add_userstatus`. -/
inductive Revision where
  | init
  | fixModels
  | addUserstatus
deriving DecidableEq, Repr

namespace Revision

def downRevision : Revision → Option Revision
  | init => none
  | fixModels => some init
  | addUserstatus => some fixModels

def upgrade : Revision → List Stmt
  | init => List.flatten [
      Op.createTable "routes"
        [⟨"id", .integer, false, none⟩,
         ⟨"origin", .string 100, false, none⟩,
         ⟨"destination", .string 100, false, none⟩,
         ⟨"departure_at", .dateTime, false, none⟩,
         ⟨"arrival_at", .dateTime, false, none⟩,
         ⟨"total_seats", .integer, false, none⟩,
         ⟨"price", .numeric 10 2, false, none⟩,
         ⟨"is_active", .boolean, false, none⟩]
        [.primaryKey ["id"]],
      Op.createIndex "ix_routes_destination" "routes" ["destination"] false,
      Op.createIndex "ix_routes_origin" "routes" ["origin"] false,
      Op.createTable "users"
        [⟨"id", .integer, false, none⟩,
         ⟨"email", .string 255, false, none⟩,
         ⟨"hashed_password", .string 255, false, none⟩,
         ⟨"full_name", .string 255, false, none⟩,
         ⟨"is_active", .boolean, false, none⟩,
         ⟨"created_at", .dateTime, false, some "now()"⟩]
        [.primaryKey ["id"]],
      Op.createIndex "ix_users_email" "users" ["email"] true,
      Op.createTable "seats"
        [⟨"id", .integer, false, none⟩,
         ⟨"route_id", .integer, false, none⟩,
         ⟨"seat_number", .integer, false, none⟩,
         ⟨"is_booked", .boolean, false, none⟩]
        [.foreignKey ["route_id"] "routes" ["id"],
         .primaryKey ["id"],
         .unique (some "uq_route_seat") ["route_id", "seat_number"]],
      Op.createIndex "ix_seats_route_id" "seats" ["route_id"] false,
      Op.createTable "bookings"
        [⟨"id", .integer, false, none⟩,
         ⟨"user_id", .integer, false, none⟩,
         ⟨"route_id", .integer, false, none⟩,
         ⟨"seat_id", .integer, false, none⟩,
         ⟨"status", .enum ["PENDING", "CONFIRMED", "CANCELLED"] "bookingstatus", false, none⟩,
         ⟨"total_price", .numeric 10 2, false, none⟩,
         ⟨"created_at", .dateTime, false, some "now()"⟩,
         ⟨"updated_at", .dateTime, false, some "now()"⟩]
        [.foreignKey ["route_id"] "routes" ["id"],
         .foreignKey ["seat_id"] "seats" ["id"],
         .foreignKey ["user_id"] "users" ["id"],
         .primaryKey ["id"],
         .unique none ["seat_id"]],
      Op.createIndex "ix_bookings_route_id" "bookings" ["route_id"] false,
      Op.createIndex "ix_bookings_user_id" "bookings" ["user_id"] false]
  | fixModels => List.flatten [
      Op.addColumn "users" ⟨"username", .string 255, false, none⟩,
      Op.addColumn "users" ⟨"first_name", .string 255, false, none⟩,
      Op.addColumn "users" ⟨"last_name", .string 255, false, none⟩,
      Op.dropColumn "users" "full_name"]
  | addUserstatus => List.flatten [
      [.createType "userstatus" ["USER", "ADMIN"]],
      Op.addColumn "users" ⟨"role", .enum ["USER", "ADMIN"] "userstatus", false, none⟩]

def downgrade : Revision → List Stmt
  | init => List.flatten [
      Op.dropIndex "ix_bookings_user_id",
      Op.dropIndex "ix_bookings_route_id",
      Op.dropTable "bookings",
      Op.dropIndex "ix_seats_route_id",
      Op.dropTable "seats",
      Op.dropIndex "ix_users_email",
      Op.dropTable "users",
      Op.dropIndex "ix_routes_origin",
      Op.dropIndex "ix_routes_destination",
      Op.dropTable "routes"]
  | fixModels => List.flatten [
      Op.addColumn "users" ⟨"full_name", .string 255, false, none⟩,
      Op.dropColumn "users" "last_name",
      Op.dropColumn "users" "first_name",
      Op.dropColumn "users" "username"]
  | addUserstatus => Op.dropColumn "users" "role"

/-- The statements that lead from the empty database to the revision. -/
def history : Option Revision → List Stmt
  | none => []
  | some init => init.upgrade
  | some fixModels => init.upgrade ++ fixModels.upgrade
  | some addUserstatus => init.upgrade ++ fixModels.upgrade ++ addUserstatus.upgrade

end Revision

end BusBookings
