import ScopedAccess.Schema.Entity
import ScopedAccess.Sql.Statement
import ScopedAccess.Store.Error
/-!
# The rows of entities

Records are stored in the table of their entity, each field in its column; fields
without a column are left out. Rows come back as records in the order of the primary
key, with every stored field.

A statement without any column to write is refused before it reaches the database.
-/

namespace ScopedAccess

set_option autoImplicit false

namespace Store

/-- What a statement gives, or the engine's refusal. -/
def ofEngine {α : Type} : Option α → Except StoreError α
  | some a => .ok a
  | none => .error .engine

/-- The columns of an entity, one for each stored field. -/
def columns (e : Entity) : List Name := e.storedFields.map fun f => .of f.column

/-- The columns of a record's stored fields with their values. -/
def assignments (e : Entity) (r : Record) : Assignments :=
  r.entries.filterMap fun (name, value) => (e.column? name).map fun c => (.of c, .ofJson value)

/-- The record of a row. -/
def recordOf (e : Entity) (row : Row) : Record :=
  .ofList (e.storedFields.map fun f => (f.name, (row f.column).toJson))

/-- The rows of an entity that pass, after an offset and up to a limit. An offset
alone is refused, and so are fields whose names cannot be written. -/
def select (db : Database) (e : Entity) (cond : Condition) (offset : Nat) (limit : Option Nat) :
    Except StoreError (List Record) := do
  if !e.storedFields.all fun f => Name.isWritable f.name then throw .engine
  let others := limit.toList.length + if 0 < offset then 1 else 0
  let rows ← ofEngine (db.select? e.table (columns e) cond e.primaryKey.column others)
  if 0 < offset ∧ limit = none then throw .engine
  let rows := rows.drop offset
  return (match limit with
    | some n => rows.take n
    | none => rows).map (recordOf e)

/-- The number of rows of an entity that pass. -/
def count (db : Database) (e : Entity) (cond : Condition) : Except StoreError Nat :=
  ofEngine (db.count? e.table cond)

/-- Insert a record; one row is affected. -/
def insert (db : Database) (e : Entity) (r : Record) : Except StoreError (Nat × Database) :=
  match assignments e r with
  | [] => .error (.invalidRecord s!"no stored field of '{e.name}' in record")
  | values => (ofEngine (db.insert? e.table values)).map fun db => (1, db)

/-- Apply changes to the rows that pass; their number. -/
def update (db : Database) (e : Entity) (changes : Record) (cond : Condition) :
    Except StoreError (Nat × Database) :=
  match assignments e changes with
  | [] => .error (.invalidRecord s!"no stored field of '{e.name}' in changes")
  | values => ofEngine (db.update? e.table values cond)

/-- Delete the rows that pass; their number. -/
def delete (db : Database) (e : Entity) (cond : Condition) : Except StoreError (Nat × Database) :=
  ofEngine (db.delete? e.table cond)

/-- Create the table of an entity: a column per stored field, keyed by the column of the
primary key if there is one of its spelling. -/
def createTable (db : Database) (e : Entity) : Except StoreError Database :=
  let columns := e.storedFields.map Field.column
  let key := e.primaryKey.column
  ofEngine (db.createTable? e.table columns (if columns.contains key then some key else none))

end Store

end ScopedAccess
