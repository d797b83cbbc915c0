import ScopedAccess.Sql.Database
/-!
# Statements

The statements that the store runs. Each is refused as a whole when a name in it
stands for nothing, when it is beyond the limits of the database or when the key of the
table would be broken; a refused statement has no effect. A statement acts on the rows on
which its condition is true.
-/

namespace ScopedAccess

set_option autoImplicit false

namespace Database

/-- Create a table; it needs a name of its own, which is not reserved, and at least one
column, and its columns names of their own. -/
def createTable? (db : Database) (name : String) (columns : List String) (key : Option String) :
    Option Database :=
  let names := columns.map Name.of
  if !db.readOnly ∧ !(Name.of name).isReserved ∧ (Name.of name :: names).all Name.isWritable ∧
      (db.table? name).isNone ∧ names ≠ [] ∧ names.Nodup ∧
      db.limits.all (columns.length ≤ ·.columns) then
    some { db.set name ⟨names, key.map Name.of, []⟩ with
      catalogue := Catalogue.addTable db.catalogue name columns key }
  else none

/-- Whether a row of a table passes a condition. -/
def passes (db : Database) (name : Name) (t : Table) (cond : Condition) (row : Row) : Bool :=
  (db.evaluate [⟨name, t.columns, row⟩] cond).isYes

/-- Whether a statement on a table is accepted with its condition and its other
parameters. -/
def admits (db : Database) (name : Name) (t : Table) (cond : Condition) (others : Nat) : Bool :=
  db.accepts [(name, t.columns)] cond && db.reads t cond others

/-- The rows that pass, in the order of a column; `selected` are the columns that the
statement names. -/
def select? (db : Database) (name : Name) (selected : List Name) (cond : Condition)
    (orderBy : Name) (others : Nat) : Option (List Row) := do
  let t ← db.table? name
  if db.admits name t cond others ∧ selected ≠ [] ∧ t.answers (orderBy :: selected) ∧
      db.limits.all (selected.length ≤ ·.columns) then
    some ((t.rows.filter (db.passes name t cond)).mergeSort fun a b =>
      (a orderBy).sortsBefore (b orderBy))
  else none

/-- The number of rows that pass. -/
def count? (db : Database) (name : Name) (cond : Condition) : Option Nat := do
  let t ← db.table? name
  if db.admits name t cond 0 then some (t.rows.countP (db.passes name t cond)) else none

/-- Add a row. -/
def insert? (db : Database) (name : Name) (values : Assignments) : Option Database := do
  let t ← db.stored? name
  let rows := t.rows ++ [newRow (t.filled values)]
  if t.answers (values.map Prod.fst) ∧ t.keepsKey rows ∧ t.keepsNumbers values rows then
    some (db.set name { t with rows })
  else none

/-- Change the rows that pass; their number. -/
def update? (db : Database) (name : Name) (values : Assignments) (cond : Condition) :
    Option (Nat × Database) := do
  let t ← db.stored? name
  let changes := t.spread values
  let rows := t.rows.map fun row =>
    if db.passes name t cond row then changedRow changes row else row
  if db.admits name t cond values.length ∧ t.answers (values.map Prod.fst) ∧ t.keepsKey rows ∧
      t.keepsNumbers values rows then
    some (t.rows.countP (db.passes name t cond), db.set name { t with rows })
  else none

/-- Remove the rows that pass; their number. -/
def delete? (db : Database) (name : Name) (cond : Condition) : Option (Nat × Database) := do
  let t ← db.stored? name
  if db.admits name t cond 0 then
    let rows := t.rows.filter fun row => !db.passes name t cond row
    some (t.rows.countP (db.passes name t cond), db.set name { t with rows })
  else none

end Database

end ScopedAccess
