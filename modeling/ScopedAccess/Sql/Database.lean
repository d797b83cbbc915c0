import ScopedAccess.Sql.Condition
import ScopedAccess.Sql.ConditionText
import ScopedAccess.Sql.Table
/-!
# Databases

Tables by name, and the catalogue of them (`Database.table?`): the table that a database keeps of
its tables and their indexes. It can be read under its names like any other table, but no
statement changes its rows. There is a second one for temporary tables, which is empty.

`Database.evaluate` gives the truth value of a condition on a row. A column belongs
to the innermost enclosing row whose table has the alias and the column;
`Database.accepts` is the check that all names of a condition stand for something, and
`Database.reads` the check that a statement is within the limits of the database.
-/

namespace ScopedAccess

set_option autoImplicit false

/-! ## The catalogue -/

namespace Catalogue

/-- The names of the catalogue. -/
def names : List Name := [.of "sqlite_master", .of "sqlite_schema"]

/-- The names of the catalogue of temporary tables. -/
def temporaryNames : List Name := [.of "sqlite_temp_master", .of "sqlite_temp_schema"]

def columns : List Name :=
  [.of "type", .of "name", .of "tbl_name", .of "rootpage", .of "sql"]

/-- The catalogue with some rows. -/
def table (rows : List Row) : Table := ⟨columns, none, rows⟩

/-- The statement that creates a table. -/
def creation (name : String) (columns : List String) (key : Option String) : String :=
  let column (c : String) :=
    quoteName c ++ " text" ++ if key = some c then " NOT NULL PRIMARY KEY" else ""
  "CREATE TABLE " ++ quoteName name ++ " ( " ++ ", ".intercalate (columns.map column) ++ " )"

/-- The rows with one more. -/
def add (rows : List Row) (kind name tableName : String) (text : Datum) : List Row :=
  let page : Datum := .int (rows.length + 2)
  rows ++ [newRow ((table rows).filled [("type", .text kind), ("name", .text name),
    ("tbl_name", .text tableName), ("rootpage", page), ("sql", text)])]

/-- The rows after a table has been created; a key has an index of its own. -/
def addTable (rows : List Row) (name : String) (columns : List String) (key : Option String) :
    List Row :=
  let rows := add rows "table" name name (.text (creation name columns key))
  if key.isSome then add rows "index" ("sqlite_autoindex_" ++ name ++ "_1") name .null else rows

end Catalogue

/-! ## Tables by name -/

/-- What a statement may have at most. -/
structure Limits where
  /-- The height of its condition. -/
  height : Nat
  /-- The number of its parameters. -/
  parameters : Nat
  /-- The number of columns that it creates or selects. -/
  columns : Nat
  /-- The number of bytes of a pattern that is matched. -/
  pattern : Nat
  deriving DecidableEq

structure Database where
  tables : Name → Option Table
  /-- The rows of the catalogue. -/
  catalogue : List Row
  /-- Whether no table can be created. -/
  readOnly : Bool
  limits : Option Limits

/-- A row under the alias of its table. -/
structure BoundRow where
  label : Name
  columns : List Name
  row : Row

namespace Database

def empty : Database := ⟨fun _ => none, [], false, none⟩

/-- The table of a name that statements may change. -/
def stored? (db : Database) (name : Name) : Option Table :=
  if name.isReserved then none else db.tables name

/-- The table of a name. -/
def table? (db : Database) (name : Name) : Option Table :=
  if Catalogue.names.contains name then some (Catalogue.table db.catalogue)
  else if Catalogue.temporaryNames.contains name then some (Catalogue.table [])
  else db.stored? name

def set (db : Database) (name : Name) (t : Table) : Database :=
  { db with tables := fun n => if n = name then some t else db.tables n }

/-- Whether a statement on a table is within the limits of the database; `others` are the
parameters that it has beside those of its condition. Patterns are matched with rows, so that
without any they may be of any size. -/
def reads (db : Database) (t : Table) (cond : Condition) (others : Nat) : Bool :=
  db.limits.all fun l =>
    cond.reach ≤ l.height && cond.params.length + others ≤ l.parameters &&
      (t.rows.isEmpty || cond.patterns.all fun p => p.utf8ByteSize ≤ l.pattern)

/-! ## Names -/

/-- The tables in view, by alias, with their columns. -/
abbrev View : Type := List (Name × List Name)

/-- Whether a column stands for something among the tables in view. -/
def seesColumn (view : View) (c : Column) : Bool :=
  view.any fun t => t.1 = Name.of c.label && Name.isAnsweredBy t.2 c.name

/-- The tables in view inside a subquery, if its alias can be written. -/
def viewOf (db : Database) (view : View) (s : Selection) : Option View :=
  if Name.isWritable s.label then
    (db.table? s.table).map fun t => (.of s.label, t.columns) :: view
  else none

mutual

/-- Whether all names of a condition stand for something. -/
def accepts (db : Database) (view : View) : Condition → Bool
  | .compare c _ _ => seesColumn view c
  | .among _ [] _ => true
  | .among c (_ :: _) _ => seesColumn view c
  | .null c _ => seesColumn view c
  | .like c _ => seesColumn view c
  | .selected c s =>
    match db.viewOf view s with
    | some inner => seesColumn view c && seesColumn inner ⟨s.label, s.column⟩
    | none => false
  | .subquery c s filter =>
    match db.viewOf view s with
    | some inner =>
      seesColumn view c && seesColumn inner ⟨s.label, s.column⟩ && db.accepts inner filter
    | none => false
  | .truth _ => true
  | .all parts => db.acceptsAll view parts
  | .any parts => db.acceptsAll view parts

def acceptsAll (db : Database) (view : View) : List Condition → Bool
  | [] => true
  | c :: rest => db.accepts view c && db.acceptsAll view rest

end

theorem acceptsAll_eq_all (db : Database) (view : View) (cs : List Condition) :
    db.acceptsAll view cs = cs.all fun c => db.accepts view c := by
  induction cs with
  | nil => rfl
  | cons c rest ih => rw [acceptsAll, ih, List.all_cons]

/-- A conjunction is accepted if its parts are. -/
@[simp] theorem accepts_conjunction (db : Database) (view : View) (parts : List Condition) :
    db.accepts view (.all parts) = parts.all fun c => db.accepts view c := by
  rw [accepts, acceptsAll_eq_all]

/-- A disjunction is accepted if its parts are. -/
@[simp] theorem accepts_disjunction (db : Database) (view : View) (parts : List Condition) :
    db.accepts view (.any parts) = parts.all fun c => db.accepts view c := by
  rw [accepts, acceptsAll_eq_all]

/-! ## Truth -/

/-- The value of a column in the rows in view. -/
def valueOf (view : List BoundRow) (c : Column) : Datum :=
  match view.find? fun r => r.label = Name.of c.label && Name.isAnsweredBy r.columns c.name with
  | some r => r.row c.name
  | none => .null

/-- The rows of a selection, each in view in front of the others. -/
def rowsOf (db : Database) (view : List BoundRow) (s : Selection) : List (List BoundRow) :=
  match db.table? s.table with
  | some t => t.rows.map fun row => ⟨.of s.label, t.columns, row⟩ :: view
  | none => []

mutual

/-- The truth value of a condition on the rows in view. -/
def evaluate (db : Database) (view : List BoundRow) : Condition → Truth
  | .compare c op p => (valueOf view c).test op (.ofParam p)
  | .among c values negated =>
    ((valueOf view c).isAmong (values.map .ofParam)).negateIf negated
  | .null c negated => .ofBool ((valueOf view c = .null) != negated)
  | .like c pattern => (valueOf view c).matchesPattern pattern
  | .selected c s =>
    (valueOf view c).isAmong ((db.rowsOf view s).map fun v => valueOf v ⟨s.label, s.column⟩)
  | .subquery c s filter =>
    (valueOf view c).isAmong
      (((db.rowsOf view s).filter fun v => (db.evaluate v filter).isYes).map fun v =>
        valueOf v ⟨s.label, s.column⟩)
  | .truth b => .ofBool b
  | .all parts => .all (db.evaluateEach view parts)
  | .any parts => .any (db.evaluateEach view parts)

def evaluateEach (db : Database) (view : List BoundRow) : List Condition → List Truth
  | [] => []
  | c :: rest => db.evaluate view c :: db.evaluateEach view rest

end

end Database

end ScopedAccess
