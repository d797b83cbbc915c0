import ScopedAccess.Basic
import ScopedAccess.Sql.Datum
/-!
# Tables

Two spellings that differ in the case of ASCII letters only are the same name of a table, a
column or an alias; a spelling is written where a name is asked for. Three names stand for the
number of a row in every table, unless they are columns of it (`Name.rowNumbers`).

A row gives every column a value, and it has a number that goes by these names. The columns of a
table are those that it was created with, and its key, if it has one, is a column whose values
are pairwise different and not null (`Table.keepsKey`). A row that is added gets the number after
the greatest one.
-/

namespace ScopedAccess

set_option autoImplicit false

/-! ## Names -/

/-- The name of a table, a column or an alias. -/
structure Name where
  /-- The spelling in lower case. -/
  folded : String
  deriving DecidableEq

namespace Name

/-- The name of a spelling. -/
def of (spelling : String) : Name := ⟨spelling.toLower⟩

instance : Coe String Name := ⟨of⟩

/-- Whether a database keeps the name for itself. -/
def isReserved (n : Name) : Bool := "sqlite_".toList.isPrefixOf n.folded.toList

/-- Whether the name can be written in a statement. -/
def isWritable (n : Name) : Bool := !hasNull n.folded

/-- The names of the number of a row. -/
def rowNumbers : List Name := [of "rowid", of "oid", of "_rowid_"]

/-- Whether the name stands for the number of a row, in a table with these columns. -/
def isRowNumber (columns : List Name) (n : Name) : Bool :=
  rowNumbers.contains n && !columns.contains n

/-- Whether the rows of a table with these columns have a value of the name. -/
def isAnsweredBy (columns : List Name) (n : Name) : Bool :=
  columns.contains n || rowNumbers.contains n

end Name

/-! ## Rows and tables -/

/-- The values of a row by column. -/
abbrev Row : Type := Name → Datum

/-- Values for some columns of a row. -/
abbrev Assignments : Type := List (Name × Datum)

/-- A row of the values given, null elsewhere; of two values for a column the first
counts. -/
def newRow (values : Assignments) : Row := fun c => (values.lookup c).getD .null

/-- A row with some columns changed; of two values for a column the last counts. -/
def changedRow (values : Assignments) (row : Row) : Row :=
  fun c => (values.reverse.lookup c).getD (row c)

structure Table where
  columns : List Name
  key : Option Name
  rows : List Row

namespace Table

/-- Whether the values of a column are pairwise different and not null. -/
def isUnique (rows : List Row) (column : Name) : Bool :=
  let values := rows.map fun r => r column
  values.all (· ≠ .null) && decide values.Nodup

/-- Whether the key of every row is a value of its own. -/
def keepsKey (t : Table) (rows : List Row) : Bool := t.key.all (isUnique rows)

/-- Whether rows have a value for all of some names. -/
def answers (t : Table) (names : List Name) : Bool := names.all (Name.isAnsweredBy t.columns)

/-! ## The numbers of rows -/

/-- The names that stand for the number of a row. -/
def numberNames (t : Table) : List Name := Name.rowNumbers.filter (Name.isRowNumber t.columns)

/-- The number of a row; none if columns have all of its names. -/
def number? (t : Table) (row : Row) : Option Int :=
  t.numberNames.head?.bind fun name =>
    match row name with
    | .int n => some n
    | _ => none

/-- The number of the next row. -/
def nextNumber (t : Table) : Int := (t.rows.filterMap t.number?).max?.elim 1 (· + 1)

/-- The same assignments, with those to the number of a row made under all its names. -/
def spread (t : Table) (values : Assignments) : Assignments :=
  values.flatMap fun (name, d) =>
    if name.isRowNumber t.columns then t.numberNames.map fun name => (name, d) else [(name, d)]

/-- Whether rows have numbers of their own, if there are assignments to them. -/
def keepsNumbers (t : Table) (values : Assignments) (rows : List Row) : Bool :=
  let numbers := rows.map t.number?
  !values.any (fun value => value.1.isRowNumber t.columns) ||
    (numbers.all Option.isSome && decide numbers.Nodup)

/-- The values that a row is added with: those given and a number, its own if it is given
one that is not null. -/
def filled (t : Table) (values : Assignments) : Assignments :=
  let given := (t.spread values).filter fun (name, d) =>
    !(name.isRowNumber t.columns && d = .null)
  given ++ t.numberNames.map fun name => (name, .int t.nextNumber)

end Table

end ScopedAccess
