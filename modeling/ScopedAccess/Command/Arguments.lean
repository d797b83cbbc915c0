import ScopedAccess.Command
import ScopedAccess.Store.Address
/-!
# Command lines

The words of a command line: a command with its operands, and options anywhere among
them. The path of a configuration is an option of every command.
-/

namespace ScopedAccess

set_option autoImplicit false

/-- A command with its operands. -/
inductive Invocation where
  | entities
  | compile (entity filter : String)
  | resolve (actor : Actor)
  | query (actor : Actor) (entity filter : String) (page : Page)

/-- What a command line asks for. -/
structure Arguments where
  configuration : Option String
  invocation : Invocation

/-- The words of a command line, sorted. -/
structure SortedArguments where
  operands : List String
  /-- Options with their values. -/
  options : List (String × String)
  /-- Options that take no value. -/
  flags : List String

namespace SortedArguments

/-- The name that an option with a value has, however it is written. -/
def optionOfWord? : String → Option String
  | "-c" => some "config"
  | "--config" => some "config"
  | "--user" => some "user"
  | "--org" => some "org"
  | "--offset" => some "offset"
  | "--limit" => some "limit"
  | _ => none

def flagOfWord? : String → Option String
  | "--total" => some "total"
  | _ => none

/-- Sort the words of a command line; none if an option is unknown or lacks its
value. -/
def ofWords? : List String → Option SortedArguments
  | [] => some ⟨[], [], []⟩
  | word :: rest =>
    match optionOfWord? word, flagOfWord? word, rest with
    | some name, _, value :: rest =>
      (ofWords? rest).map fun a => { a with options := (name, value) :: a.options }
    | some _, _, [] => none
    | none, some name, rest => (ofWords? rest).map fun a => { a with flags := name :: a.flags }
    | none, none, rest =>
      if word.startsWith "-" then none
      else (ofWords? rest).map fun a => { a with operands := word :: a.operands }

/-- The identifier that an option must give. -/
def uuid? (a : SortedArguments) (option : String) : Option Uuid :=
  (a.options.lookup option).bind Uuid.ofText?

def actor? (a : SortedArguments) : Option Actor := do
  return ⟨← a.uuid? "user", none, ← a.uuid? "org"⟩

/-- The natural that an option gives, if it is there. -/
def natural? (a : SortedArguments) (option : String) : Option (Option Nat) :=
  match a.options.lookup option with
  | none => some none
  | some text => text.toNat?.map some

def page? (a : SortedArguments) : Option Page := do
  let offset ← a.natural? "offset"
  return ⟨offset.getD 0, ← a.natural? "limit", a.flags.contains "total"⟩

def invocation? (a : SortedArguments) : Option Invocation :=
  match a.operands with
  | ["entities"] => some .entities
  | ["compile", entity, filter] => some (.compile entity filter)
  | ["resolve"] => a.actor?.map .resolve
  | ["query", entity] => do return .query (← a.actor?) entity "\x7b\x7d" (← a.page?)
  | ["query", entity, filter] => do return .query (← a.actor?) entity filter (← a.page?)
  | _ => none

end SortedArguments

/-- Read a command line. -/
def Arguments.ofWords? (words : List String) : Option Arguments := do
  let a ← SortedArguments.ofWords? words
  return ⟨a.options.lookup "config", ← a.invocation?⟩

/-- Carry out a command. -/
def Invocation.report (c : AppConfig) (now : Instant) : Invocation → Report
  | entities => Command.entities c
  | compile entity filter => Command.compile c entity filter
  | resolve actor => Command.resolve c now actor
  | query actor entity filter page =>
    Command.query c Store.connect now actor entity filter page

end ScopedAccess
