import ScopedAccess.Config.Document
import ScopedAccess.Config.Inline
import ScopedAccess.Config.Sections
import ScopedAccess.Resolver.Program
/-!
# The configuration of the application

All sections together. The configuration is read from a document over which
variables of the environment are laid.

The name of a variable is a path of keys with two underscores or a point between them, in letters
of any case, and its text is a value in one line (`Json.ofInline`). A variable whose path has an
empty key says nothing. Variables are settings of their own, the later over the earlier, and lie
over a document: objects are laid over each other member by member, and whatever else a path
leads to is replaced (`Json.over`).
-/

namespace ScopedAccess

set_option autoImplicit false

/-! ## Variables of the environment -/

mutual

/-- A value laid over another one. -/
def Json.over : Json → Json → Json
  | .obj members, .obj below => .obj (Json.overMembers members (.ofList below)).entries
  | above, _ => above

/-- Members laid over others. -/
def Json.overMembers : List (String × Json) → SortedMap String Json → SortedMap String Json
  | [], below => below
  | (key, value) :: rest, below =>
    Json.overMembers rest (below.alter key fun old =>
      match old with
      | some old => value.over old
      | none => value)

end

/-- A variable with its text. -/
structure Variable where
  name : String
  text : String

namespace Variable

/-- Two underscores stand for a point. -/
def pointed : List Char → List Char
  | '_' :: '_' :: rest => '.' :: pointed rest
  | c :: rest => c :: pointed rest
  | [] => []

/-- The keys that lead to the setting, if none of them is empty. -/
def path? (v : Variable) : Option (List String) :=
  let keys := (pointed (trimText v.name).toLower.toList).splitOn '.'
  if keys.contains [] then none else some (keys.map .ofList)

/-- The document that says nothing but the variable. -/
def document? (v : Variable) : Option Json :=
  v.path?.map fun keys => keys.foldr (fun key inner => .obj [(key, inner)]) (.ofInline v.text)

/-- The document of all variables. -/
def documentOf (environment : List Variable) : Json :=
  (environment.filterMap document?).foldl (fun below above => above.over below) (.obj [])

end Variable

/-! ## All settings -/

/-- All settings. -/
structure AppConfig where
  database : DatabaseConfig
  resolver : ResolverConfig
  /-- The organizations, roles and assignments that privileges are resolved from. -/
  privileges : SourceData
  limits : OperationLimits
  logging : LoggingConfig
  entities : List EntityDescriptor
  deriving DecidableEq

namespace AppConfig

def default : AppConfig := ⟨.default, .default, .empty, .default, .default, []⟩

instance : Inhabited AppConfig := ⟨default⟩

def ofJson? (m : Json.Manner) (j : Json) : Option AppConfig := do
  let r ← j.fields? m true
    ["database", "privilege_resolver", "privileges", "pipeline", "logging", "entities"]
  return {
    database := ← (r "database").orElse .default (DatabaseConfig.ofJson? m)
    resolver := ← (r "privilege_resolver").orElse .default (ResolverConfig.ofJson? m)
    privileges := ← (r "privileges").orElse .empty (SourceData.ofJson? m)
    limits := ← (r "pipeline").orElse .default (OperationLimits.ofJson? m)
    logging := ← (r "logging").orElse .default (LoggingConfig.ofJson? m)
    entities := ← (r "entities").orElse [] (Json.readList? (EntityDescriptor.ofJson? m)) }

def toJson (c : AppConfig) : Json :=
  .object [("database", c.database.toJson), ("privilege_resolver", c.resolver.toJson),
    ("privileges", c.privileges.toJson), ("pipeline", c.limits.toJson),
    ("logging", c.logging.toJson), ("entities", .arr (c.entities.map EntityDescriptor.toJson))]

/-- The configuration of a document, which is an object, and of variables over it. -/
def load? (document : Json) (environment : List Variable) : Option AppConfig := do
  let .obj members ← Document.read? document | none
  ofJson? .loose ((Variable.documentOf environment).over (.obj members))

end AppConfig

end ScopedAccess
