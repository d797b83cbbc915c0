import ScopedAccess.Proofs.Json.Reading
import ScopedAccess.Resolver.Cache
import Mathlib.Data.List.Forall2
/-!
# Entries read back

What the types of a cached entry are written as is read back as what it was, field by field
(`Privileges.ofJson?_toJson`). An entry is read back from its text if the second at which it ends
fits a word; else the text is that of no entry (`CachedPrivileges.decode?_encode`). Where members
with a default are left out of an entry, the rest is read as before
(`CachedPrivileges.ofJson?_leavingOut`).
-/

namespace ScopedAccess

set_option autoImplicit false

namespace Json

variable {m : Manner} {members : List (String × Json)} {items : List Json}

/-! ## Writers and their readers -/

/-- The fields given by members. -/
def givenFields (members : List (String × Json)) : Fields := fun name =>
  match members.lookup name with
  | some value => .given value
  | none => .unnamed

@[simp] theorem givenFields_cons_self (key : String) (value : Json) :
    givenFields ((key, value) :: members) key = .given value := by
  rw [givenFields, List.lookup_cons_self]

@[simp] theorem givenFields_cons_of_ne {key name : String} (other : name ≠ key) (value : Json) :
    givenFields ((key, value) :: members) name = givenFields members name := by
  rw [givenFields, List.lookup_cons, beq_eq_false_iff_ne.mpr other]
  rfl

/-- The fields of an object whose members are the fields of the record. -/
theorem fields?_object (names : List String) (keys : members.map Prod.fst = names)
    (distinct : names.Nodup) :
    (object members).fields? m false names = some (givenFields members) := by
  have once : namesOnce names (SortedMap.ofList members).entries = true := by
    refine List.all_eq_true.mpr fun name _ => decide_eq_true ?_
    have single := List.nodup_iff_count.mp
      (SortedMap.nodup_keys (SortedMap.ofList members)) name
    rw [SortedMap.keys, List.count, List.countP_map] at single
    exact single
  have lookup : ∀ name, (SortedMap.ofList members).entries.lookup name = members.lookup name :=
    SortedMap.find?_ofList (keys ▸ distinct)
  rw [object, fields?, once]
  simp only [lookup]
  rfl

theorem readUuid?_ofUuid (u : Uuid) : readUuid? m (ofUuid u) = some u := Uuid.ofText?_text u

theorem ofList_toList {α : Type} [LT α] [DecidableLT α] [Std.Irrefl (α := α) (· < ·)]
    [Std.Asymm (α := α) (· < ·)] [Std.Trichotomous (α := α) (· < ·)]
    [Trans (α := α) (β := α) (γ := α) (· < ·) (· < ·) (· < ·)] (s : SortedSet α) :
    SortedSet.ofList s.toList = s :=
  SortedSet.ext_mem fun _ => SortedSet.mem_ofList

theorem readUuidSet?_ofUuids (s : SortedSet Uuid) : readUuidSet? m (ofUuids s) = some s := by
  have items : (s.toList.map ofUuid).mapM (readUuid? m) = some s.toList :=
    mapM_map_of_back fun u _ => readUuid?_ofUuid u
  rw [readUuidSet?, ofUuids, readList?, items, Option.map_some, ofList_toList]

theorem readTextSet?_ofTexts (s : SortedSet String) : readTextSet? (ofTexts s) = some s := by
  have items : (s.toList.map Json.str).mapM readText? = some s.toList :=
    mapM_map_of_back fun _ _ => rfl
  rw [readTextSet?, ofTexts, readList?, items, Option.map_some, ofList_toList]

theorem ofList_entries {α : Type} (s : SortedMap String α) : SortedMap.ofList s.entries = s :=
  SortedMap.ext_find? (SortedMap.find?_ofList (SortedMap.nodup_keys s))

/-- A map is read back if its values are. -/
theorem readMap?_obj {α : Type} {read : Json → Option α} {write : α → Json}
    (back : ∀ a, read (write a) = some a) (s : SortedMap String α) :
    readMap? read (.obj (s.mapValues fun _ a => write a).entries) = some s := by
  have members : (s.mapValues fun _ a => write a).entries.mapM
      (fun m => (read m.2).map fun a => (m.1, a)) = some s.entries :=
    mapM_map_of_back fun e _ => by rw [back, Option.map_some]
  rw [readMap?, members, Option.map_some, ofList_entries]

/-! ## Values read as themselves -/

theorem reads_ofUuid (u : Uuid) : Reads (ofUuid u) (ofUuid u) := reads_str u.text

theorem reads_arr_self (back : ∀ j ∈ items, Reads j j) : Reads (.arr items) (.arr items) :=
  reads_arr (List.forall₂_same.mpr back)

theorem reads_ofUuids (s : SortedSet Uuid) : Reads (ofUuids s) (ofUuids s) := by
  refine reads_arr_self fun j member => ?_
  obtain ⟨u, -, rfl⟩ := List.mem_map.mp member
  exact reads_ofUuid u

theorem reads_ofTexts (s : SortedSet String) : Reads (ofTexts s) (ofTexts s) := by
  refine reads_arr_self fun j member => ?_
  obtain ⟨text, -, rfl⟩ := List.mem_map.mp member
  exact reads_str text

theorem reads_obj_self (back : ∀ m ∈ members, Reads m.2 m.2) :
    Reads (.obj members) (.obj members) :=
  reads_obj (List.forall₂_same.mpr fun m member => ⟨rfl, back m member⟩)

theorem reads_object_self (back : ∀ m ∈ members, Reads m.2 m.2) :
    Reads (object members) (object members) :=
  reads_object (List.forall₂_same.mpr fun m member => ⟨rfl, back m member⟩)

/-! ## Members left out -/

variable {fields : Fields} {names absent : List String}

/-- An object without the members of some names. -/
def without (absent : List String) : Json → Json
  | .obj members => .obj (members.filter fun m => m.1 ∉ absent)
  | j => j

/-- An object with its members changed. -/
def mapMembers (f : String → Json → Json) : Json → Json
  | .obj members => .obj (members.map fun m => (m.1, f m.1 m.2))
  | j => j

/-- What is given for fields if those of some names are left out. -/
def Fields.without (absent : List String) (fields : Fields) : Fields := fun name =>
  if name ∈ absent then .unnamed else fields name

theorem lookup_filter_key (p : String → Bool) (name : String) :
    (members.filter fun m => p m.1).lookup name =
      if p name then members.lookup name else none := by
  induction members with
  | nil => simp
  | cons member rest ih =>
      obtain ⟨key, value⟩ := member
      rw [List.filter_cons, List.lookup_cons]
      by_cases same : name = key
      · subst same
        by_cases kept : p name = true
        · simp [kept]
        · simp [kept, ih]
      · rw [beq_eq_false_iff_ne.mpr same]
        by_cases kept : p key = true
        · simp [kept, List.lookup_cons, beq_eq_false_iff_ne.mpr same, ih]
        · simp [kept, ih]

theorem fields?_obj_eq_some_iff : (Json.obj members).fields? m false names = some fields ↔
    namesOnce names members = true ∧ givenFields members = fields := by
  have read : (Json.obj members).fields? m false names =
      if namesOnce names members then some (givenFields members) else none := by
    simp only [fields?, Bool.not_false, Bool.true_or, Bool.and_true]
    rfl
  rw [read, Option.ite_none_right_eq_some, Option.some.injEq]

theorem lookup_map_value (f : String → Json → Json) (name : String) :
    (members.map fun m => (m.1, f m.1 m.2)).lookup name = (members.lookup name).map (f name) := by
  induction members with
  | nil => rfl
  | cons member rest ih =>
      obtain ⟨key, value⟩ := member
      rw [List.map_cons, List.lookup_cons, List.lookup_cons]
      by_cases same : name = key
      · subst same
        simp
      · rw [beq_eq_false_iff_ne.mpr same]
        exact ih

/-- What is given, changed. -/
def FieldValue.map (f : Json → Json) : FieldValue → FieldValue
  | .given value => .given (f value)
  | .unnamed => .unnamed
  | .pastEnd => .pastEnd

/-- What is given for fields, changed. -/
def Fields.mapValues (f : String → Json → Json) (fields : Fields) : Fields := fun name =>
  (fields name).map (f name)

theorem fields?_without (given : (Json.obj members).fields? m false names = some fields)
    (absent : List String) :
    ((Json.obj members).without absent).fields? m false names =
      some (fields.without absent) := by
  obtain ⟨once, rfl⟩ := fields?_obj_eq_some_iff.mp given
  have once' : namesOnce names (members.filter fun m => m.1 ∉ absent) = true := by
    refine List.all_eq_true.mpr fun name member => decide_eq_true ?_
    have few : members.countP (fun m => m.1 = name) ≤ 1 :=
      of_decide_eq_true (List.all_eq_true.mp once name member)
    exact Nat.le_trans (List.Sublist.countP_le List.filter_sublist) few
  refine fields?_obj_eq_some_iff.mpr ⟨once', ?_⟩
  funext name
  rw [Fields.without, givenFields, givenFields, lookup_filter_key fun key => key ∉ absent]
  by_cases left : name ∈ absent <;> simp [left]

theorem fields?_mapMembers (given : (Json.obj members).fields? m false names = some fields)
    (f : String → Json → Json) :
    ((Json.obj members).mapMembers f).fields? m false names = some (fields.mapValues f) := by
  obtain ⟨once, rfl⟩ := fields?_obj_eq_some_iff.mp given
  refine fields?_obj_eq_some_iff.mpr ⟨?_, ?_⟩
  · refine List.all_eq_true.mpr fun name member => ?_
    rw [List.countP_map]
    exact List.all_eq_true.mp once name member
  · funext name
    rw [Fields.mapValues, givenFields, givenFields, lookup_map_value]
    cases members.lookup name <;> rfl

/-- A field that is left out has its default. -/
theorem FieldValue.orElse_without {α : Type} {default a : α} {read : Json → Option α}
    {name : String} (given : orElse default read (fields name) = some a) :
    orElse default read (fields.without absent name) =
      some (if name ∈ absent then default else a) := by
  rw [Fields.without]
  split
  · rfl
  · exact given

end Json

/-! ## Privileges -/

namespace EntityScope

theorem ofJson?_toJson (m : Json.Manner) (s : EntityScope) : ofJson? m s.toJson = some s := by
  rw [ofJson?, toJson, Json.fields?_object ["readableOrgIds", "writableOrgIds"] rfl (by decide)]
  simp [Json.FieldValue.required, Json.readUuidSet?_ofUuids]

theorem reads_toJson (s : EntityScope) : Json.Reads s.toJson s.toJson := by
  refine Json.reads_object_self ?_
  simp only [List.forall_mem_cons]
  exact ⟨Json.reads_ofUuids _, Json.reads_ofUuids _, List.forall_mem_nil _⟩

end EntityScope

namespace Privileges

theorem ofJson?_toJson (m : Json.Manner) (p : Privileges) : ofJson? m p.toJson = some p := by
  rw [ofJson?, toJson, Json.fields?_object ["userId", "permissionCodes", "readableOrgIds",
    "writableOrgIds", "activeOrgId", "bypass", "entityScopes"] rfl (by decide)]
  simp [Json.FieldValue.required, Json.FieldValue.orElse, Json.readUuid?_ofUuid,
    Json.readTextSet?_ofTexts, Json.readUuidSet?_ofUuids, Json.readBool?,
    Json.readMap?_obj (EntityScope.ofJson?_toJson m)]

theorem reads_toJson (p : Privileges) : Json.Reads p.toJson p.toJson := by
  refine Json.reads_object_self ?_
  simp only [List.forall_mem_cons]
  refine ⟨Json.reads_ofUuid _, Json.reads_ofTexts _, Json.reads_ofUuids _, Json.reads_ofUuids _,
    Json.reads_ofUuid _, Json.reads_bool _, Json.reads_obj_self fun e member => ?_,
    List.forall_mem_nil _⟩
  obtain ⟨entry, -, rfl⟩ := List.mem_map.mp member
  exact EntityScope.reads_toJson entry.2

end Privileges

/-! ## Entries -/

namespace CachedPrivileges

/-- The second of an ending is read back if it fits a word. -/
theorem readEnding (ending : Option Int) : ∃ j, Json.Reads (.ofOption .int ending) j ∧
    Json.FieldValue.nullable Json.readSigned? j =
      if ending.all Json.fitsSigned then some ending else none := by
  cases ending with
  | none => exact ⟨.null, Json.reads_null, rfl⟩
  | some n =>
      refine ⟨_, Json.reads_int n, ?_⟩
      by_cases fits : Json.fitsSigned n = true
      · rw [NumberLiteral.value?_ofInt_of_fits fits, Option.getD_some, Option.all_some, if_pos fits]
        simp [Json.FieldValue.nullable, Json.readSigned?, fits]
      · rw [Option.all_some, if_neg fits]
        cases denoted : (NumberLiteral.ofInt n).value? with
        | none => rfl
        | some j =>
            rcases NumberLiteral.value?_ofInt denoted with rfl | ⟨x, rfl⟩
            · simp [Json.FieldValue.nullable, Json.readSigned?, fits]
            · rfl

/-- What is read from the text of an entry. -/
theorem decode?_encode (c : CachedPrivileges) :
    decode? c.encode = if c.validUntil.all Json.fitsSigned then some c else none := by
  obtain ⟨j, reads, ending⟩ := readEnding c.validUntil
  have read : Json.Reads c.toJson
      (.object [("privileges", c.privileges.toJson), ("validUntil", j)]) := by
    refine Json.reads_object (.cons ⟨rfl, c.privileges.reads_toJson⟩ (.cons ⟨rfl, reads⟩ .nil))
  rw [decode?, encode, read.parseLoosely?, Option.bind_some, ofJson?,
    Json.fields?_object ["privileges", "validUntil"] rfl (by decide)]
  by_cases fits : c.validUntil.all Json.fitsSigned = true
  · rw [if_pos fits] at ending ⊢
    simp [Json.FieldValue.required, Json.FieldValue.optionalOrNone, Json.FieldValue.orElse,
      Privileges.ofJson?_toJson, ending]
  · rw [if_neg fits] at ending ⊢
    simp [Json.FieldValue.required, Json.FieldValue.optionalOrNone, Json.FieldValue.orElse,
      Privileges.ofJson?_toJson, ending]

theorem ofJson?_toJson (m : Json.Manner) {c : CachedPrivileges}
    (fits : c.validUntil.all Json.fitsSigned = true) : ofJson? m c.toJson = some c := by
  have ending : Json.FieldValue.nullable Json.readSigned? (.ofOption .int c.validUntil) =
      some c.validUntil := by
    cases validUntil : c.validUntil with
    | none => rfl
    | some n =>
        rw [validUntil, Option.all_some] at fits
        simp [Json.ofOption, Json.FieldValue.nullable, Json.readSigned?, fits]
  rw [ofJson?, toJson, Json.fields?_object ["privileges", "validUntil"] rfl (by decide)]
  simp [Json.FieldValue.required, Json.FieldValue.optionalOrNone, Json.FieldValue.orElse,
    Privileges.ofJson?_toJson, ending]

end CachedPrivileges

/-! ## Entries with members left out -/

/-- The members of an entry that have a default. -/
def optionalMembers : List String := ["bypass", "entityScopes", "validUntil"]

theorem Json.Fields.without_of_required {absent : List String} {fields : Json.Fields}
    {name : String} (optional : absent ⊆ optionalMembers) (required : name ∉ optionalMembers) :
    fields.without absent name = fields name :=
  if_neg fun member => required (optional member)

section LeftOut

variable {m : Json.Manner} {members : List (String × Json)} {absent : List String}
  (optional : absent ⊆ optionalMembers)

/-- The privileges that are read where members with a default are left out. -/
def Privileges.defaulting (absent : List String) (p : Privileges) : Privileges :=
  { p with
    bypass := if "bypass" ∈ absent then false else p.bypass
    entities := if "entityScopes" ∈ absent then ∅ else p.entities }

/-- The entry that is read where members with a default are left out. -/
def CachedPrivileges.defaulting (absent : List String) (c : CachedPrivileges) :
    CachedPrivileges where
  privileges := c.privileges.defaulting absent
  validUntil := if "validUntil" ∈ absent then none else c.validUntil

/-- The value of a member of an entry, with members of the privileges left out. -/
def CachedPrivileges.trimmed (absent : List String) (key : String) (value : Json) : Json :=
  if key = "privileges" then value.without absent else value

/-- An entry with members left out, of the privileges in it too. -/
def CachedPrivileges.leavingOut (absent : List String) (entry : Json) : Json :=
  (entry.mapMembers (trimmed absent)).without absent

include optional

theorem Privileges.ofJson?_without {p : Privileges} (read : ofJson? m (.obj members) = some p) :
    ofJson? m ((Json.obj members).without absent) = some (p.defaulting absent) := by
  simp only [ofJson?, Option.bind_eq_bind, Option.bind_eq_some_iff] at read
  obtain ⟨fields, given, user, userRead, permissions, permissionsRead, readable, readableRead,
    writable, writableRead, activeOrg, activeOrgRead, bypass, bypassRead, entities, entitiesRead,
    all⟩ := read
  cases all
  rw [ofJson?, Json.fields?_without given]
  simp (disch := decide) only [Option.bind_eq_bind, Option.bind_some,
    Json.FieldValue.orElse_without bypassRead, Json.FieldValue.orElse_without entitiesRead,
    Json.Fields.without_of_required optional, userRead, permissionsRead, readableRead,
    writableRead, activeOrgRead]
  rfl

theorem CachedPrivileges.ofJson?_leavingOut {c : CachedPrivileges}
    (read : ofJson? m (.obj members) = some c)
    (object : ∀ j, members.lookup "privileges" = some j → j.isObject = true) :
    ofJson? m (leavingOut absent (.obj members)) = some (c.defaulting absent) := by
  simp only [ofJson?, Option.bind_eq_bind, Option.bind_eq_some_iff] at read
  obtain ⟨fields, given, privileges, privilegesRead, validUntil, validUntilRead, all⟩ := read
  cases all
  have left : (leavingOut absent (.obj members)).fields? m false ["privileges", "validUntil"] =
      some _ := Json.fields?_without (Json.fields?_mapMembers given (trimmed absent)) absent
  obtain ⟨inner, found, innerRead⟩ : ∃ inner, fields "privileges" = .given (.obj inner) ∧
      Privileges.ofJson? m (.obj inner) = some privileges := by
    obtain ⟨-, rfl⟩ := Json.fields?_obj_eq_some_iff.mp given
    rw [Json.givenFields] at privilegesRead ⊢
    cases found : members.lookup "privileges" with
    | none =>
        rw [found] at privilegesRead
        cases privilegesRead
    | some j =>
        rw [found] at privilegesRead
        cases j with
        | obj inner => exact ⟨inner, rfl, privilegesRead⟩
        | _ => cases object _ found
  have privilegesRead' : (fields.mapValues (trimmed absent) "privileges").required
      (Privileges.ofJson? m) = some (privileges.defaulting absent) := by
    rw [Json.Fields.mapValues, found]
    exact Privileges.ofJson?_without optional innerRead
  have validUntilRead' : (fields.mapValues (trimmed absent) "validUntil").orElse none
      (Json.FieldValue.nullable Json.readSigned?) = some validUntil := by
    rw [← validUntilRead, Json.Fields.mapValues]
    cases fields "validUntil" <;> rfl
  rw [ofJson?, left]
  simp (disch := decide) only [Option.bind_eq_bind, Option.bind_some,
    Json.Fields.without_of_required optional, privilegesRead', Json.FieldValue.optionalOrNone,
    Json.FieldValue.orElse_without validUntilRead']
  rfl

end LeftOut

end ScopedAccess
