import ScopedAccess.Operation.Chain
import ScopedAccess.Proofs.Filter.Resolution
/-!
# The rows that a principal reaches

A scope is lowered to a predicate on the columns that hold owners, and compared with
identifiers as text. Here is what that predicate says of a row: the row belongs to one of
the organizations, or to the principal (`Entity.belongsTo`).

* `isTrueAt_scopePredicate`: the predicate of a scope is true of the rows in it;
* `follows_scopePredicate`: it tests stored columns of its entity and nothing else.
-/

namespace ScopedAccess

set_option autoImplicit false

/-! ## Rows and their owners -/

/-- Whether a row belongs to one of some organizations or to a principal. An entity without
a field for either has no such rows. -/
def Entity.belongsTo (e : Entity) (orgs : SortedSet Uuid) (user : Uuid) (row : Row) : Bool :=
  (e.ownerOrgField?.any fun f => orgs.toList.any fun org => row f.column = .text org.text) ||
    e.ownerField?.any fun f => row f.column = .text user.text

/-- Whether a path admits a value of the column that it looks at. -/
def AccessPath.admitsValue : AccessPath → Datum → Bool
  | .orgs ids, d => ids.toList.any fun id => d = .text id.text
  | .owner id, d => d = .text id.text

/-- Whether a path leads to a row. -/
def AccessPath.leadsTo (e : Entity) (row : Row) (path : AccessPath) : Bool :=
  (path.field? e).any fun f => path.admitsValue (row f.column)

/-- Whether a row is in a scope. -/
def Entity.inScope (e : Entity) (scope : AccessScope) (row : Row) : Bool :=
  e.unrestricted || scope.isEverything || scope.alternatives.any (·.leadsTo e row)

/-- Whether a row is not marked as deleted. -/
def Entity.isLive (e : Entity) (row : Row) : Bool :=
  (e.tagged? .softDelete).all fun f => row f.column = .null

/-- Whether a principal may read a row. -/
def Privileges.mayRead (p : Privileges) (e : Entity) (row : Row) : Bool :=
  e.unrestricted || p.bypass || e.belongsTo (p.readableFor e.name) p.user row

/-- Whether a principal may write a row. -/
def Privileges.mayWrite (p : Privileges) (e : Entity) (row : Row) : Bool :=
  e.unrestricted || p.bypass || e.belongsTo (p.writableFor e.name) p.user row

variable {e : Entity} {row : Row}

/-- A scope of organizations and an owner has the rows that belong to them; the path of no
organizations, which it leaves out, leads nowhere. -/
theorem inScope_orgsOrOwner (orgs : SortedSet Uuid) (user : Uuid) :
    e.inScope (.orgsOrOwner orgs user) row = (e.unrestricted || e.belongsTo orgs user row) := by
  rw [Entity.inScope, AccessScope.orgsOrOwner, AccessScope.isEverything,
    AccessScope.alternatives, Bool.or_false, Entity.belongsTo]
  by_cases empty : orgs.isEmpty = true
  · have none : orgs.toList = [] := List.isEmpty_iff.mp empty
    have nowhere : (e.ownerOrgField?.any fun _ => false) = false := by
      cases e.ownerOrgField? <;> rfl
    simp [empty, none, nowhere, AccessPath.leadsTo, AccessPath.field?, AccessPath.admitsValue]
  · simp [empty, AccessPath.leadsTo, AccessPath.field?, AccessPath.admitsValue]

theorem inScope_readScope (p : Privileges) :
    e.inScope (p.readScope e.name) row = p.mayRead e row := by
  rw [Privileges.readScope, Privileges.mayRead]
  split
  · rename_i bypass
    simp [Entity.inScope, AccessScope.isEverything, bypass]
  · rename_i checked
    simp [inScope_orgsOrOwner, checked]

theorem inScope_writeScope (p : Privileges) :
    e.inScope (p.writeScope e.name) row = p.mayWrite e row := by
  rw [Privileges.writeScope, Privileges.mayWrite]
  split
  · rename_i bypass
    simp [Entity.inScope, AccessScope.isEverything, bypass]
  · rename_i checked
    simp [inScope_orgsOrOwner, checked]

/-! ## The predicate of a scope -/

/-- Only a text is equal to a text, and only if both are the same. -/
theorem Datum.equals_text (d : Datum) (s : String) : d.equals (.text s) = decide (d = .text s) := by
  cases d with
  | null | int | real => rfl
  | text a =>
      simp only [equals, test, compare?, compareText]
      by_cases below : a < s
      · have other : a ≠ s := by
          rintro rfl
          exact absurd below (String.lt_irrefl a)
        simp [below, other, Truth.ofBool, Truth.isYes, Comparison.holds]
      · by_cases above : s < a
        · have other : a ≠ s := by
            rintro rfl
            exact absurd above below
          simp [below, above, other, Truth.ofBool, Truth.isYes, Comparison.holds]
        · have same : a = s := String.le_antisymm above below
          simp [same, Truth.ofBool, Truth.isYes, Comparison.holds]

section Predicates

variable {db : Database} {rows : Bindings} {label : String}

/-- The test of a path on the column that it looks at. -/
theorem isTrueAt_test (c : Column) (path : AccessPath) :
    (path.test c).isTrueAt db rows = path.admitsValue (rows.value c) := by
  cases path with
  | orgs ids =>
      rw [AccessPath.test, AccessPath.admitsValue]
      split
      · rename_i empty
        rw [Predicate.isTrueAt_const, List.isEmpty_iff.mp empty]
        rfl
      · rw [Predicate.isTrueAt_among, Truth.negateIf, if_neg Bool.false_ne_true,
          Datum.isYes_isAmong, List.any_map, List.any_map]
        exact congrArg ids.toList.any (funext fun id => Datum.equals_text _ id.text)
  | owner id =>
      rw [AccessPath.test, Predicate.isTrueAt_compare]
      exact Datum.equals_text _ id.text

/-- The predicate of a path, if the entity has its field, is true where the path leads. -/
theorem isTrueAt_predicate? (path : AccessPath) :
    (path.predicate? e label).any (Predicate.isTrueAt db ((.of label, row) :: rows)) =
      path.leadsTo e row := by
  rw [AccessPath.predicate?, AccessPath.leadsTo, Option.any_map]
  congr 1
  funext f
  exact (isTrueAt_test _ path).trans (by rw [Bindings.value_cons])

/-- The predicate of a scope is true of the rows in the scope. -/
theorem isTrueAt_scopePredicate (scope : AccessScope) :
    (scopePredicate e scope label).isTrueAt db ((.of label, row) :: rows) = e.inScope scope row := by
  have leads : (scope.alternatives.filterMap (·.predicate? e label)).any
      (Predicate.isTrueAt db ((.of label, row) :: rows)) =
        scope.alternatives.any (·.leadsTo e row) := by
    rw [List.any_filterMap]
    congr 1
    funext path
    rw [← isTrueAt_predicate? path]
    cases path.predicate? e label <;> rfl
  rw [scopePredicate, Entity.inScope]
  split
  · rename_i everything
    rw [everything, Predicate.isTrueAt_const]
    rfl
  · rename_i limited
    rw [Bool.eq_false_iff.mpr limited, Bool.false_or, ← leads]
    split
    · rename_i none
      rw [none, Predicate.isTrueAt_const]
      rfl
    · exact Predicate.isTrueAt_disj _

end Predicates

/-! ## The columns of owners -/

/-- The mark of deletion of an entity, if it has one, is stored. -/
def Entity.StoresMark (e : Entity) : Prop :=
  ∀ f, e.tagged? .softDelete = some f → f.isStored = true

theorem Entity.mem_of_tagged? {tag : FieldTag} {f : Field} (tagged : e.tagged? tag = some f) :
    f ∈ e.fields := by
  unfold tagged? at tagged
  split at tagged
  · exact List.mem_of_find?_eq_some tagged
  · cases tagged

theorem Entity.stores_of_tagged? {tag : FieldTag} {f : Field} (tagged : e.tagged? tag = some f)
    (stored : f.isStored = true) : e.Stores f.column :=
  ⟨f, mem_of_tagged? tagged, stored, rfl⟩

theorem Entity.stores_of_storedTagged? {tag : FieldTag} {f : Field}
    (tagged : e.storedTagged? tag = some f) : e.Stores f.column := by
  obtain ⟨found, stored⟩ := Option.filter_eq_some_iff.mp tagged
  exact stores_of_tagged? found stored

/-- A path looks at a stored column. -/
theorem stores_of_path {path : AccessPath} {f : Field} (looks : path.field? e = some f) :
    e.Stores f.column := by
  cases path with
  | orgs | owner => exact Entity.stores_of_storedTagged? looks

theorem tests_test (c : Column) (path : AccessPath) : (path.test c).Tests c := by
  cases path with
  | orgs ids =>
      rw [AccessPath.test]
      split <;> trivial
  | owner => trivial

/-- The predicate of a scope tests stored columns. -/
theorem follows_scopePredicate {registry : Registry} {tables : List String} {label : String}
    (scope : AccessScope) : (scopePredicate e scope label).Follows registry tables e label := by
  have paths : ∀ p ∈ scope.alternatives.filterMap (·.predicate? e label),
      p.Follows registry tables e label := by
    intro p member
    obtain ⟨path, -, lowered⟩ := List.mem_filterMap.mp member
    obtain ⟨f, looks, rfl⟩ := Option.map_eq_some_iff.mp lowered
    exact .test (stores_of_path looks) (tests_test _ path)
  rw [scopePredicate]
  split
  · exact .const
  · split
    · exact .const
    · exact Predicate.inherited_follows.disj paths

end ScopedAccess
