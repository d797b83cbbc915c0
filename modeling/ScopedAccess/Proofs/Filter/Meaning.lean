import ScopedAccess.Proofs.Filter.Derivation
import ScopedAccess.Proofs.Filter.Truth
/-!
# Compilation keeps the meaning of filters

A compiled filter is true of a row exactly where the filter holds of it. The induction is
on the rules of compilation, with any rows in view behind the row of the alias: a
subquery is read with the enclosing rows still in view, and the statement for its filter
is the one for the target with one alias more.

* `MembersCompile.meaning`: the members of an object, under any alias;
* `CompiledFilter.isTrueAt_predicate`: what a filter is as one predicate, and after its
  bounds have been merged.
-/

namespace ScopedAccess

set_option autoImplicit false

open ScopedAccess.Filter

variable {registry : Registry} {db : Database} {rows : Bindings}

/-! ## Subqueries -/

theorem Datum.isYes_isAmong (d : Datum) (others : List Datum) :
    (d.isAmong others).isYes = others.any d.equals := by
  simp only [isAmong, Truth.isYes_any, List.any_map]
  rfl

/-- A subquery is true where a row that its filter is true of has the value of the column. -/
theorem Predicate.isTrueAt_subquery (c : Column) (s : Selection) (p : Predicate) :
    isTrueAt db rows (.subquery c s p) = (db.rows s.table).any fun row =>
      (rows.value c).equals (row s.column) && p.isTrueAt db ((.of s.label, row) :: rows) := by
  rw [isTrueAt, truth, Datum.isYes_isAmong, List.any_map, List.any_filter]
  congr 1
  funext row
  rw [Bool.and_comm]
  rfl

/-- The two hops of a many-to-many relation are one: some row of the join table leads from
the row to the other. -/
theorem any_joined {joins others : List Row} {leaves passes : Row → Bool}
    {arrives : Row → Row → Bool} :
    (joins.any fun joined => leaves joined &&
        others.any fun other => arrives joined other && passes other) =
      others.any fun other =>
        (joins.any fun joined => leaves joined && arrives joined other) && passes other := by
  rw [Bool.eq_iff_iff]
  simp only [List.any_eq_true, Bool.and_eq_true]
  constructor
  · rintro ⟨joined, hj, left, other, ho, arrived, passed⟩
    exact ⟨other, ho, ⟨joined, hj, left, arrived⟩, passed⟩
  · rintro ⟨other, ho, ⟨joined, hj, left, arrived⟩, passed⟩
    exact ⟨joined, hj, left, other, ho, arrived, passed⟩

/-! ## Filters as predicates -/

namespace CompiledFilter

/-- Whether everything in a compiled filter is true where aliases stand for rows. -/
def isTrueAt (db : Database) (rows : Bindings) (f : CompiledFilter) : Bool :=
  f.parts.all (Predicate.isTrueAt db rows)

theorem isTrueAt_mk (fragments groups : List Predicate) :
    isTrueAt db rows ⟨fragments, groups⟩ =
      (fragments.all (Predicate.isTrueAt db rows) && groups.all (Predicate.isTrueAt db rows)) :=
  List.all_append

@[simp] theorem isTrueAt_empty : isTrueAt db rows ∅ = true := rfl

@[simp] theorem isTrueAt_append (f g : CompiledFilter) :
    (f ++ g).isTrueAt db rows = (f.isTrueAt db rows && g.isTrueAt db rows) := by
  obtain ⟨fragments, groups⟩ := f
  obtain ⟨fragments', groups'⟩ := g
  calc isTrueAt db rows ⟨fragments ++ fragments', groups ++ groups'⟩
      = ((fragments.all (Predicate.isTrueAt db rows) && fragments'.all (Predicate.isTrueAt db rows)) &&
          (groups.all (Predicate.isTrueAt db rows) && groups'.all (Predicate.isTrueAt db rows))) := by
        rw [isTrueAt_mk, List.all_append, List.all_append]
    _ = _ := by
        rw [isTrueAt_mk, isTrueAt_mk, Bool.and_assoc, Bool.and_assoc]
        congr 1
        rw [Bool.and_left_comm]

@[simp] theorem isTrueAt_merged (f : CompiledFilter) :
    f.merged.isTrueAt db rows = f.isTrueAt db rows := by
  rw [merged, isTrueAt_mk, mergeBounds_all Predicate.splitsRanges_isTrueAt]
  exact List.all_append.symm

/-- The filter as one predicate is true where everything in it is. -/
theorem isTrueAt_predicate (f : CompiledFilter) :
    f.predicate.isTrueAt db rows = f.isTrueAt db rows :=
  Predicate.isTrueAt_conj f.parts

/-- A filter that is one subquery. -/
theorem isTrueAt_subquery (c : Column) (selection : Selection) (p : Predicate) :
    isTrueAt db rows ⟨[.subquery c selection p], []⟩ = (db.rows selection.table).any fun row =>
      (rows.value c).equals (row selection.column) &&
        p.isTrueAt db ((.of selection.label, row) :: rows) := by
  rw [isTrueAt_mk, List.all_cons, List.all_nil, Bool.and_true, Bool.and_true,
    Predicate.isTrueAt_subquery]

/-- Filters put together are all true. -/
theorem isTrueAt_foldl (fs : List CompiledFilter) (f : CompiledFilter) :
    (fs.foldl (· ++ ·) f).isTrueAt db rows =
      (f.isTrueAt db rows && fs.all (isTrueAt db rows)) := by
  induction fs generalizing f with
  | nil => simp
  | cons g rest ih => rw [List.foldl_cons, ih, isTrueAt_append, List.all_cons, Bool.and_assoc]

/-- The group of an `$or` is true where a branch is, or where there is none. -/
theorem orGroup_all (fs : List CompiledFilter) :
    (orGroup fs).all (Predicate.isTrueAt db rows) =
      (fs.isEmpty || fs.any (isTrueAt db rows)) := by
  have branches : (fs.map predicate).any (Predicate.isTrueAt db rows) =
      fs.any (isTrueAt db rows) := by
    rw [List.any_map]
    exact congrArg fs.any (funext isTrueAt_predicate)
  simp only [orGroup]
  split
  · rename_i dropped
    cases fs with
    | nil => rfl
    | cons f rest =>
        obtain ⟨p, member, trivial⟩ : ∃ p ∈ (f :: rest).map predicate, p.isTrivial = true :=
          List.any_eq_true.mp (by simpa using dropped)
        have always : ((f :: rest).map predicate).any (Predicate.isTrueAt db rows) = true :=
          List.any_eq_true.mpr ⟨p, member, Predicate.isTrueAt_of_isTrivial trivial⟩
        rw [← branches, always]
        rfl
  · rename_i kept
    cases fs with
    | nil => simp at kept
    | cons f rest =>
        rw [List.all_cons, List.all_nil, Bool.and_true, Predicate.isTrueAt_disj, branches]
        rfl

end CompiledFilter

/-! ## The rules keep meanings -/

theorem relates?_of_direct {link : Link} (direct : link.relation.kind ≠ .manyToMany) :
    link.relates? db =
      some fun row other => (row link.localColumn).equals (other link.foreignColumn) := by
  unfold Link.relates?
  cases kind : link.relation.kind with
  | manyToMany => exact absurd kind direct
  | _ => rfl

theorem relates?_of_joined {link : Link} {join : JoinTable}
    (kind : link.relation.kind = .manyToMany) (joined : link.relation.join = some join) :
    link.relates? db = some fun row other => (db.rows join.table).any fun between =>
      (row link.localColumn).equals (between join.sourceKey) &&
        (between join.targetKey).equals (other link.foreignColumn) := by
  unfold Link.relates?
  rw [kind, joined]

theorem plainFilter_meaning {e : Entity} {label key : String} {value : Json} {row : Row} :
    (plainFilter registry e label key value).isTrueAt db ((.of label, row) :: rows) =
      passesPlain registry e row key value := by
  unfold plainFilter passesPlain
  cases valueColumn? registry e key with
  | none => rfl
  | some column =>
      rw [CompiledFilter.isTrueAt_mk, Predicate.ofValue_all, Bindings.value_cons]
      exact Bool.and_true _

/-- A member that is read as a plain value holds where the value passes. -/
theorem holdsMember_of_isPlain {e : Entity} {key : String} {value : Json} {row : Row}
    (plain : IsPlain registry e key value) :
    holdsMember registry db e row key value = passesPlain registry e row key value := by
  cases value with
  | arr items =>
      have passes : passesPlain registry e row key (.arr items) = true := by
        cases column : valueColumn? registry e key <;>
          simp [passesPlain, column, Datum.passesValue, Datum.isOperand]
      rw [holdsMember, if_neg plain.1, if_neg plain.2, passes]
  | obj members =>
      rw [holdsMember]
      cases linked : namedLink? registry e key with
      | none => rfl
      | some link =>
          have operators : addressesKey members = true := plain.resolve_left (by simp [linked])
          simp [operators]
  | _ => rfl

theorem holdsMember_of_traverses {e : Entity} {key : String} {members : List (String × Json)}
    {link : Link} {row : Row} (traverses : Traverses registry e key members link) :
    holdsMember registry db e row key (.obj members) =
      (link.relates? db).all fun relates => (db.rows link.target.table).any fun other =>
        relates row other && holdsMembers registry db link.target other members := by
  rw [holdsMember, traverses.1]
  simp only [traverses.2, Bool.false_eq_true, if_false]
  cases link.relates? db <;> rfl

theorem holdsAll_cons_of_not_object {e : Entity} {row : Row} {item : Json} {items : List Json}
    (scalar : item.isObject = false) :
    holdsAll registry db e row (item :: items) = holdsAll registry db e row items := by
  cases item with
  | obj => cases scalar
  | _ => rw [holdsAll]; exact fun _ h => nomatch h

theorem holdsAny_cons_of_not_object {e : Entity} {row : Row} {item : Json} {items : List Json}
    (scalar : item.isObject = false) :
    holdsAny registry db e row (item :: items) = holdsAny registry db e row items := by
  cases item with
  | obj => cases scalar
  | _ => rw [holdsAny]; exact fun _ h => nomatch h

/-- There is one filter for each object. -/
theorem ItemsCompile.isEmpty_eq {e : Entity} {label : String} {items : List Json}
    {fs : List CompiledFilter} : ItemsCompile registry e label items fs →
      fs.isEmpty = !items.any Json.isObject
  | .nil => rfl
  | .object _ _ => rfl
  | .other scalar others => by rw [others.isEmpty_eq, List.any_cons, scalar, Bool.false_or]

mutual

/-- The members of an object compile to what they mean. -/
theorem MembersCompile.meaning {e : Entity} {label : String} {members : List (String × Json)}
    {f : CompiledFilter} : MembersCompile registry e label members f →
      ∀ (rows : Bindings) (row : Row), f.isTrueAt db ((.of label, row) :: rows) =
        holdsMembers registry db e row members
  | .nil, rows, row => rfl
  | .cons first others, rows, row => by
      rw [CompiledFilter.isTrueAt_append, first.meaning rows row, others.meaning rows row,
        holdsMembers]

theorem MemberCompiles.meaning {e : Entity} {label key : String} {value : Json}
    {f : CompiledFilter} : MemberCompiles registry e label key value f →
      ∀ (rows : Bindings) (row : Row), f.isTrueAt db ((.of label, row) :: rows) =
        holdsMember registry db e row key value
  | .conjunction items, rows, row => by
      rw [CompiledFilter.isTrueAt_foldl, items.meaning_all rows row, holdsMember, if_pos rfl]
      rfl
  | .disjunction items, rows, row => by
      rw [CompiledFilter.isTrueAt_mk, CompiledFilter.orGroup_all, items.meaning_any rows row,
        items.isEmpty_eq, holdsMember, if_neg (by decide), if_pos rfl]
      rfl
  | .plain read, rows, row => by rw [plainFilter_meaning, holdsMember_of_isPlain read]
  | .unjoined traverses kind join, rows, row => by
      rw [holdsMember_of_traverses traverses]
      simp [Link.relates?, kind, join]
  | .direct traverses kind inner, rows, row => by
      rw [holdsMember_of_traverses traverses, relates?_of_direct kind,
        CompiledFilter.isTrueAt_subquery]
      simp only [Bindings.value_cons, CompiledFilter.isTrueAt_predicate,
        CompiledFilter.isTrueAt_merged, inner.meaning _ _]
      rfl
  | .joined traverses kind join inner, rows, row => by
      rw [holdsMember_of_traverses traverses, relates?_of_joined kind join,
        CompiledFilter.isTrueAt_subquery]
      simp only [Predicate.isTrueAt_subquery, Bindings.value_cons,
        CompiledFilter.isTrueAt_predicate, CompiledFilter.isTrueAt_merged, inner.meaning _ _]
      exact any_joined

theorem ItemsCompile.meaning_all {e : Entity} {label : String} {items : List Json}
    {fs : List CompiledFilter} : ItemsCompile registry e label items fs →
      ∀ (rows : Bindings) (row : Row), fs.all (CompiledFilter.isTrueAt db ((.of label, row) :: rows)) =
        holdsAll registry db e row items
  | .nil, rows, row => rfl
  | .object first others, rows, row => by
      rw [List.all_cons, CompiledFilter.isTrueAt_merged, first.meaning rows row,
        others.meaning_all rows row, holdsAll]
  | .other scalar others, rows, row => by
      rw [others.meaning_all rows row, holdsAll_cons_of_not_object scalar]

theorem ItemsCompile.meaning_any {e : Entity} {label : String} {items : List Json}
    {fs : List CompiledFilter} : ItemsCompile registry e label items fs →
      ∀ (rows : Bindings) (row : Row), fs.any (CompiledFilter.isTrueAt db ((.of label, row) :: rows)) =
        holdsAny registry db e row items
  | .nil, rows, row => rfl
  | .object first others, rows, row => by
      rw [List.any_cons, CompiledFilter.isTrueAt_merged, first.meaning rows row,
        others.meaning_any rows row, holdsAny]
  | .other scalar others, rows, row => by
      rw [others.meaning_any rows row, holdsAny_cons_of_not_object scalar]

end

end ScopedAccess
