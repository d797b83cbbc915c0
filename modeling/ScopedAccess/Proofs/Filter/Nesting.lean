import ScopedAccess.Proofs.Filter.Scoping
/-!
# How deep filters may nest

Compilation has a limit on the nesting of objects. Those count that it goes into: the objects of an
`$and` or an `$or`, and the object given to a relation that it can follow (`Filter.depth`). An
object that is read as a value, or not at all, does not count, whatever is nested in it; the objects
of a disjunction that is dropped in the end do.

Compilation under a limit and compilation under a larger one are followed side by side
(`Limited`): they go on alike up to the limit, and there the first is refused.

* `compile_limited`: a filter is refused if it is no object or nests deeper than the limit, and
  otherwise the limit makes no difference.
-/

namespace ScopedAccess

set_option autoImplicit false

open ScopedAccess.Filter

/-! ## Computations under a limit -/

/-- What comes of a computation that needs objects to nest to some depth, under a limit and under a
larger one: if the limit suffices both give the same, and otherwise the first is refused. -/
structure Limited {α : Type} (limit needed : Nat) (x y : Except CompileError α) : Prop where
  within : needed ≤ limit → ∃ a, x = .ok a ∧ y = .ok a
  beyond : limit < needed → x = .error (.tooDeep limit)

namespace Limited

variable {α β : Type} {limit m n : Nat} {x y : Except CompileError α}
  {next next' : α → Except CompileError β}

theorem pure (le : n ≤ limit) (a : α) : Limited limit n (.ok a) (.ok a) where
  within _ := ⟨a, rfl, rfl⟩
  beyond deep := absurd le (Nat.not_le_of_lt deep)

/-- Two computations after one another need what the deeper one needs. -/
theorem bind (first : Limited limit m x y)
    (then_ : m ≤ limit → ∀ a, Limited limit n (next a) (next' a)) :
    Limited limit (max m n) (x >>= next) (y >>= next') where
  within le := by
    have le₁ : m ≤ limit := Nat.le_trans (Nat.le_max_left m n) le
    have le₂ : n ≤ limit := Nat.le_trans (Nat.le_max_right m n) le
    obtain ⟨a, rfl, rfl⟩ := first.within le₁
    exact (then_ le₁ a).within le₂
  beyond deep := by
    rcases Nat.lt_or_ge limit m with here | le
    · rw [first.beyond here]
      rfl
    · have there : limit < n := by omega
      obtain ⟨a, rfl, -⟩ := first.within le
      exact (then_ le a).beyond there

/-- To go on with what needs nothing more. -/
theorem andThen (first : Limited limit n x y) (next : α → β) :
    Limited limit n (x >>= fun a => .ok (next a)) (y >>= fun a => .ok (next a)) := by
  have both : Limited limit (max n n) (x >>= fun a => .ok (next a))
      (y >>= fun a => .ok (next a)) := first.bind fun le a => pure le (next a)
  rwa [Nat.max_self] at both

/-- The first is refused exactly beyond the limit. -/
theorem eq_error_iff (limited : Limited limit n x y) {reason : CompileError} :
    x = .error reason ↔ limit < n ∧ reason = .tooDeep limit := by
  constructor
  · intro refused
    rcases Nat.lt_or_ge limit n with deep | le
    · have same : CompileError.tooDeep limit = reason :=
        Except.error.inj ((limited.beyond deep).symm.trans refused)
      exact ⟨deep, same.symm⟩
    · obtain ⟨a, ok, -⟩ := limited.within le
      cases ok.symm.trans refused
  · rintro ⟨deep, rfl⟩
    exact limited.beyond deep

/-- What succeeds under the limit gives the same under the larger one. -/
theorem eq_ok (limited : Limited limit n x y) {a : α} (ok : x = .ok a) : y = .ok a := by
  rcases Nat.lt_or_ge limit n with deep | le
  · cases ok.symm.trans (limited.beyond deep)
  · obtain ⟨b, rfl, rfl⟩ := limited.within le
    exact ok

theorem checkDepth {registry : Registry} {larger : Nat} (le : limit ≤ larger) (depth : Nat) :
    Limited limit depth (CompileContext.checkDepth ⟨registry, limit⟩ depth)
      (CompileContext.checkDepth ⟨registry, larger⟩ depth) where
  within fits := ⟨(), if_neg (Nat.not_lt_of_le fits), if_neg (Nat.not_lt_of_le (Nat.le_trans fits le))⟩
  beyond deep := if_pos deep

/-- To check a depth first makes no difference to what needs as much. -/
theorem checked {registry : Registry} {larger depth : Nat} (le : limit ≤ larger)
    (needs : depth ≤ n) (inner : depth ≤ limit → Limited limit n x y) :
    Limited limit n (CompileContext.checkDepth ⟨registry, limit⟩ depth >>= fun _ => x)
      (CompileContext.checkDepth ⟨registry, larger⟩ depth >>= fun _ => y) := by
  have both : Limited limit (max depth n)
      (CompileContext.checkDepth ⟨registry, limit⟩ depth >>= fun _ => x)
      (CompileContext.checkDepth ⟨registry, larger⟩ depth >>= fun _ => y) :=
    (checkDepth le depth).bind fun fits _ => inner fits
  rwa [Nat.max_eq_right needs] at both

end Limited

/-! ## Members that nest nothing -/

section Flat

variable {registry : Registry} {e : Entity} {key : String} {members : List (String × Json)}

/-- What is neither an object nor a list of objects compiles without a limit. -/
theorem exists_flat {level : Level} {count : Nat} {role : MemberRole} {value : Json}
    (flat : value.isObject = false)
    (unlisted : ∀ items, value = .arr items → role ≠ .conjunction ∧ role ≠ .disjunction) :
    ∃ r, ∀ cx : CompileContext, compileMember cx level count role value = .ok r := by
  cases role with
  | conjunction =>
      cases value with
      | arr items => exact absurd rfl (unlisted items rfl).1
      | _ => exact ⟨_, fun _ => rfl⟩
  | disjunction =>
      cases value with
      | arr items => exact absurd rfl (unlisted items rfl).2
      | _ => exact ⟨_, fun _ => rfl⟩
  | ignored => cases value <;> exact ⟨_, fun _ => rfl⟩
  | field role =>
      cases role with
      | unknown => cases value <;> exact ⟨_, fun _ => rfl⟩
      | stored c => cases value <;> exact ⟨_, fun _ => rfl⟩
      | relation r =>
          cases value with
          | obj members => cases flat
          | _ => by_cases owned : r.relation.kind = .ownedReference <;>
              exact ⟨_, fun _ => by simp only [compileMember, owned, if_true, if_false]; rfl⟩

/-- A key that names no relation leads nowhere. -/
theorem traversed?_of_unlinked (unlinked : namedLink? registry e key = none) :
    traversed? registry e key members = none := by
  rw [traversed?, unlinked]
  exact ite_self none

theorem traversed?_of_operators (operators : addressesKey members = true) :
    traversed? registry e key members = none := if_pos operators

/-- The subqueries of a link can be named unless it lacks a join table that it needs. -/
theorem Filter.Link.aliases?_eq_none_iff {link : Link} {label : String} {count : Nat} :
    (link.resolved label).aliases? count = none ↔
      link.relation.kind = .manyToMany ∧ link.relation.join = none := by
  rw [ResolvedRelation.aliases?, Filter.Link.resolved]
  cases kind : link.relation.kind with
  | manyToMany => cases join : link.relation.join <;> simp
  | _ => simp

/-- A link is followed if its subqueries can be named. -/
theorem traversed?_of_linked {link : Link} (linked : namedLink? registry e key = some link)
    (read : addressesKey members = false) (label : String) (count : Nat) :
    traversed? registry e key members =
      ((link.resolved label).aliases? count).map fun _ => link.target := by
  rw [traversed?, read, if_neg Bool.false_ne_true, linked, Option.bind_some]
  cases named : (link.resolved label).aliases? count with
  | none => exact if_pos (Link.aliases?_eq_none_iff.mp named)
  | some aliases =>
      refine if_neg fun unjoined => ?_
      rw [Link.aliases?_eq_none_iff.mpr unjoined] at named
      cases named

theorem depthOfMember_obj : depthOfMember registry e key (.obj members) =
    ((traversed? registry e key members).map fun target =>
      depthOfMembers registry target members + 1).getD 0 := by
  rw [depthOfMember]
  cases traversed? registry e key members <;> rfl

theorem depthOfMember_flat {value : Json} (flat : value.isObject = false)
    (unlisted : ∀ items, value = .arr items → key ≠ "$and" ∧ key ≠ "$or") :
    depthOfMember registry e key value = 0 := by
  cases value with
  | arr items => rw [depthOfMember, if_neg (by simpa using unlisted items rfl)]
  | obj members => cases flat
  | _ => rfl

end Flat

/-! ## Compilation under a limit -/

section Compilation

variable {registry : Registry} {limit larger : Nat}

/-- What nests nothing compiles under every limit. -/
theorem Limited.flat {level : Level} {count : Nat} {key : String} {value : Json}
    (here : level.depth ≤ limit) (flat : value.isObject = false)
    (unlisted : ∀ items, value = .arr items → key ≠ "$and" ∧ key ≠ "$or") :
    Limited limit (level.depth + depthOfMember registry level.entity key value)
      (compileMember ⟨registry, limit⟩ level count (memberRole registry level key) value)
      (compileMember ⟨registry, larger⟩ level count (memberRole registry level key) value) := by
  have describes : RoleDescribes registry level key (memberRole registry level key) :=
    memberRole_describes
  generalize memberRole registry level key = role at describes
  obtain ⟨r, compiles⟩ : ∃ r, ∀ cx : CompileContext,
      compileMember cx level count role value = .ok r := by
    refine exists_flat flat fun items listed => ⟨?_, ?_⟩
    · rintro rfl
      exact (unlisted items listed).1 describes.1
    · rintro rfl
      exact (unlisted items listed).2 describes.1
  rw [compiles, compiles, depthOfMember_flat flat unlisted]
  exact .pure here r

mutual

/-- A member compiles up to the depth of its objects. -/
theorem member_limited (le : limit ≤ larger) : ∀ (value : Json) {level : Level} {count : Nat}
    {key : String}, level.depth ≤ limit →
      Limited limit (level.depth + depthOfMember registry level.entity key value)
        (compileMember ⟨registry, limit⟩ level count (memberRole registry level key) value)
        (compileMember ⟨registry, larger⟩ level count (memberRole registry level key) value)
  | .arr items, level, count, key, here => by
      by_cases and : key = "$and"
      · subst and
        rw [depthOfMember, if_pos (.inl rfl)]
        exact (items_limited le items here).andThen _
      by_cases or : key = "$or"
      · subst or
        rw [depthOfMember, if_pos (.inr rfl)]
        exact (items_limited le items here).andThen _
      exact .flat here rfl fun _ _ => ⟨and, or⟩
  | .obj members, level, count, key, here => by
      have describes : RoleDescribes registry level key (memberRole registry level key) :=
        memberRole_describes
      generalize memberRole registry level key = role at describes
      have shallow : traversed? registry level.entity key members = none →
          ∀ r : CompiledFilter × Nat, Limited limit
            (level.depth + depthOfMember registry level.entity key (.obj members))
            (.ok r) (.ok r) := by
        intro none r
        rw [depthOfMember_obj, none]
        exact .pure here r
      cases role with
      | conjunction | disjunction | ignored =>
          exact shallow (traversed?_of_unlinked describes.2.1) _
      | field role =>
          cases role with
          | unknown | stored => exact shallow (traversed?_of_unlinked describes.2.1) _
          | relation r =>
              obtain ⟨-, link, rfl, linked, -⟩ := describes
              simp only [compileMember, holdsOperators_eq]
              cases operators : addressesKey members with
              | true =>
                  simp only [if_true]
                  split <;> exact shallow (traversed?_of_operators operators) _
              | false =>
                  have traversed := traversed?_of_linked linked operators level.label count
                  simp only [Bool.false_eq_true, if_false]
                  cases named : (link.resolved level.label).aliases? count with
                  | none =>
                      rw [named] at traversed
                      exact shallow traversed _
                  | some aliases =>
                      rw [named] at traversed
                      rw [depthOfMember_obj, traversed]
                      change Limited limit (level.depth +
                        (depthOfMembers registry link.target members + 1)) _ _
                      rw [← Nat.add_assoc, Nat.add_right_comm]
                      refine .checked le (Nat.le_add_right _ _) fun fits => ?_
                      let inner : Level := ⟨link.target, aliases.target, level.depth + 1⟩
                      have within : inner.depth ≤ limit := fits
                      exact (members_limited le members within).andThen _
  | .null, _, _, _, here => .flat here rfl nofun
  | .bool _, _, _, _, here => .flat here rfl nofun
  | .int _, _, _, _, here => .flat here rfl nofun
  | .float _, _, _, _, here => .flat here rfl nofun
  | .str _, _, _, _, here => .flat here rfl nofun

theorem members_limited (le : limit ≤ larger) : ∀ (members : List (String × Json)) {level : Level}
    {count : Nat}, level.depth ≤ limit →
      Limited limit (level.depth + depthOfMembers registry level.entity members)
        (compileMembers ⟨registry, limit⟩ level count members)
        (compileMembers ⟨registry, larger⟩ level count members)
  | [], level, count, here => .pure here _
  | (key, value) :: rest, level, count, here => by
      rw [depthOfMembers, ← Nat.add_max_add_left]
      exact (member_limited le value here).bind fun _ r =>
        (members_limited le rest here).andThen _

/-- Objects in a list are nested one deeper than the list. -/
theorem items_limited (le : limit ≤ larger) : ∀ (items : List Json) {level : Level} {count : Nat},
    level.depth ≤ limit →
      Limited limit (level.depth + depthOfItems registry level.entity items)
        (compileItems ⟨registry, limit⟩ { level with depth := level.depth + 1 } count items)
        (compileItems ⟨registry, larger⟩ { level with depth := level.depth + 1 } count items)
  | [], level, count, here => .pure here _
  | .obj members :: rest, level, count, here => by
      rw [depthOfItems, ← Nat.add_max_add_left, ← Nat.add_assoc, Nat.add_right_comm]
      refine .checked le (Nat.le_trans (Nat.le_add_right _ _) (Nat.le_max_left _ _)) fun fits => ?_
      exact (members_limited le members fits).bind fun _ r =>
        (items_limited le rest here).andThen _
  | .arr _ :: rest, _, _, here => items_limited le rest here
  | .null :: rest, _, _, here => items_limited le rest here
  | .bool _ :: rest, _, _, here => items_limited le rest here
  | .int _ :: rest, _, _, here => items_limited le rest here
  | .float _ :: rest, _, _, here => items_limited le rest here
  | .str _ :: rest, _, _, here => items_limited le rest here

end

/-- The members of a filter are nested in nothing. -/
theorem object_limited (le : limit ≤ larger) (e : Entity) (members : List (String × Json)) :
    Limited limit (depthOfMembers registry e members) (compile registry limit e (.obj members))
      (compile registry larger e (.obj members)) := by
  let outermost : Level := ⟨e, e.table, 0⟩
  have here : outermost.depth ≤ limit := Nat.zero_le limit
  have whole : Limited limit (0 + depthOfMembers registry e members)
      (compileMembers ⟨registry, limit⟩ outermost 0 members)
      (compileMembers ⟨registry, larger⟩ outermost 0 members) := members_limited le members here
  have steps : ∀ limit, compile registry limit e (.obj members) =
      compileMembers ⟨registry, limit⟩ outermost 0 members >>= fun r => .ok r.1.merged := by
    intro limit
    rw [compile]
    cases compileMembers ⟨registry, limit⟩ outermost 0 members <;> rfl
  rw [Nat.zero_add] at whole
  rw [steps limit, steps larger]
  exact whole.andThen fun r => r.1.merged

variable {e : Entity} {filter : Json}

/-- A filter is refused if it is neither null nor an object, and if it is an object that is nested
deeper than the limit. Otherwise it compiles, and to the same under every larger limit. -/
theorem compile_limited :
    (∀ reason, compile registry limit e filter = .error reason ↔
      (filter ≠ .null ∧ filter.isObject = false ∧ reason = .notAnObject) ∨
        (filter.isObject = true ∧ limit < depth registry e filter ∧ reason = .tooDeep limit)) ∧
    ∀ f, compile registry limit e filter = .ok f →
      ∀ larger, limit ≤ larger → compile registry larger e filter = .ok f := by
  cases filter with
  | obj members =>
      refine ⟨fun reason => ?_, fun f compiled larger le =>
        (object_limited le e members).eq_ok compiled⟩
      rw [(object_limited (Nat.le_refl limit) e members).eq_error_iff]
      simp [Json.isObject, depth]
  | null => exact ⟨by simp [compile, Json.isObject], fun f compiled _ _ => compiled⟩
  | _ => exact ⟨by simp [compile, Json.isObject, eq_comm], fun f compiled _ _ => compiled⟩

end Compilation

namespace Staff

/-- Asks for the people whose manager is relieved by someone whose manager has a number, in a
branch of a disjunction that another branch makes hold always. The operators and the object given
to an unknown name are not gone into. -/
def nested : Json :=
  .obj [("$or", .arr [.str "Ada", .obj [], .obj [("manager", .obj [("reliefs", .obj [
    ("manager", .obj [("$exists", .bool true)]),
    ("shift", .obj [("manager", .obj [("manager", .obj [])])])])])]])]

end Staff

open Staff in
/-- A disjunction that is dropped is as deep as its branches, and then asks for nothing. -/
theorem dropped_disjunction_limited :
    compile registry 2 people nested = .error (.tooDeep 2) ∧
      ∀ limit, 3 ≤ limit → compile registry limit people nested = .ok ∅ := by
  have deep : depth registry people nested = 3 := by decide +kernel
  refine ⟨(compile_limited.1 _).mpr (.inr ⟨rfl, by omega, rfl⟩), ?_⟩
  have compiled : compile registry 3 people nested = .ok ∅ := by rfl
  exact compile_limited.2 ∅ compiled

end ScopedAccess
