import ScopedAccess.Basic
/-!
# Sorted sets

A finite set kept as its increasing list of members. The order is part of the
type, so two sets with the same members are equal (`SortedSet.ext_mem`), and a
set is written in one order only.

* `SortedSet.mem_insert`, `SortedSet.mem_union`, `SortedSet.mem_ofList`: what
  each operation does to membership.
-/

namespace ScopedAccess

set_option autoImplicit false

section Insertion

variable {α : Type} [LT α] [DecidableLT α]

/-- Put a member into an increasing list, leaving the list as it is when the
member is there already. -/
def insertSorted (a : α) : List α → List α
  | [] => [a]
  | b :: rest =>
    if a < b then a :: b :: rest
    else if b < a then b :: insertSorted a rest
    else b :: rest

variable [Std.Trichotomous (α := α) (· < ·)]

theorem mem_insertSorted {a x : α} {l : List α} :
    x ∈ insertSorted a l ↔ x = a ∨ x ∈ l := by
  induction l with
  | nil => simp [insertSorted]
  | cons b rest ih =>
    rw [insertSorted]
    split
    · simp
    · split
      · simp only [List.mem_cons, ih]; grind
      · rename_i h₁ h₂
        have hab : a = b := (Std.lt_trichotomy a b).elim (absurd · h₁) (·.elim id (absurd · h₂))
        subst hab; simp

variable [Trans (α := α) (β := α) (γ := α) (· < ·) (· < ·) (· < ·)]

theorem insertSorted_sorted {a : α} {l : List α} (h : l.Pairwise (· < ·)) :
    (insertSorted a l).Pairwise (· < ·) := by
  induction l with
  | nil => simp [insertSorted]
  | cons b rest ih =>
    have hb := List.pairwise_cons.mp h
    rw [insertSorted]
    split
    · rename_i hab
      refine List.pairwise_cons.mpr ⟨fun x hx => ?_, h⟩
      rcases List.mem_cons.mp hx with rfl | hx
      · exact hab
      · exact Std.lt_trans hab (hb.1 x hx)
    · split
      · rename_i hba
        refine List.pairwise_cons.mpr ⟨fun x hx => ?_, ih hb.2⟩
        rcases mem_insertSorted.mp hx with rfl | hx
        · exact hba
        · exact hb.1 x hx
      · exact h

end Insertion

/-- A finite set, kept as the increasing list of its members. -/
structure SortedSet (α : Type) [LT α] where
  toList : List α
  sorted : toList.Pairwise (· < ·)

namespace SortedSet

variable {α : Type} [LT α]

instance [DecidableEq α] : DecidableEq (SortedSet α) := fun s t =>
  if h : s.toList = t.toList then
    isTrue (by cases s; cases t; cases h; rfl)
  else isFalse fun e => h (e ▸ rfl)

/-- The set without members. -/
def empty : SortedSet α := ⟨[], .nil⟩

instance : EmptyCollection (SortedSet α) := ⟨empty⟩

instance : Inhabited (SortedSet α) := ⟨empty⟩

instance : Membership α (SortedSet α) := ⟨fun s a => a ∈ s.toList⟩

instance [DecidableEq α] (a : α) (s : SortedSet α) : Decidable (a ∈ s) :=
  inferInstanceAs (Decidable (a ∈ s.toList))

def isEmpty (s : SortedSet α) : Bool := s.toList.isEmpty

/-- The set without one member. -/
def erase [DecidableEq α] (s : SortedSet α) (a : α) : SortedSet α :=
  ⟨s.toList.filter (· ≠ a), s.sorted.filter _⟩

theorem mem_iff {a : α} {s : SortedSet α} : a ∈ s ↔ a ∈ s.toList := Iff.rfl

@[simp] theorem not_mem_empty (a : α) : ¬ a ∈ (∅ : SortedSet α) := by
  intro h; exact List.not_mem_nil h

@[simp] theorem mem_erase [DecidableEq α] {a x : α} {s : SortedSet α} :
    x ∈ s.erase a ↔ x ∈ s ∧ x ≠ a := by
  simp [mem_iff, erase]

/-- Two sets with the same members are the same list. -/
theorem ext_mem [Std.Irrefl (α := α) (· < ·)] [Std.Asymm (α := α) (· < ·)]
    {s t : SortedSet α} (h : ∀ a, a ∈ s ↔ a ∈ t) : s = t := by
  have hl : s.toList = t.toList := by
    have nodup : ∀ {l : List α}, l.Pairwise (· < ·) → l.Nodup := fun hp =>
      hp.imp fun {a b} hab => by rintro rfl; exact Std.Irrefl.irrefl a hab
    refine List.Perm.eq_of_pairwise
      (fun a b _ _ (hab : a < b) hba => (Std.Asymm.asymm a b hab hba).elim) s.sorted t.sorted ?_
    exact (List.perm_ext_iff_of_nodup (nodup s.sorted) (nodup t.sorted)).mpr h
  cases s; cases t; cases hl; rfl

variable [DecidableLT α] [Std.Trichotomous (α := α) (· < ·)]
  [Trans (α := α) (β := α) (γ := α) (· < ·) (· < ·) (· < ·)]

/-- The set with one more member. -/
def insert (s : SortedSet α) (a : α) : SortedSet α :=
  ⟨insertSorted a s.toList, insertSorted_sorted s.sorted⟩

/-- The set of the members of a list, in any order and any number of times. -/
def ofList (l : List α) : SortedSet α := l.foldl insert ∅

/-- The members of either set. -/
def union (s t : SortedSet α) : SortedSet α := t.toList.foldl insert s

@[simp] theorem mem_insert {a x : α} {s : SortedSet α} :
    x ∈ s.insert a ↔ x = a ∨ x ∈ s := mem_insertSorted

theorem mem_foldl_insert {x : α} {l : List α} {s : SortedSet α} :
    x ∈ l.foldl insert s ↔ x ∈ s ∨ x ∈ l := by
  induction l generalizing s with
  | nil => simp
  | cons b rest ih => simp only [List.foldl_cons, ih, mem_insert, List.mem_cons]; grind

@[simp] theorem mem_ofList {x : α} {l : List α} : x ∈ ofList l ↔ x ∈ l := by
  simp [ofList, mem_foldl_insert]

@[simp] theorem mem_union {x : α} {s t : SortedSet α} : x ∈ s.union t ↔ x ∈ s ∨ x ∈ t :=
  mem_foldl_insert

end SortedSet

end ScopedAccess
