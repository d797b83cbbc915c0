import ScopedAccess.Sorted.Set
/-!
# Sorted maps

A finite map kept as its list of entries with increasing keys. As with sorted
sets the order is part of the type, so two maps with the same entries
are equal.

* `SortedMap.find?_insert`, `SortedMap.find?_erase`, `SortedMap.find?_ofList`: what the
  operations do to lookups;
* `SortedMap.ext_find?`: two maps with the same lookups are equal.
-/

namespace ScopedAccess

set_option autoImplicit false

section Entries

variable {κ β : Type} [LT κ] [DecidableLT κ]

/-- Put an entry into a list with increasing keys, replacing the value of a key
that is there already. -/
def insertEntry (k : κ) (v : β) : List (κ × β) → List (κ × β)
  | [] => [(k, v)]
  | (k', v') :: rest =>
    if k < k' then (k, v) :: (k', v') :: rest
    else if k' < k then (k', v') :: insertEntry k v rest
    else (k, v) :: rest

variable [Std.Trichotomous (α := κ) (· < ·)]

theorem mem_keys_insertEntry {k x : κ} {v : β} {l : List (κ × β)} :
    x ∈ (insertEntry k v l).map Prod.fst ↔ x = k ∨ x ∈ l.map Prod.fst := by
  induction l with
  | nil => simp [insertEntry]
  | cons e rest ih =>
    obtain ⟨k', v'⟩ := e
    rw [insertEntry]
    split
    · simp
    · split
      · simp only [List.map_cons, List.mem_cons, ih]; grind
      · rename_i h₁ h₂
        have hk : k = k' := (Std.lt_trichotomy k k').elim (absurd · h₁) (·.elim id (absurd · h₂))
        subst hk; simp

variable [Trans (α := κ) (β := κ) (γ := κ) (· < ·) (· < ·) (· < ·)]

theorem insertEntry_sorted {k : κ} {v : β} {l : List (κ × β)}
    (h : (l.map Prod.fst).Pairwise (· < ·)) :
    ((insertEntry k v l).map Prod.fst).Pairwise (· < ·) := by
  induction l with
  | nil => simp [insertEntry]
  | cons e rest ih =>
    obtain ⟨k', v'⟩ := e
    have hk := List.pairwise_cons.mp h
    rw [insertEntry]
    split
    · rename_i hlt
      refine List.pairwise_cons.mpr ⟨fun x hx => ?_, h⟩
      rcases List.mem_cons.mp hx with rfl | hx
      · exact hlt
      · exact Std.lt_trans hlt (hk.1 x hx)
    · split
      · rename_i hlt
        refine List.pairwise_cons.mpr ⟨fun x hx => ?_, ih hk.2⟩
        rcases mem_keys_insertEntry.mp hx with rfl | hx
        · exact hlt
        · exact hk.1 x hx
      · rename_i h₁ h₂
        have hk' : k = k' := (Std.lt_trichotomy k k').elim (absurd · h₁) (·.elim id (absurd · h₂))
        subst hk'; exact h

end Entries

/-- A finite map, kept as its entries in increasing order of their keys. -/
structure SortedMap (κ β : Type) [LT κ] where
  entries : List (κ × β)
  sorted : (entries.map Prod.fst).Pairwise (· < ·)

namespace SortedMap

variable {κ β : Type} [LT κ]

instance [DecidableEq κ] [DecidableEq β] : DecidableEq (SortedMap κ β) := fun s t =>
  if h : s.entries = t.entries then
    isTrue (by cases s; cases t; cases h; rfl)
  else isFalse fun e => h (e ▸ rfl)

theorem sorted_nil : (([] : List (κ × β)).map Prod.fst).Pairwise (· < ·) := .nil

/-- The map without entries. -/
def empty : SortedMap κ β := ⟨[], sorted_nil⟩

instance : EmptyCollection (SortedMap κ β) := ⟨empty⟩

instance : Inhabited (SortedMap κ β) := ⟨empty⟩

def keys (m : SortedMap κ β) : List κ := m.entries.map Prod.fst

def values (m : SortedMap κ β) : List β := m.entries.map Prod.snd

def size (m : SortedMap κ β) : Nat := m.entries.length

def isEmpty (m : SortedMap κ β) : Bool := m.entries.isEmpty

/-- The entries that pass a test. -/
def filter (p : κ → β → Bool) (m : SortedMap κ β) : SortedMap κ β :=
  ⟨m.entries.filter fun e => p e.1 e.2, m.sorted.sublist (List.filter_sublist.map _)⟩

/-- Every value replaced, under the same key. -/
def mapValues {γ : Type} (f : κ → β → γ) (m : SortedMap κ β) : SortedMap κ γ :=
  ⟨m.entries.map fun e => (e.1, f e.1 e.2), by simpa [Function.comp_def] using m.sorted⟩

section Lookup

variable [DecidableEq κ]

/-- The value under a key. -/
def find? (m : SortedMap κ β) (k : κ) : Option β := m.entries.lookup k

def contains (m : SortedMap κ β) (k : κ) : Bool := (m.find? k).isSome

/-- The map without the entry of a key. -/
def erase (m : SortedMap κ β) (k : κ) : SortedMap κ β := m.filter fun k' _ => !decide (k' = k)

@[simp] theorem find?_empty (k : κ) : (∅ : SortedMap κ β).find? k = none := rfl

omit [LT κ] in
theorem lookup_filter {p : κ → Bool} {l : List (κ × β)} {x : κ} :
    (l.filter fun e => p e.1).lookup x = if p x then l.lookup x else none := by
  induction l with
  | nil => simp
  | cons e rest ih => obtain ⟨k', v'⟩ := e; grind

/-- Entries that are kept for their keys. -/
theorem find?_filter (m : SortedMap κ β) (p : κ → Bool) (x : κ) :
    (m.filter fun k _ => p k).find? x = if p x then m.find? x else none := lookup_filter

theorem find?_erase (m : SortedMap κ β) (k x : κ) :
    (m.erase k).find? x = if x = k then none else m.find? x := by
  rw [erase, find?_filter m fun k' => !decide (k' = k)]
  by_cases same : x = k <;> simp [same]

omit [LT κ] in
/-- In a list of entries with different keys the value of a key is the one listed. -/
theorem lookup_eq_some_iff_mem {l : List (κ × β)} (nodup : (l.map Prod.fst).Nodup) {k : κ}
    {v : β} : l.lookup k = some v ↔ (k, v) ∈ l := by
  constructor
  · intro found
    obtain ⟨before, after, split, -⟩ := List.lookup_eq_some_iff.mp found
    simp [split]
  · intro member
    obtain ⟨before, after, split⟩ := List.append_of_mem member
    refine List.lookup_eq_some_iff.mpr ⟨before, after, split, fun e early => ?_⟩
    rw [split, List.map_append, List.map_cons] at nodup
    have other : e.1 ≠ k :=
      (List.nodup_append.mp nodup).2.2 _ (List.mem_map_of_mem early) _ (.head _)
    simpa using other.symm

variable [Std.Irrefl (α := κ) (· < ·)]

omit [DecidableEq κ] in
theorem nodup_keys (m : SortedMap κ β) : m.keys.Nodup :=
  m.sorted.imp fun {a b} before => by rintro rfl; exact Std.Irrefl.irrefl a before

omit [DecidableEq κ] in
theorem nodup_entries (m : SortedMap κ β) : m.entries.Nodup :=
  List.Pairwise.of_map Prod.fst (fun _ _ other same => other (congrArg Prod.fst same))
    (nodup_keys m)

theorem find?_eq_some_iff {m : SortedMap κ β} {k : κ} {v : β} :
    m.find? k = some v ↔ (k, v) ∈ m.entries := lookup_eq_some_iff_mem (nodup_keys m)

/-- Two maps with the same lookups have the same entries. -/
theorem ext_find? [Std.Asymm (α := κ) (· < ·)] {m m' : SortedMap κ β}
    (same : ∀ k, m.find? k = m'.find? k) : m = m' := by
  have entries : m.entries = m'.entries := by
    refine List.Perm.eq_of_pairwise
      (fun a b _ _ (ab : a.1 < b.1) ba => (Std.Asymm.asymm a.1 b.1 ab ba).elim)
      (List.pairwise_map.mp m.sorted) (List.pairwise_map.mp m'.sorted) ?_
    refine (List.perm_ext_iff_of_nodup (nodup_entries m) (nodup_entries m')).mpr ?_
    rintro ⟨k, v⟩
    rw [← find?_eq_some_iff, ← find?_eq_some_iff, same]
  cases m; cases m'; cases entries; rfl

end Lookup

variable [DecidableLT κ] [Std.Trichotomous (α := κ) (· < ·)]
  [Trans (α := κ) (β := κ) (γ := κ) (· < ·) (· < ·) (· < ·)]

/-- The entries from a key on, the key itself included. -/
def entriesFrom (m : SortedMap κ β) (k : κ) : List (κ × β) := m.entries.dropWhile fun e => e.1 < k

/-- The map with one entry more, or with another value under a known key. -/
def insert (m : SortedMap κ β) (k : κ) (v : β) : SortedMap κ β :=
  ⟨insertEntry k v m.entries, insertEntry_sorted m.sorted⟩

/-- The map of a list of entries; of two with one key the later wins. -/
def ofList (l : List (κ × β)) : SortedMap κ β := l.foldl (fun m e => m.insert e.1 e.2) ∅

/-- The map with the value of one key replaced by a function of the value there,
if any. -/
def alter [DecidableEq κ] (m : SortedMap κ β) (k : κ) (f : Option β → β) : SortedMap κ β :=
  m.insert k (f (m.find? k))

section LookupInsert

variable [DecidableEq κ]

omit [Trans (α := κ) (β := κ) (γ := κ) (· < ·) (· < ·) (· < ·)] in
theorem lookup_insertEntry {k x : κ} {v : β} {l : List (κ × β)} :
    (insertEntry k v l).lookup x = if x = k then some v else l.lookup x := by
  induction l with
  | nil => grind [insertEntry]
  | cons e rest ih =>
    obtain ⟨k', v'⟩ := e
    rw [insertEntry]
    split
    · grind
    · split
      · rename_i h₁ h₂
        have hne : k' ≠ k := by rintro rfl; exact h₁ h₂
        grind
      · rename_i h₁ h₂
        have hk : k = k' := (Std.lt_trichotomy k k').elim (absurd · h₁) (·.elim id (absurd · h₂))
        grind

theorem find?_insert (m : SortedMap κ β) (k x : κ) (v : β) :
    (m.insert k v).find? x = if x = k then some v else m.find? x := lookup_insertEntry

theorem find?_foldl_insert {l : List (κ × β)} (nodup : (l.map Prod.fst).Nodup)
    (m : SortedMap κ β) (x : κ) :
    (l.foldl (fun m e => m.insert e.1 e.2) m).find? x = (l.lookup x).or (m.find? x) := by
  induction l generalizing m with
  | nil => rfl
  | cons e rest ih =>
    obtain ⟨k, v⟩ := e
    obtain ⟨fresh, others⟩ := List.nodup_cons.mp nodup
    rw [List.foldl_cons, ih others, find?_insert, List.lookup_cons]
    by_cases same : x = k
    · subst same
      have unlisted : rest.lookup x = none := by
        refine List.lookup_eq_none_iff.mpr fun e member => ?_
        have other : x ≠ e.1 := fun eq => fresh (List.mem_map.mpr ⟨e, member, eq.symm⟩)
        simpa using other
      simp [unlisted]
    · simp [same, beq_eq_false_iff_ne.mpr same]

/-- A list of entries with different keys is looked up as its map is. -/
theorem find?_ofList {l : List (κ × β)} (nodup : (l.map Prod.fst).Nodup) (x : κ) :
    (ofList l).find? x = l.lookup x := by
  rw [ofList, find?_foldl_insert nodup, find?_empty, Option.or_none]

end LookupInsert

end SortedMap

end ScopedAccess
