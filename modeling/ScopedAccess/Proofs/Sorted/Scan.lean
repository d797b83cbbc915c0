import ScopedAccess.Sorted.Map
/-!
# Scans of sorted maps

The keys of a map from texts stand in their order, in which all texts with one start stand
together: none of them is before that start, and a text between the start and one of them has
the start itself. So a scan from the start on, as long as keys have it, finds them all
(`SortedMap.takeWhile_entriesFrom`).
-/

namespace ScopedAccess

set_option autoImplicit false

/-! ## Texts with one start -/

/-- A text is not before its start. -/
theorem not_lt_start {start text : List Char} (begins : start <+: text) : ¬ text < start := by
  induction start generalizing text with
  | nil => exact List.not_lt_nil text
  | cons c rest ih =>
      obtain ⟨tail, rfl⟩ := begins
      rw [List.cons_append, List.cons_lt_cons_iff]
      rintro (before | ⟨-, before⟩)
      · exact Std.Irrefl.irrefl c before
      · exact ih (List.prefix_append rest tail) before

/-- A text between a start and a text that has it has the start itself. -/
theorem prefix_of_between {start text later : List Char} (reached : ¬ text < start)
    (before : text < later) (begins : start <+: later) : start <+: text := by
  induction start generalizing text later with
  | nil => exact List.nil_prefix
  | cons c rest ih =>
      obtain ⟨tail, rfl⟩ := begins
      cases text with
      | nil => exact absurd (List.nil_lt_cons c rest) reached
      | cons d text =>
          rw [List.cons_lt_cons_iff, not_or] at reached
          rw [List.cons_append, List.cons_lt_cons_iff] at before
          rcases before with less | ⟨rfl, before⟩
          · exact absurd less reached.1
          · have beyond : ¬ text < rest := fun less => reached.2 ⟨rfl, less⟩
            exact List.cons_prefix_cons.mpr ⟨rfl, ih beyond before (List.prefix_append rest tail)⟩

/-! ## Scans -/

/-- Where only the first members of a list can pass a test, taking members while they pass finds
all that do. -/
theorem takeWhile_eq_filter {α : Type} {p : α → Bool} {l : List α}
    (first : l.Pairwise fun a b => p b = true → p a = true) : l.takeWhile p = l.filter p := by
  induction l with
  | nil => rfl
  | cons a rest ih =>
      obtain ⟨leads, first⟩ := List.pairwise_cons.mp first
      cases passes : p a with
      | true => rw [List.takeWhile_cons_of_pos passes, List.filter_cons_of_pos passes, ih first]
      | false =>
          have none : (a :: rest).filter p = [] := by
            refine List.filter_eq_nil_iff.mpr fun b member passing => ?_
            rcases List.mem_cons.mp member with rfl | later
            · rw [passes] at passing
              cases passing
            · rw [leads b later passing] at passes
              cases passes
          rw [none, List.takeWhile_cons_of_neg (by simp [passes])]

namespace SortedMap

variable {β : Type} {m : SortedMap String β} {start : String}

/-- The entries from a key on are those whose keys are not before it. -/
theorem mem_entriesFrom {e : String × β} :
    e ∈ m.entriesFrom start ↔ e ∈ m.entries ∧ ¬ e.1 < start := by
  obtain ⟨entries, sorted⟩ := m
  show e ∈ entries.dropWhile (fun e => e.1 < start) ↔ e ∈ entries ∧ ¬ e.1 < start
  induction entries with
  | nil => simp
  | cons d rest ih =>
      obtain ⟨leads, sorted⟩ := List.pairwise_cons.mp sorted
      by_cases before : d.1 < start
      · rw [List.dropWhile_cons_of_pos (by simpa using before), ih sorted, List.mem_cons]
        constructor
        · rintro ⟨member, reached⟩
          exact ⟨.inr member, reached⟩
        · rintro ⟨rfl | member, reached⟩
          · exact absurd before reached
          · exact ⟨member, reached⟩
      · rw [List.dropWhile_cons_of_neg (by simpa using before)]
        refine ⟨fun member => ⟨member, ?_⟩, And.left⟩
        rcases List.mem_cons.mp member with rfl | later
        · exact before
        · exact fun less => before (String.lt_trans (leads e.1 (List.mem_map_of_mem later)) less)

theorem sorted_entriesFrom : (m.entriesFrom start).Pairwise fun d e => d.1 < e.1 :=
  (List.pairwise_map.mp m.sorted).sublist (List.dropWhile_sublist _)

/-- A scan from a start on, as long as keys have it, finds all entries whose keys do. -/
theorem takeWhile_entriesFrom :
    ((m.entriesFrom start).takeWhile fun e => start.toList.isPrefixOf e.1.toList) =
      (m.entriesFrom start).filter fun e => start.toList.isPrefixOf e.1.toList := by
  refine takeWhile_eq_filter (List.Pairwise.imp_of_mem (fun {d e} member _ before begins => ?_)
    sorted_entriesFrom)
  have reached := (mem_entriesFrom.mp member).2
  exact List.isPrefixOf_iff_prefix.mpr
    (prefix_of_between reached before (List.isPrefixOf_iff_prefix.mp begins))

/-- What such a scan finds. -/
theorem mem_takeWhile_entriesFrom {e : String × β} :
    (e ∈ (m.entriesFrom start).takeWhile fun e => start.toList.isPrefixOf e.1.toList) ↔
      e ∈ m.entries ∧ start.toList <+: e.1.toList := by
  rw [takeWhile_entriesFrom, List.mem_filter, mem_entriesFrom, List.isPrefixOf_iff_prefix,
    and_assoc]
  refine and_congr_right fun _ => ⟨And.right, fun begins => ⟨not_lt_start begins, begins⟩⟩

end SortedMap

end ScopedAccess
