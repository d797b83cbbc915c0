import ScopedAccess.Filter.Compiled
import ScopedAccess.Proofs.Filter.Reader
/-!
# The tokens of written conditions

What the reader makes of texts that are put together (`Reader.Spells`). Two texts are read one after
the other if no word goes on from the first into the second: where they meet, one of them has a
blank or a mark. Names are single words, whatever they are, if they are made of the characters of
names.
-/

namespace ScopedAccess

set_option autoImplicit false

namespace Reader

/-! ## Words -/

/-- A text of at least one character, all of them letters, digits and underscores. Characters beyond
ASCII count as letters. -/
def IsIdentifier (name : String) : Prop :=
  name.toList ≠ [] ∧ ∀ c ∈ name.toList, kind? c = some .name

/-- No word goes on into a text. -/
def StartsLoose (text : List Char) : Prop := text.head?.bind kind? = none

/-- No word goes on behind a text. -/
def EndsLoose (text : List Char) : Prop := text.getLast?.bind kind? = none

section Words

variable {s t : List Char}

theorem words_append (apart : EndsLoose s ∨ StartsLoose t) :
    words (s ++ t) = words s ++ words t := by
  have split : (s ++ t).splitBy runsOn = s.splitBy runsOn ++ t.splitBy runsOn := by
    refine List.splitBy_append fun a last b first => ?_
    rcases apart with loose | loose
    · have alone : kind? a = none := by
        rw [Option.mem_def] at last
        simpa [EndsLoose, last] using loose
      simp [runsOn, alone]
    · have alone : kind? b = none := by
        rw [Option.mem_def] at first
        simpa [StartsLoose, first] using loose
      cases kind : kind? a <;> simp [runsOn, alone, kind]
  rw [words, words, words, split, List.filter_append, List.map_append]

theorem not_isWhitespace_of_name {c : Char} (named : kind? c = some .name) :
    c.isWhitespace = false := by
  refine Bool.eq_false_iff.mpr fun blank => ?_
  simp only [Char.isWhitespace, Bool.or_eq_true, decide_eq_true_eq] at blank
  rcases blank with ((rfl | rfl) | rfl) | rfl <;> exact absurd named (by decide)

theorem words_identifier {name : String} (plain : IsIdentifier name) :
    words name.toList = [name] := by
  obtain ⟨filled, named⟩ := plain
  have runs : name.toList.Pairwise fun c d => runsOn c d = true :=
    List.pairwise_of_forall_mem_list fun c hc d hd => by simp [runsOn, named c hc, named d hd]
  have split : name.toList.splitBy runsOn = [name.toList] :=
    List.splitBy_of_isChain filled runs.isChain
  have shown : name.toList.all Char.isWhitespace = false := by
    obtain ⟨c, rest, spelled⟩ := List.exists_cons_of_ne_nil filled
    have first : kind? c = some .name := named c (spelled ▸ List.mem_cons_self)
    simp [spelled, not_isWhitespace_of_name first]
  simp [words, split, shown]

end Words

/-! ## Tokens -/

/-- Places are given their values one text after the other. -/
theorem bound?_append {ws ws' : List String} {vs vs' : List Json} {ts ts' : List Token}
    (first : bound? ws vs = some ts) (second : bound? ws' vs' = some ts') :
    bound? (ws ++ ws') (vs ++ vs') = some (ts ++ ts') := by
  induction ws generalizing vs ts with
  | nil =>
      cases vs with
      | nil =>
          obtain rfl := Option.some.inj first
          exact second
      | cons v vs => cases first
  | cons w ws ih =>
      rw [List.cons_append, bound?]
      rw [bound?] at first
      split at first
      · rename_i place
        rw [if_pos place]
        obtain ⟨v, given, first⟩ := Option.bind_eq_some_iff.mp first
        obtain ⟨rest, bound, rfl⟩ := Option.map_eq_some_iff.mp first
        obtain ⟨vs, rfl⟩ := List.head?_eq_some_iff.mp given
        rw [List.tail_cons] at bound
        simp [ih bound]
      · rename_i other
        obtain ⟨rest, bound, rfl⟩ := Option.map_eq_some_iff.mp first
        rw [if_neg other, ih bound]
        rfl

/-- A text has as many places as there are values, and with these it is a list of tokens. -/
structure Spells (text : List Char) (values : List Json) (tokens : List Token) : Prop where
  places : text.count '?' = values.length
  bound : bound? (words text) values = some tokens

namespace Spells

variable {s t : List Char} {vs vs' : List Json} {ts ts' : List Token} {name : String}

theorem append (first : Spells s vs ts) (second : Spells t vs' ts')
    (apart : EndsLoose s ∨ StartsLoose t) : Spells (s ++ t) (vs ++ vs') (ts ++ ts') where
  places := by rw [List.count_append, List.length_append, first.places, second.places]
  bound := by rw [words_append apart, bound?_append first.bound second.bound]

theorem identifier (plain : IsIdentifier name) : Spells name.toList [] [.word name] where
  places := by
    refine List.count_eq_zero.mpr fun place => ?_
    exact absurd (plain.2 _ place) (by decide)
  bound := by
    have other : name ≠ "?" := by
      rintro rfl
      exact absurd (plain.2 '?' (by decide)) (by decide)
    rw [words_identifier plain, bound?, if_neg other]
    rfl

theorem column {c : Column} (label : IsIdentifier c.label) (named : IsIdentifier c.name)
    (next : StartsLoose t) (tail : Spells t vs ts) :
    Spells (c.sql.toList ++ t) vs (.word c.label :: .word "." :: .word c.name :: ts) := by
  have dot : Spells ".".toList [] [.word "."] := ⟨rfl, rfl⟩
  have spelled := (identifier label).append
    (dot.append ((identifier named).append tail (.inr next)) (.inl rfl)) (.inr rfl)
  simpa [Column.sql, String.toList_append] using spelled

/-- Texts that are spelled one by one are spelled with a word between them. -/
theorem intercalate {α : Type} {text : α → List Char} {values : α → List Json}
    {tokens : α → List Token} {between : List Char} {word : Token}
    (cut : Spells between [] [word]) (ends : EndsLoose between)
    (starts : ∀ t, StartsLoose (between ++ t)) :
    ∀ {l : List α}, (∀ a ∈ l, Spells (text a) (values a) (tokens a)) →
      Spells (between.intercalate (l.map text)) (l.flatMap values)
        ([word].intercalate (l.map tokens))
  | [], _ => ⟨rfl, rfl⟩
  | [a], each => by
      have only := each a (.head _)
      simpa using only
  | a :: b :: l, each => by
      obtain ⟨first, others⟩ := List.forall_mem_cons.mp each
      have rest := cut.append (intercalate cut ends starts others) (.inl ends)
      have spelled := first.append rest (.inr (starts _))
      simpa [List.intercalate_cons_cons] using spelled

end Spells

end Reader

end ScopedAccess
