import ScopedAccess.Filter.Operators
import ScopedAccess.Sql.Like
import Mathlib.Data.List.Forall2
import Mathlib.Data.List.Infix
/-!
# What patterns find

The rules of `LIKE` for a pattern and a text are those of `Likes`; the pieces that the engine reads
a pattern as match where the rules say (`matchesLike_iff`), however characters are compared.

The pattern written for a text to look for reads as the characters of its body, each for itself,
with any run on the sides that have no anchor (`Pattern.pieces_likeChars`). So no backslash in it is
left without a character to escape, and it finds the body where the anchors say
(`Pattern.matchesPieces_likeChars`).

* `like_exact`: what is found by a text to look for, if characters are compared for equality.
-/

namespace ScopedAccess

set_option autoImplicit false

variable {same : Char → Char → Bool} {ps : List LikePiece} {cs : List Char}

/-! ## The rules of `LIKE` -/

/-- Whether a text matches a pattern, character by character. -/
inductive Likes (same : Char → Char → Bool) : List Char → List Char → Prop
  | nil : Likes same [] []
  | anyRun {pattern cs : List Char} (front : List Char) (rest : Likes same pattern cs) :
      Likes same ('%' :: pattern) (front ++ cs)
  | anyChar {pattern cs : List Char} (c : Char) (rest : Likes same pattern cs) :
      Likes same ('_' :: pattern) (c :: cs)
  | escaped {p c : Char} {pattern cs : List Char} (alike : same p c = true)
      (rest : Likes same pattern cs) : Likes same ('\\' :: p :: pattern) (c :: cs)
  | plain {p c : Char} {pattern cs : List Char} (plain : Pattern.isSpecial p = false)
      (alike : same p c = true) (rest : Likes same pattern cs) :
      Likes same (p :: pattern) (c :: cs)

theorem mem_suffixes {α : Type} {l s : List α} : s ∈ suffixes l ↔ s <:+ l := by
  induction l with
  | nil => simp [suffixes]
  | cons a rest ih => rw [suffixes, List.mem_cons, ih, List.suffix_cons_iff]

/-- Any run of characters may come before what the rest of a pattern matches. -/
theorem matchesPieces_anyRun : matchesPieces same (.anyRun :: ps) cs = true ↔
    ∃ front rest, cs = front ++ rest ∧ matchesPieces same ps rest = true := by
  rw [matchesPieces, List.any_eq_true]
  constructor
  · rintro ⟨rest, suffix, alike⟩
    obtain ⟨front, rfl⟩ := mem_suffixes.mp suffix
    exact ⟨front, rest, rfl, alike⟩
  · rintro ⟨front, rest, rfl, alike⟩
    exact ⟨rest, mem_suffixes.mpr (List.suffix_append front rest), alike⟩

theorem matchesPieces_char {p : Char} : matchesPieces same (.char p :: ps) cs = true ↔
    ∃ c rest, cs = c :: rest ∧ same p c = true ∧ matchesPieces same ps rest = true := by
  cases cs with
  | nil => simp [matchesPieces]
  | cons c rest => simp [matchesPieces]

theorem matchesPieces_anyChar : matchesPieces same (.anyChar :: ps) cs = true ↔
    ∃ c rest, cs = c :: rest ∧ matchesPieces same ps rest = true := by
  cases cs with
  | nil => simp [matchesPieces]
  | cons c rest => simp [matchesPieces]

theorem ofChars_plain {p : Char} (plain : Pattern.isSpecial p = false) (pattern : List Char) :
    LikePiece.ofChars (p :: pattern) = .char p :: LikePiece.ofChars pattern := by
  simp only [Pattern.isSpecial, Bool.or_eq_false_iff, decide_eq_false_iff_not] at plain
  obtain ⟨⟨run, one⟩, escape⟩ := plain
  rw [LikePiece.ofChars]
  · exact fun same => run same
  · exact fun same => one same
  · exact fun same _ => escape same
  · exact fun _ _ same _ => escape same

theorem likes_of_matchesPieces {pattern : List Char}
    (alike : matchesPieces same (LikePiece.ofChars pattern) cs = true) :
    Likes same pattern cs := by
  fun_induction LikePiece.ofChars pattern generalizing cs with
  | case1 =>
      rw [matchesPieces, List.isEmpty_iff] at alike
      rw [alike]
      exact .nil
  | case2 pattern ih =>
      obtain ⟨front, _, rfl, later⟩ := matchesPieces_anyRun.mp alike
      exact .anyRun front (ih later)
  | case3 pattern ih =>
      obtain ⟨c, _, rfl, later⟩ := matchesPieces_anyChar.mp alike
      exact .anyChar c (ih later)
  | case4 => simp [matchesPieces] at alike
  | case5 p pattern ih =>
      obtain ⟨_, _, rfl, one, later⟩ := matchesPieces_char.mp alike
      exact .escaped one (ih later)
  | case6 p pattern run any lone escape ih =>
      obtain ⟨_, _, rfl, one, later⟩ := matchesPieces_char.mp alike
      refine .plain ?_ one (ih later)
      have unescaping : p ≠ '\\' := by
        rintro rfl
        cases pattern with
        | nil => exact lone rfl rfl
        | cons q pattern => exact escape q pattern rfl rfl
      simp only [Pattern.isSpecial, Bool.or_eq_false_iff, decide_eq_false_iff_not]
      exact ⟨⟨run, any⟩, unescaping⟩

/-- The pieces of a pattern match where the rules say. -/
theorem matchesPieces_ofChars_iff {pattern : List Char} :
    matchesPieces same (LikePiece.ofChars pattern) cs = true ↔ Likes same pattern cs := by
  refine ⟨likes_of_matchesPieces, fun likes => ?_⟩
  induction likes with
  | nil => rfl
  | anyRun front _ ih => exact matchesPieces_anyRun.mpr ⟨front, _, rfl, ih⟩
  | anyChar c _ ih => exact matchesPieces_anyChar.mpr ⟨c, _, rfl, ih⟩
  | escaped one _ ih => exact matchesPieces_char.mpr ⟨_, _, rfl, one, ih⟩
  | plain plain one _ ih =>
      rw [ofChars_plain plain]
      exact matchesPieces_char.mpr ⟨_, _, rfl, one, ih⟩

theorem matchesLike_iff {pattern s : String} :
    matchesLike same pattern s = true ↔ Likes same pattern.toList s.toList := by
  rw [matchesLike_eq_matchesPieces, matchesPieces_ofChars_iff]

/-! ## The pattern for a text to look for -/

namespace Pattern

variable {p : Pattern}

/-- What stands for a side without an anchor. -/
def openSide (anchored : Bool) : List LikePiece := if anchored then [] else [.anyRun]

theorem pieces_escape_append (body rest : List Char) :
    LikePiece.ofChars (body.flatMap escape ++ rest) =
      body.map .char ++ LikePiece.ofChars rest := by
  induction body with
  | nil => rfl
  | cons c body ih =>
      rw [List.flatMap_cons, List.append_assoc, List.map_cons, List.cons_append, ← ih, escape]
      split
      · rfl
      · rename_i plain
        exact ofChars_plain (Bool.eq_false_iff.mpr plain) _

theorem pieces_likeChars (p : Pattern) : LikePiece.ofChars p.likeChars =
    openSide p.fromStart ++ (p.body.map .char ++ openSide p.toEnd) := by
  have back : LikePiece.ofChars (if p.toEnd then [] else ['%']) = openSide p.toEnd := by
    rw [openSide]
    split <;> rfl
  rw [likeChars, List.append_assoc, openSide]
  split
  · rw [List.nil_append, List.nil_append, pieces_escape_append, back]
  · rw [← back, ← pieces_escape_append]
    rfl

theorem matchesPieces_openSide (anchored : Bool) :
    matchesPieces same (openSide anchored ++ ps) cs = true ↔
      ∃ front rest, cs = front ++ rest ∧ (anchored = true → front = []) ∧
        matchesPieces same ps rest = true := by
  cases anchored with
  | true => simp [openSide]
  | false =>
      simp only [openSide, Bool.false_eq_true, if_false, false_implies, true_and]
      exact matchesPieces_anyRun

theorem matchesPieces_chars {body : List Char} :
    matchesPieces same (body.map .char ++ ps) cs = true ↔
      ∃ middle rest, cs = middle ++ rest ∧ List.Forall₂ (fun p c => same p c = true) body middle ∧
        matchesPieces same ps rest = true := by
  induction body generalizing cs with
  | nil => simp
  | cons p body ih =>
      rw [List.map_cons, List.cons_append, matchesPieces_char]
      simp only [ih, List.forall₂_cons_left_iff]
      constructor
      · rintro ⟨c, rest, rfl, one, middle, rest, rfl, alike, back⟩
        exact ⟨c :: middle, rest, rfl, ⟨c, middle, one, alike, rfl⟩, back⟩
      · rintro ⟨_, rest, rfl, ⟨c, middle, one, alike, rfl⟩, back⟩
        exact ⟨c, _, rfl, one, middle, rest, rfl, alike, back⟩

/-- The pattern written for a text to look for finds the body where the anchors say. -/
theorem matchesPieces_likeChars :
    matchesPieces same (LikePiece.ofChars p.likeChars) cs = true ↔
      ∃ front middle back, cs = front ++ (middle ++ back) ∧
        List.Forall₂ (fun p c => same p c = true) p.body middle ∧
        (p.fromStart = true → front = []) ∧ (p.toEnd = true → back = []) := by
  have ends : ∀ back, matchesPieces same (openSide p.toEnd) back = true ↔
      (p.toEnd = true → back = []) := by
    intro back
    rw [← List.append_nil (openSide p.toEnd), matchesPieces_openSide]
    simp [matchesPieces]
  simp only [pieces_likeChars, matchesPieces_openSide, matchesPieces_chars, ends]
  constructor
  · rintro ⟨front, _, rfl, anchored, middle, back, rfl, alike, anchored'⟩
    exact ⟨front, middle, back, rfl, alike, anchored, anchored'⟩
  · rintro ⟨front, middle, back, rfl, alike, anchored, anchored'⟩
    exact ⟨front, _, rfl, anchored, middle, back, rfl, alike, anchored'⟩

/-- No backslash is left without a character to escape. -/
theorem dangling_not_mem_pieces (p : Pattern) :
    .dangling ∉ LikePiece.ofChars p.likeChars := by
  rw [pieces_likeChars]
  cases fromStart : p.fromStart <;> cases toEnd : p.toEnd <;> simp [openSide]

/-! ## Anchors -/

/-- How a text to look for is split: an anchor in front of it, unless there is none, and one at the
end of what remains, unless there is none. -/
structure Splits (p : Pattern) (cs : List Char) : Prop where
  text : cs = (if p.fromStart then ['^'] else []) ++ (p.body ++ if p.toEnd then ['$'] else [])
  front : p.fromStart = false → ¬ ['^'] <+: cs
  back : p.toEnd = false → ¬ ['$'] <:+ p.body

theorem ofRest_concat (fromStart : Bool) (body : List Char) :
    ofRest fromStart (body ++ ['$']) = ⟨fromStart, body, true⟩ := by
  simp [ofRest]

theorem ofRest_of_open_back {body : List Char} (fromStart : Bool) (open_ : ¬ ['$'] <:+ body) :
    ofRest fromStart body = ⟨fromStart, body, false⟩ := by
  rw [ofRest, if_neg]
  intro last
  obtain ⟨front, rfl⟩ := List.getLast?_eq_some_iff.mp last
  exact open_ (List.suffix_append front ['$'])

theorem ofChars_of_open_front (open_ : ¬ ['^'] <+: cs) : ofChars cs = ofRest false cs := by
  unfold ofChars
  split
  · rename_i rest
    exact absurd (List.prefix_append ['^'] rest) open_
  · rfl

/-- A text is split in one way only. -/
theorem Splits.eq_ofChars (splits : p.Splits cs) : p = ofChars cs := by
  obtain ⟨fromStart, body, toEnd⟩ := p
  have rest : ofRest fromStart (body ++ if toEnd then ['$'] else []) =
      ⟨fromStart, body, toEnd⟩ := by
    cases toEnd with
    | true => exact ofRest_concat fromStart body
    | false =>
        rw [if_neg Bool.false_ne_true, List.append_nil]
        exact ofRest_of_open_back fromStart (splits.back rfl)
  rw [← rest]
  cases fromStart with
  | true => rw [splits.text]; rfl
  | false =>
      rw [ofChars_of_open_front (splits.front rfl), splits.text]
      rfl

theorem splits_ofRest {rest : List Char} {fromStart : Bool}
    (text : cs = (if fromStart then ['^'] else []) ++ rest)
    (front : fromStart = false → ¬ ['^'] <+: cs) : (ofRest fromStart rest).Splits cs := by
  by_cases last : ['$'] <:+ rest
  · obtain ⟨body, rfl⟩ := last
    rw [ofRest_concat]
    exact ⟨text, front, nofun⟩
  · rw [ofRest_of_open_back fromStart last]
    exact ⟨by rw [text, if_neg Bool.false_ne_true, List.append_nil], front, fun _ => last⟩

theorem splits_ofChars (cs : List Char) : (ofChars cs).Splits cs := by
  by_cases first : ['^'] <+: cs
  · obtain ⟨rest, rfl⟩ := first
    exact splits_ofRest rfl nofun
  · rw [ofChars_of_open_front first]
    exact splits_ofRest rfl fun _ => first

theorem splits_iff : p.Splits cs ↔ p = ofChars cs := by
  refine ⟨Splits.eq_ofChars, ?_⟩
  rintro rfl
  exact splits_ofChars cs

end Pattern

/-- Whether a body is found in a text: as all of it with both anchors, at the end that has an
anchor, or anywhere. -/
def Pattern.Finds (p : Pattern) (cs : List Char) : Prop :=
  match p.fromStart, p.toEnd with
  | true, true => cs = p.body
  | true, false => p.body <+: cs
  | false, true => p.body <:+ cs
  | false, false => p.body <:+: cs

theorem Pattern.finds_iff {p : Pattern} : p.Finds cs ↔ ∃ front back,
    cs = front ++ (p.body ++ back) ∧ (p.fromStart = true → front = []) ∧
      (p.toEnd = true → back = []) := by
  obtain ⟨fromStart, body, toEnd⟩ := p
  cases fromStart <;> cases toEnd <;>
    simp [Finds, List.IsPrefix, List.IsSuffix, List.IsInfix, eq_comm]

/-- What a text to look for finds, if characters are compared for equality: it is split into its
anchors and its body in one way, and the rules of `LIKE` let the pattern written for it match where
the body is found. The engine matches the pattern as the rules say, and no backslash in it is left
without a character to escape. -/
theorem like_exact (re s : String) :
    ∃ p : Pattern, (∀ q : Pattern, q.Splits re.toList ↔ q = p) ∧
      (Likes (· == ·) (Pattern.like re).toList s.toList ↔ p.Finds s.toList) ∧
      (matchesLike (· == ·) (Pattern.like re) s = true ↔
        Likes (· == ·) (Pattern.like re).toList s.toList) ∧
      .dangling ∉ LikePiece.ofChars (Pattern.like re).toList := by
  refine ⟨Pattern.ofChars re.toList, fun q => Pattern.splits_iff, ?_, matchesLike_iff, ?_⟩
  · rw [← matchesPieces_ofChars_iff, Pattern.like, String.toList_ofList,
      Pattern.matchesPieces_likeChars, Pattern.finds_iff]
    simp only [beq_iff_eq, List.forall₂_eq_eq_eq]
    constructor
    · rintro ⟨front, _, back, text, rfl, anchored⟩
      exact ⟨front, back, text, anchored⟩
    · rintro ⟨front, back, text, anchored⟩
      exact ⟨front, _, back, text, rfl, anchored⟩
  · rw [Pattern.like, String.toList_ofList]
    exact Pattern.dangling_not_mem_pieces _

/-- Without anchors everything is found, with both of them only the empty text. -/
example : Pattern.like "" = "%%" ∧ Pattern.like "^" = "%" ∧ Pattern.like "$" = "%" ∧
    Pattern.like "^$" = "" := by decide

end ScopedAccess
