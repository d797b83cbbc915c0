/-!
# The `LIKE` operator

A pattern is a list of pieces: `%` for any run of characters, `_` for any one, and
characters that stand for themselves; a backslash makes the next character stand for
itself, and one at the end matches nothing. How single characters are compared is a
parameter.

What matches is said by `matchesPieces`, and found in one pass over the text for each piece
(`matchesLike_eq_matchesPieces`).
-/

namespace ScopedAccess

set_option autoImplicit false

/-- A piece of a pattern. -/
inductive LikePiece where
  | anyRun
  | anyChar
  | char (c : Char)
  /-- A backslash with nothing to escape. -/
  | dangling
  deriving DecidableEq

namespace LikePiece

/-- The pieces of a pattern. -/
def ofChars : List Char → List LikePiece
  | [] => []
  | '%' :: rest => anyRun :: ofChars rest
  | '_' :: rest => anyChar :: ofChars rest
  | ['\\'] => [dangling]
  | '\\' :: c :: rest => char c :: ofChars rest
  | c :: rest => char c :: ofChars rest

end LikePiece

/-- A list and what is left of it after each of its elements. -/
def suffixes {α : Type} : List α → List (List α)
  | [] => [[]]
  | a :: rest => (a :: rest) :: suffixes rest

/-- Whether characters match pieces. -/
def matchesPieces (same : Char → Char → Bool) : List LikePiece → List Char → Bool
  | [], cs => cs.isEmpty
  | .anyRun :: rest, cs => (suffixes cs).any (matchesPieces same rest)
  | .anyChar :: rest, _ :: cs => matchesPieces same rest cs
  | .char p :: rest, c :: cs => same p c && matchesPieces same rest cs
  | _, _ => false

/-! ## Matching in one pass for each piece -/

/-- For each place, whether there is a truth there or later. -/
def anyLater (bs : List Bool) : List Bool :=
  bs.foldr (fun b later => (b || later.headD false) :: later) []

/-- For characters and what is left of them after each, whether they match pieces. -/
def matchingSuffixes (same : Char → Char → Bool) : List LikePiece → List Char → List Bool
  | [], cs => cs.map (fun _ => false) ++ [true]
  | .anyRun :: rest, cs => anyLater (matchingSuffixes same rest cs)
  | .anyChar :: rest, cs => (matchingSuffixes same rest cs).tail ++ [false]
  | .char p :: rest, cs =>
    cs.zipWith (fun c b => same p c && b) (matchingSuffixes same rest cs).tail ++ [false]
  | .dangling :: _, cs => cs.map (fun _ => false) ++ [false]

theorem suffixes_eq_cons {α : Type} (l : List α) : ∃ rest, suffixes l = l :: rest := by
  cases l with
  | nil => exact ⟨[], rfl⟩
  | cons a l => exact ⟨suffixes l, rfl⟩

theorem anyLater_map_suffixes {α : Type} (f : List α → Bool) (l : List α) :
    anyLater ((suffixes l).map f) = (suffixes l).map fun s => (suffixes s).any f := by
  induction l with
  | nil => simp [suffixes, anyLater]
  | cons a l ih =>
    obtain ⟨rest, hrest⟩ := suffixes_eq_cons l
    have hfold : anyLater ((suffixes (a :: l)).map f)
        = (f (a :: l) || (anyLater ((suffixes l).map f)).headD false)
          :: anyLater ((suffixes l).map f) := rfl
    rw [hfold, ih]
    simp [suffixes, hrest]

theorem matchingSuffixes_eq_map (same : Char → Char → Bool) (ps : List LikePiece)
    (cs : List Char) :
    matchingSuffixes same ps cs = (suffixes cs).map (matchesPieces same ps) := by
  induction ps generalizing cs with
  | nil =>
    induction cs with
    | nil => rfl
    | cons c cs ih => simpa [matchingSuffixes, suffixes, matchesPieces] using ih
  | cons p ps ih =>
    cases p with
    | anyRun =>
      rw [matchingSuffixes, ih, anyLater_map_suffixes]
      rfl
    | anyChar =>
      rw [matchingSuffixes, ih]
      induction cs with
      | nil => rfl
      | cons c cs ihc =>
        obtain ⟨rest, hrest⟩ := suffixes_eq_cons cs
        rw [hrest] at ihc
        simpa [suffixes, hrest, matchesPieces] using ihc
    | char q =>
      rw [matchingSuffixes, ih]
      induction cs with
      | nil => rfl
      | cons c cs ihc =>
        obtain ⟨rest, hrest⟩ := suffixes_eq_cons cs
        rw [hrest] at ihc
        simpa [suffixes, hrest, matchesPieces] using ihc
    | dangling =>
      rw [matchingSuffixes]
      induction cs with
      | nil => rfl
      | cons c cs ihc => simpa [suffixes, matchesPieces] using ihc

/-- Whether a text matches a pattern. -/
def matchesLike (same : Char → Char → Bool) (pattern s : String) : Bool :=
  (matchingSuffixes same (LikePiece.ofChars pattern.toList) s.toList).headD false

/-- The pass finds what the pieces say. -/
theorem matchesLike_eq_matchesPieces (same : Char → Char → Bool) (pattern s : String) :
    matchesLike same pattern s =
      matchesPieces same (LikePiece.ofChars pattern.toList) s.toList := by
  obtain ⟨rest, hrest⟩ := suffixes_eq_cons s.toList
  simp [matchesLike, matchingSuffixes_eq_map, hrest]

/-- What a character is compared by: the lower case of letters of ASCII, and a replacement for
the two code points at the end of the first plane, which are no characters. -/
def letterKey (c : Char) : Char :=
  if c = '\uFFFE' || c = '\uFFFF' then '\uFFFD' else c.toLower

/-- Whether patterns take two characters for one. -/
def sameLetter (a b : Char) : Bool := letterKey a = letterKey b

end ScopedAccess
