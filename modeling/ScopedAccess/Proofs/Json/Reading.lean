import ScopedAccess.Proofs.Identifier
import ScopedAccess.Proofs.Json.Number
/-!
# Reading what has been written

The text of a value ends where no word or number goes on (`Token.Ends`). Up to there the pass
over it makes tokens (`Token.Makes`), and from these the reader completes a value. `Json.Reads`
says which: there is one lemma for each kind of value.

* `Json.Reads.parseLoosely?`: the value read from the text of a value.
-/

namespace ScopedAccess

set_option autoImplicit false

/-- What is read back one by one is read back as a list. -/
theorem mapM_map_of_back {α β : Type} {read : β → Option α} {write : α → β} {l : List α}
    (back : ∀ a ∈ l, read (write a) = some a) : (l.map write).mapM read = some l := by
  induction l with
  | nil => rfl
  | cons a l ih =>
      obtain ⟨first, others⟩ := List.forall_mem_cons.mp back
      rw [List.map_cons, List.mapM_cons, first, ih others]
      rfl

namespace Token

variable {state next : Scan} {c : Char} {cs cs' rest : List Char} {read : List Char}
  {tokens tokens' : List Token} {t : Token}

/-! ## Steps of the pass -/

theorem scanFrom?_eq_bind : scanFrom? state (c :: rest) =
    (step? state c).bind fun stepped => (scanFrom? stepped.1 rest).map (stepped.2 ++ ·) := by
  rw [scanFrom?]
  cases step? state c with
  | none => rfl
  | some stepped =>
      obtain ⟨next, tokens⟩ := stepped
      change (scanFrom? next rest).bind _ = (scanFrom? next rest).map _
      cases scanFrom? next rest <;> rfl

theorem scanFrom?_cons (step : step? state c = some (next, tokens)) :
    scanFrom? state (c :: rest) = (scanFrom? next rest).map (tokens ++ ·) := by
  rw [scanFrom?_eq_bind, step, Option.bind_some]

/-- A step that makes no token. -/
theorem scanFrom?_go (step : step? state c = some (next, [])) :
    scanFrom? state (c :: rest) = scanFrom? next rest := by
  rw [scanFrom?_cons step]
  exact Option.map_id'

/-- Where a token ends, the character after it is taken as one between tokens. -/
theorem scanFrom?_end (step : step? state c = (start? c).map fun p => (p.1, t :: p.2)) :
    scanFrom? state (c :: rest) = (scanFrom? .between (c :: rest)).map (t :: ·) := by
  rw [scanFrom?_eq_bind, scanFrom?_eq_bind, step, step?]
  cases start? c with
  | none => rfl
  | some started =>
      change (scanFrom? started.1 rest).map _ = ((scanFrom? started.1 rest).map _).map _
      rw [Option.map_map]
      rfl

/-- A rest where no word and no number goes on. -/
def Ends (rest : List Char) : Prop :=
  ∀ c ∈ rest.head?, c.isLower = false ∧ isNumberChar c = false

theorem ends_nil : Ends [] := nofun

theorem ends_cons (lower : c.isLower = false) (number : isNumberChar c = false) :
    Ends (c :: rest) := by
  intro d member
  obtain rfl : c = d := by simpa using member
  exact ⟨lower, number⟩

/-- A word ends where it does not go on. -/
theorem scanFrom?_word (word : ofWord? read = some t) (ends : Ends rest) :
    scanFrom? (.word read) rest = (scanFrom? .between rest).map (t :: ·) := by
  cases rest with
  | nil =>
      change (ofWord? read).map _ = _
      rw [word]
      rfl
  | cons c rest =>
      have lower := Bool.eq_false_iff.mp (ends c rfl).1
      refine scanFrom?_end ?_
      rw [step?, if_neg lower, word]
      cases start? c <;> rfl

/-- A number ends where it does not go on. -/
theorem scanFrom?_number (number : ofNumber? read = some t) (ends : Ends rest) :
    scanFrom? (.number read) rest = (scanFrom? .between rest).map (t :: ·) := by
  cases rest with
  | nil =>
      change (ofNumber? read).map _ = _
      rw [number]
      rfl
  | cons c rest =>
      have other := Bool.eq_false_iff.mp (ends c rfl).2
      refine scanFrom?_end ?_
      rw [step?, if_neg other, number]
      cases start? c <;> rfl

/-! ## Texts and their tokens -/

/-- Characters that make tokens wherever they end. -/
def Makes (cs : List Char) (tokens : List Token) : Prop :=
  ∀ rest, Ends rest → scanFrom? .between (cs ++ rest) = (scanFrom? .between rest).map (tokens ++ ·)

/-- A mark is a token by itself, whatever comes after it. -/
theorem scanFrom?_mark (mark : start? c = some (.between, [t])) :
    scanFrom? .between (c :: rest) = (scanFrom? .between rest).map (t :: ·) := by
  have step : step? .between c = some (.between, [t]) := by rw [step?, mark]
  exact scanFrom?_cons step

theorem Makes.mark (mark : start? c = some (.between, [t])) (makes : Makes cs tokens) :
    Makes (c :: cs) (t :: tokens) := by
  intro rest ends
  rw [List.cons_append, scanFrom?_mark mark, makes rest ends, Option.map_map]
  rfl

theorem makes_nil : Makes [] [] := by
  intro rest _
  exact Option.map_id'.symm

/-- Texts one after the other, where the second is where the first ends. -/
theorem Makes.append (first : Makes cs tokens) (second : Makes cs' tokens')
    (ends : ∀ rest, Ends rest → Ends (cs' ++ rest)) : Makes (cs ++ cs') (tokens ++ tokens') := by
  intro rest ends'
  rw [List.append_assoc, first _ (ends rest ends'), second rest ends', Option.map_map]
  refine congrFun (congrArg Option.map (funext fun more => ?_)) _
  exact (List.append_assoc tokens tokens' more).symm

/-! ## Quoted texts -/

/-- A character written by its number is read back. -/
theorem scanFrom?_control (control : c.toNat < 0x20) (units : List Nat) (rest : List Char) :
    scanFrom? (.quoted units) (['\\', 'u', '0', '0', hexDigit (c.toNat / 16),
      hexDigit (c.toNat % 16)] ++ rest) = scanFrom? (.quoted (c.toNat :: units)) rest := by
  have high := hexValue?_hexDigit (n := c.toNat / 16) (by omega)
  have low := hexValue?_hexDigit (n := c.toNat % 16) (by omega)
  have whole : 16 * (c.toNat / 16) + c.toNat % 16 = c.toNat := by omega
  calc scanFrom? (.quoted units) _
    _ = scanFrom? (.escape units) _ := scanFrom?_go rfl
    _ = scanFrom? (.unit units 4 0) _ := scanFrom?_go rfl
    _ = scanFrom? (.unit units 3 0) _ := scanFrom?_go rfl
    _ = scanFrom? (.unit units 2 0) _ := scanFrom?_go rfl
    _ = scanFrom? (.unit units 1 (c.toNat / 16)) _ := scanFrom?_go (by rw [step?, high]; simp)
    _ = scanFrom? (.quoted (c.toNat :: units)) rest :=
      scanFrom?_go (by rw [step?, low]; simp [whole])

/-- A character is read back from inside quotes. -/
theorem scanFrom?_quotedChar (c : Char) (units : List Nat) (rest : List Char) :
    scanFrom? (.quoted units) (Json.quotedChar c ++ rest) =
      scanFrom? (.quoted (c.toNat :: units)) rest := by
  unfold Json.quotedChar
  split
  all_goals try exact (scanFrom?_go rfl).trans (scanFrom?_go rfl)
  rename_i quote backslash _ _ _ _ _
  split
  · rename_i control
    exact scanFrom?_control control units rest
  · rename_i plain
    refine scanFrom?_go ?_
    rw [step?, if_neg, if_neg, if_neg plain]
    · exact backslash
    · exact quote

/-- The quotes of a text are its token. -/
theorem scanFrom?_quoted (cs : List Char) (units : List Nat) (rest : List Char) :
    scanFrom? (.quoted units) (cs.flatMap Json.quotedChar ++ '"' :: rest) =
      (scanFrom? .between rest).map (ofQuoted ((cs.map Char.toNat).reverse ++ units) :: ·) := by
  induction cs generalizing units with
  | nil =>
      have step : step? (.quoted units) '"' = some (.between, [ofQuoted units]) := rfl
      exact scanFrom?_cons step
  | cons c cs ih =>
      rw [List.flatMap_cons, List.append_assoc, scanFrom?_quotedChar, ih, List.map_cons,
        List.reverse_cons, List.append_assoc, List.singleton_append]

/-- Characters are no surrogates. -/
theorem charsOfUnits?_toNat (cs : List Char) : charsOfUnits? (cs.map Char.toNat) = some cs := by
  induction cs with
  | nil => rfl
  | cons c cs ih =>
      have valid : c.toNat < 0xD800 ∨ 0xDFFF < c.toNat := (c.valid).imp id And.left
      have low : ¬ isLowSurrogate c.toNat = true := by
        rw [isLowSurrogate, Bool.and_eq_true, decide_eq_true_eq, decide_eq_true_eq]
        omega
      have high : ¬ isHighSurrogate c.toNat = true := by
        rw [isHighSurrogate, Bool.and_eq_true, decide_eq_true_eq, decide_eq_true_eq]
        omega
      unfold charsOfUnits?
      rw [List.map_cons]
      simp only [if_neg low, if_neg high, ih, Option.map_some, Char.ofNat_toNat]

/-- A text in quotes makes its token. -/
theorem makes_quote (s : String) : Makes (Json.quote s).toList [.text (some s)] := by
  intro rest _
  have units : ofQuoted ((s.toList.map Char.toNat).reverse ++ []) = .text (some s) := by
    rw [List.append_nil, ofQuoted, List.reverse_reverse, charsOfUnits?_toNat, Option.map_some,
      String.ofList_toList]
  have opened : step? .between '"' = some (.quoted [], []) := rfl
  rw [Json.quote, String.toList_ofList, List.cons_append, List.cons_append, List.append_assoc,
    List.singleton_append, scanFrom?_go opened, scanFrom?_quoted, units]
  rfl

/-! ## Words and numbers -/

theorem start?_lower (lower : c.isLower = true) : start? c = some (.word [c], []) := by
  have space : ¬ isSpace c = true := by
    intro blank
    simp only [isSpace, Bool.or_eq_true, decide_eq_true_eq] at blank
    rcases blank with ((rfl | rfl) | rfl) | rfl <;> cases lower
  have quote : c ≠ '"' := by
    rintro rfl
    cases lower
  unfold start?
  rw [if_neg space, if_neg quote, if_pos lower]

theorem start?_number (number : (c.isDigit || c = '-') = true) :
    start? c = some (.number [c], []) := by
  have space : ¬ isSpace c = true := by
    intro blank
    simp only [isSpace, Bool.or_eq_true, decide_eq_true_eq] at blank
    rcases blank with ((rfl | rfl) | rfl) | rfl <;> cases number
  have quote : c ≠ '"' := by
    rintro rfl
    cases number
  have lower : ¬ c.isLower = true := by
    intro lower
    have above : 'a'.val ≤ c.val := of_decide_eq_true (Bool.and_eq_true_iff.mp lower).1
    rcases Bool.or_eq_true_iff.mp number with digit | sign
    · have below : c.val ≤ '9'.val := of_decide_eq_true (Bool.and_eq_true_iff.mp digit).2
      exact absurd (UInt32.le_trans above below) (by decide)
    · rw [of_decide_eq_true sign] at above
      exact absurd above (by decide)
  unfold start?
  rw [if_neg space, if_neg quote, if_neg lower, if_pos number]

theorem scanFrom?_lower (lower : ∀ c ∈ cs, c.isLower = true) :
    scanFrom? (.word read) (cs ++ rest) = scanFrom? (.word (cs.reverse ++ read)) rest := by
  induction cs generalizing read with
  | nil => rfl
  | cons c cs ih =>
      obtain ⟨first, lower⟩ := List.forall_mem_cons.mp lower
      have step : step? (.word read) c = some (.word (c :: read), []) := by rw [step?, if_pos first]
      rw [List.cons_append, scanFrom?_go step, ih lower, List.reverse_cons, List.append_assoc,
        List.singleton_append]

theorem scanFrom?_numberChars (number : ∀ c ∈ cs, isNumberChar c = true) :
    scanFrom? (.number read) (cs ++ rest) = scanFrom? (.number (cs.reverse ++ read)) rest := by
  induction cs generalizing read with
  | nil => rfl
  | cons c cs ih =>
      obtain ⟨first, number⟩ := List.forall_mem_cons.mp number
      have step : step? (.number read) c = some (.number (c :: read), []) := by
        rw [step?, if_pos first]
      rw [List.cons_append, scanFrom?_go step, ih number, List.reverse_cons, List.append_assoc,
        List.singleton_append]

/-- A word makes its token. -/
theorem makes_word (lower : ∀ d ∈ c :: cs, d.isLower = true)
    (word : ofWord? (c :: cs).reverse = some t) : Makes (c :: cs) [t] := by
  intro rest ends
  obtain ⟨first, lower⟩ := List.forall_mem_cons.mp lower
  have start : step? .between c = some (.word [c], []) := start?_lower first
  rw [List.cons_append, scanFrom?_go start, scanFrom?_lower lower, ← List.reverse_cons,
    scanFrom?_word word ends]
  rfl

/-- A number makes its token. -/
theorem makes_number (first : (c.isDigit || c = '-') = true)
    (chars : ∀ d ∈ cs, isNumberChar d = true) (number : ofNumber? (c :: cs).reverse = some t) :
    Makes (c :: cs) [t] := by
  intro rest ends
  have start : step? .between c = some (.number [c], []) := start?_number first
  rw [List.cons_append, scanFrom?_go start, scanFrom?_numberChars chars, ← List.reverse_cons,
    scanFrom?_number number ends]
  rfl

/-- An integer makes the token of its literal. -/
theorem makes_int (n : Int) :
    Makes (toString n).toList [.scalar (NumberLiteral.ofInt n).value?] := by
  have read : ofNumber? (toString n).toList.reverse =
      some (.scalar (NumberLiteral.ofInt n).value?) := by
    rw [ofNumber?, List.reverse_reverse, NumberLiteral.ofChars?_toString, Option.map_some]
  have digits : ∀ d ∈ Nat.toDigits 10 n.natAbs, d.isDigit = true :=
    fun d => NumberLiteral.isDigit_of_mem_toDigits
  have chars : ∀ d ∈ Nat.toDigits 10 n.natAbs, isNumberChar d = true := fun d member => by
    simp [isNumberChar, digits d member]
  rw [NumberLiteral.toList_toString] at read ⊢
  by_cases negative : n < 0
  · rw [if_pos negative] at read ⊢
    exact makes_number rfl chars read
  · rw [if_neg negative] at read ⊢
    cases split : Nat.toDigits 10 n.natAbs with
    | nil => exact absurd split Nat.toDigits_ne_nil
    | cons d ds =>
        rw [split] at read digits chars
        obtain ⟨first, -⟩ := List.forall_mem_cons.mp digits
        exact makes_number (by simp [first]) (List.forall_mem_cons.mp chars).2 read

end Token

namespace Json

open Token (Makes Ends)

variable {j j' : Json} {items items' : List Json} {members members' : List (String × Json)}

/-! ## Values -/

/-- The text of a value is read as another: its tokens complete that one wherever a value may
come. -/
def Reads (j j' : Json) : Prop :=
  ∃ tokens, Makes j.print.toList tokens ∧
    ∀ stack, tokens.foldlM Reader.step? ⟨.value, stack⟩ = some (Reader.complete j' stack) ∧
      tokens.foldlM Reader.step? ⟨.firstItem, stack⟩ = some (Reader.complete j' stack)

/-- The value read from the text of a value. -/
theorem Reads.parseLoosely? (reads : Reads j j') : Json.parseLoosely? j.print = some j' := by
  obtain ⟨tokens, makes, completes⟩ := reads
  have scanned : Token.scan? j.print = some tokens := by
    have all := makes [] Token.ends_nil
    rw [List.append_nil] at all
    rw [Token.scan?, all]
    exact congrArg some (List.append_nil tokens)
  rw [Json.parseLoosely?, scanned, Option.bind_some, ofTokens?, (completes []).1]
  rfl

/-- Where the first item may come, any token but the end of the array is taken as one of a
value. -/
theorem foldlM_firstItem {t : Token} (open_ : t ≠ .closeArray) (tokens : List Token)
    (stack : List Frame) : (t :: tokens).foldlM Reader.step? ⟨.firstItem, stack⟩ =
      (t :: tokens).foldlM Reader.step? ⟨.value, stack⟩ := by
  have step : Reader.step? ⟨.firstItem, stack⟩ t = Reader.value? stack t := by
    cases t with
    | closeArray => exact absurd rfl open_
    | _ => rcases stack with _ | ⟨_ | _, _⟩ <;> rfl
  rw [List.foldlM_cons, List.foldlM_cons, step]
  rfl

theorem reads_scalar {value : Option Json} (makes : Makes j.print.toList [.scalar value]) :
    Reads j (value.getD noValue) :=
  ⟨_, makes, fun stack => ⟨rfl, foldlM_firstItem Token.noConfusion [] stack⟩⟩

theorem reads_null : Reads .null .null := by
  have text : (print .null).toList = ['n', 'u', 'l', 'l'] := rfl
  exact reads_scalar (text ▸ Token.makes_word (List.all_eq_true.mp rfl) rfl)

theorem reads_bool (b : Bool) : Reads (.bool b) (.bool b) := by
  cases b with
  | true =>
      have text : (print (.bool true)).toList = ['t', 'r', 'u', 'e'] := rfl
      exact reads_scalar (text ▸ Token.makes_word (List.all_eq_true.mp rfl) rfl)
  | false =>
      have text : (print (.bool false)).toList = ['f', 'a', 'l', 's', 'e'] := rfl
      exact reads_scalar (text ▸ Token.makes_word (List.all_eq_true.mp rfl) rfl)

/-- An integer is read as its literal denotes it. -/
theorem reads_int (n : Int) : Reads (.int n) ((NumberLiteral.ofInt n).value?.getD noValue) :=
  reads_scalar (Token.makes_int n)

theorem reads_str (s : String) : Reads (.str s) (.str s) :=
  ⟨_, Token.makes_quote s, fun stack => ⟨rfl, foldlM_firstItem Token.noConfusion [] stack⟩⟩

/-! ## Arrays -/

theorem foldlM_of_some {r r' : Reader} {tokens : List Token}
    (run : tokens.foldlM Reader.step? r = some r') (rest : List Token) :
    (tokens ++ rest).foldlM Reader.step? r = rest.foldlM Reader.step? r' := by
  rw [List.foldlM_append, run]
  rfl

theorem ends_comma (rest : List Char) : Ends (',' :: rest) := Token.ends_cons rfl rfl

/-- Texts with commas between them make their tokens with commas between them. -/
theorem makes_comma {cs cs' : List Char} {tokens tokens' : List Token} (first : Makes cs tokens)
    (others : Makes cs' tokens') : Makes (cs ++ ',' :: cs') (tokens ++ .comma :: tokens') :=
  first.append (others.mark rfl) fun rest _ => ends_comma (cs' ++ rest)

/-- A text between brackets. -/
theorem makes_brackets {start finish : Char} {t t' : Token} {cs : List Char} {tokens : List Token}
    (makes : Makes cs tokens) (opened : Token.start? start = some (.between, [t]))
    (closed : Token.start? finish = some (.between, [t']))
    (ends : ∀ rest, Ends (finish :: rest)) :
    Makes (start :: (cs ++ [finish])) (t :: (tokens ++ [t'])) :=
  (makes.append (Token.makes_nil.mark closed) fun rest _ => ends rest).mark opened

/-- The items of an array go into it. -/
theorem exists_items (reads : List.Forall₂ Reads items items') (some_ : items ≠ []) :
    ∃ tokens, Makes ([','].intercalate ((printItems items).map String.toList)) tokens ∧
      ∀ done stack, tokens.foldlM Reader.step? ⟨.value, .array done :: stack⟩ =
          some ⟨.separator, .array (items'.reverse ++ done) :: stack⟩ ∧
        tokens.foldlM Reader.step? ⟨.firstItem, .array done :: stack⟩ =
          some ⟨.separator, .array (items'.reverse ++ done) :: stack⟩ := by
  induction reads with
  | nil => exact absurd rfl some_
  | @cons j j' items items' first others ih =>
      obtain ⟨tokens, makes, completes⟩ := first
      cases others with
      | nil =>
          rw [printItems, printItems, List.map_singleton, List.intercalate_singleton]
          exact ⟨tokens, makes, fun done stack => completes (.array done :: stack)⟩
      | @cons k k' items items' second others =>
          obtain ⟨tokens', makes', completes'⟩ := ih (List.cons_ne_nil k items)
          refine ⟨tokens ++ .comma :: tokens', ?_, fun done stack => ?_⟩
          · rw [printItems, printItems, List.map_cons, List.map_cons,
              List.intercalate_cons_cons, List.append_assoc]
            exact makes_comma makes makes'
          · have later : (.comma :: tokens').foldlM Reader.step?
                ⟨.separator, .array (j' :: done) :: stack⟩ =
                  some ⟨.separator, .array ((j' :: k' :: items').reverse ++ done) :: stack⟩ := by
              rw [List.reverse_cons, List.append_assoc, List.singleton_append]
              exact (completes' (j' :: done) stack).1
            obtain ⟨value, firstItem⟩ := completes (.array done :: stack)
            exact ⟨(foldlM_of_some value _).trans later, (foldlM_of_some firstItem _).trans later⟩

theorem reads_arr (reads : List.Forall₂ Reads items items') : Reads (.arr items) (.arr items') := by
  have ends : ∀ rest, Ends (']' :: rest) := fun rest => Token.ends_cons rfl rfl
  have text : (print (.arr items)).toList =
      '[' :: ([','].intercalate ((printItems items).map String.toList) ++ [']']) := by
    rw [print, String.toList_append, String.toList_append, String.toList_intercalate]
    rfl
  rw [Reads, text]
  cases reads with
  | nil =>
      refine ⟨_, makes_brackets Token.makes_nil rfl rfl ends, fun stack => ⟨rfl, ?_⟩⟩
      exact foldlM_firstItem Token.noConfusion _ stack
  | @cons j j' items items' first others =>
      obtain ⟨tokens, makes, completes⟩ := exists_items (.cons first others) (List.cons_ne_nil j items)
      have value : ∀ stack, (.openArray :: (tokens ++ [.closeArray])).foldlM Reader.step?
          ⟨.value, stack⟩ = some (Reader.complete (.arr (j' :: items')) stack) := by
        intro stack
        refine (foldlM_of_some (completes [] stack).2 _).trans ?_
        rw [List.append_nil]
        change some (Reader.complete (.arr (j' :: items').reverse.reverse) stack) = _
        rw [List.reverse_reverse]
      refine ⟨_, makes_brackets makes rfl rfl ends, fun stack => ⟨value stack, ?_⟩⟩
      exact (foldlM_firstItem Token.noConfusion _ stack).trans (value stack)

/-! ## Objects -/

/-- A member under the same key, with a value that is read as another. -/
def ReadsMember (m m' : String × Json) : Prop := m.1 = m'.1 ∧ Reads m.2 m'.2

/-- Members as they stand while their object is read, last first. -/
def readMembers (members : List (String × Json)) : ReadMembers :=
  (members.map fun m => (some m.1, m.2)).reverse

theorem readMembers_cons (m : String × Json) (members : List (String × Json))
    (done : ReadMembers) :
    readMembers (m :: members) ++ done = readMembers members ++ (some m.1, m.2) :: done := by
  rw [readMembers, List.map_cons, List.reverse_cons, List.append_assoc, List.singleton_append]
  rfl

theorem ofReadMembers_readMembers (members : List (String × Json)) :
    ofReadMembers (readMembers members) = .obj members := by
  have all : (readMembers members).mapM (fun m => m.1.map fun key => (key, m.2)) =
      some members.reverse := by
    rw [readMembers, ← List.map_reverse]
    exact mapM_map_of_back fun _ _ => rfl
  rw [ofReadMembers, all]
  simp only [List.reverse_reverse]

/-- The text of a member makes its key and then its value. -/
theorem makes_member {key : String} {tokens : List Token} (makes : Makes j.print.toList tokens) :
    Makes (quote key ++ ":" ++ j.print).toList (.text (some key) :: .colon :: tokens) := by
  have colon : Makes (':' :: j.print.toList) (.colon :: tokens) := makes.mark rfl
  rw [String.toList_append, String.toList_append, List.append_assoc]
  exact (Token.makes_quote key).append colon fun rest _ => Token.ends_cons rfl rfl

/-- The members of an object go into it. -/
theorem exists_members (reads : List.Forall₂ ReadsMember members members')
    (some_ : members ≠ []) :
    ∃ tokens, Makes ([','].intercalate ((printMembers members).map String.toList)) tokens ∧
      ∀ done stack, ∃ key,
        tokens.foldlM Reader.step? ⟨.key done, stack⟩ =
          some ⟨.separator, .object (readMembers members' ++ done) key :: stack⟩ ∧
        tokens.foldlM Reader.step? ⟨.firstKey done, stack⟩ =
          some ⟨.separator, .object (readMembers members' ++ done) key :: stack⟩ := by
  induction reads with
  | nil => exact absurd rfl some_
  | @cons m m' members members' first others ih =>
      obtain ⟨key, j⟩ := m
      obtain ⟨key', j'⟩ := m'
      obtain ⟨rfl, tokens, makes, completes⟩ := first
      have member : Makes (quote key ++ ":" ++ j.print).toList
          (.text (some key) :: .colon :: tokens) := makes_member makes
      have keyed : ∀ done stack, (.text (some key) :: .colon :: tokens).foldlM Reader.step?
            ⟨.key done, stack⟩ =
              some ⟨.separator, .object ((some key, j') :: done) (some key) :: stack⟩ ∧
          (.text (some key) :: .colon :: tokens).foldlM Reader.step? ⟨.firstKey done, stack⟩ =
              some ⟨.separator, .object ((some key, j') :: done) (some key) :: stack⟩ :=
        fun done stack => ⟨(completes (.object done (some key) :: stack)).1,
          (completes (.object done (some key) :: stack)).1⟩
      cases others with
      | nil =>
          rw [printMembers, printMembers, List.map_singleton, List.intercalate_singleton]
          exact ⟨_, member, fun done stack => ⟨some key, keyed done stack⟩⟩
      | @cons n n' members members' second others =>
          obtain ⟨tokens', makes', completes'⟩ := ih (List.cons_ne_nil n members)
          refine ⟨.text (some key) :: .colon :: tokens ++ .comma :: tokens', ?_,
            fun done stack => ?_⟩
          · rw [printMembers, List.map_cons]
            rw [List.intercalate_cons_of_ne_nil (by rw [printMembers]; exact List.cons_ne_nil _ _),
              List.append_assoc]
            exact makes_comma member makes'
          · obtain ⟨lastKey, later, -⟩ := completes' ((some key, j') :: done) stack
            obtain ⟨afterKey, afterFirst⟩ := keyed done stack
            rw [readMembers_cons]
            exact ⟨lastKey, (foldlM_of_some afterKey _).trans later,
              (foldlM_of_some afterFirst _).trans later⟩

theorem reads_obj (reads : List.Forall₂ ReadsMember members members') :
    Reads (.obj members) (.obj members') := by
  have ends : ∀ rest, Ends ('\x7d' :: rest) := fun rest => Token.ends_cons rfl rfl
  have text : (print (.obj members)).toList = '\x7b' ::
      ([','].intercalate ((printMembers members).map String.toList) ++ ['\x7d']) := by
    rw [print, String.toList_append, String.toList_append, String.toList_intercalate]
    rfl
  rw [Reads, text]
  cases reads with
  | nil =>
      refine ⟨_, makes_brackets Token.makes_nil rfl rfl ends, fun stack => ⟨rfl, ?_⟩⟩
      exact foldlM_firstItem Token.noConfusion _ stack
  | @cons m m' members members' first others =>
      obtain ⟨tokens, makes, completes⟩ :=
        exists_members (.cons first others) (List.cons_ne_nil m members)
      have value : ∀ stack, (.openObject :: (tokens ++ [.closeObject])).foldlM Reader.step?
          ⟨.value, stack⟩ = some (Reader.complete (.obj (m' :: members')) stack) := by
        intro stack
        obtain ⟨key, -, run⟩ := completes [] stack
        refine (foldlM_of_some run _).trans ?_
        rw [List.append_nil]
        change some (Reader.complete (ofReadMembers (readMembers (m' :: members'))) stack) = _
        rw [ofReadMembers_readMembers]
      refine ⟨_, makes_brackets makes rfl rfl ends, fun stack => ⟨value stack, ?_⟩⟩
      exact (foldlM_firstItem Token.noConfusion _ stack).trans (value stack)

/-! ## Canonical objects -/

theorem forall₂_insertEntry {m m' : String × Json} (reads : ReadsMember m m')
    (others : List.Forall₂ ReadsMember members members') :
    List.Forall₂ ReadsMember (insertEntry m.1 m.2 members) (insertEntry m'.1 m'.2 members') := by
  obtain ⟨key, j⟩ := m
  obtain ⟨key', j'⟩ := m'
  obtain ⟨rfl, value⟩ := reads
  induction others with
  | nil => exact .cons ⟨rfl, value⟩ .nil
  | @cons n n' members members' first others ih =>
      obtain ⟨other, k⟩ := n
      obtain ⟨other', k'⟩ := n'
      obtain ⟨rfl, known⟩ := first
      simp only [insertEntry] at ih ⊢
      split
      · exact .cons ⟨rfl, value⟩ (.cons ⟨rfl, known⟩ others)
      · split
        · exact .cons ⟨rfl, known⟩ ih
        · exact .cons ⟨rfl, value⟩ others

/-- An object in canonical order is read member by member. -/
theorem reads_object (reads : List.Forall₂ ReadsMember members members') :
    Reads (.object members) (.object members') := by
  suffices ∀ {m m' : SortedMap String Json}, List.Forall₂ ReadsMember m.entries m'.entries →
      List.Forall₂ ReadsMember (members.foldl (fun m e => m.insert e.1 e.2) m).entries
        (members'.foldl (fun m e => m.insert e.1 e.2) m').entries from
    reads_obj (this .nil)
  induction reads with
  | nil => exact id
  | cons first others ih => exact fun known => ih (forall₂_insertEntry first known)

end Json

end ScopedAccess
