import Inliner.Syntax.Parser
import Mathlib.Data.List.TakeWhile

/-!
# Tokens and the places around them

Reading a token moves on over white space and over the token, and notes the place after it.  No
token reaches beyond the end of the text.  A token of some width starts with its own first
character and not with white space.
-/

namespace Inliner.Syntax

/-! ## Tokens are not longer than the text -/

theorem digitsLength_le (text : Text) : digitsLength text ≤ text.length := by
  fun_induction digitsLength text <;> simp_all only [List.length_cons, List.length_nil] <;> omega

theorem baseDigitsLength_le (isDigit : Char → Bool) (text : Text) :
    baseDigitsLength isDigit text ≤ text.length := by
  fun_induction baseDigitsLength isDigit text <;>
    simp_all only [List.length_cons, List.length_nil] <;> omega

theorem suffixLength_le (letters : List Char) (text : Text) :
    suffixLength letters text ≤ text.length := by
  unfold suffixLength
  split
  · simp
  · split <;> simp

theorem suffixLength_drop_le (letters : List Char) (text : Text) (count : Nat)
    (bound : count ≤ text.length) :
    count + suffixLength letters (text.drop count) ≤ text.length := by
  have atMost := suffixLength_le letters (text.drop count)
  rw [List.length_drop] at atMost
  omega

theorem exponentLength_le (text : Text) : exponentLength text ≤ text.length := by
  unfold exponentLength
  split
  next mark rest =>
    split
    · have signs := suffixLength_le ['+', '-'] rest
      have digits := digitsLength_le (rest.drop (suffixLength ['+', '-'] rest))
      rw [List.length_drop] at digits
      dsimp only
      split
      · simp
      · simp only [List.length_cons]
        omega
    · simp
  next => simp

theorem basedLength_le (text : Text) : basedLength text ≤ text.length := by
  cases text with
  | nil => simp [basedLength]
  | cons mark rest =>
      simp only [basedLength, List.length_cons]
      generalize counted :
        (if mark ∈ ['x', 'X'] then
          baseDigitsLength (fun c => c.isDigit || ('a' ≤ c && c ≤ 'f') || ('A' ≤ c && c ≤ 'F')) rest
        else if mark ∈ ['o', 'O'] then
          baseDigitsLength (fun c => '0' ≤ c && c ≤ '7') rest
        else if mark ∈ ['b', 'B'] then
          baseDigitsLength (fun c => c = '0' || c = '1') rest
        else
          0) = digits
      have bound : digits ≤ rest.length := by
        rw [← counted]
        repeat' split
        all_goals
          first
            | exact baseDigitsLength_le _ rest
            | exact Nat.zero_le _
      have suffix := suffixLength_drop_le ['L', 'l'] rest digits bound
      split <;> omega

theorem decimalLength_le (text : Text) : decimalLength text ≤ text.length := by
  have whole := digitsLength_le text
  unfold decimalLength
  dsimp only
  split
  next fraction fractionAfter =>
    have fractionLength := congrArg List.length fractionAfter
    simp only [List.length_drop, List.length_cons] at fractionLength
    have part := digitsLength_le fraction
    have exponent := exponentLength_le (fraction.drop (digitsLength fraction))
    rw [List.length_drop] at exponent
    have suffix := suffixLength_drop_le ['j', 'J'] fraction
      (digitsLength fraction + exponentLength (fraction.drop (digitsLength fraction))) (by omega)
    split <;> omega
  next =>
    have exponent := exponentLength_le (text.drop (digitsLength text))
    have suffix := suffixLength_drop_le ['j', 'J'] (text.drop (digitsLength text)) _ exponent
    have plain := suffixLength_le ['L', 'l', 'j', 'J'] (text.drop (digitsLength text))
    rw [List.length_drop] at exponent suffix plain
    split
    · split <;> omega
    · omega

theorem numberLength_le (text : Text) : numberLength text ≤ text.length := by
  unfold numberLength
  split
  next rest =>
    have based := basedLength_le rest
    have decimal := decimalLength_le ('0' :: rest)
    simp only [List.length_cons] at decimal ⊢
    split <;> omega
  next first rest _ =>
    have decimal := decimalLength_le (first :: rest)
    split <;> omega
  next => simp

theorem stringOpening?_le
    {text : Text}
    {style : StringStyle}
    {count : Nat}
    (opened : stringOpening? text = some (style, count)) :
    count ≤ text.length := by
  unfold stringOpening? at opened
  dsimp only at opened
  split at opened <;> cases opened
  all_goals
    rename_i quoted
    have quotedLength := congrArg List.length quoted
    simp only [List.length_drop, List.length_cons] at quotedLength
    omega

theorem symbolAt?_le
    {text : Text}
    {symbol : String}
    (found : symbolAt? text = some symbol) :
    symbol.length ≤ text.length := by
  have isStart := List.find?_some found
  have shorter := (List.isPrefixOf_iff_prefix.mp isStart).length_le
  rwa [String.length_toList] at shorter

theorem tokenAt_le (quotes : Bool) (text : Text) : (tokenAt quotes text).2 ≤ text.length := by
  unfold tokenAt
  split
  · simp
  next first rest =>
    split
    next style count opened =>
      split at opened
      · exact stringOpening?_le opened
      · cases opened
    next =>
      split
      · exact (List.takeWhile_sublist _).length_le
      · have number := numberLength_le (first :: rest)
        split
        · split
          next symbol found => exact symbolAt?_le found
          next => simp
        · exact number

/-! ## Places that a token leads to -/

theorem joinLength_le (text : Text) : joinLength text ≤ text.length := by
  unfold joinLength
  split <;> simp

/-- A property of places that lasts while a parser moves on: over some characters, and past a
token. -/
structure Lasting where
  holds : Cursor → Prop
  skip : ∀ (cursor : Cursor) (count : Nat),
    holds cursor → count ≤ cursor.rest.length → holds (cursor.skip count)
  mark : ∀ (cursor : Cursor) (indents : List Nat),
    holds cursor → holds { cursor with indents := indents, lastStop := cursor.offset }

namespace Lasting

variable (lasting : Lasting)

@[grind ←]
theorem consume
    (cursor : Cursor)
    (count : Nat)
    (held : lasting.holds cursor)
    (inText : count ≤ cursor.rest.length) :
    lasting.holds (cursor.consume count) :=
  lasting.mark (cursor.skip count) cursor.indents (lasting.skip cursor count held inText)

theorem before_lexemeWithin
    (expected : Expected)
    (fuel : Nat)
    (cursor : Cursor)
    (held : lasting.holds cursor) :
    lasting.holds (lexemeWithin expected fuel cursor).before := by
  induction fuel generalizing cursor with
  | zero => exact held
  | succ fuel inductionHypothesis =>
      have place := lasting.skip cursor _ held (List.takeWhile_sublist isTrivia).length_le
      unfold lexemeWithin
      split
      next => exact held
      next =>
        dsimp only
        split
        · exact inductionHypothesis _
            (lasting.skip _ _ place (List.takeWhile_sublist _).length_le)
        · split
          next => exact place
          next => exact inductionHypothesis _ (lasting.skip _ _ place (joinLength_le _))

theorem after_of_lexemeWithin
    {expected : Expected}
    {fuel : Nat}
    {cursor : Cursor}
    {lexeme : Lexeme}
    (found : lexemeWithin expected fuel cursor = lexeme)
    (held : lasting.holds lexeme.before) :
    lasting.holds lexeme.after := by
  induction fuel generalizing cursor with
  | zero =>
      subst found
      exact held
  | succ fuel inductionHypothesis =>
      unfold lexemeWithin at found
      split at found
      next =>
        subst found
        exact lasting.mark cursor _ held
      next =>
        dsimp only at found
        split at found
        · exact inductionHypothesis found
        · split at found
          next =>
            subst found
            exact lasting.consume _ _ held (tokenAt_le _ _)
          next => exact inductionHypothesis found

/-- What holds at a place holds where the next token starts. -/
@[grind ←]
theorem before
    (expected : Expected)
    (cursor : Cursor)
    (held : lasting.holds cursor) :
    lasting.holds (expected.lexeme cursor).before :=
  lasting.before_lexemeWithin expected _ cursor held

/-- What holds where a token starts holds where it ends. -/
theorem after_of_before
    (expected : Expected)
    (cursor : Cursor)
    (held : lasting.holds (expected.lexeme cursor).before) :
    lasting.holds (expected.lexeme cursor).after :=
  lasting.after_of_lexemeWithin rfl held

@[grind ←]
theorem after
    (expected : Expected)
    (cursor : Cursor)
    (held : lasting.holds cursor) :
    lasting.holds (expected.lexeme cursor).after :=
  lasting.after_of_before expected cursor (lasting.before expected cursor held)

end Lasting

/-- The place is one of a text, and not before an offset. -/
structure Cursor.Within (text : Text) (lower : Nat) (cursor : Cursor) : Prop where
  rest_eq : cursor.rest = text.drop cursor.offset
  offset_le : cursor.offset ≤ text.length
  lower_le : lower ≤ cursor.offset
  lastStop_le : cursor.lastStop ≤ cursor.offset

namespace Lasting

/-- Places of a text stay places of the text, and none before it is reached. -/
def within (text : Text) (lower : Nat) : Lasting where
  holds := Cursor.Within text lower
  skip := by
    rintro cursor count ⟨rest_eq, offset_le, lower_le, lastStop_le⟩ inText
    rw [rest_eq, List.length_drop] at inText
    refine ⟨?_, ?_, ?_, ?_⟩ <;> simp only [Cursor.skip]
    · rw [rest_eq, List.drop_drop]
    all_goals omega
  mark := by
    rintro cursor indents ⟨rest_eq, offset_le, lower_le, lastStop_le⟩
    exact ⟨rest_eq, offset_le, lower_le, le_refl _⟩

/-- The last token of a place does not end before an offset. -/
def touched (text : Text) (lower : Nat) : Lasting where
  holds cursor := cursor.Within text lower ∧ lower ≤ cursor.lastStop
  skip cursor count held inText :=
    ⟨(within text lower).skip cursor count held.1 inText, held.2⟩
  mark cursor indents held :=
    ⟨(within text lower).mark cursor indents held.1, held.1.lower_le⟩

end Lasting

/-! ## How a token is found -/

/-- The white space before a place is used up. -/
def AtToken (text : Text) : Prop :=
  ∀ first, text.head? = some first → isTrivia first = false

theorem atToken_drop_takeWhile (text : Text) :
    AtToken (text.drop (text.takeWhile isTrivia).length) := by
  induction text with
  | nil => simp [AtToken]
  | cons head tail inductionHypothesis =>
      by_cases blank : isTrivia head = true
      · simpa [List.takeWhile_cons, blank] using inductionHypothesis
      · simp_all [AtToken]

/-- The lexeme is a token of no width. -/
structure Lexeme.IsLayout (expected : Expected) (lexeme : Lexeme) : Prop where
  found : ∃ layout, expected.layout? lexeme.before = some layout ∧ lexeme.token = .layout layout
  lastStop : lexeme.after.lastStop = lexeme.after.offset

theorem Lexeme.IsLayout.exists_token
    {expected : Expected}
    {lexeme : Lexeme}
    (isLayout : lexeme.IsLayout expected) :
    ∃ layout, lexeme.token = .layout layout := by
  obtain ⟨layout, _, token⟩ := isLayout.found
  exact ⟨layout, token⟩

/-- The lexeme is the token of the text that starts at its place, where nothing is left to skip. -/
structure Lexeme.IsTextual (quotes : Bool) (lexeme : Lexeme) : Prop where
  atToken : AtToken lexeme.before.rest
  uncommented : ∀ rest, lexeme.before.rest ≠ '#' :: rest
  unjoined : joinLength lexeme.before.rest = 0
  token : lexeme.token = (tokenAt quotes lexeme.before.rest).1
  after : lexeme.after = lexeme.before.consume (tokenAt quotes lexeme.before.rest).2

theorem length_skip_lt
    {cursor : Cursor}
    {count : Nat}
    (positive : 0 < count)
    (inText : count ≤ cursor.rest.length) :
    (cursor.skip count).rest.length < cursor.rest.length := by
  simp only [Cursor.skip, List.length_drop]
  omega

/-- Every comment and every joined line that is skipped takes a character, so the bound on their
number is not met. -/
theorem lexemeWithin_isTextual
    (expected : Expected)
    (fuel : Nat)
    (cursor : Cursor)
    (enough : cursor.rest.length < fuel) :
    (lexemeWithin expected fuel cursor).IsLayout expected ∨
      (lexemeWithin expected fuel cursor).IsTextual expected.quote := by
  induction fuel generalizing cursor with
  | zero => omega
  | succ fuel inductionHypothesis =>
      unfold lexemeWithin
      split
      next layout found => exact .inl ⟨⟨layout, found, rfl⟩, rfl⟩
      next =>
        dsimp only
        have place :
            (cursor.skip (cursor.rest.takeWhile isTrivia).length).rest.length ≤
              cursor.rest.length := by
          simp [Cursor.skip]
        split
        next rest commented =>
          apply inductionHypothesis
          refine lt_of_lt_of_le (length_skip_lt ?_ (List.takeWhile_sublist _).length_le) (by omega)
          rw [commented]
          simp
        next uncommented =>
          split
          next unjoined =>
            exact .inr ⟨atToken_drop_takeWhile cursor.rest, uncommented, unjoined, rfl, rfl⟩
          next joined =>
            apply inductionHypothesis
            have positive := Nat.pos_of_ne_zero joined
            exact lt_of_lt_of_le (length_skip_lt positive (joinLength_le _)) (by omega)

theorem lexeme_isTextual (expected : Expected) (cursor : Cursor) :
    (expected.lexeme cursor).IsLayout expected ∨
      (expected.lexeme cursor).IsTextual expected.quote :=
  lexemeWithin_isTextual expected _ cursor (Nat.lt_succ_self _)

theorem lexeme_isTextual_of_ne_layout
    {expected : Expected}
    {cursor : Cursor}
    (notLayout : ∀ layout, (expected.lexeme cursor).token ≠ .layout layout) :
    (expected.lexeme cursor).IsTextual expected.quote :=
  (lexeme_isTextual expected cursor).resolve_left fun isLayout =>
    isLayout.exists_token.elim notLayout

/-- The place after a token is noted as such. -/
theorem lastStop_lexeme (expected : Expected) (cursor : Cursor) :
    (expected.lexeme cursor).after.lastStop = (expected.lexeme cursor).after.offset := by
  rcases lexeme_isTextual expected cursor with layout | textual
  · exact layout.lastStop
  · rw [textual.after]
    rfl

/-- A token that is read ends after every offset before it. -/
theorem Lasting.touched_after
    {text : Text}
    {lower : Nat}
    (expected : Expected)
    (cursor : Cursor)
    (held : (expected.lexeme cursor).before.Within text lower) :
    (touched text lower).holds (expected.lexeme cursor).after := by
  have after := (within text lower).after_of_before expected cursor held
  refine ⟨after, ?_⟩
  rw [lastStop_lexeme]
  exact after.lower_le

/-! ## Semicolons -/

/-- No line ends before a character that is none of those that a line scan passes. -/
theorem layout?_eq_none
    (expected : Expected)
    {cursor : Cursor}
    {first : Char}
    {rest : Text}
    (ahead : cursor.rest = first :: rest)
    (stops : first ∉ ['\n', ' ', '\r', '\x0c', '\t', '#', '\\']) :
    expected.layout? cursor = none := by
  simp only [List.mem_cons, List.not_mem_nil, or_false, not_or] at stops
  have scanned (comments : Bool) :
      LineScan.run comments false {} (first :: rest) = some ({}, first :: rest) := by
    unfold LineScan.run
    simp [stops]
  simp [Expected.layout?, ahead, scanned]

theorem tokenAt_semicolon (quotes : Bool) (rest : Text) :
    tokenAt quotes (';' :: rest) = (.symbol ";", 1) := by
  cases quotes <;> rfl

theorem exists_of_tokenAt_semicolon
    {quotes : Bool}
    {text : Text}
    (found : (tokenAt quotes text).1 = .symbol ";") :
    ∃ rest, text = ';' :: rest := by
  unfold tokenAt at found
  split at found
  · cases found
  · split at found
    · cases found
    · split at found
      · cases found
      · split at found
        · split at found
          next symbol symbolFound =>
            cases found
            have isStart := List.find?_some symbolFound
            obtain ⟨rest, equal⟩ := List.isPrefixOf_iff_prefix.mp isStart
            exact ⟨rest, equal.symm⟩
          next => cases found
        · cases found

theorem lexeme_semicolon
    (expected : Expected)
    {cursor : Cursor}
    {rest : Text}
    (semicolon : cursor.rest = ';' :: rest) :
    expected.lexeme cursor = ⟨.symbol ";", cursor, cursor.consume 1⟩ := by
  have unmoved : cursor.skip 0 = cursor := rfl
  have notBlank : isTrivia ';' = false := by decide
  unfold Expected.lexeme lexemeWithin
  simp [layout?_eq_none expected semicolon (by decide), semicolon, unmoved, notBlank,
    tokenAt_semicolon, joinLength]

/-! ## The end of the text -/

theorem eq_nil_of_tokenAt_endOfText
    {quotes : Bool}
    {text : Text}
    (found : (tokenAt quotes text).1 = .endOfText) :
    text = [] := by
  cases text with
  | nil => rfl
  | cons first rest =>
      unfold tokenAt at found
      split at found
      · assumption
      · split at found
        · cases found
        · split at found
          · cases found
          · split at found
            · split at found <;> cases found
            · cases found

/-- Only layout can come at the end of the text. -/
theorem lexeme_of_rest_eq_nil
    (expected : Expected)
    {cursor : Cursor}
    (ended : cursor.rest = []) :
    (∃ layout, (expected.lexeme cursor).token = .layout layout) ∨
      (expected.lexeme cursor).token = .endOfText := by
  have unmoved : cursor.skip 0 = cursor := rfl
  unfold Expected.lexeme lexemeWithin
  cases expected.layout? cursor with
  | some layout => exact Or.inl ⟨layout, rfl⟩
  | none => simp [ended, unmoved, joinLength, tokenAt]

/-! ## Comments at the beginning -/

/-- The length of a comment at the start of a text. -/
def commentLength : Text → Nat
  | '#' :: rest => (('#' :: rest).takeWhile (· ≠ '\n')).length
  | _ => 0

theorem layout?_ofText (text : Text) :
    Expected.layout? { quote := true } (.ofText text) = none := by
  simp only [Expected.layout?]
  split
  · rfl
  · simp [Cursor.indent, Cursor.ofText]

/-- The first token stands after a comment at the start of a text. -/
theorem commentLength_le_start (text : Text) :
    commentLength text ≤ (Expected.lexeme { quote := true } (.ofText text)).start := by
  unfold commentLength
  split
  next rest =>
    let length := (('#' :: rest).takeWhile (· ≠ '\n')).length
    have skipped :
        Expected.lexeme { quote := true } (.ofText ('#' :: rest)) =
          lexemeWithin { quote := true } (rest.length + 1)
            (Cursor.skip (.ofText ('#' :: rest)) length) := by
      have notBlank : isTrivia '#' = false := by decide
      unfold Expected.lexeme
      rw [lexemeWithin, layout?_ofText]
      simp [Cursor.ofText, Cursor.skip, notBlank, length]
    have atStart : (Cursor.ofText ('#' :: rest)).Within ('#' :: rest) 0 :=
      ⟨rfl, Nat.zero_le _, le_refl _, le_refl _⟩
    have skippedWithin :=
      (Lasting.within _ _).skip _ length atStart (List.takeWhile_sublist _).length_le
    have afterComment :
        (Cursor.skip (.ofText ('#' :: rest)) length).Within ('#' :: rest) length :=
      { skippedWithin with lower_le := Nat.le_add_left length 0 }
    rw [skipped]
    exact ((Lasting.within _ _).before_lexemeWithin _ _ _ afterComment).lower_le
  next => exact Nat.zero_le _

end Inliner.Syntax
