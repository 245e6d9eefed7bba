import Inliner.Proofs.Syntax.Keeps

/-!
# What stands between tokens

Between two tokens there is nothing but a gap: white space, comments and joined lines.  So what is
read from a place on is made of the texts of tokens with gaps between them, and after the last token
there may be a gap that has been looked over already.
-/

namespace Inliner.Syntax

open Inliner.Syntax.Parser

/-! ## Gaps -/

/-- White space, comments, and the backslashes that join lines. -/
inductive IsGap : Text → Prop where
  | nil : IsGap []
  | blank {character : Char} {rest : Text} :
      isTrivia character = true ∨ character = '\\' → IsGap rest → IsGap (character :: rest)
  | comment {comment rest : Text} :
      '\n' ∉ comment → IsGap rest → IsGap ('#' :: comment ++ rest)

theorem IsGap.append
    {first second : Text}
    (firstGap : IsGap first)
    (secondGap : IsGap second) :
    IsGap (first ++ second) := by
  induction firstGap with
  | nil => exact secondGap
  | blank isBlank _ inductionHypothesis => exact .blank isBlank inductionHypothesis
  | comment noFeed _ inductionHypothesis =>
      rw [List.append_assoc]
      exact .comment noFeed inductionHypothesis

theorem isGap_of_forall
    {text : Text}
    (blank : ∀ character ∈ text, isTrivia character = true ∨ character = '\\') :
    IsGap text := by
  induction text with
  | nil => exact .nil
  | cons character rest inductionHypothesis =>
      obtain ⟨here, later⟩ := List.forall_mem_cons.mp blank
      exact .blank here (inductionHypothesis later)

theorem exists_join (text : Text) :
    ∃ join rest, text = join ++ rest ∧ join.length = joinLength text ∧ IsGap join := by
  unfold joinLength
  split
  next rest =>
      exact ⟨['\\', '\n'], rest, rfl, rfl, .blank (.inr rfl) (.blank (.inl rfl) .nil)⟩
  next rest =>
      refine ⟨['\\', '\r', '\n'], rest, rfl, rfl, ?_⟩
      exact .blank (.inr rfl) (.blank (.inl rfl) (.blank (.inl rfl) .nil))
  next => exact ⟨['\\'], [], rfl, rfl, .blank (.inr rfl) .nil⟩
  next => exact ⟨[], text, rfl, rfl, .nil⟩

/-- From one place to another only a gap is passed. -/
structure Cursor.Passes (cursor place : Cursor) (gap : Text) : Prop where
  isGap : IsGap gap
  rest_eq : cursor.rest = gap ++ place.rest
  offset_eq : place.offset = cursor.offset + gap.length
  lastStop_eq : place.lastStop = cursor.lastStop

theorem Cursor.passes_self (cursor : Cursor) : cursor.Passes cursor [] :=
  ⟨.nil, rfl, rfl, rfl⟩

theorem Cursor.passes_skip
    {cursor : Cursor}
    {gap rest : Text}
    (isGap : IsGap gap)
    (ahead : cursor.rest = gap ++ rest) :
    cursor.Passes (cursor.skip gap.length) gap where
  isGap := isGap
  rest_eq := by
    rw [ahead]
    simp [skip, ahead]
  offset_eq := rfl
  lastStop_eq := rfl

theorem Cursor.Passes.trans
    {cursor place next : Cursor}
    {gap more : Text}
    (first : cursor.Passes place gap)
    (second : place.Passes next more) :
    cursor.Passes next (gap ++ more) where
  isGap := first.isGap.append second.isGap
  rest_eq := by rw [first.rest_eq, second.rest_eq, List.append_assoc]
  offset_eq := by rw [second.offset_eq, first.offset_eq, List.length_append, Nat.add_assoc]
  lastStop_eq := second.lastStop_eq.trans first.lastStop_eq

theorem exists_passes_lexemeWithin
    (expected : Expected)
    (fuel : Nat)
    (cursor : Cursor) :
    ∃ gap, cursor.Passes (lexemeWithin expected fuel cursor).before gap := by
  induction fuel generalizing cursor with
  | zero => exact ⟨[], cursor.passes_self⟩
  | succ fuel inductionHypothesis =>
      unfold lexemeWithin
      split
      next => exact ⟨[], cursor.passes_self⟩
      next =>
        dsimp only
        have blank := Cursor.passes_skip
          (isGap_of_forall fun character member => .inl (List.mem_takeWhile_imp member))
          (List.takeWhile_append_dropWhile (p := isTrivia) (l := cursor.rest)).symm
        generalize cursor.skip (cursor.rest.takeWhile isTrivia).length = place at blank
        split
        next rest commented =>
          have commentGap : IsGap (place.rest.takeWhile (· ≠ '\n')) := by
            rw [commented, List.takeWhile_cons_of_pos (by decide),
              ← List.append_nil ('#' :: List.takeWhile _ rest)]
            refine .comment ?_ .nil
            intro member
            simpa using List.mem_takeWhile_imp member
          have comment := Cursor.passes_skip commentGap List.takeWhile_append_dropWhile.symm
          obtain ⟨more, further⟩ := inductionHypothesis
            (place.skip (place.rest.takeWhile (· ≠ '\n')).length)
          exact ⟨_, (blank.trans comment).trans further⟩
        next =>
          split
          next => exact ⟨_, blank⟩
          next =>
            obtain ⟨join, rest, ahead, length, joinGap⟩ := exists_join place.rest
            have joined := Cursor.passes_skip joinGap ahead
            obtain ⟨more, further⟩ := inductionHypothesis (place.skip (joinLength place.rest))
            exact ⟨_, (blank.trans (length ▸ joined)).trans further⟩

/-- Between a place and the next token there is only a gap. -/
theorem exists_passes_lexeme (expected : Expected) (cursor : Cursor) :
    ∃ gap, cursor.Passes (expected.lexeme cursor).before gap :=
  exists_passes_lexemeWithin expected _ cursor

/-! ## What has been read -/

/-- The text of a word or of a symbol. -/
inductive Token.Spells : Token → Text → Prop where
  | word (word : String) : Token.Spells (.word word) word.toList
  | symbol (symbol : String) : Token.Spells (.symbol symbol) symbol.toList

theorem exists_of_tokenAt_spells
    {quotes : Bool}
    {text spelled : Text}
    {token : Token}
    {length : Nat}
    (found : tokenAt quotes text = (token, length))
    (spells : token.Spells spelled) :
    ∃ rest, text = spelled ++ rest ∧ length = spelled.length := by
  unfold tokenAt at found
  split at found
  · cases found
    cases spells
  · split at found
    · cases found
      cases spells
    · split at found
      · cases found
        cases spells
        rw [String.toList_ofList]
        exact ⟨_, List.takeWhile_append_dropWhile.symm, rfl⟩
      · split at found
        · split at found
          next symbolFound =>
            cases found
            cases spells
            have isStart := List.find?_some symbolFound
            obtain ⟨rest, split⟩ := List.isPrefixOf_iff_prefix.mp isStart
            exact ⟨rest, split.symm, String.length_toList.symm⟩
          next =>
            cases found
            cases spells
        · cases found
          cases spells

namespace Cursor

/-- What has been read from a place on: a text up to the end of the last token, and then a gap. -/
structure HasRead (start : Cursor) (read gap : Text) (cursor : Cursor) : Prop where
  isGap : IsGap gap
  rest_eq : start.rest = read ++ gap ++ cursor.rest
  lastStop_eq : cursor.lastStop = start.offset + read.length
  offset_eq : cursor.offset = cursor.lastStop + gap.length

namespace HasRead

variable {start middle cursor place after : Cursor} {read gap : Text} {expected : Expected}

theorem pass
    {more : Text}
    (hasRead : start.HasRead read gap cursor)
    (passes : cursor.Passes place more) :
    start.HasRead read (gap ++ more) place where
  isGap := hasRead.isGap.append passes.isGap
  rest_eq := by
    rw [hasRead.rest_eq, passes.rest_eq]
    simp
  lastStop_eq := passes.lastStop_eq.trans hasRead.lastStop_eq
  offset_eq := by
    rw [passes.offset_eq, hasRead.offset_eq, passes.lastStop_eq, List.length_append, Nat.add_assoc]

theorem trans
    {more last : Text}
    (hasRead : start.HasRead read gap middle)
    (further : middle.HasRead more last cursor) :
    start.HasRead (read ++ gap ++ more) last cursor where
  isGap := further.isGap
  rest_eq := by
    rw [hasRead.rest_eq, further.rest_eq]
    simp
  lastStop_eq := by
    rw [further.lastStop_eq, hasRead.offset_eq, hasRead.lastStop_eq]
    simp [Nat.add_assoc]
  offset_eq := further.offset_eq

/-- A token at hand is read in full. -/
theorem token
    {spelled rest : Text}
    (ahead : start.rest = spelled ++ rest) :
    start.HasRead spelled [] (start.consume spelled.length) where
  isGap := .nil
  rest_eq := by
    rw [ahead]
    simp [consume, ahead]
  lastStop_eq := rfl
  offset_eq := rfl

theorem lexeme
    {spelled : Text}
    (spells : (expected.lexeme cursor).token.Spells spelled) :
    (expected.lexeme cursor).before.HasRead spelled [] (expected.lexeme cursor).after := by
  have notLayout : ∀ layout, (expected.lexeme cursor).token ≠ .layout layout := by
    intro layout isLayout
    rw [isLayout] at spells
    cases spells
  have textual := lexeme_isTextual_of_ne_layout notLayout
  have found : tokenAt expected.quote (expected.lexeme cursor).before.rest =
      ((expected.lexeme cursor).token, _) := Prod.ext textual.token.symm rfl
  obtain ⟨rest, ahead, length⟩ := exists_of_tokenAt_spells found spells
  rw [textual.after.trans (congrArg _ length)]
  exact token ahead

theorem peek
    {found : Lexeme}
    (hasRead : start.HasRead read gap cursor)
    (peeked : Parser.peek expected cursor = .ok (found, after)) :
    ∃ last, start.HasRead read last after := by
  obtain ⟨rfl, ⟨_, rfl⟩ | ⟨_, rfl⟩⟩ := peek_eq_ok peeked
  · exact ⟨gap, hasRead⟩
  · obtain ⟨more, passes⟩ := exists_passes_lexeme expected cursor
    exact ⟨_, hasRead.pass passes⟩

/-- A token that is read comes after a gap. -/
theorem accept
    {spelled : Text}
    (hasRead : start.HasRead read gap cursor)
    (spells : (expected.lexeme cursor).token.Spells spelled) :
    ∃ last, IsGap last ∧
      start.HasRead (read ++ last ++ spelled) [] (expected.lexeme cursor).after := by
  obtain ⟨more, passes⟩ := exists_passes_lexeme expected cursor
  have moved := hasRead.pass passes
  exact ⟨_, moved.isGap, moved.trans (lexeme spells)⟩

theorem of_acceptIf
    {token : Token}
    {spelled : Text}
    (hasRead : start.HasRead read gap cursor)
    (spells : token.Spells spelled)
    {accepted : Bool}
    (succeeded : acceptIf expected token cursor = .ok (accepted, after)) :
    if accepted then
      ∃ last, IsGap last ∧ start.HasRead (read ++ last ++ spelled) [] after
    else
      ∃ last, start.HasRead read last after := by
  obtain ⟨found, place, peeked, chosen⟩ := bind_eq_ok succeeded
  have looked := hasRead.peek peeked
  obtain ⟨rfl, _⟩ := peek_eq_ok peeked
  split at chosen
  next same =>
    cases chosen
    exact hasRead.accept (same ▸ spells)
  next =>
    cases chosen
    exact looked

theorem of_identifier
    {name : String}
    (hasRead : start.HasRead read gap cursor)
    (succeeded : identifier expected cursor = .ok (name, after)) :
    ∃ last, IsGap last ∧ start.HasRead (read ++ last ++ name.toList) [] after := by
  obtain ⟨found, place, peeked, chosen⟩ := bind_eq_ok succeeded
  obtain ⟨rfl, _⟩ := peek_eq_ok peeked
  cases isToken : (expected.lexeme cursor).token with
  | word _ =>
      rw [isToken] at chosen
      cases chosen
      exact hasRead.accept (isToken ▸ .word name)
  | _ =>
      rw [isToken] at chosen
      cases chosen

end HasRead

end Cursor

end Inliner.Syntax
