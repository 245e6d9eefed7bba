import Inliner.Proofs.Syntax.Gaps
import Inliner.Proofs.Syntax.Touches

/-!
# Imports as they are read

An import of modules is made of clauses with commas between them, each of which names a module.
An import of names has one clause, which is all that stands below its first word.
-/

namespace Inliner

/-! ## Stretches of a text -/

namespace Span

theorem slice_append_slice
    (text : Text)
    {start middle stop : Nat}
    (startBound : start ≤ middle)
    (stopBound : middle ≤ stop) :
    slice ⟨start, middle⟩ text ++ slice ⟨middle, stop⟩ text = slice ⟨start, stop⟩ text := by
  simp only [slice]
  obtain ⟨first, rfl⟩ := Nat.exists_eq_add_of_le startBound
  obtain ⟨second, rfl⟩ := Nat.exists_eq_add_of_le stopBound
  rw [show start + first + second - start = first + second by omega, List.take_add,
    List.drop_drop, Nat.add_sub_cancel_left, Nat.add_sub_cancel_left]

end Span

/-- Texts occur one after the other in a text. -/
def OccurInOrder : List Text → Text → Prop
  | [], _ => True
  | part :: parts, text =>
      ∃ before after, text = before ++ part ++ after ∧ OccurInOrder parts after

namespace OccurInOrder

variable {parts more : List Text} {text next : Text}

theorem prepend
    (before : Text)
    (occur : OccurInOrder parts text) :
    OccurInOrder parts (before ++ text) := by
  cases parts with
  | nil => trivial
  | cons part parts =>
      obtain ⟨gap, after, equal, rest⟩ := occur
      exact ⟨before ++ gap, after, by simp [equal], rest⟩

theorem append
    (occur : OccurInOrder parts text)
    (moreOccur : OccurInOrder more next) :
    OccurInOrder (parts ++ more) (text ++ next) := by
  induction parts generalizing text with
  | nil => exact moreOccur.prepend text
  | cons part parts inductionHypothesis =>
      obtain ⟨gap, after, equal, rest⟩ := occur
      exact ⟨gap, after ++ next, by simp [equal], inductionHypothesis rest⟩

theorem append_right
    (occur : OccurInOrder parts text)
    (next : Text) :
    OccurInOrder parts (text ++ next) := by
  have nothing : OccurInOrder [] next := trivial
  simpa using occur.append nothing

end OccurInOrder

namespace Syntax

open Inliner.Syntax.Parser

/-! ## Results of parsers -/

/-- The results of a parser have a property. -/
def Yields {α : Type} (good : α → Prop) (parser : Parser α) : Prop :=
  ∀ cursor result after, parser cursor = .ok (result, after) → good result

variable {α β σ : Type} {good : α → Prop} {self : Grammar}

@[grind ←]
theorem yields_pure {value : α} (isGood : good value) : Yields good (pure value) := by
  rintro cursor result after succeeded
  cases succeeded
  exact isGood

@[grind ←]
theorem yields_bind
    {parser : Parser β}
    {next : β → Parser α}
    (rest : ∀ value, Yields good (next value)) :
    Yields good (parser >>= next) := by
  intro cursor result after succeeded
  obtain ⟨value, between, _, nextSucceeded⟩ := bind_eq_ok succeeded
  exact rest value between result after nextSucceeded

theorem yields_bind_of_first
    {parser : Parser β}
    {next : β → Parser α}
    {middle : β → Prop}
    (first : Yields middle parser)
    (rest : ∀ value, middle value → Yields good (next value)) :
    Yields good (parser >>= next) := by
  intro cursor result after succeeded
  obtain ⟨value, between, firstSucceeded, nextSucceeded⟩ := bind_eq_ok succeeded
  exact rest value (first cursor value between firstSucceeded) between result after nextSucceeded

@[grind ←]
theorem yields_reject (lexeme : Lexeme) : Yields good (reject lexeme) := by
  rintro cursor result after succeeded
  cases succeeded

@[grind ←]
theorem yields_orElse
    {first second : Parser α}
    (firstYields : Yields good first)
    (secondYields : Yields good second) :
    Yields good (orElse first second) := by
  intro cursor result after succeeded
  rcases orElse_eq_ok succeeded with succeededFirst | succeededSecond
  · exact firstYields cursor result after succeededFirst
  · exact secondYields cursor result after succeededSecond

@[grind ←]
theorem yields_wholeStatement
    {parser : Parser α}
    (parserYields : Yields good parser) :
    Yields good (wholeStatement parser) :=
  yields_bind_of_first parserYields fun result isGood => by grind

/-- A property of a state and a place that each step keeps until the last one, which may give
another one, leads to that other one. -/
theorem iterate_induction
    (holds ends : σ → Cursor → Prop)
    (weaken : ∀ state cursor, holds state cursor → ends state cursor)
    {state final : σ}
    {step : σ → Parser (σ ⊕ σ)}
    {fuel : Nat}
    {cursor after : Cursor}
    (stepHolds : ∀ state cursor outcome after, holds state cursor →
      step state cursor = .ok (outcome, after) → outcome.elim (holds · after) (ends · after))
    (held : holds state cursor)
    (succeeded : iterate step fuel state cursor = .ok (final, after)) :
    ends final after := by
  induction fuel generalizing state cursor with
  | zero =>
      cases succeeded
      exact weaken _ _ held
  | succ fuel inductionHypothesis =>
      obtain ⟨outcome, between, stepped, succeeded⟩ := bind_eq_ok succeeded
      have stillHolds := stepHolds state cursor outcome between held stepped
      cases outcome with
      | inl next => exact inductionHypothesis stillHolds succeeded
      | inr last =>
          cases succeeded
          exact stillHolds

theorem loop_induction_until
    (holds ends : σ → Cursor → Prop)
    (weaken : ∀ state cursor, holds state cursor → ends state cursor)
    {state final : σ}
    {step : σ → Parser (σ ⊕ σ)}
    {cursor after : Cursor}
    (stepHolds : ∀ state cursor outcome after, holds state cursor →
      step state cursor = .ok (outcome, after) → outcome.elim (holds · after) (ends · after))
    (held : holds state cursor)
    (succeeded : loop state step cursor = .ok (final, after)) :
    ends final after := by
  unfold loop at succeeded
  obtain ⟨rest, start, remainingRead, succeeded⟩ := bind_eq_ok succeeded
  cases remainingRead
  exact iterate_induction holds ends weaken stepHolds held succeeded

theorem loop_induction
    (holds : σ → Cursor → Prop)
    {state final : σ}
    {step : σ → Parser (σ ⊕ σ)}
    {cursor after : Cursor}
    (stepHolds : ∀ state cursor outcome after, holds state cursor →
      step state cursor = .ok (outcome, after) → holds (outcome.elim id id) after)
    (held : holds state cursor)
    (succeeded : loop state step cursor = .ok (final, after)) :
    holds final after := by
  refine loop_induction_until holds holds (fun _ _ => id) ?_ held succeeded
  intro state cursor outcome after held stepped
  have stillHolds := stepHolds state cursor outcome after held stepped
  cases outcome with
  | inl next => exact stillHolds
  | inr last => exact stillHolds

theorem yields_loop
    (good : σ → Prop)
    {state : σ}
    {step : σ → Parser (σ ⊕ σ)}
    (start : good state)
    (stepYields : ∀ state, good state →
      Yields (fun outcome => good (outcome.elim id id)) (step state)) :
    Yields good (loop state step) :=
  fun _ _ _ succeeded =>
    loop_induction (fun state _ => good state)
      (fun state cursor outcome after isGood => stepYields state isGood cursor outcome after)
      start succeeded

theorem yields_importItems (mode : Mode) : Yields (· ≠ []) (importItems mode) := by
  refine yields_bind fun first => ?_
  refine yields_bind_of_first (yields_loop (· ≠ []) (List.cons_ne_nil first []) ?_) ?_
  · intro items someItems
    refine yields_bind fun comma => ?_
    split
    · refine yields_bind fun next => ?_
      split
      · exact yields_bind fun item => yields_pure (List.cons_ne_nil item items)
      · exact yields_pure someItems
    · exact yields_pure someItems
  · intro items someItems
    exact yields_pure (by simpa using someItems)

theorem yields_importList : Yields (· ≠ []) importList := by
  refine yields_bind fun parenthesis => ?_
  split
  · refine yields_bind_of_first (yields_importItems _) fun items someItems => ?_
    exact yields_bind fun _ => yields_pure someItems
  · exact yields_importItems .statement

/-! ## Statements that are no imports -/

/-- The result is that of a statement that is no import, neither of modules nor of language
features. -/
def IsNoImport (result : Form × Tree) : Prop :=
  ∀ clauses names, result.1 ≠ .importing clauses ∧ result.1 ≠ .future names

@[grind ←]
theorem isNoImport_of_forall_ne
    {form : Form}
    (tree : Tree)
    (notImport : ∀ clauses names, form ≠ .importing clauses ∧ form ≠ .future names) :
    IsNoImport (form, tree) :=
  notImport

@[grind ←]
theorem yields_expressionStatement : Yields IsNoImport (expressionStatement self) := by
  unfold expressionStatement
  grind

@[grind ←]
theorem yields_execStatement : Yields IsNoImport (execStatement self) := by
  unfold execStatement
  refine yields_bind fun first => ?_
  split <;> grind

@[grind ←]
theorem yields_ifStatement : Yields IsNoImport (ifStatement self) := by
  unfold ifStatement
  refine yields_bind fun start => yields_bind fun condition => yields_bind fun text => ?_
  grind

theorem yields_of_compoundStatement?
    {first : Lexeme}
    {parser : Parser (Form × Tree)}
    (compound : compoundStatement? self first = some parser) :
    Yields IsNoImport parser := by
  unfold compoundStatement? at compound
  extract_lets other definition at compound
  have otherYields : ∀ parser, Yields IsNoImport (other parser) := by grind
  have definitionYields : ∀ parser, Yields IsNoImport (definition parser) := by grind
  clear_value other definition
  split at compound <;> grind

/-! ## The text of an import -/

/-- The text of a clause that names a module: its path, and its other name if it has one. -/
inductive SpellsModule : ImportClause → Prop where
  | plain (path : Text) : SpellsModule ⟨.absolute path, .module none, path⟩
  | renamed (path : Text) (newName : String) {before after : Text} :
      IsGap before → IsGap after →
        SpellsModule ⟨.absolute path, .module (some newName),
          path ++ before ++ ['a', 's'] ++ after ++ newName.toList⟩

/-- Clauses that name modules, with commas between them. -/
inductive ListsModules : List ImportClause → Text → Prop where
  | one {clause : ImportClause} : SpellsModule clause → ListsModules [clause] clause.text
  | more {clauses : List ImportClause} {clause : ImportClause} {listed before after : Text} :
      ListsModules clauses listed → IsGap before → IsGap after → SpellsModule clause →
        ListsModules (clauses ++ [clause]) (listed ++ before ++ [','] ++ after ++ clause.text)

/-- Nothing, or one more comma. -/
def IsLastComma (text : Text) : Prop :=
  text = [] ∨ ∃ gap, IsGap gap ∧ text = gap ++ [',']

/-- The text of an import with some clauses. -/
inductive SpellsImport : List ImportClause → Text → Prop where
  | modules {clauses : List ImportClause} {gap listed comma : Text} :
      IsGap gap → ListsModules clauses listed → IsLastComma comma →
        SpellsImport clauses ("import".toList ++ gap ++ listed ++ comma)
  | names {clause : ImportClause} {gap : Text} :
      IsGap gap → SpellsImport [clause] ("from".toList ++ gap ++ clause.text)

variable {clauses : List ImportClause}

theorem exists_of_spellsModule
    {clause : ImportClause}
    (spells : SpellsModule clause) :
    ∃ newName, clause.names = .module newName := by
  cases spells with
  | plain path => exact ⟨none, rfl⟩
  | renamed path newName => exact ⟨some newName, rfl⟩

theorem ListsModules.ne_nil
    {listed : Text}
    (lists : ListsModules clauses listed) :
    clauses ≠ [] := by
  cases lists <;> simp

theorem ListsModules.forall_spellsModule
    {listed : Text}
    (lists : ListsModules clauses listed) :
    ∀ clause ∈ clauses, SpellsModule clause := by
  induction lists with
  | one spells => simpa using spells
  | more _ _ _ spells inductionHypothesis =>
      intro clause member
      rcases List.mem_append.mp member with earlier | latest
      · exact inductionHypothesis clause earlier
      · exact List.mem_singleton.mp latest ▸ spells

theorem ListsModules.occurInOrder
    {listed : Text}
    (lists : ListsModules clauses listed) :
    OccurInOrder (clauses.map (·.text)) listed := by
  induction lists with
  | one => exact ⟨[], [], by simp, trivial⟩
  | @more _ clause _ _ _ _ _ _ _ inductionHypothesis =>
      have last : OccurInOrder [clause.text] clause.text := ⟨[], [], by simp, trivial⟩
      rw [List.map_append]
      exact ((inductionHypothesis.append_right _).append_right _ |>.append_right _).append last

namespace SpellsImport

variable {text : Text}

theorem ne_nil (spells : SpellsImport clauses text) : clauses ≠ [] := by
  cases spells with
  | modules _ lists => exact lists.ne_nil
  | names => exact List.cons_ne_nil _ _

/-- An import with more than one clause names modules only. -/
theorem eq_singleton_or_forall_module (spells : SpellsImport clauses text) :
    (∃ clause, clauses = [clause]) ∨
      ∀ clause ∈ clauses, ∃ newName, clause.names = .module newName := by
  cases spells with
  | modules _ lists =>
      exact .inr fun clause member =>
        exists_of_spellsModule (lists.forall_spellsModule clause member)
  | @names clause => exact .inl ⟨clause, rfl⟩

theorem occurInOrder (spells : SpellsImport clauses text) :
    OccurInOrder (clauses.map (·.text)) text := by
  cases spells with
  | modules _ lists _ => exact (lists.occurInOrder.prepend _).append_right _
  | @names clause gap => exact ⟨"from".toList ++ gap, [], by rw [List.append_nil], trivial⟩

end SpellsImport

/-! ## Clauses that name modules -/

variable {text : Text} {lower : Nat}

theorem Cursor.Within.mono
    {lower' : Nat}
    {cursor : Cursor}
    (within : cursor.Within text lower)
    (bound : lower' ≤ lower) :
    cursor.Within text lower' :=
  { within with lower_le := bound.trans within.lower_le }

theorem Cursor.Within.fromHere
    {cursor : Cursor}
    (within : cursor.Within text lower) :
    cursor.Within text cursor.offset :=
  { within with lower_le := le_refl _ }

/-- The text from a token on is what has been read from it on. -/
theorem textFrom_eq_ok
    {lexeme : Lexeme}
    {cursor after : Cursor}
    {taken read gap : Text}
    (hasRead : lexeme.before.HasRead read gap cursor)
    (succeeded : textFrom lexeme cursor = .ok (taken, after)) :
    taken = read ∧ after = cursor := by
  have result : (lexeme.before.rest.take (cursor.lastStop - lexeme.start), cursor) =
      (taken, after) := Except.ok.inj succeeded
  obtain ⟨rfl, rfl⟩ := Prod.mk.inj result
  refine ⟨?_, rfl⟩
  rw [hasRead.lastStop_eq, hasRead.rest_eq, Lexeme.start, Nat.add_sub_cancel_left,
    List.append_assoc, List.take_left]

/-- If each result that is collected is read, everything is. -/
theorem hasRead_collect
    {start cursor after : Cursor}
    {read gap : Text}
    {step : Parser (Option Tree)}
    {trees : Tree}
    (stepReads : ∀ cursor outcome after read gap, start.HasRead read gap cursor →
      step cursor = .ok (outcome, after) → ∃ more last, start.HasRead more last after)
    (hasRead : start.HasRead read gap cursor)
    (collected : collect step cursor = .ok (trees, after)) :
    ∃ more last, start.HasRead more last after := by
  obtain ⟨reversed, final, looped, finished⟩ := bind_eq_ok collected
  cases finished
  refine loop_induction (fun _ cursor => ∃ read gap, start.HasRead read gap cursor) ?_
    ⟨read, gap, hasRead⟩ looped
  rintro trees cursor outcome after ⟨read, gap, hasRead⟩ stepped
  obtain ⟨tree, between, stepped, finished⟩ := bind_eq_ok stepped
  have stillRead := stepReads cursor tree between read gap hasRead stepped
  cases tree with
  | some tree =>
      cases finished
      exact stillRead
  | none =>
      cases finished
      exact stillRead

theorem hasRead_dottedName
    {mode : Mode}
    {expected : Expected}
    {cursor place after : Cursor}
    {result : String × Tree}
    (succeeded : dottedName mode (expected.lexeme cursor) place = .ok (result, after)) :
    ∃ name gap, (expected.lexeme cursor).before.HasRead name gap after := by
  unfold dottedName at succeeded
  cases isToken : (expected.lexeme cursor).token with
  | word first =>
      rw [isToken] at succeeded
      obtain ⟨_, between, accepted, succeeded⟩ := bind_eq_ok succeeded
      cases accepted
      obtain ⟨more, final, collected, finished⟩ := bind_eq_ok succeeded
      cases finished
      have spells : (expected.lexeme cursor).token.Spells first.toList := isToken ▸ .word first
      refine hasRead_collect ?_ (.lexeme spells) collected
      intro cursor' outcome after name gap hasRead stepped
      obtain ⟨dot, afterDot, asked, chosen⟩ := bind_eq_ok stepped
      have dotRead := hasRead.of_acceptIf (.symbol ".") asked
      cases dot with
      | true =>
          obtain ⟨_, _, dotRead⟩ := dotRead
          obtain ⟨next, afterNext, identified, finished⟩ := bind_eq_ok chosen
          cases finished
          obtain ⟨_, _, nextRead⟩ := dotRead.of_identifier identified
          exact ⟨_, _, nextRead⟩
      | false =>
          cases chosen
          obtain ⟨last, dotRead⟩ := dotRead
          exact ⟨name, last, dotRead⟩
  | _ =>
      rw [isToken] at succeeded
      cases succeeded

/-- An item of an import list is read after a gap. -/
theorem spellsModule_importItem
    {mode : Mode}
    {start cursor after : Cursor}
    {read gap : Text}
    {item : ImportItem}
    (hasRead : start.HasRead read gap cursor)
    (succeeded : importItem mode cursor = .ok (item, after)) :
    SpellsModule item.clause ∧
      ∃ first last, IsGap first ∧ start.HasRead (read ++ first ++ item.text) last after := by
  obtain ⟨opening, place, peeked, succeeded⟩ := bind_eq_ok succeeded
  obtain ⟨rfl, _⟩ := peek_eq_ok peeked
  obtain ⟨⟨first, tree⟩, named, nameRead, succeeded⟩ := bind_eq_ok succeeded
  obtain ⟨name, taken, nameTaken, succeeded⟩ := bind_eq_ok succeeded
  obtain ⟨renamed, asked, asRead, succeeded⟩ := bind_eq_ok succeeded
  obtain ⟨more, passes⟩ := exists_passes_lexeme mode.inside cursor
  have opened := hasRead.pass passes
  obtain ⟨path, pathGap, pathRead⟩ := hasRead_dottedName nameRead
  obtain ⟨rfl, rfl⟩ := textFrom_eq_ok pathRead nameTaken
  have asked' := pathRead.of_acceptIf (.word "as") asRead
  cases renamed with
  | true =>
      obtain ⟨before, isBefore, asRead⟩ := asked'
      obtain ⟨newName, identified, newRead, succeeded⟩ := bind_eq_ok succeeded
      obtain ⟨after', isAfter, newRead⟩ := asRead.of_identifier newRead
      obtain ⟨whole, final, wholeTaken, finished⟩ := bind_eq_ok succeeded
      obtain ⟨rfl, rfl⟩ := textFrom_eq_ok newRead wholeTaken
      cases finished
      exact ⟨.renamed _ newName isBefore isAfter, _, _, opened.isGap, opened.trans newRead⟩
  | false =>
      obtain ⟨last, notRead⟩ := asked'
      cases succeeded
      exact ⟨.plain _, _, _, opened.isGap, opened.trans notRead⟩

/-- The items of an import list are read after a gap, with commas between them. -/
theorem listsModules_importItems
    {mode : Mode}
    {start cursor after : Cursor}
    {read gap : Text}
    {items : List ImportItem}
    (hasRead : start.HasRead read gap cursor)
    (succeeded : importItems mode cursor = .ok (items, after)) :
    ∃ first listed comma last,
      IsGap first ∧ ListsModules (items.map (·.clause)) listed ∧ IsLastComma comma ∧
        start.HasRead (read ++ first ++ listed ++ comma) last after := by
  obtain ⟨item, afterItem, itemRead, succeeded⟩ := bind_eq_ok succeeded
  obtain ⟨reversed, final, looped, finished⟩ := bind_eq_ok succeeded
  cases finished
  obtain ⟨spells, first, last, isFirst, itemRead⟩ := spellsModule_importItem hasRead itemRead
  refine loop_induction_until
    (fun items cursor => ∃ first listed last,
      IsGap first ∧ ListsModules (items.reverse.map (·.clause)) listed ∧
        start.HasRead (read ++ first ++ listed) last cursor)
    (fun items cursor => ∃ first listed comma last,
      IsGap first ∧ ListsModules (items.reverse.map (·.clause)) listed ∧ IsLastComma comma ∧
        start.HasRead (read ++ first ++ listed ++ comma) last cursor)
    ?_ ?_ ⟨first, _, last, isFirst, .one spells, itemRead⟩ looped
  · rintro items cursor ⟨first, listed, last, isFirst, lists, listRead⟩
    exact ⟨first, listed, [], last, isFirst, lists, .inl rfl, by simpa using listRead⟩
  · rintro items cursor outcome after ⟨first, listed, last, isFirst, lists, listRead⟩ stepped
    obtain ⟨comma, afterComma, commaAsked, continued⟩ := bind_eq_ok stepped
    have commaRead := listRead.of_acceptIf (.symbol ",") commaAsked
    cases comma with
    | false =>
        obtain ⟨last, commaRead⟩ := commaRead
        cases continued
        exact ⟨first, listed, [], last, isFirst, lists, .inl rfl, by simpa using commaRead⟩
    | true =>
        obtain ⟨before, isBefore, commaRead⟩ := commaRead
        obtain ⟨next, place, peeked, chosen⟩ := bind_eq_ok continued
        obtain ⟨more, nextRead⟩ := commaRead.peek peeked
        cases token : next.token with
        | word name =>
            rw [token] at chosen
            obtain ⟨item, afterItem, itemRead, finished⟩ := bind_eq_ok chosen
            cases finished
            obtain ⟨spells, between, last, isBetween, itemRead⟩ :=
              spellsModule_importItem nextRead itemRead
            refine ⟨first, listed ++ before ++ [','] ++ between ++ item.text, last, isFirst, ?_, ?_⟩
            · rw [List.reverse_cons, List.map_append]
              exact lists.more isBefore isBetween spells
            · simpa using itemRead
        | _ =>
            rw [token] at chosen
            cases chosen
            exact ⟨first, listed, before ++ [','], more, isFirst, lists,
              .inr ⟨before, isBefore, rfl⟩, by simpa using nextRead⟩

/-! ## The clause of an import of names -/

/-- The parser gives an import of one clause, whose text is all that is read from an offset on. -/
def TakesFrom
    (lasting : Lasting)
    (text : Text)
    (start : Nat)
    (parser : Parser (Form × Tree)) :
    Prop :=
  ∀ cursor result after, lasting.holds cursor → parser cursor = .ok (result, after) →
    ∃ clause, result.1 = .importing [clause] ∧ start ≤ after.lastStop ∧
      clause.text = Span.slice ⟨start, after.lastStop⟩ text

section TakesFrom

variable {lasting : Lasting} {start : Nat}

theorem takesFrom_bind
    {parser : Parser α}
    {next : α → Parser (Form × Tree)}
    (first : Keeps lasting parser)
    (rest : ∀ value, TakesFrom lasting text start (next value)) :
    TakesFrom lasting text start (parser >>= next) := by
  intro cursor result after held succeeded
  obtain ⟨value, between, firstSucceeded, nextSucceeded⟩ := bind_eq_ok succeeded
  exact rest value between result after (first cursor value between held firstSucceeded)
    nextSucceeded

theorem takesFrom_bind_of_touches
    {parser : Parser α}
    {next : α → Parser (Form × Tree)}
    (first : Touches text start parser)
    (rest : ∀ value, TakesFrom (.touched text start) text start (next value)) :
    TakesFrom (.within text start) text start (parser >>= next) := by
  intro cursor result after held succeeded
  obtain ⟨value, between, firstSucceeded, nextSucceeded⟩ := bind_eq_ok succeeded
  exact rest value between result after (first cursor value between held firstSucceeded)
    nextSucceeded

theorem takesFrom_peek_bind
    {expected : Expected}
    {next : Lexeme → Parser (Form × Tree)}
    (rest : ∀ lexeme, lasting.holds lexeme.before → lasting.holds lexeme.after →
      TakesFrom lasting text start (next lexeme)) :
    TakesFrom lasting text start (peek expected >>= next) := by
  intro cursor result after held succeeded
  obtain ⟨lexeme, between, peeked, nextSucceeded⟩ := bind_eq_ok succeeded
  have there := lasting.peek held peeked
  obtain ⟨rfl, _⟩ := peek_eq_ok peeked
  exact rest _ (lasting.before expected cursor held) (lasting.after expected cursor held)
    between result after there nextSucceeded

theorem takesFrom_textFrom
    {opening : Lexeme}
    (there : opening.before.Within text lower)
    (path : ModulePath)
    (names : ImportedNames)
    (tree : Text → Tree) :
    TakesFrom (.touched text opening.start) text opening.start
      (textFrom opening >>= fun taken =>
        pure (.importing [⟨path, names, taken⟩], tree taken)) := by
  rintro cursor result after ⟨_, touched⟩ succeeded
  obtain ⟨taken, between, read, finished⟩ := bind_eq_ok succeeded
  have result : (opening.before.rest.take (cursor.lastStop - opening.start), cursor) =
      (taken, between) := Except.ok.inj read
  obtain ⟨rfl, rfl⟩ := Prod.mk.inj result
  cases finished
  refine ⟨_, rfl, touched, ?_⟩
  rw [there.rest_eq]
  rfl

end TakesFrom

theorem touches_require (expected : Expected) (token : Token) :
    Touches text lower (require expected token) := by
  unfold require
  apply touches_peek_bind
  intro lexeme read
  split <;> grind

theorem match_dot_of_ne (ahead : Text) (dotted other : α) :
    (∀ more, ahead ≠ '.' :: more) →
      (match ahead with
        | '.' :: _ => dotted
        | _ => other) = other := by
  intro noDot
  split
  next more => exact absurd rfl (noDot more)
  next => rfl

/-- Where a line ends there are no dots to count. -/
theorem leadingDots_eq_ok
    {cursor after : Cursor}
    {level : Nat}
    (isLayout : (Expected.lexeme {} cursor).IsLayout {})
    (succeeded : leadingDots cursor = .ok (level, after)) :
    after = cursor ∧ level = 0 := by
  obtain ⟨layout, found, token⟩ := isLayout.found
  obtain ⟨rest, start, remainingRead, iterated⟩ := bind_eq_ok succeeded
  cases remainingRead
  obtain ⟨outcome, between, stepped, finished⟩ := bind_eq_ok iterated
  obtain ⟨ahead, start, aheadRead, stepped⟩ := bind_eq_ok stepped
  cases aheadRead
  obtain ⟨next, place, peeked, chosen⟩ := bind_eq_ok stepped
  obtain ⟨rfl, ⟨_, rfl⟩ | ⟨notLayout, _⟩⟩ := peek_eq_ok peeked
  · have noDot : ∀ more, (Expected.lexeme {} place).before.rest ≠ '.' :: more := by
      intro more dotted
      rw [layout?_eq_none {} dotted (by decide)] at found
      cases found
    have stays : (pure (.inr 0) : Parser (Nat ⊕ Nat)) place = .ok (outcome, between) :=
      (congrFun (match_dot_of_ne _ _ (pure (Sum.inr 0)) noDot) place).symm.trans chosen
    cases stays
    cases finished
    exact ⟨rfl, rfl⟩
  · exact absurd token (notLayout layout)

theorem tokenAt_ne_layout
    {quotes : Bool}
    {ahead : Text}
    {layout : Layout}
    (found : (tokenAt quotes ahead).1 = .layout layout) :
    False := by
  unfold tokenAt at found
  repeat' split at found
  all_goals cases found

/-- The clause of an import of names is all that is read from the next token on. -/
theorem exists_clause_of_fromStatement
    {cursor after : Cursor}
    {result : Form × Tree}
    (within : cursor.Within text lower)
    (succeeded : fromStatement cursor = .ok (result, after)) :
    ∃ clause,
      result.1 = .importing [clause] ∧
        (Expected.lexeme {} cursor).start ≤ after.lastStop ∧
        clause.text = Span.slice ⟨(Expected.lexeme {} cursor).start, after.lastStop⟩ text := by
  have openingWithin := (Lasting.within text lower).before {} cursor within
  obtain ⟨opening, place, peeked, succeeded⟩ := bind_eq_ok succeeded
  obtain ⟨rfl, ⟨⟨layout, isLayout⟩, rfl⟩ | ⟨_, rfl⟩⟩ := peek_eq_ok peeked
  · -- A path cannot start where a line ends.
    have atEnd := (lexeme_isTextual {} place).resolve_right fun textual =>
      tokenAt_ne_layout (textual.token.symm.trans isLayout)
    obtain ⟨level, counted, dotsRead, succeeded⟩ := bind_eq_ok succeeded
    obtain ⟨rfl, rfl⟩ := leadingDots_eq_ok atEnd dotsRead
    obtain ⟨next, between, nextPeeked, succeeded⟩ := bind_eq_ok succeeded
    obtain ⟨rfl, _⟩ := peek_eq_ok nextPeeked
    obtain ⟨_, _, named, _⟩ := bind_eq_ok succeeded
    unfold dottedName at named
    rw [isLayout] at named
    cases named
  · have opening := openingWithin.fromHere
    refine (?_ : TakesFrom (.within text (Expected.lexeme {} cursor).start) text
      (Expected.lexeme {} cursor).start _) _ result after opening succeeded
    refine takesFrom_bind keeps_leadingDots fun level => ?_
    refine takesFrom_peek_bind fun next _ nextWithin => ?_
    have pathKeeps : Keeps (.within text (Expected.lexeme {} cursor).start)
        (dottedName .header next) := keeps_dottedName .header nextWithin
    extract_lets names
    have namesForm : ∀ path, TakesFrom (.within text (Expected.lexeme {} cursor).start) text
        (Expected.lexeme {} cursor).start (names path) := by
      rintro ⟨path, pathTree⟩
      refine takesFrom_bind_of_touches (touches_require {} _) fun _ => ?_
      refine takesFrom_peek_bind fun next _ nextTouched => ?_
      dsimp only
      split
      · refine takesFrom_bind (keeps_set nextTouched) fun _ => takesFrom_bind (keeps_pure _) ?_
        exact fun ⟨names, tree⟩ => takesFrom_textFrom opening _ names _
      · refine takesFrom_bind keeps_importList fun items => takesFrom_bind (keeps_pure _) ?_
        exact fun ⟨names, tree⟩ => takesFrom_textFrom opening _ names _
    clear_value names
    split
    · exact takesFrom_bind (keeps_pure _) namesForm
    · refine takesFrom_bind pathKeeps fun ⟨_, tree⟩ => ?_
      exact takesFrom_bind (keeps_textFrom next) fun path => takesFrom_bind (keeps_pure _) namesForm

/-! ## Forms -/

/-- The text of an import spells its clauses.  An import of language features names some. -/
def Form.IsSound (text : Text) (span : Span) : Form → Prop
  | .importing clauses => SpellsImport clauses (span.slice text)
  | .future names => names ≠ []
  | _ => True

theorem Form.isSound_of_isNoImport
    {form : Form}
    {tree : Tree}
    (notImport : IsNoImport (form, tree))
    (text : Text)
    (span : Span) :
    form.IsSound text span := by
  cases form with
  | importing clauses => exact absurd rfl (notImport clauses []).1
  | future names => exact absurd rfl (notImport [] names).2
  | _ => trivial

section Imports

variable {start cursor after : Cursor} {result : Form × Tree}

theorem Cursor.HasRead.slice_eq
    {read gap : Text}
    (hasRead : start.HasRead read gap cursor)
    (within : start.Within text lower) :
    Span.slice ⟨start.offset, cursor.lastStop⟩ text = read := by
  simp only [Span.slice]
  rw [← within.rest_eq, hasRead.rest_eq, hasRead.lastStop_eq, Nat.add_sub_cancel_left,
    List.append_assoc, List.take_left]

theorem isSound_importStatement
    (within : start.Within text lower)
    (hasRead : start.HasRead "import".toList [] cursor)
    (succeeded : importStatement cursor = .ok (result, after)) :
    result.1.IsSound text ⟨start.offset, after.lastStop⟩ := by
  obtain ⟨items, between, itemsRead, finished⟩ := bind_eq_ok succeeded
  cases finished
  obtain ⟨first, listed, comma, last, isFirst, lists, isComma, allRead⟩ :=
    listsModules_importItems hasRead itemsRead
  rw [Form.IsSound, allRead.slice_eq within]
  exact .modules isFirst lists isComma

theorem isSound_fromOrFutureStatement
    (within : start.Within text lower)
    (cursorWithin : cursor.Within text lower)
    (hasRead : start.HasRead "from".toList [] cursor)
    (succeeded : fromOrFutureStatement cursor = .ok (result, after)) :
    result.1.IsSound text ⟨start.offset, after.lastStop⟩ := by
  obtain ⟨isFuture, place, asked, succeeded⟩ := bind_eq_ok succeeded
  cases isFuture with
  | true =>
      obtain ⟨_, between, _, succeeded⟩ := bind_eq_ok succeeded
      obtain ⟨items, between, itemsRead, finished⟩ := bind_eq_ok succeeded
      cases finished
      simpa [Form.IsSound] using yields_importList _ items _ itemsRead
  | false =>
      have keepsPlace : Keeps (.within text lower) (word? {} "__future__") := keeps_word? {} _
      have placeWithin := keepsPlace cursor false place cursorWithin asked
      obtain ⟨last, notFuture⟩ := hasRead.of_acceptIf (.word "__future__") asked
      obtain ⟨more, passes⟩ := exists_passes_lexeme {} place
      have opened := notFuture.pass passes
      obtain ⟨clause, isClause, starts, clauseText⟩ :=
        exists_clause_of_fromStatement placeWithin succeeded
      have above : Span.slice ⟨start.offset, (Expected.lexeme {} place).start⟩ text =
          "from".toList ++ (last ++ more) := by
        simp only [Span.slice, Lexeme.start]
        rw [← within.rest_eq, opened.rest_eq, opened.offset_eq, opened.lastStop_eq, Nat.add_assoc,
          Nat.add_sub_cancel_left, ← List.length_append, List.take_left]
      have startBound : start.offset ≤ (Expected.lexeme {} place).start := by
        rw [Lexeme.start, opened.offset_eq, opened.lastStop_eq]
        omega
      rw [isClause, Form.IsSound, ← Span.slice_append_slice text startBound starts, above,
        ← clauseText]
      exact .names opened.isGap

/-- A token of the text is found again at its place. -/
theorem Lexeme.IsTextual.before_lexeme
    {quotes : Bool}
    {lexeme : Lexeme}
    {expected : Expected}
    (textual : lexeme.IsTextual quotes)
    (notLayout : ∀ layout, (expected.lexeme lexeme.before).token ≠ .layout layout) :
    (expected.lexeme lexeme.before).before = lexeme.before := by
  have unmoved : lexeme.before.skip 0 = lexeme.before := rfl
  have noTrivia : lexeme.before.rest.takeWhile isTrivia = [] := by
    cases ahead : lexeme.before.rest with
    | nil => rfl
    | cons first rest =>
        have notTrivia := textual.atToken first (by rw [ahead]; rfl)
        rw [List.takeWhile_cons_of_neg (by simp [notTrivia])]
  unfold Expected.lexeme at notLayout ⊢
  unfold lexemeWithin at notLayout ⊢
  split at notLayout
  next layout _ => exact absurd rfl (notLayout layout)
  next =>
    simp only [noTrivia, List.length_nil, unmoved]
    split
    next rest commented => exact absurd commented (textual.uncommented rest)
    next =>
      rw [textual.unjoined]
      rfl

/-- A simple statement that is read from a token of the text on is sound. -/
theorem isSound_simpleStatement
    {quotes : Bool}
    {opening : Lexeme}
    (textual : opening.IsTextual quotes)
    (within : opening.before.Within text lower)
    (succeeded : simpleStatement self opening.before = .ok (result, after)) :
    result.1.IsSound text ⟨opening.start, after.lastStop⟩ := by
  unfold simpleStatement printStatement typeAlias raiseStatement nameList at succeeded
  obtain ⟨first, place, peeked, succeeded⟩ := bind_eq_ok succeeded
  obtain ⟨rfl, _⟩ := peek_eq_ok peeked
  have firstWithin := (Lasting.within text lower).after { quote := true } _ within
  have read : ∀ word, (Expected.lexeme { quote := true } opening.before).token = .word word →
      opening.before.HasRead word.toList []
        (Expected.lexeme { quote := true } opening.before).after := by
    intro word isWord
    have notLayout : ∀ layout,
        (Expected.lexeme { quote := true } opening.before).token ≠ .layout layout := by
      simp [isWord]
    have here := textual.before_lexeme notLayout
    have spells : (Expected.lexeme { quote := true } opening.before).token.Spells word.toList :=
      isWord ▸ .word word
    have hasRead := Cursor.HasRead.lexeme spells
    rwa [here] at hasRead
  by_cases isImport : (Expected.lexeme { quote := true } opening.before).token = .word "import"
  · rw [isImport] at succeeded
    obtain ⟨_, between, accepted, succeeded⟩ := bind_eq_ok succeeded
    cases accepted
    exact isSound_importStatement within (read "import" isImport) succeeded
  · by_cases isFrom : (Expected.lexeme { quote := true } opening.before).token = .word "from"
    · rw [isFrom] at succeeded
      obtain ⟨_, between, accepted, succeeded⟩ := bind_eq_ok succeeded
      cases accepted
      exact isSound_fromOrFutureStatement within firstWithin (read "from" isFrom) succeeded
    · refine Form.isSound_of_isNoImport ((?_ : Yields IsNoImport _) place result after succeeded)
        text _
      split
      next other => exact absurd other isImport
      next other => exact absurd other isFrom
      all_goals grind

end Imports

end Syntax

end Inliner
