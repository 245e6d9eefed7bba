import Inliner.Proofs.File.Paths
import Inliner.Proofs.Source.Spans
import Mathlib.Data.List.DropRight

/-!
# Module paths as they are read

The segments of a module path are what stands between its dots without the white space around it,
so none of them is empty, has a dot in it or starts or ends with white space.  An import that is not
relative reads an identifier first, so it has a segment.
-/

namespace Inliner

/-- What lacks a property is not dropped with what has it. -/
theorem mem_dropWhile_of_eq_false
    {α : Type}
    {holds : α → Bool}
    {items : List α}
    {item : α}
    (member : item ∈ items)
    (fails : holds item = false) :
    item ∈ items.dropWhile holds := by
  induction items with
  | nil => cases member
  | cons head tail inductionHypothesis =>
      rw [List.dropWhile_cons]
      split
      next dropped =>
        rcases List.mem_cons.mp member with rfl | later
        · rw [fails] at dropped
          cases dropped
        · exact inductionHypothesis later
      next => exact member

/-! ## Characters of identifiers -/

namespace Text

namespace CharSet

theorem exists_range
    {set : CharSet}
    {character : Char}
    (contained : set.contains character = true) :
    ∃ range ∈ set.ranges, range.1 ≤ character.toNat ∧ character.toNat ≤ range.2 := by
  obtain ⟨range, member, inRange⟩ := List.any_eq_true.mp contained
  simp only [Bool.and_eq_true, decide_eq_true_eq] at inRange
  exact ⟨range, member, inRange⟩

/-- Whether a range lies in another one. -/
def covers (range inner : Nat × Nat) : Bool :=
  range.1.ble inner.1 && inner.2.ble range.2

/-- What is left of some ranges once each of the wider ranges, in turn, has taken those at the front
that lie in it. -/
def leftOver (ranges wider : List (Nat × Nat)) : List (Nat × Nat) :=
  wider.foldl (fun pending range => pending.dropWhile (covers range)) ranges

theorem exists_wider_or_mem_leftOver
    {ranges : List (Nat × Nat)}
    {inner : Nat × Nat}
    (wider : List (Nat × Nat))
    (member : inner ∈ ranges) :
    (∃ range ∈ wider, covers range inner = true) ∨ inner ∈ leftOver ranges wider := by
  induction wider generalizing ranges with
  | nil => exact .inr member
  | cons range wider inductionHypothesis =>
      cases covered : covers range inner with
      | true => exact .inl ⟨range, List.mem_cons_self, covered⟩
      | false =>
          have kept := mem_dropWhile_of_eq_false member covered
          rcases inductionHypothesis kept with ⟨other, isWider, inOther⟩ | left
          · exact .inl ⟨other, List.mem_cons_of_mem range isWider, inOther⟩
          · exact .inr left

end CharSet

theorem leftOver_identifierStarts :
    CharSet.leftOver identifierStarts.ranges identifierParts.ranges = [] := by
  decide +kernel

theorem identifierParts_not_space :
    ∀ range ∈ identifierParts.ranges,
      0x3000 < range.1 ∨
        (range.2 < 0x2000 ∨ 0x200A < range.1) ∧
          ∀ code ∈ [0x85, 0xA0, 0x1680, 0x2028, 0x2029, 0x202F, 0x205F, 0x3000],
            range.2 < code ∨ code < range.1 := by
  decide +kernel

theorem identifier_ascii :
    ∀ code < 128,
      (startsIdentifier (Char.ofNat code) = true →
          continuesIdentifier (Char.ofNat code) = true) ∧
        (continuesIdentifier (Char.ofNat code) = true →
          isSpace (Char.ofNat code) = false ∧ Char.ofNat code ≠ '.') := by
  decide +kernel

/-- A character that may start an identifier may also continue one. -/
theorem continuesIdentifier_of_starts
    {character : Char}
    (starts : startsIdentifier character = true) :
    continuesIdentifier character = true := by
  by_cases ascii : character.toNat < 128
  · have facts := identifier_ascii character.toNat ascii
    rw [Char.ofNat_toNat] at facts
    exact facts.1 starts
  · rw [startsIdentifier, if_neg ascii] at starts
    obtain ⟨range, member, lower, upper⟩ := CharSet.exists_range starts
    have covered := CharSet.exists_wider_or_mem_leftOver identifierParts.ranges member
    rw [leftOver_identifierStarts] at covered
    obtain ⟨wider, isWider, covers⟩ := covered.resolve_right List.not_mem_nil
    rw [CharSet.covers, Bool.and_eq_true, Nat.ble_eq, Nat.ble_eq] at covers
    rw [continuesIdentifier, if_neg ascii]
    refine List.any_eq_true.mpr ⟨wider, isWider, ?_⟩
    simp only [Bool.and_eq_true, decide_eq_true_eq]
    omega

/-- A character of an identifier is neither white space nor a dot. -/
theorem of_continuesIdentifier
    {character : Char}
    (continues : continuesIdentifier character = true) :
    isSpace character = false ∧ character ≠ '.' := by
  by_cases ascii : character.toNat < 128
  · have facts := identifier_ascii character.toNat ascii
    rw [Char.ofNat_toNat] at facts
    exact facts.2 continues
  · rw [continuesIdentifier, if_neg ascii] at continues
    obtain ⟨range, member, lower, upper⟩ := CharSet.exists_range continues
    refine ⟨?_, ?_⟩
    · have apart := identifierParts_not_space range member
      simp only [List.forall_mem_cons] at apart
      simp only [isSpace, Bool.or_eq_false_iff, Bool.and_eq_false_iff, decide_eq_false_iff_not,
        beq_eq_false_iff_ne]
      omega
    · rintro rfl
      exact ascii (by decide)

/-! ## Segments -/

theorem mem_trim
    {text : Text}
    {character : Char}
    (member : character ∈ text)
    (visible : isSpace character = false) :
    character ∈ trim text := by
  have inRest := mem_dropWhile_of_eq_false member visible
  exact List.mem_reverse.mpr (mem_dropWhile_of_eq_false (List.mem_reverse.mpr inRest) visible)

theorem mem_of_mem_trim
    {text : Text}
    {character : Char}
    (member : character ∈ trim text) :
    character ∈ text := by
  have inFront := (List.dropWhile_sublist isSpace).mem (List.mem_reverse.mp member)
  exact (List.dropWhile_sublist isSpace).mem (List.mem_reverse.mp inFront)

theorem trim_trim (text : Text) : trim (trim text) = trim text := by
  have atStart : (trim text).dropWhile isSpace = trim text := by
    rw [List.dropWhile_eq_self_iff]
    intro nonempty space
    -- The first character of the trimmed text stands first once the white space in front is gone.
    have isPrefix : trim text <+: text.dropWhile isSpace := List.rdropWhile_prefix isSpace _
    rw [isPrefix.getElem nonempty] at space
    exact List.dropWhile_get_zero_not isSpace text _ space
  rw [trim, atStart]
  exact List.rdropWhile_idempotent isSpace (text.dropWhile isSpace)

theorem exists_piece_of_mem
    {separator character : Char}
    (notSeparator : character ≠ separator) :
    ∀ {text : Text}, character ∈ text → ∃ piece ∈ splitAt separator text, character ∈ piece
  | first :: rest, member => by
      unfold splitAt
      split
      next isSeparator =>
        have later : character ∈ rest :=
          (List.mem_cons.mp member).resolve_left (isSeparator ▸ notSeparator)
        obtain ⟨piece, isPiece, inPiece⟩ := exists_piece_of_mem notSeparator later
        exact ⟨piece, List.mem_cons_of_mem [] isPiece, inPiece⟩
      next =>
        cases cut : splitAt separator rest with
        | nil => exact absurd cut (splitAt_ne_nil rest)
        | cons head tail =>
            rcases List.mem_cons.mp member with rfl | later
            · exact ⟨_, List.mem_cons_self, List.mem_cons_self⟩
            · obtain ⟨piece, isPiece, inPiece⟩ := exists_piece_of_mem notSeparator later
              rw [cut] at isPiece
              rcases List.mem_cons.mp isPiece with rfl | inTail
              · exact ⟨_, List.mem_cons_self, List.mem_cons_of_mem first inPiece⟩
              · exact ⟨piece, List.mem_cons_of_mem _ inTail, inPiece⟩

end Text

namespace ModulePath

/-- What can stand between the dots of a path. -/
structure IsSegment (segment : String) : Prop where
  nonempty : segment.toList ≠ []
  noDot : '.' ∉ segment.toList
  trimmed : Text.trim segment.toList = segment.toList

/-- The path is one that can be written: its segments can stand between dots, and there is a
segment unless the path is relative. -/
structure IsWritten (path : ModulePath) : Prop where
  segments : ∀ segment ∈ path.segments, IsSegment segment
  absolute : path.isRelative = false → path.segments ≠ []

theorem isSegment_of_mem_splitSegments
    {dotted : Text}
    {segment : String}
    (member : segment ∈ splitSegments dotted) :
    IsSegment segment := by
  obtain ⟨text, kept, rfl⟩ := List.mem_map.mp member
  obtain ⟨trimmed, nonempty⟩ := List.mem_filter.mp kept
  obtain ⟨piece, isPiece, rfl⟩ := List.mem_map.mp trimmed
  refine ⟨?_, ?_, ?_⟩
  · rw [String.toList_ofList]
    simpa using nonempty
  · rw [String.toList_ofList]
    intro dot
    exact Text.not_mem_of_mem_splitAt isPiece (Text.mem_of_mem_trim dot)
  · rw [String.toList_ofList]
    exact Text.trim_trim piece

theorem splitSegments_ne_nil_of_mem
    {dotted : Text}
    {character : Char}
    (member : character ∈ dotted)
    (starts : Text.startsIdentifier character = true) :
    splitSegments dotted ≠ [] := by
  obtain ⟨visible, notDot⟩ :=
    Text.of_continuesIdentifier (Text.continuesIdentifier_of_starts starts)
  obtain ⟨piece, isPiece, inPiece⟩ := Text.exists_piece_of_mem notDot member
  have inTrimmed := Text.mem_trim inPiece visible
  have nonempty : (!(Text.trim piece).isEmpty) = true := by
    simpa using List.ne_nil_of_mem inTrimmed
  apply List.ne_nil_of_mem (a := String.ofList (Text.trim piece))
  exact List.mem_map_of_mem (List.mem_filter.mpr ⟨List.mem_map_of_mem isPiece, nonempty⟩)

theorem isWritten_relative
    {level : Nat}
    {dotted : Text}
    (named : level = 0 → splitSegments dotted ≠ []) :
    (relative level dotted).IsWritten where
  segments _ member := isSegment_of_mem_splitSegments member
  absolute notRelative := by
    apply named
    have noDots : decide (0 < level) = false := notRelative
    exact Nat.eq_zero_of_not_pos (of_decide_eq_false noDots)

end ModulePath

/-! ## Identifiers in a text -/

namespace Syntax

open Inliner.Syntax.Parser

/-- A place whose last token ends at an offset or later. -/
def Lasting.past (stop : Nat) : Lasting where
  holds place := stop ≤ place.offset ∧ stop ≤ place.lastStop
  skip := by
    rintro cursor count ⟨offset, lastStop⟩ _
    exact ⟨Nat.le_add_right_of_le offset, lastStop⟩
  mark := fun _ _ held => ⟨held.1, held.1⟩

/-- The text starts with an identifier. -/
structure StartsWith (text : Text) (identifier : String) : Prop where
  starts : ∃ first, text.head? = some first ∧ Text.startsIdentifier first = true
  continues : text.takeWhile Text.continuesIdentifier = identifier.toList

theorem startsWith_of_tokenAt_word
    {quotes : Bool}
    {text : Text}
    {word : String}
    (found : (tokenAt quotes text).1 = .word word) :
    StartsWith text word := by
  cases text with
  | nil => cases found
  | cons first rest =>
      unfold tokenAt at found
      dsimp only at found
      split at found
      next => cases found
      next =>
        split at found
        next starts =>
          obtain rfl := Token.word.inj found
          exact ⟨⟨first, rfl, starts⟩, String.toList_ofList.symm⟩
        next =>
          split at found
          · split at found <;> cases found
          · cases found

/-- A word stands where its lexeme starts, and the place after it is noted. -/
theorem startsWith_of_lexeme
    {expected : Expected}
    {cursor : Cursor}
    {word : String}
    (isWord : (expected.lexeme cursor).token = .word word) :
    StartsWith (expected.lexeme cursor).before.rest word ∧
      (expected.lexeme cursor).after.offset =
        (expected.lexeme cursor).start + word.toList.length := by
  have notLayout : ∀ layout, (expected.lexeme cursor).token ≠ .layout layout := by
    simp [isWord]
  have textual := lexeme_isTextual_of_ne_layout notLayout
  have spells : (expected.lexeme cursor).token.Spells word.toList := isWord ▸ .word word
  have hasRead := Cursor.HasRead.lexeme spells
  refine ⟨startsWith_of_tokenAt_word (textual.token.symm.trans isWord), ?_⟩
  exact hasRead.offset_eq.trans hasRead.lastStop_eq

/-- What is taken of a text with an identifier at its start has that identifier at its start, if
it is long enough. -/
theorem StartsWith.take
    {text : Text}
    {identifier : String}
    {count : Nat}
    (startsWith : StartsWith text identifier)
    (enough : identifier.toList.length ≤ count) :
    StartsWith (text.take count) identifier := by
  obtain ⟨⟨first, isFirst, starts⟩, continues⟩ := startsWith
  have nonempty : 0 < identifier.toList.length := by
    cases text with
    | nil => cases isFirst
    | cons head rest =>
        obtain rfl := Option.some.inj isFirst
        rw [← continues, List.takeWhile_cons_of_pos (Text.continuesIdentifier_of_starts starts)]
        exact Nat.succ_pos _
  refine ⟨⟨first, ?_, starts⟩, ?_⟩
  · rw [List.head?_take, if_neg (by omega)]
    exact isFirst
  · rw [← List.take_takeWhile, continues, List.take_of_length_le enough]

theorem StartsWith.splitSegments_ne_nil
    {text : Text}
    {identifier : String}
    (startsWith : StartsWith text identifier) :
    ModulePath.splitSegments text ≠ [] := by
  obtain ⟨⟨first, isFirst, starts⟩, _⟩ := startsWith
  exact ModulePath.splitSegments_ne_nil_of_mem (List.mem_of_mem_head? isFirst) starts

variable {mode : Mode} {cursor place read after : Cursor} {start : Lexeme}

/-- The text of a dotted name starts with the first of its names. -/
theorem startsWith_of_dottedName
    {result : String × Tree}
    {name : Text}
    (peeked : peek mode.inside cursor = .ok (start, place))
    (named : dottedName mode start place = .ok (result, read))
    (taken : textFrom start read = .ok (name, after)) :
    StartsWith name result.1 := by
  obtain ⟨rfl, _⟩ := peek_eq_ok peeked
  cases token : (mode.inside.lexeme cursor).token with
  | word first =>
      simp only [dottedName, token] at named
      obtain ⟨startsWith, width⟩ := startsWith_of_lexeme token
      obtain ⟨_, accepted, acceptedHere, afterAccept⟩ := bind_eq_ok named
      cases acceptedHere
      obtain ⟨more, final, moreRead, finished⟩ := bind_eq_ok afterAccept
      cases finished
      have noted := lastStop_lexeme mode.inside cursor
      have later : (Lasting.past (mode.inside.lexeme cursor).after.lastStop).holds read := by
        refine (?_ : Keeps _ _) _ more read ⟨noted.le, le_refl _⟩ moreRead
        grind
      have isTaken :
          (mode.inside.lexeme cursor).before.rest.take
              (read.lastStop - (mode.inside.lexeme cursor).start) =
            name :=
        (Prod.mk.inj (Except.ok.inj taken)).1
      rw [← isTaken]
      apply startsWith.take
      have bound := later.2
      omega
  | _ =>
      simp only [dottedName, token] at named
      cases named

/-- An identifier that is read is one as a whole. -/
theorem yields_identifier (expected : Expected) :
    Yields (fun name => name.toList.takeWhile Text.continuesIdentifier = name.toList)
      (identifier expected) := by
  intro cursor name after succeeded
  obtain ⟨lexeme, place, peeked, accepted⟩ := bind_eq_ok succeeded
  obtain ⟨rfl, _⟩ := peek_eq_ok peeked
  cases token : (expected.lexeme cursor).token with
  | word text =>
      rw [token] at accepted
      cases accepted
      obtain ⟨⟨_, continues⟩, _⟩ := startsWith_of_lexeme token
      rw [← continues, List.takeWhile_idem]
  | _ =>
      rw [token] at accepted
      cases accepted

/-! ## Imports -/

/-- The modules that an import names have paths that can be written. -/
def Form.NamesModules (form : Form) : Prop :=
  ∀ clause ∈ form.clauses, clause.module.IsWritten

theorem Form.namesModules_of_isNoImport
    {result : Form × Tree}
    (notImport : IsNoImport result) :
    result.1.NamesModules := by
  obtain ⟨form, tree⟩ := result
  cases form with
  | importing clauses => exact absurd rfl (notImport clauses []).1
  | _ =>
      intro clause member
      cases member

/-- The parser gives forms whose modules have paths that can be written. -/
def NamesModules (parser : Parser (Form × Tree)) : Prop :=
  Yields (fun result => result.1.NamesModules) parser

theorem namesModules_of_yields
    {parser : Parser (Form × Tree)}
    (yields : Yields IsNoImport parser) :
    NamesModules parser :=
  fun cursor result after succeeded =>
    Form.namesModules_of_isNoImport (yields cursor result after succeeded)

/-- The item starts with an identifier, and its new name is one. -/
structure ImportItem.IsNamed (item : ImportItem) : Prop where
  startsWith : StartsWith item.name item.first
  newName : ∀ newName, item.newName = some newName →
    newName.toList.takeWhile Text.continuesIdentifier = newName.toList

theorem yields_importItem (mode : Mode) : Yields ImportItem.IsNamed (importItem mode) := by
  intro cursor item after succeeded
  obtain ⟨start, place, peeked, afterPeek⟩ := bind_eq_ok succeeded
  obtain ⟨⟨first, tree⟩, named, nameRead, afterName⟩ := bind_eq_ok afterPeek
  obtain ⟨name, taken, nameTaken, afterTaken⟩ := bind_eq_ok afterName
  obtain ⟨renamed, asked, _, afterAs⟩ := bind_eq_ok afterTaken
  have startsWith := startsWith_of_dottedName peeked nameRead nameTaken
  cases renamed with
  | true =>
      obtain ⟨newName, identified, newNameRead, afterIdentifier⟩ := bind_eq_ok afterAs
      obtain ⟨whole, final, _, finished⟩ := bind_eq_ok afterIdentifier
      cases finished
      refine ⟨startsWith, ?_⟩
      rintro _ ⟨⟩
      exact yields_identifier _ _ newName identified newNameRead
  | false =>
      cases afterAs
      refine ⟨startsWith, ?_⟩
      rintro _ ⟨⟩

theorem yields_forall_importItems (mode : Mode) :
    Yields (fun items => ∀ item ∈ items, item.IsNamed) (importItems mode) := by
  refine yields_bind_of_first (yields_importItem mode) fun first firstGood => ?_
  refine yields_bind_of_first
    (yields_loop (fun items => ∀ item ∈ items, item.IsNamed) ?_ ?_) ?_
  · simpa using firstGood
  · intro items allGood
    refine yields_bind fun comma => ?_
    split
    · refine yields_bind fun next => ?_
      split
      · refine yields_bind_of_first (yields_importItem mode) fun item itemGood => ?_
        exact yields_pure (List.forall_mem_cons.mpr ⟨itemGood, allGood⟩)
      · exact yields_pure allGood
    · exact yields_pure allGood
  · intro items allGood
    apply yields_pure
    intro item member
    exact allGood item (List.mem_reverse.mp member)

theorem namesModules_importStatement : NamesModules importStatement := by
  refine yields_bind_of_first (yields_forall_importItems .statement) fun items allGood => ?_
  apply yields_pure
  intro clause member
  obtain ⟨item, isItem, rfl⟩ := List.mem_map.mp member
  exact ModulePath.isWritten_relative fun _ => (allGood item isItem).startsWith.splitSegments_ne_nil

theorem namesModules_fromStatement : NamesModules fromStatement := by
  intro cursor result after succeeded
  obtain ⟨start, _, _, afterStart⟩ := bind_eq_ok succeeded
  obtain ⟨level, dotted, _, afterLevel⟩ := bind_eq_ok afterStart
  obtain ⟨next, place, peeked, afterNext⟩ := bind_eq_ok afterLevel
  extract_lets names at afterNext
  have namesWritten
      (path : Text)
      (tree : Tree)
      (written : level = 0 → ModulePath.splitSegments path ≠ []) :
      NamesModules (names (path, tree)) := by
    have clauseWritten (imported : ImportedNames) (importedTree : Text → Tree) :
        NamesModules (textFrom start >>= fun taken =>
          pure (.importing [⟨.relative level path, imported, taken⟩], importedTree taken)) := by
      refine yields_bind fun taken => yields_pure ?_
      intro clause member
      rw [List.mem_singleton.mp member]
      exact ModulePath.isWritten_relative written
    refine yields_bind fun _ => yields_bind fun following => ?_
    dsimp only
    split
    · exact yields_bind fun _ => yields_bind fun _ => clauseWritten _ _
    · exact yields_bind fun _ => yields_bind fun _ => clauseWritten _ _
  clear_value names
  split at afterNext
  next relative =>
    rw [Bool.and_eq_true, decide_eq_true_eq] at relative
    refine namesWritten [] .empty ?_ place result after afterNext
    intro notRelative
    omega
  next =>
    obtain ⟨⟨first, tree⟩, named, nameRead, afterName⟩ := bind_eq_ok afterNext
    obtain ⟨path, taken, pathTaken, afterPath⟩ := bind_eq_ok afterName
    have headed : peek Mode.header.inside dotted = .ok (next, place) := peeked
    have startsWith := startsWith_of_dottedName headed nameRead pathTaken
    exact namesWritten path tree (fun _ => startsWith.splitSegments_ne_nil) taken result after
      afterPath

theorem namesModules_fromOrFutureStatement : NamesModules fromOrFutureStatement := by
  refine yields_bind fun future => ?_
  split
  · refine yields_bind fun _ => yields_bind fun items => yields_pure ?_
    intro clause member
    cases member
  · exact namesModules_fromStatement

/-! ## Programs -/

variable {self : Grammar}

theorem namesModules_simpleStatement : NamesModules (simpleStatement self) := by
  unfold simpleStatement printStatement typeAlias raiseStatement nameList
  refine yields_bind fun first => ?_
  split
  next => exact yields_bind fun _ => namesModules_importStatement
  next => exact yields_bind fun _ => namesModules_fromOrFutureStatement
  all_goals exact namesModules_of_yields (by grind)

theorem namesModules_statement (first : Lexeme) :
    Yields (fun nodes => ∀ node ∈ nodes, node.form.NamesModules) (statement self first) := by
  refine yields_forall_statement namesModules_simpleStatement ?_ ?_
  · exact fun parser isCompound => namesModules_of_yields (yields_of_compoundStatement? isCompound)
  · intro cursor tree after _ clause member
    cases member

theorem namesModules_of_mem_withJoins
    {text : Text}
    {nodes : List Node}
    {node : Node}
    (parsed : parseStatements text = .ok nodes)
    (member : node ∈ withJoins text 0 nodes) :
    node.form.NamesModules := by
  refine of_mem_withJoins ?_ (forall_of_statementsFrom namesModules_statement parsed) member
  intro span join joined
  obtain ⟨_, _, rfl⟩ := List.mem_map.mp joined
  intro clause impossible
  cases impossible

end Syntax

theorem exists_clause_of_mem_declarationsFrom
    {text : Text}
    {index : Nat}
    {nodes : List Syntax.Node}
    {declaration : ImportDeclaration}
    (member : declaration ∈ declarationsFrom text index nodes) :
    ∃ node ∈ nodes, declaration.toImportClause ∈ node.form.clauses := by
  induction nodes generalizing index with
  | nil => cases member
  | cons node nodes inductionHypothesis =>
      rcases List.mem_append.mp member with here | later
      · obtain ⟨clause, isClause, rfl⟩ := List.mem_map.mp here
        exact ⟨node, List.mem_cons_self, isClause⟩
      · obtain ⟨other, inRest, isClause⟩ := inductionHypothesis later
        exact ⟨other, List.mem_cons_of_mem node inRest, isClause⟩

/-- The imports of a source name modules by paths that can be written. -/
theorem ParsedSource.isWritten_of_mem_imports
    {text : Text}
    {source : ParsedSource}
    {declaration : ImportDeclaration}
    (analysed : ParsedSource.parse text = .ok source)
    (member : declaration ∈ source.imports) :
    declaration.module.IsWritten := by
  unfold ParsedSource.parse at analysed
  split at analysed
  next nodes parsed =>
    obtain rfl := Except.ok.inj analysed
    obtain ⟨node, isNode, isClause⟩ := exists_clause_of_mem_declarationsFrom member
    exact Syntax.namesModules_of_mem_withJoins parsed isNode _ isClause
  next => cases analysed

end Inliner
