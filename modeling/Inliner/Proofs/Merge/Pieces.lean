import Inliner.Proofs.Walk.Invariant
import Mathlib.Data.List.Nodup
import Mathlib.Data.List.Infix

/-!
# What a merge writes

Requests that are served ask for segments, some of them for the same ones.  This module follows
the pieces that are written for them: each segment asked for is written at the first request,
unless it is an import of a library module that stands in the text already.
-/

namespace Inliner

/-! ## Pieces of an output -/

/-- The segments among some pieces, by the number of the module and the index. -/
def segmentsOf (pieces : List (Nat × Piece)) : List (Nat × Nat) :=
  pieces.filterMap fun entry => entry.2.segment?.map (entry.1, ·)

/-- The modules that are written as they are among some pieces. -/
def filesOf (pieces : List (Nat × Piece)) : List Nat :=
  pieces.filterMap fun entry =>
    match entry.2 with
    | .verbatim _ => some entry.1
    | .segment _ _ | .assignment _ | .trailing _ => none

/-- The pieces of an output in order, each with the number of its module. -/
def Output.pieces (output : Output) : List (Nat × Piece) :=
  output.chunks.flatMap fun chunk => chunk.pieces.map (chunk.module, ·)

theorem segmentsOf_append (first second : List (Nat × Piece)) :
    segmentsOf (first ++ second) = segmentsOf first ++ segmentsOf second := by
  simp [segmentsOf]

theorem filesOf_append (first second : List (Nat × Piece)) :
    filesOf (first ++ second) = filesOf first ++ filesOf second := by
  simp [filesOf]

/-! ## What is asked for -/

namespace Registry

/-- A segment of a loaded module and the text it is rendered as. -/
def Renders (registry : Registry) (entry : Nat × Nat) (text : Text) : Prop :=
  ∃ module source,
    registry.module? entry.1 = some module ∧
    module.parsed = some source ∧
    text = source.renderAt module.edit entry.2

/-- A segment of a library module that holds imports only, and its visible text. -/
def LibraryImport (registry : Registry) (entry : Nat × Nat) (line : Text) : Prop :=
  ∃ module source,
    registry.module? entry.1 = some module ∧
    module.parsed = some source ∧
    module.isMain = false ∧
    (∀ statement ∈ source.statementsOf entry.2, statement.kind = .importing) ∧
    Text.isBlank (source.renderAt module.edit entry.2) = false ∧
    line = Text.trim (source.renderAt module.edit entry.2)

/-- A segment that was first selected after another one was written, both of which are imports
of library modules with the same visible text. -/
def Repeated
    (registry : Registry) (selected written : List (Nat × Nat)) (entry : Nat × Nat) : Prop :=
  ∃ before after twin line,
    selected = before ++ entry :: after ∧
    entry ∉ before ∧
    twin ∈ before ∧
    twin ∈ written ∧
    registry.LibraryImport twin line ∧
    registry.LibraryImport entry line

theorem Repeated.append
    {registry : Registry} {selected written : List (Nat × Nat)} {entry : Nat × Nat}
    (repeated : registry.Repeated selected written entry)
    (moreSelected moreWritten : List (Nat × Nat)) :
    registry.Repeated (selected ++ moreSelected) (written ++ moreWritten) entry := by
  obtain ⟨before, after, twin, line, rfl, fresh, earlier, twinWritten, twinLine, line'⟩ := repeated
  refine ⟨before, after ++ moreSelected, twin, line, ?_, fresh, earlier, ?_, twinLine, line'⟩
  · simp
  · exact List.mem_append_left _ twinWritten

end Registry

namespace Setting

/-- The segments that serving a request takes from its module. -/
def selectedBy (setting : Setting) (module : Module) (request : Request) : List (Nat × Nat) :=
  match module.parsed with
  | none => []
  | some source =>
      (request.selection source setting.config.symbolPolicy).segments.map (module.id, ·)

/-- The modules without known statements among those that a request is served from. -/
def takenWhole (module : Module) : List Nat :=
  match module.parsed with
  | none => [module.id]
  | some _ => []

/-- The segments that the requests served in the course of some events select, in order. -/
def selected (setting : Setting) (registry : Registry) (events : List Event) :
    List (Nat × Nat) :=
  events.flatMap fun event =>
    match event with
    | .remark _ => []
    | .serve id request =>
        match registry.module? id with
        | some module => setting.selectedBy module request
        | none => []

/-- The modules without known statements that requests are served from in the course of some
events. -/
def takenFiles (registry : Registry) (events : List Event) : List Nat :=
  events.flatMap fun event =>
    match event with
    | .remark _ => []
    | .serve id _ =>
        match registry.module? id with
        | some module => takenWhole module
        | none => []

end Setting

/-! ## Lines that are written once -/

namespace Text

/-- A trimmed text does not end with white space. -/
theorem getLast?_trim_ne
    (text : Text) {character : Char} (space : isSpace character = true) :
    (trim text).getLast? ≠ some character := by
  unfold trim trimEnd
  rw [List.getLast?_reverse]
  intro first
  have kept := List.head?_dropWhile_not isSpace (text.dropWhile isSpace).reverse
  rw [first] at kept
  simp [space] at kept

end Text

/-- An assignment for an imported name is a whole line. -/
theorem ImportedName.getLast?_assignment
    {name : ImportedName} {line : Text} (assigned : name.assignment? = some line) :
    line.getLast? = some '\n' := by
  unfold assignment? at assigned
  split at assigned
  next newName renamed =>
    split at assigned
    · simp at assigned
    · rw [← Option.some.inj assigned, String.toList_append]
      exact List.getLast?_concat
  next => simp at assigned

namespace Written

/-- What has been marked as written agrees with the pieces that have been written for the
segments selected, and the files taken whole, so far. -/
structure Records
    (registry : Registry) (written : Written) (pieces : List (Nat × Piece))
    (selected : List (Nat × Nat)) (files : List Nat) : Prop where
  mem_segments_iff : ∀ entry, entry ∈ written.segments ↔ entry ∈ selected
  nodup : (segmentsOf pieces).Nodup
  subset : ∀ entry ∈ segmentsOf pieces, entry ∈ selected
  covered : ∀ entry ∈ selected,
    entry ∈ segmentsOf pieces ∨ registry.Repeated selected (segmentsOf pieces) entry
  lines : ∀ line ∈ written.lines,
    line.getLast? = some '\n' ∨
      ∃ entry ∈ segmentsOf pieces, registry.LibraryImport entry line
  rendered : ∀ id index text,
    (id, Piece.segment index text) ∈ pieces → registry.Renders (id, index) text
  files_eq : written.files = filesOf pieces
  files_nodup : (filesOf pieces).Nodup
  mem_files_iff : ∀ id, id ∈ filesOf pieces ↔ id ∈ files
  verbatim : ∀ id text, (id, Piece.verbatim text) ∈ pieces →
    ∃ module, registry.module? id = some module ∧ text = module.text

theorem records_nothing (registry : Registry) :
    Records registry .nothing [] [] [] := by
  refine ⟨?_, List.nodup_nil, ?_, ?_, ?_, ?_, rfl, List.nodup_nil, ?_, ?_⟩ <;>
    simp [nothing, segmentsOf, filesOf]

section Step

variable {registry : Registry} {written : Written} {pieces : List (Nat × Piece)}
variable {selected : List (Nat × Nat)} {files : List Nat}

/-- A segment that was marked before is selected without effect. -/
theorem Records.again
    (records : Records registry written pieces selected files)
    {entry : Nat × Nat} (marked : entry ∈ written.segments) :
    Records registry written pieces (selected ++ [entry]) files := by
  have earlier := (records.mem_segments_iff entry).mp marked
  refine { records with mem_segments_iff := ?_, subset := ?_, covered := ?_ }
  · intro other
    rw [records.mem_segments_iff, List.mem_append, List.mem_singleton]
    constructor
    · exact Or.inl
    · rintro (member | rfl)
      · exact member
      · exact earlier
  · intro other member
    exact List.mem_append_left _ (records.subset other member)
  · intro other member
    have selectedBefore : other ∈ selected := by
      rcases List.mem_append.mp member with before | same
      · exact before
      · rw [List.mem_singleton.mp same]
        exact earlier
    rcases records.covered other selectedBefore with present | repeated
    · exact Or.inl present
    · exact Or.inr (by simpa using repeated.append [entry] [])

/-- A segment is marked without being written if its text stands there already. -/
theorem Records.skip
    (records : Records registry written pieces selected files)
    {entry : Nat × Nat} {line : Text}
    (fresh : entry ∉ written.segments)
    (repeated : line ∈ written.lines)
    (visible : line.getLast? ≠ some '\n')
    (imports : registry.LibraryImport entry line) :
    Records registry { written with segments := written.segments ++ [entry] } pieces
      (selected ++ [entry]) files := by
  have notSelected : entry ∉ selected := by
    rw [← records.mem_segments_iff]
    exact fresh
  refine { records with mem_segments_iff := ?_, subset := ?_, covered := ?_ }
  · intro other
    simp only [List.mem_append, records.mem_segments_iff]
  · intro other member
    exact List.mem_append_left _ (records.subset other member)
  · intro other member
    rcases List.mem_append.mp member with before | same
    · rcases records.covered other before with present | again
      · exact Or.inl present
      · exact Or.inr (by simpa using again.append [entry] [])
    · rw [List.mem_singleton.mp same]
      rcases records.lines line repeated with ended | ⟨twin, twinWritten, twinLine⟩
      · exact absurd ended visible
      · exact Or.inr ⟨selected, [], twin, line, rfl, notSelected,
          records.subset twin twinWritten, twinWritten, twinLine, imports⟩

/-- A segment is marked and written; its line may be noted if it is an import. -/
theorem Records.write
    (records : Records registry written pieces selected files)
    {id index : Nat} {text : Text} (noted : List Text)
    (fresh : (id, index) ∉ written.segments)
    (renders : registry.Renders (id, index) text)
    (imports : ∀ line ∈ noted, registry.LibraryImport (id, index) line) :
    Records registry
      { written with
        segments := written.segments ++ [(id, index)]
        lines := written.lines ++ noted }
      (pieces ++ [(id, .segment index text)]) (selected ++ [(id, index)]) files := by
  have notSelected : (id, index) ∉ selected := by
    rw [← records.mem_segments_iff]
    exact fresh
  have more :
      segmentsOf (pieces ++ [(id, .segment index text)]) =
        segmentsOf pieces ++ [(id, index)] := by
    rw [segmentsOf_append]
    rfl
  have sameFiles :
      filesOf (pieces ++ [(id, .segment index text)]) = filesOf pieces := by
    rw [filesOf_append]
    exact List.append_nil _
  refine ⟨?_, ?_, ?_, ?_, ?_, ?_, ?_, ?_, ?_, ?_⟩
  · intro other
    simp only [List.mem_append, records.mem_segments_iff]
  · rw [more]
    refine records.nodup.append (List.nodup_singleton _) ?_
    intro other member same
    rw [List.mem_singleton.mp same] at member
    exact notSelected (records.subset _ member)
  · intro other member
    rw [more] at member
    rcases List.mem_append.mp member with before | same
    · exact List.mem_append_left _ (records.subset other before)
    · exact List.mem_append_right _ same
  · intro other member
    rw [more]
    rcases List.mem_append.mp member with before | same
    · rcases records.covered other before with present | repeated
      · exact Or.inl (List.mem_append_left _ present)
      · exact Or.inr (repeated.append _ _)
    · exact Or.inl (List.mem_append_right _ same)
  · intro line member
    rw [more]
    rcases List.mem_append.mp member with before | added
    · rcases records.lines line before with ended | ⟨twin, present, twinLine⟩
      · exact Or.inl ended
      · exact Or.inr ⟨twin, List.mem_append_left _ present, twinLine⟩
    · exact Or.inr ⟨(id, index), List.mem_append_right _ (List.mem_singleton_self _),
        imports line added⟩
  · intro otherId otherIndex otherText member
    rcases List.mem_append.mp member with before | same
    · exact records.rendered otherId otherIndex otherText before
    · simp only [List.mem_singleton, Prod.mk.injEq, Piece.segment.injEq] at same
      obtain ⟨rfl, rfl, rfl⟩ := same
      exact renders
  · rw [sameFiles]
    exact records.files_eq
  · rw [sameFiles]
    exact records.files_nodup
  · rw [sameFiles]
    exact records.mem_files_iff
  · intro otherId otherText member
    rcases List.mem_append.mp member with before | same
    · exact records.verbatim otherId otherText before
    · simp at same

/-- Assignments and what follows the last segment leave everything else as it is. -/
theorem Records.append_other
    (records : Records registry written pieces selected files)
    (more : List (Nat × Piece)) (noted : List Text)
    (noSegments : segmentsOf more = []) (noFiles : filesOf more = [])
    (ended : ∀ line ∈ noted, line.getLast? = some '\n') :
    Records registry { written with lines := written.lines ++ noted } (pieces ++ more)
      selected files := by
  have sameSegments : segmentsOf (pieces ++ more) = segmentsOf pieces := by
    rw [segmentsOf_append, noSegments, List.append_nil]
  have sameFiles : filesOf (pieces ++ more) = filesOf pieces := by
    rw [filesOf_append, noFiles, List.append_nil]
  refine ⟨records.mem_segments_iff, ?_, ?_, ?_, ?_, ?_, ?_, ?_, ?_, ?_⟩
  · rw [sameSegments]
    exact records.nodup
  · rw [sameSegments]
    exact records.subset
  · rw [sameSegments]
    exact records.covered
  · intro line member
    rw [sameSegments]
    rcases List.mem_append.mp member with before | added
    · exact records.lines line before
    · exact Or.inl (ended line added)
  · intro id index text member
    rcases List.mem_append.mp member with before | added
    · exact records.rendered id index text before
    · have segment : (id, index) ∈ segmentsOf more :=
        List.mem_filterMap.mpr ⟨_, added, rfl⟩
      rw [noSegments] at segment
      simp at segment
  · rw [sameFiles]
    exact records.files_eq
  · rw [sameFiles]
    exact records.files_nodup
  · rw [sameFiles]
    exact records.mem_files_iff
  · intro id text member
    rcases List.mem_append.mp member with before | added
    · exact records.verbatim id text before
    · have file : id ∈ filesOf more := List.mem_filterMap.mpr ⟨_, added, rfl⟩
      rw [noFiles] at file
      simp at file

/-- A file that is taken whole is written the first time. -/
theorem Records.takeWhole
    (records : Records registry written pieces selected files)
    {id : Nat} {module : Module} (found : registry.module? id = some module)
    (fresh : id ∉ written.files) :
    Records registry { written with files := written.files ++ [id] }
      (pieces ++ [(id, .verbatim module.text)]) selected (files ++ [id]) := by
  have sameSegments :
      segmentsOf (pieces ++ [(id, .verbatim module.text)]) = segmentsOf pieces := by
    rw [segmentsOf_append]
    exact List.append_nil _
  have moreFiles :
      filesOf (pieces ++ [(id, .verbatim module.text)]) = filesOf pieces ++ [id] := by
    rw [filesOf_append]
    rfl
  refine ⟨records.mem_segments_iff, ?_, ?_, ?_, ?_, ?_, ?_, ?_, ?_, ?_⟩
  · rw [sameSegments]
    exact records.nodup
  · rw [sameSegments]
    exact records.subset
  · rw [sameSegments]
    exact records.covered
  · rw [sameSegments]
    exact records.lines
  · intro otherId index text member
    rcases List.mem_append.mp member with before | added
    · exact records.rendered otherId index text before
    · simp at added
  · rw [moreFiles, records.files_eq]
  · rw [moreFiles]
    refine records.files_nodup.append (List.nodup_singleton _) ?_
    intro other member same
    rw [List.mem_singleton.mp same, ← records.files_eq] at member
    exact fresh member
  · intro other
    rw [moreFiles, List.mem_append, List.mem_append, records.mem_files_iff]
  · intro otherId text member
    rcases List.mem_append.mp member with before | added
    · exact records.verbatim otherId text before
    · simp only [List.mem_singleton, Prod.mk.injEq, Piece.verbatim.injEq] at added
      exact ⟨module, added.1 ▸ found, added.2⟩

theorem Records.takeWhole_again
    (records : Records registry written pieces selected files)
    {id : Nat} (marked : id ∈ written.files) :
    Records registry written pieces selected (files ++ [id]) := by
  refine { records with mem_files_iff := ?_ }
  intro other
  rw [records.mem_files_iff, List.mem_append, List.mem_singleton]
  constructor
  · exact Or.inl
  · rintro (member | rfl)
    · exact member
    · rw [← records.mem_files_iff, ← records.files_eq]
      exact marked

end Step

/-! ## What is written for a request -/

section Request

variable {registry : Registry} {module : Module} {source : ParsedSource}

theorem records_addSegment
    {written : Written} {pieces : List (Nat × Piece)}
    {selected : List (Nat × Nat)} {files : List Nat}
    (found : registry.module? module.id = some module)
    (analysed : module.parsed = some source)
    (records : Records registry written pieces selected files) (index : Nat) :
    Records registry (written.addSegment module source index).1
      (pieces ++ (written.addSegment module source index).2.map (module.id, ·))
      (selected ++ [(module.id, index)]) files := by
  have renders :
      registry.Renders (module.id, index) (source.renderAt module.edit index) :=
    ⟨module, source, found, analysed, rfl⟩
  unfold addSegment
  by_cases marked : (module.id, index) ∈ written.segments
  · rw [if_pos marked]
    simpa using records.again marked
  · rw [if_neg marked]
    dsimp only
    split
    next once =>
      simp only [Bool.and_eq_true, Bool.not_eq_true', List.all_eq_true,
        beq_iff_eq] at once
      obtain ⟨⟨library, importsOnly⟩, visible⟩ := once
      have imports :
          registry.LibraryImport (module.id, index)
            (Text.trim (source.renderAt module.edit index)) :=
        ⟨module, source, found, analysed, library, importsOnly, visible, rfl⟩
      unfold addLine
      split
      next repeated =>
        simp only [List.any_eq_true, decide_eq_true_eq] at repeated
        obtain ⟨line, lineMember, rfl⟩ := repeated
        have notEnded :
            (Text.trim (source.renderAt module.edit index)).getLast? ≠ some '\n' :=
          Text.getLast?_trim_ne _ (by decide)
        simpa using records.skip marked lineMember notEnded imports
      next =>
        refine records.write [_] marked renders ?_
        intro line member
        rw [List.mem_singleton.mp member]
        exact imports
    next =>
      have written' := records.write [] marked renders (by simp)
      simpa using written'

theorem records_addSegments
    (found : registry.module? module.id = some module)
    (analysed : module.parsed = some source) :
    ∀ (indices : List Nat) {written : Written} {pieces : List (Nat × Piece)}
      {selected : List (Nat × Nat)} {files : List Nat},
      Records registry written pieces selected files →
      Records registry (addSegments module source written indices).1
        (pieces ++ (addSegments module source written indices).2.map (module.id, ·))
        (selected ++ indices.map (module.id, ·)) files
  | [], _, _, _, _, records => by
      simpa [addSegments] using records
  | index :: indices, _, _, _, _, records => by
      have first := records_addSegment found analysed records index
      have rest := records_addSegments found analysed indices first
      simpa [addSegments] using rest

theorem records_addAssignments
    (id : Nat) :
    ∀ (names : List ImportedName) {written : Written} {pieces : List (Nat × Piece)}
      {selected : List (Nat × Nat)} {files : List Nat},
      Records registry written pieces selected files →
      Records registry (addAssignments written names).1
        (pieces ++ (addAssignments written names).2.map (id, ·)) selected files
  | [], _, _, _, _, records => by
      simpa [addAssignments] using records
  | name :: names, written, pieces, selected, files, records => by
      unfold addAssignments
      split
      next => exact records_addAssignments id names records
      next line assigned =>
        have first :
            Records registry (written.addLine line (.assignment line)).1
              (pieces ++ (written.addLine line (.assignment line)).2.map (id, ·))
              selected files := by
          unfold addLine
          split
          next => simpa using records
          next =>
            have appended := records.append_other [(id, .assignment line)] [line] rfl rfl
              (by simpa using name.getLast?_assignment assigned)
            simpa using appended
        have rest := records_addAssignments id names first
        simpa using rest

theorem records_addRest
    {written : Written} {pieces : List (Nat × Piece)}
    {selected : List (Nat × Nat)} {files : List Nat}
    (source : ParsedSource) (id : Nat) (request : Request)
    (records : Records registry written pieces selected files) :
    Records registry (request.addRest source written).1
      (pieces ++ (request.addRest source written).2.map (id, ·)) selected files := by
  cases request with
  | main =>
      have appended :=
        records.append_other [(id, .trailing source.trailingText)] [] rfl rfl (by simp)
      simpa [Request.addRest] using appended
  | whole => simpa [Request.addRest] using records
  | names imported => exact records_addAssignments id imported records

theorem records_addPieces
    {written : Written} {pieces : List (Nat × Piece)}
    {selected : List (Nat × Nat)} {files : List Nat}
    (setting : Setting) (found : registry.module? module.id = some module)
    (request : Request) (records : Records registry written pieces selected files) :
    Records registry
      (written.addPieces module request setting.config.symbolPolicy).1
      (pieces ++
        (written.addPieces module request setting.config.symbolPolicy).2.map (module.id, ·))
      (selected ++ setting.selectedBy module request)
      (files ++ Setting.takenWhole module) := by
  unfold addPieces Setting.selectedBy Setting.takenWhole
  cases analysed : module.parsed with
  | none =>
      dsimp only
      by_cases marked : module.id ∈ written.files
      · rw [if_pos marked]
        simpa using records.takeWhole_again marked
      · rw [if_neg marked]
        simpa using records.takeWhole found marked
  | some source =>
      have segments := records_addSegments found analysed
        (request.selection source setting.config.symbolPolicy).segments records
      have rest := records_addRest source module.id request segments
      simpa using rest

end Request

end Written

/-! ## What is written in the course of events -/

namespace Setting

/-- The output after one more event. -/
def outputStep (setting : Setting) (registry : Registry) (output : Output) (event : Event) :
    Output :=
  match event with
  | .remark _ => output
  | .serve id request =>
      match registry.module? id with
      | some module => output.serve setting.config.symbolPolicy module request
      | none => output

theorem output_append
    (setting : Setting) (registry : Registry) (events : List Event) (event : Event) :
    setting.output registry (events ++ [event]) =
      setting.outputStep registry (setting.output registry events) event := by
  unfold output
  rw [List.foldl_append]
  rfl

/-- The output written in the course of events holds every segment selected, except repeated
imports, once, and every file taken whole once. -/
theorem records_output
    (setting : Setting) (registry : Registry)
    (numbered : ∀ id module, registry.module? id = some module → module.id = id)
    (events : List Event) :
    Written.Records registry (setting.output registry events).written
      (setting.output registry events).pieces
      (setting.selected registry events) (takenFiles registry events) := by
  induction events using List.reverseRecOn with
  | nil => exact Written.records_nothing registry
  | append_singleton events event inductionHypothesis =>
      rw [output_append]
      simp only [selected, takenFiles, List.flatMap_append, List.flatMap_cons,
        List.flatMap_nil, List.append_nil] at inductionHypothesis ⊢
      cases event with
      | remark remark => simpa [outputStep] using inductionHypothesis
      | serve id request =>
          cases found : registry.module? id with
          | none => simpa [outputStep, found] using inductionHypothesis
          | some module =>
              have sameNumber := numbered id module found
              have served := Written.records_addPieces setting (sameNumber.symm ▸ found)
                request inductionHypothesis
              simpa [outputStep, found, Output.serve, Output.pieces] using served

/-- A segment is selected only by requests that are served from its module. -/
theorem not_mem_selected
    {setting : Setting}
    {registry : Registry}
    {events : List Event}
    {id : Nat}
    (numbered : ∀ id module, registry.module? id = some module → module.id = id)
    (notServed : ∀ request, .serve id request ∉ events)
    (index : Nat) :
    (id, index) ∉ setting.selected registry events := by
  intro member
  obtain ⟨event, eventMember, taken⟩ := List.mem_flatMap.mp member
  cases event with
  | remark remark => simp at taken
  | serve other request =>
      dsimp only at taken
      split at taken
      next module found =>
        unfold selectedBy at taken
        split at taken
        next => simp at taken
        next source parsed =>
          obtain ⟨_, _, same⟩ := List.mem_map.mp taken
          have isServed : other = id := by
            rw [← numbered other module found]
            exact congrArg Prod.fst same
          exact notServed request (isServed ▸ eventMember)
      next => simp at taken

theorem chunks_output_isPrefix_append
    (setting : Setting)
    (registry : Registry)
    (events later : List Event) :
    (setting.output registry events).chunks <+:
      (setting.output registry (events ++ later)).chunks := by
  induction later using List.reverseRecOn with
  | nil => rw [List.append_nil]
  | append_singleton later event inductionHypothesis =>
      refine inductionHypothesis.trans ?_
      rw [← List.append_assoc, output_append]
      unfold outputStep
      split
      next => exact List.prefix_rfl
      next id request =>
        split
        next module found => exact List.prefix_append _ _
        next => exact List.prefix_rfl

end Setting

end Inliner
