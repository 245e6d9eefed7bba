import Inliner.Proofs.Merge.Edits
import Inliner.Proofs.Merge.SingleInclusion
import Inliner.Proofs.Selection.DependencyClosure
import Inliner.Proofs.Walk.Bounded
import Inliner.Proofs.Walk.Reads

/-!
# Names that are imported under other names

Such an import asks for an assignment behind what it takes from its module.  Assignments are told
apart by their text alone, so each of them is written at the first request that asks for it.  It
stands behind a definition if the definition has been selected by then, which a request to another
module with a definition of the same name can prevent.
-/

namespace Inliner

/-! ## Assignments among pieces -/

/-- The assignments among some pieces. -/
def assignmentsOf (pieces : List (Nat × Piece)) : List Text :=
  pieces.filterMap fun entry =>
    match entry.2 with
    | .assignment line => some line
    | .segment _ _ | .trailing _ | .verbatim _ => none

/-- A segment stands among some pieces, and an assignment behind it. -/
def WrittenAfter (pieces : List (Nat × Piece)) (entry : Nat × Nat) (line : Text) : Prop :=
  ∃ before after,
    pieces = before ++ after ∧ entry ∈ segmentsOf before ∧ line ∈ assignmentsOf after

theorem assignmentsOf_append (first second : List (Nat × Piece)) :
    assignmentsOf (first ++ second) = assignmentsOf first ++ assignmentsOf second :=
  List.filterMap_append

theorem assignmentsOf_segments
    (id : Nat)
    {pieces : List Piece}
    (segments : ∀ piece ∈ pieces, ∃ index text, piece = .segment index text) :
    assignmentsOf (pieces.map (id, ·)) = [] := by
  rw [assignmentsOf, List.filterMap_eq_nil_iff]
  intro entry member
  obtain ⟨piece, written, rfl⟩ := List.mem_map.mp member
  obtain ⟨index, text, rfl⟩ := segments piece written
  rfl

theorem segmentsOf_eq_nil
    (id : Nat)
    {pieces : List Piece}
    (other : ∀ piece ∈ pieces, piece.segment? = none) :
    segmentsOf (pieces.map (id, ·)) = [] := by
  rw [segmentsOf, List.filterMap_eq_nil_iff]
  intro entry member
  obtain ⟨piece, written, rfl⟩ := List.mem_map.mp member
  rw [other piece written]
  rfl

/-! ## What a request asks for -/

/-- The assignments that a request asks for. -/
def Request.assignments : Request → List Text
  | .names imported => imported.filterMap (·.assignment?)
  | .main | .whole => []

namespace Registry

/-- The assignments that the requests served from analysed modules in the course of some events ask
for, in order. -/
def assigned (registry : Registry) (events : List Event) : List Text :=
  events.flatMap fun event =>
    match event with
    | .remark _ => []
    | .serve id request =>
        match registry.module? id with
        | some module => if module.isVerbatim then [] else request.assignments
        | none => []

/-- A request for some names is served from an analysed module. -/
def ServesNames (registry : Registry) (events : List Event) (id : Nat)
    (imported : List ImportedName) (source : ParsedSource) : Prop :=
  .serve id (.names imported) ∈ events ∧
    ∃ module, registry.module? id = some module ∧ module.parsed = some source

theorem ServesNames.mono
    {registry : Registry}
    {events more : List Event}
    {id : Nat}
    {imported : List ImportedName}
    {source : ParsedSource}
    (serves : registry.ServesNames events id imported source)
    (subset : events ⊆ more) :
    registry.ServesNames more id imported source :=
  ⟨subset serves.1, serves.2⟩

theorem mem_assigned_iff
    {registry : Registry}
    {events : List Event}
    {line : Text} :
    line ∈ registry.assigned events ↔
      ∃ id imported source, registry.ServesNames events id imported source ∧
        ∃ name ∈ imported, name.assignment? = some line := by
  constructor
  · intro asked
    obtain ⟨event, member, here⟩ := List.mem_flatMap.mp asked
    cases event with
    | remark remark => cases here
    | serve id request =>
        dsimp only at here
        split at here
        next module found =>
          split at here
          next => cases here
          next analysed =>
            obtain ⟨source, parsed⟩ := Option.ne_none_iff_exists'.mp
              (fun unknown => analysed (Option.isNone_iff_eq_none.mpr unknown))
            cases request with
            | main => cases here
            | whole => cases here
            | names imported =>
                exact ⟨id, imported, source, ⟨member, module, found, parsed⟩,
                  List.mem_filterMap.mp here⟩
        next => cases here
  · intro asks
    obtain ⟨id, imported, source, ⟨member, module, found, parsed⟩, asking⟩ := asks
    refine List.mem_flatMap.mpr ⟨_, member, ?_⟩
    have analysed : module.isVerbatim = false := by
      rw [Module.isVerbatim, parsed]
      rfl
    dsimp only
    rw [found]
    dsimp only
    rw [analysed]
    exact List.mem_filterMap.mpr asking

end Registry

/-! ## What is written for a request -/

namespace Written

variable {written : Written} {module : Module} {source : ParsedSource}

/-- Writing a segment either finds it marked, or marks it and writes it or nothing.  A line that is
noted is the visible text of an import, and not a whole line. -/
theorem addSegment_cases
    (written : Written)
    (module : Module)
    (source : ParsedSource)
    (index : Nat) :
    written.addSegment module source index = (written, []) ∨
      (module.id, index) ∉ written.segments ∧
        ∃ noted pieces,
          written.addSegment module source index =
              ({ written with
                  segments := written.segments ++ [(module.id, index)]
                  lines := written.lines ++ noted }, pieces) ∧
            (∀ line ∈ noted, line.getLast? ≠ some '\n') ∧
            ∀ piece ∈ pieces, ∃ text, piece = .segment index text := by
  unfold addSegment
  by_cases marked : (module.id, index) ∈ written.segments
  · rw [if_pos marked]
    exact Or.inl rfl
  · rw [if_neg marked]
    refine Or.inr ⟨marked, ?_⟩
    dsimp only
    split
    next =>
      unfold addLine
      split
      next => exact ⟨[], [], by rw [List.append_nil], by simp, by simp⟩
      next =>
        refine ⟨[_], [_], rfl, ?_, ?_⟩
        · intro line noted
          rw [List.mem_singleton.mp noted]
          exact Text.getLast?_trim_ne _ (by decide)
        · intro piece member
          exact ⟨_, List.mem_singleton.mp member⟩
    next =>
      refine ⟨[], [_], by rw [List.append_nil], by simp, ?_⟩
      intro piece member
      exact ⟨_, List.mem_singleton.mp member⟩

/-- Writing segments writes some that have not been marked, and notes no whole line. -/
theorem addSegments_spec
    (written : Written)
    (module : Module)
    (source : ParsedSource)
    (indices : List Nat) :
    (∀ line, line.getLast? = some '\n' →
      (line ∈ (addSegments module source written indices).1.lines ↔ line ∈ written.lines)) ∧
      ∀ piece ∈ (addSegments module source written indices).2,
        ∃ index text, piece = .segment index text ∧ (module.id, index) ∉ written.segments := by
  induction indices generalizing written with
  | nil => exact ⟨fun _ _ => Iff.rfl, fun _ impossible => nomatch impossible⟩
  | cons index indices inductionHypothesis =>
      rw [addSegments]
      rcases written.addSegment_cases module source index with
        again | ⟨fresh, noted, pieces, first, notWhole, segments⟩
      · rw [again]
        exact inductionHypothesis written
      · rw [first]
        dsimp only
        obtain ⟨sameLines, others⟩ := inductionHypothesis
          { written with
            segments := written.segments ++ [(module.id, index)]
            lines := written.lines ++ noted }
        refine ⟨?_, ?_⟩
        · intro line whole
          rw [sameLines line whole, List.mem_append]
          refine or_iff_left ?_
          intro inNoted
          exact notWhole line inNoted whole
        · intro piece member
          rcases List.mem_append.mp member with here | later
          · obtain ⟨text, rfl⟩ := segments piece here
            exact ⟨index, text, rfl, fresh⟩
          · obtain ⟨other, text, rfl, unmarked⟩ := others piece later
            exact ⟨other, text, rfl, fun marked => unmarked (List.mem_append_left _ marked)⟩

theorem exists_of_mem_addAssignments
    {names : List ImportedName}
    {piece : Piece}
    (member : piece ∈ (addAssignments written names).2) :
    ∃ line, piece = .assignment line := by
  induction names generalizing written with
  | nil => cases member
  | cons name names inductionHypothesis =>
      rw [addAssignments] at member
      split at member
      next => exact inductionHypothesis member
      next line assigned =>
        rcases List.mem_append.mp member with here | later
        · unfold addLine at here
          split at here
          · cases here
          · exact ⟨line, List.mem_singleton.mp here⟩
        · exact inductionHypothesis later

/-- The lines that have been noted, and the assignments that have been written, are those asked for
so far. -/
structure Assigns (written : Written) (pieces : List (Nat × Piece)) (asked : List Text) :
    Prop where
  noted_iff : ∀ line, line.getLast? = some '\n' → (line ∈ written.lines ↔ line ∈ asked)
  assignments_eq : assignmentsOf pieces = asked.eraseDups

namespace Assigns

variable {pieces more : List (Nat × Piece)} {asked : List Text}

/-- Nothing changes where no whole line is noted and no assignment is written. -/
theorem unchanged
    {after : Written}
    (assigns : written.Assigns pieces asked)
    (sameLines : ∀ line, line.getLast? = some '\n' →
      (line ∈ after.lines ↔ line ∈ written.lines))
    (noAssignments : assignmentsOf more = []) :
    after.Assigns (pieces ++ more) asked where
  noted_iff line whole := (sameLines line whole).trans (assigns.noted_iff line whole)
  assignments_eq := by
    rw [assignmentsOf_append, noAssignments, List.append_nil, assigns.assignments_eq]

theorem addLine
    (assigns : written.Assigns pieces asked)
    (id : Nat)
    {line : Text}
    (whole : line.getLast? = some '\n') :
    (written.addLine line (.assignment line)).1.Assigns
      (pieces ++ (written.addLine line (.assignment line)).2.map (id, ·)) (asked ++ [line]) := by
  unfold Written.addLine
  by_cases noted : line ∈ written.lines
  · have known : line ∈ asked := (assigns.noted_iff line whole).mp noted
    rw [if_pos (by simpa using noted), List.map_nil, List.append_nil]
    refine ⟨?_, ?_⟩
    · intro other otherWhole
      rw [assigns.noted_iff other otherWhole, List.mem_append, List.mem_singleton]
      refine (or_iff_left_of_imp ?_).symm
      rintro rfl
      exact known
    · rw [assigns.assignments_eq, eraseDups_concat, if_pos known]
  · have unknown : line ∉ asked := fun known => noted ((assigns.noted_iff line whole).mpr known)
    rw [if_neg (by simpa using noted)]
    refine ⟨?_, ?_⟩
    · intro other otherWhole
      rw [List.mem_append, List.mem_append, assigns.noted_iff other otherWhole]
    · rw [assignmentsOf_append, assigns.assignments_eq, eraseDups_concat, if_neg unknown]
      simp [assignmentsOf]

theorem addAssignments
    (assigns : written.Assigns pieces asked)
    (id : Nat)
    (names : List ImportedName) :
    (Written.addAssignments written names).1.Assigns
      (pieces ++ (Written.addAssignments written names).2.map (id, ·))
      (asked ++ names.filterMap (·.assignment?)) := by
  induction names generalizing written pieces asked with
  | nil => simpa [Written.addAssignments] using assigns
  | cons name names inductionHypothesis =>
      rw [Written.addAssignments]
      cases assigned : name.assignment? with
      | none => simpa [assigned] using inductionHypothesis assigns
      | some line =>
          have first := assigns.addLine id (ImportedName.getLast?_assignment assigned)
          have rest := inductionHypothesis first
          simpa [assigned] using rest

theorem addPieces
    (assigns : written.Assigns pieces asked)
    (module : Module)
    (request : Request)
    (policy : SymbolPolicy) :
    (written.addPieces module request policy).1.Assigns
      (pieces ++ (written.addPieces module request policy).2.map (module.id, ·))
      (asked ++ if module.isVerbatim then [] else request.assignments) := by
  unfold Written.addPieces Module.isVerbatim
  cases parsed : module.parsed with
  | none =>
      simp only [Option.isNone_none, ↓reduceIte, List.append_nil]
      split
      · exact assigns.unchanged (fun _ _ => Iff.rfl) rfl
      · exact assigns.unchanged (fun _ _ => Iff.rfl) rfl
  | some source =>
      obtain ⟨sameLines, segments⟩ := addSegments_spec written module source
        (request.selection source policy).segments
      have noAssignments :
          assignmentsOf
            ((addSegments module source written
              (request.selection source policy).segments).2.map (module.id, ·)) = [] := by
        apply assignmentsOf_segments
        intro piece member
        obtain ⟨index, text, isSegment, _⟩ := segments piece member
        exact ⟨index, text, isSegment⟩
      have first := assigns.unchanged sameLines noAssignments
      dsimp only
      rw [List.map_append, ← List.append_assoc]
      cases request with
      | main =>
          simp only [Request.assignments, Option.isNone_some, Bool.false_eq_true, ↓reduceIte,
            List.append_nil]
          exact first.unchanged (fun _ _ => Iff.rfl) rfl
      | whole =>
          simp only [Request.assignments, Option.isNone_some, Bool.false_eq_true, ↓reduceIte,
            List.append_nil]
          exact first.unchanged (fun _ _ => Iff.rfl) rfl
      | names imported => exact first.addAssignments module.id imported

end Assigns

/-- The segments that a request has written come first, and none of them has been marked. -/
theorem exists_addPieces
    (written : Written)
    (module : Module)
    (request : Request)
    (policy : SymbolPolicy) :
    ∃ segments rest,
      (written.addPieces module request policy).2 = segments ++ rest ∧
        (∀ piece ∈ segments,
          ∃ index text, piece = .segment index text ∧ (module.id, index) ∉ written.segments) ∧
        ∀ piece ∈ rest, piece.segment? = none := by
  unfold addPieces
  cases module.parsed with
  | none =>
      refine ⟨[], _, rfl, (fun _ impossible => nomatch impossible), ?_⟩
      intro piece member
      dsimp only at member
      split at member
      · cases member
      · rw [List.mem_singleton.mp member]
        rfl
  | some source =>
      obtain ⟨_, segments⟩ := addSegments_spec written module source
        (request.selection source policy).segments
      refine ⟨_, _, rfl, segments, ?_⟩
      intro piece member
      cases request with
      | main =>
          rw [List.mem_singleton.mp member]
          rfl
      | whole => cases member
      | names imported =>
          obtain ⟨line, rfl⟩ := exists_of_mem_addAssignments member
          rfl

end Written

/-! ## What is written in the course of events -/

namespace Setting

variable {setting : Setting} {registry : Registry} {events : List Event}

theorem pieces_serve
    (output : Output)
    (policy : SymbolPolicy)
    (module : Module)
    (request : Request) :
    (output.serve policy module request).pieces =
      output.pieces ++ (output.written.addPieces module request policy).2.map (module.id, ·) := by
  simp [Output.serve, Output.pieces]

/-- The assignments written are those asked for, each once and in the order in which they are first
asked for. -/
theorem assigns_output
    (setting : Setting)
    (registry : Registry)
    (events : List Event) :
    (setting.output registry events).written.Assigns (setting.output registry events).pieces
      (registry.assigned events) := by
  induction events using List.reverseRecOn with
  | nil => exact ⟨fun _ _ => Iff.rfl, rfl⟩
  | append_singleton events event inductionHypothesis =>
      rw [output_append]
      simp only [Registry.assigned, List.flatMap_append, List.flatMap_singleton]
        at inductionHypothesis ⊢
      cases event with
      | remark remark => simpa [outputStep] using inductionHypothesis
      | serve id request =>
          cases found : registry.module? id with
          | none => simpa [outputStep, found] using inductionHypothesis
          | some module =>
              simp only [outputStep, found]
              rw [pieces_serve]
              exact inductionHypothesis.addPieces module request _

/-- An event adds some segments that have not been marked, and other pieces behind them. -/
theorem exists_pieces_output
    (setting : Setting)
    (registry : Registry)
    (events : List Event)
    (event : Event) :
    ∃ segments rest,
      (setting.output registry (events ++ [event])).pieces =
          (setting.output registry events).pieces ++ segments ++ rest ∧
        assignmentsOf segments = [] ∧
        segmentsOf rest = [] ∧
        ∀ entry ∈ segmentsOf segments,
          entry ∉ (setting.output registry events).written.segments := by
  rw [output_append]
  have nothing : ∃ segments rest,
      (setting.output registry events).pieces =
          (setting.output registry events).pieces ++ segments ++ rest ∧
        assignmentsOf segments = [] ∧
        segmentsOf rest = [] ∧
        ∀ entry ∈ segmentsOf segments,
          entry ∉ (setting.output registry events).written.segments :=
    ⟨[], [], by simp, rfl, rfl, fun _ impossible => nomatch impossible⟩
  cases event with
  | remark remark => exact nothing
  | serve id request =>
      cases found : registry.module? id with
      | none => simpa only [outputStep, found] using nothing
      | some module =>
          obtain ⟨segments, rest, split, fresh, others⟩ :=
            (setting.output registry events).written.exists_addPieces module request
              setting.config.symbolPolicy
          refine ⟨segments.map (module.id, ·), rest.map (module.id, ·), ?_, ?_,
            segmentsOf_eq_nil module.id others, ?_⟩
          · simp only [outputStep, found]
            rw [pieces_serve, split, List.map_append, List.append_assoc]
          · apply assignmentsOf_segments
            intro piece member
            obtain ⟨index, text, isSegment, _⟩ := fresh piece member
            exact ⟨index, text, isSegment⟩
          · intro entry member
            obtain ⟨⟨number, piece⟩, inSegments, isEntry⟩ := List.mem_filterMap.mp member
            obtain ⟨_, pieceMember, same⟩ := List.mem_map.mp inSegments
            obtain ⟨rfl, rfl⟩ := Prod.mk.inj same
            obtain ⟨index, text, rfl, unmarked⟩ := fresh _ pieceMember
            obtain rfl : (module.id, index) = entry := Option.some.inj isEntry
            exact unmarked

theorem exists_pieces_output_append
    (setting : Setting)
    (registry : Registry)
    (events later : List Event) :
    ∃ more, (setting.output registry (events ++ later)).pieces =
      (setting.output registry events).pieces ++ more := by
  obtain ⟨more, chunks⟩ := chunks_output_isPrefix_append setting registry events later
  refine ⟨more.flatMap fun chunk => chunk.pieces.map (chunk.module, ·), ?_⟩
  rw [Output.pieces, ← chunks, List.flatMap_append]
  rfl

theorem selected_append
    (setting : Setting)
    (registry : Registry)
    (events later : List Event) :
    setting.selected registry (events ++ later) =
      setting.selected registry events ++ setting.selected registry later :=
  List.flatMap_append

/-- A segment that has been selected is not written later. -/
theorem mem_segmentsOf_of_selected
    (numbered : ∀ id module, registry.module? id = some module → module.id = id)
    {entry : Nat × Nat}
    (selected : entry ∈ setting.selected registry events)
    {later : List Event}
    (written : entry ∈ segmentsOf (setting.output registry (events ++ later)).pieces) :
    entry ∈ segmentsOf (setting.output registry events).pieces := by
  induction later using List.reverseRecOn with
  | nil => rwa [List.append_nil] at written
  | append_singleton later event inductionHypothesis =>
      obtain ⟨segments, rest, pieces, _, noSegments, fresh⟩ :=
        setting.exists_pieces_output registry (events ++ later) event
      rw [← List.append_assoc, pieces, segmentsOf_append, segmentsOf_append, noSegments,
        List.append_nil] at written
      rcases List.mem_append.mp written with before | added
      · exact inductionHypothesis before
      · -- What has been selected is marked as written, also where it was left out.
        refine absurd ?_ (fresh entry added)
        rw [(setting.records_output registry numbered (events ++ later)).mem_segments_iff,
          selected_append]
        exact List.mem_append_left _ selected

/-- An assignment that is asked for at some time is asked for a first time. -/
theorem exists_first_asking
    {line : Text}
    (asked : line ∈ registry.assigned events) :
    ∃ earlier event later,
      events = earlier ++ event :: later ∧
        line ∉ registry.assigned earlier ∧
        line ∈ registry.assigned (earlier ++ [event]) := by
  induction events using List.reverseRecOn with
  | nil => cases asked
  | append_singleton events event inductionHypothesis =>
      by_cases before : line ∈ registry.assigned events
      · obtain ⟨earlier, first, later, rfl, notBefore, here⟩ := inductionHypothesis before
        exact ⟨earlier, first, later ++ [event], by simp, notBefore, here⟩
      · exact ⟨events, event, [], rfl, before, asked⟩

/-- An assignment stands behind a segment exactly if the segment has been selected whenever the
assignment has been asked for. -/
theorem writtenAfter_iff
    (numbered : ∀ id module, registry.module? id = some module → module.id = id)
    {entry : Nat × Nat}
    {line : Text}
    (written : entry ∈ segmentsOf (setting.output registry events).pieces)
    (asked : line ∈ registry.assigned events) :
    WrittenAfter (setting.output registry events).pieces entry line ↔
      ∀ earlier later, events = earlier ++ later →
        line ∈ registry.assigned earlier → entry ∈ setting.selected registry earlier := by
  constructor
  · intro after earlier later split askedEarlier
    obtain ⟨before, behind, pieces, segmentBefore, assignmentBehind⟩ := after
    obtain ⟨more, appended⟩ := exists_pieces_output_append setting registry earlier later
    have assigns := assigns_output setting registry earlier
    have assignedEarlier :
        line ∈ assignmentsOf (setting.output registry earlier).pieces := by
      rw [assigns.assignments_eq, List.mem_eraseDups]
      exact askedEarlier
    rw [split, appended] at pieces
    have once : (assignmentsOf ((setting.output registry earlier).pieces ++ more)).Nodup := by
      rw [← appended, ← split, (assigns_output setting registry events).assignments_eq]
      exact nodup_eraseDups _
    rcases List.append_eq_append_iff.mp pieces with
      ⟨between, beforeEq, moreEq⟩ | ⟨between, earlierEq, _⟩
    · -- The assignment stands in the earlier part, so it cannot stand behind the cut as well.
      rw [moreEq, assignmentsOf_append, assignmentsOf_append, List.nodup_append] at once
      exact absurd rfl (once.2.2 line assignedEarlier line
        (List.mem_append_right _ assignmentBehind))
    · apply (setting.records_output registry numbered earlier).subset
      rw [earlierEq, segmentsOf_append]
      exact List.mem_append_left _ segmentBefore
  · intro whenever
    -- The first event that asks for the assignment writes it, behind the segments it selects.
    obtain ⟨earlier, event, later, split, notBefore, here⟩ := exists_first_asking asked
    have splitHere : events = (earlier ++ [event]) ++ later := by simp [split]
    have selected := whenever (earlier ++ [event]) later splitHere here
    rw [splitHere] at written
    have segmentHere := mem_segmentsOf_of_selected numbered selected written
    obtain ⟨segments, rest, pieces, noAssignments, noSegments, _⟩ :=
      setting.exists_pieces_output registry earlier event
    have assignmentHere :
        line ∈ assignmentsOf (setting.output registry (earlier ++ [event])).pieces := by
      rw [(assigns_output setting registry _).assignments_eq, List.mem_eraseDups]
      exact here
    have notEarlier : line ∉ assignmentsOf (setting.output registry earlier).pieces := by
      rw [(assigns_output setting registry _).assignments_eq, List.mem_eraseDups]
      exact notBefore
    obtain ⟨more, appended⟩ :=
      exists_pieces_output_append setting registry (earlier ++ [event]) later
    refine ⟨(setting.output registry earlier).pieces ++ segments, rest ++ more, ?_, ?_, ?_⟩
    · rw [splitHere, appended, pieces, List.append_assoc]
    · rw [pieces, segmentsOf_append, noSegments, List.append_nil] at segmentHere
      exact segmentHere
    · rw [pieces, assignmentsOf_append, assignmentsOf_append, noAssignments, List.append_nil]
        at assignmentHere
      rw [assignmentsOf_append]
      exact List.mem_append_left _ ((List.mem_append.mp assignmentHere).resolve_left notEarlier)

end Setting

/-! ## Definitions and the requests for them -/

namespace ParsedSource

variable {source : ParsedSource} {names : List String} {policy : SymbolPolicy} {index : Nat}

/-- A segment gives a name its meaning: it is a definition of the name, or module-level code that
binds it. -/
def Defines (source : ParsedSource) (name : String) (index : Nat) : Prop :=
  source.definitionOf? index = some name ∨
    source.IsModuleCode index ∧ name ∈ source.bindsOf index

theorem exists_lastDefines_of_mem_chosen
    (chosen : index ∈ source.chosen names policy) :
    ∃ name, source.LastDefines name index := by
  have ofDependency : ∀ user, ∀ successor ∈ source.dependenciesOf user,
      ∃ name, source.LastDefines name successor := by
    intro user successor depends
    obtain ⟨_, _, name, _, last⟩ := mem_dependenciesOf_iff.mp depends
    exact ⟨name, last⟩
  have ofRequest : ∀ wanted ∈ source.requested names,
      ∃ name, source.LastDefines name wanted := by
    intro wanted request
    obtain ⟨name, _, last⟩ := mem_requested_iff.mp request
    exact ⟨name, last⟩
  cases policy with
  | exact => exact ofRequest index chosen
  | withDependencies =>
      refine of_mem_reachWithin (fun user _ => ofDependency user) ?_ chosen
      intro other start
      rcases List.mem_append.mp start with wanted | used
      · exact ofRequest other wanted
      · obtain ⟨user, _, depends⟩ := List.mem_flatMap.mp used
        exact ofDependency user other depends

/-- What defines a name and is selected for some request is selected for every request for the
name. -/
theorem mem_select_of_defines
    {name : String}
    {others : List String}
    (selected : index ∈ (source.select names policy).segments)
    (defines : source.Defines name index)
    (asked : name ∈ others) :
    index ∈ (source.select others policy).segments := by
  rw [mem_select_iff] at selected ⊢
  rcases selected with isCode | isChosen
  · exact Or.inl isCode
  · rcases defines with isDefinition | ⟨isCode, _⟩
    · obtain ⟨other, last⟩ := exists_lastDefines_of_mem_chosen isChosen
      obtain rfl : other = name := Option.some.inj (last.1.symm.trans isDefinition)
      exact Or.inr (requested_subset_chosen (mem_requested_iff.mpr ⟨other, asked, last⟩))
    · exact Or.inl isCode

/-- A definition is no import. -/
theorem not_importing_of_definitionOf?
    {name : String}
    (defines : source.definitionOf? index = some name) :
    ¬ ∀ statement ∈ source.statementsOf index, statement.kind = .importing := by
  intro importing
  unfold definitionOf? at defines
  split at defines
  next only alone =>
    have kind := importing only (by rw [alone]; exact List.mem_singleton_self only)
    rw [Statement.definitionName?, kind] at defines
    cases defines
  next => cases defines

end ParsedSource

/-! ## The place of an assignment -/

/-- Where the assignment for a name stands that a request asks an analysed module for.  Everything
is told of the pieces that the walk writes. -/
structure Setting.PlacesAssignment (setting : Setting) (walk : Walk) (id : Nat)
    (imported : List ImportedName) (source : ParsedSource) (name : String) (line : Text) :
    Prop where
  once : (assignmentsOf (setting.output walk.registry walk.events).pieces).count line = 1
  defined : ∀ index ∈ (source.select (imported.map (·.name)) setting.config.symbolPolicy).segments,
    source.definitionOf? index = some name →
      (segmentsOf (setting.output walk.registry walk.events).pieces).count (id, index) = 1
  after_iff : ∀ index,
    (id, index) ∈ segmentsOf (setting.output walk.registry walk.events).pieces →
      (WrittenAfter (setting.output walk.registry walk.events).pieces (id, index) line ↔
        ∀ earlier later, walk.events = earlier ++ later →
          line ∈ walk.registry.assigned earlier →
            (id, index) ∈ setting.selected walk.registry earlier)
  after :
    (∀ other asked otherSource, walk.registry.ServesNames walk.events other asked otherSource →
      ∀ otherName ∈ asked, otherName.assignment? = some line →
        other = id ∧ otherName.name = name) →
      ∀ index ∈ (source.select (imported.map (·.name)) setting.config.symbolPolicy).segments,
        source.Defines name index →
          (id, index) ∈ segmentsOf (setting.output walk.registry walk.events).pieces →
            WrittenAfter (setting.output walk.registry walk.events).pieces (id, index) line

namespace Setting

variable {setting : Setting} {main : Location} {walk : Walk} {id : Nat}
variable {imported : List ImportedName} {source : ParsedSource}

/-- The segments that a request for names selects are selected by the end of the events. -/
theorem mem_selected_of_servesNames
    {events : List Event}
    {registry : Registry}
    (numbered : ∀ id module, registry.module? id = some module → module.id = id)
    (serves : registry.ServesNames events id imported source)
    {index : Nat}
    (selected : index ∈
      (source.select (imported.map (·.name)) setting.config.symbolPolicy).segments) :
    (id, index) ∈ setting.selected registry events := by
  obtain ⟨member, module, found, parsed⟩ := serves
  refine List.mem_flatMap.mpr ⟨_, member, ?_⟩
  simp only [found, selectedBy, parsed, Request.selection, List.mem_map]
  exact ⟨index, selected, by rw [numbered id module found]⟩

theorem Completes.placesAssignment
    (completes : setting.Completes main walk)
    (serves : walk.registry.ServesNames walk.events id imported source)
    {name : ImportedName}
    (member : name ∈ imported)
    {line : Text}
    (assigned : name.assignment? = some line) :
    setting.PlacesAssignment walk id imported source name.name line := by
  have numbered : ∀ id module, walk.registry.module? id = some module → module.id = id :=
    fun _ _ => completes.accounted.sound.id_of_module?
  have records := setting.records_output walk.registry numbered walk.events
  have assigns := assigns_output setting walk.registry walk.events
  have asked : line ∈ walk.registry.assigned walk.events :=
    Registry.mem_assigned_iff.mpr ⟨id, imported, source, serves, name, member, assigned⟩
  refine ⟨?_, ?_, fun _ written => writtenAfter_iff numbered written asked, ?_⟩
  · rw [assigns.assignments_eq]
    exact List.count_eq_one_of_mem (nodup_eraseDups _) (List.mem_eraseDups.mpr asked)
  · intro index selected defines
    apply List.count_eq_one_of_mem records.nodup
    rcases records.covered _ (mem_selected_of_servesNames numbered serves selected) with
      written | repeated
    · exact written
    · -- Only imports are left out as repeated, and a definition is none.
      obtain ⟨_, _, _, _, _, _, _, _, _, module, other, found, parsed, _, importing, _⟩ := repeated
      obtain ⟨_, module', found', parsed'⟩ := serves
      obtain rfl := Option.some.inj (found.symm.trans found')
      obtain rfl := Option.some.inj (parsed.symm.trans parsed')
      exact absurd importing (ParsedSource.not_importing_of_definitionOf? defines)
  · intro onlyHere index selected defines written
    rw [writtenAfter_iff numbered written asked]
    intro earlier later split askedEarlier
    obtain ⟨other, otherNames, otherSource, otherServes, otherName, otherMember, otherAssigned⟩ :=
      Registry.mem_assigned_iff.mp askedEarlier
    have inEvents : walk.registry.ServesNames walk.events other otherNames otherSource := by
      apply otherServes.mono
      rw [split]
      exact List.subset_append_left earlier later
    obtain ⟨rfl, sameName⟩ := onlyHere other otherNames otherSource inEvents otherName otherMember
      otherAssigned
    obtain ⟨_, module, found, parsed⟩ := serves
    obtain ⟨_, module', found', parsed'⟩ := inEvents
    obtain rfl := Option.some.inj (found.symm.trans found')
    obtain rfl := Option.some.inj (parsed.symm.trans parsed')
    apply mem_selected_of_servesNames numbered otherServes
    apply ParsedSource.mem_select_of_defines selected defines
    rw [← sameName]
    exact List.mem_map_of_mem otherMember

end Setting

/-- In a merge that succeeds for an analysed main file, every assignment that a request asks an
analysed module for stands where `Setting.PlacesAssignment` says. -/
theorem merge_places_assignments
    {config : MergeConfig}
    {tree : FileTree}
    {file : Path}
    {remarks : List Remark}
    {outcome : Outcome}
    (merged : merge config tree file = (remarks, .ok outcome))
    (analysed : (tree.parsedAt? (tree.normalize file)).isSome = true) :
    ∃ walk text,
      Setting.Completes ⟨config, tree⟩ (tree.normalize file) walk ∧
        tree.readAt (tree.normalize file) = .ok text ∧
        outcome = Setting.outcome ⟨config, tree⟩ (tree.normalize file) text walk ∧
        ∀ id imported source,
          walk.registry.ServesNames walk.events id imported source →
            ∀ name ∈ imported, ∀ line, name.assignment? = some line →
              Setting.PlacesAssignment ⟨config, tree⟩ walk id imported source name.name line := by
  obtain ⟨_, mergedAt⟩ := mergeAt_of_merge merged
  obtain ⟨walk, text, completes, readable, given⟩ :=
    Setting.completes_of_mergeAt mergedAt analysed
  refine ⟨walk, text, completes, readable, given, ?_⟩
  intro id imported source serves name member line assigned
  exact completes.placesAssignment serves member assigned

/-- Two modules that import each other, one of which the main file and the other module import a
name from under another name. -/
def renamingTree : FileTree :=
  .ofTexts ["w"]
    [(["w", "main.py"], "from lib.b import h\nfrom lib.a import f as g\ng()\n"),
      (["w", "contest", "lib", "a.py"], "from lib.b import h\ndef f(): return h()\n"),
      (["w", "contest", "lib", "b.py"], "from lib.a import f as g\ndef h(): return 1\n")]

/-- The import of a name under another one. -/
def renamed : ImportedName := ⟨"f", some "g"⟩

theorem merge_places_assignments_renamingTree :
    ∃ remarks outcome walk source,
      merge {} renamingTree (.ofString "main.py") = (remarks, .ok outcome) ∧
        walk.registry.ServesNames walk.events 2 [renamed] source ∧
        source.definitionOf? 1 = some "f" ∧
        Setting.PlacesAssignment ⟨{}, renamingTree⟩ walk 2 [renamed] source "f"
          "g = f\n".toList ∧
        WrittenAfter (Setting.output ⟨{}, renamingTree⟩ walk.registry walk.events).pieces (2, 1)
          "g = f\n".toList := by
  have facts : ∃ walk module source,
      Setting.walkWithin ⟨{}, renamingTree⟩ 12 (renamingTree.normalize (.ofString "main.py")) =
          some walk ∧
        .serve 2 (.names [renamed]) ∈ walk.events ∧
        walk.registry.module? 2 = some module ∧
        module.parsed = some source ∧
        source.definitionOf? 1 = some "f" ∧
        (2, 1) ∈ segmentsOf
          (Setting.output ⟨{}, renamingTree⟩ walk.registry walk.events).pieces ∧
        ∀ earlier ∈ walk.events.inits, "g = f\n".toList ∈ walk.registry.assigned earlier →
          (2, 1) ∈ Setting.selected ⟨{}, renamingTree⟩ walk.registry earlier := by
    let walk :=
      (Setting.walkWithin ⟨{}, renamingTree⟩ 12
        (renamingTree.normalize (.ofString "main.py"))).getD (Walk.empty ⟨{}, renamingTree⟩)
    let module := (walk.registry.module? 2).getD default
    refine ⟨walk, module, module.parsed.getD default, ?_⟩
    decide +kernel
  obtain ⟨walk, module, source, ended, served, found, parsed, defines, written, whenever⟩ := facts
  obtain ⟨remarks, outcome, merged⟩ :
      ∃ remarks outcome, merge {} renamingTree (.ofString "main.py") = (remarks, .ok outcome) :=
    Setting.merge_of_walkWithin 12 (by decide +kernel) (by rw [ended]; rfl)
  obtain ⟨other, _, completes, _, _, places⟩ :=
    merge_places_assignments merged (by decide +kernel)
  obtain rfl := completes.unique (Setting.completes_of_walkWithin 12 ended)
  have serves : other.registry.ServesNames other.events 2 [renamed] source :=
    ⟨served, module, found, parsed⟩
  have placed := places 2 [renamed] source serves renamed (List.mem_singleton_self _)
    "g = f\n".toList (by decide)
  refine ⟨remarks, outcome, other, source, merged, serves, defines, placed, ?_⟩
  rw [placed.after_iff 1 written]
  intro earlier later split asked
  exact whenever earlier ((List.mem_inits _ _).mpr ⟨later, split.symm⟩) asked

/-- A main file that imports a name from two modules under the same other name. -/
def twinTree : FileTree :=
  .ofTexts ["w"]
    [(["w", "main.py"], "from lib.a import f as g\nfrom lib.b import f as g\nprint(g())\n"),
      (["w", "contest", "lib", "a.py"], "def f():\n    return 1\n"),
      (["w", "contest", "lib", "b.py"], "def f():\n    return 2\n")]

theorem merge_twinTree_loses_assignment :
    ∃ remarks outcome walk source,
      merge {} twinTree (.ofString "main.py") = (remarks, .ok outcome) ∧
        outcome.text =
          ("def f():\n    return 1\ng = f\n\ndef f():\n    return 2\n\n" ++
            "print(g())\n").toList ∧
        Setting.Completes ⟨{}, twinTree⟩ (twinTree.normalize (.ofString "main.py")) walk ∧
        walk.registry.ServesNames walk.events 2 [renamed] source ∧
        renamed.assignment? = some "g = f\n".toList ∧
        source.definitionOf? 0 = some "f" ∧
        0 ∈ (source.select ["f"] .withDependencies).segments ∧
        (2, 0) ∈ segmentsOf (Setting.output ⟨{}, twinTree⟩ walk.registry walk.events).pieces ∧
        ¬ WrittenAfter (Setting.output ⟨{}, twinTree⟩ walk.registry walk.events).pieces (2, 0)
          "g = f\n".toList := by
  have facts : ∃ walk module source earlier later,
      Setting.walkWithin ⟨{}, twinTree⟩ 12 (twinTree.normalize (.ofString "main.py")) =
          some walk ∧
        .serve 2 (.names [renamed]) ∈ walk.events ∧
        walk.registry.module? 2 = some module ∧
        module.parsed = some source ∧
        source.definitionOf? 0 = some "f" ∧
        0 ∈ (source.select ["f"] .withDependencies).segments ∧
        (2, 0) ∈ segmentsOf (Setting.output ⟨{}, twinTree⟩ walk.registry walk.events).pieces ∧
        walk.events = earlier ++ later ∧
        "g = f\n".toList ∈ walk.registry.assigned earlier ∧
        (2, 0) ∉ Setting.selected ⟨{}, twinTree⟩ walk.registry earlier := by
    let walk :=
      (Setting.walkWithin ⟨{}, twinTree⟩ 12 (twinTree.normalize (.ofString "main.py"))).getD
        (Walk.empty ⟨{}, twinTree⟩)
    let module := (walk.registry.module? 2).getD default
    refine ⟨walk, module, module.parsed.getD default, walk.events.take 1, walk.events.drop 1, ?_⟩
    decide +kernel
  obtain ⟨walk, module, source, earlier, later, ended, served, found, parsed, defines, selected,
    written, split, asked, notSelected⟩ := facts
  have merges :
      (mergeWithin 12 {} twinTree (.ofString "main.py")).map (·.text) =
        some
          ("def f():\n    return 1\ng = f\n\ndef f():\n    return 2\n\n" ++
            "print(g())\n").toList := by
    decide +kernel
  obtain ⟨remarks, outcome, merged, text⟩ := merge_of_mergeWithin 12 merges
  have completes := Setting.completes_of_walkWithin 12 ended
  have serves : walk.registry.ServesNames walk.events 2 [renamed] source :=
    ⟨served, module, found, parsed⟩
  refine ⟨remarks, outcome, walk, source, merged, text, completes, serves, by decide, defines,
    selected, written, ?_⟩
  have asks : "g = f\n".toList ∈ walk.registry.assigned walk.events :=
    Registry.mem_assigned_iff.mpr
      ⟨2, [renamed], source, serves, renamed, List.mem_singleton_self _, by decide⟩
  rw [Setting.writtenAfter_iff (fun _ _ => completes.accounted.sound.id_of_module?) written asks]
  intro whenever
  exact notSelected (whenever earlier later split asked)

end Inliner
