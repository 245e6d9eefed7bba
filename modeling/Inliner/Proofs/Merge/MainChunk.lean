import Inliner.Proofs.Merge.Edits
import Inliner.Proofs.Merge.Pieces
import Inliner.Proofs.Text.Lines
import Inliner.Proofs.Walk.Bounded
import Inliner.Proofs.Walk.Requests

/-!
# The text of the main file

The main file is asked for once, at the start of a walk, and served when everything else has been
followed.  No segment of it has been written by then, so all of them are written, in their order.
A first line that names the program to run is cut off, and no statement with it.
-/

namespace Inliner

open Syntax

/-! ## The first line -/

/-- The line that names the program to run is part of a comment. -/
theorem length_le_commentLength_of_shebang?
    {text line : Text}
    (named : shebang? text = some line) :
    line.length ≤ commentLength text := by
  obtain ⟨first, marked⟩ := Option.filter_eq_some_iff.mp named
  have inLine := Text.prefix_takeWhile_of_head?_lines first
  have starts : ['#', '!'] <+: line := List.isPrefixOf_iff_prefix.mp marked
  have inText : ['#', '!'] <+: text :=
    (starts.trans inLine).trans (List.takeWhile_prefix _)
  obtain ⟨rest, rfl⟩ := inText
  exact inLine.length_le

/-- The text of a source without the line that names the program to run. -/
def ParsedSource.renderBelow (source : ParsedSource) (edit : Nat → Edit) : Text :=
  match shebang? source.text with
  | some line => withoutShebang line (source.render edit)
  | none => source.render edit

theorem ParsedSource.occurInOrder_renderBelow
    {text : Text}
    {nodes : List Node}
    (lays : Lays text nodes)
    (edit : Nat → Edit) :
    OccurInOrder (keptTexts text ((ofNodes text nodes).editedStatements edit))
      ((ofNodes text nodes).renderBelow edit) := by
  have whole := occurInOrder_drop_render lays edit (Nat.zero_le _)
  rw [List.drop_zero] at whole
  have textEq : (ofNodes text nodes).text = text := rfl
  unfold renderBelow
  rw [textEq]
  split
  next line named =>
    unfold withoutShebang Text.withoutStart?
    by_cases starts : line.isPrefixOf ((ofNodes text nodes).render edit) = true
    · rw [if_pos starts]
      have below := occurInOrder_drop_render lays edit (length_le_commentLength_of_shebang? named)
      apply below.dropWhile
      intro part member first isFirst
      have notBlank := isTrivia_head?_keptTexts lays member isFirst
      cases lineEnd : first == '\r' || first == '\n' with
      | false => rfl
      | true =>
          simp only [Bool.or_eq_true, beq_iff_eq] at lineEnd
          rcases lineEnd with rfl | rfl <;> cases notBlank
    · rw [if_neg starts]
      exact whole
  next => exact whole

/-! ## The pieces of the main file -/

namespace Written

variable {module : Module}

theorem addSegment_of_isMain
    (source : ParsedSource)
    {written : Written}
    {index : Nat}
    (isMain : module.isMain = true)
    (fresh : (module.id, index) ∉ written.segments) :
    written.addSegment module source index =
      ({ written with segments := written.segments ++ [(module.id, index)] },
        [.segment index (source.renderAt module.edit index)]) := by
  simp [addSegment, fresh, isMain]

/-- Segments of the main file that have not been written are all written, in their order. -/
theorem addSegments_of_isMain
    (source : ParsedSource)
    {written : Written}
    {indices : List Nat}
    (isMain : module.isMain = true)
    (distinct : indices.Nodup)
    (fresh : ∀ index ∈ indices, (module.id, index) ∉ written.segments) :
    (addSegments module source written indices).2 =
      indices.map fun index => .segment index (source.renderAt module.edit index) := by
  induction indices generalizing written with
  | nil => rfl
  | cons index indices inductionHypothesis =>
      obtain ⟨notLater, restDistinct⟩ := List.nodup_cons.mp distinct
      have first := addSegment_of_isMain source isMain (fresh index List.mem_cons_self)
      simp only [addSegments, first, List.map_cons, List.singleton_append]
      rw [inductionHypothesis restDistinct]
      intro other member written
      simp only [List.mem_append, List.mem_singleton, Prod.mk.injEq, true_and] at written
      rcases written with before | rfl
      · exact fresh other (List.mem_cons_of_mem _ member) before
      · exact notLater member

end Written

/-- No empty lines come between segments that follow one another. -/
theorem joinPieces_range'
    (rendered : Nat → Text)
    (trailing : Text)
    (start count : Nat)
    (previous : Option Nat)
    (follows : ∀ before, previous = some before → before + 1 = start) :
    joinPieces previous
        ((List.range' start count).map (fun index => .segment index (rendered index)) ++
          [.trailing trailing]) =
      (List.range' start count).flatMap rendered ++ trailing := by
  induction count generalizing start previous with
  | zero => simp [joinPieces, Piece.text]
  | succ count inductionHypothesis =>
      have rest := inductionHypothesis (start + 1) (some start) (by simp)
      have noGap : gapBefore previous start (rendered start) = false := by
        cases previous with
        | none => rfl
        | some before => simp [gapBefore, follows before rfl]
      simp only [List.range'_succ, List.map_cons, List.cons_append, List.flatMap_cons, joinPieces,
        noGap, Bool.false_eq_true, ↓reduceIte, List.nil_append, rest, List.append_assoc]

namespace ParsedSource

theorem flatMap_renderAt_indices (source : ParsedSource) (edit : Nat → Edit) :
    source.indices.flatMap (source.renderAt edit) =
      source.segments.flatMap (source.renderSegment edit) := by
  have sameSegments :
      source.indices.map (source.renderAt edit) =
        source.segments.map (source.renderSegment edit) := by
    apply List.ext_getElem
    · simp [indices]
    · intro index inIndices inSegments
      have inRange : index < source.segments.length := by simpa using inSegments
      simp [indices, renderAt, inRange]
  rw [List.flatMap_def, List.flatMap_def, sameSegments]

/-- The pieces of a whole source. -/
def wholePieces (source : ParsedSource) (edit : Nat → Edit) : List Piece :=
  source.indices.map (fun index => .segment index (source.renderAt edit index)) ++
    [.trailing source.trailingText]

theorem joinPieces_wholePieces (source : ParsedSource) (edit : Nat → Edit) :
    joinPieces none (source.wholePieces edit) = source.render edit := by
  have joined := joinPieces_range' (source.renderAt edit) source.trailingText 0
    source.segments.length none (by simp)
  rw [← List.range_eq_range'] at joined
  rw [wholePieces, indices, joined, render, ← flatMap_renderAt_indices]
  rfl

end ParsedSource

/-- The main file is written in full if no segment of it has been written. -/
theorem Output.serve_main
    {output : Output}
    (policy : SymbolPolicy)
    {module : Module}
    {source : ParsedSource}
    (parsed : module.parsed = some source)
    (sameText : module.text = source.text)
    (isMain : module.isMain = true)
    (fresh : ∀ index, (module.id, index) ∉ output.written.segments) :
    ∃ chunk,
      (output.serve policy module .main).chunks = output.chunks ++ [chunk] ∧
        chunk.pieces = source.wholePieces module.edit ∧
          chunk.text = source.renderBelow module.edit := by
  have pieces :
      (output.written.addPieces module .main policy).2 = source.wholePieces module.edit := by
    have segments := Written.addSegments_of_isMain source isMain
      (List.nodup_range (n := source.segments.length)) (fun index _ => fresh index)
    simp [Written.addPieces, parsed, Request.selection, Request.addRest, ParsedSource.wholePieces,
      ParsedSource.indices, segments]
  refine ⟨⟨module.id, module.isMain, source.wholePieces module.edit, shebang? source.text⟩,
    ?_, rfl, ?_⟩
  · simp [serve, pieces, sameText]
  · simp only [Chunk.text, ParsedSource.joinPieces_wholePieces]
    rfl

/-! ## The request for the main file -/

/-- The main file is the first one on the way, and its own request waits for it first. -/
def AwaitsMain (frames : List Frame) : Prop :=
  ∃ frame,
    frames.getLast? = some frame ∧ frame.module = 0 ∧ frame.pending.head? = some .main

/-- No request has been served from the main file. -/
def MainUntouched (events : List Event) : Prop :=
  ∀ request, .serve 0 request ∉ events

/-- The request for the main file has been served, and no other one from it before. -/
def MainServed (events : List Event) : Prop :=
  ∃ earlier later,
    events = earlier ++ .serve 0 .main :: later ∧ MainUntouched earlier

namespace AwaitsMain

variable {frame : Frame} {frames : List Frame}

/-- The file on top of others is not the main file's. -/
theorem of_cons_cons
    {next : Frame}
    (awaits : AwaitsMain (frame :: next :: frames)) :
    AwaitsMain (next :: frames) := by
  obtain ⟨last, isLast, isMain, waiting⟩ := awaits
  rw [List.getLast?_cons_cons] at isLast
  exact ⟨last, isLast, isMain, waiting⟩

theorem cons
    (frame : Frame)
    (awaits : AwaitsMain frames) :
    AwaitsMain (frame :: frames) := by
  obtain ⟨last, isLast, isMain, waiting⟩ := awaits
  exact ⟨last, by simp [List.getLast?_cons, isLast], isMain, waiting⟩

theorem onward
    (awaits : AwaitsMain (frame :: frames))
    (remaining : List Dependency) :
    AwaitsMain ({ frame with remaining := remaining } :: frames) := by
  cases frames with
  | nil =>
      obtain ⟨last, isLast, isMain, waiting⟩ := awaits
      obtain rfl : frame = last := by simpa using isLast
      exact ⟨_, rfl, isMain, waiting⟩
  | cons next frames => exact awaits.of_cons_cons.cons _

theorem park
    (awaits : AwaitsMain frames)
    (id : Nat)
    (request : Request) :
    AwaitsMain (frames.map (Frame.park id request)) := by
  obtain ⟨last, isLast, isMain, waiting⟩ := awaits
  refine ⟨Frame.park id request last, by simp [isLast], ?_, ?_⟩
  · unfold Frame.park
    split <;> exact isMain
  · unfold Frame.park
    split
    · simp [waiting]
    · exact waiting

theorem zero_mem (awaits : AwaitsMain frames) : 0 ∈ frames.map (·.module) := by
  obtain ⟨last, isLast, isMain, _⟩ := awaits
  exact List.mem_map.mpr ⟨last, List.mem_of_getLast? isLast, isMain⟩

end AwaitsMain

theorem MainUntouched.append
    {events more : List Event}
    (untouched : MainUntouched events)
    (moreUntouched : MainUntouched more) :
    MainUntouched (events ++ more) := by
  intro request member
  rcases List.mem_append.mp member with before | added
  · exact untouched request before
  · exact moreUntouched request added

namespace Walk

/-- Where a walk that started at the main file stands: its request waits, or has been served. -/
structure Leads (walk : Walk) : Prop where
  sound : walk.Sound
  first : ∃ module, walk.registry.module? 0 = some module ∧ module.isMain = true
  request :
    AwaitsMain walk.frames ∧ MainUntouched walk.events ∨
      walk.frames = [] ∧ MainServed walk.events

theorem leads_start
    {setting : Setting}
    {main : Location}
    {remarks : List Remark}
    {module : Module}
    (loaded : setting.load 0 main true = (remarks, .ok module)) :
    ((Walk.empty setting).push module remarks .main).Leads where
  sound := sound_start loaded
  first := by
    refine ⟨module, ?_, Setting.isMain_of_load loaded⟩
    simp [push, Walk.empty, Registry.empty, Registry.register, Registry.lookup, Registry.attach,
      Registry.module?]
  request := by
    refine Or.inl ⟨⟨_, rfl, Setting.id_of_load loaded, rfl⟩, ?_⟩
    simp [MainUntouched, push, Walk.empty]

theorem leads_of_moves
    {setting : Setting}
    {walk after : Walk}
    (leads : walk.Leads)
    (moved : Moves setting walk after) :
    after.Leads := by
  obtain ⟨module, found, isMain⟩ := leads.first
  refine ⟨sound_of_moves leads.sound moved, ⟨module, module?_of_moves moved found, isMain⟩, ?_⟩
  -- A walk that has served the main file has no files left and does not move.
  have going : AwaitsMain walk.frames ∧ MainUntouched walk.events := by
    rcases leads.request with going | ⟨finished, _⟩
    · exact going
    · cases moved <;> simp_all
  obtain ⟨awaits, untouched⟩ := going
  have underWay := (leads.sound.mem_stack_iff 0).mp awaits.zero_mem
  cases moved with
  | leave frame frames top finished =>
      have distinct := leads.sound.stack_nodup
      rw [top] at awaits distinct
      cases frames with
      | nil =>
          obtain ⟨last, isLast, isMain, waiting⟩ := awaits
          obtain rfl : frame = last := by simpa using isLast
          obtain ⟨others, pending⟩ := List.head?_eq_some_iff.mp waiting
          refine Or.inr ⟨rfl, walk.events, others.map (.serve 0), ?_, untouched⟩
          simp [Walk.leave, isMain, pending]
      | cons next frames =>
          have different : frame.module ≠ 0 := by
            intro isMain
            rw [List.map_cons, List.nodup_cons, isMain] at distinct
            exact distinct.1 awaits.of_cons_cons.zero_mem
          refine Or.inl ⟨awaits.of_cons_cons, untouched.append ?_⟩
          simp [MainUntouched, different]
  | enter frame frames dependency remaining remarks other top ahead unknown loaded =>
      rw [top] at awaits
      refine Or.inl ⟨(awaits.onward remaining).cons _, untouched.append ?_⟩
      simp [MainUntouched]
  | park frame frames dependency remaining id top ahead known waiting =>
      rw [top] at awaits
      exact Or.inl ⟨(awaits.onward remaining).park id _, untouched⟩
  | serve frame frames dependency remaining id top ahead known settled =>
      rw [top] at awaits
      have different : id ≠ 0 := by
        rintro rfl
        exact settled underWay
      refine Or.inl ⟨awaits.onward remaining, untouched.append ?_⟩
      simp [MainUntouched, different.symm]

end Walk

/-! ## The chunk of the main file -/

namespace Setting

variable {setting : Setting} {main : Location} {walk : Walk}

theorem Completes.leads (completes : setting.Completes main walk) : walk.Leads :=
  (completes.kept (fun _ _ => Walk.leads_start) (fun _ _ => Walk.leads_of_moves)).1

theorem Completes.mainServed (completes : setting.Completes main walk) :
    MainServed walk.events := by
  rcases completes.leads.request with ⟨awaits, _⟩ | ⟨_, served⟩
  · have onTheWay := awaits.zero_mem
    rw [completes.frames_eq_nil] at onTheWay
    cases onTheWay
  · exact served

/-- The request for the main file is served once everything it imports has been followed, and
writes all of it. -/
theorem Completes.exists_mainChunk
    (completes : setting.Completes main walk)
    {module : Module}
    {source : ParsedSource}
    (found : walk.registry.module? 0 = some module)
    (parsed : module.parsed = some source)
    (sameText : module.text = source.text) :
    ∃ earlier later chunk after,
      walk.events = earlier ++ .serve 0 .main :: later ∧
        (setting.output walk.registry (earlier ++ [.serve 0 .main])).chunks =
          (setting.output walk.registry earlier).chunks ++ [chunk] ∧
        (setting.output walk.registry walk.events).chunks =
          (setting.output walk.registry earlier).chunks ++ chunk :: after ∧
        chunk.pieces = source.wholePieces module.edit ∧
        chunk.text = source.renderBelow module.edit := by
  obtain ⟨first, firstFound, isMain⟩ := completes.leads.first
  obtain rfl : first = module := Option.some.inj (firstFound.symm.trans found)
  obtain ⟨earlier, later, events, untouched⟩ := completes.mainServed
  have numbered : ∀ id module, walk.registry.module? id = some module → module.id = id :=
    fun _ _ => completes.leads.sound.id_of_module?
  have records := setting.records_output walk.registry numbered earlier
  have fresh : ∀ index,
      (first.id, index) ∉ (setting.output walk.registry earlier).written.segments := by
    intro index
    rw [records.mem_segments_iff, numbered 0 first found]
    exact not_mem_selected numbered untouched index
  obtain ⟨chunk, chunks, pieces, text⟩ :=
    Output.serve_main setting.config.symbolPolicy parsed sameText isMain fresh
  have served :
      (setting.output walk.registry (earlier ++ [.serve 0 .main])).chunks =
        (setting.output walk.registry earlier).chunks ++ [chunk] := by
    rw [output_append, ← chunks]
    simp only [outputStep, found]
  obtain ⟨after, whole⟩ :=
    chunks_output_isPrefix_append setting walk.registry (earlier ++ [.serve 0 .main]) later
  refine ⟨earlier, later, chunk, after, events, served, ?_, pieces, text⟩
  rw [events, List.append_cons, ← whole, served, List.append_assoc]
  rfl

end Setting

/-! ## What becomes of a planned file -/

/-- A file that can be planned gets the edits that its statements call for, and no statement gets
two.  A segment shows what is kept as it stands, what is replaced with its new text and nothing of
what is dropped; if it has nothing to show, only what leads up to it is left.  Where the file is
the main file, its own request writes all its segments, and what is kept stands in its order. -/
theorem plan_edits_only_resolved_imports
    {setting : Setting}
    {id : Nat}
    {location : Location}
    {isMain lenient : Bool}
    {text : Text}
    {source : ParsedSource}
    {remarks : List Remark}
    {module : Module}
    (parsed : ParsedSource.parse text = .ok source)
    (planned : setting.plan id location isMain lenient source = (remarks, .ok module)) :
    setting.EditsStatements location isMain source module ∧
      (∀ segment ∈ source.segments,
        source.renderSegment module.edit segment =
          if (source.editedSpans segment module.edit).all (·.2 == .drop) then
            segment.leading.slice text
          else
            Text.terminated
              (segment.leading.slice text ++
                shownFrom text segment.body.stop .keep segment.body.start
                  (source.editedSpans segment module.edit))) ∧
      ∀ main walk,
        setting.Completes main walk →
          walk.registry.module? 0 = some module →
            ∃ earlier later chunk after,
              walk.events = earlier ++ .serve 0 .main :: later ∧
              (setting.output walk.registry (earlier ++ [.serve 0 .main])).chunks =
                (setting.output walk.registry earlier).chunks ++ [chunk] ∧
              (setting.output walk.registry walk.events).chunks =
                (setting.output walk.registry earlier).chunks ++ chunk :: after ∧
              chunk.pieces = source.wholePieces module.edit ∧
              OccurInOrder (keptTexts text (source.editedStatements module.edit)) chunk.text := by
  obtain ⟨nodes, rfl, lays⟩ := exists_nodes_of_parse parsed
  refine ⟨editsStatements_of_plan lays planned,
    fun segment => ParsedSource.renderSegment_eq lays module.edit, ?_⟩
  obtain ⟨imports, _, rfl⟩ := plan_eq_ok planned
  intro main walk completes found
  obtain ⟨earlier, later, chunk, after, events, served, whole, pieces, chunkText⟩ :=
    completes.exists_mainChunk found rfl rfl
  refine ⟨earlier, later, chunk, after, events, served, whole, pieces, ?_⟩
  rw [chunkText]
  exact ParsedSource.occurInOrder_renderBelow lays _

/-- A main file with an import statement of which a part leads to a module file, on a line with
another statement. -/
def mixedText : Text :=
  "#!/bin/x\nimport os, lib.a, sys; x = 1\nfrom lib.a import f\ny = 2\n".toList

/-- That main file beside the module it imports. -/
def mixedSetting : Setting where
  config := {}
  tree :=
    ((FileTree.empty ⟨["w".toList]⟩).put ⟨["w".toList, "main.py".toList]⟩ (.text mixedText)).put
      ⟨["w".toList, "contest".toList, "lib".toList, "a.py".toList]⟩
      (.text "def f(): pass\n".toList)

theorem plan_mixedText_replaces :
    ∃ source remarks module walk chunk,
      ParsedSource.parse mixedText = .ok source ∧
      mixedSetting.plan 0 ⟨["w".toList, "main.py".toList]⟩ true false source =
        (remarks, .ok module) ∧
      mixedSetting.Completes ⟨["w".toList, "main.py".toList]⟩ walk ∧
      mixedSetting.EditsStatements ⟨["w".toList, "main.py".toList]⟩ true source module ∧
      module.edit 0 = .replace "import os, sys".toList ∧
      chunk ∈ (mixedSetting.output walk.registry walk.events).chunks ∧
      OccurInOrder ["x = 1".toList, "y = 2".toList] chunk.text := by
  have facts : ∃ source remarks module walk,
      ParsedSource.parse mixedText = .ok source ∧
      mixedSetting.plan 0 ⟨["w".toList, "main.py".toList]⟩ true false source =
        (remarks, .ok module) ∧
      mixedSetting.walkWithin 12 ⟨["w".toList, "main.py".toList]⟩ = some walk ∧
      walk.registry.module? 0 = some module ∧
      module.edit 0 = .replace "import os, sys".toList ∧
      keptTexts mixedText (source.editedStatements module.edit) =
        ["x = 1".toList, "y = 2".toList] := by
    let source := (ParsedSource.parse mixedText).toOption.getD default
    let planned := mixedSetting.plan 0 ⟨["w".toList, "main.py".toList]⟩ true false source
    let walk := mixedSetting.walkWithin 12 ⟨["w".toList, "main.py".toList]⟩
    refine ⟨source, planned.1, planned.2.toOption.getD default,
      walk.getD (Walk.empty mixedSetting), ?_⟩
    decide +kernel
  obtain ⟨source, remarks, module, walk, parsed, planned, ended, found, edit, kept⟩ := facts
  have completes := Setting.completes_of_walkWithin 12 ended
  obtain ⟨edits, _, mainChunk⟩ := plan_edits_only_resolved_imports parsed planned
  obtain ⟨_, _, chunk, _, _, _, chunks, _, occur⟩ := mainChunk _ walk completes found
  rw [kept] at occur
  refine ⟨source, remarks, module, walk, chunk, parsed, planned, completes, edits, edit, ?_, occur⟩
  rw [chunks]
  simp

end Inliner
