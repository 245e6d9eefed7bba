import Inliner.Proofs.Merge.MergedLines
import Inliner.Proofs.Walk.Bounded
import Inliner.Proofs.Walk.Requests
import Mathlib.Data.List.TakeWhile

/-!
# Each segment is included once

A merge serves the request for the main file and the request of every dependency, each once,
whatever the imports are.  What these requests select is written once: nothing that is selected
is lost, nothing that is not selected is written, and only an import that two library modules
have in common is left out the second time.
-/

namespace Inliner

/-! ## Pieces in the text -/

theorem infix_joinPieces {piece : Piece} :
    ∀ {pieces : List Piece} (previous : Option Nat),
      piece ∈ pieces → piece.text <:+: joinPieces previous pieces
  | [], _, member => by
      simp at member
  | first :: pieces, previous, member => by
      rcases List.mem_cons.mp member with rfl | later
      · cases piece with
        | segment index text =>
            simp only [joinPieces, Piece.text]
            exact ⟨_, _, rfl⟩
        | assignment text => exact List.infix_append [] _ _
        | trailing text => exact List.infix_append [] _ _
        | verbatim text => exact List.infix_append [] _ _
      · have rest (before : Option Nat) := infix_joinPieces before later
        cases first with
        | segment index text =>
            exact (rest (some index)).trans (List.suffix_append _ _).isInfix
        | assignment text => exact (rest previous).trans (List.suffix_append _ _).isInfix
        | trailing text => exact (rest previous).trans (List.suffix_append _ _).isInfix
        | verbatim text => exact (rest previous).trans (List.suffix_append _ _).isInfix

theorem infix_joinChunks {chunk : Chunk} :
    ∀ {chunks : List Chunk} {last : Option Nat},
      chunk ∈ chunks → chunk.text <:+: joinChunks last chunks
  | [], _, member => by
      simp at member
  | first :: chunks, last, member => by
      rcases List.mem_cons.mp member with rfl | later
      · have terminated : chunk.text <:+: Text.terminated chunk.text := by
          unfold Text.terminated
          split
          · exact List.infix_rfl
          · exact (List.prefix_append _ _).isInfix
        refine terminated.trans ?_
        simp only [joinChunks]
        exact ⟨_, _, rfl⟩
      · exact (infix_joinChunks later).trans (List.suffix_append _ _).isInfix

namespace Chunk

/-- A text that a chunk leaves out at its start: nothing, or the first line of the main file, which
stands at the top of the whole text, with the line ends after it. -/
def Heading (chunk : Chunk) (cut : Text) : Prop :=
  cut = [] ∨
    ∃ line ends,
      chunk.shebang = some line ∧
      cut = line ++ ends ∧
      ∀ character ∈ ends, character = '\r' ∨ character = '\n'

theorem exists_heading (chunk : Chunk) :
    ∃ cut, chunk.Heading cut ∧ joinPieces none chunk.pieces = cut ++ chunk.text := by
  unfold Chunk.text
  cases present : chunk.shebang with
  | none => exact ⟨[], Or.inl rfl, rfl⟩
  | some line =>
      dsimp only
      unfold withoutShebang Text.withoutStart?
      by_cases starts : line.isPrefixOf (joinPieces none chunk.pieces) = true
      · rw [if_pos starts]
        obtain ⟨rest, joined⟩ := List.isPrefixOf_iff_prefix.mp starts
        rw [← joined, List.drop_left]
        dsimp only
        refine ⟨line ++ rest.takeWhile (fun character => character == '\r' || character == '\n'),
          Or.inr ⟨line, _, present, rfl, ?_⟩, ?_⟩
        · intro character member
          simpa using List.mem_takeWhile_imp member
        · rw [List.append_assoc, List.takeWhile_append_dropWhile]
      · rw [if_neg starts]
        exact ⟨[], Or.inl rfl, rfl⟩

end Chunk

/-! ## What is shown of an output -/

/-- What the text of an output shows of the pieces written: every visible chunk stands in the text,
up to the first line that moves to the top, and a chunk that cannot be seen has nothing but white
space besides that line. -/
structure Output.Shows (output : Output) : Prop where
  chunk_infix : ∀ chunk ∈ output.visible, chunk.text <:+: output.text
  chunk_joined : ∀ chunk ∈ output.chunks,
    ∃ cut, chunk.Heading cut ∧ joinPieces none chunk.pieces = cut ++ chunk.text
  piece_infix : ∀ chunk ∈ output.chunks, ∀ piece ∈ chunk.pieces,
    piece.text <:+: joinPieces none chunk.pieces
  piece_visible : ∀ chunk ∈ output.chunks, ∀ piece ∈ chunk.pieces,
    Text.isBlank piece.text = false →
      chunk ∈ output.visible ∨
        ∃ line rest,
          chunk.shebang = some line ∧
          joinPieces none chunk.pieces = line ++ rest ∧
          Text.isBlank rest = true

theorem Output.shows (output : Output) : output.Shows where
  chunk_infix _ member := infix_joinChunks member
  chunk_joined chunk _ := chunk.exists_heading
  piece_infix _ _ _ member := infix_joinPieces none member
  piece_visible := by
    intro chunk written piece member visible
    by_cases blank : chunk.isBlank = true
    · right
      obtain ⟨cut, heading, joined⟩ := chunk.exists_heading
      unfold Chunk.isBlank at blank
      rcases heading with rfl | ⟨line, ends, present, rfl, lineEnds⟩
      · have contained := infix_joinPieces none member
        rw [joined, List.nil_append] at contained
        rw [Text.isBlank_of_subset contained.subset blank] at visible
        simp at visible
      · refine ⟨line, ends ++ chunk.text, present, ?_, ?_⟩
        · rw [joined, List.append_assoc]
        · have endsBlank : Text.isBlank ends = true := by
            unfold Text.isBlank
            rw [List.all_eq_true]
            intro character endMember
            rcases lineEnds character endMember with rfl | rfl <;> decide
          unfold Text.isBlank at endsBlank blank ⊢
          rw [List.all_append, endsBlank, blank]
          rfl
    · left
      unfold Output.visible
      rw [List.mem_filter]
      exact ⟨written, by simpa using blank⟩

/-! ## What a merge includes -/

/-- The output of some events holds what the requests served in their course select: every
segment selected once, unless it is an import that a library module has put there before, no
other segment, and every module without known statements once. -/
structure Setting.WritesOnce
    (setting : Setting) (registry : Registry) (events : List Event) : Prop where
  count_selected : ∀ entry ∈ setting.selected registry events,
    (segmentsOf (setting.output registry events).pieces).count entry = 1 ∨
      (segmentsOf (setting.output registry events).pieces).count entry = 0 ∧
        registry.Repeated (setting.selected registry events)
          (segmentsOf (setting.output registry events).pieces) entry
  count_unselected : ∀ entry, entry ∉ setting.selected registry events →
    (segmentsOf (setting.output registry events).pieces).count entry = 0
  rendered : ∀ chunk ∈ (setting.output registry events).chunks, ∀ index text,
    Piece.segment index text ∈ chunk.pieces →
      registry.Renders (chunk.module, index) text
  count_verbatim : ∀ id module,
    registry.module? id = some module → module.parsed = none →
      (filesOf (setting.output registry events).pieces).count id = 1
  verbatim : ∀ chunk ∈ (setting.output registry events).chunks, ∀ text,
    Piece.verbatim text ∈ chunk.pieces →
      ∃ module, registry.module? chunk.module = some module ∧ text = module.text

theorem Output.mem_pieces
    {output : Output} {chunk : Chunk} {piece : Piece}
    (written : chunk ∈ output.chunks) (member : piece ∈ chunk.pieces) :
    (chunk.module, piece) ∈ output.pieces :=
  List.mem_flatMap.mpr ⟨chunk, written, List.mem_map.mpr ⟨piece, member, rfl⟩⟩

namespace Setting.Completes

variable {setting : Setting} {main : Location} {walk : Walk}

/-- Every module without known statements is asked for by the end of a walk. -/
theorem mem_takenFiles
    (completes : setting.Completes main walk) {id : Nat} {module : Module}
    (found : walk.registry.module? id = some module) (unknown : module.parsed = none) :
    id ∈ takenFiles walk.registry walk.events := by
  have accounted := completes.accounted
  have inRange : id < walk.registry.states.length := by
    rw [accounted.sound.length_eq]
    exact (List.getElem?_eq_some_iff.mp found).1
  obtain ⟨request, assigned⟩ := accounted.attended id inRange
  have served : (id, request) ∈ servedRequests walk.events := by
    simpa [Walk.assigned, completes.frames_eq_nil] using assigned
  obtain ⟨event, member, isServe⟩ := List.mem_filterMap.mp served
  refine List.mem_flatMap.mpr ⟨event, member, ?_⟩
  cases event with
  | remark remark => simp [Event.serve?] at isServe
  | serve servedId servedRequest =>
      simp only [Event.serve?, Option.some.injEq, Prod.mk.injEq] at isServe
      obtain ⟨rfl, rfl⟩ := isServe
      simp [found, takenWhole, unknown, accounted.sound.id_of_module? found]

theorem writesOnce (completes : setting.Completes main walk) :
    setting.WritesOnce walk.registry walk.events := by
  have sound := completes.accounted.sound
  have records := setting.records_output walk.registry
    (fun _ _ found => sound.id_of_module? found) walk.events
  refine ⟨?_, ?_, ?_, ?_, ?_⟩
  · intro entry member
    rcases records.covered entry member with written | repeated
    · exact Or.inl (List.count_eq_one_of_mem records.nodup written)
    · by_cases written : entry ∈ segmentsOf (setting.output walk.registry walk.events).pieces
      · exact Or.inl (List.count_eq_one_of_mem records.nodup written)
      · exact Or.inr ⟨List.count_eq_zero_of_not_mem written, repeated⟩
  · intro entry notSelected
    apply List.count_eq_zero_of_not_mem
    intro written
    exact notSelected (records.subset entry written)
  · intro chunk written index text member
    exact records.rendered chunk.module index text (Output.mem_pieces written member)
  · intro id module found unknown
    apply List.count_eq_one_of_mem records.files_nodup
    exact (records.mem_files_iff id).mpr (completes.mem_takenFiles found unknown)
  · intro chunk written text member
    exact records.verbatim chunk.module text (Output.mem_pieces written member)

end Setting.Completes

/-- A merge that succeeds for an analysed main file serves the request for that file and the request
of each dependency of each loaded module, each once and by the module it leads to.  The output shows
what these requests select, each segment once, and the lines of the merged text that are not blank
are those of the header and of this output. -/
theorem merge_includes_once
    {config : MergeConfig} {tree : FileTree} {file : Path}
    {remarks : List Remark} {outcome : Outcome}
    (merged : merge config tree file = (remarks, .ok outcome))
    (analysed : (tree.parsedAt? (tree.normalize file)).isSome = true) :
    ∃ walk text,
      Setting.Completes ⟨config, tree⟩ (tree.normalize file) walk ∧
      tree.readAt (tree.normalize file) = .ok text ∧
      outcome = Setting.outcome ⟨config, tree⟩ (tree.normalize file) text walk ∧
      ((servedRequests walk.events).map fun entry => (some entry.1, entry.2)).Perm
        walk.registry.dueRequests ∧
      Setting.WritesOnce ⟨config, tree⟩ walk.registry walk.events ∧
      (Setting.output ⟨config, tree⟩ walk.registry walk.events).Shows ∧
      Text.nonBlankLines outcome.text =
        (Setting.output ⟨config, tree⟩ walk.registry walk.events).linesBelow
          (header text walk.registry.futures) := by
  unfold merge at merged
  split at merged
  next => simp at merged
  next =>
    obtain ⟨walk, text, completes, readable, given⟩ :=
      Setting.completes_of_mergeAt merged analysed
    refine ⟨walk, text, completes, readable, given, completes.perm_dueRequests,
      completes.writesOnce, Output.shows _, ?_⟩
    rw [given]
    exact Setting.nonBlankLines_outcome _ _ text walk

/-- A main file, and two library modules that import each other and have an import in common. -/
def circularTree : FileTree :=
  let files : List (List String × String) :=
    [(["w", "main.py"], "from lib.a import f\nf()\n"),
      (["w", "contest", "lib", "a.py"], "from lib.b import g\nimport os\ndef f(): g\n"),
      (["w", "contest", "lib", "b.py"], "from lib.a import *\nimport os\ndef g(): f\n")]
  files.foldl
    (fun tree file => tree.put ⟨file.1.map (·.toList)⟩ (.text file.2.toList))
    (.empty ⟨["w".toList]⟩)

theorem merge_includes_once_circular :
    ∃ remarks outcome, ∃ walk : Walk,
      merge {} circularTree (.ofString "main.py") = (remarks, .ok outcome) ∧
      ((servedRequests walk.events).map fun entry => (some entry.1, entry.2)).Perm
        walk.registry.dueRequests ∧
      Setting.WritesOnce ⟨{}, circularTree⟩ walk.registry walk.events := by
  have succeeds :
      ∃ remarks outcome,
        merge {} circularTree (.ofString "main.py") = (remarks, .ok outcome) :=
    Setting.merge_of_walkWithin 12 (by decide +kernel) (by decide +kernel)
  obtain ⟨remarks, outcome, merged⟩ := succeeds
  obtain ⟨walk, _, _, _, _, served, writesOnce, _⟩ :=
    merge_includes_once merged (by decide +kernel)
  exact ⟨remarks, outcome, walk, merged, served, writesOnce⟩

end Inliner
