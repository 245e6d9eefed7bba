import Inliner.Proofs.Merge.MergedLines
import Inliner.Proofs.Walk.Precedence

/-!
# Dependencies come before the code that needs them

What a module asks of another one is written before anything of the module itself, unless the other
one leads back to it.  Where no module leads back to itself, this holds for every dependency.
-/

namespace Inliner

/-! ## Texts of chunks -/

theorem joinChunks_append :
    ∀ (first second : List Chunk) (last : Option Nat),
      joinChunks last (first ++ second) =
        joinChunks last first ++ joinChunks ((first.getLast?.map (·.module)).or last) second
  | [], _, _ => rfl
  | chunk :: first, second, last => by
      have ended :
          ((chunk :: first).getLast?.map (·.module)).or last =
            (first.getLast?.map (·.module)).or (some chunk.module) := by
        cases first with
        | nil => rfl
        | cons next rest => simp [List.getLast?_cons]
      rw [ended, List.cons_append, joinChunks, joinChunks, joinChunks_append first second,
        List.append_assoc, List.append_assoc, List.append_assoc]

/-- What is written first stands at the start of the text. -/
theorem Output.text_prefix_of_chunks
    {output whole : Output}
    (chunks : output.chunks <+: whole.chunks) :
    output.text <+: whole.text := by
  obtain ⟨more, split⟩ := chunks
  have visible : whole.visible = output.visible ++ more.filter (!·.isBlank) := by
    rw [Output.visible, ← split, List.filter_append]
    rfl
  rw [Output.text, Output.text, visible]
  rw [joinChunks_append]
  exact List.prefix_append _ _

namespace Setting

variable {setting : Setting} {registry : Registry} {earlier later : List Event}

/-- A chunk is written for a request that is served. -/
theorem exists_served_of_mem_chunks
    (numbered : ∀ id module, registry.module? id = some module → module.id = id)
    {events : List Event}
    {chunk : Chunk}
    (member : chunk ∈ (setting.output registry events).chunks) :
    ∃ request, .serve chunk.module request ∈ events := by
  induction events using List.reverseRecOn with
  | nil => cases member
  | append_singleton events event inductionHypothesis =>
      have before :
          chunk ∈ (setting.output registry events).chunks →
            ∃ request, .serve chunk.module request ∈ events ++ [event] := by
        intro present
        obtain ⟨request, served⟩ := inductionHypothesis present
        exact ⟨request, List.mem_append_left _ served⟩
      rw [output_append] at member
      cases event with
      | remark remark => exact before member
      | serve id request =>
          cases found : registry.module? id with
          | none =>
              simp only [outputStep, found] at member
              exact before member
          | some module =>
              simp only [outputStep, found] at member
              rcases List.mem_append.mp member with present | now
              · exact before present
              · have sameModule : chunk.module = id := by
                  rw [List.mem_singleton.mp now]
                  exact numbered id module found
                exact ⟨request, List.mem_append_right _ (by rw [sameModule]; simp)⟩

/-- After the earlier ones of some events, what a request takes from a module has been written and
nothing of the importer has.  What has been written by then starts the whole text. -/
structure WritesBefore
    (setting : Setting)
    (registry : Registry)
    (earlier later : List Event)
    (target : Module)
    (request : Request)
    (importer : Nat) : Prop where
  selected_marked : ∀ entry ∈ setting.selectedBy target request,
    entry ∈ (setting.output registry earlier).written.segments
  selected_written : ∀ entry ∈ setting.selectedBy target request,
    entry ∈ segmentsOf (setting.output registry earlier).pieces ∨
      registry.Repeated (setting.selected registry earlier)
        (segmentsOf (setting.output registry earlier).pieces) entry
  verbatim_written : target.parsed = none →
    (target.id, .verbatim target.text) ∈ (setting.output registry earlier).pieces
  importer_unmarked : ∀ index,
    (importer, index) ∉ (setting.output registry earlier).written.segments
  importer_unwritten : ∀ chunk ∈ (setting.output registry earlier).chunks,
    chunk.module ≠ importer
  chunks_prefix :
    (setting.output registry earlier).chunks <+:
      (setting.output registry (earlier ++ later)).chunks
  text_prefix :
    (setting.output registry earlier).text <+:
      (setting.output registry (earlier ++ later)).text

theorem writesBefore_of_served
    (numbered : ∀ id module, registry.module? id = some module → module.id = id)
    {id importer : Nat}
    {target : Module}
    {request : Request}
    (found : registry.module? id = some target)
    (served : .serve id request ∈ earlier)
    (untouched : ∀ other, .serve importer other ∉ earlier) :
    setting.WritesBefore registry earlier later target request importer := by
  have records := setting.records_output registry numbered earlier
  have selected : ∀ entry ∈ setting.selectedBy target request,
      entry ∈ setting.selected registry earlier := by
    intro entry member
    refine List.mem_flatMap.mpr ⟨_, served, ?_⟩
    simpa only [found] using member
  have chunks := chunks_output_isPrefix_append setting registry earlier later
  refine ⟨?_, ?_, ?_, ?_, ?_, chunks, Output.text_prefix_of_chunks chunks⟩
  · intro entry member
    exact (records.mem_segments_iff entry).mpr (selected entry member)
  · intro entry member
    exact records.covered entry (selected entry member)
  · intro unknown
    have taken : target.id ∈ takenFiles registry earlier := by
      refine List.mem_flatMap.mpr ⟨_, served, ?_⟩
      simp [found, takenWhole, unknown]
    obtain ⟨⟨file, piece⟩, member, isFile⟩ :=
      List.mem_filterMap.mp ((records.mem_files_iff target.id).mpr taken)
    cases piece with
    | segment | assignment | trailing => cases isFile
    | verbatim text =>
        obtain rfl : file = target.id := Option.some.inj isFile
        obtain ⟨module, moduleFound, sameText⟩ := records.verbatim target.id text member
        rw [numbered id target found, found] at moduleFound
        obtain rfl : target = module := Option.some.inj moduleFound
        rw [← sameText]
        exact member
  · intro index
    rw [records.mem_segments_iff]
    exact not_mem_selected numbered untouched index
  · intro chunk member isImporter
    obtain ⟨other, chunkServed⟩ := exists_served_of_mem_chunks numbered member
    exact untouched other (isImporter ▸ chunkServed)

/-- By the end of a walk every dependency leads to a loaded module, and what it asks of that module
has been written before the importer, unless the module leads back to it. -/
theorem Completes.writesBefore
    {main : Location}
    {walk : Walk}
    (completes : setting.Completes main walk)
    {importer : Nat}
    {module : Module}
    (found : walk.registry.module? importer = some module)
    {dependency : Dependency}
    (member : dependency ∈ module.dependencies) :
    ∃ id target,
      walk.registry.lookup dependency.target.path = some id ∧
        walk.registry.module? id = some target ∧
        (¬ Relation.ReflTransGen walk.registry.Imports id importer →
          ∃ earlier later,
            walk.events = earlier ++ later ∧
              setting.WritesBefore walk.registry earlier later target dependency.request
                importer) := by
  have sound := (completes.kept (fun _ _ => Walk.sound_start) (fun _ _ => Walk.sound_of_moves)).1
  obtain ⟨id, known, precedes⟩ := completes.reaches_or_servedBefore found member
  have inRange := Registry.lt_length_of_lookup known
  rw [sound.length_eq] at inRange
  have targetFound : walk.registry.module? id = some walk.registry.modules[id] :=
    List.getElem?_eq_getElem inRange
  refine ⟨id, _, known, targetFound, ?_⟩
  intro apart
  rcases precedes with reaches | ⟨earlier, later, split, served, untouched⟩
  · exact absurd reaches apart
  · exact ⟨earlier, later, split,
      writesBefore_of_served (fun _ _ => sound.id_of_module?) targetFound served untouched⟩

end Setting

/-! ## The order in a merged text -/

/-- A merge that succeeds for an analysed main file writes what a module asks of a dependency before
anything of the module itself, unless the dependency leads back to the module.  Where no module
leads back to itself, it does so for every dependency.  What has been written by some point gives
the first lines of the merged text. -/
theorem merge_writes_dependencies_first
    {config : MergeConfig}
    {tree : FileTree}
    {file : Path}
    {remarks : List Remark}
    {outcome : Outcome}
    (merged : merge config tree file = (remarks, .ok outcome))
    (analysed : (tree.parsedAt? (tree.normalize file)).isSome = true) :
    ∃ walk text,
      Setting.Completes ⟨config, tree⟩ (tree.normalize file) walk ∧
      tree.readAt (tree.normalize file) = .ok text ∧
      outcome = Setting.outcome ⟨config, tree⟩ (tree.normalize file) text walk ∧
      (∀ earlier later,
        walk.events = earlier ++ later →
          (Setting.output ⟨config, tree⟩ walk.registry earlier).linesBelow
              (header text walk.registry.futures) <+:
            Text.nonBlankLines outcome.text) ∧
      (∀ importer module,
        walk.registry.module? importer = some module →
          ∀ dependency ∈ module.dependencies,
            ∃ id target,
              walk.registry.lookup dependency.target.path = some id ∧
              walk.registry.module? id = some target ∧
              (¬ Relation.ReflTransGen walk.registry.Imports id importer →
                ∃ earlier later,
                  walk.events = earlier ++ later ∧
                  Setting.WritesBefore ⟨config, tree⟩ walk.registry earlier later target
                    dependency.request importer)) ∧
      ((∀ id, ¬ Relation.TransGen walk.registry.Imports id id) →
        ∀ importer module,
          walk.registry.module? importer = some module →
            ∀ dependency ∈ module.dependencies,
              ∃ id target earlier later,
                walk.registry.lookup dependency.target.path = some id ∧
                walk.registry.module? id = some target ∧
                walk.events = earlier ++ later ∧
                Setting.WritesBefore ⟨config, tree⟩ walk.registry earlier later target
                  dependency.request importer) := by
  unfold merge at merged
  split at merged
  next => cases (Prod.mk.inj merged).2
  next =>
    obtain ⟨walk, text, completes, readable, given⟩ :=
      Setting.completes_of_mergeAt merged analysed
    refine ⟨walk, text, completes, readable, given, ?_, ?_, ?_⟩
    · intro earlier later split
      rw [given]
      exact Setting.linesBelow_isPrefix_outcome split _ text
    · intro importer module found dependency member
      exact completes.writesBefore found member
    · intro acyclic importer module found dependency member
      obtain ⟨id, target, known, targetFound, unlessBack⟩ := completes.writesBefore found member
      have imports : walk.registry.Imports importer id :=
        ⟨module, found, dependency, member, known⟩
      have apart : ¬ Relation.ReflTransGen walk.registry.Imports id importer := by
        intro back
        exact acyclic importer (Relation.TransGen.head' imports back)
      obtain ⟨earlier, later, split, before⟩ := unlessBack apart
      exact ⟨id, target, earlier, later, known, targetFound, split, before⟩

theorem merge_writes_dependencies_first_knottedTree :
    ∃ remarks outcome walk module,
      merge {} knottedTree (.ofString "main.py") = (remarks, .ok outcome) ∧
        knottedSetting.Completes (knottedTree.normalize (.ofString "main.py")) walk ∧
        walk.registry.module? 0 = some module ∧
        module.dependencies.length = 2 ∧
        ∀ dependency ∈ module.dependencies,
          ∃ id target earlier later,
            walk.registry.lookup dependency.target.path = some id ∧
            walk.registry.module? id = some target ∧
            walk.events = earlier ++ later ∧
            knottedSetting.WritesBefore walk.registry earlier later target dependency.request
              0 := by
  have facts :
      ∃ walk module,
        knottedSetting.walkWithin 12 (knottedTree.normalize (.ofString "main.py")) = some walk ∧
          walk.registry.module? 0 = some module ∧
          module.dependencies.length = 2 ∧
          ∀ other ∈ walk.registry.modules, ∀ dependency ∈ other.dependencies,
            walk.registry.lookup dependency.target.path ≠ some 0 := by
    let walk :=
      (knottedSetting.walkWithin 12 (knottedTree.normalize (.ofString "main.py"))).getD
        (Walk.empty knottedSetting)
    refine ⟨walk, (walk.registry.module? 0).getD default, ?_⟩
    decide +kernel
  obtain ⟨walk, module, ended, found, count, mainUnasked⟩ := facts
  obtain ⟨remarks, outcome, merged⟩ :
      ∃ remarks outcome, merge {} knottedTree (.ofString "main.py") = (remarks, .ok outcome) :=
    Setting.merge_of_walkWithin 12 (by decide +kernel) (by decide +kernel)
  obtain ⟨other, _, completes, _, _, _, unlessBack, _⟩ :=
    merge_writes_dependencies_first merged (by decide +kernel)
  obtain rfl := completes.unique (Setting.completes_of_walkWithin 12 ended)
  refine ⟨remarks, outcome, other, module, merged, completes, found, count, ?_⟩
  intro dependency member
  obtain ⟨id, target, known, targetFound, writes⟩ := unlessBack 0 module found dependency member
  have apart : ¬ Relation.ReflTransGen other.registry.Imports id 0 := by
    intro back
    rcases back.cases_tail with same | ⟨importer, _, importing, importerFound, asking, asks, main⟩
    · rw [← same] at known
      exact mainUnasked module (List.mem_of_getElem? found) dependency member known
    · exact mainUnasked importing (List.mem_of_getElem? importerFound) asking asks main
  obtain ⟨earlier, later, split, before⟩ := writes apart
  exact ⟨id, target, earlier, later, known, targetFound, split, before⟩

end Inliner
