import Inliner.Proofs.Merge.DependencyOrder
import Inliner.Proofs.Merge.FixedPoint
import Inliner.Proofs.Merge.SingleInclusion
import Inliner.Proofs.Walk.Reads

/-!
# How a merged text is laid out

At the top stands the first line of the main file if it names the program to run, then one import
of all the language features that any of the files asks for, and then the chunks in the order in
which they were written.  The imports of language features are dropped where they stood, and the
chunk of the main file is all that is left of that file below its first line.
-/

namespace Inliner

open Syntax

/-! ## Language features -/

namespace ParsedSource

/-- The language features that a source asks for, in order. -/
def features (source : ParsedSource) : List String :=
  source.statements.flatMap fun statement =>
    match statement.kind with
    | .future names => names
    | _ => []

/-- A statement of a source asks for language features. -/
def AsksForFeatures (source : ParsedSource) : Prop :=
  ∃ statement ∈ source.statements, ∃ names, statement.kind = .future names

theorem names_ne_nil_of_future
    {text : Text}
    {source : ParsedSource}
    {statement : Statement}
    {names : List String}
    (parsed : parse text = .ok source)
    (member : statement ∈ source.statements)
    (isFuture : statement.kind = .future names) :
    names ≠ [] := by
  obtain ⟨nodes, rfl, lays⟩ := exists_nodes_of_parse parsed
  obtain ⟨node, isNode, rfl⟩ := List.mem_map.mp member
  have kind : node.form.kind = .future names := isFuture
  have sound := lays.forms node isNode
  cases form : node.form with
  | future others =>
      rw [form] at kind sound
      rw [← StatementKind.future.inj kind]
      exact sound
  | branch condition =>
      rw [form, Form.kind] at kind
      split at kind <;> cases kind
  | _ =>
      rw [form] at kind
      cases kind

theorem features_ne_nil_iff
    {text : Text}
    {source : ParsedSource}
    (parsed : parse text = .ok source) :
    source.features ≠ [] ↔ source.AsksForFeatures := by
  constructor
  · intro some
    obtain ⟨name, member⟩ := List.exists_mem_of_ne_nil _ some
    obtain ⟨statement, isStatement, named⟩ := List.mem_flatMap.mp member
    refine ⟨statement, isStatement, ?_⟩
    split at named
    next names isFuture => exact ⟨names, isFuture⟩
    next => cases named
  · rintro ⟨statement, isStatement, names, isFuture⟩ none
    apply names_ne_nil_of_future parsed isStatement isFuture
    have noNames := List.flatMap_eq_nil_iff.mp none statement isStatement
    rw [isFuture] at noNames
    exact noNames

end ParsedSource

/-- The language features that the file at a location asks for. -/
def FileTree.featuresAt (tree : FileTree) (location : Location) : List String :=
  match tree.parsedAt? location with
  | some source => source.features
  | none => []

namespace Setting

variable {setting : Setting} {main : Location} {walk : Walk}

/-- The language features that the files of a merge ask for, each once, in the order in which they
come up as the files are read. -/
def features (setting : Setting) (main : Location) : List String :=
  ((setting.reads main).flatMap setting.tree.featuresAt).eraseDups

theorem features_ne_nil_iff (setting : Setting) (main : Location) :
    setting.features main ≠ [] ↔
      ∃ location ∈ setting.reads main, ∃ source,
        setting.tree.parsedAt? location = some source ∧ source.AsksForFeatures := by
  constructor
  · intro some
    obtain ⟨name, member⟩ := List.exists_mem_of_ne_nil _ some
    obtain ⟨location, read, asked⟩ := List.mem_flatMap.mp (List.mem_eraseDups.mp member)
    refine ⟨location, read, ?_⟩
    unfold FileTree.featuresAt at asked
    split at asked
    next source found =>
      obtain ⟨text, parsed⟩ := FileTree.exists_parse_of_parsedAt? found
      exact ⟨source, found,
        (ParsedSource.features_ne_nil_iff parsed).mp (List.ne_nil_of_mem asked)⟩
    next => cases asked
  · rintro ⟨location, read, source, found, asks⟩
    obtain ⟨text, parsed⟩ := FileTree.exists_parse_of_parsedAt? found
    obtain ⟨name, asked⟩ :=
      List.exists_mem_of_ne_nil _ ((ParsedSource.features_ne_nil_iff parsed).mpr asks)
    have here : name ∈ setting.tree.featuresAt location := by
      rw [FileTree.featuresAt, found]
      exact asked
    exact List.ne_nil_of_mem
      (List.mem_eraseDups.mpr (List.mem_flatMap.mpr ⟨location, read, here⟩))

/-- A loaded module has the language features that its file asks for. -/
theorem futures_of_load
    {id : Nat}
    {location : Location}
    {isMain : Bool}
    {remarks : List Remark}
    {module : Module}
    (hoists : setting.config.hoistFutureImports = true)
    (loaded : setting.load id location isMain = (remarks, .ok module)) :
    module.futures = setting.tree.featuresAt location := by
  rw [FileTree.featuresAt, ← parsed_of_load loaded]
  cases loads_of_load loaded with
  | analysed readable analysed settled =>
      simp only [plannedModule, MergeConfig.futures, hoists, if_true]
      rfl
  | verbatim readable broken lenient => rfl

theorem Completes.futures_eq
    (completes : setting.Completes main walk)
    (hoists : setting.config.hoistFutureImports = true) :
    walk.registry.futures = setting.features main := by
  obtain ⟨remarks, module, locations, others, loaded, reads, modules, eachLoaded⟩ :=
    completes.exists_modules
  have rest : others.flatMap (·.futures) = locations.flatMap setting.tree.featuresAt := by
    clear reads modules
    induction eachLoaded with
    | nil => rfl
    | cons first _ inductionHypothesis =>
        obtain ⟨id, otherRemarks, otherLoaded⟩ := first
        rw [List.flatMap_cons, List.flatMap_cons, inductionHypothesis,
          futures_of_load hoists otherLoaded]
  rw [Registry.futures, features, reads, modules, List.flatMap_cons, List.flatMap_cons, rest,
    futures_of_load hoists loaded]

end Setting

/-! ## The first line -/

/-- The line that names the program to run stands at the top however the statements are edited. -/
theorem ParsedSource.prefix_render_of_shebang?
    {text line : Text}
    {source : ParsedSource}
    (parsed : parse text = .ok source)
    (named : shebang? text = some line)
    (edit : Nat → Edit) :
    line <+: source.render edit := by
  obtain ⟨nodes, rfl, lays⟩ := exists_nodes_of_parse parsed
  have inText := Text.prefix_of_shebang? named
  have inComment := length_le_commentLength_of_shebang? named
  cases segments : (ofNodes text nodes).segments with
  | nil =>
      have everything : (ofNodes text nodes).render edit = text := by
        have trailing : (ofNodes text nodes).trailing = ⟨0, text.length⟩ := by
          change (⟨Segment.stopOf (ofNodes text nodes).segments, text.length⟩ : Span) = _
          rw [segments]
          rfl
        rw [render, segments, List.flatMap_nil, List.nil_append, trailingText, trailing,
          Span.slice_zero]
        exact List.take_length
      rw [everything]
      exact inText
  | cons first rest =>
      cases nodes with
      | nil => cases segments
      | cons node nodes =>
          have isFirst : (ofNodes text (node :: nodes)).segments.head? = some first := by
            rw [segments]
            rfl
          obtain ⟨shown, rendered, _⟩ :=
            exists_renderSegment lays edit (List.mem_of_head? isFirst)
          have leading : line <+: first.leading.slice text := by
            refine .trans ?_ (comment_isPrefix_leading lays isFirst rfl)
            exact List.prefix_take_iff.mpr ⟨inText, inComment⟩
          rw [render, segments, List.flatMap_cons, rendered, List.append_assoc, List.append_assoc]
          exact leading.trans (List.prefix_append _ _)

/-- A text that starts with a line is cut below the line and the line ends after it. -/
def Text.CutsBelow (line whole below : Text) : Prop :=
  ∃ ends,
    whole = line ++ ends ++ below ∧
      (∀ character ∈ ends, character = '\r' ∨ character = '\n') ∧
      ∀ character, below.head? = some character → character ≠ '\r' ∧ character ≠ '\n'

theorem Text.cutsBelow_withoutShebang
    {line whole : Text}
    (starts : line <+: whole) :
    CutsBelow line whole (withoutShebang line whole) := by
  obtain ⟨rest, rfl⟩ := starts
  rw [Text.withoutShebang_append]
  refine ⟨rest.takeWhile isLineEnd, ?_, ?_, ?_⟩
  · rw [List.append_assoc, List.takeWhile_append_dropWhile]
  · intro character member
    simpa [isLineEnd] using List.mem_takeWhile_imp member
  · intro character isFirst
    have notEnd := List.head?_dropWhile_not isLineEnd rest
    rw [isFirst] at notEnd
    simpa [isLineEnd] using notEnd

/-- What is written of the main file is the whole file as it is edited, cut below the line that
names the program to run if it has one. -/
theorem ParsedSource.renderBelow_eq
    {text : Text}
    {source : ParsedSource}
    (parsed : parse text = .ok source)
    (edit : Nat → Edit) :
    (shebang? text = none → source.renderBelow edit = source.render edit) ∧
      ∀ line, shebang? text = some line →
        Text.CutsBelow line (source.render edit) (source.renderBelow edit) := by
  rw [renderBelow, text_of_parse parsed]
  refine ⟨fun unnamed => by rw [unnamed], ?_⟩
  intro line named
  rw [named]
  exact Text.cutsBelow_withoutShebang (prefix_render_of_shebang? parsed named edit)

theorem shebang?_eq_some_iff {text line : Text} :
    shebang? text = some line ↔
      (Text.lines text).head? = some line ∧ ['#', '!'] <+: line := by
  rw [shebang?, Option.filter_eq_some_iff, List.isPrefixOf_iff_prefix]

theorem futureLine_eq (features : List String) :
    futureLine features =
      if features = [] then
        []
      else
        "from __future__ import ".toList ++
          Text.joinWith [',', ' '] (features.map (·.toList)) ++ ['\n', '\n'] := by
  cases features with
  | nil => rfl
  | cons feature others => rfl

/-! ## Chunks -/

theorem joinChunks_separated
    (earlier later : List Chunk)
    (first second : Chunk) :
    joinChunks none (earlier ++ first :: second :: later) =
      joinChunks none (earlier ++ [first]) ++
        (if first.module = second.module then [] else ['\n', '\n']) ++
        joinChunks none (second :: later) := by
  have apart :
      joinChunks (some first.module) (second :: later) =
        (if first.module = second.module then [] else ['\n', '\n']) ++
          joinChunks none (second :: later) := by
    simp [joinChunks]
  rw [List.append_cons, joinChunks_append, List.getLast?_concat, Option.map_some, Option.some_or,
    apart, List.append_assoc]

namespace Setting

variable {setting : Setting} {main : Location} {walk : Walk}

/-- Every request that is served writes one chunk, in order. -/
theorem modules_of_chunks
    {registry : Registry}
    {events : List Event}
    (numbered : ∀ id module, registry.module? id = some module → module.id = id)
    (loaded : ∀ id request, (id, request) ∈ servedRequests events →
      ∃ module, registry.module? id = some module) :
    (setting.output registry events).chunks.map (·.module) =
      (servedRequests events).map (·.1) := by
  induction events using List.reverseRecOn with
  | nil => rfl
  | append_singleton events event inductionHypothesis =>
      have before := inductionHypothesis fun id request served =>
        loaded id request (by rw [servedRequests_append]; exact List.mem_append_left _ served)
      rw [output_append, servedRequests_append, List.map_append, ← before]
      cases event with
      | remark remark =>
          simp [outputStep, servedRequests, Event.serve?]
      | serve id request =>
          obtain ⟨module, found⟩ := loaded id request (by
            rw [servedRequests_append]
            exact List.mem_append_right _ List.mem_cons_self)
          simp [outputStep, found, Output.serve, servedRequests, Event.serve?,
            numbered id module found]

theorem Completes.modules_of_chunks
    (completes : setting.Completes main walk) :
    (setting.output walk.registry walk.events).chunks.map (·.module) =
      (servedRequests walk.events).map (·.1) := by
  have accounted := completes.accounted
  refine Setting.modules_of_chunks (fun _ _ found => accounted.sound.id_of_module? found) ?_
  intro id request served
  have assigned : (id, request) ∈ walk.assigned := List.mem_append_left _ served
  obtain ⟨key, given⟩ := accounted.balanced.key_of_assigned assigned
  obtain ⟨inRange, _⟩ := List.getElem?_eq_some_iff.mp given
  rw [Registry.length_keys, accounted.sound.length_eq] at inRange
  exact ⟨_, List.getElem?_eq_getElem inRange⟩

end Setting

/-! ## The layout of a merged text -/

/-- The imports of language features are dropped, and what is dropped is left out wherever segments
are rendered. -/
structure Module.HidesFeatures (module : Module) (source : ParsedSource) : Prop where
  dropped : ∀ index statement names,
    source.statements[index]? = some statement → statement.kind = .future names →
      module.edit index = .drop
  rendered : ∀ segment ∈ source.segments,
    source.renderSegment module.edit segment =
      if (source.editedSpans segment module.edit).all (·.2 == .drop) then
        segment.leading.slice source.text
      else
        Text.terminated
          (segment.leading.slice source.text ++
            shownFrom source.text segment.body.stop .keep segment.body.start
              (source.editedSpans segment module.edit))

theorem hidesFeatures_of_load
    {setting : Setting}
    {id : Nat}
    {location : Location}
    {isMain : Bool}
    {remarks : List Remark}
    {module : Module}
    {source : ParsedSource}
    (hoists : setting.config.hoistFutureImports = true)
    (loaded : setting.load id location isMain = (remarks, .ok module))
    (parsed : module.parsed = some source) :
    module.HidesFeatures source where
  dropped := by
    intro index statement names found isFuture
    rw [(editsStatements_of_load loaded parsed).future index statement names found isFuture,
      if_pos hoists]
  rendered := by
    intro segment member
    obtain ⟨nodes, rfl, lays⟩ := exists_nodes_of_parse (Setting.parse_of_load loaded parsed)
    exact ParsedSource.renderSegment_eq lays module.edit member

/-- How the text that a walk from a main file gives is laid out.  At the top stands the first line
of the main file if it names the program to run, then one import of the language features that the
files ask for, each once, and then the chunks.  Chunks of different modules stand apart, and their
segments are rendered from the modules, which are those of the files in the order in which these are
read. There is one chunk for each request that is served, and that for the request of the main file
holds the whole file below its first line. -/
structure Setting.LaysOut (setting : Setting) (main : Location) (mainText : Text) (walk : Walk)
    (merged : Text) : Prop where
  parts :
    merged =
      Text.normalizeBlankLines
        (((shebang? mainText).map (· ++ ['\n'])).getD [] ++ futureLine (setting.features main) ++
          joinChunks none (setting.output walk.registry walk.events).visible)
  topLine : ∀ line,
    shebang? mainText = some line ↔
      (Text.lines mainText).head? = some line ∧ ['#', '!'] <+: line
  featureLine :
    futureLine (setting.features main) =
      if setting.features main = [] then
        []
      else
        "from __future__ import ".toList ++
          Text.joinWith [',', ' '] ((setting.features main).map (·.toList)) ++ ['\n', '\n']
  features_nodup : (setting.features main).Nodup
  features_ne_nil :
    setting.features main ≠ [] ↔
      ∃ location ∈ setting.reads main, ∃ source,
        setting.tree.parsedAt? location = some source ∧ source.AsksForFeatures
  loaded :
    List.Forall₂
      (fun location module =>
        module.path = location.path ∧ module.parsed = setting.tree.parsedAt? location ∧
          ∀ source, module.parsed = some source → module.HidesFeatures source)
      (setting.reads main) walk.registry.modules
  separated : ∀ earlier first second later,
    (setting.output walk.registry walk.events).visible = earlier ++ first :: second :: later →
      joinChunks none (setting.output walk.registry walk.events).visible =
        joinChunks none (earlier ++ [first]) ++
          (if first.module = second.module then [] else ['\n', '\n']) ++
          joinChunks none (second :: later)
  rendered : ∀ chunk ∈ (setting.output walk.registry walk.events).chunks, ∀ index shown,
    Piece.segment index shown ∈ chunk.pieces →
      walk.registry.Renders (chunk.module, index) shown
  served :
    (setting.output walk.registry walk.events).chunks.map (·.module) =
      (servedRequests walk.events).map (·.1)
  mainChunk :
    ∃ module earlier later chunk after,
      walk.registry.module? 0 = some module ∧
        walk.events = earlier ++ .serve 0 .main :: later ∧
        (setting.output walk.registry (earlier ++ [.serve 0 .main])).chunks =
          (setting.output walk.registry earlier).chunks ++ [chunk] ∧
        (setting.output walk.registry walk.events).chunks =
          (setting.output walk.registry earlier).chunks ++ chunk :: after ∧
        (shebang? mainText = none → chunk.text = module.cleanedText) ∧
        ∀ line, shebang? mainText = some line →
          Text.CutsBelow line module.cleanedText chunk.text

theorem Setting.Completes.laysOut
    {setting : Setting}
    {main : Location}
    {text : Text}
    {walk : Walk}
    (completes : setting.Completes main walk)
    (readable : setting.tree.readAt main = .ok text)
    (hoists : setting.config.hoistFutureImports = true) :
    setting.LaysOut main text walk (setting.outcome main text walk).text := by
  obtain ⟨remarks, module, locations, others, loaded, reads, modules, eachLoaded⟩ :=
    completes.exists_modules
  have found : walk.registry.module? 0 = some module := by
    rw [Registry.module?, modules]
    rfl
  obtain rfl : module.text = text := Except.ok.inj ((text_of_load loaded).symm.trans readable)
  refine ⟨?_, fun _ => shebang?_eq_some_iff, futureLine_eq _, nodup_eraseDups _,
    setting.features_ne_nil_iff main, ?_, ?_, completes.writesOnce.rendered,
    completes.modules_of_chunks, ?_⟩
  · rw [← completes.futures_eq hoists]
    rfl
  · rw [reads, modules]
    refine .cons ⟨path_of_load loaded, parsed_of_load loaded,
      fun _ => hidesFeatures_of_load hoists loaded⟩ (eachLoaded.imp ?_)
    rintro location other ⟨id, otherRemarks, otherLoaded⟩
    exact ⟨path_of_load otherLoaded, parsed_of_load otherLoaded,
      fun _ => hidesFeatures_of_load hoists otherLoaded⟩
  · intro earlier first second later shown
    rw [shown]
    exact joinChunks_separated earlier later first second
  · obtain ⟨source, analysed⟩ := completes.exists_parsedAt?
    have parsed := (parsed_of_load loaded).trans analysed
    have isParse := parse_of_load loaded parsed
    obtain ⟨earlier, later, chunk, after, events, served, chunks, _, chunkText⟩ :=
      completes.exists_mainChunk found parsed (ParsedSource.text_of_parse isParse).symm
    refine ⟨module, earlier, later, chunk, after, found, events, served, chunks, ?_⟩
    rw [chunkText, Module.cleanedText, parsed]
    exact ParsedSource.renderBelow_eq isParse module.edit

/-- The text of a merge that succeeds for an analysed main file, with the imports of language
features moved to the top, is laid out as `Setting.LaysOut` says. -/
theorem merge_lays_out_text
    {config : MergeConfig}
    {tree : FileTree}
    {file : Path}
    {remarks : List Remark}
    {outcome : Outcome}
    (merged : merge config tree file = (remarks, .ok outcome))
    (analysed : (tree.parsedAt? (tree.normalize file)).isSome = true)
    (hoists : config.hoistFutureImports = true) :
    ∃ walk text,
      Setting.Completes ⟨config, tree⟩ (tree.normalize file) walk ∧
        tree.readAt (tree.normalize file) = .ok text ∧
        Setting.LaysOut ⟨config, tree⟩ (tree.normalize file) text walk outcome.text := by
  obtain ⟨_, mergedAt⟩ := mergeAt_of_merge merged
  obtain ⟨walk, text, completes, readable, rfl⟩ := Setting.completes_of_mergeAt mergedAt analysed
  exact ⟨walk, text, completes, readable, completes.laysOut readable hoists⟩

/-- A main file that names the program to run, and two library modules.  All of them ask for
language features. -/
def featuredTree : FileTree :=
  .ofTexts ["w"]
    [(["w", "main.py"],
        "#!/bin/x\nfrom __future__ import b, a; y = 2\nimport lib.c\nfrom lib.a import f\nf()\n"),
      (["w", "contest", "lib", "a.py"], "from __future__ import a, c\nx = 1\ndef f(): return x\n"),
      (["w", "contest", "lib", "c.py"], "from __future__ import d\n")]

theorem merge_lays_out_text_featuredTree :
    ∃ remarks outcome walk text,
      merge {} featuredTree (.ofString "main.py") = (remarks, .ok outcome) ∧
        outcome.text =
          ("#!/bin/x\nfrom __future__ import b, a, d, c\n\nx = 1\ndef f(): return x\n" ++
            "\ny = 2\nf()\n").toList ∧
        Setting.LaysOut ⟨{}, featuredTree⟩ (featuredTree.normalize (.ofString "main.py")) text walk
          outcome.text := by
  have evaluated :
      (mergeWithin 12 {} featuredTree (.ofString "main.py")).map (·.text) =
        some
          ("#!/bin/x\nfrom __future__ import b, a, d, c\n\nx = 1\ndef f(): return x\n" ++
            "\ny = 2\nf()\n").toList := by
    decide +kernel
  obtain ⟨remarks, outcome, merged, given⟩ := merge_of_mergeWithin 12 evaluated
  have analysed :
      (featuredTree.parsedAt? (featuredTree.normalize (.ofString "main.py"))).isSome = true := by
    decide +kernel
  obtain ⟨walk, text, _, _, laysOut⟩ := merge_lays_out_text merged analysed rfl
  exact ⟨remarks, outcome, walk, text, merged, given, laysOut⟩

end Inliner
