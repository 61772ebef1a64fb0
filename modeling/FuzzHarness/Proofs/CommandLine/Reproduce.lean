import FuzzHarness.Proofs.CommandLine.Run
import FuzzHarness.Proofs.Runner.Files

/-!
# Reproducing from the command line

What the command line reports about an input comes up again when it is asked to run the
reproducer, in the mode of the input and with the same finding. The way goes over two processes
and a file: nothing is kept of the first run but its files, and the reproducer must not be lost
to a coverage sink.
-/

namespace FuzzHarness.CommandLine

variable {arguments : List String} {parsed : Arguments} {tree : FileTree} {settings : Settings}
  {mode : Mode} {start path : String} {input : Bytes} {place : Place}
  {runner after : Runner Unit} {world left : World Unit}

def crashPath (mode : Mode) (settings : Settings) (input : Bytes) : String :=
  (Demo.artifact mode input).pathIn settings.reproducerPath

/-- Running a reproducer answers as its input does. -/
theorem run_reproduce (asked : read arguments = .ok parsed) (names : parsed.reproduce = some path)
    (stored : Artifact.readFrom tree path = .ok (Demo.artifact mode input)) {finding : Finding}
    (crashes : Demo.finding? mode input = some finding) :
    ∃ again, again.above = finding ∧
      run arguments tree = ⟨77, [.finding .iteration again], "", tree⟩ := by
  have stored : Artifact.readFrom (World.fresh () tree).tree path =
    .ok (Demo.artifact mode input) := stored
  obtain ⟨found, replayed, same⟩ :=
    @Demo.replay_artifact (World.fresh () tree).host mode input rfl
  have same : found.map Finding.above = some finding := same.trans crashes
  obtain ⟨again, rfl, alike⟩ := Option.map_eq_some_iff.mp same
  refine ⟨again, alike, ?_⟩
  have replayed : ((Demo.artifact mode input).replay (Demo.target (Demo.artifact mode input).mode)
    (World.fresh () tree).host).1 = .ok (some again) := replayed
  rw [run, asked]
  dsimp only
  rw [names]
  dsimp only
  rw [reproduce, stored]
  dsimp only
  rw [replayed]
  rfl

/-- A call that returns is followed by the shutdown of the runner. -/
theorem exists_answer_of_returned (read : world.tree.content? path = some input)
    (returned : runner.runOne input world = (.returned, after, left))
    (idles : (Demo.spec mode settings start).Idles after left) :
    ∃ closed, left.Closed (Demo.spec mode settings start) closed ∧
      answer (runInputs [path] runner world) = ⟨0, closed.emissions, "", closed.tree⟩ := by
  obtain ⟨last, closed, shut, ended⟩ :=
    Runner.shutDown_of_clean (Demo.stopsClean mode) idles.shutdown left
  refine ⟨closed, ended, ?_⟩
  rw [runInputs_cons_of_returned read returned, runInputs, answer, close_of_shutDown shut]
  rfl

/-- A call that comes to its conclusion shuts the runner down now or later. -/
theorem exists_answer_of_concluded (read : world.tree.content? path = some input)
    (concluded : runner.runOne input world = after.conclude left)
    (idles : (Demo.spec mode settings start).Idles after left) :
    ∃ code closed, left.Closed (Demo.spec mode settings start) closed ∧
      answer (runInputs [path] runner world) = ⟨code, closed.emissions, "", closed.tree⟩ := by
  cases decision : after.budget.afterReport with
  | proceed =>
      have returned := concluded.trans (Runner.conclude_proceed decision left)
      exact ⟨0, exists_answer_of_returned read returned idles⟩
  | terminate =>
      obtain ⟨last, closed, exited, ended⟩ :=
        Runner.conclude_of_clean (Demo.stopsClean mode) idles.shutdown decision left
      refine ⟨findingExitCode, closed, ended, ?_⟩
      rw [runInputs_cons_of_exited read (concluded.trans exited)]
      rfl

/-- The reproducer is in its place behind a report. -/
theorem content?_withFiles (leads : tree.destination (crashPath mode settings input) = .ok place) :
    (Demo.withFiles mode settings start tree [input]).content? (crashPath mode settings input) =
      some (Text.Utf8.ofString (Demo.artifact mode input).render) := by
  have hashed : ∀ c ∈ (Demo.artifact mode input).contentHash.toList, c ≠ '/' :=
    fun c mem => ne_slash_of_mem_contentHash mem
  have saved : (Demo.artifact mode input).file settings.reproducerPath ∈
      [input].flatMap (Demo.files mode settings start) := by
    rw [List.flatMap_singleton]
    exact List.mem_cons_of_mem _ (List.mem_singleton_self _)
  apply FileTree.content?_saveAll_of_mem saved leads
  intro file among same
  rw [List.flatMap_singleton] at among
  rcases List.mem_cons.mp among with rfl | among
  · exact absurd same (Engine.destination_ne hashed leads start input)
  · rw [List.mem_singleton.mp among, Artifact.file]

/-- A world that shows a report of one input, when the runner has been shut down in it. -/
theorem readFrom_of_closed (leads : tree.destination (crashPath mode settings input) = .ok place)
    (apart : ∀ there ∈ (Demo.spec mode settings start).sinks.paths,
      tree.destination there ≠ .ok place)
    (shown : Demo.Shows mode settings start tree [input] left) {closed : World Unit}
    (shut : left.Closed (Demo.spec mode settings start) closed) :
    Artifact.readFrom closed.tree (crashPath mode settings input) =
      .ok (Demo.artifact mode input) := by
  have same : (Demo.withFiles mode settings start tree [input]).directories = tree.directories :=
    FileTree.saveAll_directories tree _
  obtain ⟨host, flushed⟩ := shut.tree
  have spared := (Demo.spec mode settings start).sinks.flush_spares host
    (FileTree.destination_congr same leads)
    (fun there mem => Sinks.destination_ne_congr same (apart there mem))
  apply Artifact.readFrom_of_read (Demo.isPlain_artifact mode input)
  rw [flushed, shown.tree, spared.read]
  exact FileTree.content?_eq_some_iff.mp (content?_withFiles leads)

/-- What the command line is asked to do with one file, whose content is this. -/
structure RunsOn (arguments : List String) (parsed : Arguments) (settings : Settings)
    (tree : FileTree) (input : Bytes) : Prop where
  asked : read arguments = .ok parsed
  runs : parsed.reproduce = none
  loaded : loadSettings parsed tree = .ok settings
  stored : ∃ path, Expands tree parsed.inputs [path] ∧ tree.read path = .ok input

/-- A run on one file says nothing and saves nothing, or reports what the file leads to. -/
theorem RunsOn.exists_closed (on : RunsOn arguments parsed settings tree input) :
    ∃ code left closed, run arguments tree = ⟨code, closed.emissions, "", closed.tree⟩ ∧
      left.Closed (Demo.spec parsed.mode settings parsed.start) closed ∧
      (Demo.Shows parsed.mode settings parsed.start tree [] left ∨
        Demo.finding? parsed.mode input ≠ none ∧
          Demo.Shows parsed.mode settings parsed.start tree [input] left) := by
  obtain ⟨asked, runs, loaded, path, expands, stored⟩ := on
  obtain ⟨runner, world, built, kept, silent, steps⟩ :=
    @Demo.exists_build parsed.mode settings parsed.start (validate_of_loadSettings loaded) tree
  have answered := run_eq asked runs loaded built
  rw [kept, ← expands_iff.mp expands] at answered
  rw [answered]
  have read : world.tree.content? path = some input := by
    rw [kept]
    exact FileTree.content?_eq_some_iff.mpr stored
  let visit : Visit Unit := ⟨runner, world, input⟩
  have nothing : Demo.Shows parsed.mode settings parsed.start tree [] visit.world :=
    ⟨kept, by rw [World.printed, silent]; rfl, steps⟩
  have idles : (Demo.spec parsed.mode settings parsed.start).Idles visit.runner visit.world :=
    .of_build built
  have examined := RunnerSpec.Idles.of_examined idles.toDrives
  cases crashes : Demo.finding? parsed.mode input with
  | none =>
      have returned := Visit.result_of_quiet (Demo.found_of_harmless idles crashes)
      obtain ⟨closed, shut, ended⟩ := exists_answer_of_returned read returned examined
      exact ⟨0, _, closed, ended, shut, .inl nothing.examined⟩
  | some finding =>
      obtain ⟨raised, alike, found⟩ := Demo.exists_raised idles crashes
      rcases passed : visit.examined.1.offer ((Demo.spec parsed.mode settings
        parsed.start).classifier.classify raised).token with ⟨admission, offered⟩
      cases admission with
      | suppress =>
          have returned := Visit.result_of_suppressed found passed
          obtain ⟨closed, shut, ended⟩ := exists_answer_of_returned read returned
            ⟨examined.toDrives.offered passed, examined.quiet⟩
          exact ⟨0, _, closed, ended, shut, .inl (nothing.examined.skipped _)⟩
      | report =>
          obtain ⟨after, left, concluded, idles, _, leaves⟩ := Demo.exists_leaves idles found passed
          have shown : Demo.Shows parsed.mode settings parsed.start tree [input] left :=
            nothing.concat crashes alike leaves
          obtain ⟨code, closed, shut, ended⟩ := exists_answer_of_concluded read concluded idles
          exact ⟨code, left, closed, ended, shut, .inr ⟨Option.some_ne_none finding, shown⟩⟩

/-- What a run of the command line on one file reports is, above the boundary, the crash of the
demo target that the file leads to. The reproducer that is left tells the mode of the run, and a
later command line that is asked to run it exits with 77 and prints this finding again and
nothing else, whatever other options it has. A file that leads to no crash is not reported, and
then the file of its reproducer is as it was. It is asked for that the reproducer can be written
and that no coverage sink leads to its file. -/
theorem run_reproduces (on : RunsOn arguments parsed settings tree input)
    (leads : tree.destination (crashPath parsed.mode settings input) = .ok place)
    (apart : ∀ there ∈ (Demo.spec parsed.mode settings parsed.start).sinks.paths,
      tree.destination there ≠ .ok place) :
    (∀ finding, .finding .iteration finding ∈ (run arguments tree).emissions →
      (∃ crash, Demo.crash? parsed.mode input = some crash ∧
          finding.above = crash.finding input) ∧
        Artifact.readFrom (run arguments tree).tree (crashPath parsed.mode settings input) =
          .ok (Demo.artifact parsed.mode input) ∧
        ∀ again options, read again = .ok options →
          options.reproduce = some (crashPath parsed.mode settings input) →
            ∃ same, same.above = finding.above ∧
              run again (run arguments tree).tree =
                ⟨77, [.finding .iteration same], "", (run arguments tree).tree⟩) ∧
      (Demo.crash? parsed.mode input = none →
        (∀ finding, .finding .iteration finding ∉ (run arguments tree).emissions) ∧
          (run arguments tree).tree.content? (crashPath parsed.mode settings input) =
            tree.content? (crashPath parsed.mode settings input)) := by
  obtain ⟨code, left, closed, ran, shut, shown⟩ := on.exists_closed
  have printed {finding : Finding} :
      .finding .iteration finding ∈ (run arguments tree).emissions ↔ finding ∈ left.printed := by
    rw [ran, shut.emissions, World.mem_printed]
  rcases shown with shown | ⟨raised, shown⟩
  · have silent (finding : Finding) :
        .finding .iteration finding ∉ (run arguments tree).emissions := by
      rw [printed, List.map_eq_nil_iff.mp shown.printed]
      exact List.not_mem_nil
    refine ⟨fun finding reported => absurd reported (silent finding), fun _ => ⟨silent, ?_⟩⟩
    obtain ⟨host, flushed⟩ := shut.tree
    have spared := (Demo.spec parsed.mode settings parsed.start).sinks.flush_spares host leads apart
    rw [ran]
    dsimp only
    rw [flushed, shown.tree]
    exact congrArg Except.toOption spared.read
  · refine ⟨?_, ?_⟩
    · intro finding reported
      have shows := @List.mem_map_of_mem _ _ _ _ Finding.above (printed.mp reported)
      rw [shown.printed, List.mem_filterMap] at shows
      obtain ⟨_, among, found⟩ := shows
      rw [List.mem_singleton.mp among] at found
      obtain ⟨crash, crashes, same⟩ := Option.map_eq_some_iff.mp found
      have stored : Artifact.readFrom (run arguments tree).tree
          (crashPath parsed.mode settings input) = .ok (Demo.artifact parsed.mode input) := by
        rw [ran]
        exact readFrom_of_closed leads apart shown shut
      exact ⟨⟨crash, crashes, same.symm⟩, stored,
        fun again options asked names => run_reproduce asked names stored found⟩
    · intro harmless
      rw [Demo.finding?, harmless] at raised
      exact absurd rfl raised

/-- The settings have the coverage dumped to the file of the reproducer for the one input. -/
def dumpedSettings : Settings :=
  { Settings.default with coverageDump := some "Crash_f1b68d66337a81cfa0d2076171cba2a8.rs" }

def dumpedTree : FileTree :=
  (FileTree.empty.createFile "config.toml" (Text.Utf8.ofString
    "coverage-dump = \"Crash_f1b68d66337a81cfa0d2076171cba2a8.rs\"\n")).createFile "input"
    (Text.Utf8.ofString "BAD")

/-- The crash is reported and its reproducer is written. But what stands in the file in the end is
the coverage, so that the crash does not come up again. -/
theorem dumped_not_reproduced :
    loadSettings { Arguments.none with inputs := ["input"] } dumpedTree = .ok dumpedSettings ∧
      crashPath .bytes dumpedSettings (Text.Utf8.ofString "BAD") =
        "./Crash_f1b68d66337a81cfa0d2076171cba2a8.rs" ∧
      (∃ runner world, (Demo.spec .bytes dumpedSettings "./").build (.fresh () dumpedTree) =
          (.ok runner, world) ∧
        .reproducerWritten "./Crash_f1b68d66337a81cfa0d2076171cba2a8.rs" ∈
          (runner.finish world [Text.Utf8.ofString "BAD"]).host.log) ∧
      .finding .iteration (.capturedAt (Demo.badSite.upon (Way.execute .bytes).frames)
          Finding.panicKind "BAD input detected by harness!") ∈
        (run ["input"] dumpedTree).emissions ∧
      (run ["input"] dumpedTree).tree.content? "./Crash_f1b68d66337a81cfa0d2076171cba2a8.rs" =
        some (Text.Utf8.ofString "[0,1,2]") ∧
      (run ["--reproduce", "./Crash_f1b68d66337a81cfa0d2076171cba2a8.rs"]
        (run ["input"] dumpedTree).tree).exitCode = 1 ∧
      (run ["--reproduce", "./Crash_f1b68d66337a81cfa0d2076171cba2a8.rs"]
        (run ["input"] dumpedTree).tree).emissions =
          [.line "ERROR: reproducer is missing its fuzz target line"] := by
  refine ⟨by decide +kernel, by decide +kernel, ?_, by decide +kernel⟩
  have built : (Demo.spec .bytes dumpedSettings "./").build (.fresh () dumpedTree) =
    (.ok ((Demo.spec .bytes dumpedSettings "./").runner []),
      ((Demo.spec .bytes dumpedSettings "./").build (.fresh () dumpedTree)).2) := rfl
  exact ⟨_, _, built, by decide +kernel⟩

/-- A word, and behind it a character of two octets on the end of the name. -/
def cutInput : Bytes :=
  Text.Utf8.ofString "BAD, a long na\"" ++ [0xC3, 0xA9, 0x09]

def cutTree : FileTree :=
  FileTree.empty.createFile "input" cutInput

/-- The name is cut in the middle of the character, and the finding comes up again as it was,
quoted name and all. -/
theorem cut_reproduces :
    ∃ finding same, RunsOn ["--provider", "input"]
        { Arguments.none with provider := true, inputs := ["input"] } Settings.default cutTree
        cutInput ∧
      cutTree.destination (crashPath .provider Settings.default cutInput) =
        .ok ["Crash_" ++ contentHash cutInput ++ ".rs"] ∧
      (Demo.spec .provider Settings.default "./").sinks.paths = [] ∧
      .finding .iteration finding ∈ (run ["--provider", "input"] cutTree).emissions ∧
      finding.top.message = "record \"BAD, a long na\\\"\ufffd\" claims 9 entries" ∧
      same.above = finding.above ∧
      run ["--reproduce", crashPath .provider Settings.default cutInput]
          (run ["--provider", "input"] cutTree).tree =
        ⟨77, [.finding .iteration same], "", (run ["--provider", "input"] cutTree).tree⟩ := by
  have on : RunsOn ["--provider", "input"]
      { Arguments.none with provider := true, inputs := ["input"] } Settings.default cutTree
      cutInput := by
    have located : cutTree.locate "input" = .ok (["input"], .file cutInput) := by decide +kernel
    have plain : ∀ place, cutTree.locate "input" ≠ .ok (place, .directory) := by
      rw [located]
      rintro place ⟨⟩
    exact ⟨by decide +kernel, rfl, by decide +kernel, "input", .file plain .nil,
      by decide +kernel⟩
  have leads : cutTree.destination (crashPath .provider Settings.default cutInput) =
      .ok ["Crash_" ++ contentHash cutInput ++ ".rs"] := by
    decide +kernel
  have sinkless : (Demo.spec .provider Settings.default "./").sinks.paths = [] := by
    decide +kernel
  have reported : .finding .iteration
      (.capturedAt (Demo.recordSite.upon (Way.execute .provider).frames) Finding.panicKind
        (Demo.Crash.message cutInput .record)) ∈
      (run ["--provider", "input"] cutTree).emissions := by
    decide +kernel
  have apart : ∀ there ∈ (Demo.spec .provider Settings.default "./").sinks.paths,
      cutTree.destination there ≠ .ok ["Crash_" ++ contentHash cutInput ++ ".rs"] := by
    rw [sinkless]
    exact fun there mem => absurd mem List.not_mem_nil
  obtain ⟨same, alike, again⟩ := ((run_reproduces on leads apart).1 _ reported).2.2
    ["--reproduce", crashPath .provider Settings.default cutInput]
    { Arguments.none with
      reproduce := some (crashPath .provider Settings.default cutInput) } (by decide +kernel) rfl
  exact ⟨_, same, on, leads, sinkless, reported, by decide +kernel, alike, again⟩

end FuzzHarness.CommandLine
