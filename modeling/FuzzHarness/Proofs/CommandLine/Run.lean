import FuzzHarness.Proofs.CommandLine.Inputs

/-!
# Running inputs from the command line

The command line runs the files it was given until their crashes use up the budget, a file cannot
be read or there are no more. Whichever it is, the runner has been shut down by then, and the
first input of each class has its two files.
-/

namespace FuzzHarness.CommandLine

/-- The mode that the command line asks for. -/
def Arguments.mode (arguments : Arguments) : Mode :=
  if arguments.provider then .provider else .bytes

def Arguments.start (arguments : Arguments) : String :=
  arguments.artifactStart.getD "./"

/-- What the command line answers, given the world at the end of the run. -/
inductive Finish.Yields (ended : World Unit) : Finish → Result → Prop
  | spent : Yields ended .spent ⟨77, ended.emissions, "", ended.tree⟩
  | unreadable (path : String) (fault : FileFault) :
      Yields ended (.unreadable path)
        ⟨1, ended.emissions ++
          [.line s!"ERROR: reading input {Text.quoted path}: {fault.message}"], "", ended.tree⟩
  | done : Yields ended .done ⟨0, ended.emissions, "", ended.tree⟩

theorem Finish.Yields.eq_of_spent {ended : World Unit} {result : Result}
    (yields : Finish.spent.Yields ended result) :
    result = ⟨77, ended.emissions, "", ended.tree⟩ := by
  cases yields
  rfl

variable {arguments : List String} {parsed : Arguments} {tree : FileTree} {settings : Settings}
  {runner : Runner Unit} {world : World Unit}

/-- Only valid settings are loaded. -/
theorem validate_of_loadSettings (loaded : loadSettings parsed tree = .ok settings) :
    settings.validate = .ok () := by
  rw [loadSettings] at loaded
  split at loaded
  · cases loaded
  · next found _ =>
    cases valid : (override parsed found).validate with
    | error fault =>
        dsimp only at loaded
        rw [valid] at loaded
        cases loaded
    | ok _ =>
        dsimp only at loaded
        rw [valid] at loaded
        obtain rfl := Except.ok.inj loaded
        exact valid

def answer : InputsEnd × Runner Unit × World Unit → Result
  | (.ended code, _, world) => .ofWorld code world
  | (.done, runner, world) => close runner world (.ofWorld 0)
  | (.failed failure, runner, world) => close runner world (.ofFailure failure)

/-- Without a reproducer to run, the inputs are run. -/
theorem run_eq (asked : read arguments = .ok parsed) (runs : parsed.reproduce = none)
    (loaded : loadSettings parsed tree = .ok settings)
    (built : (Demo.spec parsed.mode settings parsed.start).build (.fresh () tree) =
      (.ok runner, world)) :
    run arguments tree =
      answer (runInputs (parsed.inputs.flatMap (inputsAt world.tree)) runner world) := by
  have loaded : loadSettings parsed (World.fresh () tree).tree = .ok settings := loaded
  have built : RunnerSpec.build ⟨Demo.target (if parsed.provider then .provider else .bytes),
      settings, .standalone (parsed.artifactStart.getD "./"), some .shared, none⟩
        (.fresh () tree) = (.ok runner, world) := built
  rw [run, asked]
  dsimp only
  rw [runs]
  dsimp only
  rw [runAll, loaded]
  dsimp only
  rw [built]
  rfl

theorem close_of_shutDown {after : Runner Unit} {closed : World Unit}
    (shut : runner.shutDown world = (.returned, after, closed)) (result : World Unit → Result) :
    close runner world result = result closed := by
  rw [close, shut]
  rfl

variable {mode : Mode} {start : String} {paths : List String} {ran : List Bytes} {finish : Finish}

/-- A run answers as its inputs end. -/
theorem Ending.yields (apart : Function.Injective Demo.Crash.token)
    (ending : Ending tree mode settings.keepGoing.toNat paths ran finish)
    (untouched : Untouched tree mode settings start paths ran)
    (follows : Demo.Follows mode settings start tree [] runner world) :
    (runner.feed world ran).map Visit.input = ran ∧
      Demo.Ends mode settings start tree (Demo.firsts mode ran) (runner.finish world ran) ∧
      finish.Yields (runner.finish world ran) (answer (runInputs paths runner world)) := by
  cases ending with
  | @spent before later path ran input reads few spent =>
      rw [List.map_append, List.map_append] at reads
      obtain ⟨reads, last⟩ := List.append_inj' reads rfl
      have among : path ∈ before ++ path :: later := List.mem_append_cons_self
      obtain ⟨after, left, passes, follows, runs⟩ := exists_passes apart follows
        (untouched.of_append (List.subset_append_left before _)) reads few
      have read : left.tree.content? path = some input :=
        (untouched.content?_eq among follows.shown).trans (List.cons.inj last).1
      rcases follows.call apart input with ⟨_, _, _, less⟩ | ⟨_, last, closed, exited, ends⟩
      · exact absurd less.few (Nat.not_lt.mpr spent)
      · rw [passes.finish_concat_of_exited exited, runs, runInputs_cons_of_exited read exited]
        exact ⟨passes.map_input_feed_concat input, ends, .spent⟩
  | @unreadable before later path ran reads unread few =>
      have among : path ∈ before ++ path :: later := List.mem_append_cons_self
      have spared :
          Untouched tree mode settings start (before ++ path :: later) ([] ++ ran ++ []) := by
        rwa [List.append_nil]
      obtain ⟨after, left, passes, follows, runs⟩ := exists_passes apart follows
        (spared.of_append (List.subset_append_left before _)) reads few
      have unread := (spared.content?_eq among follows.shown).trans unread
      obtain ⟨fault, failed⟩ := exists_runInputs_cons_of_unread unread after later
      obtain ⟨last, closed, shut, ended⟩ :=
        Runner.shutDown_of_clean (Demo.stopsClean mode) follows.shutdown left
      rw [passes.finish_eq, runs, failed, answer, close_of_shutDown shut, shut]
      exact ⟨passes.map_input_feed, follows.shown.ends ended, .unreadable path fault⟩
  | done reads few =>
      obtain ⟨after, left, passes, follows, runs⟩ := exists_passes apart follows untouched reads few
      obtain ⟨last, closed, shut, ended⟩ :=
        Runner.shutDown_of_clean (Demo.stopsClean mode) follows.shutdown left
      have all := runs []
      rw [List.append_nil] at all
      rw [passes.finish_eq, all, runInputs, answer, close_of_shutDown shut, shut]
      exact ⟨passes.map_input_feed, follows.shown.ends ended, .done⟩

/-- The command line runs the files that its inputs stand for, in their order, and comes to an
end in one way. It exits with 77 behind the first file with which the classes of crashes use up
the budget, with 1 where a file cannot be read before that, and with 0 behind the last file, and
runs no more. Every step of the shutdown has been taken once by then. Of the files that were run,
just the first of each class is saved and gets a reproducer, and just its finding is printed. It
is asked for that nothing is ignored, that the sites of crashes have tokens of their own, and
that none of these files takes the place of an input. What stands beneath the boundary of a
finding is left open. -/
theorem run_yields (asked : read arguments = .ok parsed) (runs : parsed.reproduce = none)
    (loaded : loadSettings parsed tree = .ok settings) (ignoring : settings.ignore = [])
    (apart : Function.Injective Demo.Crash.token) (expands : Expands tree parsed.inputs paths) :
    (∃ ran finish, Ending tree parsed.mode settings.keepGoing.toNat paths ran finish) ∧
      ∀ ran finish, Ending tree parsed.mode settings.keepGoing.toNat paths ran finish →
        Untouched tree parsed.mode settings parsed.start paths ran →
        ∃ runner world, (Demo.spec parsed.mode settings parsed.start).build (.fresh () tree) =
            (.ok runner, world) ∧
          (runner.feed world ran).map Visit.input = ran ∧
          Demo.Ends parsed.mode settings parsed.start tree (Demo.firsts parsed.mode ran)
            (runner.finish world ran) ∧
          finish.Yields (runner.finish world ran) (run arguments tree) := by
  obtain ⟨runner, world, built, kept, silent, steps⟩ :=
    @Demo.exists_build parsed.mode settings parsed.start (validate_of_loadSettings loaded) tree
  have follows := Demo.Follows.of_build ignoring built kept silent steps
  refine ⟨exists_ending tree parsed.mode (Nat.zero_lt_of_lt follows.few) paths, ?_⟩
  intro ran finish ending untouched
  have answered := run_eq asked runs loaded built
  rw [kept, ← expands_iff.mp expands] at answered
  rw [answered]
  exact ⟨runner, world, built, ending.yields apart untouched follows⟩

/-- A file, and a directory whose files are listed in the reverse order of their names. -/
def mixedTree : FileTree :=
  ((FileTree.empty.createFile "first" (Text.Utf8.ofString "BAD 1")).createFile "corpus/a"
    (Text.Utf8.ofString "BAD 2")).createFile "corpus/b" (Text.Utf8.ofString "CRAS")

/-- Go on for two findings and save crashing inputs in the directory of inputs. -/
def mixedArguments : List String :=
  ["-k2", "--no-dedup", "--artifact-prefix=corpus/", "first", "corpus", "missing"]

def mixedParsed : Arguments :=
  { Arguments.none with
    keepGoing := some 2
    noDedup := true
    artifactStart := some "corpus/"
    inputs := ["first", "corpus", "missing"] }

def mixedSettings : Settings :=
  { Settings.default with keepGoing := 2, dedup := false }

/-- The inputs that are run, which do not come to the file that is missing. -/
def mixedRan : List Bytes :=
  ["BAD 1", "BAD 2", "CRAS"].map Text.Utf8.ofString

theorem expands_mixed :
    Expands mixedTree mixedParsed.inputs ["first", "corpus/a", "corpus/b", "missing"] := by
  have paths : ["first", "corpus/a", "corpus/b", "missing"] = "first" ::
      (((["a", "b"].map (Path.join "corpus")).filter mixedTree.isFile) ++ ["missing"]) := by
    decide +kernel
  have first : mixedTree.locate "first" = .ok (["first"], .file (Text.Utf8.ofString "BAD 1")) := by
    decide +kernel
  have corpus : mixedTree.locate "corpus" = .ok (["corpus"], .directory) := by decide +kernel
  have listed : mixedTree.fileNames ["corpus"] = ["b", "a"] := by decide +kernel
  have missing : mixedTree.locate "missing" = .error .notFound := by decide +kernel
  rw [paths]
  refine .file ?_ (.directory corpus ?_ (by decide +kernel) (.file ?_ .nil))
  · rw [first]
    nofun
  · rw [listed]
    exact .swap _ _ _
  · rw [missing]
    nofun

theorem untouched_mixed :
    Untouched mixedTree .bytes mixedSettings "corpus/"
      ["first", "corpus/a", "corpus/b", "missing"] mixedRan := by
  have apart : ∀ path ∈ ["first", "corpus/a", "corpus/b", "missing"],
      ∀ input ∈ Demo.firsts .bytes mixedRan,
        ∀ file ∈ Demo.files .bytes mixedSettings "corpus/" input,
          mixedTree.destination file.1 ≠
            mixedTree.walk (Place.startOf path) (Path.components path) := by
    decide +kernel
  intro path mem input first file among place leads walked
  exact absurd (leads.trans walked.symm) (apart path mem input first file among)

/-- The sites have names of their own, and so tokens of their own. -/
theorem token_injective : Function.Injective Demo.Crash.token := by
  have differ : ∀ crash other : Demo.Crash, crash.token = other.token → crash = other := by
    intro crash other
    cases crash <;> cases other <;> decide +kernel
  exact differ

/-- Two crashes of one class count once; the third input is of a second class and ends the run. -/
theorem mixed_yields :
    read mixedArguments = .ok mixedParsed ∧
      loadSettings mixedParsed mixedTree = .ok mixedSettings ∧
      Expands mixedTree mixedParsed.inputs ["first", "corpus/a", "corpus/b", "missing"] ∧
      Ending mixedTree .bytes 2 ["first", "corpus/a", "corpus/b", "missing"] mixedRan .spent ∧
      Untouched mixedTree .bytes mixedSettings "corpus/"
        ["first", "corpus/a", "corpus/b", "missing"] mixedRan ∧
      ∃ ended : World Unit,
        Demo.Ends .bytes mixedSettings "corpus/" mixedTree
          [Text.Utf8.ofString "BAD 1", Text.Utf8.ofString "CRAS"] ended ∧
        run mixedArguments mixedTree = ⟨77, ended.emissions, "", ended.tree⟩ := by
  have asked : read mixedArguments = .ok mixedParsed := by decide +kernel
  have loaded : loadSettings mixedParsed mixedTree = .ok mixedSettings := by decide +kernel
  have ending : Ending mixedTree .bytes 2 ["first", "corpus/a", "corpus/b", "missing"] mixedRan
      .spent :=
    @Ending.spent mixedTree .bytes 2 ["first", "corpus/a"] ["missing"] "corpus/b"
      [Text.Utf8.ofString "BAD 1", Text.Utf8.ofString "BAD 2"] (Text.Utf8.ofString "CRAS")
      (by decide +kernel) (by decide +kernel) (by decide +kernel)
  obtain ⟨_, law⟩ := run_yields asked rfl loaded rfl token_injective expands_mixed
  obtain ⟨runner, world, _, _, ends, yields⟩ := law mixedRan .spent ending untouched_mixed
  have firsts : Demo.firsts .bytes mixedRan =
      [Text.Utf8.ofString "BAD 1", Text.Utf8.ofString "CRAS"] := by decide +kernel
  change Demo.Ends .bytes mixedSettings "corpus/" mixedTree (Demo.firsts .bytes mixedRan) _ at ends
  rw [firsts] at ends
  exact ⟨asked, loaded, expands_mixed, ending, untouched_mixed, runner.finish world mixedRan, ends,
    yields.eq_of_spent⟩

end FuzzHarness.CommandLine
