import FuzzHarness.Proofs.Demo
import FuzzHarness.Proofs.Runner.ReportLaw
import FuzzHarness.Proofs.Runner.Saving
import FuzzHarness.Proofs.Settings
import Mathlib.Data.Finset.Option

/-!
# Runs of the demo targets

A runner for a demo target that ignores nothing reports the first input of each class of
crashes, and goes on until so many classes have been seen as its budget allows. The invariant of
a run says of the inputs run so far that their classes are what the budget knows, and that for
the first of each class the files have been saved and the finding has been printed.
-/

namespace FuzzHarness.Demo

def classes (mode : Mode) (inputs : List Bytes) : Finset Crash :=
  (inputs.filterMap (crash? mode)).toFinset

/-- Whether an input crashes in a way in which none of the earlier ones does. -/
def isFirst (mode : Mode) (before : List Bytes) (input : Bytes) : Bool :=
  (crash? mode input).any fun crash => crash ∉ classes mode before

/-- The inputs that are the first of their class, earlier ones counting as run. -/
def firstsAfter (mode : Mode) (before : List Bytes) : List Bytes → List Bytes
  | [] => []
  | input :: inputs =>
    (if isFirst mode before input then [input] else []) ++
      firstsAfter mode (before ++ [input]) inputs

def firsts (mode : Mode) (inputs : List Bytes) : List Bytes :=
  firstsAfter mode [] inputs

variable {mode : Mode} {seen inputs : List Bytes} {input : Bytes} {crash : Crash}

theorem mem_classes :
    crash ∈ classes mode seen ↔ ∃ input ∈ seen, crash? mode input = some crash := by
  rw [classes, List.mem_toFinset, List.mem_filterMap]

theorem classes_concat (mode : Mode) (seen : List Bytes) (input : Bytes) :
    classes mode (seen ++ [input]) = classes mode seen ∪ (crash? mode input).toFinset := by
  ext crash
  rw [Finset.mem_union, mem_classes, mem_classes, Option.mem_toFinset, Option.mem_def]
  simp [or_and_right, exists_or]

theorem classes_subset_append (mode : Mode) (seen inputs : List Bytes) :
    classes mode seen ⊆ classes mode (seen ++ inputs) := by
  intro crash mem
  obtain ⟨input, among, same⟩ := mem_classes.mp mem
  exact mem_classes.mpr ⟨input, List.mem_append_left inputs among, same⟩

/-- An input that is not the first of a class adds no class. -/
theorem classes_concat_of_not_first (known : isFirst mode seen input = false) :
    classes mode (seen ++ [input]) = classes mode seen := by
  rw [classes_concat, Finset.union_eq_left]
  intro crash mem
  rw [isFirst, Option.mem_def.mp (Option.mem_toFinset.mp mem)] at known
  simpa using known

theorem exists_of_isFirst (first : isFirst mode seen input = true) :
    ∃ crash, crash? mode input = some crash ∧ crash ∉ classes mode seen ∧
      classes mode (seen ++ [input]) = insert crash (classes mode seen) := by
  cases same : crash? mode input with
  | none =>
      rw [isFirst, same] at first
      cases first
  | some crash =>
      rw [isFirst, same] at first
      refine ⟨crash, rfl, of_decide_eq_true first, ?_⟩
      rw [classes_concat, same, Finset.union_comm]
      rfl

theorem firstsAfter_append (mode : Mode) (before inputs later : List Bytes) :
    firstsAfter mode before (inputs ++ later) =
      firstsAfter mode before inputs ++ firstsAfter mode (before ++ inputs) later := by
  induction inputs generalizing before with
  | nil => simp [firstsAfter]
  | cons head inputs ih =>
      rw [List.cons_append, firstsAfter, firstsAfter, ih, List.append_assoc, List.append_assoc]
      rfl

theorem firsts_append (mode : Mode) (seen later : List Bytes) :
    firsts mode (seen ++ later) = firsts mode seen ++ firstsAfter mode seen later :=
  firstsAfter_append mode [] seen later

theorem firsts_concat (mode : Mode) (seen : List Bytes) (input : Bytes) :
    firsts mode (seen ++ [input]) =
      firsts mode seen ++ if isFirst mode seen input then [input] else [] := by
  rw [firsts_append, firstsAfter, firstsAfter, List.append_nil]

/-- The finding that an input leads to, as it is above the boundary. -/
def finding? (mode : Mode) (input : Bytes) : Option Finding :=
  (crash? mode input).map (Crash.finding input)

/-- The runner of a demo target with an engine that saves crashing inputs. -/
def spec (mode : Mode) (settings : Settings) (start : String) : RunnerSpec Unit where
  target := target mode
  settings := settings
  engine := .standalone start
  recorder := some .shared
  normalizer := none

def files (mode : Mode) (settings : Settings) (start : String) (input : Bytes) :
    List (String × Bytes) :=
  [(s!"{start}crash-{contentHash input}", input),
    (artifact mode input).file settings.reproducerPath]

variable {settings : Settings} {start : String} {runner : Runner Unit} {world : World Unit}
  {visit : Visit Unit}

theorem stopsClean (mode : Mode) : (target mode).StopsClean :=
  fun _ => rfl

/-- With valid settings the runner is built, and no file is touched. -/
theorem exists_build (valid : settings.validate = .ok ()) (tree : FileTree) :
    ∃ runner world, (spec mode settings start).build (.fresh () tree) = (.ok runner, world) ∧
      world.tree = tree ∧ world.emissions = [] ∧ world.host.steps = [] := by
  obtain ⟨tokens, parsed⟩ := Settings.exists_ignoredTokens valid
  have valid : (spec mode settings start).settings.validate = .ok () := valid
  have parsed : (spec mode settings start).settings.ignoredTokens = .ok tokens := parsed
  obtain ⟨host, announced⟩ := (spec mode settings start).exists_announce_eq (.fresh () tree)
  have uneventful := (spec mode settings start).build_uneventful (.fresh () tree)
  rw [RunnerSpec.build, valid, parsed, announced] at uneventful ⊢
  exact ⟨_, _, rfl, rfl, rfl, uneventful.steps⟩

/-- What the target is found to do with an input. -/
theorem above_outcome (idles : (spec mode settings start).Idles visit.runner visit.world) :
    visit.outcome.finding?.map Finding.above = finding? mode visit.input :=
  finding?_execute idles.target idles.quiet visit.input

theorem found_of_harmless (idles : (spec mode settings start).Idles visit.runner visit.world)
    (harmless : finding? mode visit.input = none) : visit.found = none := by
  have nothing := above_outcome idles
  rw [harmless, Option.map_eq_none_iff] at nothing
  exact Option.map_eq_none_iff.mpr nothing

theorem exists_raised (idles : (spec mode settings start).Idles visit.runner visit.world)
    {finding : Finding} (crashes : finding? mode visit.input = some finding) :
    ∃ raised, raised.above = finding ∧
      visit.found = some ((spec mode settings start).classifier.classify raised) := by
  have same := above_outcome idles
  rw [crashes] at same
  obtain ⟨raised, caught, alike⟩ := Option.map_eq_some_iff.mp same
  refine ⟨raised, alike, ?_⟩
  rw [← idles.classifier]
  exact Option.map_eq_some_iff.mpr ⟨raised, caught, rfl⟩

/-- Findings are reported as they are. -/
theorem finding_classify (finding : Finding) :
    ((spec mode settings start).classifier.classify finding).finding = finding := by
  have normalizer : (spec mode settings start).classifier.normalizer =
      if settings.hooks then some Stripper.empty.normalize else none := rfl
  rw [Classifier.classify, normalizer]
  cases settings.hooks with
  | false => rfl
  | true => exact Stripper.normalize_empty finding

theorem reproduced_eq (idles : (spec mode settings start).Idles visit.runner visit.world)
    {classified : Classified} {offered : Runner Unit}
    (passed : visit.examined.1.offer classified.token = (.report, offered)) :
    (visit.reproduced offered classified).1 = .artifact (artifact mode visit.input) := by
  have drives := idles.toDrives.examined.offered passed
  have quiet : (offered.announce classified visit.input visit.examined.2).host.reports.get .shared =
      none := by
    rw [Runner.announce_reports]
    exact (RunnerSpec.Idles.of_examined idles.toDrives).quiet
  apply generate_eq drives.target _ quiet
  rintro rfl
  rw [Visit.executor_of_offered passed]
  have entry : visit.runner.executor.target.entry = .provider checkRecords :=
    congrArg Target.entry idles.target
  exact (Executor.execute_provider entry visit.input visit.world.host).2

/-- What is reported is saved and printed before the run is concluded. -/
theorem exists_leaves (idles : (spec mode settings start).Idles visit.runner visit.world)
    {classified : Classified} {offered : Runner Unit} (found : visit.found = some classified)
    (passed : visit.examined.1.offer classified.token = (.report, offered)) :
    ∃ after left, visit.result = after.conclude left ∧
      (spec mode settings start).Idles after left ∧ after.budget = offered.budget ∧
      visit.Leaves (spec mode settings start) classified (artifact mode visit.input) left := by
  have drives := idles.toDrives.examined.offered passed
  have quiet := (RunnerSpec.Idles.of_examined idles.toDrives).quiet
  have made := reproduced_eq idles passed
  have isMade : (visit.reproduced offered classified).1.isMade = true := by rw [made]; rfl
  exact ⟨_, _, Visit.Admits.result_of_made ⟨found, passed⟩ isMade,
    RunnerSpec.Idles.reproduced ⟨drives, quiet⟩ rfl classified, rfl,
    Visit.leaves_reproduced drives rfl made⟩

/-- The tokens that a budget knows are those of the classes seen so far. A budget of one
knows nothing. -/
structure Counts (mode : Mode) (settings : Settings) (seen : List Bytes) (budget : Budget) :
    Prop where
  known : 1 < settings.keepGoing → ∀ crash : Crash,
    crash.token ∈ budget.known.tokens ↔ crash ∈ classes mode seen
  size : 1 < settings.keepGoing → budget.known.size = (classes mode seen).card

theorem token_classify (many : 1 < settings.keepGoing) {raised : Finding}
    (alike : raised.above = crash.finding input) :
    ((spec mode settings start).classifier.classify raised).token = crash.token := by
  have dedup := @RunnerSpec.classifier_dedup _ (spec mode settings start) many
  exact (RunnerSpec.token_classify dedup rfl _).trans (Crash.token_of_above alike)

/-- Where a class has been seen and does not use up the budget, the budget is more than one. -/
theorem one_lt_of_few (known : crash ∈ classes mode seen)
    (few : (classes mode seen).card < settings.keepGoing.toNat) : 1 < settings.keepGoing := by
  have some : 0 < (classes mode seen).card := Finset.card_pos.mpr ⟨crash, known⟩
  exact UInt64.lt_iff_toNat_lt.mpr (Nat.lt_of_le_of_lt some few)

namespace Counts

theorem nothing (mode : Mode) (settings : Settings) :
    Counts mode settings [] (.ofLimit settings.keepGoing (.ofList [])) :=
  ⟨fun _ crash => iff_of_false List.not_mem_nil (Finset.notMem_empty crash), fun _ => rfl⟩

theorem congr {budget : Budget} (counts : Counts mode settings seen budget)
    (same : classes mode inputs = classes mode seen) : Counts mode settings inputs budget :=
  ⟨same ▸ counts.known, same ▸ counts.size⟩

/-- A crash of a class that was seen is passed over. -/
theorem offer_of_known (counts : Counts mode settings seen runner.budget)
    (drives : (spec mode settings start).Drives runner) (many : 1 < settings.keepGoing)
    (known : crash ∈ classes mode seen) {raised : Finding}
    (alike : raised.above = crash.finding input) :
    runner.offer ((spec mode settings start).classifier.classify raised).token =
      (.suppress, runner) := by
  rw [token_classify many alike]
  apply Runner.offer_of_known
  · rw [drives.classifier]
    exact RunnerSpec.classifier_dedup many
  · rwa [drives.limit]
  · exact (counts.known many crash).mpr known

/-- A crash of a new class is reported, and from then on its class counts as seen. -/
theorem offer_of_first (counts : Counts mode settings seen runner.budget)
    (drives : (spec mode settings start).Drives runner) (positive : settings.keepGoing ≠ 0)
    (apart : Function.Injective Crash.token) (new : crash ∉ classes mode seen)
    (added : classes mode (seen ++ [input]) = insert crash (classes mode seen))
    {raised : Finding} (alike : raised.above = crash.finding input) :
    ∃ offered, runner.offer ((spec mode settings start).classifier.classify raised).token =
        (.report, offered) ∧
      Counts mode settings (seen ++ [input]) offered.budget := by
  rcases Budget.eq_one_or_one_lt positive with one | many
  · have single : runner.budget.limit ≤ 1 := by
      rw [drives.limit]
      exact UInt64.le_of_eq one
    refine ⟨runner, Runner.offer_of_one single _, ?_⟩
    constructor <;> intro many <;> exact absurd (one ▸ many) (by decide)
  · have unknown : crash.token ∉ runner.budget.known.tokens := mt (counts.known many crash).mp new
    have dedup : runner.classifier.dedup = true := by
      rw [drives.classifier]
      exact RunnerSpec.classifier_dedup many
    rw [token_classify many alike, Runner.offer_of_new dedup (drives.limit.symm ▸ many) unknown]
    refine ⟨_, rfl, ?_, ?_⟩
    · intro _ other
      change other.token ∈ (runner.budget.known.insert crash.token).tokens ↔ _
      rw [TokenSet.mem_insert, added, Finset.mem_insert, counts.known many,
        apart.eq_iff]
    · intro _
      change (runner.budget.known.insert crash.token).size = _
      rw [TokenSet.size_insert, if_neg unknown, counts.size many, added,
        Finset.card_insert_of_notMem new]

/-- The run goes on behind a report as long as the classes do not use up the budget. -/
theorem afterReport_of_few {budget : Budget} (counts : Counts mode settings seen budget)
    (limit : budget.limit = settings.keepGoing) (known : crash ∈ classes mode seen)
    (few : (classes mode seen).card < settings.keepGoing.toNat) :
    budget.afterReport = .proceed := by
  have many := one_lt_of_few known few
  rw [Budget.afterReport, limit, counts.size many, if_neg]
  rintro (one | spent)
  · exact absurd (one ▸ many) (by decide)
  · exact absurd few (Nat.not_lt.mpr spent)

theorem afterReport_of_spent {budget : Budget} (counts : Counts mode settings seen budget)
    (limit : budget.limit = settings.keepGoing) (positive : settings.keepGoing ≠ 0)
    (spent : settings.keepGoing.toNat ≤ (classes mode seen).card) :
    budget.afterReport = .terminate := by
  rw [Budget.afterReport, limit, if_pos]
  rcases Budget.eq_one_or_one_lt positive with one | many
  · exact .inl one
  · rw [counts.size many]
    exact .inr spent

end Counts

def withFiles (mode : Mode) (settings : Settings) (start : String) (tree : FileTree)
    (reported : List Bytes) : FileTree :=
  tree.saveAll (reported.flatMap (files mode settings start))

/-- For these inputs the files have been saved and the findings have been printed. -/
structure Shows (mode : Mode) (settings : Settings) (start : String) (tree : FileTree)
    (reported : List Bytes) (world : World Unit) : Prop where
  tree : world.tree = withFiles mode settings start tree reported
  printed : world.printed.map Finding.above = reported.filterMap (finding? mode)
  steps : world.host.steps = []

/-- The same, and then every step of a shutdown has been taken once. -/
structure Ends (mode : Mode) (settings : Settings) (start : String) (tree : FileTree)
    (reported : List Bytes) (closed : World Unit) : Prop where
  tree : ∃ host : Host Unit, closed.tree = ((spec mode settings start).sinks.flush host
    (withFiles mode settings start tree reported)).2
  printed : closed.printed.map Finding.above = reported.filterMap (finding? mode)
  steps : closed.host.steps = (spec mode settings start).steps

namespace Shows

variable {tree : FileTree} {reported : List Bytes} {left closed : World Unit}

/-- Calls that touch nothing but the log show nothing. -/
theorem congr (shows : Shows mode settings start tree reported world)
    (kept : left.tree = world.tree) (silent : left.emissions = world.emissions)
    (steps : left.host.steps = world.host.steps) :
    Shows mode settings start tree reported left where
  tree := kept.trans shows.tree
  printed := by
    rw [World.printed, silent]
    exact shows.printed
  steps := steps.trans shows.steps

/-- Examining an input shows nothing. -/
theorem examined (shows : Shows mode settings start tree reported visit.world) :
    Shows mode settings start tree reported visit.examined.2 :=
  shows.congr rfl rfl (visit.runner.examine_uneventful visit.input visit.world).steps

/-- Passing a finding over shows nothing. -/
theorem skipped (shows : Shows mode settings start tree reported world) (token : UInt64) :
    Shows mode settings start tree reported (world.logged (.duplicateSkipped token)) :=
  shows.congr rfl rfl (Host.steps_logged_of_none _ rfl)

/-- A report shows its input. -/
theorem concat (shows : Shows mode settings start tree reported visit.world) {finding : Finding}
    (found : finding? mode visit.input = some finding) {raised : Finding}
    (alike : raised.above = finding) (leaves : visit.Leaves (spec mode settings start)
      ((spec mode settings start).classifier.classify raised) (artifact mode visit.input) left) :
    Shows mode settings start tree (reported ++ [visit.input]) left where
  tree := by
    rw [leaves.tree, shows.tree, withFiles, withFiles, List.flatMap_append, FileTree.saveAll_append,
      List.flatMap_singleton]
    rfl
  printed := by
    rw [leaves.printed, List.map_append, shows.printed, finding_classify, List.map_singleton,
      alike, List.filterMap_append, List.filterMap_cons_some found, List.filterMap_nil]
  steps := leaves.steps.trans shows.steps

/-- Shutting the runner down ends the run. -/
theorem ends (shows : Shows mode settings start tree reported left)
    (shut : left.Closed (spec mode settings start) closed) :
    Ends mode settings start tree reported closed where
  tree := by
    obtain ⟨host, flushed⟩ := shut.tree
    exact ⟨host, shows.tree ▸ flushed⟩
  printed := by
    rw [World.printed, shut.emissions]
    exact shows.printed
  steps := by
    rw [shut.steps, shows.steps]
    rfl

end Shows

/-- What a run has come to when these inputs have been run and their classes do not use up the
budget. -/
structure Follows (mode : Mode) (settings : Settings) (start : String) (tree : FileTree)
    (seen : List Bytes) (runner : Runner Unit) (world : World Unit) : Prop
    extends (spec mode settings start).Idles runner world where
  few : (classes mode seen).card < settings.keepGoing.toNat
  counts : Counts mode settings seen runner.budget
  shown : Shows mode settings start tree (firsts mode seen) world

namespace Follows

variable {tree : FileTree} {after : Runner Unit} {left : World Unit}

/-- A runner that has just been built has seen nothing. -/
theorem of_build (ignoring : settings.ignore = [])
    (built : (spec mode settings start).build (.fresh () tree) = (.ok runner, world))
    (kept : world.tree = tree) (silent : world.emissions = []) (steps : world.host.steps = []) :
    Follows mode settings start tree [] runner world := by
  obtain ⟨positive, tokens, parsed, same, _⟩ := RunnerSpec.build_spec built
  have none : tokens = [] := by
    change settings.ignoredTokens = _ at parsed
    rw [Settings.ignoredTokens, ignoring] at parsed
    exact (Except.ok.inj parsed).symm
  refine ⟨.of_build built, ?_, ?_, kept, ?_, steps⟩
  · apply Nat.pos_of_ne_zero
    intro zero
    exact positive (UInt64.toNat_inj.mp zero)
  · rw [same, none]
    exact .nothing mode settings
  · rw [World.printed, silent]
    rfl

theorem positive (follows : Follows mode settings start tree seen runner world) :
    settings.keepGoing ≠ 0 := by
  intro zero
  have few := follows.few
  rw [zero] at few
  exact Nat.not_lt_zero _ few

/-- An input that is not the first of a class is passed over. -/
theorem pass (follows : Follows mode settings start tree seen runner world)
    (known : isFirst mode seen input = false) (idles : (spec mode settings start).Idles after left)
    (budget : after.budget = runner.budget)
    (shown : Shows mode settings start tree (firsts mode seen) left) :
    Follows mode settings start tree (seen ++ [input]) after left := by
  have same := classes_concat_of_not_first known
  refine ⟨idles, ?_, ?_, ?_⟩
  · rw [same]
    exact follows.few
  · rw [budget]
    exact follows.counts.congr same
  · rw [firsts_concat, known]
    exact (List.append_nil (firsts mode seen)).symm ▸ shown

/-- The call for an input that is not the first of a class returns in silence. -/
theorem call_of_known (follows : Follows mode settings start tree seen runner world)
    (known : isFirst mode seen input = false) :
    ∃ after left, runner.runOne input world = (.returned, after, left) ∧
      Follows mode settings start tree (seen ++ [input]) after left := by
  let visit : Visit Unit := ⟨runner, world, input⟩
  have idles : (spec mode settings start).Idles visit.runner visit.world := follows.toIdles
  have examined := RunnerSpec.Idles.of_examined idles.toDrives
  have shown : Shows mode settings start tree (firsts mode seen) visit.world := follows.shown
  cases crashes : crash? mode input with
  | none =>
      have quiet := found_of_harmless idles (by rw [finding?, crashes]; rfl)
      exact ⟨_, _, Visit.result_of_quiet quiet, follows.pass known examined rfl shown.examined⟩
  | some crash =>
      have seen : crash ∈ classes mode seen := by
        rw [isFirst, crashes] at known
        simpa using known
      have crashes : finding? mode visit.input = some (crash.finding input) := by
        rw [finding?, crashes]
        rfl
      obtain ⟨raised, alike, found⟩ := exists_raised idles crashes
      have passed := @Counts.offer_of_known mode _ input crash settings start visit.examined.1
        follows.counts idles.toDrives.examined (one_lt_of_few seen follows.few) seen _ alike
      exact ⟨_, _, Visit.result_of_suppressed found passed,
        follows.pass known ⟨examined.toDrives, examined.quiet⟩ rfl (shown.examined.skipped _)⟩

/-- The call for the first input of a class reports it and returns, unless the classes use up the
budget. -/
theorem call_of_first (follows : Follows mode settings start tree seen runner world)
    (apart : Function.Injective Crash.token) (first : isFirst mode seen input = true) :
    (∃ after left, runner.runOne input world = (.returned, after, left) ∧
        Follows mode settings start tree (seen ++ [input]) after left) ∨
      settings.keepGoing.toNat ≤ (classes mode (seen ++ [input])).card ∧
        ∃ after closed, runner.runOne input world = (.exited findingExitCode, after, closed) ∧
          Ends mode settings start tree (firsts mode (seen ++ [input])) closed := by
  let visit : Visit Unit := ⟨runner, world, input⟩
  have idles : (spec mode settings start).Idles visit.runner visit.world := follows.toIdles
  obtain ⟨crash, crashes, new, added⟩ := exists_of_isFirst first
  have crashes : finding? mode visit.input = some (crash.finding input) := by
    rw [finding?, crashes]
    rfl
  obtain ⟨raised, alike, found⟩ := exists_raised idles crashes
  obtain ⟨offered, passed, counts⟩ := @Counts.offer_of_first mode _ input crash settings start
    visit.examined.1 follows.counts idles.toDrives.examined follows.positive apart new added _
    alike
  obtain ⟨after, left, result, idles, budget, leaves⟩ := exists_leaves idles found passed
  have shown : Shows mode settings start tree (firsts mode (seen ++ [input])) left := by
    rw [firsts_concat, first]
    exact follows.shown.concat crashes alike leaves
  rw [← budget] at counts
  by_cases few : (classes mode (seen ++ [input])).card < settings.keepGoing.toNat
  · left
    have known : crash ∈ classes mode (seen ++ [input]) := by
      rw [added]
      exact Finset.mem_insert_self crash _
    have more := counts.afterReport_of_few idles.limit known few
    exact ⟨after, left, result.trans (Runner.conclude_proceed more left), idles, few, counts, shown⟩
  · right
    have spent := Nat.not_lt.mp few
    have used := counts.afterReport_of_spent idles.limit follows.positive spent
    obtain ⟨last, closed, concluded, shut⟩ :=
      Runner.conclude_of_clean (stopsClean mode) idles.shutdown used left
    exact ⟨spent, last, closed, result.trans concluded, shown.ends shut⟩

/-- The call for an input returns, unless the classes use up the budget with it. -/
theorem call (follows : Follows mode settings start tree seen runner world)
    (apart : Function.Injective Crash.token) (input : Bytes) :
    (∃ after left, runner.runOne input world = (.returned, after, left) ∧
        Follows mode settings start tree (seen ++ [input]) after left) ∨
      settings.keepGoing.toNat ≤ (classes mode (seen ++ [input])).card ∧
        ∃ after closed, runner.runOne input world = (.exited findingExitCode, after, closed) ∧
          Ends mode settings start tree (firsts mode (seen ++ [input])) closed := by
  cases first : isFirst mode seen input with
  | false => exact .inl (follows.call_of_known first)
  | true => exact follows.call_of_first apart first

end Follows

end FuzzHarness.Demo
