import FuzzHarness.Proofs.Runner.Files
import FuzzHarness.Proofs.Runner.Idle
import FuzzHarness.Proofs.Target.Straight

/-!
# Reproducers of targets in bytes mode

Every input that a run reports has a reproducer at the end of the run, which tells the
input and makes a target that depends on nothing else fail in the same way. The invariant
of the run is that the reproducer for an input stays there once it has been written: files
are named after the hash of the input, so that no reproducer takes the place of another
one, and the sinks of the coverage have to lead elsewhere.
-/

namespace FuzzHarness

variable {σ : Type}

/-- The outcome of running code of a target on an input. -/
def Target.bytesOutcome (target : Target σ) (way : Way) (code : Bytes → Code σ Unit)
    (input : Bytes) (host : Host σ) : Outcome :=
  (target.iterate way (code input) (⟨host, none⟩ : Session σ Cursor)).1

/-- What a target does above the boundary is a function of its input: as long as no report is
pending, neither its surroundings nor the way into it make a difference. -/
def Target.DependsOnInput (target : Target σ) (code : Bytes → Code σ Unit) : Prop :=
  ∀ (input : Bytes) (way other : Way) (host there : Host σ),
    host.reports.get target.channel = none → there.reports.get target.channel = none →
      (target.bytesOutcome way code input host).above =
        (target.bytesOutcome other code input there).above

namespace RunnerSpec

def bytesArtifact (spec : RunnerSpec σ) (input : Bytes) : Artifact where
  target := spec.target.name
  mode := .bytes
  payload := Text.Base64.encode input
  contentHash := contentHash input

def crashPath (spec : RunnerSpec σ) (input : Bytes) : String :=
  (spec.bytesArtifact input).pathIn spec.settings.reproducerPath

/-- The reproducers for inputs can be written, each to a place of its own to which no
coverage sink leads. -/
structure SetsApart (spec : RunnerSpec σ) (tree : FileTree) (inputs : List Bytes) : Prop where
  writable : ∀ input ∈ inputs, ∃ place, tree.destination (spec.crashPath input) = .ok place
  sinks : ∀ path ∈ spec.sinks.paths, ∀ input ∈ inputs,
    tree.destination path ≠ tree.destination (spec.crashPath input)
  hashes : ∀ input ∈ inputs, ∀ other ∈ inputs, contentHash input = contentHash other →
    input = other

end RunnerSpec

namespace RunnerSpec

variable {spec : RunnerSpec σ} {tree : FileTree} {inputs : List Bytes} {input other : Bytes}
  {place : Place}

theorem hashed_bytesArtifact (spec : RunnerSpec σ) (input : Bytes) :
    ∀ c ∈ (spec.bytesArtifact input).contentHash.toList, c ≠ '/' := by
  intro c mem
  exact ne_slash_of_mem_contentHash mem

/-- The place of a reproducer tells the hash of its input. -/
theorem contentHash_of_destination (leads : tree.destination (spec.crashPath input) = .ok place)
    (leads' : tree.destination (spec.crashPath other) = .ok place) :
    contentHash input = contentHash other := by
  have name := FileTree.getLast?_of_destination leads
  have name' := FileTree.getLast?_of_destination leads'
  rw [crashPath, Artifact.getLast?_components_pathIn (spec.hashed_bytesArtifact _)] at name name'
  have same := congrArg String.toList (Option.some.inj (name.symm.trans name'))
  rw [Artifact.fileName_toList, Artifact.fileName_toList] at same
  exact String.toList_inj.mp (List.append_cancel_left (List.append_cancel_right same))

/-- Reproducers for different inputs have different places. -/
theorem SetsApart.destination_ne (apart : spec.SetsApart tree inputs) (mem : input ∈ inputs)
    (mem' : other ∈ inputs) (differs : input ≠ other)
    (leads : tree.destination (spec.crashPath input) = .ok place) :
    tree.destination (spec.crashPath other) ≠ .ok place := by
  intro leads'
  apply differs
  exact apart.hashes input mem other mem' (contentHash_of_destination leads leads')

end RunnerSpec

/-- The directories are those of the start, and if a call has reported the input, then its
reproducer is in its place. -/
structure Kept (spec : RunnerSpec σ) (start : FileTree) (input : Bytes)
    (before : List (Visit σ)) (tree : FileTree) : Prop where
  directories : tree.directories = start.directories
  stored : ∀ earlier ∈ before, earlier.reported = true → earlier.input = input →
    tree.read (spec.crashPath input) =
      .ok (Text.Utf8.ofString (spec.bytesArtifact input).render)

/-- In bytes mode the reproducer is put at the destination of its path. -/
theorem Visit.reproduced_bytes {spec : RunnerSpec σ} {visit : Visit σ} {offered : Runner σ}
    (drives : spec.Drives offered) {code : Bytes → Code σ Unit}
    (entry : spec.target.entry = .bytes code) (plain : spec.target.writer = none)
    {classified : Classified} {place : Place}
    (leads : (offered.announce classified visit.input visit.examined.2).tree.destination
      (spec.crashPath visit.input) = .ok place) :
    (visit.reproduced offered classified).1 = .artifact (spec.bytesArtifact visit.input) ∧
      (visit.reproduced offered classified).2.2.tree =
        (offered.announce classified visit.input visit.examined.2).tree.put place
          (Text.Utf8.ofString (spec.bytesArtifact visit.input).render) := by
  have entry' : offered.executor.target.entry = .bytes code := drives.target ▸ entry
  have plain' : offered.executor.target.writer = none := drives.target ▸ plain
  have made := Executor.generate_bytes entry' plain' offered.directory visit.input
    (offered.announce classified visit.input visit.examined.2).host
    (offered.announce classified visit.input visit.examined.2).tree
  rw [drives.target, drives.directory] at made
  rw [reproduced, Runner.reproduce, drives.directory, made]
  dsimp only
  exact ⟨rfl, Executor.writeArtifact_tree leads _⟩

namespace Kept

variable {spec : RunnerSpec σ} {start tree other : FileTree} {input : Bytes}
  {inputs : List Bytes} {before : List (Visit σ)} {visit : Visit σ} {place : Place}

/-- Changes of other files make no difference. -/
theorem spare (kept : Kept spec start input before tree)
    (spared : tree.Spares other (spec.crashPath input)) : Kept spec start input before other where
  directories := spared.directories.trans kept.directories
  stored earlier mem reported same := spared.read.trans (kept.stored earlier mem reported same)

/-- A call that reports nothing has nothing to store. -/
theorem append_unreported (kept : Kept spec start input before tree)
    (silent : visit.reported = false) : Kept spec start input (before ++ [visit]) tree where
  directories := kept.directories
  stored := by
    refine List.forall_mem_append.mpr ⟨kept.stored, List.forall_mem_singleton.mpr ?_⟩
    intro reported
    exact nomatch silent.symm.trans reported

/-- A reproducer that is put in its place is stored, and so are the earlier ones. -/
theorem append_put (kept : Kept spec start input before tree)
    (apart : spec.SetsApart start inputs) (mem : input ∈ inputs) (mem' : visit.input ∈ inputs)
    (leads : tree.destination (spec.crashPath visit.input) = .ok place) :
    Kept spec start input (before ++ [visit])
      (tree.put place (Text.Utf8.ofString (spec.bytesArtifact visit.input).render)) where
  directories := kept.directories
  stored := by
    refine List.forall_mem_append.mpr ⟨?_, List.forall_mem_singleton.mpr ?_⟩
    · intro earlier earlierMem reported same
      by_cases again : visit.input = input
      · rw [again] at leads ⊢
        exact FileTree.read_put_self leads _
      · obtain ⟨own, ownLeads⟩ := apart.writable input mem
        have ownLeads := FileTree.destination_congr kept.directories ownLeads
        have differs : own ≠ place := by
          rintro rfl
          exact apart.destination_ne mem' mem again
            (FileTree.destination_congr kept.directories.symm leads)
            (FileTree.destination_congr kept.directories.symm ownLeads)
        rw [FileTree.read_put_of_ne ownLeads differs]
        exact kept.stored earlier earlierMem reported same
    · rintro _ rfl
      exact FileTree.read_put_self leads _

/-- No sink leads to the place of a reproducer. -/
theorem sinks_ne (kept : Kept spec start input before tree) (apart : spec.SetsApart start inputs)
    (mem : input ∈ inputs) (leads : tree.destination (spec.crashPath input) = .ok place) :
    ∀ there ∈ spec.sinks.paths, tree.destination there ≠ .ok place := by
  intro there sink same
  have leads := FileTree.destination_congr kept.directories.symm leads
  have same := FileTree.destination_congr kept.directories.symm same
  exact apart.sinks there sink input mem (same.trans leads.symm)

/-- What a call does keeps the reproducers, and adds the one for its own input. -/
theorem after_call (kept : Kept spec start input before visit.world.tree)
    (drives : spec.Drives visit.runner) (apart : spec.SetsApart start inputs)
    (mem : input ∈ inputs) (mem' : visit.input ∈ inputs) {code : Bytes → Code σ Unit}
    (entry : spec.target.entry = .bytes code) (plain : spec.target.writer = none) :
    Kept spec start input (before ++ [visit]) visit.result.2.2.tree := by
  cases found : visit.found with
  | none =>
      have result := Visit.result_of_quiet found
      have silent := Visit.reported_of_emissions (congrArg (·.2.2.emissions) result)
      rw [result]
      exact kept.append_unreported silent
  | some classified =>
      rcases passed : visit.examined.1.offer classified.token with ⟨admission, offered⟩
      have drives := drives.examined.offered passed
      cases admission with
      | suppress =>
          have result := Visit.result_of_suppressed found passed
          have silent := Visit.reported_of_emissions (congrArg (·.2.2.emissions) result)
          rw [result]
          exact kept.append_unreported silent
      | report =>
          obtain ⟨own, leads⟩ := apart.writable input mem
          obtain ⟨place, leads'⟩ := apart.writable visit.input mem'
          have spared : visit.world.tree.Spares
              (offered.announce classified visit.input visit.examined.2).tree
              (spec.crashPath input) :=
            offered.announce_spares classified visit.input visit.examined.2
              (spec.hashed_bytesArtifact input)
              (FileTree.destination_congr kept.directories leads)
          have announced := kept.spare spared
          obtain ⟨made, put⟩ := Visit.reproduced_bytes drives entry plain
            (FileTree.destination_congr announced.directories leads')
          have stored := announced.append_put apart mem mem'
            (FileTree.destination_congr announced.directories leads')
          rw [← put] at stored
          have result := Visit.Admits.result_of_made ⟨found, passed⟩ (by rw [made]; rfl)
          have sinks := (@RunnerSpec.Drives.reproduced _ _ _ visit drives classified).shutdown
          have leads := FileTree.destination_congr stored.directories leads
          have concluded := (visit.reproduced offered classified).2.1.conclude_spares
            (visit.reproduced offered classified).2.2 leads
          rw [sinks] at concluded
          rw [result]
          exact stored.spare (concluded (stored.sinks_ne apart mem leads))

/-- Every call of a run leaves the reproducer for an input in its place once the input has
been reported. -/
theorem after_calls {origin world : World σ} {runner : Runner σ}
    (built : spec.build origin = (.ok runner, world)) {code : Bytes → Code σ Unit}
    (entry : spec.target.entry = .bytes code) (plain : spec.target.writer = none)
    (apart : spec.SetsApart world.tree inputs) (mem : input ∈ inputs) {after : List (Visit σ)}
    (place : runner.feed world inputs = before ++ visit :: after) :
    spec.Drives visit.runner ∧
      Kept spec world.tree input (before ++ [visit]) visit.result.2.2.tree := by
  have step : ∀ other ∈ runner.feed world inputs, ∀ before : List (Visit σ),
      spec.Drives other.runner ∧ Kept spec world.tree input before other.world.tree →
      other.result.1 = .returned →
      spec.Drives other.result.2.1 ∧
        Kept spec world.tree input (before ++ [other]) other.result.2.2.tree := by
    rintro other otherMem before ⟨drives, kept⟩ returned
    refine ⟨(RunnerSpec.Idles.after drives plain returned).toDrives, ?_⟩
    exact kept.after_call drives apart mem (Runner.input_mem_of_mem_feed otherMem) entry plain
  have start : spec.Drives runner ∧ Kept spec world.tree input [] world.tree :=
    ⟨(RunnerSpec.Idles.of_build built).toDrives, rfl, fun _ mem => absurd mem List.not_mem_nil⟩
  obtain ⟨drives, kept⟩ := @Runner.feed_induction _
    (fun before runner now => spec.Drives runner ∧ Kept spec world.tree input before now.tree)
    _ _ _ [] start step _ _ _ place
  have visitMem : visit ∈ runner.feed world inputs := by
    rw [place]
    exact List.mem_append_cons_self
  exact ⟨drives, kept.after_call drives apart mem (Runner.input_mem_of_mem_feed visitMem) entry
    plain⟩

/-- At the end of a run the reproducer for every reported input is in its place. -/
theorem at_finish {origin world : World σ} {runner : Runner σ}
    (built : spec.build origin = (.ok runner, world)) {code : Bytes → Code σ Unit}
    (entry : spec.target.entry = .bytes code) (plain : spec.target.writer = none)
    (apart : spec.SetsApart world.tree inputs) (mem : visit ∈ runner.feed world inputs) :
    Kept spec world.tree visit.input (runner.feed world inputs)
      (runner.finish world inputs).tree := by
  have input := Runner.input_mem_of_mem_feed mem
  rcases List.eq_nil_or_concat (runner.feed world inputs) with empty | ⟨front, last, place⟩
  · rw [empty] at mem
    cases mem
  · rw [List.concat_eq_append] at place
    obtain ⟨drives, kept⟩ := after_calls built entry plain apart input place
    have idles := @RunnerSpec.Idles.after _ spec last drives plain
    obtain ⟨own, leads⟩ := apart.writable visit.input input
    have leads := FileTree.destination_congr kept.directories leads
    have sinks := kept.sinks_ne apart input leads
    rw [Runner.finish, place, List.getLast?_concat]
    dsimp only
    generalize last.result = result at kept idles leads sinks
    obtain ⟨reason, after, left⟩ := result
    cases reason with
    | exited _ => exact kept
    | escaped _ => exact kept
    | returned =>
        have shut := after.shutDown_spares left leads
        rw [(idles rfl).shutdown] at shut
        exact kept.spare (shut sinks)

end Kept

/-- What a target that depends on its input only came to, it comes to again above the boundary
when the reproducer is run, however much has happened in between. -/
theorem RunnerSpec.exists_replay_bytesArtifact {spec : RunnerSpec σ} {visit : Visit σ}
    (idles : spec.Idles visit.runner visit.world) {code : Bytes → Code σ Unit}
    (entry : spec.target.entry = .bytes code) (closed : spec.target.DependsOnInput code)
    {host : Host σ} (quiet : host.reports.get spec.target.channel = none) :
    ∃ again : Outcome,
      ((spec.bytesArtifact visit.input).replay spec.target host).1 = .ok again.finding? ∧
        again.above = visit.outcome.above := by
  have executed : visit.outcome =
      spec.target.bytesOutcome (.execute .bytes) code visit.input visit.world.host := by
    rw [Visit.outcome, Executor.execute, idles.target, entry]
    rfl
  have mode : spec.target.mode = .bytes := congrArg Entry.mode entry
  have replayed := @Artifact.replay_bytes _ (spec.bytesArtifact visit.input) spec.target mode rfl
    _ entry _ (Text.Base64.decode_encode visit.input) host
  rw [spec.target.iterate_alone Replay Cursor] at replayed
  refine ⟨spec.target.bytesOutcome (.replay .bytes) code visit.input host, replayed, ?_⟩
  rw [executed]
  exact closed visit.input _ _ host visit.world.host quiet idles.quiet

/-- Take any run of a target in bytes mode whose behaviour is a function of its input, with
no writer of its own, in which reproducers can be written, hashes tell the inputs apart and
no coverage sink leads to a reproducer. At the end of the run, for every input that was
reported, the file named after its hash tells the target, the mode, the hash and the input,
and running it with no report pending yields the finding that was raised, but for what stands
beneath the boundary. So it yields the token that was reported if the classifier does not look
there. -/
theorem finish_keeps_bytes (spec : RunnerSpec σ) {origin world : World σ} {runner : Runner σ}
    (built : spec.build origin = (.ok runner, world)) (valid : isTargetName spec.target.name = true)
    {code : Bytes → Code σ Unit} (entry : spec.target.entry = .bytes code)
    (plain : spec.target.writer = none) (closed : spec.target.DependsOnInput code)
    {inputs : List Bytes} (apart : spec.SetsApart world.tree inputs) {visit : Visit σ}
    (mem : visit ∈ runner.feed world inputs) (reported : visit.reported = true) :
    ∃ artifact classified raised,
      Artifact.readFrom (runner.finish world inputs).tree (spec.crashPath visit.input) =
        .ok artifact ∧
      artifact = spec.bytesArtifact visit.input ∧
      visit.found = some classified ∧
      visit.outcome.finding? = some raised ∧
      ∀ host : Host σ, host.reports.get spec.target.channel = none →
        ∃ finding, (artifact.replay spec.target host).1 = .ok (some finding) ∧
          finding.above = raised.above ∧
          (spec.classifier.SeesAbove →
            (spec.classifier.classify finding).token = classified.token) := by
  have kept := Kept.at_finish built entry plain apart mem
  have idles := RunnerSpec.Idles.of_mem_feed built plain mem
  obtain ⟨classified, _, found, _⟩ := Visit.exists_admits_of_reported reported
  obtain ⟨raised, caught, rfl⟩ := Visit.exists_raised_of_found found
  refine ⟨spec.bytesArtifact visit.input, _, raised, ?_, rfl, found, caught, ?_⟩
  · exact Artifact.readFrom_of_read (Artifact.isPlain_made valid .bytes visit.input visit.input)
      (kept.stored visit mem reported rfl)
  · intro host quiet
    obtain ⟨again, replayed, same⟩ :=
      RunnerSpec.exists_replay_bytesArtifact idles entry closed quiet
    obtain ⟨finding, found, alike, recognized⟩ :=
      spec.classifier.exists_found_again same caught
    rw [idles.classifier]
    exact ⟨finding, replayed.trans (congrArg Except.ok found), alike, recognized⟩

/-- Code that panics at one site when its input begins in a certain way. -/
def oneSite (input : Bytes) : Code Unit Unit :=
  if input.head? = some 1 then .panic (.symbolic "one") (.str "one") else .finish ()

/-- A runner for this code, which writes its coverage to a file and strips findings. -/
def oneSiteRun (dump : String) (stripper : Stripper) (tearDown : Option (TearDown Unit)) :
    RunnerSpec Unit where
  target :=
    { name := "demo::one_site"
      entry := .bytes oneSite
      startup := none
      tearDown := tearDown
      writer := none
      channel := .shared }
  settings := { Settings.default with coverageDump := some dump }
  engine := .observing
  recorder := some .shared
  normalizer := some stripper.normalize

theorem bytesOutcome_oneSite {target : Target Unit} {host : Host Unit}
    (quiet : host.reports.get target.channel = none) (way : Way) (input : Bytes) :
    target.bytesOutcome way oneSite input host =
      if input.head? = some 1 then
        .thrown (.capturedAt ((Site.symbolic "one").upon (way.frames ++ host.stack))
          Finding.panicKind "one")
      else .none := by
  have ran (code : Code Unit Unit) (exit : Exit Unit) (left : Host Unit)
      (ends : code.run (⟨host.via way, none⟩ : Session Unit Cursor) = (exit, ⟨left, none⟩))
      (kept : left.reports = host.reports) :
      (target.iterate way code (⟨host, none⟩ : Session Unit Cursor)).1 =
        exit.outcome left.scope := by
    rw [target.iterate_eq ends]
    exact Target.settle_of_quiet (kept ▸ quiet) host exit
  rw [Target.bytesOutcome, oneSite]
  split
  · exact ran _ (.unwound (.str "one")) ((host.via way).hooked (.symbolic "one")) rfl rfl
  · exact ran _ (.finished ()) (host.via way) rfl rfl

theorem oneSiteRun_dependsOnInput (dump : String) (stripper : Stripper)
    (tearDown : Option (TearDown Unit)) :
    (oneSiteRun dump stripper tearDown).target.DependsOnInput oneSite := by
  intro input way other host there quiet quiet'
  rw [bytesOutcome_oneSite quiet, bytesOutcome_oneSite quiet']
  split
  · have here := Finding.above_capturedAt_upon way host.stack (.symbolic "one")
    have same := Finding.above_capturedAt_upon other there.stack (.symbolic "one")
    exact congrArg Outcome.thrown ((here _ _).trans (same _ _).symm)
  · rfl

/-- A run whose stripper leaves the boundary where it is. -/
def keeping : RunnerSpec Unit :=
  oneSiteRun "coverage.json" ⟨["injected"], ["hook::"]⟩ none

theorem keeping_seesAbove : keeping.classifier.SeesAbove := by
  apply Classifier.seesAbove_of_strips
  rintro normalize ⟨⟩
  refine ⟨⟨["injected"], ["hook::"]⟩, Stripper.sparesEntry_of_starts ?_, rfl⟩
  decide

/-- Coverage that goes to a file of its own leaves the reproducer in its place. -/
theorem oneSiteRun_keeps : ∃ quiet visit, keeping.visits [[2], [1], [1]] = [quiet, visit] ∧
    ∃ artifact classified,
      Artifact.readFrom (keeping.ending [[2], [1], [1]]).tree
        "./Crash_55a54008ad1ba589aa210d2629c1df41.rs" = .ok artifact ∧
      artifact.payload = "AQ==" ∧ visit.found = some classified ∧
      ∃ finding, (artifact.replay keeping.target (.fresh ())).1 = .ok (some finding) ∧
        (keeping.classifier.classify finding).token = classified.token := by
  have facts : (keeping.visits [[2], [1], [1]]).map
      (fun visit => (visit.reported, visit.input)) = [(false, [2]), (true, [1])] := by
    decide +kernel
  have length : (keeping.visits [[2], [1], [1]]).length = 2 := by
    rw [← List.length_map _, facts]
    rfl
  obtain ⟨quiet, visit, run⟩ := List.length_eq_two.mp length
  rw [run] at facts
  obtain ⟨_, reported, input⟩ : (quiet.reported = false ∧ quiet.input = [2]) ∧
      visit.reported = true ∧ visit.input = [1] := by simpa using facts
  have mem : visit ∈ keeping.visits [[2], [1], [1]] := by
    rw [run]
    exact List.mem_cons_of_mem _ (List.mem_singleton_self visit)
  have apart : keeping.SetsApart (keeping.build (.fresh () .empty)).2.tree [[2], [1], [1]] := by
    refine ⟨?_, by decide +kernel, by decide +kernel⟩
    intro input mem
    refine ⟨["Crash_" ++ contentHash input ++ ".rs"], ?_⟩
    revert input mem
    decide +kernel
  obtain ⟨artifact, classified, raised, read, rfl, found, _, replay⟩ :=
    finish_keeps_bytes keeping rfl (by decide) rfl rfl (oneSiteRun_dependsOnInput _ _ _) apart
      mem reported
  obtain ⟨finding, again, _, recognized⟩ := replay (.fresh ()) rfl
  rw [input] at read again
  have path : keeping.crashPath [1] = "./Crash_55a54008ad1ba589aa210d2629c1df41.rs" := by
    decide +kernel
  rw [path] at read
  exact ⟨quiet, visit, run, _, classified, read, by decide +kernel, found, finding, again,
    recognized keeping_seesAbove⟩

/-- What a tear-down hook may report when the run is over. -/
def lateFinding : Finding :=
  ⟨⟨"Late", "reported at the end", none, [], none⟩, []⟩

/-- A run that writes its coverage to the file of a reproducer. -/
def overwriting : RunnerSpec Unit :=
  oneSiteRun "Crash_55a54008ad1ba589aa210d2629c1df41.rs" .empty none

/-- A run whose tear-down hook leaves a report behind. -/
def reportingLate : RunnerSpec Unit :=
  oneSiteRun "coverage.json" .empty (some (.report .shared lateFinding (.finish (.ok ()))))

/-- A run whose stripper takes the boundary away, so that the harness shows. -/
def exposing : RunnerSpec Unit :=
  oneSiteRun "coverage.json" ⟨[], ["fuzzgate_core::capture::"]⟩ none

/-- The reproducer is lost when the coverage goes to its file, it yields something else while a
report of the tear-down hook is pending, and what it yields gets another token when the boundary
is taken away. -/
theorem overwriting_loses :
    overwriting.target.DependsOnInput oneSite ∧
      (overwriting.visits [[1]]).map Visit.reported = [true] ∧
      Artifact.readFrom (overwriting.ending [[1]]).tree (overwriting.crashPath [1]) =
        .error (.missingField "fuzz target") ∧
      reportingLate.target.DependsOnInput oneSite ∧
      (reportingLate.visits [[1]]).map Visit.reported = [true] ∧
      ((reportingLate.bytesArtifact [1]).replay reportingLate.target
        (reportingLate.ending [[1]]).host).1 = .ok (some lateFinding) ∧
      (∀ visit ∈ reportingLate.visits [[1]], ∀ classified ∈ visit.found,
        classified.token ≠ (reportingLate.classifier.classify lateFinding).token) ∧
      exposing.target.DependsOnInput oneSite ∧
      (exposing.visits [[1]]).map Visit.reported = [true] ∧
      ∃ finding, ((exposing.bytesArtifact [1]).replay exposing.target (.fresh ())).1 =
          .ok (some finding) ∧
        ∀ visit ∈ exposing.visits [[1]], ∀ classified ∈ visit.found,
          classified.token ≠ (exposing.classifier.classify finding).token := by
  refine ⟨oneSiteRun_dependsOnInput _ _ _, ?_, ?_, oneSiteRun_dependsOnInput _ _ _, ?_, ?_, ?_,
    oneSiteRun_dependsOnInput _ _ _, ?_, ?_⟩
  · decide +kernel
  · decide +kernel
  · decide +kernel
  · decide +kernel
  · decide +kernel
  · decide +kernel
  · refine ⟨.capturedAt ((Site.symbolic "one").upon (Way.replay .bytes).frames)
      Finding.panicKind "one", ?_, ?_⟩
    · decide +kernel
    · decide +kernel

end FuzzHarness
