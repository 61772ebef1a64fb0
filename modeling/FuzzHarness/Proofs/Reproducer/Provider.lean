import FuzzHarness.Proofs.Runner.Idle
import FuzzHarness.Proofs.Target.Straight

/-!
# Reproducers of targets in provider mode

A reproducer holds the values that the target drew when it was run on the input again. Run
on these values, the target fails in the same way, provided that no call of the run asked
for an inverted range. The panic of such a call is not among the values: the replay has
nothing to answer the call with and panics in its own way, so that a target which lets the
panic through fails at another place.
-/

namespace FuzzHarness

variable {σ : Type}

namespace Executor

variable {executor : Executor σ} {code : Code σ Unit} {input : Bytes}

/-- In provider mode the target is run on a cursor at the start of the input, which the
executor keeps. -/
theorem execute_provider (entry : executor.target.entry = .provider code) (input : Bytes)
    (host : Host σ) :
    (executor.execute input host).1 = (executor.target.iterate (.execute .provider) code
        ⟨host, some (Cursor.ofBytes input)⟩).1 ∧
      (executor.execute input host).2.1.cursor.data = input := by
  obtain ⟨left, after, answers, runs⟩ :=
    executor.target.iterate_of_answers (.execute .provider) code host (Cursor.ofBytes input)
  have ran := runs Cursor (Cursor.ofBytes input) after answers
  have fed : executor.cursor.feed input = Cursor.ofBytes input := rfl
  rw [execute, entry]
  dsimp only
  rw [fed, ran]
  exact ⟨rfl, Cursor.answers_data answers⟩

/-- The recording holds the values of the conversation on the input. -/
theorem payload_provider (entry : executor.target.entry = .provider code)
    (fed : executor.cursor.data = input) (octets : Bytes) (host : Host σ) :
    (executor.payload octets host).1 =
      Recording.encode
        (executor.target.conversation .record code host (Cursor.ofBytes input)).values := by
  obtain ⟨left, after, answers, runs⟩ :=
    executor.target.iterate_of_answers .record code host (Cursor.ofBytes input)
  have recorded := Recorder.answers_iff.mpr
    (show Answers (Recorder.start (Cursor.ofBytes input)).source _ (Recorder.mk after _).source ∧ _
      from ⟨answers, rfl⟩)
  have started : executor.cursor.reset = Cursor.ofBytes input := by
    rw [← fed]
    rfl
  rw [payload, record, entry]
  dsimp only
  rw [started, runs _ _ _ recorded]
  rfl

/-- The octets that identify a run in provider mode are those the cursor was fed. -/
theorem canonicalBytes_provider (entry : executor.target.entry = .provider code)
    (fed : executor.cursor.data = input) :
    (executor.canonicalBytes input).1 = input ∧
      (executor.canonicalBytes input).2.cursor.data = input := by
  have mode : executor.target.mode = .provider := congrArg Entry.mode entry
  rw [canonicalBytes, mode]
  exact ⟨executor.cursor.takeFront_reset.trans fed, fed⟩

/-- In provider mode the artifact holds the recording of a further run. -/
theorem generate_provider (entry : executor.target.entry = .provider code)
    (none : executor.target.writer = none) (fed : executor.cursor.data = input)
    (directory : String) (host : Host σ) (tree : FileTree) :
    (executor.generate directory input host tree).1 =
      .artifact ⟨executor.target.name, .provider,
        Recording.encode
          (executor.target.conversation .record code host (Cursor.ofBytes input)).values,
        contentHash input⟩ := by
  have mode : executor.target.mode = .provider := congrArg Entry.mode entry
  have kept := executor.canonicalBytes_target input
  obtain ⟨octets, data⟩ := canonicalBytes_provider entry fed
  rw [generate_of_writer_none none]
  dsimp only
  rw [payload_target, payload_provider (kept.symm ▸ entry) data, octets, kept, mode]

end Executor

namespace RunnerSpec

variable {spec : RunnerSpec σ} {code : Code σ Unit} {visit : Visit σ}

/-- What the reproducer for an input tells, given the values that were drawn. -/
def recordedArtifact (spec : RunnerSpec σ) (input : Bytes) (recording : Recording) : Artifact where
  target := spec.target.name
  mode := .provider
  payload := recording.encode
  contentHash := contentHash input

/-- The provider calls of the target when the runner is called, with their answers. -/
def conversation (spec : RunnerSpec σ) (code : Code σ Unit) (visit : Visit σ) : Conversation :=
  spec.target.conversation (.execute .provider) code visit.world.host
    (Cursor.ofBytes visit.input)

theorem outcome_provider (drives : spec.Drives visit.runner)
    (entry : spec.target.entry = .provider code) :
    visit.outcome = (spec.target.iterate (.execute .provider) code
      ⟨visit.world.host, some (Cursor.ofBytes visit.input)⟩).1 := by
  have entry' : visit.runner.executor.target.entry = .provider code := drives.target ▸ entry
  have ran := (Executor.execute_provider entry' visit.input visit.world.host).1
  rwa [drives.target] at ran

/-- A reported input comes to a reproducer that holds the values of its conversation. -/
theorem concludes_provider (drives : spec.Drives visit.runner)
    (quiet : visit.world.host.reports.get spec.target.channel = none)
    (entry : spec.target.entry = .provider code) (plain : spec.target.writer = none)
    (closed : spec.target.DependsOnAnswers code) {classified : Classified} {offered : Runner σ}
    (admits : visit.Admits classified offered) :
    visit.Concludes classified
      (.artifact (spec.recordedArtifact visit.input (spec.conversation code visit).values)) := by
  have idles := Idles.of_examined drives
  have offers := idles.toDrives.offered admits.passed
  have entry' : visit.runner.executor.target.entry = .provider code := drives.target ▸ entry
  have fed : offered.executor.cursor.data = visit.input := by
    rw [Visit.executor_of_offered admits.passed]
    exact (Executor.execute_provider entry' visit.input visit.world.host).2
  have told : (offered.announce classified visit.input visit.examined.2).host.reports.get
      spec.target.channel = none := by
    rw [Runner.announce_reports]
    exact idles.quiet
  have made := Executor.generate_provider (offers.target ▸ entry) (offers.target ▸ plain) fed
    offered.directory (offered.announce classified visit.input visit.examined.2).host
    (offered.announce classified visit.input visit.examined.2).tree
  rw [offers.target,
    (closed visit.input .record (.execute .provider) _ visit.world.host told quiet).2] at made
  have concludes := admits.concludes (Visit.reproduced_isMade (offers.target ▸ plain) classified)
  have made : (visit.reproduced offered classified).1 = _ := made
  rwa [made] at concludes

theorem isPlain_recordedArtifact (valid : isTargetName spec.target.name = true) (input : Bytes)
    (recording : Recording) : (spec.recordedArtifact input recording).IsPlain :=
  Artifact.isPlain_made valid .provider recording.write input

theorem replay_recordedArtifact (entry : spec.target.entry = .provider code) (input : Bytes)
    {recording : Recording} (fits : recording.Fits) (host : Host σ) :
    ((spec.recordedArtifact input recording).replay spec.target host).1 =
      .ok (spec.target.iterate (.replay .provider) code
        ⟨host, some (Replay.mk recording)⟩).1.finding? :=
  @Artifact.replay_provider _ (spec.recordedArtifact input recording) _
    (congrArg Entry.mode entry) rfl _ entry _ (Recording.decode_encode fits) host

/-- If no call asked for an inverted range, then a replay comes above the boundary to what the
run came to. -/
theorem exists_replay_of_ordered (idles : spec.Idles visit.runner visit.world)
    (entry : spec.target.entry = .provider code) (closed : spec.target.DependsOnAnswers code)
    (fits : (spec.conversation code visit).values.Fits)
    (ordered : ∀ exchange ∈ spec.conversation code visit, exchange.call.isOrdered = true)
    {host : Host σ} (quiet : host.reports.get spec.target.channel = none) :
    ∃ again : Outcome, ((spec.recordedArtifact visit.input
        (spec.conversation code visit).values).replay spec.target host).1 = .ok again.finding? ∧
      again.above = visit.outcome.above := by
  obtain ⟨left, after, answers, runs⟩ :=
    spec.target.iterate_of_answers (.replay .provider) code host (Cursor.ofBytes visit.input)
  obtain ⟨outcome, conversation⟩ := closed visit.input (.replay .provider) (.execute .provider)
    host visit.world.host quiet idles.quiet
  rw [conversation] at answers runs
  have served := Replay.answers (Cursor.answers_accepted answers ordered fits.2) []
  rw [List.append_nil] at served
  refine ⟨_, replay_recordedArtifact entry visit.input fits host, ?_⟩
  rw [RunnerSpec.conversation, runs Replay _ _ served, outcome_provider idles.toDrives entry]
  exact outcome

end RunnerSpec

/-- A replay that is exhausted by a call for a range panics at a site with another token than
the site where an inverted range does. -/
structure CallFault.ToldApart : Prop where
  unsigned : ∀ min max : UInt64,
    (exhausted (.u64In min max)).site.token ≠ (invertedUnsigned min max).site.token
  signed : ∀ min max : Int64,
    (exhausted (.i64In min max)).site.token ≠ (invertedSigned min max).site.token

/-- The panic of a replay that is exhausted has another identity than the one of the call
that was not recorded. -/
theorem CallFault.ToldApart.token_ne (apart : ToldApart) {request : Call} {cursor : Cursor}
    {fault : CallFault} (refused : (cursor.call request).1 = .error fault) :
    (exhausted request).site.token ≠ fault.site.token := by
  rcases Cursor.fault_of_refused refused with ⟨min, max, rfl, rfl⟩ | ⟨min, max, rfl, rfl⟩
  · exact apart.unsigned min max
  · exact apart.signed min max

namespace RunnerSpec

variable {spec : RunnerSpec σ} {code : Code σ Unit} {visit : Visit σ}

theorem token_classify (dedup : spec.settings.effectiveDedup = true)
    (unchanged : spec.normalizer = none) (finding : Finding) :
    (spec.classifier.classify finding).token = finding.token := by
  rw [Classifier.classify, classifier, dedup, unchanged]
  cases spec.settings.hooks with
  | false => rfl
  | true =>
      change (Stripper.empty.normalize finding).token = _
      rw [Stripper.normalize_empty]

/-- If straight code asked for an inverted range, then a replay fails elsewhere. -/
theorem replay_of_inverted (idles : spec.Idles visit.runner visit.world)
    (entry : spec.target.entry = .provider code) (straight : code.IsStraight)
    (dedup : spec.settings.effectiveDedup = true) (unchanged : spec.normalizer = none)
    (apart : CallFault.ToldApart) {raised : Finding} (caught : visit.outcome.finding? = some raised)
    (fits : (spec.conversation code visit).values.Fits)
    (inverted : ¬∀ exchange ∈ spec.conversation code visit, exchange.call.isOrdered = true)
    {host : Host σ} (quiet : host.reports.get spec.target.channel = none) :
    ∃ finding, ((spec.recordedArtifact visit.input
        (spec.conversation code visit).values).replay spec.target host).1 = .ok (some finding) ∧
      (spec.classifier.classify finding).token ≠ (spec.classifier.classify raised).token := by
  obtain ⟨left, after, answers, _⟩ := spec.target.iterate_of_answers (.execute .provider) code
    visit.world.host (Cursor.ofBytes visit.input)
  have course := Target.course_conversation straight (.execute .provider) idles.quiet
    (Cursor.ofBytes visit.input)
  change code.Course (spec.conversation code visit) at course
  change Answers _ (spec.conversation code visit) _ at answers
  generalize spec.conversation code visit = conversation at answers course fits inverted
  cases course with
  | completes exit scope answered _ =>
      exact absurd (Cursor.ordered_of_answered answers answered) inverted
  | breaksOff front request fault answered runs =>
      obtain ⟨between, answersFront, refused, _⟩ := answers_append.mp answers
      -- The run ends with the panic of the call, at the site of an inverted range.
      obtain ⟨own, ownScope, ownStack, ownReports, ownBreaks⟩ :=
        runs (visit.world.host.via (.execute .provider)) rfl
      obtain ⟨last, ran⟩ := Target.iterate_of_breaksOff ownBreaks ownScope ownStack
        (ownReports ▸ idles.quiet) fault
      rw [outcome_provider idles.toDrives entry, ran _ _ _ answers] at caught
      obtain rfl := Option.some.inj caught
      rw [Conversation.values_append, Conversation.values_cons_error rfl, Conversation.values_nil,
        List.append_nil] at fits ⊢
      -- The replay answers what was answered and has nothing left for this call.
      have accepted := Cursor.answers_accepted answersFront
        (Cursor.ordered_of_answered answersFront answered) fits.2
      obtain ⟨again, scope, stack, reports, breaks⟩ := runs (host.via (.replay .provider)) rfl
      obtain ⟨last', replayed⟩ := Target.iterate_of_breaksOff breaks scope stack
        (reports ▸ quiet) (.exhausted request)
      refine ⟨.capturedAt ((CallFault.exhausted request).site.upon
        ((Way.replay .provider).frames ++ host.stack)) Finding.panicKind
          (CallFault.exhausted request).message, ?_, ?_⟩
      · rw [replay_recordedArtifact entry visit.input fits,
          replayed _ _ _ (Replay.answers_exhausted accepted request)]
        rfl
      · rw [token_classify dedup unchanged, token_classify dedup unchanged,
          Finding.token_capturedAt_upon, Finding.token_capturedAt_upon]
        exact apart.token_ne refused

end RunnerSpec

/-- Take any run of a target in provider mode whose behaviour depends on the answers of the
provider only, with no writer of its own. For every input that is reported, a reproducer is
made that is read back from wherever it is written. Its recording answers the calls of the
run as the input did just if none of them asked for an inverted range. In this case running
the reproducer with no report pending yields the finding that was raised, but for what stands
beneath the boundary, and so the token that was reported if the classifier does not look there.
Otherwise it yields a finding with another token, at least if the target is straight code.
Numbers of calls and sizes of values are machine words. -/
theorem recorded_reproduces_of_ordered (spec : RunnerSpec σ) {origin world : World σ}
    {runner : Runner σ} (built : spec.build origin = (.ok runner, world))
    (valid : isTargetName spec.target.name = true) {code : Code σ Unit}
    (entry : spec.target.entry = .provider code) (plain : spec.target.writer = none)
    (closed : spec.target.DependsOnAnswers code) {inputs : List Bytes} {visit : Visit σ}
    (mem : visit ∈ runner.feed world inputs) (reported : visit.reported = true)
    (fits : (spec.conversation code visit).values.Fits) :
    let artifact := spec.recordedArtifact visit.input (spec.conversation code visit).values
    let ordered := ∀ exchange ∈ spec.conversation code visit, exchange.call.isOrdered = true
    ∃ classified raised, visit.found = some classified ∧
      visit.outcome.finding? = some raised ∧
      visit.Concludes classified (.artifact artifact) ∧
      (∀ tree after, artifact.writeTo tree spec.settings.reproducerPath = .ok after →
        Artifact.readFrom after (artifact.pathIn spec.settings.reproducerPath) = .ok artifact) ∧
      ((∃ last, Answers (Replay.mk (spec.conversation code visit).values)
        (spec.conversation code visit) last) ↔ ordered) ∧
      (ordered → ∀ host : Host σ, host.reports.get spec.target.channel = none →
        ∃ finding, (artifact.replay spec.target host).1 = .ok (some finding) ∧
          finding.above = raised.above ∧
          (spec.classifier.SeesAbove →
            (spec.classifier.classify finding).token = classified.token)) ∧
      (¬ordered → code.IsStraight → spec.settings.effectiveDedup = true →
        spec.normalizer = none → CallFault.ToldApart →
        ∀ host : Host σ, host.reports.get spec.target.channel = none →
          ∃ finding, (artifact.replay spec.target host).1 = .ok (some finding) ∧
            (spec.classifier.classify finding).token ≠ classified.token) := by
  intro artifact ordered
  have idles := RunnerSpec.Idles.of_mem_feed built plain mem
  obtain ⟨classified, offered, admits⟩ := Visit.exists_admits_of_reported reported
  obtain ⟨raised, caught, rfl⟩ := Visit.exists_raised_of_found admits.found
  obtain ⟨_, after, answers, _⟩ := spec.target.iterate_of_answers (.execute .provider) code
    visit.world.host (Cursor.ofBytes visit.input)
  refine ⟨_, raised, admits.found, caught, ?_, ?_, Replay.answers_iff_ordered answers fits.2, ?_,
    ?_⟩
  · exact RunnerSpec.concludes_provider idles.toDrives idles.quiet entry plain closed admits
  · intro tree after written
    exact Artifact.readFrom_of_writeTo (RunnerSpec.isPlain_recordedArtifact valid _ _) written
  · intro ordered host quiet
    obtain ⟨again, replayed, same⟩ :=
      RunnerSpec.exists_replay_of_ordered idles entry closed fits ordered quiet
    obtain ⟨finding, found, alike, recognized⟩ := spec.classifier.exists_found_again same caught
    rw [idles.classifier]
    exact ⟨finding, replayed.trans (congrArg Except.ok found), alike, recognized⟩
  · intro inverted straight dedup unchanged apart host quiet
    rw [idles.classifier]
    exact RunnerSpec.replay_of_inverted idles entry straight dedup unchanged apart caught fits
      inverted quiet

/-- Code that asks for an inverted range if the last octet of its input tells it to, and
fails in its own way otherwise. -/
def rangeUser : Code Unit Unit :=
  .draw .u8 fun
    | some (.u8 7) => .draw (.u64In 5 1) fun _ => .finish ()
    | _ => .draw (.u64In 1 5) fun _ => .panic (.symbolic "small") (.str "small")

/-- A runner for this code that goes on after the first finding. -/
def rangeUserRun : RunnerSpec Unit where
  target :=
    { name := "demo::range_user"
      entry := .provider rangeUser
      startup := none
      tearDown := none
      writer := none
      channel := .shared }
  settings := { Settings.default with keepGoing := 3 }
  engine := .observing
  recorder := none
  normalizer := none

theorem rangeUser_isStraight : rangeUser.IsStraight := by
  intro value
  dsimp only
  split
  · intro drawn
    trivial
  · intro drawn
    trivial

theorem rangeUserRun_seesAbove : rangeUserRun.classifier.SeesAbove := by
  apply Classifier.seesAbove_of_strips
  rintro normalize ⟨⟩
  exact ⟨.empty, fun _ _ => rfl, rfl⟩

/-- The sites of the library have names of their own, and so tokens of their own. -/
theorem CallFault.toldApart : CallFault.ToldApart where
  unsigned min max := by
    change (exhausted (.u64In 0 0)).site.token ≠ (invertedUnsigned 0 0).site.token
    decide +kernel
  signed min max := by
    change (exhausted (.i64In 0 0)).site.token ≠ (invertedSigned 0 0).site.token
    decide +kernel

/-- Of two findings that are reported, the one of an inverted range does not come up again. -/
theorem rangeUserRun_reproduces : ∃ small inverted,
    rangeUserRun.visits [[3, 1], [7]] = [small, inverted] ∧
      (∃ artifact finding classified, small.Concludes classified (.artifact artifact) ∧
        (artifact.replay rangeUserRun.target (.fresh ())).1 = .ok (some finding) ∧
        (rangeUserRun.classifier.classify finding).token = classified.token) ∧
      ∃ artifact finding classified, inverted.Concludes classified (.artifact artifact) ∧
        (artifact.replay rangeUserRun.target (.fresh ())).1 = .ok (some finding) ∧
        (rangeUserRun.classifier.classify finding).token ≠ classified.token := by
  have closed : rangeUserRun.target.DependsOnAnswers rangeUser :=
    Target.dependsOnAnswers_of_isStraight _ rangeUser_isStraight
  have facts : ∀ visit ∈ rangeUserRun.visits [[3, 1], [7]], visit.reported = true ∧
      (rangeUserRun.conversation rangeUser visit).values.length < UInt64.size ∧
        ∀ value ∈ (rangeUserRun.conversation rangeUser visit).values,
          value.size < UInt64.size := by
    decide +kernel
  have orders : (rangeUserRun.visits [[3, 1], [7]]).map (fun visit =>
      (rangeUserRun.conversation rangeUser visit).all fun exchange => exchange.call.isOrdered) =
        [true, false] := by
    decide +kernel
  have length : (rangeUserRun.visits [[3, 1], [7]]).length = 2 := by decide +kernel
  obtain ⟨small, inverted, run⟩ := List.length_eq_two.mp length
  have memSmall : small ∈ rangeUserRun.visits [[3, 1], [7]] := by
    rw [run]
    exact List.mem_cons_self ..
  have memInverted : inverted ∈ rangeUserRun.visits [[3, 1], [7]] := by
    rw [run]
    exact List.mem_cons_of_mem _ (List.mem_singleton_self _)
  rw [run] at orders
  obtain ⟨ordered, rest⟩ := List.cons.inj orders
  obtain ⟨disordered, _⟩ := List.cons.inj rest
  dsimp only at disordered
  have notOrdered : ¬∀ exchange ∈ rangeUserRun.conversation rangeUser inverted,
      exchange.call.isOrdered = true := by
    rw [← List.all_eq_true, disordered]
    exact Bool.false_ne_true
  obtain ⟨reported, fits⟩ := facts small memSmall
  obtain ⟨classified, _, _, _, concludes, _, _, faithful, _⟩ :=
    recorded_reproduces_of_ordered rangeUserRun rfl (by decide) rfl rfl closed memSmall reported
      fits
  obtain ⟨finding, again, _, recognized⟩ :=
    faithful (List.all_eq_true.mp ordered) (.fresh ()) rfl
  obtain ⟨reported', fits'⟩ := facts inverted memInverted
  obtain ⟨classified', _, _, _, concludes', _, _, _, unfaithful⟩ :=
    recorded_reproduces_of_ordered rangeUserRun rfl (by decide) rfl rfl closed memInverted
      reported' fits'
  obtain ⟨finding', again', differs⟩ :=
    unfaithful notOrdered rangeUser_isStraight rfl rfl CallFault.toldApart (.fresh ()) rfl
  exact ⟨small, inverted, run,
    ⟨_, finding, classified, concludes, again, recognized rangeUserRun_seesAbove⟩,
    ⟨_, finding', classified', concludes', again', differs⟩⟩

/-- A panic that the target catches is missing as well: the replay drops the value that was
drawn next, and the call for it finds nothing. -/
example :
    let code : Code Unit Unit :=
      .guard (.draw (.u64In 5 1) fun _ => .finish ()) fun _ =>
        .draw .u8 fun _ => .panic (.symbolic "late") (.str "late")
    (rangeUserRun.target.iterate (.execute .provider) code
          ⟨.fresh (), some (Cursor.ofBytes [7])⟩).1 =
        .thrown (.capturedAt ((Site.symbolic "late").upon (Way.execute .provider).frames)
          Finding.panicKind "late") ∧
      (rangeUserRun.target.iterate (.replay .provider) code
          ⟨.fresh (), some (Replay.mk [.u8 7])⟩).1 =
        .thrown (.capturedAt ((CallFault.exhausted .u8).site.upon (Way.replay .provider).frames)
          Finding.panicKind (CallFault.exhausted .u8).message) := by
  decide +kernel

end FuzzHarness
