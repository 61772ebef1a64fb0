import FuzzHarness.Proofs.Runner.Feeding

/-!
# The report law

Which calls of a run report what they find, what a report consists of, and which report
ends the run. The invariant ties the tokens that the budget knows to the ignored ones and
to those found so far, and their number to the number of reports.
-/

namespace FuzzHarness

variable {σ : Type}

/-- A token that is not ignored and that no earlier call found. -/
def IsNew (tokens : List UInt64) (before : List (Visit σ)) (token : UInt64) : Prop :=
  token ∉ tokens ∧
    ∀ earlier ∈ before, ∀ classified, earlier.found = some classified →
      classified.token ≠ token

theorem isNew_nil {tokens : List UInt64} {token : UInt64} :
    IsNew tokens ([] : List (Visit σ)) token ↔ token ∉ tokens :=
  ⟨And.left, fun new => ⟨new, fun _ mem => absurd mem List.not_mem_nil⟩⟩

theorem isNew_append_singleton {tokens : List UInt64} {before : List (Visit σ)}
    {visit : Visit σ} {token : UInt64} :
    IsNew tokens (before ++ [visit]) token ↔
      IsNew tokens before token ∧
        ∀ classified, visit.found = some classified → classified.token ≠ token := by
  rw [IsNew, IsNew, List.forall_mem_append, List.forall_mem_singleton, and_assoc]

/-- What the budget has come to after the calls so far. With a budget of one nothing is
remembered, because the first report ends the run. -/
structure Standing (spec : RunnerSpec σ) (tokens : List UInt64) (before : List (Visit σ))
    (runner : Runner σ) : Prop extends spec.Drives runner where
  unknown : 1 < spec.settings.keepGoing → ∀ token,
    token ∉ runner.budget.known.tokens ↔ IsNew tokens before token
  counted : 1 < spec.settings.keepGoing →
    runner.budget.known.size = tokens.toFinset.card + before.countP Visit.reported

/-- So many reports use up the budget. -/
def RunnerSpec.Spent (spec : RunnerSpec σ) (tokens : List UInt64) (reports : Nat) : Prop :=
  spec.settings.keepGoing = 1 ∨
    spec.settings.keepGoing.toNat ≤ tokens.toFinset.card + reports

namespace Visit

def err (visit : Visit σ) : String :=
  String.join (visit.written.map Emission.err)

def out (visit : Visit σ) : String :=
  String.join (visit.written.map Emission.out)

/-- The call wrote this behind what had been written before. -/
def Writes (visit : Visit σ) (emissions : List Emission) : Prop :=
  visit.result.2.2.emissions = visit.world.emissions ++ emissions

/-- The call asked the engine so often to describe its input. -/
def Asks (visit : Visit σ) (count : Nat) : Prop :=
  visit.result.2.2.crashingInputs = visit.world.crashingInputs + count

/-- The call reports a finding: one block on the error stream, behind which the engine
may describe the input, one line on the output stream if findings are told apart, one
request to the engine and one reproducer, with which it comes to its conclusion. -/
structure Reports (spec : RunnerSpec σ) (visit : Visit σ) (classified : Classified) : Prop where
  err : ∃ own : List String, (own = [] ∨ own = spec.engine.lines visit.input) ∧
    visit.err = "\n== Rust Panic: " ++ classified.finding.display ++
      "== libFuzzer crashing input ==\n" ++ String.join (own.map (· ++ "\n"))
  out : visit.out =
    if spec.settings.effectiveDedup then s!"DEDUP_TOKEN: {Text.hexWord classified.token}\n" else ""
  asked : visit.Asks 1
  concludes : ∃ generated, generated.isMade = true ∧ visit.Concludes classified generated

/-- The call returns and does nothing else than run its input. For a reproducer it would use
the executor once more or write a file. -/
structure IsSilent (visit : Visit σ) : Prop where
  returned : visit.result.1 = .returned
  written : visit.written = []
  asked : visit.Asks 0
  executor : visit.result.2.1.executor = visit.examined.1.executor
  tree : visit.result.2.2.tree = visit.world.tree

/-- What a call does, given the calls before it. -/
structure FollowsLaw (spec : RunnerSpec σ) (tokens : List UInt64) (before : List (Visit σ))
    (visit : Visit σ) : Prop where
  /-- A budget of one lets the first finding pass, whatever is ignored. -/
  reported_iff : visit.reported = true ↔ ∃ classified, visit.found = some classified ∧
    (1 < spec.settings.keepGoing → IsNew tokens before classified.token)
  reports : visit.reported = true → ∀ classified, visit.found = some classified →
    visit.Reports spec classified
  ends : visit.reported = true → spec.Spent tokens (before.countP Visit.reported + 1) →
    visit.result.1 = .exited findingExitCode ∧ visit.result.2.1.shutdown.done = true
  goesOn : visit.reported = true → ¬spec.Spent tokens (before.countP Visit.reported + 1) →
    visit.result.1 = .returned ∧ visit.result.2.1.shutdown.done = false
  silent : visit.reported = false → visit.IsSilent
  kept : visit.Writes visit.written

end Visit

namespace RunnerSpec

variable {spec : RunnerSpec σ} {tokens : List UInt64} {budget : Budget} {reports : Nat}

theorem afterReport_of_spent (limit : budget.limit = spec.settings.keepGoing)
    (positive : spec.settings.keepGoing ≠ 0)
    (counted : 1 < spec.settings.keepGoing →
      budget.known.size = tokens.toFinset.card + reports)
    (spent : spec.Spent tokens reports) : budget.afterReport = .terminate := by
  rw [Budget.afterReport, limit, if_pos]
  rcases spent with one | enough
  · exact .inl one
  · rcases Budget.eq_one_or_one_lt positive with one | many
    · exact .inl one
    · rw [counted many]
      exact .inr enough

theorem afterReport_of_not_spent (limit : budget.limit = spec.settings.keepGoing)
    (positive : spec.settings.keepGoing ≠ 0)
    (counted : 1 < spec.settings.keepGoing →
      budget.known.size = tokens.toFinset.card + reports)
    (left : ¬spec.Spent tokens reports) : budget.afterReport = .proceed := by
  have many := (Budget.eq_one_or_one_lt positive).resolve_left fun one => left (.inl one)
  rw [Budget.afterReport, limit, counted many]
  exact if_neg left

/-- Going on past a finding tells findings apart. -/
theorem classifier_dedup (many : 1 < spec.settings.keepGoing) :
    spec.classifier.dedup = true := by
  change (spec.settings.dedup || decide (1 < spec.settings.keepGoing) ||
    !spec.settings.ignore.isEmpty) = true
  rw [decide_eq_true many, Bool.or_true, Bool.true_or]

end RunnerSpec

namespace Standing

variable {spec : RunnerSpec σ} {tokens : List UInt64} {before : List (Visit σ)}
  {runner : Runner σ} {visit : Visit σ}

/-- A runner that has just been built knows the ignored tokens. -/
theorem start (spec : RunnerSpec σ) (positive : spec.settings.keepGoing ≠ 0)
    (tokens : List UInt64) : Standing spec tokens [] (spec.runner tokens) where
  toDrives := spec.drives_runner positive tokens
  unknown _ _ := (not_congr TokenSet.mem_ofList).trans isNew_nil.symm
  counted _ := TokenSet.size_ofList tokens

/-- Examining an input decides nothing. -/
theorem examined (standing : Standing spec tokens before visit.runner) :
    Standing spec tokens before visit.examined.1 where
  toDrives := standing.toDrives.examined
  unknown := standing.unknown
  counted := standing.counted

theorem offer_of_stale (standing : Standing spec tokens before runner) {token : UInt64}
    (many : 1 < spec.settings.keepGoing) (stale : ¬IsNew tokens before token) :
    runner.offer token = (.suppress, runner) := by
  apply Runner.offer_of_known (standing.classifier ▸ spec.classifier_dedup many)
    (standing.limit ▸ many)
  exact Decidable.of_not_not fun unknown => stale ((standing.unknown many token).mp unknown)

/-- A token that passes is counted, and is new to no later call. -/
theorem offer_of_new (standing : Standing spec tokens before runner) {token : UInt64}
    (new : 1 < spec.settings.keepGoing → IsNew tokens before token) :
    ∃ budget, runner.offer token = (.report, runner.withBudget budget) ∧
      budget.limit = spec.settings.keepGoing ∧
      (1 < spec.settings.keepGoing →
        (∀ other, other ∉ budget.known.tokens ↔ other ≠ token ∧ IsNew tokens before other) ∧
        budget.known.size = tokens.toFinset.card + (before.countP Visit.reported + 1)) := by
  by_cases many : 1 < spec.settings.keepGoing
  · have dedup : runner.classifier.dedup = true :=
      standing.classifier ▸ spec.classifier_dedup many
    have unknown := (standing.unknown many token).mpr (new many)
    rw [Runner.offer_of_new dedup (standing.limit ▸ many) unknown]
    refine ⟨_, rfl, standing.limit, fun _ => ⟨fun other => ?_, ?_⟩⟩
    · rw [TokenSet.mem_insert, not_or, standing.unknown many]
    · rw [TokenSet.size_insert, if_neg unknown, standing.counted many, Nat.add_assoc]
  · have single : runner.budget.limit ≤ 1 := standing.limit ▸ UInt64.not_lt.mp many
    exact ⟨runner.budget, Runner.offer_of_one single token, standing.limit,
      fun many' => absurd many' many⟩

end Standing

/-- What stands on the error stream for a report. -/
theorem err_reportBlock (dedup : Bool) (classified : Classified) (own : List String) :
    String.join ((reportBlock dedup classified ++ own.map Emission.line).map Emission.err) =
      "\n== Rust Panic: " ++ classified.finding.display ++
        "== libFuzzer crashing input ==\n" ++ String.join (own.map (· ++ "\n")) := by
  have lines : (own.map Emission.line).map Emission.err = own.map (· ++ "\n") := by
    rw [List.map_map]
    rfl
  rw [List.map_append, String.join_append, lines]
  cases dedup with
  | true => simp [reportBlock, Emission.err, Phase.header, Emission.crashingInputHeader]
  | false => simp [reportBlock, Emission.err, Phase.header, Emission.crashingInputHeader]

/-- What stands on the output stream for a report. -/
theorem out_reportBlock (dedup : Bool) (classified : Classified) (own : List String) :
    String.join ((reportBlock dedup classified ++ own.map Emission.line).map Emission.out) =
      if dedup then s!"DEDUP_TOKEN: {Text.hexWord classified.token}\n" else "" := by
  have lines : String.join ((own.map Emission.line).map Emission.out) = "" := by
    induction own with
    | nil => rfl
    | cons line rest ih =>
        rw [List.map_cons, List.map_cons, String.join_cons, ih]
        rfl
  rw [List.map_append, String.join_append, lines]
  cases dedup with
  | true => simp [reportBlock, Emission.out]
  | false => simp [reportBlock, Emission.out]

namespace Visit

variable {spec : RunnerSpec σ} {tokens : List UInt64} {before : List (Visit σ)}
  {visit : Visit σ}

theorem Writes.written_eq {emissions : List Emission} (writes : visit.Writes emissions) :
    visit.written = emissions := by
  rw [written, writes]
  exact List.drop_left

theorem reported_of_written_nil (nothing : visit.written = []) : visit.reported = false := by
  rw [reported, nothing]
  rfl

/-- A call that returns what its examination left, but for the log, is silent. -/
theorem isSilent_of_result {runner : Runner σ} {world : World σ}
    (result : visit.result = (.returned, runner, world))
    (emissions : world.emissions = visit.world.emissions)
    (asked : world.crashingInputs = visit.world.crashingInputs)
    (executor : runner.executor = visit.examined.1.executor)
    (tree : world.tree = visit.world.tree) : visit.IsSilent ∧ visit.Writes [] := by
  have writes : visit.Writes [] := by rw [Writes, result, emissions, List.append_nil]
  have asks : visit.Asks 0 := by rw [Asks, result, asked, Nat.add_zero]
  refine ⟨⟨by rw [result], writes.written_eq, asks, ?_, ?_⟩, writes⟩
  · rw [result, executor]
  · rw [result, tree]

theorem reported_of_writes {dedup : Bool} {classified : Classified} {rest : List Emission}
    (writes : visit.Writes (reportBlock dedup classified ++ rest)) : visit.reported = true := by
  rw [reported, writes.written_eq]
  rfl

/-- What is written for a report is what the streams show of it. -/
theorem Reports.of_writes {classified : Classified} {own : List String}
    (said : own = [] ∨ own = spec.engine.lines visit.input)
    (writes : visit.Writes
      (reportBlock spec.settings.effectiveDedup classified ++ own.map .line))
    (asked : visit.Asks 1)
    (concludes : ∃ generated, generated.isMade = true ∧ visit.Concludes classified generated) :
    visit.Reports spec classified where
  err := ⟨own, said, by rw [Visit.err, writes.written_eq, err_reportBlock]⟩
  out := by rw [Visit.out, writes.written_eq, out_reportBlock]
  asked := asked
  concludes := concludes

/-- The call whose finding passes the budget: what it writes, asks for and makes, and how
it ends. A tear-down hook that fails would write a finding of its own. -/
theorem course_of_reported {offered : Runner σ} {classified : Classified}
    (admits : visit.Admits classified offered) (pending : offered.shutdown.done = false)
    (made : ∀ generated, visit.Makes generated → generated.isMade = true)
    (clean : ∀ finding, Emission.finding .tearDown finding ∉ visit.written) :
    (∃ own : List String, (own = [] ∨ own = offered.engine.lines visit.input) ∧
      visit.Writes (reportBlock offered.classifier.dedup classified ++ own.map .line)) ∧
      visit.Asks 1 ∧
      (offered.budget.afterReport = .terminate →
        visit.result.1 = .exited findingExitCode ∧
          visit.result.2.1.shutdown.done = true) ∧
      (offered.budget.afterReport = .proceed →
        visit.result = (.returned, (visit.reproduced offered classified).2.1,
          (visit.reproduced offered classified).2.2)) := by
  have result := admits.result_of_made (made _ ⟨classified, offered, admits, rfl⟩)
  obtain ⟨asked, own, said, wrote⟩ :=
    offered.announce_spec classified visit.input visit.examined.2
  -- The streams and the count of requests stay as they are while a reproducer is made.
  change (visit.reproduced offered classified).2.2.crashingInputs = _ at asked
  change (visit.reproduced offered classified).2.2.emissions = _ at wrote
  cases decision : offered.budget.afterReport with
  | proceed =>
      have left : (visit.reproduced offered classified).2.1.budget.afterReport = .proceed :=
        decision
      have returned := result.trans (Runner.conclude_proceed left _)
      refine ⟨⟨own, said, ?_⟩, ?_, ?_, fun _ => returned⟩
      · rw [Writes, returned, wrote]
        rfl
      · rw [Asks, returned, asked]
        rfl
      · intro used
        cases used
  | terminate =>
      have used : (visit.reproduced offered classified).2.1.budget.afterReport = .terminate :=
        decision
      obtain ⟨ended, done, asks, emissions⟩ :=
        Runner.conclude_terminate used pending (visit.reproduced offered classified).2.2
      rw [← result] at ended done asks emissions
      refine ⟨⟨own, said, ?_⟩, asks.trans asked, fun _ => ⟨ended, done⟩, ?_⟩
      · rcases emissions with same | ⟨finding, added⟩
        · exact same.trans wrote
        · have writes : visit.Writes (reportBlock offered.classifier.dedup classified ++
              own.map .line ++ [.finding .tearDown finding]) := by
            rw [Writes, added, wrote, List.append_assoc]
            rfl
          have mem : Emission.finding .tearDown finding ∈ visit.written := by
            rw [writes.written_eq]
            exact List.mem_append_right _ (List.mem_singleton_self _)
          exact absurd mem (clean finding)
      · intro left
        cases left

theorem IsSilent.followsLaw (silent : visit.IsSilent) (writes : visit.Writes [])
    (stale : ∀ classified, visit.found = some classified →
      1 < spec.settings.keepGoing ∧ ¬IsNew tokens before classified.token) :
    visit.FollowsLaw spec tokens before := by
  have unreported := reported_of_written_nil silent.written
  have reported : visit.reported ≠ true := Bool.eq_false_iff.mp unreported
  refine ⟨⟨fun yes => absurd yes reported, ?_⟩, fun yes => absurd yes reported,
    fun yes => absurd yes reported, fun yes => absurd yes reported, fun _ => silent, ?_⟩
  · rintro ⟨classified, found, new⟩
    obtain ⟨many, old⟩ := stale classified found
    exact absurd (new many) old
  · rw [silent.written]
    exact writes

end Visit

namespace Standing

variable {spec : RunnerSpec σ} {tokens : List UInt64} {before : List (Visit σ)}
  {visit : Visit σ}

/-- A silent call changes nothing about the tokens. -/
theorem after_silent (standing : Standing spec tokens before visit.runner)
    (silent : visit.IsSilent)
    (stale : ∀ classified, visit.found = some classified →
      1 < spec.settings.keepGoing ∧ ¬IsNew tokens before classified.token) :
    Standing spec tokens (before ++ [visit]) visit.examined.1 where
  toDrives := standing.examined.toDrives
  unknown many token := by
    rw [isNew_append_singleton]
    refine (standing.examined.unknown many token).trans ⟨fun new => ⟨new, ?_⟩, And.left⟩
    intro classified found same
    exact (stale classified found).2 (same ▸ new)
  counted many := by
    have unreported := Visit.reported_of_written_nil silent.written
    rw [List.countP_append, List.countP_singleton, unreported]
    exact standing.examined.counted many

/-- A reported finding is remembered, and the budget comes to one more. -/
theorem after_reported (standing : Standing spec tokens before visit.runner)
    {budget : Budget} {classified : Classified} (found : visit.found = some classified)
    (reported : visit.reported = true) (limit : budget.limit = spec.settings.keepGoing)
    (counted : 1 < spec.settings.keepGoing →
      (∀ other, other ∉ budget.known.tokens ↔
        other ≠ classified.token ∧ IsNew tokens before other) ∧
      budget.known.size = tokens.toFinset.card + (before.countP Visit.reported + 1)) :
    Standing spec tokens (before ++ [visit])
      (visit.reproduced (visit.examined.1.withBudget budget) classified).2.1 where
  toDrives := (standing.toDrives.examined.withBudget limit).reproduced classified
  unknown many token := by
    rw [isNew_append_singleton]
    refine ((counted many).1 token).trans ?_
    constructor
    · rintro ⟨differs, new⟩
      refine ⟨new, ?_⟩
      intro other same
      rw [found] at same
      cases same
      exact differs.symm
    · rintro ⟨new, differs⟩
      exact ⟨(differs classified found).symm, new⟩
  counted many := by
    rw [List.countP_append, List.countP_singleton, reported]
    exact (counted many).2

/-- A call that finds nothing new is silent. -/
theorem followsLaw_of_stale (standing : Standing spec tokens before visit.runner)
    (stale : ∀ classified, visit.found = some classified →
      1 < spec.settings.keepGoing ∧ ¬IsNew tokens before classified.token) :
    visit.FollowsLaw spec tokens before ∧
      Standing spec tokens (before ++ [visit]) visit.result.2.1 := by
  cases found : visit.found with
  | none =>
      have result := Visit.result_of_quiet found
      obtain ⟨silent, writes⟩ := Visit.isSilent_of_result result rfl rfl rfl rfl
      rw [result]
      exact ⟨silent.followsLaw writes stale, standing.after_silent silent stale⟩
  | some classified =>
      obtain ⟨many, old⟩ := stale classified found
      have result := Visit.result_of_suppressed found (standing.examined.offer_of_stale many old)
      obtain ⟨silent, writes⟩ := Visit.isSilent_of_result result rfl rfl rfl rfl
      rw [result]
      exact ⟨silent.followsLaw writes stale, standing.after_silent silent stale⟩

/-- A call that finds something new reports it, and returns unless this uses up the budget. -/
theorem followsLaw_of_new (standing : Standing spec tokens before visit.runner)
    (positive : spec.settings.keepGoing ≠ 0)
    (made : ∀ generated, visit.Makes generated → generated.isMade = true)
    (clean : ∀ finding, Emission.finding .tearDown finding ∉ visit.written)
    {classified : Classified} (found : visit.found = some classified)
    (new : 1 < spec.settings.keepGoing → IsNew tokens before classified.token) :
    visit.FollowsLaw spec tokens before ∧
      (visit.result.1 = .returned →
        Standing spec tokens (before ++ [visit]) visit.result.2.1) := by
  obtain ⟨budget, passed, limit, counted⟩ := standing.examined.offer_of_new new
  have admits : visit.Admits classified _ := ⟨found, passed⟩
  have drives := standing.toDrives.examined.withBudget limit
  obtain ⟨⟨own, said, writes⟩, asked, exits, returns⟩ :=
    Visit.course_of_reported admits drives.pending made clean
  rw [drives.engine] at said
  rw [drives.classifier] at writes
  have reported := Visit.reported_of_writes writes
  have concludes := admits.concludes (made _ ⟨classified, _, admits, rfl⟩)
  have reports : visit.Reports spec classified :=
    .of_writes said writes asked ⟨_, made _ ⟨classified, _, admits, rfl⟩, concludes⟩
  have size (many : 1 < spec.settings.keepGoing) := (counted many).2
  constructor
  · refine ⟨⟨fun _ => ⟨classified, found, new⟩, fun _ => reported⟩, ?_, ?_, ?_, ?_, ?_⟩
    · intro _ other same
      obtain rfl := Option.some.inj (found.symm.trans same)
      exact reports
    · intro _ spent
      exact exits (spec.afterReport_of_spent limit positive size spent)
    · intro _ left
      rw [returns (spec.afterReport_of_not_spent limit positive size left)]
      exact ⟨rfl, drives.pending⟩
    · intro unreported
      exact absurd reported (Bool.eq_false_iff.mp unreported)
    · exact writes.written_eq.symm ▸ writes
  · intro returned
    by_cases spent : spec.Spent tokens (before.countP Visit.reported + 1)
    · have ended := (exits (spec.afterReport_of_spent limit positive size spent)).1
      cases ended.symm.trans returned
    · rw [returns (spec.afterReport_of_not_spent limit positive size spent)]
      exact standing.after_reported found reported limit counted

/-- The law for one call, and what the budget comes to if it returns. -/
theorem visit_followsLaw (standing : Standing spec tokens before visit.runner)
    (positive : spec.settings.keepGoing ≠ 0)
    (made : ∀ generated, visit.Makes generated → generated.isMade = true)
    (clean : ∀ finding, Emission.finding .tearDown finding ∉ visit.written) :
    visit.FollowsLaw spec tokens before ∧
      (visit.result.1 = .returned →
        Standing spec tokens (before ++ [visit]) visit.result.2.1) := by
  by_cases passes : ∃ classified, visit.found = some classified ∧
    (1 < spec.settings.keepGoing → IsNew tokens before classified.token)
  · obtain ⟨classified, found, new⟩ := passes
    exact standing.followsLaw_of_new positive made clean found new
  · have stale : ∀ classified, visit.found = some classified →
        1 < spec.settings.keepGoing ∧ ¬IsNew tokens before classified.token := by
      intro classified found
      exact Classical.not_imp.mp fun new => passes ⟨classified, found, new⟩
    obtain ⟨law, kept⟩ := standing.followsLaw_of_stale stale
    exact ⟨law, fun _ => kept⟩

end Standing

/-- In every run of a runner that was built, each call follows the law, provided that the
reproducers get made and no tear-down hook fails. -/
theorem feed_followsLaw (spec : RunnerSpec σ) {start world : World σ} {runner : Runner σ}
    (built : spec.build start = (.ok runner, world)) {tokens : List UInt64}
    (parsed : spec.settings.ignoredTokens = .ok tokens) (inputs : List Bytes)
    (made : ∀ visit ∈ runner.feed world inputs, ∀ generated,
      visit.Makes generated → generated.isMade = true)
    (clean : ∀ visit ∈ runner.feed world inputs, ∀ finding,
      Emission.finding .tearDown finding ∉ visit.written)
    {before after : List (Visit σ)} {visit : Visit σ}
    (place : runner.feed world inputs = before ++ visit :: after) :
    visit.FollowsLaw spec tokens before := by
  obtain ⟨positive, ignored, parsed', rfl, _⟩ := RunnerSpec.build_spec built
  obtain rfl : ignored = tokens := Except.ok.inj (parsed'.symm.trans parsed)
  have standing : Standing spec ignored ([] ++ before) visit.runner :=
    @Runner.feed_induction _ (fun before runner _ => Standing spec ignored before runner)
      _ _ _ [] (Standing.start spec positive ignored)
      (fun visit mem before standing returned =>
        (standing.visit_followsLaw positive (made visit mem) (clean visit mem)).2 returned)
      _ _ _ place
  have mem : visit ∈ (spec.runner ignored).feed world inputs := by
    rw [place]
    exact List.mem_append_cons_self
  exact (standing.visit_followsLaw positive (made visit mem) (clean visit mem)).1

/-- The part of the run that a written finding comes from. -/
def Emission.phase? : Emission → Option Phase
  | .finding phase _ => some phase
  | _ => none

/-- A target that panics at either of two sites. -/
def twoSites : RunnerSpec Unit where
  target :=
    { name := "demo::two_sites"
      entry := .bytes fun
        | 1 :: _ => .panic (.symbolic "one") (.str "one")
        | 2 :: _ => .panic (.symbolic "two") (.str "two")
        | _ => .finish ()
      startup := none
      tearDown := none
      writer := none
      channel := .shared }
  settings := { Settings.default with keepGoing := 2 }
  engine := .observing
  recorder := none
  normalizer := none

/-- The calls of a run that finds the first site twice. -/
def twoSitesRun : List (Visit Unit) :=
  (twoSites.runner []).feed (twoSites.build (.fresh () .empty)).2 [[1], [1], [2], [3]]

/-- The second report ends the run, and the last input is never run. -/
theorem twoSitesRun_ends : ∃ first second third, twoSitesRun = [first, second, third] ∧
    second.reported = false ∧ third.FollowsLaw twoSites [] [first, second] ∧
    third.result.1 = .exited findingExitCode := by
  have facts : twoSitesRun.map Visit.reported = [true, false, true] ∧
      (∀ visit ∈ twoSitesRun, visit.runner.executor.target.writer.isNone = true) ∧
      ∀ visit ∈ twoSitesRun, ∀ emission ∈ visit.written, emission.phase? ≠ some .tearDown := by
    decide +kernel
  obtain ⟨reported, plain, clean⟩ := facts
  have length : twoSitesRun.length = 3 := by
    rw [← List.length_map Visit.reported, reported]
    rfl
  obtain ⟨first, second, third, run⟩ := List.length_eq_three.mp length
  rw [run] at reported
  obtain ⟨one, two, three⟩ : first.reported = true ∧ second.reported = false ∧
      third.reported = true := by simpa using reported
  have law : third.FollowsLaw twoSites [] [first, second] :=
    feed_followsLaw twoSites rfl rfl [[1], [1], [2], [3]]
      (fun visit mem _ =>
        Visit.Makes.isMade_of_plain (Option.isNone_iff_eq_none.mp (plain visit mem)))
      (fun visit mem finding wrote => clean visit mem _ wrote rfl) run
  have spent : twoSites.Spent [] ([first, second].countP Visit.reported + 1) := by
    right
    simp [one, two, twoSites]
  exact ⟨first, second, third, run, two, law, (law.ends three spent).1⟩

end FuzzHarness
