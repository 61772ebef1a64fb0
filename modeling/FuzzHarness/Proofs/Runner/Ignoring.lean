import FuzzHarness.Proofs.Runner.Closing
import FuzzHarness.Proofs.Runner.ReportLaw
import FuzzHarness.Proofs.Settings

/-!
# Ignored tokens

A runner never forgets a token, whatever it is asked to do and however that ends. So a token
that is ignored from the start, in whatever spelling it was listed, is known in every turn: it
counts once, and an input whose finding has it is passed over in silence.
-/

namespace FuzzHarness

variable {σ : Type}

namespace Runner

/-- A later runner decides as an earlier one, and knows what that one knew. -/
structure Remembers (runner after : Runner σ) : Prop where
  classifier : after.classifier = runner.classifier
  limit : after.budget.limit = runner.budget.limit
  known : ∀ token ∈ runner.budget.known.tokens, token ∈ after.budget.known.tokens

namespace Remembers

variable {runner between after : Runner σ}

theorem of_same (classifier : after.classifier = runner.classifier)
    (budget : after.budget = runner.budget) : runner.Remembers after :=
  ⟨classifier, congrArg Budget.limit budget, fun _ mem => budget ▸ mem⟩

theorem refl (runner : Runner σ) : runner.Remembers runner :=
  .of_same rfl rfl

theorem trans (first : runner.Remembers between) (second : between.Remembers after) :
    runner.Remembers after :=
  ⟨second.classifier.trans first.classifier, second.limit.trans first.limit,
    fun token mem => second.known token (first.known token mem)⟩

end Remembers

theorem offer_remembers (runner : Runner σ) (token : UInt64) :
    runner.Remembers (runner.offer token).2 := by
  rw [offer]
  split
  · exact ⟨rfl, runner.budget.offer_limit token, fun _ mem => Budget.mem_offer_of_mem mem token⟩
  · exact .refl runner

theorem shutDown_remembers (runner : Runner σ) (world : World σ) :
    runner.Remembers (runner.shutDown world).2.1 := by
  rw [shutDown]
  split
  · exact .refl runner
  · dsimp only
    split <;> exact .of_same rfl rfl

theorem conclude_remembers (runner : Runner σ) (world : World σ) :
    runner.Remembers (runner.conclude world).2.1 := by
  have closed := runner.shutDown_remembers world
  rw [conclude]
  split
  · exact .refl runner
  · split
    · next shut => rwa [shut] at closed
    · exact closed

theorem handle_remembers (runner : Runner σ) (classified : Classified) (input : Bytes)
    (world : World σ) : runner.Remembers (runner.handle classified input world).2.1 := by
  have reproduced : runner.Remembers
      (runner.reproduce input (runner.announce classified input world)).2.1 := .of_same rfl rfl
  rw [handle]
  split
  · next made => rwa [made] at reproduced
  · next made => rwa [made] at reproduced
  · next made =>
    rw [made] at reproduced
    exact reproduced.trans (conclude_remembers _ _)

theorem runOne_remembers (runner : Runner σ) (input : Bytes) (world : World σ) :
    runner.Remembers (runner.runOne input world).2.1 := by
  have examined : runner.Remembers (runner.examine input world).2.1 := .of_same rfl rfl
  rw [runOne]
  split
  · next run => rwa [run] at examined
  · next classified between _ run =>
    rw [run] at examined
    have offered := examined.trans (between.offer_remembers classified.token)
    split
    · next passed => rwa [passed] at offered
    · next passed =>
      rw [passed] at offered
      exact offered.trans (handle_remembers _ _ _ _)

/-- A turn forgets nothing. -/
theorem remembers_result (turn : Turn σ) : turn.runner.Remembers turn.result.2.1 := by
  rw [Turn.result]
  split
  · exact turn.runner.runOne_remembers _ _
  · exact turn.runner.shutDown_remembers _

/-- What a runner knows in the end it knows in every turn. -/
theorem remembers_of_mem_turns {runner : Runner σ} {world : World σ} {requests : List Request}
    {turn : Turn σ} (mem : turn ∈ runner.turns world requests) : runner.Remembers turn.runner := by
  induction requests generalizing runner world with
  | nil => cases mem
  | cons request requests ih =>
      rcases List.mem_cons.mp mem with rfl | mem
      · exact .refl runner
      · exact (remembers_result ⟨runner, world, request⟩).trans (ih mem)

end Runner

/-- A finding with a known token is passed over. -/
theorem Visit.isSilent_of_known {visit : Visit σ} {classified : Classified}
    (found : visit.found = some classified) (dedup : visit.runner.classifier.dedup = true)
    (many : 1 < visit.runner.budget.limit)
    (known : classified.token ∈ visit.runner.budget.known.tokens) : visit.IsSilent := by
  have passed : visit.examined.1.offer classified.token = (.suppress, visit.examined.1) :=
    Runner.offer_of_known (show visit.examined.1.classifier.dedup = true from dedup) many known
  exact (isSilent_of_result (result_of_suppressed found passed) rfl rfl rfl rfl).1

/-- Ignored entries for a token count as one finding from the start, whatever else is ignored. -/
theorem RunnerSpec.distinctFindings_of_ignored {spec : RunnerSpec σ} {tokens : List UInt64}
    (valid : spec.settings.ignoredTokens = .ok tokens) {token : UInt64} (mem : token ∈ tokens) :
    ∃ others, Settings.tokensOf (spec.settings.ignore.filter fun entry =>
        Settings.token? entry ≠ some token) = .ok others ∧
      (spec.runner tokens).distinctFindings = others.toFinset.card + 1 := by
  refine ⟨_, Settings.tokensOf_filter valid token, ?_⟩
  have left : (tokens.filter fun other => other ≠ token).toFinset =
      tokens.toFinset.erase token := by
    ext other
    simp [and_comm]
  rw [left, Finset.card_erase_add_one (List.mem_toFinset.mpr mem)]
  exact TokenSet.size_ofList tokens

/-- What the harness prints for a token is, in each spelling, an entry for that very token, and
as valid as no entry. Where a run goes on past findings and such an entry is listed, the token
counts as one finding from the start and in every turn, and no input whose finding has it is
ever reported: its call writes nothing, asks the engine for nothing and makes no reproducer. -/
theorem printed_token_ignored {token : UInt64} {printed entry : String}
    (prints : (Emission.token token).out = "DEDUP_TOKEN: " ++ printed ++ "\n")
    (spells : Settings.Spells entry printed) :
    Settings.token? entry = some token ∧
      (∀ (settings : Settings) before after, settings.ignore = before ++ entry :: after →
        settings.validate = { settings with ignore := before ++ after }.validate ∧
          ∀ tokens, { settings with ignore := before ++ after }.ignoredTokens = .ok tokens →
            ∃ front back, front.length = before.length ∧ tokens = front ++ back ∧
              settings.ignoredTokens = .ok (front ++ token :: back)) ∧
      ∀ (spec : RunnerSpec σ) (start world : World σ) (runner : Runner σ),
        spec.build start = (.ok runner, world) → 1 < spec.settings.keepGoing →
        entry ∈ spec.settings.ignore →
          (∃ others, Settings.tokensOf (spec.settings.ignore.filter fun entry =>
              Settings.token? entry ≠ some token) = .ok others ∧
            runner.distinctFindings = others.toFinset.card + 1) ∧
          ∀ requests, ∀ turn ∈ runner.turns world requests,
            turn.runner.budget.known.tokens.count token = 1 ∧
            ∀ data classified, turn.request = .input data →
              let visit : Visit σ := ⟨turn.runner, turn.world, data⟩
              visit.found = some classified → classified.token = token →
                visit.reported = false ∧ visit.IsSilent := by
  obtain rfl : Text.hexWord token = printed := by
    have texts := congrArg String.toList prints
    change ("DEDUP_TOKEN: " ++ Text.hexWord token ++ "\n").toList = _ at texts
    simp only [String.toList_append] at texts
    exact String.toList_inj.mp (List.append_cancel_left (List.append_cancel_right texts))
  have parsed := Settings.token?_of_spells spells
  refine ⟨parsed, ?_, ?_⟩
  · intro settings before after listed
    refine ⟨Settings.validate_insert parsed listed, ?_⟩
    intro tokens valid
    rw [Settings.ignoredTokens, listed]
    exact Settings.tokensOf_insert parsed valid
  · intro spec start world runner built many listed
    obtain ⟨positive, tokens, valid, rfl, _⟩ := RunnerSpec.build_spec built
    have mem := Settings.mem_of_tokensOf valid listed parsed
    refine ⟨RunnerSpec.distinctFindings_of_ignored valid mem, ?_⟩
    intro requests turn among
    have remembers := Runner.remembers_of_mem_turns among
    have drives := spec.drives_runner positive tokens
    have known : token ∈ turn.runner.budget.known.tokens :=
      remembers.known token (TokenSet.mem_ofList.mpr mem)
    refine ⟨List.count_eq_one_of_mem turn.runner.budget.known.distinct known, ?_⟩
    rintro data classified - visit found rfl
    have silent : visit.IsSilent := Visit.isSilent_of_known found
      (remembers.classifier.symm ▸ spec.classifier_dedup many)
      (remembers.limit.symm ▸ drives.limit.symm ▸ many) known
    exact ⟨Visit.reported_of_written_nil silent.written, silent⟩

/-- The finding at the first of two sites is ignored, in two spellings of its token. -/
def oneIgnored : RunnerSpec Unit :=
  { twoSites with
    settings := { twoSites.settings with ignore := ["504a791c3433b829", "\t0X504A791C3433B829 "] } }

theorem oneIgnored_silent :
    (Emission.token 0x504a791c3433b829).out = "DEDUP_TOKEN: 504a791c3433b829\n" ∧
      Settings.Spells "\t0X504A791C3433B829 " "504a791c3433b829" ∧
      ∃ runner world, oneIgnored.build (.fresh () .empty) = (.ok runner, world) ∧
        runner.distinctFindings = 1 ∧
        ∃ classified, (Visit.mk runner world [1]).found = some classified ∧
          classified.token = 0x504a791c3433b829 ∧ (Visit.mk runner world [1]).IsSilent := by
  have prints : (Emission.token 0x504a791c3433b829).out = "DEDUP_TOKEN: 504a791c3433b829\n" := by
    decide +kernel
  have spells : Settings.Spells "\t0X504A791C3433B829 " "504a791c3433b829" :=
    ⟨['\t'], ['0', 'X'], "504A791C3433B829".toList, [' '], by decide +kernel,
      List.forall_mem_singleton.mpr rfl, List.forall_mem_singleton.mpr rfl, by decide,
      by rw [Text.Recased]; decide +kernel⟩
  have built : oneIgnored.build (.fresh () .empty) =
      (.ok (oneIgnored.runner [0x504a791c3433b829, 0x504a791c3433b829]),
        (oneIgnored.build (.fresh () .empty)).2) := by rfl
  obtain ⟨_, _, runs⟩ := printed_token_ignored prints spells
  obtain ⟨⟨others, parsed, counted⟩, turns⟩ := runs oneIgnored _ _ _ built (by decide)
    (by decide +kernel)
  have nothing : others = [] := by
    have left : Settings.tokensOf (oneIgnored.settings.ignore.filter fun entry =>
        Settings.token? entry ≠ some 0x504a791c3433b829) = .ok [] := by rfl
    exact Except.ok.inj (parsed.symm.trans left)
  have told : ((Visit.mk (oneIgnored.runner [0x504a791c3433b829, 0x504a791c3433b829])
      (oneIgnored.build (.fresh () .empty)).2 [1]).found.map Classified.token) =
        some 0x504a791c3433b829 := by decide +kernel
  obtain ⟨classified, found, same⟩ := Option.map_eq_some_iff.mp told
  obtain ⟨_, silent⟩ := turns [.input [1]] _ List.mem_cons_self
  refine ⟨prints, spells, _, _, built, ?_, classified, found, same, ?_⟩
  · rw [counted, nothing]
    rfl
  · exact (silent [1] classified rfl found same).2

end FuzzHarness
