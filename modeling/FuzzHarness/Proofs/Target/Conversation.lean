import FuzzHarness.Proofs.Execution
import FuzzHarness.Proofs.Input.Conversation

/-!
# Target code and its conversation with a provider

All that target code can learn of a provider is how its calls are answered. Hence a run
takes the same course with every provider that answers the calls of its conversation
alike, of whatever type, and a run without a provider does not depend on the type at all.
-/

namespace FuzzHarness

variable {σ ρ : Type}

/-- What leaving a capture scope does to the surroundings. -/
def Host.leave (outer : Bool) (exit : Exit ρ) (host : Host σ) : Except Finding ρ × Host σ :=
  let left := Session.leave outer (exit, (⟨host, none⟩ : Session σ Cursor))
  (left.1, left.2.host)

/-- The provider takes no part in leaving a capture scope. -/
theorem Session.leave_eq {P : Type} (outer : Bool) (exit : Exit ρ) (host : Host σ)
    (provider : Option P) :
    Session.leave outer (exit, ⟨host, provider⟩) =
      ((host.leave outer exit).1, ⟨(host.leave outer exit).2, provider⟩) := by
  cases exit <;> rfl

/-- Surroundings in which a capture scope has just been entered. -/
def Host.enter (host : Host σ) : Host σ :=
  { host with scope := .entered }

/-- Surroundings in which target code has just been entered in this way. -/
def Host.via (way : Way) (host : Host σ) : Host σ :=
  (host.onStack (way.frames ++ host.stack)).enter

namespace Code

/-- Given a provider that holds the conversation, the code ends this way in such
surroundings. -/
def Holds (code : Code σ ρ) (host : Host σ) (conversation : Conversation) (exit : Exit ρ)
    (left : Host σ) : Prop :=
  ∀ (P : Type) [Provider P] (provider after : P), Answers provider conversation after →
    code.run ⟨host, some provider⟩ = (exit, ⟨left, some after⟩)

/-- Without a provider the code ends this way in such surroundings. -/
def HoldsAlone (code : Code σ ρ) (host : Host σ) (exit : Exit ρ) (left : Host σ) : Prop :=
  ∀ (P : Type) [Provider P],
    code.run (⟨host, none⟩ : Session σ P) = (exit, ⟨left, none⟩)

theorem exists_holdsAlone (code : Code σ ρ) (host : Host σ) :
    ∃ exit left, code.HoldsAlone host exit left := by
  induction code generalizing host with
  | finish value => exact ⟨_, _, fun P _ => rfl⟩
  | load next ih => exact ih host.memory host
  | store memory next ih => exact ih { host with memory := memory }
  | draw call next ih => exact ih none host
  | note entry next ih => exact ih (host.note entry)
  | mark id next ih => exact ih { host with coverage := host.coverage.mark id }
  | report channel finding next ih =>
      exact ih { host with reports := host.reports.put finding channel }
  | stack next ih => exact ih host.stack host
  | panic site payload => exact ⟨_, host.hooked site, fun P _ => rfl⟩
  | resume payload => exact ⟨_, _, fun P _ => rfl⟩
  | guard body next bodyIh nextIh =>
      obtain ⟨exit, between, ran⟩ := bodyIh host
      obtain ⟨last, left, went⟩ := nextIh exit.value? between
      refine ⟨last, left, ?_⟩
      intro P _
      rw [run, ran P]
      exact went P
  | capture body next bodyIh nextIh =>
      obtain ⟨exit, between, ran⟩ := bodyIh host.enter
      obtain ⟨last, left, went⟩ := nextIh (between.leave host.scope.inTarget exit).1
        (between.leave host.scope.inTarget exit).2
      refine ⟨last, left, ?_⟩
      intro P _
      have entered : body.run ((⟨host, none⟩ : Session σ P).withScope .entered) = _ := ran P
      rw [run, entered, Session.leave_eq]
      exact went P
  | thread body next bodyIh nextIh =>
      obtain ⟨exit, between, ran⟩ := bodyIh host.onNewThread
      obtain ⟨last, left, went⟩ := nextIh exit.value? (between.onThreadOf host)
      refine ⟨last, left, ?_⟩
      intro P _
      rw [run]
      dsimp only
      rw [ran P]
      exact went P

theorem run_draw_of_ok {P : Type} [Provider P] {call : Call} {next : Option Value → Code σ ρ}
    {provider after : P} {value : Value} (called : Provider.call call provider = (.ok value, after))
    (host : Host σ) :
    (draw call next).run ⟨host, some provider⟩ = (next (some value)).run ⟨host, some after⟩ := by
  rw [run]
  dsimp only
  rw [called]

theorem run_draw_of_error {P : Type} [Provider P] {call : Call}
    {next : Option Value → Code σ ρ} {provider after : P} {fault : CallFault}
    (called : Provider.call call provider = (.error fault, after)) (host : Host σ) :
    (draw call next).run ⟨host, some provider⟩ =
      (.unwound (.string fault.message), ⟨host.hooked fault.site, some after⟩) := by
  rw [run]
  dsimp only
  rw [called]

theorem run_capture {P : Type} [Provider P] (body : Code σ ρ) (next : Except Finding ρ → Code σ ρ)
    (session : Session σ P) :
    (capture body next).run session = (next (body.caught session).1).run (body.caught session).2 :=
  rfl

/-- Code that makes no call holds the empty conversation. -/
theorem holds_nil {code : Code σ ρ} {host left : Host σ} {exit : Exit ρ}
    (ran : ∀ (P : Type) [Provider P] (provider : P),
      code.run ⟨host, some provider⟩ = (exit, ⟨left, some provider⟩)) :
    code.Holds host [] exit left := by
  intro P _ provider after same
  have same : provider = after := same
  rw [ran P provider, same]

namespace Holds

variable {host between left : Host σ} {first second : Conversation} {exit last : Exit ρ}
  {body : Code σ ρ}

theorem draw_ok {call : Call} {value : Value} {next : Option Value → Code σ ρ}
    (holds : (next (some value)).Holds host first exit left) :
    (draw call next).Holds host (⟨call, .ok value⟩ :: first) exit left := by
  rintro P _ provider after ⟨same, rest⟩
  rw [run_draw_of_ok (Prod.ext same rfl)]
  exact holds P _ after rest

theorem draw_error (call : Call) (fault : CallFault) (next : Option Value → Code σ ρ) :
    (draw call next).Holds host [⟨call, .error fault⟩] (.unwound (.string fault.message))
      (host.hooked fault.site) := by
  rintro P _ provider after ⟨same, rfl⟩
  exact run_draw_of_error (Prod.ext same rfl) host

/-- What follows a guarded body goes on with the provider that the body leaves. -/
theorem guard {next : Option ρ → Code σ ρ} (ran : body.Holds host first exit between)
    (went : (next exit.value?).Holds between second last left) :
    (Code.guard body next).Holds host (first ++ second) last left := by
  intro P _ provider after whole
  obtain ⟨middle, front, rest⟩ := answers_append.mp whole
  rw [run, ran P provider middle front]
  exact went P middle after rest

theorem capture {next : Except Finding ρ → Code σ ρ}
    (ran : body.Holds host.enter first exit between)
    (went : (next (between.leave host.scope.inTarget exit).1).Holds
      (between.leave host.scope.inTarget exit).2 second last left) :
    (Code.capture body next).Holds host (first ++ second) last left := by
  intro P _ provider after whole
  obtain ⟨middle, front, rest⟩ := answers_append.mp whole
  have entered : body.run ((⟨host, some provider⟩ : Session σ P).withScope .entered) = _ :=
    ran P provider middle front
  rw [run, entered, Session.leave_eq]
  exact went P middle after rest

/-- A thread has no provider, so the conversation is that of what follows. -/
theorem thread {next : Option ρ → Code σ ρ} (ran : body.HoldsAlone host.onNewThread exit between)
    (went : (next exit.value?).Holds (between.onThreadOf host) second last left) :
    (Code.thread body next).Holds host second last left := by
  intro P _ provider after whole
  rw [run]
  dsimp only
  rw [ran P]
  exact went P provider after whole

end Holds

/-- Every run holds a conversation, and holds it with every provider that answers so. -/
theorem exists_holds {P : Type} [Provider P] (code : Code σ ρ) (host : Host σ) (provider : P) :
    ∃ conversation exit left after, Answers provider conversation after ∧
      code.Holds host conversation exit left := by
  induction code generalizing host provider with
  | finish value => exact ⟨[], _, host, provider, rfl, holds_nil fun _ _ _ => rfl⟩
  | load next ih => exact ih host.memory host provider
  | store memory next ih => exact ih { host with memory := memory } provider
  | note entry next ih => exact ih (host.note entry) provider
  | mark id next ih => exact ih { host with coverage := host.coverage.mark id } provider
  | report channel finding next ih =>
      exact ih { host with reports := host.reports.put finding channel } provider
  | stack next ih => exact ih host.stack host provider
  | panic site payload =>
      exact ⟨[], _, host.hooked site, provider, rfl, holds_nil fun _ _ _ => rfl⟩
  | resume payload => exact ⟨[], _, host, provider, rfl, holds_nil fun _ _ _ => rfl⟩
  | draw call next ih =>
      rcases called : Provider.call call provider with ⟨answer, changed⟩
      cases answer with
      | ok value =>
          obtain ⟨conversation, exit, left, after, answers, holds⟩ := ih (some value) host changed
          refine ⟨⟨call, .ok value⟩ :: conversation, exit, left, after, ?_, holds.draw_ok⟩
          exact ⟨congrArg Prod.fst called, by rw [called]; exact answers⟩
      | error fault =>
          refine ⟨[⟨call, .error fault⟩], .unwound (.string fault.message),
            host.hooked fault.site, changed, ?_, .draw_error call fault next⟩
          exact ⟨congrArg Prod.fst called, congrArg Prod.snd called⟩
  | guard body next bodyIh nextIh =>
      obtain ⟨first, exit, between, changed, answers, ran⟩ := bodyIh host provider
      obtain ⟨second, last, left, after, answers', went⟩ := nextIh exit.value? between changed
      exact ⟨first ++ second, last, left, after, answers_append.mpr ⟨changed, answers, answers'⟩,
        ran.guard went⟩
  | capture body next bodyIh nextIh =>
      obtain ⟨first, exit, between, changed, answers, ran⟩ := bodyIh host.enter provider
      obtain ⟨second, last, left, after, answers', went⟩ :=
        nextIh (between.leave host.scope.inTarget exit).1
          (between.leave host.scope.inTarget exit).2 changed
      exact ⟨first ++ second, last, left, after, answers_append.mpr ⟨changed, answers, answers'⟩,
        ran.capture went⟩
  | thread body next bodyIh nextIh =>
      obtain ⟨exit, between, ran⟩ := body.exists_holdsAlone host.onNewThread
      obtain ⟨conversation, last, left, after, answers, went⟩ :=
        nextIh exit.value? (between.onThreadOf host) provider
      exact ⟨conversation, last, left, after, answers, Holds.thread ran went⟩

end Code

namespace Target

/-- The outcome of a run that left its capture scope, and what it leaves behind where it was
started in such surroundings. -/
def settle (target : Target σ) (outer : Host σ) (exit : Exit Unit) (host : Host σ) :
    Outcome × Host σ :=
  let left := (host.leave outer.scope.inTarget exit).2.onStack outer.stack
  (.resolve
      (match (host.leave outer.scope.inTarget exit).1 with
        | .ok _ => none
        | .error finding => some finding)
      (left.reports.get target.channel),
    { left with reports := left.reports.clear target.channel })

theorem iterate_eq {P : Type} [Provider P] (target : Target σ) {way : Way} {code : Code σ Unit}
    {host left : Host σ} {provider after : Option P} {exit : Exit Unit}
    (ran : code.run ⟨host.via way, provider⟩ = (exit, ⟨left, after⟩)) :
    target.iterate way code ⟨host, provider⟩ =
      ((target.settle host exit left).1, ⟨(target.settle host exit left).2, after⟩) := by
  have entered : code.run (Session.withScope .entered
    (⟨host.onStack (way.frames ++ host.stack), provider⟩ : Session σ P)) = _ := ran
  rw [iterate, Code.invoked]
  dsimp only
  rw [Code.caught, entered, Session.leave_eq]
  rfl

/-- Without a provider, the outcome of a run does not depend on the type of providers. -/
theorem iterate_alone (P Q : Type) [Provider P] [Provider Q] (target : Target σ) (way : Way)
    (code : Code σ Unit) (host : Host σ) :
    (target.iterate way code (⟨host, none⟩ : Session σ P)).1 =
      (target.iterate way code (⟨host, none⟩ : Session σ Q)).1 := by
  obtain ⟨exit, left, ran⟩ := code.exists_holdsAlone (host.via way)
  rw [target.iterate_eq (ran P), target.iterate_eq (ran Q)]

/-- The outcome of a run depends on the answers to its calls, not on who gives them. -/
theorem exists_iterate_holds {P : Type} [Provider P] (target : Target σ) (way : Way)
    (code : Code σ Unit) (host : Host σ) (provider : P) :
    ∃ conversation outcome left after, Answers provider conversation after ∧
      ∀ (Q : Type) [Provider Q] (other other' : Q), Answers other conversation other' →
        target.iterate way code ⟨host, some other⟩ = (outcome, ⟨left, some other'⟩) := by
  obtain ⟨conversation, exit, left, after, answers, holds⟩ :=
    code.exists_holds (host.via way) provider
  refine ⟨conversation, (target.settle host exit left).1, (target.settle host exit left).2,
    after, answers, ?_⟩
  intro Q _ other other' same
  exact target.iterate_eq (holds Q other other' same)

end Target

end FuzzHarness
