import FuzzHarness.Proofs.Target.Conversation
import FuzzHarness.Target.Script
import Mathlib.Data.List.Forall2

/-!
# The same code on another stack

A finding shows the stack beneath the code that made it. Code on two stacks takes the same
course as long as it does not look at what stands beneath: where a finding of one run ends in
the one stack, the finding of the other run ends in the other, and nothing else is different.
A relation between codes says so, with one clause for each action; that it carries over to runs
is proved once, by induction on the relation.
-/

namespace FuzzHarness

/-- The same link on another stack. Its frames are the same, or they ended in the one stack and
end in the other. -/
structure Link.Moved (stack other : List Frame) (link moved : Link) : Prop where
  kind : moved.kind = link.kind
  message : moved.message = link.message
  location : moved.location = link.location
  unhooked : moved.unhooked = link.unhooked
  frames : moved.frames = link.frames ∨
    ∃ own, link.frames = own ++ stack ∧ moved.frames = own ++ other

/-- The same finding on another stack. -/
def Finding.Moved (stack other : List Frame) (finding moved : Finding) : Prop :=
  List.Forall₂ (Link.Moved stack other) finding.chain moved.chain

/-- The same payload on another stack. -/
inductive Payload.Moved (stack other : List Frame) : Payload → Payload → Prop where
  | same (payload : Payload) : Moved stack other payload payload
  | finding {finding moved : Finding} (moves : finding.Moved stack other moved) :
      Moved stack other (.finding finding) (.finding moved)

/-- The same record on another stack. -/
inductive Site.Recorded (stack other : List Frame) : Option Site → Option Site → Prop where
  | none : Recorded stack other none none
  | some (site : Site) :
      Recorded stack other (some (site.upon stack)) (some (site.upon other))

/-- The same end of code on another stack. -/
inductive Exit.Moved {ρ : Type} (stack other : List Frame) : Exit ρ → Exit ρ → Prop where
  | finished (value : ρ) : Moved stack other (.finished value) (.finished value)
  | unwound {payload moved : Payload} (moves : payload.Moved stack other moved) :
      Moved stack other (.unwound payload) (.unwound moved)

/-- The same result of a capture scope on another stack. -/
inductive Finding.ResultMoved {ρ : Type} (stack other : List Frame) :
    Except Finding ρ → Except Finding ρ → Prop where
  | ok (value : ρ) : ResultMoved stack other (.ok value) (.ok value)
  | error {finding moved : Finding} (moves : finding.Moved stack other moved) :
      ResultMoved stack other (.error finding) (.error moved)

/-- Surroundings on one stack and surroundings on the other between which code on its stack
cannot tell. Notes, reports, coverage and the log cannot be read. -/
structure Host.Alike {σ : Type} (stack other : List Frame) (host there : Host σ) : Prop where
  memory : there.memory = host.memory
  inTarget : there.scope.inTarget = host.scope.inTarget
  record : Site.Recorded stack other host.scope.record there.scope.record
  here : host.stack = stack
  there : there.stack = other

/-- Codes that do the same on two stacks. What they note and report may differ, for it cannot be
read back, and findings may differ in what stands beneath. A thread has a stack of its own. -/
inductive Code.Alike {σ ρ : Type} : List Frame → List Frame → Code σ ρ → Code σ ρ → Prop where
  | finish {stack other : List Frame} (value : ρ) :
      Alike stack other (.finish value) (.finish value)
  | load {stack other : List Frame} {next next' : σ → Code σ ρ}
      (follows : ∀ memory, Alike stack other (next memory) (next' memory)) :
      Alike stack other (.load next) (.load next')
  | store {stack other : List Frame} (memory : σ) {next next' : Code σ ρ}
      (follows : Alike stack other next next') :
      Alike stack other (.store memory next) (.store memory next')
  | draw {stack other : List Frame} (call : Call) {next next' : Option Value → Code σ ρ}
      (follows : ∀ value, Alike stack other (next value) (next' value)) :
      Alike stack other (.draw call next) (.draw call next')
  | note {stack other : List Frame} (entry entry' : Note) {next next' : Code σ ρ}
      (follows : Alike stack other next next') :
      Alike stack other (.note entry next) (.note entry' next')
  | mark {stack other : List Frame} (id : UInt32) {next next' : Code σ ρ}
      (follows : Alike stack other next next') :
      Alike stack other (.mark id next) (.mark id next')
  | report {stack other : List Frame} (channel : Channel) (finding finding' : Finding)
      {next next' : Code σ ρ} (follows : Alike stack other next next') :
      Alike stack other (.report channel finding next) (.report channel finding' next')
  | stack {stack other : List Frame} {next next' : List Frame → Code σ ρ}
      (follows : Alike stack other (next stack) (next' other)) :
      Alike stack other (.stack next) (.stack next')
  | panic {stack other : List Frame} (site : Site) {payload payload' : Payload}
      (moves : payload.Moved stack other payload') :
      Alike stack other (.panic site payload) (.panic site payload')
  | resume {stack other : List Frame} {payload payload' : Payload}
      (moves : payload.Moved stack other payload') :
      Alike stack other (.resume payload) (.resume payload')
  | guard {stack other : List Frame} {body body' : Code σ ρ}
      {next next' : Option ρ → Code σ ρ} (bodies : Alike stack other body body')
      (follows : ∀ value, Alike stack other (next value) (next' value)) :
      Alike stack other (.guard body next) (.guard body' next')
  | capture {stack other : List Frame} {body body' : Code σ ρ}
      {next next' : Except Finding ρ → Code σ ρ} (bodies : Alike stack other body body')
      (follows : ∀ result result', Finding.ResultMoved stack other result result' →
        Alike stack other (next result) (next' result')) :
      Alike stack other (.capture body next) (.capture body' next')
  | thread {stack other : List Frame} {body body' : Code σ ρ}
      {next next' : Option ρ → Code σ ρ} (bodies : Alike [] [] body body')
      (follows : ∀ value, Alike stack other (next value) (next' value)) :
      Alike stack other (.thread body next) (.thread body' next')

/-- The code never looks at what stands beneath it. -/
def Code.IsBlind {σ ρ : Type} (code : Code σ ρ) : Prop :=
  ∀ stack other : List Frame, code.Alike stack other code

variable {stack other : List Frame}

theorem Link.Moved.refl (link : Link) : link.Moved stack other link :=
  ⟨rfl, rfl, rfl, rfl, .inl rfl⟩

theorem Finding.Moved.refl (finding : Finding) : finding.Moved stack other finding :=
  List.forall₂_same.mpr fun link _ => .refl link

/-- A finding that shows the stack that it was made on. -/
theorem Finding.moved_capturedAt_upon (site : Site) (kind message : String) :
    (capturedAt (site.upon stack) kind message).Moved stack other
      (capturedAt (site.upon other) kind message) :=
  .cons ⟨rfl, rfl, rfl, rfl, .inr ⟨site.frames, rfl, rfl⟩⟩ .nil

namespace Payload.Moved

variable {payload moved : Payload} {record record' : Option Site}

/-- A finding that is made of a payload and the record shows the stack as these do. -/
theorem findingOf (moves : payload.Moved stack other moved)
    (recorded : Site.Recorded stack other record record') :
    (Session.findingOf record payload).Moved stack other (Session.findingOf record' moved) := by
  cases moves with
  | finding moves => exact moves
  | same =>
      cases recorded with
      | none => exact .refl _
      | some site =>
          cases payload with
          | finding finding => exact .refl finding
          | str text => exact Finding.moved_capturedAt_upon site _ _
          | string text => exact Finding.moved_capturedAt_upon site _ _
          | other => exact Finding.moved_capturedAt_upon site _ _

end Payload.Moved

theorem Exit.Moved.value? {ρ : Type} {exit moved : Exit ρ} (moves : exit.Moved stack other moved) :
    moved.value? = exit.value? := by
  cases moves <;> rfl

namespace Host.Alike

variable {σ ρ P : Type} {host there : Host σ}

theorem enter (alike : host.Alike stack other there) :
    host.enter.Alike stack other there.enter :=
  ⟨alike.memory, rfl, .none, alike.here, alike.there⟩

/-- A new thread has a stack of its own. -/
theorem onNewThread (alike : host.Alike stack other there) :
    host.onNewThread.Alike [] [] there.onNewThread :=
  ⟨alike.memory, rfl, .none, rfl, rfl⟩

/-- A panic that passes the hook is put on record with the stack beneath it. -/
theorem hooked (alike : host.Alike stack other there) (site : Site) :
    (host.hooked site).Alike stack other (there.hooked site) := by
  obtain ⟨memory, inTarget, record, rfl, rfl⟩ := alike
  cases running : host.scope.inTarget with
  | false =>
      rw [running] at inTarget
      simp only [Host.hooked, Scope.hooked, running, inTarget]
      exact ⟨memory, inTarget.trans running.symm, record, rfl, rfl⟩
  | true =>
      rw [running] at inTarget
      simp only [Host.hooked, Scope.hooked, running, inTarget]
      exact ⟨memory, rfl, .some site, rfl, rfl⟩

/-- Leaving a capture scope makes a finding of the stack that the code runs on. -/
theorem leave (alike : host.Alike stack other there) {exit moved : Exit ρ}
    (moves : exit.Moved stack other moved) (outer : Bool) :
    Finding.ResultMoved stack other (host.leave outer exit).1 (there.leave outer moved).1 ∧
      (host.leave outer exit).2.Alike stack other (there.leave outer moved).2 := by
  cases moves with
  | finished value =>
      exact ⟨.ok value, alike.memory, rfl, alike.record, alike.here, alike.there⟩
  | unwound moves =>
      exact ⟨.error (moves.findingOf alike.record), alike.memory, rfl, .none, alike.here,
        alike.there⟩

end Host.Alike

namespace Code

variable {σ ρ P : Type} [Provider P]

theorem run_entered (code : Code σ ρ) (host : Host σ) (provider : Option P) :
    code.run (Session.withScope .entered ⟨host, provider⟩) = code.run ⟨host.enter, provider⟩ :=
  rfl

/-- Two runs on two stacks ended in the same way, in surroundings between which code cannot
tell. -/
structure EndsAlike (stack other : List Frame) (ended moved : Exit ρ × Session σ P) : Prop where
  exit : ended.1.Moved stack other moved.1
  host : ended.2.host.Alike stack other moved.2.host
  provider : moved.2.provider = ended.2.provider

section

variable {host there : Host σ} {provider : Option P} {body body' : Code σ ρ}

theorem EndsAlike.guard {next next' : Option ρ → Code σ ρ}
    (ended : EndsAlike stack other (body.run ⟨host, provider⟩) (body'.run ⟨there, provider⟩))
    (follows : ∀ value {host there : Host σ}, host.Alike stack other there →
      ∀ provider : Option P,
        EndsAlike stack other ((next value).run ⟨host, provider⟩)
          ((next' value).run ⟨there, provider⟩)) :
    EndsAlike stack other ((guard body next).run ⟨host, provider⟩)
      ((guard body' next').run ⟨there, provider⟩) := by
  rw [Code.run, Code.run]
  generalize body.run ⟨host, provider⟩ = first at ended ⊢
  generalize body'.run ⟨there, provider⟩ = second at ended ⊢
  obtain ⟨exit, between, changed⟩ := first
  obtain ⟨exit', between', changed'⟩ := second
  obtain ⟨ends, left, rfl⟩ := ended
  dsimp only at ends ⊢
  rw [ends.value?]
  exact follows exit.value? left changed'

theorem EndsAlike.capture {next next' : Except Finding ρ → Code σ ρ}
    (same : host.Alike stack other there)
    (ended : EndsAlike stack other (body.run ⟨host.enter, provider⟩)
      (body'.run ⟨there.enter, provider⟩))
    (follows : ∀ result result', Finding.ResultMoved stack other result result' →
      ∀ {host there : Host σ}, host.Alike stack other there → ∀ provider : Option P,
        EndsAlike stack other ((next result).run ⟨host, provider⟩)
          ((next' result').run ⟨there, provider⟩)) :
    EndsAlike stack other ((capture body next).run ⟨host, provider⟩)
      ((capture body' next').run ⟨there, provider⟩) := by
  rw [Code.run, Code.run, run_entered, run_entered]
  generalize body.run ⟨host.enter, provider⟩ = first at ended ⊢
  generalize body'.run ⟨there.enter, provider⟩ = second at ended ⊢
  obtain ⟨exit, between, changed⟩ := first
  obtain ⟨exit', between', changed'⟩ := second
  obtain ⟨ends, left, rfl⟩ := ended
  obtain ⟨results, hosts⟩ := left.leave ends host.scope.inTarget
  rw [Session.leave_eq, Session.leave_eq, same.inTarget]
  exact follows _ _ results hosts changed'

/-- What follows a thread runs on the stack that the thread was started on. -/
theorem EndsAlike.thread {next next' : Option ρ → Code σ ρ}
    (same : host.Alike stack other there)
    (ended : EndsAlike [] [] (body.run (⟨host.onNewThread, none⟩ : Session σ P))
      (body'.run ⟨there.onNewThread, none⟩))
    (follows : ∀ value {host there : Host σ}, host.Alike stack other there →
      ∀ provider : Option P,
        EndsAlike stack other ((next value).run ⟨host, provider⟩)
          ((next' value).run ⟨there, provider⟩)) :
    EndsAlike stack other ((thread body next).run ⟨host, provider⟩)
      ((thread body' next').run ⟨there, provider⟩) := by
  rw [Code.run, Code.run]
  dsimp only
  generalize body.run (⟨host.onNewThread, none⟩ : Session σ P) = first at ended ⊢
  generalize body'.run (⟨there.onNewThread, none⟩ : Session σ P) = second at ended ⊢
  rw [ended.exit.value?]
  refine follows _ ?_ provider
  exact ⟨ended.host.memory, same.inTarget, same.record, same.here, same.there⟩

end

/-- Codes that do the same on two stacks end in the same way. -/
theorem Alike.run {code moved : Code σ ρ} (alike : code.Alike stack other moved)
    {host there : Host σ} (same : host.Alike stack other there) (provider : Option P) :
    EndsAlike stack other (code.run ⟨host, provider⟩) (moved.run ⟨there, provider⟩) := by
  induction alike generalizing host there provider with
  | finish value => exact ⟨.finished value, same, rfl⟩
  | @load _ _ next next' follows ih =>
      change EndsAlike _ _ ((next host.memory).run _) ((next' there.memory).run _)
      rw [same.memory]
      exact ih host.memory same provider
  | store memory follows ih =>
      refine ih ?_ provider
      exact ⟨rfl, same.inTarget, same.record, same.here, same.there⟩
  | note entry entry' follows ih =>
      refine ih ?_ provider
      exact ⟨same.memory, same.inTarget, same.record, same.here, same.there⟩
  | mark id follows ih =>
      refine ih ?_ provider
      exact ⟨same.memory, same.inTarget, same.record, same.here, same.there⟩
  | report channel finding finding' follows ih =>
      refine ih ?_ provider
      exact ⟨same.memory, same.inTarget, same.record, same.here, same.there⟩
  | @stack _ _ next next' follows ih =>
      change EndsAlike _ _ ((next host.stack).run _) ((next' there.stack).run _)
      rw [same.here, same.there]
      exact ih same provider
  | panic site moves => exact ⟨.unwound moves, same.hooked site, rfl⟩
  | resume moves => exact ⟨.unwound moves, same, rfl⟩
  | draw call follows ih =>
      cases provider with
      | none => exact ih none same none
      | some provider =>
          rcases called : Provider.call call provider with ⟨answer, changed⟩
          cases answer with
          | ok value =>
              rw [run_draw_of_ok called, run_draw_of_ok called]
              exact ih (some value) same (some changed)
          | error fault =>
              rw [run_draw_of_error called, run_draw_of_error called]
              exact ⟨.unwound (.same _), same.hooked fault.site, rfl⟩
  | guard bodies follows bodyIh nextIh => exact .guard (bodyIh same provider) nextIh
  | capture bodies follows bodyIh nextIh => exact .capture same (bodyIh same.enter provider) nextIh
  | thread bodies follows bodyIh nextIh => exact .thread same (bodyIh same.onNewThread none) nextIh

/-- Codes that do the same on two stacks leave a capture scope in the same way. -/
theorem Alike.caught {code moved : Code σ ρ} (alike : code.Alike stack other moved)
    {host there : Host σ} (memory : there.memory = host.memory) (here : host.stack = stack)
    (other_eq : there.stack = other) (provider : Option P) :
    Finding.ResultMoved stack other (code.caught ⟨host, provider⟩).1
      (moved.caught ⟨there, provider⟩).1 := by
  have same : host.enter.Alike stack other there.enter := ⟨memory, rfl, .none, here, other_eq⟩
  have ended := alike.run same provider
  rw [Code.caught, Code.caught, run_entered, run_entered]
  generalize code.run ⟨host.enter, provider⟩ = first at ended ⊢
  generalize moved.run ⟨there.enter, provider⟩ = second at ended ⊢
  obtain ⟨exit, between, changed⟩ := first
  obtain ⟨exit', between', changed'⟩ := second
  cases ended.exit with
  | finished value => exact .ok value
  | unwound moves => exact .error (moves.findingOf ended.host.record)

end Code

mutual

/-- A step does the same on every stack if what follows it does. -/
theorem Step.alike_code {ρ : Type} (context : Script.Context) (done left : ρ) (stack other) :
    (step : Step) → {leave leave' next next' : Code ScriptMemory ρ} →
      leave.Alike stack other leave' → next.Alike stack other next' →
        (step.code context done left leave next).Alike stack other
          (step.code context done left leave' next')
  | .draw call, _, _, _, _, _, follows => by
      rw [Step.code, Step.code]
      apply Code.Alike.draw
      intro value
      cases value with
      | none => exact follows
      | some value => exact .load fun memory => .note _ _ (.store _ follows)
  | .choose test yes no, _, _, _, _, leaves, follows => by
      rw [Step.code, Step.code]
      apply Code.Alike.load
      intro memory
      split
      · exact alike_stepsCode context done left stack other yes leaves follows
      · exact alike_stepsCode context done left stack other no leaves follows
  | .leave, _, _, _, _, leaves, _ => by
      rw [Step.code, Step.code]
      exact leaves
  | .note entry, _, _, _, _, _, follows => by
      rw [Step.code, Step.code]
      exact .note _ _ follows
  | .noteArguments, _, _, _, _, _, follows => by
      rw [Step.code, Step.code]
      exact .note _ _ follows
  | .mark id, _, _, _, _, _, follows => by
      rw [Step.code, Step.code]
      exact .mark id follows
  | .panicText site template, _, _, _, _, _, _ => by
      rw [Step.code, Step.code]
      exact .load fun memory => .panic site (.same _)
  | .panic site payload, _, _, _, _, _, _ => by
      rw [Step.code, Step.code]
      exact .panic site (.same payload)
  | .throwNew site kind message, _, _, _, _, _, _ => by
      rw [Step.code, Step.code]
      exact .stack (.panic site (.finding (Finding.moved_capturedAt_upon site kind message)))
  | .resume payload, _, _, _, _, _, _ => by
      rw [Step.code, Step.code]
      exact .resume (.same payload)
  | .report finding, _, _, _, _, _, follows => by
      rw [Step.code, Step.code]
      exact .report _ _ _ follows
  | .reportNew site kind message, _, _, _, _, _, follows => by
      rw [Step.code, Step.code]
      exact .stack (.report _ _ _ follows)
  | .guard body, _, _, _, _, _, follows => by
      rw [Step.code, Step.code]
      exact .guard
        (alike_stepsCode context done left stack other body (.finish left) (.finish done))
        fun value => .note _ _ follows
  | .capture body, _, _, _, _, _, follows => by
      rw [Step.code, Step.code]
      apply Code.Alike.capture
      · exact alike_stepsCode context done left stack other body (.finish left) (.finish done)
      · intro result result' moves
        cases moves with
        | ok value => exact .note _ _ follows
        | error moves => exact .note _ _ follows
  | .thread body, _, _, _, _, _, follows => by
      rw [Step.code, Step.code]
      apply Code.Alike.load
      intro outer
      apply Code.Alike.store
      apply Code.Alike.thread
      · exact alike_stepsCode context.forThread done left [] [] body (.finish left) (.finish done)
      · intro value
        exact .load fun memory => .store _ (.note _ _ follows)

theorem alike_stepsCode {ρ : Type} (context : Script.Context) (done left : ρ) (stack other) :
    (steps : List Step) → {leave leave' next next' : Code ScriptMemory ρ} →
      leave.Alike stack other leave' → next.Alike stack other next' →
        (stepsCode context done left steps leave next).Alike stack other
          (stepsCode context done left steps leave' next')
  | [], _, _, _, _, _, follows => by
      rw [stepsCode, stepsCode]
      exact follows
  | step :: steps, _, _, _, _, leaves, follows => by
      rw [stepsCode, stepsCode]
      exact step.alike_code context done left stack other leaves
        (alike_stepsCode context done left stack other steps leaves follows)

end

/-- Scripted code never looks at what stands beneath it. -/
theorem Script.isBlind_code {ρ : Type} (context : Context) (done left : ρ) (script : Script) :
    (script.code context done left).IsBlind := fun stack other =>
  alike_stepsCode context done left stack other script (.finish left) (.finish done)

end FuzzHarness
