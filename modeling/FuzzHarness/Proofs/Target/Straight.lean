import FuzzHarness.Proofs.Target.Transcript

/-!
# Straight code

Straight code has no variables, captures no stack, catches no panic and reports nothing. It
makes its calls one after the other and stops at the first that panics, so the answers decide
its course. When a call panics, the run ends with this panic, whichever it is.
-/

namespace FuzzHarness

variable {σ ρ : Type}

namespace Code

/-- The code uses no variables, captures no stack, catches no panic and reports nothing. -/
def IsStraight : Code σ ρ → Prop
  | .finish _ => True
  | .panic _ _ => True
  | .resume _ => True
  | .draw _ next => ∀ value, (next value).IsStraight
  | .note _ next => next.IsStraight
  | .mark _ next => next.IsStraight
  | .load _ => False
  | .store _ _ => False
  | .stack _ => False
  | .report _ _ _ => False
  | .guard _ _ => False
  | .capture _ _ => False
  | .thread _ _ => False

/-- Given a provider that answers like this and panics at the next call, the code unwinds
with this panic, whatever it is. -/
def BreaksOff (code : Code σ ρ) (host : Host σ) (front : Conversation) (request : Call)
    (left : Host σ) : Prop :=
  ∀ (P : Type) [Provider P] (provider after : P) (fault : CallFault),
    Answers provider (front ++ [⟨request, .error fault⟩]) after →
      code.run ⟨host, some provider⟩ =
        (.unwound (.string fault.message), ⟨left.hooked fault.site, some after⟩)

/-- What a capture scope has on record of a panic on this stack. -/
def recorded (record : Option Site) (stack : List Frame) : Scope :=
  ⟨true, record.map fun site => site.upon stack⟩

/-- The course that straight code takes, in any surroundings in which a capture scope has
just been entered: either all calls of the conversation are answered, or the last one
panics. -/
inductive Course (code : Code σ ρ) : Conversation → Prop where
  | completes {conversation : Conversation} (exit : Exit ρ) (record : Option Site)
      (answered : ∀ exchange ∈ conversation, exchange.IsAnswered)
      (runs : ∀ host : Host σ, host.scope = .entered → ∃ left : Host σ,
        left.scope = recorded record host.stack ∧ left.reports = host.reports ∧
          code.Holds host conversation exit left) :
      Course code conversation
  | breaksOff (front : Conversation) (request : Call) (fault : CallFault)
      (answered : ∀ exchange ∈ front, exchange.IsAnswered)
      (runs : ∀ host : Host σ, host.scope = .entered → ∃ left : Host σ,
        left.scope = .entered ∧ left.stack = host.stack ∧ left.reports = host.reports ∧
          code.BreaksOff host front request left) :
      Course code (front ++ [⟨request, .error fault⟩])

namespace Course

variable {conversation : Conversation}

/-- A step that changes neither the scope nor the stack nor the reports. -/
theorem step {code next : Code σ ρ} (change : Host σ → Host σ)
    (scope : ∀ host, (change host).scope = host.scope)
    (stack : ∀ host, (change host).stack = host.stack)
    (reports : ∀ host, (change host).reports = host.reports)
    (runs : ∀ (P : Type) [Provider P] (host : Host σ) (provider : P),
      code.run ⟨host, some provider⟩ = next.run ⟨change host, some provider⟩)
    (course : next.Course conversation) : code.Course conversation := by
  cases course with
  | completes exit record answered course =>
      apply Course.completes exit record answered
      intro host entered
      obtain ⟨left, leftScope, leftReports, holds⟩ :=
        course (change host) ((scope host).trans entered)
      rw [stack] at leftScope
      refine ⟨left, leftScope, leftReports.trans (reports host), ?_⟩
      intro P _ provider after answers
      exact (runs P host provider).trans (holds P provider after answers)
  | breaksOff front request fault answered course =>
      apply Course.breaksOff front request fault answered
      intro host entered
      obtain ⟨left, leftScope, leftStack, leftReports, breaks⟩ :=
        course (change host) ((scope host).trans entered)
      refine ⟨left, leftScope, leftStack.trans (stack host), leftReports.trans (reports host), ?_⟩
      intro P _ provider after fault answers
      exact (runs P host provider).trans (breaks P provider after fault answers)

/-- A call that is answered. -/
theorem draw {request : Call} {next : Option Value → Code σ ρ} {value : Value}
    (course : (next (some value)).Course conversation) :
    (Code.draw request next).Course (⟨request, .ok value⟩ :: conversation) := by
  cases course with
  | completes exit record answered course =>
      apply Course.completes exit record (List.forall_mem_cons.mpr ⟨⟨value, rfl⟩, answered⟩)
      intro host entered
      obtain ⟨left, scope, reports, holds⟩ := course host entered
      exact ⟨left, scope, reports, holds.draw_ok⟩
  | breaksOff front last fault answered course =>
      apply Course.breaksOff (_ :: front) last fault
        (List.forall_mem_cons.mpr ⟨⟨value, rfl⟩, answered⟩)
      intro host entered
      obtain ⟨left, scope, stack, reports, breaks⟩ := course host entered
      refine ⟨left, scope, stack, reports, ?_⟩
      rintro P _ provider after fault ⟨same, rest⟩
      rw [run_draw_of_ok (Prod.ext same rfl)]
      exact breaks P _ after fault rest

/-- Code that ends at once. -/
theorem ends {code : Code σ ρ} {exit : Exit ρ} (record : Option Site) (leaves : Host σ → Host σ)
    (scope : ∀ host, host.scope = .entered → (leaves host).scope = recorded record host.stack)
    (reports : ∀ host, (leaves host).reports = host.reports)
    (runs : ∀ (P : Type) [Provider P] (host : Host σ) (provider : P),
      code.run ⟨host, some provider⟩ = (exit, ⟨leaves host, some provider⟩)) :
    code.Course [] := by
  apply Course.completes exit record
  · intro _ mem
    cases mem
  intro host entered
  refine ⟨leaves host, scope host entered, reports host, ?_⟩
  apply holds_nil
  intro P _ provider
  exact runs P host provider

/-- A panic is put on record with the stack beneath it. -/
theorem hooked_scope {host : Host σ} (entered : host.scope = .entered) (site : Site) :
    (host.hooked site).scope = recorded (some site) host.stack := by
  change host.scope.hooked _ = _
  rw [entered]
  rfl

end Course

/-- Straight code takes its course with every provider. -/
theorem IsStraight.exists_course {P : Type} [Provider P] {code : Code σ ρ}
    (straight : code.IsStraight) (provider : P) :
    ∃ conversation after, Answers provider conversation after ∧ code.Course conversation := by
  induction code generalizing provider with
  | finish value =>
      exact ⟨[], provider, rfl,
        .ends none id (fun _ entered => entered) (fun _ => rfl) fun _ _ _ _ => rfl⟩
  | panic site payload =>
      exact ⟨[], provider, rfl, .ends (some site) (Host.hooked site)
        (fun _ entered => Course.hooked_scope entered site) (fun _ => rfl) fun _ _ _ _ => rfl⟩
  | resume payload =>
      exact ⟨[], provider, rfl,
        .ends none id (fun _ entered => entered) (fun _ => rfl) fun _ _ _ _ => rfl⟩
  | note entry next ih =>
      obtain ⟨conversation, after, answers, course⟩ := ih straight provider
      exact ⟨conversation, after, answers,
        course.step (Host.note entry) (fun _ => rfl) (fun _ => rfl) (fun _ => rfl)
          fun _ _ _ _ => rfl⟩
  | mark id next ih =>
      obtain ⟨conversation, after, answers, course⟩ := ih straight provider
      exact ⟨conversation, after, answers,
        course.step (fun host => { host with coverage := host.coverage.mark id })
          (fun _ => rfl) (fun _ => rfl) (fun _ => rfl) fun _ _ _ _ => rfl⟩
  | draw request next ih =>
      rcases called : Provider.call request provider with ⟨answer, changed⟩
      cases answer with
      | ok value =>
          obtain ⟨conversation, after, answers, course⟩ := ih (some value) (straight _) changed
          refine ⟨⟨request, .ok value⟩ :: conversation, after, ?_, course.draw⟩
          exact ⟨congrArg Prod.fst called, by rw [called]; exact answers⟩
      | error fault =>
          refine ⟨[⟨request, .error fault⟩], changed, ?_, ?_⟩
          · exact ⟨congrArg Prod.fst called, congrArg Prod.snd called⟩
          · apply Course.breaksOff [] request fault (fun _ mem => absurd mem List.not_mem_nil)
            intro host entered
            refine ⟨host, entered, rfl, rfl, ?_⟩
            rintro Q _ other after fault ⟨same, rfl⟩
            exact run_draw_of_error (Prod.ext same rfl) host
  | load next ih => exact straight.elim
  | store memory next ih => exact straight.elim
  | stack next ih => exact straight.elim
  | report channel finding next ih => exact straight.elim
  | guard body next bodyIh nextIh => exact straight.elim
  | capture body next bodyIh nextIh => exact straight.elim
  | thread body next bodyIh nextIh => exact straight.elim

end Code

/-- What code comes to that reports nothing, given the scope it leaves. -/
def Exit.outcome (exit : Exit ρ) (scope : Scope) : Outcome :=
  match exit with
  | .finished _ => .none
  | .unwound payload => .thrown (Session.findingOf scope.record payload)

/-- Above the boundary it is the same on all stacks. -/
theorem Exit.above_outcome_recorded (exit : Exit ρ) (record : Option Site) (way other : Way)
    (stack there : List Frame) :
    (exit.outcome (Code.recorded record (way.frames ++ stack))).above =
      (exit.outcome (Code.recorded record (other.frames ++ there))).above := by
  have located (site : Site) (message : String) :
      (Finding.capturedAt (site.upon (way.frames ++ stack)) Finding.panicKind message).above =
        (Finding.capturedAt (site.upon (other.frames ++ there)) Finding.panicKind message).above :=
    (Finding.above_capturedAt_upon way stack site _ _).trans
      (Finding.above_capturedAt_upon other there site _ _).symm
  cases exit with
  | finished value => rfl
  | unwound payload =>
      cases record with
      | none => rfl
      | some site =>
          cases payload with
          | finding finding => rfl
          | str text => exact congrArg Outcome.thrown (located site text)
          | string text => exact congrArg Outcome.thrown (located site text)
          | other => exact congrArg Outcome.thrown (located site _)

namespace Target

variable {target : Target σ} {code : Code σ Unit} {conversation : Conversation}

theorem settle_of_quiet {left : Host σ} (quiet : left.reports.get target.channel = none)
    (outer : Host σ) (exit : Exit Unit) :
    (target.settle outer exit left).1 = exit.outcome left.scope := by
  cases exit with
  | finished value =>
      change Outcome.resolve none (left.reports.get target.channel) = _
      rw [quiet]
      rfl
  | unwound payload =>
      change Outcome.resolve (some _) (left.reports.get target.channel) = _
      rw [quiet]
      rfl

/-- A run that breaks off fails with the panic that broke it off. -/
theorem iterate_of_breaksOff {way : Way} {host left : Host σ} {front : Conversation}
    {request : Call} (breaks : code.BreaksOff (host.via way) front request left)
    (scope : left.scope = .entered) (stack : left.stack = way.frames ++ host.stack)
    (quiet : left.reports.get target.channel = none) (fault : CallFault) :
    ∃ last, ∀ (P : Type) [Provider P] (provider after : P),
      Answers provider (front ++ [⟨request, .error fault⟩]) after →
        target.iterate way code ⟨host, some provider⟩ =
          (.thrown (.capturedAt (fault.site.upon (way.frames ++ host.stack)) Finding.panicKind
            fault.message), ⟨last, some after⟩) := by
  refine ⟨(target.settle host (.unwound (.string fault.message)) (left.hooked fault.site)).2, ?_⟩
  intro P _ provider after answers
  have quiet : (left.hooked fault.site).reports.get target.channel = none := quiet
  rw [target.iterate_eq (breaks P provider after fault answers), settle_of_quiet quiet,
    Code.Course.hooked_scope scope, stack]
  rfl

/-- A course decides what the run comes to, on all stacks alike. -/
theorem iterate_of_course (course : code.Course conversation) :
    ∃ (exit : Exit Unit) (record : Option Site), ∀ (way : Way) (host : Host σ),
      host.reports.get target.channel = none → ∃ left, ∀ (P : Type) [Provider P]
        (provider after : P), Answers provider conversation after →
          target.iterate way code ⟨host, some provider⟩ =
            (exit.outcome (Code.recorded record (way.frames ++ host.stack)),
              ⟨left, some after⟩) := by
  cases course with
  | completes exit record _ runs =>
      refine ⟨exit, record, ?_⟩
      intro way host quiet
      obtain ⟨left, scope, reports, holds⟩ := runs (host.via way) rfl
      refine ⟨(target.settle host exit left).2, ?_⟩
      intro P _ provider after answers
      have quiet : left.reports.get target.channel = none := reports ▸ quiet
      rw [target.iterate_eq (holds P provider after answers), settle_of_quiet quiet, scope]
      rfl
  | breaksOff front request fault _ runs =>
      refine ⟨.unwound (.string fault.message), some fault.site, fun way host quiet => ?_⟩
      obtain ⟨left, scope, stack, reports, breaks⟩ := runs (host.via way) rfl
      exact iterate_of_breaksOff breaks scope stack (reports ▸ quiet) fault

/-- The conversation of straight code is the one of its course. -/
theorem course_conversation {P : Type} [Provider P] (straight : code.IsStraight) (way : Way)
    {host : Host σ} (quiet : host.reports.get target.channel = none) (provider : P) :
    code.Course (target.conversation way code host provider) := by
  obtain ⟨conversation, after, answers, course⟩ := straight.exists_course provider
  obtain ⟨exit, record, decides⟩ := @iterate_of_course _ target _ _ course
  obtain ⟨left, same⟩ := decides way host quiet
  rw [conversation_eq answers same]
  exact course

/-- What straight code does with an input is decided by the answers. -/
theorem dependsOnAnswers_of_isStraight (target : Target σ) (straight : code.IsStraight) :
    target.DependsOnAnswers code := by
  intro input way other host there quiet quiet'
  obtain ⟨conversation, after, answers, course⟩ := straight.exists_course (Cursor.ofBytes input)
  obtain ⟨exit, record, decides⟩ := @iterate_of_course _ target _ _ course
  obtain ⟨left, same⟩ := decides way host quiet
  obtain ⟨left', same'⟩ := decides other there quiet'
  rw [conversation_eq answers same, conversation_eq answers same', same _ _ _ answers,
    same' _ _ _ answers]
  exact ⟨exit.above_outcome_recorded record way other host.stack there.stack, rfl⟩

end Target

end FuzzHarness
