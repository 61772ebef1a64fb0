import FuzzHarness.Proofs.Target.Conversation

/-!
# What target code leaves behind

Running code leaves notes, log events, coverage marks and reports in its surroundings, and
it can read none of them back. So its course depends on its variables, on the scope and the
stack that it starts on and on its provider alone, and whatever else is in its surroundings
stays there under what the run adds.
-/

namespace FuzzHarness

/-- Something that a run adds to its surroundings. -/
inductive Deed where
  | noted (entry : Note)
  | logged (event : Event)
  | marked (id : UInt32)
  | reported (channel : Channel) (finding : Finding)
  deriving DecidableEq, Repr

namespace Deed

/-- The note that was left. -/
def note? : Deed → Option Note
  | .noted entry => some entry
  | _ => none

def event? : Deed → Option Event
  | .logged event => some event
  | _ => none

def mark? : Deed → Option UInt32
  | .marked id => some id
  | _ => none

end Deed

namespace Host

variable {σ : Type}

def adding (host : Host σ) : Deed → Host σ
  | .noted entry => host.note entry
  | .logged event => host.logged event
  | .marked id => { host with coverage := host.coverage.mark id }
  | .reported channel finding => { host with reports := host.reports.put finding channel }

def addingAll (host : Host σ) (deeds : List Deed) : Host σ :=
  deeds.foldl adding host

/-- The same surroundings, for code with these variables that runs in this scope on this
stack. -/
def situated (memory : σ) (scope : Scope) (stack : List Frame) (host : Host σ) : Host σ :=
  { host with memory := memory, scope := scope, stack := stack }

theorem addingAll_append (host : Host σ) (first second : List Deed) :
    host.addingAll (first ++ second) = (host.addingAll first).addingAll second :=
  List.foldl_append

theorem addingAll_cons (host : Host σ) (deed : Deed) (deeds : List Deed) :
    host.addingAll (deed :: deeds) = (host.adding deed).addingAll deeds := rfl

/-- A list that grows by what a deed adds to it grows by what all of them add. -/
theorem addingAll_grows {α : Type} {kept : Host σ → List α} {added? : Deed → Option α}
    (grows : ∀ host deed, kept (adding host deed) = kept host ++ (added? deed).toList)
    (host : Host σ) (deeds : List Deed) :
    kept (host.addingAll deeds) = kept host ++ deeds.filterMap added? := by
  induction deeds generalizing host with
  | nil => exact (List.append_nil _).symm
  | cons deed deeds ih =>
      rw [addingAll_cons, ih, grows, List.append_assoc, List.filterMap_cons]
      cases added? deed with
      | none => rfl
      | some one => rfl

theorem addingAll_notes (host : Host σ) (deeds : List Deed) :
    (host.addingAll deeds).notes = host.notes ++ deeds.filterMap Deed.note? := by
  apply addingAll_grows
  intro host deed
  cases deed with
  | noted entry => rfl
  | logged event => exact (List.append_nil _).symm
  | marked id => exact (List.append_nil _).symm
  | reported channel finding => exact (List.append_nil _).symm

theorem addingAll_log (host : Host σ) (deeds : List Deed) :
    (host.addingAll deeds).log = host.log ++ deeds.filterMap Deed.event? := by
  apply addingAll_grows
  intro host deed
  cases deed with
  | logged event => rfl
  | noted entry => exact (List.append_nil _).symm
  | marked id => exact (List.append_nil _).symm
  | reported channel finding => exact (List.append_nil _).symm

theorem mem_covered_addingAll (host : Host σ) (deeds : List Deed) {id : UInt32} :
    id ∈ (host.addingAll deeds).coverage.covered ↔
      id ∈ host.coverage.covered ∨ id ∈ deeds.filterMap Deed.mark? := by
  induction deeds generalizing host with
  | nil => exact ⟨Or.inl, fun mem => mem.resolve_right List.not_mem_nil⟩
  | cons deed deeds ih =>
      rw [addingAll_cons, ih]
      cases deed with
      | noted entry => rfl
      | logged event => rfl
      | reported channel finding => rfl
      | marked other =>
          have marked : id ∈ (host.adding (.marked other)).coverage.covered ↔ _ :=
            CoverageMap.mem_insert
          have listed : (Deed.marked other :: deeds).filterMap Deed.mark? =
            other :: deeds.filterMap Deed.mark? := rfl
          rw [marked, listed, List.mem_cons, or_assoc, or_left_comm]

/-- What a slot holds in the end depends on the reports made and, if there are none, on what
it held before. -/
theorem get_reports_addingAll {host other : Host σ} {channel : Channel}
    (same : host.reports.get channel = other.reports.get channel) (deeds : List Deed) :
    (host.addingAll deeds).reports.get channel = (other.addingAll deeds).reports.get channel := by
  induction deeds generalizing host other with
  | nil => exact same
  | cons deed deeds ih =>
      rw [addingAll_cons, addingAll_cons]
      apply ih
      cases deed with
      | noted entry => exact same
      | logged event => exact same
      | marked id => exact same
      | reported slot finding =>
          cases slot with
          | own =>
              cases channel with
              | own => rfl
              | shared => exact same
          | shared =>
              cases channel with
              | own => exact same
              | shared => rfl

theorem addingAll_onStack (host : Host σ) (stack : List Frame) (deeds : List Deed) :
    (host.onStack stack).addingAll deeds = (host.addingAll deeds).onStack stack := by
  induction deeds generalizing host with
  | nil => rfl
  | cons deed deeds ih =>
      have same : (host.onStack stack).adding deed = (host.adding deed).onStack stack := by
        cases deed <;> rfl
      rw [addingAll_cons, same, ih, addingAll_cons]

/-- Log events are things like any other. -/
theorem addingAll_logged (host : Host σ) (events : List Event) :
    host.addingAll (events.map .logged) = { host with log := host.log ++ events } := by
  induction events generalizing host with
  | nil =>
      rw [List.append_nil]
      rfl
  | cons event events ih =>
      rw [List.map_cons, addingAll_cons, ih]
      change { host with log := (host.log ++ [event]) ++ events } = _
      rw [List.append_assoc]
      rfl

end Host

/-- How a run ends, what it adds to its surroundings, and what it makes of its variables, its
scope and its provider. -/
structure Passage (σ P ρ : Type) where
  exit : Exit ρ
  deeds : List Deed
  memory : σ
  scope : Scope
  provider : Option P

namespace Code

variable {σ ρ P : Type} [Provider P]

/-- The code takes this course wherever it starts with these variables, in this scope, on this
stack and with this provider. -/
def Passes (code : Code σ ρ) (memory : σ) (scope : Scope) (stack : List Frame)
    (provider : Option P) (passage : Passage σ P ρ) : Prop :=
  ∀ host : Host σ, code.run ⟨host.situated memory scope stack, provider⟩ =
    (passage.exit,
      ⟨(host.addingAll passage.deeds).situated passage.memory passage.scope stack,
        passage.provider⟩)

variable {stack : List Frame}

/-- One more thing is added before the rest of the course. -/
theorem Passes.adding {code next : Code σ ρ} {memory : σ} {scope : Scope} {provider : Option P}
    {passage : Passage σ P ρ} (deed : Deed)
    (runs : ∀ host : Host σ, code.run ⟨host.situated memory scope stack, provider⟩ =
      next.run ⟨(host.adding deed).situated memory scope stack, provider⟩)
    (passes : next.Passes memory scope stack provider passage) :
    code.Passes memory scope stack provider { passage with deeds := deed :: passage.deeds } := by
  intro host
  exact (runs host).trans (passes (host.adding deed))

/-- What was added so far stays under what the rest of the course adds. -/
theorem Passes.behind {code next : Code σ ρ} {memory between : σ} {scope outer : Scope}
    {provider left : Option P} {passage : Passage σ P ρ} (deeds : List Deed)
    (runs : ∀ host : Host σ, code.run ⟨host.situated memory scope stack, provider⟩ =
      next.run ⟨(host.addingAll deeds).situated between outer stack, left⟩)
    (passes : next.Passes between outer stack left passage) :
    code.Passes memory scope stack provider { passage with deeds := deeds ++ passage.deeds } := by
  intro host
  rw [runs host, passes (host.addingAll deeds), Host.addingAll_append]

/-- A course in a capture scope that has just been entered decides how the scope is left. -/
theorem Passes.exists_caught {code : Code σ ρ} {memory : σ} {provider : Option P}
    {passage : Passage σ P ρ} (passes : code.Passes memory .entered stack provider passage) :
    ∃ result deeds after record left, ∀ (host : Host σ) (scope : Scope),
      code.caught ⟨host.situated memory scope stack, provider⟩ =
        (result,
          ⟨(host.addingAll deeds).situated after ⟨scope.inTarget, record⟩ stack, left⟩) := by
  have entered (host : Host σ) (scope : Scope) :
      code.run (Session.withScope .entered ⟨host.situated memory scope stack, provider⟩) =
        (passage.exit,
          ⟨(host.addingAll passage.deeds).situated passage.memory passage.scope stack,
            passage.provider⟩) := passes host
  cases ended : passage.exit with
  | finished value =>
      refine ⟨.ok value, passage.deeds, passage.memory, passage.scope.record, passage.provider,
        fun host scope => ?_⟩
      rw [caught, entered, ended]
      rfl
  | unwound payload =>
      refine ⟨.error (Session.findingOf passage.scope.record payload),
        passage.deeds ++ (Session.captureEvents passage.scope.record payload).map .logged,
        passage.memory, none, passage.provider, fun host scope => ?_⟩
      rw [caught, entered, ended, Host.addingAll_append, Host.addingAll_logged]
      rfl

/-- What code does does not depend on what it cannot read. -/
theorem exists_passes (code : Code σ ρ) (memory : σ) (scope : Scope) (stack : List Frame)
    (provider : Option P) :
    ∃ passage : Passage σ P ρ, code.Passes memory scope stack provider passage := by
  induction code generalizing memory scope stack provider with
  | finish value => exact ⟨⟨.finished value, [], memory, scope, provider⟩, fun _ => rfl⟩
  | load next ih => exact ih memory memory scope stack provider
  | store value next ih => exact ih value scope stack provider
  | stack next ih => exact ih stack memory scope stack provider
  | panic site payload =>
      exact ⟨⟨.unwound payload, [], memory, scope.hooked (site.upon stack), provider⟩,
        fun _ => rfl⟩
  | resume payload => exact ⟨⟨.unwound payload, [], memory, scope, provider⟩, fun _ => rfl⟩
  | note entry next ih =>
      obtain ⟨passage, passes⟩ := ih memory scope stack provider
      exact ⟨_, passes.adding (.noted entry) fun _ => rfl⟩
  | mark id next ih =>
      obtain ⟨passage, passes⟩ := ih memory scope stack provider
      exact ⟨_, passes.adding (.marked id) fun _ => rfl⟩
  | report channel finding next ih =>
      obtain ⟨passage, passes⟩ := ih memory scope stack provider
      exact ⟨_, passes.adding (.reported channel finding) fun _ => rfl⟩
  | draw call next ih =>
      cases provider with
      | none => exact ih none memory scope stack none
      | some provider =>
          rcases called : Provider.call call provider with ⟨answer, changed⟩
          cases answer with
          | ok value =>
              obtain ⟨passage, passes⟩ := ih (some value) memory scope stack (some changed)
              exact ⟨passage, fun host => (run_draw_of_ok called _).trans (passes host)⟩
          | error fault =>
              exact ⟨⟨.unwound (.string fault.message), [], memory,
                scope.hooked (fault.site.upon stack), some changed⟩,
                fun host => run_draw_of_error called _⟩
  | guard body next bodyIh nextIh =>
      obtain ⟨first, ran⟩ := bodyIh memory scope stack provider
      obtain ⟨second, went⟩ :=
        nextIh first.exit.value? first.memory first.scope stack first.provider
      refine ⟨_, went.behind first.deeds fun host => ?_⟩
      rw [run, ran host]
  | capture body next bodyIh nextIh =>
      obtain ⟨first, ran⟩ := bodyIh memory .entered stack provider
      obtain ⟨result, deeds, between, record, left, caught⟩ := ran.exists_caught
      obtain ⟨second, went⟩ := nextIh result between ⟨scope.inTarget, record⟩ stack left
      refine ⟨_, went.behind deeds fun host => ?_⟩
      rw [run_capture, caught host scope]
  | thread body next bodyIh nextIh =>
      obtain ⟨first, ran⟩ := bodyIh memory .outside [] (none : Option P)
      obtain ⟨second, went⟩ := nextIh first.exit.value? first.memory scope stack provider
      refine ⟨_, went.behind first.deeds fun host => ?_⟩
      have started : body.run
        (⟨(host.situated memory scope stack).onNewThread, none⟩ : Session σ P) = _ := ran host
      rw [run]
      dsimp only
      rw [started]
      rfl

/-- Code in a capture scope ends in one way wherever it starts with these variables, on this
stack and with this provider. What the harness kept for the thread has no part in it. -/
theorem exists_caught (code : Code σ ρ) (memory : σ) (stack : List Frame) (provider : Option P) :
    ∃ result deeds after record left, ∀ host : Host σ, host.memory = memory →
      host.stack = stack → code.caught ⟨host, provider⟩ =
        (result,
          ⟨(host.addingAll deeds).situated after ⟨host.scope.inTarget, record⟩ stack, left⟩) := by
  obtain ⟨passage, passes⟩ := code.exists_passes memory .entered stack provider
  obtain ⟨result, deeds, after, record, left, caught⟩ := passes.exists_caught
  refine ⟨result, deeds, after, record, left, ?_⟩
  rintro host rfl rfl
  exact caught host host.scope

/-- So does code that is entered as target code. -/
theorem exists_invoked (way : Way) (code : Code σ ρ) (memory : σ) (stack : List Frame)
    (provider : Option P) :
    ∃ result deeds after record left, ∀ host : Host σ, host.memory = memory →
      host.stack = stack → code.invoked way ⟨host, provider⟩ =
        (result,
          ⟨(host.addingAll deeds).situated after ⟨host.scope.inTarget, record⟩ stack, left⟩) := by
  obtain ⟨result, deeds, after, record, left, caught⟩ :=
    code.exists_caught memory (way.frames ++ stack) provider
  refine ⟨result, deeds, after, record, left, ?_⟩
  rintro host rfl rfl
  rw [invoked]
  dsimp only
  rw [caught (host.onStack (way.frames ++ host.stack)) rfl rfl, Host.addingAll_onStack]
  rfl

end Code

end FuzzHarness
