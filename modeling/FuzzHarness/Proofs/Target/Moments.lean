import FuzzHarness.Proofs.Target.Conversation
import Mathlib.Data.List.Induction

/-!
# The moments of a run

What the harness keeps of the last panic on a thread is decided by a few moments of a run:
panics that pass the hook, unwinds that begin without it, and nested capture scopes that are
entered or catch a panic. The last panic stays in sight until a nested scope is entered or
catches one. Nothing else hides it, not even that the code itself catches it; and what
happens on another thread has no part in it.
-/

namespace FuzzHarness

/-- Something on a thread that decides what the harness keeps of its last panic. -/
inductive Moment where
  /-- A panic passed the hook, which found it at this site on the stack. -/
  | raised (site : Site) (payload : Payload)
  /-- An unwind began without passing the hook. -/
  | resumed (payload : Payload)
  /-- A nested capture scope was entered. -/
  | entered
  /-- A nested capture scope caught a panic. -/
  | caught
  deriving DecidableEq, Repr

namespace Moment

/-- The payload of the unwind that began. -/
def payload? : Moment → Option Payload
  | .raised _ payload => some payload
  | .resumed payload => some payload
  | _ => none

/-- The panic in sight after one more moment. -/
def look (sight : Option Site) : Moment → Option Site
  | .raised site _ => some site
  | .resumed _ => sight
  | .entered => none
  | .caught => none

/-- The panic in sight after some moments, if this one was in sight before. -/
def sightFrom (sight : Option Site) (moments : List Moment) : Option Site :=
  moments.foldl look sight

/-- After these moments of a scope, the last panic was raised here and is still in sight: since
then no nested scope was entered and none caught a panic. -/
inductive InSight : List Moment → Site → Prop where
  | raised (earlier : List Moment) (site : Site) (payload : Payload) :
      InSight (earlier ++ [.raised site payload]) site
  | resumed {earlier : List Moment} {site : Site} (before : InSight earlier site)
      (payload : Payload) : InSight (earlier ++ [.resumed payload]) site

theorem sightFrom_append (sight : Option Site) (first second : List Moment) :
    sightFrom sight (first ++ second) = sightFrom (sightFrom sight first) second :=
  List.foldl_append

theorem sightFrom_concat (sight : Option Site) (moments : List Moment) (moment : Moment) :
    sightFrom sight (moments ++ [moment]) = look (sightFrom sight moments) moment :=
  sightFrom_append sight moments [moment]

theorem sightFrom_none_eq_some_iff {moments : List Moment} {site : Site} :
    sightFrom none moments = some site ↔ InSight moments site := by
  constructor
  · intro seen
    induction moments using List.reverseRecOn with
    | nil => cases seen
    | append_singleton earlier moment ih =>
        rw [sightFrom_concat] at seen
        cases moment with
        | raised place payload =>
            obtain rfl := Option.some.inj seen
            exact .raised earlier place payload
        | resumed payload => exact .resumed (ih seen) payload
        | entered => cases seen
        | caught => cases seen
  · intro inSight
    induction inSight with
    | raised earlier site payload => exact sightFrom_concat _ _ _
    | resumed _ payload ih => exact (sightFrom_concat _ _ _).trans ih

/-- What a nested scope caught, and all panics before it, are out of sight. -/
theorem sightFrom_caught (sight : Option Site) (before after : List Moment) :
    sightFrom sight (before ++ .caught :: after) = sightFrom none after :=
  sightFrom_append sight before (.caught :: after)

end Moment

/-- A panic in target code is put on record. -/
theorem Scope.hooked_of_inTarget {scope : Scope} (inTarget : scope.inTarget = true) (site : Site) :
    scope.hooked site = ⟨true, some site⟩ := by
  rw [hooked, if_pos inTarget, inTarget]

namespace Code

variable {σ P ρ : Type} [Provider P]

/-- The moments of a run on its own thread, in order. -/
def moments : Code σ ρ → Session σ P → List Moment
  | .finish _, _ => []
  | .load next, session => (next session.host.memory).moments session
  | .store memory next, session =>
    next.moments { session with host := { session.host with memory := memory } }
  | .draw call next, session =>
    match session.provider with
    | none => (next none).moments session
    | some provider =>
      match Provider.call call provider with
      | (.ok value, provider) =>
        (next (some value)).moments { session with provider := some provider }
      | (.error fault, _) =>
        [.raised (fault.site.upon session.host.stack) (.string fault.message)]
  | .note entry next, session =>
    next.moments { session with host := session.host.note entry }
  | .mark id next, session =>
    next.moments { session with
      host := { session.host with coverage := session.host.coverage.mark id } }
  | .report channel finding next, session =>
    next.moments { session with
      host := { session.host with reports := session.host.reports.put finding channel } }
  | .stack next, session => (next session.host.stack).moments session
  | .panic site payload, session => [.raised (site.upon session.host.stack) payload]
  | .resume payload, _ => [.resumed payload]
  | .guard body next, session =>
    let (exit, after) := body.run session
    body.moments session ++ (next exit.value?).moments after
  | .capture body next, session =>
    let (result, after) := body.caught session
    .entered :: (body.moments (session.withScope .entered) ++
      match result with
      | .ok _ => (next result).moments after
      | .error _ => .caught :: (next result).moments after)
  | .thread body next, session =>
    let (exit, inner) := body.run (⟨session.host.onNewThread, none⟩ : Session σ P)
    (next exit.value?).moments ⟨inner.host.onThreadOf session.host, session.provider⟩

theorem moments_draw_of_ok {call : Call} {next : Option Value → Code σ ρ} {provider after : P}
    {value : Value} (called : Provider.call call provider = (.ok value, after)) (host : Host σ) :
    (draw call next).moments ⟨host, some provider⟩ =
      (next (some value)).moments ⟨host, some after⟩ := by
  rw [moments]
  dsimp only
  rw [called]

theorem moments_draw_of_error {call : Call} {next : Option Value → Code σ ρ} {provider after : P}
    {fault : CallFault} (called : Provider.call call provider = (.error fault, after))
    (host : Host σ) :
    (draw call next).moments ⟨host, some provider⟩ =
      [.raised (fault.site.upon host.stack) (.string fault.message)] := by
  rw [moments]
  dsimp only
  rw [called]

theorem caught_of_finished {code : Code σ ρ} {session inner : Session σ P} {value : ρ}
    (ran : code.run (session.withScope .entered) = (.finished value, inner)) :
    code.caught session =
      (.ok value, inner.withScope ⟨session.host.scope.inTarget, inner.host.scope.record⟩) := by
  rw [caught, ran]
  rfl

/-- The finding of a scope is made from what is on record when the unwind leaves it. -/
theorem caught_of_unwound {code : Code σ ρ} {session inner : Session σ P} {payload : Payload}
    (ran : code.run (session.withScope .entered) = (.unwound payload, inner)) :
    code.caught session =
      let record := inner.host.scope.record
      (.error (Session.findingOf record payload),
        { inner with
          host := { inner.host with
            scope := ⟨session.host.scope.inTarget, none⟩
            log := inner.host.log ++ Session.captureEvents record payload } }) := by
  rw [caught, ran]
  rfl

theorem exists_run_of_caught {code : Code σ ρ} {session : Session σ P} {finding : Finding}
    (left : (code.caught session).1 = .error finding) :
    ∃ payload inner, code.run (session.withScope .entered) = (.unwound payload, inner) := by
  rcases ran : code.run (session.withScope .entered) with ⟨exit, inner⟩
  cases exit with
  | finished value =>
      rw [caught_of_finished ran] at left
      cases left
  | unwound payload => exact ⟨payload, inner, rfl⟩

theorem moments_capture_of_ok {body : Code σ ρ} {next : Except Finding ρ → Code σ ρ}
    {session after : Session σ P} {value : ρ} (left : body.caught session = (.ok value, after)) :
    (capture body next).moments session =
      .entered :: (body.moments (session.withScope .entered) ++
        (next (.ok value)).moments after) := by
  rw [moments, left]

theorem moments_capture_of_error {body : Code σ ρ} {next : Except Finding ρ → Code σ ρ}
    {session after : Session σ P} {finding : Finding}
    (left : body.caught session = (.error finding, after)) :
    (capture body next).moments session =
      .entered :: (body.moments (session.withScope .entered) ++
        .caught :: (next (.error finding)).moments after) := by
  rw [moments, left]

/-- A run as target code keeps the last panic in sight on record. -/
theorem run_scope (code : Code σ ρ) (session : Session σ P)
    (inTarget : session.host.scope.inTarget = true) :
    (code.run session).2.host.scope =
      ⟨true, Moment.sightFrom session.host.scope.record (code.moments session)⟩ := by
  induction code generalizing session with
  | finish value =>
      rw [← inTarget]
      rfl
  | load next ih => exact ih _ session inTarget
  | store memory next ih => exact ih _ inTarget
  | note entry next ih => exact ih _ inTarget
  | mark id next ih => exact ih _ inTarget
  | report channel finding next ih => exact ih _ inTarget
  | stack next ih => exact ih _ session inTarget
  | panic site payload => exact Scope.hooked_of_inTarget inTarget _
  | resume payload =>
      change session.host.scope = _
      rw [← inTarget]
      rfl
  | draw call next ih =>
      rcases session with ⟨host, none | provider⟩
      · exact ih none ⟨host, none⟩ inTarget
      · rcases called : Provider.call call provider with ⟨answer, changed⟩
        cases answer with
        | ok value =>
            rw [run_draw_of_ok called, moments_draw_of_ok called]
            exact ih (some value) ⟨host, some changed⟩ inTarget
        | error fault =>
            rw [run_draw_of_error called, moments_draw_of_error called]
            exact Scope.hooked_of_inTarget inTarget _
  | guard body next bodyIh nextIh =>
      have ran := bodyIh session inTarget
      have went := nextIh (body.run session).1.value? (body.run session).2 (by rw [ran])
      rw [ran, ← Moment.sightFrom_append] at went
      exact went
  | capture body next bodyIh nextIh =>
      have kept := congrArg Scope.record (bodyIh (session.withScope .entered) rfl)
      rcases ran : body.run (session.withScope .entered) with ⟨exit, inner⟩
      rw [ran] at kept
      cases exit with
      | finished value =>
          -- What the body left on record stays there, though it was raised in another scope.
          have left := caught_of_finished ran
          have went := nextIh (.ok value) (body.caught session).2 (by rw [left]; exact inTarget)
          rw [left] at went
          rw [run_capture, moments_capture_of_ok left, left]
          refine went.trans (congrArg (Scope.mk true) ?_)
          exact (congrArg (Moment.sightFrom · _) kept).trans (Moment.sightFrom_append _ _ _).symm
      | unwound payload =>
          -- The record is taken for the finding, so only what follows counts.
          have left := caught_of_unwound ran
          have went := nextIh (.error (Session.findingOf inner.host.scope.record payload))
            (body.caught session).2 (by rw [left]; exact inTarget)
          rw [left] at went
          rw [run_capture, moments_capture_of_error left, left]
          refine went.trans (congrArg (Scope.mk true) ?_)
          exact (Moment.sightFrom_caught _ _ _).symm
  | thread body next bodyIh nextIh =>
      -- The other thread has a record of its own.
      exact nextIh _ _ inTarget

/-- The last moment of a run that ends with an unwind is the one in which it began. -/
theorem exists_moments_eq_concat {code : Code σ ρ} {session : Session σ P} {payload : Payload}
    (unwound : (code.run session).1 = .unwound payload) :
    ∃ earlier last, code.moments session = earlier ++ [last] ∧ last.payload? = some payload := by
  -- Whatever catches an unwind goes on behind it, so it is the continuation that unwinds.
  induction code generalizing session with
  | finish value => cases unwound
  | load next ih => exact ih _ unwound
  | store memory next ih => exact ih unwound
  | note entry next ih => exact ih unwound
  | mark id next ih => exact ih unwound
  | report channel finding next ih => exact ih unwound
  | stack next ih => exact ih _ unwound
  | panic site thrown =>
      cases unwound
      exact ⟨[], .raised (site.upon session.host.stack) payload, rfl, rfl⟩
  | resume thrown =>
      cases unwound
      exact ⟨[], .resumed payload, rfl, rfl⟩
  | draw call next ih =>
      rcases session with ⟨host, none | provider⟩
      · exact ih none unwound
      · rcases called : Provider.call call provider with ⟨answer, changed⟩
        cases answer with
        | ok value =>
            rw [run_draw_of_ok called] at unwound
            rw [moments_draw_of_ok called]
            exact ih (some value) unwound
        | error fault =>
            rw [run_draw_of_error called] at unwound
            rw [moments_draw_of_error called]
            cases unwound
            exact ⟨[], _, rfl, rfl⟩
  | guard body next bodyIh nextIh =>
      obtain ⟨earlier, last, same, began⟩ := nextIh _ unwound
      refine ⟨body.moments session ++ earlier, last, ?_, began⟩
      rw [List.append_assoc, ← same]
      rfl
  | capture body next bodyIh nextIh =>
      rw [run_capture] at unwound
      obtain ⟨earlier, last, same, began⟩ := nextIh _ unwound
      rcases left : body.caught session with ⟨result, after⟩
      rw [left] at same
      cases result with
      | ok value =>
          rw [moments_capture_of_ok left, same]
          exact ⟨.entered :: (body.moments (session.withScope .entered) ++ earlier), last, by simp,
            began⟩
      | error finding =>
          rw [moments_capture_of_error left, same]
          exact ⟨.entered :: (body.moments (session.withScope .entered) ++ .caught :: earlier),
            last, by simp, began⟩
  | thread body next bodyIh nextIh => exact nextIh _ unwound

/-- Run in a capture scope, the code leaves it by the unwind that begins in the last of these
moments. -/
def UnwindsAfter (code : Code σ ρ) (session : Session σ P) (earlier : List Moment)
    (last : Moment) : Prop :=
  (∃ payload, (code.run (session.withScope .entered)).1 = .unwound payload) ∧
    code.moments (session.withScope .entered) = earlier ++ [last]

/-- Whatever a capture scope catches began in a last moment. -/
theorem exists_unwindsAfter {code : Code σ ρ} {session : Session σ P} {finding : Finding}
    (left : (code.caught session).1 = .error finding) :
    ∃ earlier last, code.UnwindsAfter session earlier last := by
  obtain ⟨payload, inner, ran⟩ := exists_run_of_caught left
  have unwound := congrArg Prod.fst ran
  obtain ⟨earlier, last, same, _⟩ := exists_moments_eq_concat unwound
  exact ⟨earlier, last, ⟨payload, unwound⟩, same⟩

/-- The finding that a capture scope makes of an unwind. -/
theorem caught_of_unwindsAfter {code : Code σ ρ} {session : Session σ P} {earlier : List Moment}
    {last : Moment} (leaves : code.UnwindsAfter session earlier last) :
    ∃ payload, last.payload? = some payload ∧
      (code.caught session).1 =
        .error (Session.findingOf (last.look (Moment.sightFrom none earlier)) payload) := by
  obtain ⟨⟨payload, unwound⟩, moments⟩ := leaves
  have kept := congrArg Scope.record (code.run_scope (session.withScope .entered) rfl)
  obtain ⟨front, final, same, began⟩ := exists_moments_eq_concat unwound
  obtain ⟨_, last⟩ := List.append_inj' (moments.symm.trans same) rfl
  obtain rfl := List.singleton_inj.mp last
  rcases ran : code.run (session.withScope .entered) with ⟨exit, inner⟩
  rw [ran] at unwound kept
  obtain rfl : exit = .unwound payload := unwound
  refine ⟨payload, began, ?_⟩
  rw [caught_of_unwound ran, ← Moment.sightFrom_concat, ← moments]
  exact congrArg (fun record => Except.error (Session.findingOf record payload)) kept

/-- A panic that leaves a scope is described by its own site. -/
theorem caught_of_raised {code : Code σ ρ} {session : Session σ P} {earlier : List Moment}
    {site : Site} {payload : Payload}
    (leaves : code.UnwindsAfter session earlier (.raised site payload)) :
    (code.caught session).1 = .error (Session.findingOf (some site) payload) := by
  obtain ⟨_, ⟨⟩, made⟩ := caught_of_unwindsAfter leaves
  exact made

/-- An unwind that bypassed the hook is described by the panic in sight. -/
theorem caught_of_resumed {code : Code σ ρ} {session : Session σ P} {earlier : List Moment}
    {payload : Payload} (leaves : code.UnwindsAfter session earlier (.resumed payload)) :
    (code.caught session).1 =
      .error (Session.findingOf (Moment.sightFrom none earlier) payload) := by
  obtain ⟨_, ⟨⟩, made⟩ := caught_of_unwindsAfter leaves
  exact made

end Code

end FuzzHarness
