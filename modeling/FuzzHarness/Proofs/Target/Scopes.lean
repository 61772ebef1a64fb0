import FuzzHarness.Proofs.Target.Beneath
import FuzzHarness.Proofs.Target.Deeds
import FuzzHarness.Proofs.Target.Resumption

/-!
# Capture scopes know nothing of their context

How code leaves a capture scope is decided in the scope. It starts without a panic on record,
so no earlier panic of its thread and no scope around it has a part in it, and a panic that
leaves it is described by its own site. What a scope catches goes off the record with all that
was raised before it, so the finding of a scope around it is made from what happened after.
-/

namespace FuzzHarness

namespace Code

variable {σ P ρ : Type} [Provider P]

/-- On a thread where nothing has happened, the code leaves a capture scope in the same way
whatever its variables are. -/
def IgnoresVariables (code : Code σ ρ) (provider : Option P) : Prop :=
  ∀ (stack : List Frame) (memory other : σ),
    (code.caught ⟨(Host.fresh memory).onStack stack, provider⟩).1 =
      (code.caught ⟨(Host.fresh other).onStack stack, provider⟩).1

/-- Of the surroundings, only the variables and the stack have a part in how a scope is left. -/
theorem caught_fresh (code : Code σ ρ) (host : Host σ) (provider : Option P) :
    (code.caught ⟨host, provider⟩).1 =
      (code.caught ⟨(Host.fresh host.memory).onStack host.stack, provider⟩).1 := by
  obtain ⟨result, deeds, after, record, left, caught⟩ :=
    code.exists_caught host.memory host.stack provider
  rw [caught host rfl rfl, caught ((Host.fresh host.memory).onStack host.stack) rfl rfl]

theorem IgnoresVariables.caught_eq {code : Code σ ρ} {provider : Option P}
    (steady : code.IgnoresVariables provider) (host : Host σ) (memory : σ) :
    (code.caught ⟨host, provider⟩).1 =
      (code.caught ⟨(Host.fresh memory).onStack host.stack, provider⟩).1 :=
  (code.caught_fresh host provider).trans (steady host.stack host.memory memory)

/-- A scope that caught a panic leaves nothing on record. -/
theorem scope_of_caught {code : Code σ ρ} {session : Session σ P} {finding : Finding}
    (left : (code.caught session).1 = .error finding) :
    (code.caught session).2.host.scope = ⟨session.host.scope.inTarget, none⟩ := by
  obtain ⟨payload, inner, ran⟩ := exists_run_of_caught left
  rw [caught_of_unwound ran]

/-- What a scope caught, and all that was raised before, is not in the finding of a scope
around it. -/
theorem caught_behind_caught {code : Code σ ρ} {session : Session σ P}
    {before after : List Moment} {last : Moment} {payload : Payload}
    (leaves : code.UnwindsAfter session (before ++ .caught :: after) last)
    (began : last.payload? = some payload) :
    (code.caught session).1 =
      .error (Session.findingOf (Moment.sightFrom none (after ++ [last])) payload) := by
  obtain ⟨thrown, began', made⟩ := caught_of_unwindsAfter leaves
  obtain rfl := Option.some.inj (began'.symm.trans began)
  rw [made, Moment.sightFrom_caught, Moment.sightFrom_concat]

/-- Code whose variables make no difference leaves a capture scope in one way: on a fresh
thread, behind any history of its thread, and as a nested scope wherever a run comes to it. On
another stack the result is the same but for the frames beneath the code, if the code does not
look at them. If the unwind that the scope catches began with a panic with a text, the finding
is at the very site of that panic, whatever was raised and caught before. A scope that caught
something leaves nothing on record, and the finding of any scope around it is made from what
happened after. -/
theorem caught_contextFree {code : Code σ ρ} {provider : Option P}
    (steady : code.IgnoresVariables provider) (memory : σ) (host : Host σ) :
    let fresh (stack : List Frame) : Session σ P := ⟨(Host.fresh memory).onStack stack, provider⟩
    (code.caught ⟨host, provider⟩).1 = (code.caught (fresh host.stack)).1 ∧
      (code.IsBlind → ∀ stack, Finding.ResultMoved host.stack stack
        (code.caught ⟨host, provider⟩).1 (code.caught (fresh stack)).1) ∧
      (∀ next, (capture code next).run ⟨host, provider⟩ =
        (next (code.caught (fresh host.stack)).1).run (code.caught ⟨host, provider⟩).2) ∧
      (∀ earlier site payload text, payload = .str text ∨ payload = .string text →
        code.UnwindsAfter ⟨host, provider⟩ earlier (.raised site payload) →
          (code.caught (fresh host.stack)).1 =
            .error (.capturedAt site Finding.panicKind text)) ∧
      (∀ finding, (code.caught (fresh host.stack)).1 = .error finding →
        (∃ earlier last, code.UnwindsAfter ⟨host, provider⟩ earlier last) ∧
          (code.caught ⟨host, provider⟩).2.host.scope = ⟨host.scope.inTarget, none⟩) ∧
      ∀ (outer : Code σ ρ) (session : Session σ P) before after last payload,
        outer.UnwindsAfter session (before ++ .caught :: after) last →
          last.payload? = some payload →
            (outer.caught session).1 =
              .error (Session.findingOf (Moment.sightFrom none (after ++ [last])) payload) := by
  intro fresh
  have same : (code.caught ⟨host, provider⟩).1 = (code.caught (fresh host.stack)).1 :=
    steady.caught_eq host memory
  refine ⟨same, ?_, ?_, ?_, ?_, ?_⟩
  · intro blind stack
    rw [same]
    refine (blind host.stack stack).caught ?_ ?_ ?_ provider <;> rfl
  · intro next
    rw [run_capture, same]
  · intro earlier site payload text isText leaves
    rw [← same, caught_of_raised leaves]
    rcases isText with rfl | rfl
    · rfl
    · rfl
  · intro finding left
    exact ⟨exists_unwindsAfter (same.trans left), scope_of_caught (same.trans left)⟩
  · intro outer session before after last payload leaves began
    exact caught_behind_caught leaves began

end Code

namespace Script

/-- Panics that are handled, caught by a nested scope and lost in a thread, then one that is
let through. -/
def crowded : Code ScriptMemory Unit :=
  code ⟨[], 1, [], .shared⟩ () ()
    [.guard [.panic handledSite (.str "handled")],
      .capture [.panic (.symbolic "nested") (.string "caught")],
      .thread [.panic (.symbolic "joined") (.str "lost")],
      .panic (.symbolic "last") (.string "let through")]

/-- A scope around one that catches a panic; afterwards an unwind bypasses the hook. -/
def around : Code ScriptMemory Unit :=
  code ⟨[], 1, [], .shared⟩ () ()
    [.capture [.panic handledSite (.str "caught")], .resume (.str "bypassing")]

/-- A thread in target code, with a panic on record, changed variables and a stack. -/
def hauntedHost : Host ScriptMemory :=
  { Host.fresh ⟨"7", 3⟩ with scope := ⟨true, some handledSite⟩, stack := [⟨"app::main", none⟩] }

theorem crowded_ignoresVariables : crowded.IgnoresVariables (none : Option Cursor) :=
  fun _ _ _ => rfl

theorem crowded_contextFree :
    crowded.IgnoresVariables (none : Option Cursor) ∧
      (crowded.caught (⟨hauntedHost, none⟩ : Session ScriptMemory Cursor)).1 =
        .error (.capturedAt ((Site.symbolic "last").upon [⟨"app::main", none⟩])
          Finding.panicKind "let through") ∧
      (∃ finding, (crowded.caught idleThread).1 = .error finding ∧
        finding.top.message = "let through" ∧
        finding.top.location = some (.named "last")) ∧
      (around.caught idleThread).1 = .error (.unlocated (.str "bypassing")) := by
  obtain ⟨same, moved, _, ownSite, _, unseen⟩ :=
    Code.caught_contextFree crowded_ignoresVariables .start hauntedHost
  have leaves : crowded.UnwindsAfter (⟨hauntedHost, none⟩ : Session ScriptMemory Cursor)
      [.raised (handledSite.upon [⟨"app::main", none⟩]) (.str "handled"), .entered,
        .raised ((Site.symbolic "nested").upon [⟨"app::main", none⟩]) (.string "caught"), .caught]
      (.raised ((Site.symbolic "last").upon [⟨"app::main", none⟩]) (.string "let through")) :=
    ⟨⟨_, rfl⟩, rfl⟩
  have behind : around.UnwindsAfter idleThread
      ([.entered, .raised handledSite (.str "caught")] ++ .caught :: [])
      (.resumed (.str "bypassing")) := ⟨⟨_, rfl⟩, rfl⟩
  have here := same.trans (ownSite _ _ _ _ (.inr rfl) leaves)
  refine ⟨crowded_ignoresVariables, here, ?_, unseen _ _ _ _ _ _ behind rfl⟩
  have moves : Finding.ResultMoved _ [] _ (crowded.caught idleThread).1 :=
    moved (isBlind_code _ _ _ _) []
  rw [here] at moves
  generalize (crowded.caught idleThread).1 = result at moves ⊢
  cases moves with
  | @error _ finding moves =>
      obtain ⟨top, _⟩ := List.forall₂_cons.mp moves
      exact ⟨finding, rfl, top.message, top.location⟩

end Script

end FuzzHarness
