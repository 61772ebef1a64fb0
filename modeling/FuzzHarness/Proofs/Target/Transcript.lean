import FuzzHarness.Proofs.Finding.Above
import FuzzHarness.Proofs.Target.Conversation

/-!
# The conversation of a run

A transcript answers as its source does and notes every call with its answer. Run with a
transcript, a target reveals the conversation it has with the source; given this, nothing
else about a provider matters to the run.
-/

namespace FuzzHarness

/-- A provider with the calls made on it so far. -/
structure Transcript (P : Type) where
  source : P
  exchanges : Conversation

namespace Transcript

variable {P : Type} [Provider P]

def start (source : P) : Transcript P :=
  ⟨source, []⟩

instance : Provider (Transcript P) :=
  ⟨fun request transcript =>
    let (answer, source) := Provider.call request transcript.source
    (answer, ⟨source, transcript.exchanges ++ [⟨request, answer⟩]⟩)⟩

/-- A transcript holds the conversation of its source, and notes it. -/
theorem answers {provider after : P} {conversation : Conversation}
    (answers : Answers provider conversation after) (noted : Conversation) :
    Answers (Transcript.mk provider noted) conversation ⟨after, noted ++ conversation⟩ := by
  induction conversation generalizing provider noted with
  | nil =>
      obtain rfl : provider = after := answers
      rw [List.append_nil]
      rfl
  | cons exchange rest ih =>
      obtain ⟨answered, others⟩ := answers
      refine ⟨answered, ?_⟩
      have later := ih others (noted ++ [exchange])
      rw [List.append_assoc] at later
      change Answers (Transcript.mk _
        (noted ++ [⟨exchange.call, (Provider.call exchange.call provider).1⟩])) rest _
      rw [answered]
      exact later

end Transcript

namespace Target

variable {σ P : Type} [Provider P]

/-- The calls that a run makes on a provider, with their answers. -/
def conversation (target : Target σ) (way : Way) (code : Code σ Unit) (host : Host σ)
    (provider : P) : Conversation :=
  ((target.iterate way code ⟨host, some (Transcript.start provider)⟩).2.provider.map
    Transcript.exchanges).getD []

/-- A conversation that decides a run is the conversation of the run. -/
theorem conversation_eq {target : Target σ} {way : Way} {code : Code σ Unit}
    {host left : Host σ} {provider after : P} {conversation : Conversation} {outcome : Outcome}
    (answers : Answers provider conversation after)
    (decides : ∀ (Q : Type) [Provider Q] (other other' : Q), Answers other conversation other' →
      target.iterate way code ⟨host, some other⟩ = (outcome, ⟨left, some other'⟩)) :
    target.conversation way code host provider = conversation := by
  have noted := decides _ (Transcript.start provider) _ (Transcript.answers answers [])
  rw [Target.conversation, noted]
  rfl

/-- A run takes the same course with every provider that holds its conversation. -/
theorem iterate_of_answers (target : Target σ) (way : Way) (code : Code σ Unit) (host : Host σ)
    (provider : P) :
    ∃ left after, Answers provider (target.conversation way code host provider) after ∧
      ∀ (Q : Type) [Provider Q] (other other' : Q),
        Answers other (target.conversation way code host provider) other' →
          target.iterate way code ⟨host, some other⟩ =
            ((target.iterate way code ⟨host, some provider⟩).1, ⟨left, some other'⟩) := by
  obtain ⟨conversation, outcome, left, after, answers, decides⟩ :=
    target.exists_iterate_holds way code host provider
  rw [conversation_eq answers decides, decides P provider after answers]
  exact ⟨left, after, answers, decides⟩

/-- What a target does with an input, the calls it makes and what comes of them above the
boundary, is decided by the answers it gets: as long as no report is pending, neither its
surroundings nor the way into it make a difference. -/
def DependsOnAnswers (target : Target σ) (code : Code σ Unit) : Prop :=
  ∀ (input : Bytes) (way other : Way) (host there : Host σ),
    host.reports.get target.channel = none → there.reports.get target.channel = none →
      (target.iterate way code ⟨host, some (Cursor.ofBytes input)⟩).1.above =
          (target.iterate other code ⟨there, some (Cursor.ofBytes input)⟩).1.above ∧
        target.conversation way code host (Cursor.ofBytes input) =
          target.conversation other code there (Cursor.ofBytes input)

end Target

end FuzzHarness
