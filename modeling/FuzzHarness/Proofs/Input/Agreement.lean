import FuzzHarness.Proofs.Input.Conversation
import FuzzHarness.Proofs.Recording.Codec

/-!
# Cursor, recorder and replay agree

A dialogue chooses each call after the answers so far, and goes on after a panic as well.
All it learns about a provider are the answers, so providers that answer alike see the
same dialogue. A cursor, a recorder around it, and a replay of what this wrote down answer
alike as long as no call inverts a range.
-/

namespace FuzzHarness

/-- A finite strategy for calling a provider. -/
inductive Dialogue where
  | close
  | ask (request : Call) (next : Except CallFault Value → Dialogue)

namespace Dialogue

variable {P Q : Type} [Provider P] [Provider Q]

/-- The conversation that a provider has, and how it is left. -/
def run : Dialogue → P → Conversation × P
  | .close, provider => ([], provider)
  | .ask request next, provider =>
    let (answer, provider) := Provider.call request provider
    let (rest, provider) := (next answer).run provider
    (⟨request, answer⟩ :: rest, provider)

/-- The dialogue that is broken off after so many calls. -/
def first : Nat → Dialogue → Dialogue
  | 0, _ => .close
  | _, .close => .close
  | count + 1, .ask request next => .ask request fun answer => (next answer).first count

theorem run_ask {request : Call} {provider after : P} {answer : Except CallFault Value}
    (called : Provider.call request provider = (answer, after))
    (next : Except CallFault Value → Dialogue) :
    (ask request next).run provider =
      (⟨request, answer⟩ :: ((next answer).run after).1, ((next answer).run after).2) := by
  rw [run, called]

theorem answers_run (dialogue : Dialogue) (provider : P) :
    Answers provider (dialogue.run provider).1 (dialogue.run provider).2 := by
  induction dialogue generalizing provider with
  | close => rfl
  | ask request next ih => exact ⟨rfl, ih _ _⟩

/-- A dialogue with a provider takes the same course with any other that answers alike. -/
theorem run_eq_of_answers (dialogue : Dialogue) (provider : P) {other left : Q}
    (answers : Answers other (dialogue.run provider).1 left) :
    dialogue.run other = ((dialogue.run provider).1, left) := by
  induction dialogue generalizing provider other with
  | close => exact congrArg (Prod.mk []) answers
  | ask request next ih =>
      obtain ⟨answered, rest⟩ := answers
      rw [run_ask (Prod.ext answered rfl), run_ask rfl, ih _ _ rest]

theorem run_first (count : Nat) (dialogue : Dialogue) (provider : P) :
    ((dialogue.first count).run provider).1 = (dialogue.run provider).1.take count := by
  induction dialogue generalizing count provider with
  | close => cases count <;> rfl
  | ask request next ih =>
      cases count with
      | zero => rfl
      | succ count => exact congrArg (List.cons _) (ih _ count _)

/-- A recorder hands out what its source would, and leaves it alike; it keeps one value
for each call that yields one. -/
theorem run_recorder (dialogue : Dialogue) (source : P) :
    dialogue.run (Recorder.start source) =
      ((dialogue.run source).1, ⟨(dialogue.run source).2, (dialogue.run source).1.values⟩) :=
  dialogue.run_eq_of_answers source
    (Recorder.answers_iff.mpr ⟨dialogue.answers_run source, rfl⟩)

end Dialogue

/-- Take any dialogue in which no range is inverted. A cursor, a recorder around such a
cursor, and the replay read back from what the recorder wrote down all answer it alike. The
recorder's source ends as the cursor does; the recording has just the values handed out,
one for each call, so that no call panics; and the replay is exhausted once the last call
has been made and not before. Numbers of calls and sizes of values are machine words. -/
theorem providers_agree (dialogue : Dialogue) (data : Bytes)
    (ordered : ∀ exchange ∈ (dialogue.run (Cursor.ofBytes data)).1,
      exchange.call.isOrdered = true)
    (countable : (dialogue.run (Cursor.ofBytes data)).1.length < UInt64.size)
    (sized : ∀ value ∈ (dialogue.run (Cursor.ofBytes data)).1.values, value.size < UInt64.size) :
    let direct := dialogue.run (Cursor.ofBytes data)
    let recorded := dialogue.run (Recorder.start (Cursor.ofBytes data))
    recorded.1 = direct.1 ∧
      recorded.2.source = direct.2 ∧
      direct.1.map Exchange.answer = recorded.2.recording.map .ok ∧
      ∃ recording, Recording.decode recorded.2.recording.encode = .ok recording ∧
        (dialogue.run (Replay.mk recording)).1 = direct.1 ∧
        ∀ count, ((dialogue.first count).run (Replay.mk recording)).2.isExhausted = true ↔
          direct.1.length ≤ count := by
  intro direct recorded
  have accepted : ∀ exchange ∈ direct.1, exchange.Accepted :=
    Cursor.answers_accepted (dialogue.answers_run _) ordered sized
  have same : recorded = (direct.1, ⟨direct.2, direct.1.values⟩) := dialogue.run_recorder _
  have answers := Conversation.map_answer_eq_map_values accepted
  have fits : Recording.Fits direct.1.values :=
    ⟨Conversation.length_values accepted ▸ countable, sized⟩
  rw [same]
  refine ⟨rfl, rfl, answers, direct.1.values, Recording.decode_encode fits, ?_, ?_⟩
  · have replayed := Replay.answers accepted []
    rw [List.append_nil] at replayed
    rw [dialogue.run_eq_of_answers (Cursor.ofBytes data) replayed]
  · intro count
    have split : direct.1.values =
        Conversation.values (direct.1.take count) ++ Conversation.values (direct.1.drop count) := by
      rw [← Conversation.values_append, List.take_append_drop]
    have acceptedFirst : ∀ exchange ∈ direct.1.take count, exchange.Accepted :=
      fun exchange mem => accepted exchange (List.mem_of_mem_take mem)
    have acceptedLast : ∀ exchange ∈ direct.1.drop count, exchange.Accepted :=
      fun exchange mem => accepted exchange (List.mem_of_mem_drop mem)
    have begun := Replay.answers acceptedFirst (Conversation.values (direct.1.drop count))
    rw [← split, ← Dialogue.run_first] at begun
    rw [(dialogue.first count).run_eq_of_answers (Cursor.ofBytes data) begun]
    change (Conversation.values (direct.1.drop count)).isEmpty = true ↔ _
    rw [List.isEmpty_iff_length_eq_zero, Conversation.length_values acceptedLast,
      List.length_drop, Nat.sub_eq_zero_iff_le]

/-- A dialogue that draws a signed word and, if it is negative, a short text. -/
def Dialogue.wordThenText : Dialogue :=
  .ask (.i64In (-3) 3) fun
    | .ok (.i64 word) =>
      if word < 0 then .ask (.string 2) fun _ => .ask .remaining fun _ => .close else .close
    | _ => .close

/-- The text is cut within a character, so that it is longer than what it is made of. -/
theorem wordThenText_agrees :
    ((Dialogue.wordThenText.run (Cursor.ofBytes [0x41, 0xC3, 0xA9, 0x08])).1.length = 3) ∧
      ∃ recording, Recording.decode (Dialogue.wordThenText.run
          (Recorder.start (Cursor.ofBytes [0x41, 0xC3, 0xA9, 0x08]))).2.recording.encode =
        .ok recording ∧
      (Dialogue.wordThenText.run (Replay.mk recording)).1 =
        (Dialogue.wordThenText.run (Cursor.ofBytes [0x41, 0xC3, 0xA9, 0x08])).1 := by
  refine ⟨by decide +kernel, ?_⟩
  obtain ⟨_, _, _, recording, decoded, same, _⟩ :=
    providers_agree Dialogue.wordThenText [0x41, 0xC3, 0xA9, 0x08] (by decide +kernel)
      (by decide +kernel) (by decide +kernel)
  exact ⟨recording, decoded, same⟩

end FuzzHarness
