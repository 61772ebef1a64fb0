import FuzzHarness.Proofs.Input.Cursor
import FuzzHarness.Recording.Tape

/-!
# Conversations with a provider

A conversation lists the calls made on a provider, each with its answer. Putting a
recorder around a provider changes no answer and keeps the values. A replay of these
values answers the same calls in the same way, provided that no call panicked and every
value answers its call; values that follow stay pending.
-/

namespace FuzzHarness

/-- A call and how it was answered. -/
structure Exchange where
  call : Call
  answer : Except CallFault Value

/-- The call yielded a value. -/
def Exchange.IsAnswered (exchange : Exchange) : Prop :=
  ∃ value, exchange.answer = .ok value

/-- The call was answered with a value that a replay accepts for it. -/
def Exchange.Accepted (exchange : Exchange) : Prop :=
  ∃ value, exchange.answer = .ok value ∧ exchange.call.accepts value = true

/-- The calls made on a provider, in order. -/
abbrev Conversation := List Exchange

def Conversation.values (conversation : Conversation) : Recording :=
  conversation.filterMap fun exchange => exchange.answer.toOption

/-- A provider, given the calls in turn, answers this way and is left like that. -/
def Answers {P : Type} [Provider P] (provider : P) (conversation : Conversation)
    (left : P) : Prop :=
  match conversation with
  | [] => provider = left
  | exchange :: rest =>
    (Provider.call exchange.call provider).1 = exchange.answer ∧
      Answers (Provider.call exchange.call provider).2 rest left

namespace Conversation

@[simp] theorem values_nil : values [] = [] := rfl

theorem values_append (first second : Conversation) :
    values (first ++ second) = values first ++ values second :=
  List.filterMap_append

theorem values_cons_ok {exchange : Exchange} {value : Value}
    (answered : exchange.answer = .ok value) (rest : Conversation) :
    values (exchange :: rest) = value :: values rest := by
  rw [values, List.filterMap_cons, answered]
  rfl

theorem values_cons_error {exchange : Exchange} {fault : CallFault}
    (answered : exchange.answer = .error fault) (rest : Conversation) :
    values (exchange :: rest) = values rest := by
  rw [values, List.filterMap_cons, answered]
  rfl

/-- If no call panicked, the values are all there is to the answers. -/
theorem map_answer_eq_map_values {conversation : Conversation}
    (accepted : ∀ exchange ∈ conversation, exchange.Accepted) :
    conversation.map Exchange.answer = conversation.values.map .ok := by
  induction conversation with
  | nil => rfl
  | cons exchange rest ih =>
      obtain ⟨first, others⟩ := List.forall_mem_cons.mp accepted
      obtain ⟨value, answered, _⟩ := first
      rw [values_cons_ok answered, List.map_cons, List.map_cons, answered, ih others]

/-- If no call panicked, each call yielded one value. -/
theorem length_values {conversation : Conversation}
    (accepted : ∀ exchange ∈ conversation, exchange.Accepted) :
    conversation.values.length = conversation.length := by
  have same := congrArg List.length (map_answer_eq_map_values accepted)
  rw [List.length_map, List.length_map] at same
  exact same.symm

end Conversation

section

variable {P : Type} [Provider P]

theorem answers_append {provider left : P} {first second : Conversation} :
    Answers provider (first ++ second) left ↔
      ∃ between, Answers provider first between ∧ Answers between second left := by
  induction first generalizing provider with
  | nil => exact ⟨fun answers => ⟨provider, rfl, answers⟩, fun ⟨_, same, answers⟩ => same ▸ answers⟩
  | cons exchange rest ih =>
      change (_ ∧ Answers _ (rest ++ second) left) ↔ ∃ between, (_ ∧ _) ∧ _
      rw [ih]
      constructor
      · rintro ⟨answered, between, before, after⟩
        exact ⟨between, ⟨answered, before⟩, after⟩
      · rintro ⟨between, ⟨answered, before⟩, after⟩
        exact ⟨answered, between, before, after⟩

end

namespace Recorder

variable {P : Type} [Provider P]

/-- One call on a recorder is a call on its source, of which the value is kept. -/
theorem call_eq (request : Call) (recorder : Recorder P) :
    Provider.call request recorder =
      ((Provider.call request recorder.source).1,
        ⟨(Provider.call request recorder.source).2,
          recorder.recording ++
            Conversation.values [⟨request, (Provider.call request recorder.source).1⟩]⟩) := by
  change recorder.call request = _
  rw [call]
  split
  · next value source called =>
    rw [called, Conversation.values_cons_ok rfl]
    rfl
  · next fault source called =>
    rw [called, Conversation.values_cons_error rfl, Conversation.values_nil, List.append_nil]

/-- A recorder holds the conversation of its source, and keeps the values of it. -/
theorem answers_iff {recorder left : Recorder P} {conversation : Conversation} :
    Answers recorder conversation left ↔
      Answers recorder.source conversation left.source ∧
        left.recording = recorder.recording ++ conversation.values := by
  induction conversation generalizing recorder with
  | nil =>
      change recorder = left ↔ recorder.source = left.source ∧ _
      obtain ⟨source, recording⟩ := recorder
      obtain ⟨leftSource, leftRecording⟩ := left
      rw [Conversation.values_nil, List.append_nil, Recorder.mk.injEq]
      exact and_congr_right fun _ => eq_comm
  | cons exchange rest ih =>
      obtain ⟨request, answer⟩ := exchange
      change (_ = _ ∧ Answers _ rest left) ↔ (_ = _ ∧ Answers _ rest left.source) ∧ _
      rw [ih, call_eq]
      change (_ = _ ∧ _ ∧ left.recording = (_ ++ _) ++ _) ↔ _
      rw [and_assoc]
      refine and_congr_right fun answered => and_congr_right fun _ => ?_
      change (Provider.call request recorder.source).1 = answer at answered
      rw [answered, List.append_assoc, ← Conversation.values_append]
      rfl

end Recorder

namespace Replay

/-- A replay of accepted values answers the calls they were recorded for. -/
theorem answers {conversation : Conversation}
    (accepted : ∀ exchange ∈ conversation, exchange.Accepted) (rest : Recording) :
    Answers (Replay.mk (conversation.values ++ rest)) conversation ⟨rest⟩ := by
  induction conversation with
  | nil => rfl
  | cons exchange others ih =>
      obtain ⟨first, others⟩ := List.forall_mem_cons.mp accepted
      obtain ⟨value, answered, answers⟩ := first
      have served (pending : Recording) :
          Provider.call exchange.call (Replay.mk (value :: pending)) = (.ok value, ⟨pending⟩) :=
        if_pos answers
      rw [Conversation.values_cons_ok answered, List.cons_append, Answers, served, answered]
      exact ⟨rfl, ih others⟩

/-- Once all values have been served, a replay panics at the next call. -/
theorem answers_exhausted {front : Conversation}
    (accepted : ∀ exchange ∈ front, exchange.Accepted) (request : Call) :
    Answers (Replay.mk front.values) (front ++ [⟨request, .error (.exhausted request)⟩]) ⟨[]⟩ := by
  have served := answers accepted []
  rw [List.append_nil] at served
  exact answers_append.mpr ⟨⟨[]⟩, served, rfl, rfl⟩

/-- A replay panics because it is exhausted or because the next value is no answer. -/
theorem fault_of_refused {request : Call} {replay : Replay} {fault : CallFault}
    (refused : (replay.call request).1 = .error fault) :
    fault = .exhausted request ∨ ∃ recorded, fault = .diverged request recorded := by
  rw [call] at refused
  split at refused
  · exact .inl (Except.error.inj refused).symm
  · split at refused
    · cases refused
    · exact .inr ⟨_, (Except.error.inj refused).symm⟩

end Replay

namespace Cursor

variable {cursor left : Cursor} {conversation : Conversation}

/-- A conversation moves the positions and leaves the input alone. -/
theorem answers_data (answers : Answers cursor conversation left) :
    left.data = cursor.data := by
  induction conversation generalizing cursor with
  | nil => exact congrArg data (Eq.symm answers)
  | cons exchange rest ih =>
      obtain ⟨_, others⟩ := answers
      exact (ih others).trans (cursor.call_data exchange.call)

/-- No call that yielded a value asks for an inverted range. -/
theorem ordered_of_answered (answers : Answers cursor conversation left)
    (answered : ∀ exchange ∈ conversation, exchange.IsAnswered) :
    ∀ exchange ∈ conversation, exchange.call.isOrdered = true := by
  induction conversation generalizing cursor with
  | nil =>
      intro _ mem
      cases mem
  | cons exchange rest ih =>
      obtain ⟨same, others⟩ := answers
      obtain ⟨⟨value, first⟩, answeredRest⟩ := List.forall_mem_cons.mp answered
      exact List.forall_mem_cons.mpr
        ⟨isOrdered_of_answered (same.trans first), ih others answeredRest⟩

/-- A replay accepts every value of a conversation in which no range is inverted. -/
theorem answers_accepted (answers : Answers cursor conversation left)
    (ordered : ∀ exchange ∈ conversation, exchange.call.isOrdered = true)
    (fits : ∀ value ∈ conversation.values, value.size < UInt64.size) :
    ∀ exchange ∈ conversation, exchange.Accepted := by
  induction conversation generalizing cursor with
  | nil =>
      intro _ mem
      cases mem
  | cons exchange rest ih =>
      obtain ⟨answered, others⟩ := answers
      obtain ⟨first, orderedRest⟩ := List.forall_mem_cons.mp ordered
      obtain ⟨value, handedOut, accepts⟩ := call_accepted first cursor
      have answer : exchange.answer = .ok value := answered.symm.trans handedOut
      rw [Conversation.values_cons_ok answer] at fits
      obtain ⟨small, fitsRest⟩ := List.forall_mem_cons.mp fits
      exact List.forall_mem_cons.mpr
        ⟨⟨value, answer, accepts small⟩, ih others orderedRest fitsRest⟩

end Cursor

/-- A replay of the values that a cursor handed out holds the conversation with the cursor
just if no range is inverted: the panic of such a call is none of the values. -/
theorem Replay.answers_iff_ordered {cursor left : Cursor} {conversation : Conversation}
    (answers : Answers cursor conversation left)
    (fits : ∀ value ∈ conversation.values, value.size < UInt64.size) :
    (∃ last, Answers (Replay.mk conversation.values) conversation last) ↔
      ∀ exchange ∈ conversation, exchange.call.isOrdered = true := by
  constructor
  · rintro ⟨last, served⟩
    apply Cursor.ordered_of_answered answers
    clear fits
    generalize Replay.mk conversation.values = replay at served
    induction conversation generalizing cursor replay with
    | nil =>
        intro _ mem
        cases mem
    | cons exchange rest ih =>
        obtain ⟨handedOut, others⟩ := answers
        obtain ⟨replayed, servedOthers⟩ := served
        refine List.forall_mem_cons.mpr ⟨?_, ih others _ servedOthers⟩
        cases answer : exchange.answer with
        | ok value => exact ⟨value, answer⟩
        | error fault =>
            rw [answer] at handedOut replayed
            rcases Cursor.fault_of_refused handedOut with ⟨_, _, _, rfl⟩ | ⟨_, _, _, rfl⟩
            · rcases Replay.fault_of_refused replayed with own | ⟨_, own⟩ <;> cases own
            · rcases Replay.fault_of_refused replayed with own | ⟨_, own⟩ <;> cases own
  · intro ordered
    have served := Replay.answers (Cursor.answers_accepted answers ordered fits) []
    rw [List.append_nil] at served
    exact ⟨⟨[]⟩, served⟩

end FuzzHarness
