import FuzzHarness.Proofs.Input.Checked

/-!
# No octet is lost or handed out twice

A ledger keeps the octets that calls took from either end of an input, and those that are
left. It is kept by what the calls ask for and knows nothing of positions. Whatever is done
with a cursor, its positions divide the input as the ledger does, so that they are in order,
and every answer is what the call reads off the octets that the ledger takes for it.
-/

namespace FuzzHarness

/-- What can be done with a cursor. -/
inductive Cursor.Step where
  | feed (data : Bytes)
  | reset
  | call (request : Call)
  deriving DecidableEq, Repr

/-- The octets of an input: those taken from the front, in order, those that are left, and
those taken from the back, in the order of taking. -/
structure Ledger where
  front : Bytes
  rest : Bytes
  back : Bytes
  deriving DecidableEq, Repr

namespace Ledger

def start (data : Bytes) : Ledger :=
  ⟨[], data, []⟩

/-- The octets in the order of the input. -/
def whole (ledger : Ledger) : Bytes :=
  ledger.front ++ ledger.rest ++ ledger.back.reverse

/-- Enter the octets that are taken for a demand. -/
def take (ledger : Ledger) (demand : Demand) : Ledger :=
  match demand with
  | .front count => ⟨ledger.front ++ demand.of ledger.rest, ledger.rest.drop count, ledger.back⟩
  | .back count => ⟨ledger.front, ledger.rest.take (ledger.rest.length - count),
      ledger.back ++ demand.of ledger.rest⟩

def enter (ledger : Ledger) : Cursor.Step → Ledger
  | .feed data => .start data
  | .reset => .start ledger.whole
  | .call request => ledger.take (request.demand ledger.rest.length)

def enterAll (ledger : Ledger) (steps : List Cursor.Step) : Ledger :=
  steps.foldl enter ledger

@[simp] theorem whole_start (data : Bytes) : (start data).whole = data := by
  simp [start, whole]

/-- What is taken from the back and what is left of it are what was left before. -/
theorem rest_take_back (ledger : Ledger) (count : Nat) :
    (ledger.take (.back count)).rest ++ ((Demand.back count).of ledger.rest).reverse =
      ledger.rest := by
  rw [Demand.reverse_of_back]
  exact List.take_append_drop _ _

/-- Entering octets only changes where they are kept. -/
theorem whole_take (ledger : Ledger) (demand : Demand) :
    (ledger.take demand).whole = ledger.whole := by
  cases demand with
  | front count => simp [take, whole, Demand.of]
  | back count =>
      change ledger.front ++ _ ++ (ledger.back ++ _).reverse = _
      rw [List.reverse_append, List.append_assoc, ← List.append_assoc (Ledger.take _ _).rest,
        rest_take_back, ← List.append_assoc]
      rfl

end Ledger

namespace Cursor

/-- Take one step, whatever comes of it. -/
def perform (cursor : Cursor) : Step → Cursor
  | .feed data => cursor.feed data
  | .reset => cursor.reset
  | .call request => (cursor.call request).2

def performAll (cursor : Cursor) (steps : List Step) : Cursor :=
  steps.foldl perform cursor

/-- The input that was fed last, if any was. -/
def lastFed (steps : List Step) : Bytes :=
  (steps.reverse.findSome? fun
    | .feed data => some data
    | _ => none).getD []

/-- The positions of a cursor divide its input as a ledger does. -/
structure Keeps (cursor : Cursor) (ledger : Ledger) : Prop where
  data : cursor.data = ledger.whole
  front : cursor.front = ledger.front.length
  back : cursor.back = ledger.front.length + ledger.rest.length

namespace Keeps

variable {cursor : Cursor} {ledger : Ledger}

theorem inOrder (keeps : cursor.Keeps ledger) : cursor.InOrder := by
  constructor
  · rw [keeps.front, keeps.back]
    exact Nat.le_add_right _ _
  · rw [keeps.back, keeps.data, Ledger.whole, List.length_append, List.length_append]
    exact Nat.le_add_right _ _

theorem rest (keeps : cursor.Keeps ledger) : cursor.rest = ledger.rest := by
  rw [Cursor.rest, left, keeps.data, keeps.front, keeps.back, Nat.add_sub_cancel_left,
    Ledger.whole, List.append_assoc, List.drop_left, List.take_left]

theorem left (keeps : cursor.Keeps ledger) : cursor.left = ledger.rest.length := by
  rw [← keeps.inOrder.length_rest, keeps.rest]

/-- A cursor that starts with an input has nothing taken. -/
theorem start (data : Bytes) : (ofBytes data).Keeps (.start data) :=
  ⟨(Ledger.whole_start data).symm, rfl, (Nat.zero_add _).symm⟩

/-- Octets taken for a demand are entered. -/
theorem moves (keeps : cursor.Keeps ledger) (demand : Demand) :
    (cursor.moves demand).Keeps (ledger.take demand) := by
  have left := keeps.left
  obtain ⟨data, front, back⟩ := keeps
  refine ⟨?_, ?_, ?_⟩
  · rw [Ledger.whole_take, ← data]
    cases demand <;> rfl
  · cases demand with
    | front count => simp [Cursor.moves, moved, Ledger.take, Demand.of, front, left]
    | back count => exact front
  · cases demand with
    | front count =>
        simp only [Cursor.moves, moved, Ledger.take, Demand.of, List.length_append,
          List.length_take, List.length_drop, back]
        omega
    | back count =>
        simp only [Cursor.moves, moved, Ledger.take, List.length_take, back, left]
        omega

/-- The ledger tells how a call is answered and where it leaves the cursor. -/
theorem call_eq (keeps : cursor.Keeps ledger) (request : Call) :
    cursor.call request =
      (request.answer ledger.rest.length (request.taken ledger.rest),
        cursor.moves (request.demand ledger.rest.length)) := by
  rw [keeps.inOrder.call_eq, keeps.left, keeps.rest]

theorem call (keeps : cursor.Keeps ledger) (request : Call) :
    (cursor.call request).2.Keeps (ledger.take (request.demand ledger.rest.length)) := by
  rw [keeps.call_eq]
  exact keeps.moves _

theorem perform (keeps : cursor.Keeps ledger) (step : Step) :
    (cursor.perform step).Keeps (ledger.enter step) := by
  cases step with
  | feed data => exact start data
  | reset =>
      rw [Ledger.enter, ← keeps.data]
      exact start cursor.data
  | call request => exact keeps.call request

end Keeps

/-- What a step keeps, a run keeps. -/
theorem Keeps.performAll {cursor : Cursor} {ledger : Ledger} (keeps : cursor.Keeps ledger)
    (steps : List Step) : (cursor.performAll steps).Keeps (ledger.enterAll steps) := by
  induction steps generalizing cursor ledger with
  | nil => exact keeps
  | cons step steps ih => exact ih (keeps.perform step)

/-- Only feeding replaces the input. -/
theorem data_performAll (steps : List Step) : (empty.performAll steps).data = lastFed steps := by
  induction steps using List.reverseRecOn with
  | nil => rfl
  | append_singleton steps step ih =>
      rw [performAll, List.foldl_concat]
      cases step with
      | feed data => simp [perform, feed, reset, lastFed]
      | reset =>
          rw [lastFed, List.reverse_concat]
          exact ih
      | call request =>
          rw [lastFed, List.reverse_concat]
          exact (call_data request _).trans ih

namespace Keeps

variable {cursor : Cursor} {ledger : Ledger}

/-- What lies behind the back position was taken from the back. -/
theorem length_back (keeps : cursor.Keeps ledger) :
    cursor.data.length - cursor.back = ledger.back.length := by
  rw [keeps.data, keeps.back, Ledger.whole, List.length_append, List.length_append,
    List.length_reverse, Nat.add_sub_cancel_left]

/-- A call whose range is in order is answered with what it reads. -/
theorem exists_reads (keeps : cursor.Keeps ledger) {request : Call}
    (ordered : request.isOrdered = true) :
    ∃ value, (cursor.call request).1 = .ok value ∧
      request.Reads ledger.rest.length (request.taken ledger.rest) value := by
  obtain ⟨value, answered, reads⟩ := Call.exists_reads ordered ledger.rest
  refine ⟨value, ?_, reads⟩
  rw [keeps.call_eq]
  exact answered

end Keeps

/-- A call that panics leaves the cursor as it was. -/
theorem InOrder.call_of_inverted {cursor : Cursor} (ordered : cursor.InOrder) {request : Call}
    (inverted : request.isOrdered = false) :
    ∃ fault, cursor.call request = (.error fault, cursor) := by
  have refused : ∃ fault, (cursor.call request).1 = .error fault := by
    cases answered : (cursor.call request).1 with
    | ok value =>
        have := isOrdered_of_answered answered
        rw [inverted] at this
        cases this
    | error fault => exact ⟨fault, rfl⟩
  obtain ⟨fault, refused⟩ := refused
  refine ⟨fault, Prod.ext refused ?_⟩
  rw [ordered.call_eq, Call.demand_of_inverted request inverted, moves, Nat.zero_min, moved_zero]

/-- Whatever is done with a cursor from its creation on, its positions stay in order and within
the input that was fed last, so that no step of a call can fail. They count the octets that the
ledger holds for either end. These octets and those that are left are the input that was fed
last, and they are all of it again after a reset. A call whose range is in order is answered
with what it reads off the octets that the ledger takes for it next; any other panics and
changes nothing. -/
theorem octets_accounted (steps : List Step) :
    let cursor := empty.performAll steps
    let ledger := (Ledger.start []).enterAll steps
    (cursor.front ≤ cursor.back ∧ cursor.back ≤ cursor.data.length ∧
        ∀ request, cursor.checkedCall request = some (cursor.call request)) ∧
      (cursor.data = lastFed steps ∧
        ledger.front ++ ledger.rest ++ ledger.back.reverse = lastFed steps) ∧
      (cursor.front = ledger.front.length ∧ cursor.left = ledger.rest.length ∧
        cursor.data.length - cursor.back = ledger.back.length) ∧
      (∀ request : Call, request.isOrdered = true →
        ∃ value, (cursor.call request).1 = .ok value ∧
          request.Reads ledger.rest.length (request.taken ledger.rest) value) ∧
      (∀ request : Call, request.isOrdered = false →
        ∃ fault, cursor.call request = (.error fault, cursor)) ∧
      cursor.reset.left = (lastFed steps).length ∧
      (cursor.reset.call .restBytes).1 = .ok (.bytes (lastFed steps)) := by
  intro cursor ledger
  have keeps : cursor.Keeps ledger := (Keeps.start []).performAll steps
  have data : cursor.data = lastFed steps := data_performAll steps
  have ordered := keeps.inOrder
  refine ⟨⟨ordered.front_le_back, ordered.back_le_length, ordered.checkedCall_eq⟩,
    ⟨data, keeps.data.symm.trans data⟩, ⟨keeps.front, keeps.left, keeps.length_back⟩,
    ?_, ?_, ?_, ?_⟩
  · intro request inOrder
    exact keeps.exists_reads inOrder
  · intro request inverted
    exact ordered.call_of_inverted inverted
  · rw [← data]
    rfl
  · rw [← data]
    exact congrArg (fun octets => Except.ok (Value.bytes octets)) cursor.takeFront_reset

/-- A short text and a word that takes what is left of an input that was fed anew; an inverted
range in between takes nothing. -/
theorem octets_accounted_word :
    let cursor := empty.performAll [.feed [9, 9], .call .u8, .feed [0x61, 0x62, 1, 2, 3],
      .call (.string 1), .call (.u64In 5 1), .call .u16]
    cursor.left = 2 ∧
      (∃ value, (cursor.call .i32).1 = .ok value ∧
        Call.i32.Reads 2 [1, 0x62] value) ∧
      ∃ fault, cursor.call (.i64In 2 (-2)) = (.error fault, cursor) := by
  obtain ⟨_, _, ⟨_, left, _⟩, answered, refused, _⟩ := octets_accounted
    [.feed [9, 9], .call .u8, .feed [0x61, 0x62, 1, 2, 3], .call (.string 1),
      .call (.u64In 5 1), .call .u16]
  exact ⟨left, answered .i32 rfl, refused (.i64In 2 (-2)) (by decide)⟩

end Cursor

end FuzzHarness
