import FuzzHarness.Proofs.Input.Agreement
import FuzzHarness.Proofs.Input.Ledger

/-!
# One end of an input does not disturb the other

Calls that are fixed in advance take octets from both ends of an input. How many each of them
takes depends on how many are left and not on what they are, so two inputs of one length are
taken from alike. A ledger only ever grows at its ends: two of them that end with the same
octets at one side have entered the same octets there at every step, and every call on this
side was answered in the same way.
-/

namespace FuzzHarness

inductive Side where
  | front
  | back
  deriving DecidableEq, Repr

/-- Which panic an exchange was, if it was one. -/
def Exchange.fault? (exchange : Exchange) : Option CallFault :=
  match exchange.answer with
  | .ok _ => none
  | .error fault => some fault

/-- Make calls in turn, whatever they are answered. -/
def Dialogue.listing : List Call → Dialogue
  | [] => .close
  | request :: others => .ask request fun _ => listing others

theorem Dialogue.map_call_listing {P : Type} [Provider P] (calls : List Call) (provider : P) :
    ((listing calls).run provider).1.map Exchange.call = calls := by
  induction calls generalizing provider with
  | nil => rfl
  | cons request others ih => exact congrArg (List.cons request) (ih _)

namespace Call

/-- The end from which a call takes octets: bytes and strings from the front, bools, integers
and ranges from the back. The count of octets takes none. -/
def side? : Call → Option Side
  | .bytes _ | .restBytes | .string _ | .restString => some .front
  | .bool | .u8 | .u16 | .u32 | .u64 | .i32 | .i64 | .u64In _ _ | .i64In _ _ => some .back
  | .remaining => none

/-- Whether a call panics is not up to the octets that it takes. -/
theorem fault?_answer (request : Call) (left : Nat) (octets other : Bytes) :
    Exchange.fault? ⟨request, request.answer left octets⟩ =
      Exchange.fault? ⟨request, request.answer left other⟩ := by
  cases request with
  | u64In min max | i64In min max =>
      by_cases inverted : max < min <;> simp [Exchange.fault?, answer, inverted]
  | _ => rfl

/-- A call that takes no octets is answered by their count. -/
theorem answer_of_side?_none {request : Call} (silent : request.side? = none) (left : Nat)
    (octets other : Bytes) : request.answer left octets = request.answer left other := by
  cases request with
  | remaining => rfl
  | _ => cases silent

end Call

namespace Ledger

/-- The octets that were taken from one end, in the order of taking. -/
def side (ledger : Ledger) : Side → Bytes
  | .front => ledger.front
  | .back => ledger.back

/-- How calls are answered in turn, going by the ledger. -/
def converse (ledger : Ledger) : List Call → Conversation
  | [] => []
  | request :: others =>
    ⟨request, request.answer ledger.rest.length (request.taken ledger.rest)⟩ ::
      (ledger.enter (.call request)).converse others

/-- A call enters what it takes on its side, and nothing on the other. -/
theorem side_enter (ledger : Ledger) (request : Call) (side : Side) :
    (ledger.enter (.call request)).side side =
      ledger.side side ++ if request.side? = some side then request.taken ledger.rest else [] := by
  cases request <;> cases side <;>
    simp [enter, take, Ledger.side, Call.side?, Call.taken, Call.demand, Demand.of]

/-- Calls only change where octets are kept. -/
theorem whole_enterAll (ledger : Ledger) (calls : List Call) :
    (ledger.enterAll (calls.map .call)).whole = ledger.whole := by
  induction calls generalizing ledger with
  | nil => rfl
  | cons request others ih => exact (ih _).trans (ledger.whole_take _)

/-- What was taken from the front is the beginning of the input. -/
theorem take_whole (ledger : Ledger) : ledger.whole.take ledger.front.length = ledger.front := by
  rw [whole, List.append_assoc, List.take_left]

/-- What was taken from the back is the end of the input, in reverse order. -/
theorem drop_whole (ledger : Ledger) :
    ledger.whole.drop (ledger.whole.length - ledger.back.length) = ledger.back.reverse := by
  have before : ledger.whole.length - ledger.back.length =
      (ledger.front ++ ledger.rest).length := by
    rw [whole, List.length_append, List.length_reverse, Nat.add_sub_cancel]
  rw [before, whole, List.drop_left]

/-- Two ledgers hold as many octets everywhere, whatever they are. -/
structure Alike (first second : Ledger) : Prop where
  front : first.front.length = second.front.length
  rest : first.rest.length = second.rest.length
  back : first.back.length = second.back.length

namespace Alike

variable {first second : Ledger}

theorem enter (alike : first.Alike second) (request : Call) :
    (first.enter (.call request)).Alike (second.enter (.call request)) := by
  obtain ⟨front, rest, back⟩ := alike
  simp only [Ledger.enter, rest]
  cases request.demand second.rest.length with
  | front count => constructor <;> simp [take, Demand.of, front, rest, back]
  | back count => constructor <;> simp [take, Demand.of, front, rest, back]

theorem enterAll (alike : first.Alike second) (calls : List Call) :
    (first.enterAll (calls.map .call)).Alike (second.enterAll (calls.map .call)) := by
  induction calls generalizing first second with
  | nil => exact alike
  | cons request others ih => exact ih (alike.enter request)

theorem length_side (alike : first.Alike second) (side : Side) :
    (first.side side).length = (second.side side).length := by
  cases side with
  | front => exact alike.front
  | back => exact alike.back

/-- Inputs that begin alike were taken from the front alike. -/
theorem front_eq (alike : first.Alike second)
    (same : first.whole.take second.front.length = second.whole.take second.front.length) :
    first.front = second.front := by
  rw [← first.take_whole, alike.front, same, second.take_whole]

/-- Inputs that end alike were taken from the back alike. -/
theorem back_eq (alike : first.Alike second)
    (same : first.whole.drop (first.whole.length - second.back.length) =
      second.whole.drop (second.whole.length - second.back.length)) :
    first.back = second.back := by
  rw [second.drop_whole, ← alike.back, first.drop_whole] at same
  exact List.reverse_inj.mp same

/-- What does not depend on the octets taken is seen in both conversations. -/
theorem filterMap_converse {A : Type} (alike : first.Alike second) {view : Exchange → Option A}
    (blind : ∀ (request : Call) (left : Nat) (octets other : Bytes),
      view ⟨request, request.answer left octets⟩ = view ⟨request, request.answer left other⟩)
    (calls : List Call) :
    (first.converse calls).filterMap view = (second.converse calls).filterMap view := by
  induction calls generalizing first second with
  | nil => rfl
  | cons request others ih =>
      rw [converse, converse, List.filterMap_cons, List.filterMap_cons, ih (alike.enter request),
        alike.rest, blind]

/-- If the same octets were taken from one end after all, they were the same at every call. -/
theorem filter_converse (alike : first.Alike second) (side : Side) (calls : List Call)
    (same : (first.enterAll (calls.map .call)).side side =
      (second.enterAll (calls.map .call)).side side) :
    first.side side = second.side side ∧
      (first.converse calls).filter (fun exchange => exchange.call.side? = some side) =
        (second.converse calls).filter (fun exchange => exchange.call.side? = some side) := by
  induction calls generalizing first second with
  | nil => exact ⟨same, rfl⟩
  | cons request others ih =>
      obtain ⟨entered, later⟩ := ih (alike.enter request) same
      -- The two have entered equally many octets before, so that what this call added stands
      -- at the same place in both.
      rw [side_enter, side_enter] at entered
      obtain ⟨before, now⟩ := List.append_inj entered (alike.length_side side)
      refine ⟨before, ?_⟩
      rw [converse, converse, List.filter_cons, List.filter_cons, later]
      split
      · next here =>
        rw [if_pos (of_decide_eq_true here), if_pos (of_decide_eq_true here)] at now
        rw [now, alike.rest]
      · rfl

end Alike

end Ledger

namespace Cursor

/-- A cursor answers calls as the ledger of it tells. -/
theorem Keeps.run_listing {cursor : Cursor} {ledger : Ledger} (keeps : cursor.Keeps ledger)
    (calls : List Call) :
    ((Dialogue.listing calls).run cursor).1 = ledger.converse calls ∧
      ((Dialogue.listing calls).run cursor).2.Keeps (ledger.enterAll (calls.map .call)) := by
  induction calls generalizing cursor ledger with
  | nil => exact ⟨rfl, keeps⟩
  | cons request others ih =>
      obtain ⟨conversation, kept⟩ := ih (keeps.call request)
      have answered := congrArg Prod.fst (keeps.call_eq request)
      refine ⟨?_, kept⟩
      exact congrArg₂ (fun answer others => Exchange.mk request answer :: others) answered
        conversation

/-- From the start of an input, the positions tell how many octets were taken. -/
theorem run_listing_ofBytes (calls : List Call) (data : Bytes) :
    let left := ((Dialogue.listing calls).run (ofBytes data)).2
    let ledger := (Ledger.start data).enterAll (calls.map .call)
    ledger.whole = data ∧ left.front = ledger.front.length ∧
      data.length - left.back = ledger.back.length := by
  intro left ledger
  obtain ⟨_, keeps⟩ := (Keeps.start data).run_listing calls
  have whole : ledger.whole = data :=
    ((Ledger.start data).whole_enterAll calls).trans (Ledger.whole_start data)
  have fed : left.data = data := keeps.data.trans whole
  refine ⟨whole, keeps.front, ?_⟩
  rw [← fed]
  exact keeps.length_back

/-- Calls that are fixed in advance are made on two inputs of one length. The same numbers of
octets are taken from the front and from the back of both, the same calls panic in the same
way, and the same counts of octets are told. Bytes and strings are the same if the octets taken
from the front are; bools, integers and ranges if those taken from the back are. -/
theorem sides_undisturbed (calls : List Call) (data other : Bytes)
    (length : other.length = data.length) :
    let here := (Dialogue.listing calls).run (ofBytes data)
    let there := (Dialogue.listing calls).run (ofBytes other)
    let front := here.2.front
    let back := data.length - here.2.back
    (here.1.map Exchange.call = calls ∧ there.1.map Exchange.call = calls) ∧
      (there.2.front = front ∧ other.length - there.2.back = back) ∧
      there.1.map Exchange.fault? = here.1.map Exchange.fault? ∧
      there.1.filter (fun exchange => exchange.call.side? = none) =
        here.1.filter (fun exchange => exchange.call.side? = none) ∧
      (other.take front = data.take front →
        there.1.filter (fun exchange => exchange.call.side? = some .front) =
          here.1.filter (fun exchange => exchange.call.side? = some .front)) ∧
      (other.drop (other.length - back) = data.drop (data.length - back) →
        there.1.filter (fun exchange => exchange.call.side? = some .back) =
          here.1.filter (fun exchange => exchange.call.side? = some .back)) := by
  intro here there front back
  have told : here.1 = _ := ((Keeps.start data).run_listing calls).1
  have toldThere : there.1 = _ := ((Keeps.start other).run_listing calls).1
  obtain ⟨whole, takenFront, takenBack⟩ := run_listing_ofBytes calls data
  obtain ⟨wholeThere, takenFrontThere, takenBackThere⟩ := run_listing_ofBytes calls other
  have start : (Ledger.start other).Alike (.start data) := ⟨rfl, length, rfl⟩
  have ends := start.enterAll calls
  refine ⟨⟨Dialogue.map_call_listing calls _, Dialogue.map_call_listing calls _⟩,
    ⟨takenFrontThere.trans (ends.front.trans takenFront.symm),
      takenBackThere.trans (ends.back.trans takenBack.symm)⟩, ?_, ?_, ?_, ?_⟩
  · rw [told, toldThere, ← List.filterMap_eq_map]
    apply start.filterMap_converse
    intro request left octets octets'
    exact congrArg some (request.fault?_answer left octets octets')
  · rw [told, toldThere, ← List.filterMap_eq_filter]
    apply start.filterMap_converse
    intro request left octets octets'
    by_cases silent : request.side? = none
    · rw [request.answer_of_side?_none silent left octets octets']
    · simp [Option.guard, silent]
  · intro same
    rw [told, toldThere]
    refine (start.filter_converse .front calls (ends.front_eq ?_)).2
    rw [wholeThere, whole, ← takenFront]
    exact same
  · intro same
    rw [told, toldThere]
    refine (start.filter_converse .back calls (ends.back_eq ?_)).2
    rw [wholeThere, whole, ← takenBack]
    exact same

/-- The inputs differ in one octet that is taken for neither the text nor the word. -/
theorem sides_undisturbed_between :
    let calls := [.string 2, .u16, .u64In 5 1, .remaining, .i64In (-300) 300]
    let here := (Dialogue.listing calls).run (ofBytes [0x61, 0x62, 9, 4, 3, 2, 1])
    let there := (Dialogue.listing calls).run (ofBytes [0x61, 0x62, 8, 4, 3, 2, 1])
    there.1.filter (fun exchange => exchange.call.side? = some .front) =
        here.1.filter (fun exchange => exchange.call.side? = some .front) ∧
      there.1.filter (fun exchange => exchange.call.side? = some .back) =
        here.1.filter (fun exchange => exchange.call.side? = some .back) := by
  obtain ⟨_, _, _, _, front, back⟩ := sides_undisturbed
    [.string 2, .u16, .u64In 5 1, .remaining, .i64In (-300) 300]
    [0x61, 0x62, 9, 4, 3, 2, 1] [0x61, 0x62, 8, 4, 3, 2, 1] rfl
  exact ⟨front (by decide +kernel), back (by decide +kernel)⟩

end Cursor

end FuzzHarness
