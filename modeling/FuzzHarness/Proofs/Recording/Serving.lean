import FuzzHarness.Proofs.Input.Agreement
import FuzzHarness.Proofs.Input.Possible

/-!
# What a replay serves

A recording can be edited by hand, so nothing is known about its values. A replay removes the
next one with every call, and what it refuses, no input yields for the call. It is less strict
about what it serves: a text may have three octets for each octet of input that may be taken,
which is what replacement characters come to but no other text does, and a count of octets may
be larger than any input.
-/

namespace FuzzHarness

/-- How long the octets or the text for a call may be, if a replay limits it. -/
def Call.sizeLimit? : Call → Option Nat
  | .bytes most => some most
  | .string most => some (3 * most)
  | _ => none

/-- A value that a replay accepts is within the limit. -/
theorem Call.size_le_of_accepts {request : Call} {value : Value}
    (accepts : request.accepts value = true) {limit : Nat}
    (limited : request.sizeLimit? = some limit) : value.size ≤ limit := by
  cases request with
  | bytes most =>
      cases limited
      cases value with
      | bytes octets => exact of_decide_eq_true accepts
      | _ => cases accepts
  | string most =>
      cases limited
      cases value with
      | str text => exact (Nat.le_min.mp (of_decide_eq_true accepts)).1
      | _ => cases accepts
  | _ => cases limited

namespace Replay

/-- How a replay answers a call when this value is next, or none. -/
def answerTo (request : Call) : Option Value → Except CallFault Value
  | none => .error (.exhausted request)
  | some value => if request.accepts value then .ok value else .error (.diverged request value)

/-- What an answer to a call has to do with the value that was next, if there was one. -/
inductive Serves (request : Call) : Option Value → Except CallFault Value → Prop where
  /-- There is none. -/
  | exhausted : Serves request none (.error (.exhausted request))
  /-- No input yields the value. -/
  | diverged (value : Value)
      (impossible : value.size < UInt64.size → ¬ request.Possible value) :
      Serves request (some value) (.error (.diverged request value))
  /-- The value is handed out. Some input yields it as long as it stands for no more octets
  than an input has and, if a string was asked for, than may be taken for that. -/
  | served (value : Value)
      (limited : ∀ limit, request.sizeLimit? = some limit → value.size ≤ limit)
      (possible : request.Possible value ↔ value.extent ≤ largestInput ∧
        ∀ most, request = .string most → value.extent ≤ most) :
      Serves request (some value) (.ok value)

theorem serves_answerTo (request : Call) (next : Option Value) :
    Serves request next (answerTo request next) := by
  cases next with
  | none => exact .exhausted
  | some value =>
      rw [answerTo]
      split
      · next accepts =>
        exact .served value (fun _ => Call.size_le_of_accepts accepts)
          (Call.possible_iff_of_accepts accepts)
      · next refuses =>
        exact .diverged value fun fits possible =>
          refuses (Call.accepts_of_possible possible fits)

/-- A call is answered from the next value, which is removed. -/
theorem call_eq (request : Call) (pending : Recording) :
    Provider.call request (Replay.mk pending) =
      (answerTo request pending.head?, ⟨pending.tail⟩) := by
  cases pending with
  | nil => rfl
  | cons value rest =>
      change (if request.accepts value then (Except.ok value, Replay.mk rest)
        else (.error (.diverged request value), Replay.mk rest)) =
          (answerTo request (some value), _)
      rw [answerTo]
      split <;> rfl

/-- The calls of a dialogue are answered from the values in order, whether they panic or not;
those after the last call stay pending. -/
theorem run_eq (dialogue : Dialogue) (recording : Recording) :
    (dialogue.run (Replay.mk recording)).2 =
        ⟨recording.drop (dialogue.run (Replay.mk recording)).1.length⟩ ∧
      ∀ (place : Nat) (exchange : Exchange),
        (dialogue.run (Replay.mk recording)).1[place]? = some exchange →
          exchange.answer = answerTo exchange.call recording[place]? := by
  induction dialogue generalizing recording with
  | close =>
      refine ⟨rfl, ?_⟩
      intro place exchange made
      rw [Dialogue.run, List.getElem?_nil] at made
      cases made
  | ask request next ih =>
      rw [Dialogue.run_ask (call_eq request recording)]
      obtain ⟨left, answers⟩ := ih (answerTo request recording.head?) recording.tail
      constructor
      · rw [left, List.drop_tail, List.length_cons]
      · intro place exchange made
        cases place with
        | zero =>
            obtain rfl := Option.some.inj made
            rw [← List.head?_eq_getElem?]
        | succ place =>
            rw [answers place exchange made, List.getElem?_tail]

/-- Take any dialogue with a replay of any values. After so many calls, so many values are
gone; and each call is answered from the value in its place. The call panics if there is none,
or if no input yields the value for it. Otherwise the value is handed out, and some input
yields it just if it stands for no more octets than an input has and, where a string of a
given length was asked for, for no more octets than that. -/
theorem served_possible_iff (dialogue : Dialogue) (recording : Recording) :
    (∀ count, ((dialogue.first count).run (Replay.mk recording)).2.pending =
        recording.drop (min count (dialogue.run (Replay.mk recording)).1.length)) ∧
      ∀ (place : Nat) (exchange : Exchange),
        (dialogue.run (Replay.mk recording)).1[place]? = some exchange →
          Serves exchange.call recording[place]? exchange.answer := by
  constructor
  · intro count
    rw [(run_eq (dialogue.first count) recording).1, Dialogue.run_first, List.length_take]
  · intro place exchange made
    rw [(run_eq dialogue recording).2 place exchange made]
    exact serves_answerTo exchange.call recording[place]?

/-- Six octets of text are handed out where two octets may be taken, and a count that is
above the size of any input. -/
theorem served_possible_iff_edited :
    ¬ (Call.string 2).Possible (.str "abcdef") ∧
      ¬ Call.remaining.Possible (.remaining 0x8000000000000000) := by
  let dialogue : Dialogue := .ask (.string 2) fun _ => .ask .remaining fun _ => .close
  obtain ⟨_, served⟩ :=
    served_possible_iff dialogue [.str "abcdef", .remaining 0x8000000000000000]
  constructor
  · cases served 0 ⟨.string 2, .ok (.str "abcdef")⟩ rfl with
    | served _ _ possible =>
        rw [possible]
        rintro ⟨_, asked⟩
        have least : ¬ (Value.str "abcdef").extent ≤ 2 := by decide +kernel
        exact least (asked 2 rfl)
  · cases served 1 ⟨.remaining, .ok (.remaining 0x8000000000000000)⟩ rfl with
    | served _ _ possible =>
        rw [possible]
        rintro ⟨short, _⟩
        exact absurd short (by decide +kernel)

end Replay

end FuzzHarness
