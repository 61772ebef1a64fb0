import FuzzHarness.Proofs.Input.Ledger

/-!
# Values drawn from a range

A range takes octets from the back, just enough to write the distance of its ends. The number
that they write is reduced by how many values the range has, and leads from the lower end to
the answer. The distance is the same for unsigned and signed words, so that both kinds of
ranges are drawn from in one way. Conversely the octets that write the distance of a value
from the lower end are an input for it.
-/

namespace FuzzHarness

/-- How the words of one kind are requested from ranges, handed out and counted. What a range
asks for and what is made of it are said with numbers only. -/
structure Call.ReadsRanges {Word : Type} [LE Word] (range : Word → Word → Call)
    (value : Word → Value) (number : Word → Int) : Prop where
  injective : Function.Injective number
  le_iff {low high : Word} : low ≤ high ↔ number low ≤ number high
  demand (min max : Word) (left : Nat) :
    (range min max).demand left = .back (Bytes.widthOf (number max - number min).toNat)
  answer {min max : Word} (ordered : min ≤ max) (rest : Bytes) :
    ∃ word, (range min max).answer rest.length ((range min max).taken rest) = .ok (value word) ∧
      number word = number min +
        (Bytes.number ((range min max).taken rest) : Int) % (number max - number min + 1)

namespace Call.ReadsRanges

theorem unsigned : ReadsRanges .u64In .u64 fun word => (word.toNat : Int) where
  injective _ _ same := UInt64.toNat_inj.mp (Int.ofNat_inj.mp same)
  le_iff := UInt64.le_iff_toNat_le.trans Int.ofNat_le.symm
  demand min max left := by
    rw [Call.demand, Int.toNat_sub]
  answer := by
    intro min max ordered rest
    have inOrder : (Call.u64In min max).isOrdered = true := decide_eq_true ordered
    obtain ⟨value, answered, reads⟩ := exists_reads inOrder rest
    cases value with
    | u64 word =>
        refine ⟨word, answered, ?_⟩
        have size : ((max.toNat - min.toNat : Nat) : Int) = max.toNat - min.toNat :=
          Int.ofNat_sub (UInt64.le_iff_toNat_le.mp ordered)
        rw [Reads] at reads
        rw [reads, ← size]
        norm_cast
    | _ => cases reads

theorem signed : ReadsRanges .i64In .i64 Int64.toInt where
  injective _ _ same := Int64.toInt_inj.mp same
  le_iff := Int64.le_iff_toInt_le
  demand _ _ _ := rfl
  answer := by
    intro min max ordered rest
    have inOrder : (Call.i64In min max).isOrdered = true := decide_eq_true ordered
    obtain ⟨value, answered, reads⟩ := exists_reads inOrder rest
    cases value with
    | i64 word => exact ⟨word, answered, reads⟩
    | _ => cases reads

end Call.ReadsRanges

namespace Cursor

/-- A number between two ends is made of octets from the back. -/
structure Draws (cursor : Cursor) (min max : Int) (octets : Bytes) (n : Int)
    (after : Cursor) : Prop where
  /-- They are the last ones that are left, in reverse order. -/
  rest : cursor.rest = after.rest ++ octets.reverse
  /-- They are as many as it takes to write the distance of the ends, or all that are left. -/
  count : octets.length = Nat.min (Bytes.widthOf (max - min).toNat) cursor.left
  back : cursor.back = after.back + octets.length
  front : after.front = cursor.front
  data : after.data = cursor.data
  number : n = min + (Bytes.number octets : Int) % (max - min + 1)

/-- A cursor answers ranges of one kind of words. If the ends are in order, the answer is drawn
between them from the back, and no step of this leaves the bounds of its word. Every word
between the ends is the answer to some input. -/
structure CoversRanges {Word : Type} [LE Word] (cursor : Cursor) (range : Word → Word → Call)
    (value : Word → Value) (number : Word → Int) : Prop where
  draws (min max : Word) (ordered : min ≤ max) : ∃ word octets after,
    cursor.call (range min max) = (.ok (value word), after) ∧
      cursor.checkedCall (range min max) = some (.ok (value word), after) ∧
      cursor.Draws (number min) (number max) octets (number word) after ∧
      min ≤ word ∧ word ≤ max
  reaches (min max word : Word) (low : min ≤ word) (high : word ≤ max) :
    ∃ data, ((cursor.feed data).call (range min max)).1 = .ok (value word)

/-- A number that is drawn lies between the ends. -/
theorem Draws.mem {cursor after : Cursor} {min max n : Int} {octets : Bytes}
    (draws : cursor.Draws min max octets n after) (ordered : min ≤ max) : min ≤ n ∧ n ≤ max := by
  have := draws.number
  have := Int.emod_nonneg (Bytes.number octets : Int) (show max - min + 1 ≠ 0 by omega)
  have := Int.emod_lt_of_pos (Bytes.number octets : Int) (show 0 < max - min + 1 by omega)
  omega

variable {Word : Type} [LE Word] {range : Word → Word → Call} {value : Word → Value}
  {number : Word → Int}

/-- A range whose ends are in order is drawn from. -/
theorem Keeps.exists_draws {cursor : Cursor} {ledger : Ledger} (keeps : cursor.Keeps ledger)
    (ranges : Call.ReadsRanges range value number) {min max : Word} (ordered : min ≤ max) :
    ∃ word after, cursor.call (range min max) = (.ok (value word), after) ∧
      cursor.Draws (number min) (number max) ((range min max).taken ledger.rest) (number word)
        after := by
  obtain ⟨word, answered, reduced⟩ := ranges.answer ordered ledger.rest
  have called := keeps.call_eq (range min max)
  rw [answered, ranges.demand] at called
  have taken : (range min max).taken ledger.rest =
      (Demand.back (Bytes.widthOf (number max - number min).toNat)).of ledger.rest := by
    rw [Call.taken, ranges.demand]
  have count : ((range min max).taken ledger.rest).length =
      Nat.min (Bytes.widthOf (number max - number min).toNat) cursor.left := by
    rw [taken, keeps.left, Demand.of, List.length_take, List.length_reverse]
  refine ⟨word, _, called, ?_, count, ?_, rfl, rfl, reduced⟩
  · rw [(keeps.moves _).rest, taken, keeps.rest]
    exact (ledger.rest_take_back _).symm
  · rw [count]
    exact (Nat.sub_add_cancel (Nat.le_trans (Nat.min_le_right _ _) (Nat.sub_le _ _))).symm

/-- The octets that write the distance of a value from the lower end are an input for it. -/
theorem exists_feed (ranges : Call.ReadsRanges range value number) {min max word : Word}
    (low : min ≤ word) (high : word ≤ max) (cursor : Cursor) :
    ∃ data, ((cursor.feed data).call (range min max)).1 = .ok (value word) := by
  rw [ranges.le_iff] at low high
  obtain ⟨octets, length, writes⟩ := Bytes.exists_number_eq (number word - number min).toNat
  have fed : (cursor.feed octets.reverse).Keeps (.start octets.reverse) := Keeps.start _
  have ordered : min ≤ max := ranges.le_iff.mpr (Int.le_trans low high)
  obtain ⟨found, after, called, draws⟩ := fed.exists_draws ranges ordered
  -- A value within the range takes no more octets to write than the range asks for.
  have all : (range min max).taken octets.reverse = octets := by
    have short : octets.length ≤ Bytes.widthOf (number max - number min).toNat := by
      rw [length]
      exact Bytes.widthOf_le_of_le (Int.toNat_le_toNat (by omega))
    rw [Call.taken, ranges.demand, Demand.of, List.reverse_reverse, List.take_of_length_le short]
  have same : found = word := by
    apply ranges.injective
    rw [draws.number, Ledger.start, all, writes, Int.toNat_of_nonneg (by omega),
      Int.emod_eq_of_lt (by omega) (by omega)]
    omega
  exact ⟨octets.reverse, by rw [called, same]⟩

/-- What is known of a kind of words holds at any cursor whose positions divide its input. -/
theorem Keeps.coversRanges {cursor : Cursor} {ledger : Ledger} (keeps : cursor.Keeps ledger)
    (ranges : Call.ReadsRanges range value number) : cursor.CoversRanges range value number where
  draws min max ordered := by
    obtain ⟨word, after, called, draws⟩ := keeps.exists_draws ranges ordered
    obtain ⟨low, high⟩ := draws.mem (ranges.le_iff.mp ordered)
    refine ⟨word, _, after, called, ?_, draws, ranges.le_iff.mpr low, ranges.le_iff.mpr high⟩
    rw [keeps.inOrder.checkedCall_eq, called]
  reaches min max word low high := exists_feed ranges low high cursor

/-- Whatever was done with a cursor before, it covers all ranges of unsigned and of signed
words. The full ranges, whose size is no word, and the signed ranges that straddle zero, whose
size is no signed word, are no exception. -/
theorem ranges_covered (steps : List Step) :
    (empty.performAll steps).CoversRanges .u64In .u64 (fun word => (word.toNat : Int)) ∧
      (empty.performAll steps).CoversRanges .i64In .i64 Int64.toInt :=
  have keeps := (Keeps.start []).performAll steps
  ⟨keeps.coversRanges .unsigned, keeps.coversRanges .signed⟩

/-- The full signed range is drawn from where nothing is left, and some input leads to a value
next to zero. -/
theorem ranges_covered_full :
    (∃ word octets after, empty.call (.i64In Int64.minValue Int64.maxValue) =
        (.ok (.i64 word), after) ∧
      empty.Draws Int64.minValue.toInt Int64.maxValue.toInt octets word.toInt after) ∧
      ∃ data, ((empty.feed data).call (.i64In Int64.minValue Int64.maxValue)).1 =
        .ok (.i64 (-1)) := by
  obtain ⟨_, signed⟩ := ranges_covered []
  obtain ⟨word, octets, after, called, _, draws, _⟩ :=
    signed.draws Int64.minValue Int64.maxValue (by decide)
  exact ⟨⟨word, octets, after, called, draws⟩, signed.reaches _ _ _ (by decide) (by decide)⟩

end Cursor

end FuzzHarness
