import FuzzHarness.Coverage.Sinks
import FuzzHarness.Proofs.Text.Decimal
import Mathlib.Data.List.Perm.Basic

/-!
# What coverage dumps and reports say

A dump is read back as an array of numbers, and a report line by line. The identifiers of a
report stand in the order in which they were given. Its marked lines are as many as it
counts, because every identifier hit during startup is among them.
-/

namespace FuzzHarness

namespace Text

/-- The number that a numeral writes. No zeros may stand before other digits. -/
def number? (text : List Char) : Option Nat :=
  if text ≠ [] ∧ text.all Char.isDigit = true ∧ (text.head? = some '0' → text = ['0']) then
    some (Nat.ofDigitChars 10 text 0)
  else none

/-- The numbers of an array in brackets, with a comma and nothing else between them. -/
def numbers? (text : List Char) : Option (List Nat) :=
  match (dropPrefix? ['['] text).bind (dropSuffix? [']']) with
  | none => none
  | some [] => some []
  | some items => (items.splitOn ',').mapM number?

@[simp] theorem number?_numeral (n : Nat) : number? (numeral n) = some n := by
  have plain : (numeral n).head? = some '0' → numeral n = ['0'] := by
    rcases Nat.eq_zero_or_pos n with rfl | positive
    · exact fun _ => rfl
    · exact fun zero => absurd zero (head?_numeral positive)
  have digits : (numeral n).all Char.isDigit = true :=
    List.all_eq_true.mpr fun c mem => isDigit_of_mem_numeral mem
  rw [number?, if_pos ⟨numeral_ne_nil n, digits, plain⟩]
  exact congrArg some Nat.ofDigitChars_ten_toDigits

/-- The numbers of an array are read back. -/
theorem numbers?_array (numbers : List Nat) :
    numbers? ('[' :: [','].intercalate (numbers.map numeral) ++ [']']) = some numbers := by
  have opened (items : List Char) :
      (dropPrefix? ['['] ('[' :: items ++ [']'])).bind (dropSuffix? [']']) = some items := by
    simp [dropPrefix?, dropSuffix?]
  have read : (numbers.map numeral).mapM number? = some numbers := by
    induction numbers with
    | nil => rfl
    | cons n numbers ih => simp [ih]
  rw [numbers?, opened]
  cases numbers with
  | nil => rfl
  | cons n numbers =>
      have free : ∀ piece ∈ (n :: numbers).map numeral, ',' ∉ piece := by
        intro piece mem comma
        obtain ⟨m, _, rfl⟩ := List.mem_map.mp mem
        exact absurd (isDigit_of_mem_numeral comma) (by decide)
      have cut := List.splitOn_intercalate ',' free (by simp)
      split
      · next nothing => cases nothing
      · next empty =>
        rw [Option.some.inj empty] at cut
        have first := (List.cons.inj cut).1
        exact absurd first.symm (numeral_ne_nil n)
      · next items same =>
        obtain rfl := Option.some.inj same
        rw [cut]
        exact read

end Text

namespace CoverageMap

open Text (numeral)

/-- The identifiers of a dump are read back. -/
theorem numbers?_dumpText (ids : List UInt32) :
    Text.numbers? (dumpText ids).toList = some (ids.map UInt32.toNat) := by
  have text : (dumpText ids).toList =
      '[' :: [','].intercalate ((ids.map UInt32.toNat).map numeral) ++ [']'] := by
    change ("[" ++ ",".intercalate (ids.map fun id => toString id.toNat) ++ "]").toList = _
    simp [numeral, Function.comp_def]
  rw [text]
  exact Text.numbers?_array _

def startupMark : List Char :=
  " (startup)".toList

def reportLine (startup : List UInt32) (id : UInt32) : List Char :=
  numeral id.toNat ++ if id ∈ startup then startupMark else []

/-- The lines of a report: two counts, then the identifiers in their order. -/
def reportLines (covered startup : List UInt32) : List (List Char) :=
  ("Covered ids: ".toList ++ numeral covered.length) ::
    ("Covered during startup: ".toList ++ numeral startup.length) ::
    covered.map (reportLine startup)

theorem isLine_reportLines (covered startup : List UInt32) :
    ∀ line ∈ reportLines covered startup, Text.IsLine line := by
  rw [reportLines]
  simp only [List.forall_mem_cons]
  refine ⟨Text.isLine_numeral (by decide +kernel) _, Text.isLine_numeral (by decide +kernel) _, ?_⟩
  intro line mem
  obtain ⟨id, _, rfl⟩ := List.mem_map.mp mem
  rw [reportLine]
  split
  · obtain ⟨free, _⟩ := @Text.isLine_numeral [] List.not_mem_nil id.toNat
    have mark : '\n' ∉ startupMark ∧ startupMark.getLast? = some ')' := by decide +kernel
    constructor
    · simpa [mark.1] using free
    · simp [List.getLast?_append, mark.2]
  · rw [List.append_nil]
    exact @Text.isLine_numeral [] List.not_mem_nil id.toNat

/-- A report has these lines if the startup identifiers, which are searched by halves, are
ascending. -/
theorem lines_reportText {map : CoverageMap} (h : map.startup.Pairwise (· < ·))
    (ids : List UInt32) :
    Text.lines (map.reportText ids).toList = reportLines ids map.startup := by
  have marker (id : UInt32) : (if search id map.startup then " (startup)" else "").toList =
      if id ∈ map.startup then startupMark else [] := by
    by_cases mem : id ∈ map.startup
    · have found := (search_iff h).mpr mem
      exact (congrArg String.toList (if_pos found)).trans (if_pos mem).symm
    · have missed := mt (search_iff h).mp mem
      exact (congrArg String.toList (if_neg missed)).trans (if_neg mem).symm
  have text : map.reportText ids = "Covered ids: " ++ toString ids.length ++ "\n" ++
      ("Covered during startup: " ++ toString map.startup.length ++ "\n") ++
      String.join (ids.map fun id =>
        toString id.toNat ++ (if search id map.startup then " (startup)" else "") ++ "\n") := rfl
  have ended : (map.reportText ids).toList =
      (reportLines ids map.startup).flatMap (· ++ ['\n']) := by
    have feed : "\n".toList = ['\n'] := rfl
    have digits (n : Nat) : (toString n).toList = numeral n := Nat.toList_repr
    rw [text, reportLines]
    simp only [String.toList_append, String.toList_join, List.flatMap_cons, List.flatMap_map,
      List.append_assoc, reportLine, feed, digits, marker]
  rw [ended]
  exact Text.lines_flatMap (isLine_reportLines ids map.startup)

/-- As many lines are marked as the report counts startup identifiers. -/
theorem countP_reportLines {covered startup : List UInt32} (distinct : covered.Nodup)
    (distinct' : startup.Nodup) (among : ∀ id ∈ startup, id ∈ covered) :
    (reportLines covered startup).countP (fun line => startupMark <:+ line) = startup.length := by
  have unmarked (start : List Char) (n : Nat) : ¬startupMark <:+ start ++ numeral n := by
    rintro ⟨front, same⟩
    obtain ⟨c, last, digit⟩ := Text.exists_getLast?_numeral start n
    have mark : startupMark.getLast? = some ')' := by decide +kernel
    rw [← same, List.getLast?_append, mark] at last
    obtain rfl := Option.some.inj last
    exact absurd digit (by decide)
  have marked (id : UInt32) : startupMark <:+ reportLine startup id ↔ id ∈ startup := by
    rw [reportLine]
    split
    · next mem => simp [mem]
    · next other =>
      rw [List.append_nil]
      simpa [other] using unmarked [] id.toNat
  have same : (covered.filter (· ∈ startup)).Perm startup := by
    refine (List.perm_ext_iff_of_nodup (distinct.filter _) distinct').mpr ?_
    intro id
    simpa using among id
  rw [reportLines, List.countP_cons, List.countP_cons, decide_eq_false (unmarked _ _),
    decide_eq_false (unmarked _ _), List.countP_map, ← same.length_eq,
    ← List.countP_eq_length_filter]
  apply List.countP_congr
  intro id _
  rw [Function.comp_apply, decide_eq_true_iff, decide_eq_true_iff, marked]

end CoverageMap

end FuzzHarness
