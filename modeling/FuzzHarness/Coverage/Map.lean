/-!
# Coverage maps

The coverage points a target has marked, and those among them that were marked when
startup coverage was last recorded. Both are kept in ascending order without
repeats.
-/

namespace FuzzHarness

/-- The points hit so far, and the points hit during startup. -/
structure CoverageMap where
  covered : List UInt32
  startup : List UInt32
  deriving DecidableEq, Repr

namespace CoverageMap

def empty : CoverageMap :=
  ⟨[], []⟩

/-- Put an identifier into its place among ascending ones, unless it is there. -/
def insert (id : UInt32) : List UInt32 → List UInt32
  | [] => [id]
  | head :: rest =>
    if id < head then id :: head :: rest
    else if id = head then head :: rest
    else head :: insert id rest

theorem mem_insert {id other : UInt32} {ids : List UInt32} :
    other ∈ insert id ids ↔ other = id ∨ other ∈ ids := by
  induction ids with
  | nil => simp [insert]
  | cons head rest ih =>
    unfold insert
    split
    · simp
    · split
      · next h => simp [h]
      · simp [ih, or_left_comm]

/-- Inserting keeps identifiers in ascending order without repeats. -/
theorem pairwise_insert {id : UInt32} {ids : List UInt32} (h : ids.Pairwise (· < ·)) :
    (insert id ids).Pairwise (· < ·) := by
  induction ids with
  | nil => simp [insert]
  | cons head rest ih =>
    obtain ⟨below, sorted⟩ := List.pairwise_cons.mp h
    unfold insert
    split
    · next before =>
      refine List.pairwise_cons.mpr ⟨fun other mem => ?_, h⟩
      rcases List.mem_cons.mp mem with rfl | mem
      · exact before
      · exact UInt32.lt_trans before (below other mem)
    · next notBefore =>
      split
      · exact h
      · next differs =>
        refine List.pairwise_cons.mpr ⟨fun other mem => ?_, ih sorted⟩
        rcases mem_insert.mp mem with rfl | mem
        · exact UInt32.lt_of_le_of_ne (UInt32.not_lt.mp notBefore) (Ne.symm differs)
        · exact below other mem

/-- Look for an identifier among ascending ones, halving what is left of them. -/
def search (id : UInt32) (ids : List UInt32) : Bool :=
  match upper : ids.drop (ids.length / 2) with
  | [] => false
  | middle :: above =>
    if id = middle then true
    else if id < middle then search id (ids.take (ids.length / 2))
    else search id above
termination_by ids.length
decreasing_by
  all_goals
    have size := congrArg List.length upper
    simp only [List.length_drop, List.length_cons, List.length_take] at size ⊢
    omega

/-- Ascending identifiers, cut before one of them. -/
theorem of_drop_eq_cons {middle : UInt32} {ids above : List UInt32} {count : Nat}
    (upper : ids.drop count = middle :: above) (h : ids.Pairwise (· < ·)) :
    (∀ id, id ∈ ids ↔ id ∈ ids.take count ∨ id = middle ∨ id ∈ above) ∧
      ((ids.take count).Pairwise (· < ·) ∧ ∀ id ∈ ids.take count, id < middle) ∧
      above.Pairwise (· < ·) ∧ ∀ id ∈ above, middle < id := by
  have whole := List.take_append_drop count ids
  rw [upper] at whole
  rw [← whole] at h
  obtain ⟨lower, rest, apart⟩ := List.pairwise_append.mp h
  obtain ⟨after, higher⟩ := List.pairwise_cons.mp rest
  refine ⟨?_, ⟨lower, fun id mem => apart id mem middle List.mem_cons_self⟩, higher, after⟩
  intro id
  have split : id ∈ ids ↔ id ∈ ids.take count ++ middle :: above := by rw [whole]
  simpa using split

/-- Among ascending identifiers the search finds just those that are there. -/
theorem search_iff {id : UInt32} {ids : List UInt32} (h : ids.Pairwise (· < ·)) :
    search id ids = true ↔ id ∈ ids := by
  fun_induction search id ids with
  | case1 ids upper =>
    have size := congrArg List.length upper
    simp only [List.length_drop, List.length_nil] at size
    have nothing : ids = [] := List.eq_nil_of_length_eq_zero (by omega)
    simp [nothing]
  | case2 ids above upper =>
    obtain ⟨split, _⟩ := of_drop_eq_cons upper h
    simp [split]
  | case3 ids middle above upper differs before ih =>
    obtain ⟨split, ⟨lower, _⟩, _, after⟩ := of_drop_eq_cons upper h
    have notAbove : id ∉ above := fun mem => UInt32.lt_asymm before (after id mem)
    simp [ih lower, split, differs, notAbove]
  | case4 ids middle above upper differs notBefore ih =>
    obtain ⟨split, ⟨_, below⟩, higher, _⟩ := of_drop_eq_cons upper h
    have notBelow : id ∉ ids.take (ids.length / 2) := fun mem => notBefore (below id mem)
    simp [ih higher, split, differs, notBelow]

def mark (map : CoverageMap) (id : UInt32) : CoverageMap :=
  { map with covered := insert id map.covered }

/-- Take the points hit so far for those hit during startup. -/
def recordStartup (map : CoverageMap) : CoverageMap :=
  { map with startup := map.covered }

end CoverageMap

end FuzzHarness
