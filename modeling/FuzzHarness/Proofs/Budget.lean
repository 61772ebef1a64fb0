import FuzzHarness.Budget
import Mathlib.Data.Finset.Card

/-!
# What a budget knows

A set of tokens made from a list holds each token of it once. A budget of more than one
lets a token pass if it does not know it, and then knows it; a budget of one lets every
token pass. Either is used up by its number of distinct tokens.
-/

namespace FuzzHarness

namespace TokenSet

theorem contains_iff {set : TokenSet} {token : UInt64} :
    set.contains token = true ↔ token ∈ set.tokens :=
  List.contains_iff_mem

theorem mem_foldl_insert {set : TokenSet} {tokens : List UInt64} {token : UInt64} :
    token ∈ (tokens.foldl insert set).tokens ↔ token ∈ tokens ∨ token ∈ set.tokens := by
  induction tokens generalizing set with
  | nil => exact ⟨Or.inr, fun mem => mem.resolve_left List.not_mem_nil⟩
  | cons head rest ih =>
      rw [List.foldl_cons, ih, mem_insert, List.mem_cons]
      constructor
      · rintro (mem | same | mem)
        · exact .inl (.inr mem)
        · exact .inl (.inl same)
        · exact .inr mem
      · rintro ((same | mem) | mem)
        · exact .inr (.inl same)
        · exact .inl mem
        · exact .inr (.inr mem)

theorem mem_ofList {tokens : List UInt64} {token : UInt64} :
    token ∈ (ofList tokens).tokens ↔ token ∈ tokens :=
  mem_foldl_insert.trans ⟨fun mem => mem.resolve_right List.not_mem_nil, Or.inl⟩

/-- The size of a set made from a list is the number of distinct tokens on the list. -/
theorem size_ofList (tokens : List UInt64) : (ofList tokens).size = tokens.toFinset.card := by
  have same : tokens.toFinset = (ofList tokens).tokens.toFinset := by
    ext token
    rw [List.mem_toFinset, List.mem_toFinset, mem_ofList]
  rw [same, List.toFinset_card_of_nodup (ofList tokens).distinct, size]

end TokenSet

namespace Budget

/-- A limit is one or more. -/
theorem eq_one_or_one_lt {limit : UInt64} (positive : limit ≠ 0) : limit = 1 ∨ 1 < limit := by
  have nonzero : limit.toNat ≠ 0 := by
    intro zero
    exact positive (UInt64.toNat_inj.mp zero)
  rcases Nat.lt_trichotomy 1 limit.toNat with many | one | none
  · exact .inr (UInt64.lt_iff_toNat_lt.mpr many)
  · exact .inl (UInt64.toNat_inj.mp one.symm)
  · omega

variable {budget : Budget} {token : UInt64}

theorem offer_of_one (single : budget.limit ≤ 1) (token : UInt64) :
    budget.offer token = (.report, budget) :=
  if_pos single

theorem offer_of_known (many : 1 < budget.limit) (known : token ∈ budget.known.tokens) :
    budget.offer token = (.suppress, budget) := by
  rw [offer, if_neg (UInt64.not_le.mpr many), if_pos (TokenSet.contains_iff.mpr known)]

theorem offer_of_new (many : 1 < budget.limit) (new : token ∉ budget.known.tokens) :
    budget.offer token =
      (.report, { budget with known := budget.known.insert token }) := by
  rw [offer, if_neg (UInt64.not_le.mpr many),
    if_neg (fun known => new (TokenSet.contains_iff.mp known))]

/-- An offer leaves the limit as it is. -/
theorem offer_limit (budget : Budget) (token : UInt64) :
    (budget.offer token).2.limit = budget.limit := by
  rw [offer]
  split
  · rfl
  · split <;> rfl

/-- An offer makes no token unknown. -/
theorem mem_offer_of_mem {other : UInt64} (known : other ∈ budget.known.tokens) (token : UInt64) :
    other ∈ (budget.offer token).2.known.tokens := by
  rw [offer]
  split
  · exact known
  · split
    · exact known
    · exact TokenSet.mem_insert.mpr (.inr known)

end Budget

end FuzzHarness
