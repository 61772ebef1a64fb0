/-!
# Going on after findings

A budget of one stops at the first finding and never looks at the tokens seen
before. A larger budget suppresses every token that is already in the set, and goes
on until so many distinct tokens are in it, those put there in advance included.
-/

namespace FuzzHarness

structure TokenSet where
  tokens : List UInt64
  distinct : tokens.Nodup

namespace TokenSet

def empty : TokenSet :=
  ⟨[], List.nodup_nil⟩

def contains (set : TokenSet) (token : UInt64) : Bool :=
  set.tokens.contains token

/-- Add a token unless it is there. -/
def insert (set : TokenSet) (token : UInt64) : TokenSet :=
  if h : token ∈ set.tokens then set
  else ⟨token :: set.tokens, List.nodup_cons.mpr ⟨h, set.distinct⟩⟩

def ofList (tokens : List UInt64) : TokenSet :=
  tokens.foldl insert empty

def size (set : TokenSet) : Nat :=
  set.tokens.length

def isEmpty (set : TokenSet) : Bool :=
  set.tokens.isEmpty

theorem mem_insert {set : TokenSet} {token other : UInt64} :
    other ∈ (set.insert token).tokens ↔ other = token ∨ other ∈ set.tokens := by
  unfold insert
  split
  · next h =>
    constructor
    · exact Or.inr
    · rintro (rfl | h')
      · exact h
      · exact h'
  · simp

/-- A token counts once, however often it is added. -/
theorem size_insert (set : TokenSet) (token : UInt64) :
    (set.insert token).size = if token ∈ set.tokens then set.size else set.size + 1 := by
  unfold insert size
  split <;> simp

end TokenSet

inductive Admission where
  | report
  /-- The token is known already; the iteration ends silently. -/
  | suppress
  deriving DecidableEq, Repr

inductive Decision where
  | proceed
  | terminate
  deriving DecidableEq, Repr

/-- How many distinct findings end the run, and the tokens known so far. -/
structure Budget where
  limit : UInt64
  known : TokenSet

namespace Budget

/-- A budget of at least one. -/
def ofLimit (limit : UInt64) (known : TokenSet) : Budget :=
  ⟨max limit 1, known⟩

/-- Ask whether a finding with this token is reported; from now on it is known. -/
def offer (budget : Budget) (token : UInt64) : Admission × Budget :=
  if budget.limit ≤ 1 then (.report, budget)
  else if budget.known.contains token then (.suppress, budget)
  else (.report, { budget with known := budget.known.insert token })

def afterReport (budget : Budget) : Decision :=
  if budget.limit = 1 ∨ budget.limit.toNat ≤ budget.known.size then .terminate else .proceed

/-- How many distinct findings there are, tokens known in advance included. -/
def distinctFindings (budget : Budget) : Nat :=
  budget.known.size

end Budget

end FuzzHarness
