/-!
# Blank characters

The characters with the White_Space property, and the trimming of text by them.
-/

namespace FuzzHarness.Text

/-- The twenty-five characters with the White_Space property. -/
def isBlank (c : Char) : Bool :=
  let code := c.toNat
  (9 ≤ code && code ≤ 13) || code == 0x20 || code == 0x85 || code == 0xA0 || code == 0x1680 ||
    (0x2000 ≤ code && code ≤ 0x200A) || code == 0x2028 || code == 0x2029 || code == 0x202F ||
    code == 0x205F || code == 0x3000

/-- Text without the blanks at its start. -/
def trimStart (text : List Char) : List Char :=
  text.dropWhile isBlank

/-- Text without the blanks at its end. -/
def trimEnd (text : List Char) : List Char :=
  (text.reverse.dropWhile isBlank).reverse

/-- Text without the blanks at either end. -/
def trim (text : List Char) : List Char :=
  trimEnd (trimStart text)

@[simp] theorem trim_nil : trim [] = [] := rfl

private theorem dropWhile_isBlank_eq_self {text : List Char}
    (h : ∀ c ∈ text, isBlank c = false) : text.dropWhile isBlank = text := by
  cases text with
  | nil => rfl
  | cons c text => simp [h c List.mem_cons_self]

/-- Text without blanks is trimmed already. -/
theorem trim_eq_self {text : List Char} (h : ∀ c ∈ text, isBlank c = false) :
    trim text = text := by
  rw [trim, trimStart, dropWhile_isBlank_eq_self h, trimEnd, dropWhile_isBlank_eq_self,
    List.reverse_reverse]
  intro c mem
  exact h c (List.mem_reverse.mp mem)

/-- Blanks around a text make no difference to it once it is trimmed. -/
theorem trim_append_append {before after : List Char} (blankBefore : ∀ c ∈ before, isBlank c = true)
    (blankAfter : ∀ c ∈ after, isBlank c = true) (text : List Char) :
    trim (before ++ text ++ after) = trim text := by
  have started : trimStart (before ++ text ++ after) = trimStart (text ++ after) := by
    rw [List.append_assoc]
    exact List.dropWhile_append_of_pos blankBefore
  have nothing : after.dropWhile isBlank = [] := by
    have passed : (after ++ []).dropWhile isBlank = [] := List.dropWhile_append_of_pos blankAfter
    simpa using passed
  have reversed : ∀ c ∈ after.reverse, isBlank c = true :=
    fun c mem => blankAfter c (List.mem_reverse.mp mem)
  rw [trim, trim, started, trimStart, trimStart, List.dropWhile_append]
  split
  · next empty =>
    rw [nothing, List.isEmpty_iff.mp empty]
  · rw [trimEnd, trimEnd, List.reverse_append, List.dropWhile_append_of_pos reversed]

end FuzzHarness.Text
