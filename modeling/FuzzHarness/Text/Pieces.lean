/-!
# Cutting and filling text

Lines, separators and placeholders. Every search takes the first occurrence from
its own end and never overlaps an earlier one.
-/

namespace FuzzHarness.Text

/-- Complete a line that was read backwards and ended in a line feed: a carriage
return just before the line feed belongs to the line break. -/
def closeLine : List Char → List Char
  | '\r' :: reversed => reversed.reverse
  | reversed => reversed.reverse

/-- Collect lines, `reversed` being what is already read of the current one. -/
def linesFrom (reversed : List Char) : List Char → List (List Char)
  | [] => if reversed.isEmpty then [] else [reversed.reverse]
  | c :: rest =>
    if c = '\n' then closeLine reversed :: linesFrom [] rest else linesFrom (c :: reversed) rest

/-- The lines of a text. A line feed ends a line, with the carriage return before
it if there is one; an empty last line does not count. -/
def lines (text : List Char) : List (List Char) :=
  linesFrom [] text

def dropPrefix? (start : List Char) (text : List Char) : Option (List Char) :=
  match start, text with
  | [], text => some text
  | _ :: _, [] => none
  | s :: start, c :: text => if s = c then dropPrefix? start text else none

def dropSuffix? (tail : List Char) (text : List Char) : Option (List Char) :=
  (dropPrefix? tail.reverse text.reverse).map List.reverse

def startsWith (start text : List Char) : Bool :=
  (dropPrefix? start text).isSome

/-- Cut at the first occurrence of a nonempty separator. -/
def splitFirst (separator : List Char) : List Char → Option (List Char × List Char)
  | [] => none
  | c :: rest =>
    match dropPrefix? separator (c :: rest) with
    | some after => some ([], after)
    | none => (splitFirst separator rest).map fun parts => (c :: parts.1, parts.2)

/-- Cut at the last occurrence of a nonempty separator. -/
def splitLast (separator text : List Char) : Option (List Char × List Char) :=
  (splitFirst separator.reverse text.reverse).map fun parts => (parts.2.reverse, parts.1.reverse)

def occursIn (piece text : List Char) : Bool :=
  (splitFirst piece text).isSome

/-- Replace occurrences, `skip` being how much of the last one is still to pass. -/
def replaceFrom (piece filling : List Char) : Nat → List Char → List Char
  | _, [] => []
  | skip + 1, _ :: rest => replaceFrom piece filling skip rest
  | 0, c :: rest =>
    if startsWith piece (c :: rest) then
      filling ++ replaceFrom piece filling (piece.length - 1) rest
    else
      c :: replaceFrom piece filling 0 rest

/-- Replace every occurrence of a nonempty piece, from left to right. The filling
is not searched again. -/
def replaceAll (piece filling text : List Char) : List Char :=
  replaceFrom piece filling 0 text

@[simp] theorem dropPrefix?_append (start rest : List Char) :
    dropPrefix? start (start ++ rest) = some rest := by
  induction start with
  | nil => simp [dropPrefix?]
  | cons c start ih => simp [dropPrefix?, ih]

theorem dropPrefix?_eq_some_iff {start text rest : List Char} :
    dropPrefix? start text = some rest ↔ text = start ++ rest := by
  induction start generalizing text with
  | nil => simp [dropPrefix?]
  | cons c start ih =>
    cases text with
    | nil => simp [dropPrefix?]
    | cons d text =>
      by_cases h : c = d
      · subst h
        simp [dropPrefix?, ih]
      · have h' : ¬ d = c := fun e => h e.symm
        simp [dropPrefix?, h, h']

end FuzzHarness.Text
