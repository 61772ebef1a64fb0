import FuzzHarness.Toml.Reader

/-!
# Dates and times

A date, a time of day, or a date with a time and possibly its offset. All parts have a
fixed number of digits, but for the fraction of a second.
-/

namespace FuzzHarness.Toml.Reader

/-- So many digits. -/
def figures (count : Nat) : Reader Nat := do
  let rest ← get
  let digits := rest.take count
  if digits.length = count ∧ digits.all Char.isDigit then
    set (rest.drop count)
    return digits.foldl (fun value c => value * 10 + (c.toNat - 48)) 0
  else refuse none []

def part (low high : Nat) : Reader Nat := do
  let start ← get
  let value ← figures 2
  if low ≤ value ∧ value ≤ high then return value else refuseFor .outOfRange start

def daysIn (year month : Nat) : Nat :=
  let isLeap := year % 4 = 0 ∧ (year % 100 ≠ 0 ∨ year % 400 = 0)
  if month = 2 then if isLeap then 29 else 28
  else if [4, 6, 9, 11].contains month then 30
  else 31

/-- A day of the calendar. Four digits and a dash begin nothing else. -/
def date : Reader Unit := do
  let year ← figures 4
  mark '-'
  commit do
    let month ← part 1 12
    mark '-'
    let start ← get
    let day ← part 1 31
    if daysIn year month < day then refuseFor .outOfRange start

/-- A time of day. Two digits and a colon begin nothing else. -/
def time : Reader Unit := do
  let _ ← part 0 23
  mark ':'
  commit do
    let _ ← part 0 59
    mark ':'
    let _ ← part 0 60
    let _ ← attempt do
      mark '.'
      let fraction ← run Char.isDigit
      if fraction.isEmpty then refuse none []

/-- How far a time is from the universal time. -/
def offset : Reader Unit := named "time offset" do
  match ← get with
  | 'Z' :: rest => set rest
  | 'z' :: rest => set rest
  | sign :: rest =>
    if sign = '+' ∨ sign = '-' then
      set rest
      commit do
        let _ ← part 0 23
        mark ':'
        let _ ← part 0 59
    else refuse none []
  | [] => refuse none []

def timeOfDate : Reader Unit := do
  match ← get with
  | mark :: rest =>
    if mark = 'T' ∨ mark = 't' ∨ mark = ' ' then set rest else refuse none []
  | [] => refuse none []
  time
  let _ ← attempt offset

/-- A date, a time or both, as the document has it. -/
def moment : Reader String := do
  let start ← get
  match ← attempt (named "date-time" do date; let _ ← attempt timeOfDate) with
  | some _ => pure ()
  | none => named "time" time
  return String.ofList (start.take (start.length - (← get).length))

end FuzzHarness.Toml.Reader
