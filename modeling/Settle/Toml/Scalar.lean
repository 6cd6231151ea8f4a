import Settle.Toml.Value

/-!
# Numbers and dates in TOML

A number or a date is one word of the document. Its grammar is decided on the whole word:
underscores stand only between digits, whole numbers fit 64 bits, and dates exist.
-/

namespace Settle.Toml

def digit? (c : Char) : Option Nat := if c.isDigit then some (c.toNat - '0'.toNat) else none

def hexDigit? (c : Char) : Option Nat :=
  if c.isDigit then some (c.toNat - '0'.toNat)
  else if 'a' ≤ c ∧ c ≤ 'f' then some (c.toNat - 'a'.toNat + 10)
  else if 'A' ≤ c ∧ c ≤ 'F' then some (c.toNat - 'A'.toNat + 10)
  else none

/-- Digits with single underscores between them. -/
def spaced? (digit : Char → Option Nat) : List Char → Option (List Nat)
  | [] => none
  | [c] => (digit c).map ([·])
  | c :: '_' :: rest => do return (← digit c) :: (← spaced? digit rest)
  | c :: rest => do return (← digit c) :: (← spaced? digit rest)

/-- The number that some digits stand for in a base. -/
def positional (base : Nat) (digits : List Nat) : Nat :=
  digits.foldl (fun n d => n * base + d) 0

/-- Digits of a base below the given one. -/
def digitBelow? (base : Nat) (c : Char) : Option Nat :=
  (hexDigit? c).filter (· < base)

/-- A sign, and the rest of the word. -/
def signed : List Char → Bool × List Char
  | '+' :: rest => (false, rest)
  | '-' :: rest => (true, rest)
  | word => (false, word)

/-- Decimal digits of a whole number: no zero in front of another digit. -/
def whole? (word : List Char) : Option (List Nat) :=
  match word with
  | '0' :: _ :: _ => none
  | _ => spaced? digit? word

def inRange? (n : Int) : Option Int := if -Nat.pow 2 63 ≤ n ∧ n < Nat.pow 2 63 then some n else none

def integer? (word : List Char) : Option Int :=
  let ofBase := fun base digits => do
    inRange? (positional base (← spaced? (digitBelow? base) digits) : Nat)
  match word with
  | '0' :: 'x' :: digits => ofBase 16 digits
  | '0' :: 'o' :: digits => ofBase 8 digits
  | '0' :: 'b' :: digits => ofBase 2 digits
  | _ => do
    let (negative, digits) := signed word
    let n := positional 10 (← whole? digits)
    inRange? (if negative then -(n : Int) else n)

/-- The exponent of a float, after its mark. -/
def exponent? (word : List Char) : Option Int := do
  let (negative, digits) := signed word
  let n := positional 10 (← spaced? digit? digits)
  return if negative then -(n : Int) else n

def isExponentMark (c : Char) : Bool := c = 'e' || c = 'E'

/-- A float with a fraction, an exponent or both. One that is too large is refused; one that is
too small to be finite is negative infinity. -/
def float? (word : List Char) : Option Binary64 := do
  let (negative, word) := signed word
  let special := match word with
    | ['i', 'n', 'f'] => some (Binary64.infinite negative)
    | ['n', 'a', 'n'] => some .nan
    | _ => none
  if special.isSome then return ← special
  let mantissa := word.takeWhile fun c => !isExponentMark c
  let power := word.drop mantissa.length
  let lead := mantissa.takeWhile (· ≠ '.')
  let tail := mantissa.drop lead.length
  if power.isEmpty ∧ tail.isEmpty then none
  let lead ← whole? lead
  let tail ← if tail.isEmpty then some [] else spaced? digit? tail.tail
  let exponent ← if power.isEmpty then some 0 else exponent? power.tail
  let x := Binary64.ofDecimal negative (positional 10 (lead ++ tail)) (exponent - tail.length)
  if x = .infinite false then none else return x

/-! ## Dates and times -/

def fixed? (count : Nat) (word : List Char) : Option (Nat × List Char) := do
  if (word.take count).length < count then none
  return (positional 10 (← (word.take count).mapM digit?), word.drop count)

def mark? (c : Char) : List Char → Option (List Char)
  | d :: rest => if d = c then some rest else none
  | [] => none

def isLeap (year : Nat) : Bool := (year % 4 = 0 && year % 100 ≠ 0) || year % 400 = 0

def daysIn (year month : Nat) : Nat :=
  match month with
  | 2 => if isLeap year then 29 else 28
  | 4 | 6 | 9 | 11 => 30
  | _ => 31

/-- A number with zeros in front up to a width. -/
def padded (width n : Nat) : String :=
  let text := toString n
  "".pushn '0' (width - text.length) ++ text

/-- A date, in its standard text, and the rest of the word. -/
def date? (word : List Char) : Option (String × List Char) := do
  let (year, word) ← fixed? 4 word
  let (month, word) ← fixed? 2 (← mark? '-' word)
  let (day, word) ← fixed? 2 (← mark? '-' word)
  if 1 ≤ month ∧ month ≤ 12 ∧ 1 ≤ day ∧ day ≤ daysIn year month then
    return (padded 4 year ++ "-" ++ padded 2 month ++ "-" ++ padded 2 day, word)
  else none

/-- The fraction of a second: nine digits count, and zeros at the end do not show. -/
def fraction? (word : List Char) : Option (String × List Char) :=
  match word with
  | '.' :: rest =>
    let digits := rest.takeWhile Char.isDigit
    if digits.isEmpty then none
    else
      let shown := ((digits.take 9).reverse.dropWhile (· = '0')).reverse
      some (if shown.isEmpty then "" else "." ++ String.ofList shown, rest.drop digits.length)
  | _ => some ("", word)

/-- A time of day, in its standard text, and the rest of the word. -/
def time? (word : List Char) : Option (String × List Char) := do
  let (hour, word) ← fixed? 2 word
  let (minute, word) ← fixed? 2 (← mark? ':' word)
  let (second, word) ← fixed? 2 (← mark? ':' word)
  let (fraction, word) ← fraction? word
  if hour ≤ 23 ∧ minute ≤ 59 ∧ second ≤ 60 then
    return (padded 2 hour ++ ":" ++ padded 2 minute ++ ":" ++ padded 2 second ++ fraction, word)
  else none

/-- An offset from universal time that fills the word, in its standard text; one of no minutes is
written with a plus sign. -/
def offset? (word : List Char) : Option String := do
  match word with
  | [] => return ""
  | ['Z'] | ['z'] => return "Z"
  | sign :: word =>
    if sign ≠ '+' ∧ sign ≠ '-' then none
    let (hour, word) ← fixed? 2 word
    let (minute, word) ← fixed? 2 (← mark? ':' word)
    if word.isEmpty ∧ hour ≤ 23 ∧ minute ≤ 59 then
      let sign := if hour = 0 ∧ minute = 0 then '+' else sign
      return String.singleton sign ++ padded 2 hour ++ ":" ++ padded 2 minute
    else none

/-- A date, a time, or a date and a time with or without an offset. -/
def datetime? (word : List Char) : Option String :=
  match date? word with
  | some (date, []) => some date
  | some (date, mark :: word) => do
    if mark ≠ 'T' ∧ mark ≠ 't' ∧ mark ≠ ' ' then none
    let (time, word) ← time? word
    return date ++ "T" ++ time ++ (← offset? word)
  | none => do
    let (time, word) ← time? word
    if word.isEmpty then return time else none

/-- The value of a word that is no string. -/
def scalar? (word : List Char) : Option Value :=
  match word with
  | ['t', 'r', 'u', 'e'] => some (.boolean true)
  | ['f', 'a', 'l', 's', 'e'] => some (.boolean false)
  | _ =>
    match datetime? word, float? word, integer? word with
    | some t, _, _ => some (.datetime t)
    | none, some x, _ => some (.float x)
    | none, none, some n => some (.integer n)
    | none, none, none => none

end Settle.Toml
