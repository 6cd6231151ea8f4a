import Settle.Json.Fault

/-!
# Reading JSON in one pass

Readers take bytes from the front of a document. A typed reader refuses a value of another type
as soon as it sees its kind; values that nobody asks for are skipped at any depth without their
text being decoded.
-/

namespace Settle.Json

/-- Takes a value from the front of a document. -/
abbrev Reader := StateT (List UInt8) (Except JsonError)

variable {σ α : Type}

def truncated : Reader α := throw .truncated

def malformed (fault : JsonFault) : Reader α := throw (.malformed fault)

def refuse (m : Mismatch) : Reader α := throw (.mismatch m)

/-- The next byte, as the character of that code; it is not taken. -/
def peek? : Reader (Option Char) := do return (← get).head?.map fun b => Char.ofNat b.toNat

def skip : Reader Unit := modify List.tail

def take? : Reader (Option UInt8) := do
  let next := (← get).head?
  skip
  return next

def isSpace (b : UInt8) : Bool := b = 0x20 || b = 0x0a || b = 0x0d || b = 0x09

/-- The first byte after blanks, which are dropped. -/
def peekToken? : Reader (Option Char) := do
  modify (·.dropWhile isSpace)
  peek?

/-- Repeats a step that goes on with a new state or ends with a value, as often as there are
bytes to spend and once more. -/
def repeatStep (step : σ → Reader (σ ⊕ α)) : List UInt8 → σ → Reader α
  | [], s => do
    match ← step s with
    | .inl _ => truncated
    | .inr a => return a
  | _ :: budget, s => do
    match ← step s with
    | .inl s => repeatStep step budget s
    | .inr a => return a

/-- Repeats a step that takes a byte whenever it goes on. -/
def repeated (step : σ → Reader (σ ⊕ α)) (s : σ) : Reader α := do
  repeatStep step (← get) s

/-! ## Strings -/

def hexValue? (b : UInt8) : Option Nat :=
  let n := b.toNat
  if 0x30 ≤ n ∧ n ≤ 0x39 then some (n - 0x30)
  else if 0x41 ≤ n ∧ n ≤ 0x46 then some (n - 0x41 + 10)
  else if 0x61 ≤ n ∧ n ≤ 0x66 then some (n - 0x61 + 10)
  else none

def hexQuad : Reader Nat := do
  let quad := (← get).take 4
  if quad.length < 4 then truncated
  set ((← get).drop 4)
  match quad.mapM hexValue? with
  | some digits => return digits.foldl (fun n d => n * 16 + d) 0
  | none => malformed .invalidEscape

/-- One given byte of the escape that completes a surrogate pair. -/
def pairByte (c : Char) : Reader Unit := do
  match ← peek? with
  | none => truncated
  | some d => if d = c then skip else malformed .unpairedSurrogate

/-- The code point of an escape after its `u`; surrogates come in pairs. -/
def unicodeEscape : Reader Nat := do
  let first ← hexQuad
  if 0xdc00 ≤ first ∧ first ≤ 0xdfff then malformed .unpairedSurrogate
  else if first < 0xd800 ∨ 0xdbff < first then return first
  else
    pairByte '\\'
    pairByte 'u'
    let second ← hexQuad
    if second < 0xdc00 ∨ 0xdfff < second then malformed .unpairedSurrogate
    else return (first - 0xd800) * 0x400 + (second - 0xdc00) + 0x10000

/-- The bytes of an escape after its backslash. -/
def escape : Reader (List UInt8) := do
  match ← take? with
  | none => truncated
  | some b =>
    match Char.ofNat b.toNat with
    | '"' | '\\' | '/' => return [b]
    | 'b' => return [0x08]
    | 'f' => return [0x0c]
    | 'n' => return [0x0a]
    | 'r' => return [0x0d]
    | 't' => return [0x09]
    | 'u' => return (String.singleton (Char.ofNat (← unicodeEscape))).toUTF8.data.toList
    | _ => malformed .invalidEscape

/-- The rest of a string after its opening quote. -/
def string : Reader String := do
  let bytes ← repeated (fun (taken : List UInt8) => do
    match ← take? with
    | none => truncated
    | some b =>
      if b = 0x22 then return .inr taken.reverse
      else if b = 0x5c then return .inl ((← escape).reverse ++ taken)
      else if b < 0x20 then malformed .controlCharacter
      else return .inl (b :: taken)) []
  match String.fromUTF8? ⟨bytes.toArray⟩ with
  | some text => return text
  | none => malformed .invalidUtf8

/-- Skips the rest of a string; its escapes are looked at but not decoded. -/
def skipString : Reader Unit :=
  repeated (fun () => do
    match ← take? with
    | none => truncated
    | some b =>
      if b = 0x22 then return .inr ()
      else if b = 0x5c then
        match ← take? with
        | none => truncated
        | some e =>
          match Char.ofNat e.toNat with
          | '"' | '\\' | '/' | 'b' | 'f' | 'n' | 'r' | 't' => return .inl ()
          | 'u' =>
            let _ ← hexQuad
            return .inl ()
          | _ => malformed .invalidEscape
      else if b < 0x20 then malformed .controlCharacter
      else return .inl ()) ()

/-! ## Numbers -/

inductive Number where
  /-- A whole number in the range of 64 bits, signed where it is negative. -/
  | integer (value : Int)
  | floating (value : Binary64)

def Number.toBinary64 : Number → Binary64
  | .integer n => .ofInt n
  | .floating x => x

def Number.found : Number → Found
  | .integer n => .integer n
  | .floating x => .floating x.compact

def isDigit (b : UInt8) : Bool := 0x30 ≤ b && b ≤ 0x39

def digits : Reader (List Nat) := do
  let s ← get
  set (s.dropWhile isDigit)
  return (s.takeWhile isDigit).map fun b => b.toNat - 0x30

/-- Appends digits to a number for as long as it fits 64 bits; the count of those appended. -/
def gather (n count : Nat) : List Nat → Nat × Nat
  | [] => (n, count)
  | d :: rest =>
    if n * 10 + d < Nat.pow 2 64 then gather (n * 10 + d) (count + 1) rest else (n, count)

/-- The double of a power of ten, up to the three hundred and eighth. -/
def tenTo (n : Nat) : Binary64 := .ofDecimal false 1 n

/-- A number scaled by a power of ten, each step rounded; `none` if it is out of range. -/
def scale (x : Binary64) (exponent : Int) : Option Binary64 :=
  if _h : exponent < -308 then
    if x = .zero false then some x else scale (x / tenTo 308) (exponent + 308)
  else if exponent < 0 then some (x / tenTo (-exponent).toNat)
  else if exponent ≤ 308 then
    let scaled := x * tenTo exponent.toNat
    if scaled.isFinite then some scaled else none
  else if x = .zero false then some x
  else none
  termination_by (-exponent).toNat
  decreasing_by omega

def signedBy (negative : Bool) (x : Binary64) : Binary64 := if negative then -x else x

def scaled (negative : Bool) (significand : Nat) (exponent : Int) : Reader Number :=
  match scale (.ofNat significand) exponent with
  | some x => return .floating (signedBy negative x)
  | none => malformed .numberOutOfRange

/-- The rest of a number from its exponent mark on. -/
def exponentPart (negative : Bool) (significand : Nat) (exponent : Int) : Reader Number := do
  skip
  let down := (← peek?) = some '-'
  if down ∨ (← peek?) = some '+' then skip
  match ← peek? with
  | none => truncated
  | some _ =>
    match ← digits with
    | [] => malformed .invalidNumber
    | ds =>
      let power : Int := (ds.foldl (fun n d => n * 10 + d) 0 : Nat)
      if power < Nat.pow 2 31 then
        scaled negative significand (if down then exponent - power else exponent + power)
      else if significand ≠ 0 ∧ ¬down then malformed .numberOutOfRange
      else return .floating (signedBy negative (.zero false))

/-- The rest of a number after its first digits. -/
def fractionPart (negative : Bool) (significand : Nat) (dropped : Nat) : Reader Number := do
  match ← peek? with
  | some '.' =>
    skip
    match ← digits with
    | [] => if (← peek?) = none then truncated else malformed .invalidNumber
    | ds =>
      let (significand, places) := gather significand 0 ds
      let exponent : Int := (dropped : Int) - places
      match ← peek? with
      | some 'e' | some 'E' => exponentPart negative significand exponent
      | _ => scaled negative significand exponent
  | some 'e' | some 'E' => exponentPart negative significand dropped
  | _ =>
    if dropped ≠ 0 then scaled negative significand dropped
    else if ¬negative then return .integer significand
    else if significand = 0 ∨ Nat.pow 2 63 < significand then
      return .floating (-(.ofNat significand))
    else return .integer (-significand)

/-- A number; the next byte is its sign or its first digit. -/
def number : Reader Number := do
  let negative := (← peek?) = some '-'
  if negative then skip
  match ← digits with
  | [] => if (← peek?) = none then truncated else malformed .invalidNumber
  | [0] => fractionPart negative 0 0
  | 0 :: _ => malformed .invalidNumber
  | ds =>
    let (significand, taken) := gather 0 0 ds
    fractionPart negative significand (ds.length - taken)

def skipDigits : Reader Unit := do
  match ← digits with
  | [] => malformed .invalidNumber
  | _ => return

/-- Skips a number by the same grammar, whatever its size. -/
def skipNumber : Reader Unit := do
  if (← peek?) = some '-' then skip
  match ← digits with
  | [] => malformed .invalidNumber
  | 0 :: _ :: _ => malformed .invalidNumber
  | _ => pure ()
  if (← peek?) = some '.' then
    skip
    skipDigits
  if (← peek?) = some 'e' ∨ (← peek?) = some 'E' then
    skip
    if (← peek?) = some '+' ∨ (← peek?) = some '-' then skip
    skipDigits

/-! ## Values -/

def literal : List Char → Reader Unit
  | [] => return
  | c :: rest => do
    match ← take? with
    | none => truncated
    | some b => if Char.ofNat b.toNat = c then literal rest else malformed .expectedLiteral

/-- Refuses the next value, which is of another type than expected. -/
def unexpected (expected : String) : Reader α := do
  let found : Found ← match ← peekToken? with
    | some 'n' => do
      skip
      literal ['u', 'l', 'l']
      pure .null
    | some 't' => do
      skip
      literal ['r', 'u', 'e']
      pure (.boolean true)
    | some 'f' => do
      skip
      literal ['a', 'l', 's', 'e']
      pure (.boolean false)
    | some '"' => do
      skip
      pure (.text (← string))
    | some '[' => pure .sequence
    | some '{' => pure .map
    | some c =>
      if c = '-' ∨ c.isDigit then do pure (← number).found
      else malformed .expectedValue
    | none => malformed .expectedValue
  refuse (.invalidType found expected)

/-- A string, where `expected` says what it is wanted for. -/
def readString (expected : String) : Reader String := do
  match ← peekToken? with
  | none => truncated
  | some '"' =>
    skip
    string
  | some _ => unexpected expected

def readBool : Reader Bool := do
  match ← peekToken? with
  | none => truncated
  | some 't' =>
    skip
    literal ['r', 'u', 'e']
    return true
  | some 'f' =>
    skip
    literal ['a', 'l', 's', 'e']
    return false
  | some _ => unexpected "a boolean"

def readFloat : Reader Binary64 := do
  match ← peekToken? with
  | none => truncated
  | some c =>
    if c = '-' ∨ c.isDigit then return (← number).toBinary64
    else unexpected "f64"

def readNull : Reader Unit := do
  match ← peekToken? with
  | none => truncated
  | some 'n' =>
    skip
    literal ['u', 'l', 'l']
  | some _ => unexpected "unit"

def readOption (value : Reader α) : Reader (Option α) := do
  match ← peekToken? with
  | some 'n' =>
    skip
    literal ['u', 'l', 'l']
    return none
  | _ => some <$> value

def colon : Reader Unit := do
  match ← peekToken? with
  | none => truncated
  | some ':' => skip
  | some _ => malformed .expectedColon

/-- Whether another item follows in an array; the comma before it is taken. -/
def nextItem (first : Bool) : Reader Bool := do
  match ← peekToken? with
  | none => truncated
  | some ']' => return false
  | some ',' =>
    if first then return true
    skip
    match ← peekToken? with
    | none => truncated
    | some ']' => malformed .trailingComma
    | some _ => return true
  | some _ => if first then return true else malformed .expectedCommaOrEnd

def endItems : Reader Unit := do
  match ← peekToken? with
  | none => truncated
  | some ']' => skip
  | some _ => malformed .trailingCharacters

def readList (item : Reader α) : Reader (List α) := do
  match ← peekToken? with
  | none => truncated
  | some '[' =>
    skip
    let items ← repeated (fun (taken : List α) => do
      if ← nextItem taken.isEmpty then return .inl ((← item) :: taken)
      else return .inr taken.reverse) []
    endItems
    return items
  | some _ => unexpected "a sequence"

/-- Whether another key follows in an object; the comma before it is taken, and so is the
opening quote of the key. -/
def nextKey (first : Bool) : Reader Bool := do
  match ← peekToken? with
  | none => truncated
  | some '}' => return false
  | some ',' =>
    if first then malformed .keyMustBeString
    skip
    match ← peekToken? with
    | none => truncated
    | some '"' =>
      skip
      return true
    | some '}' => malformed .trailingComma
    | some _ => malformed .keyMustBeString
  | some c =>
    if ¬first then malformed .expectedCommaOrEnd
    else if c = '"' then
      skip
      return true
    else malformed .keyMustBeString

/-- The fields of an object after its opening bracket; `field` takes the colon and the value of
a key. -/
def readFields (field : String → σ → Reader σ) (s : σ) : Reader σ := do
  let s ← repeated (fun ((first, s) : Bool × σ) => do
    if ← nextKey first then
      let key ← string
      return .inl (false, ← field key s)
    else return .inr s) (true, s)
  skip
  return s

/-- A variant of an enumeration, written as its name or as an object of its name and a value.
`named` reads what follows a name, and its flag says whether that is a value. -/
def readVariant (known : List String) (named : String → Bool → Reader α) : Reader α := do
  let name : Reader String := do
    let name ← readString "variant identifier"
    if name ∈ known then return name
    else refuse (.unknownVariant name known)
  match ← peekToken? with
  | none => truncated
  | some '{' =>
    skip
    match ← peekToken? with
    | none => truncated
    | some '"' => pure ()
    | some _ => malformed .keyMustBeString
    let name ← name
    colon
    let value ← named name true
    match ← peekToken? with
    | none => truncated
    | some '}' =>
      skip
      return value
    | some _ => malformed .expectedValue
  | some '"' => do named (← name) false
  | some _ => malformed .expectedValue

/-- Where skipping stands. -/
inductive Skipping where
  /-- Before a value. -/
  | value
  /-- After an opening bracket. -/
  | opened
  /-- After a value. -/
  | closed

/-- Skips the key of an object with its colon. -/
def skipKey : Reader Unit := do
  match ← peekToken? with
  | none => truncated
  | some '"' =>
    skip
    skipString
    colon
  | some _ => malformed .keyMustBeString

/-- Skips a value, or only its opening bracket. The open brackets are given and returned, the
innermost first; the flags tell objects from arrays. -/
def skipItem (stack : List Bool) : Reader (Skipping × List Bool) := do
  match ← peekToken? with
  | none => truncated
  | some 'n' =>
    skip
    literal ['u', 'l', 'l']
    return (.closed, stack)
  | some 't' =>
    skip
    literal ['r', 'u', 'e']
    return (.closed, stack)
  | some 'f' =>
    skip
    literal ['a', 'l', 's', 'e']
    return (.closed, stack)
  | some '"' =>
    skip
    skipString
    return (.closed, stack)
  | some '[' =>
    skip
    return (.opened, false :: stack)
  | some '{' =>
    skip
    return (.opened, true :: stack)
  | some c =>
    if c = '-' ∨ c.isDigit then
      skipNumber
      return (.closed, stack)
    else malformed .expectedValue

/-- One step of skipping inside the given open brackets. -/
def skipStep : Skipping × List Bool → Reader (Skipping × List Bool ⊕ Unit)
  | (.value, stack) => .inl <$> skipItem stack
  | (_, []) => return .inr ()
  | (.opened, inObject :: stack) => do
    match ← peekToken? with
    | none => truncated
    | some c =>
      if c = (if inObject then '}' else ']') then
        skip
        return .inl (.closed, stack)
      else
        if inObject then skipKey
        .inl <$> skipItem (inObject :: stack)
  | (.closed, inObject :: stack) => do
    match ← peekToken? with
    | none => truncated
    | some ',' =>
      skip
      if inObject then skipKey
      return .inl (.value, inObject :: stack)
    | some c =>
      if c = (if inObject then '}' else ']') then
        skip
        return .inl (.closed, stack)
      else malformed .expectedCommaOrEnd

def skipValue : Reader Unit := repeated skipStep (.value, [])

/-- A whole document: one value, and nothing but blanks after it. -/
def readDocument (value : Reader α) (bytes : List UInt8) : Except JsonError α := do
  let (a, rest) ← value.run bytes
  if rest.all isSpace then return a else throw (.malformed .trailingCharacters)

end Settle.Json
