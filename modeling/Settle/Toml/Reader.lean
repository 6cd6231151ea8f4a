import Settle.Toml.Scalar

/-!
# Reading TOML

A document is a list of statements: keys with values, and headers of tables and of arrays of
tables. The reader follows the grammar of TOML 1.0; arrays and inline tables nest to a fixed
depth. The statements are then carried out in order.
-/

namespace Settle.Toml

/-- Takes something from the front of a text, or refuses it. -/
abbrev Reader := StateT (List Char) Option

variable {σ α : Type}

def refuse : Reader α := failure

def peek? : Reader (Option Char) := do return (← get).head?

def skip : Reader Unit := modify List.tail

def take : Reader Char := do
  match ← get with
  | [] => refuse
  | c :: rest =>
    set rest
    return c

def expect (c : Char) : Reader Unit := do
  if (← take) = c then return else refuse

def takeWhile (p : Char → Bool) : Reader (List Char) := do
  let text ← get
  set (text.dropWhile p)
  return text.takeWhile p

/-- Repeats a step that goes on with a new state or ends with a value, as often as there are
characters to spend and once more. -/
def repeatStep (step : σ → Reader (σ ⊕ α)) : List Char → σ → Reader α
  | [], s => do
    match ← step s with
    | .inl _ => refuse
    | .inr a => return a
  | _ :: budget, s => do
    match ← step s with
    | .inl s => repeatStep step budget s
    | .inr a => return a

/-- Repeats a step that takes a character whenever it goes on. -/
def repeated (step : σ → Reader (σ ⊕ α)) (s : σ) : Reader α := do
  repeatStep step (← get) s

/-! ## Blanks and comments -/

def isSpace (c : Char) : Bool := c = ' ' || c = '\t'

def spaces : Reader Unit := modify (·.dropWhile isSpace)

/-- Characters that may stand in comments and, but for their delimiters, in strings. -/
def isPlain (c : Char) : Bool := c = '\t' || (0x20 ≤ c.toNat && c.toNat ≠ 0x7f)

/-- A line end; a carriage return only before a line feed. -/
def lineEnd : Reader Unit := do
  match ← get with
  | '\n' :: rest | '\r' :: '\n' :: rest => set rest
  | _ => refuse

/-- A comment, if one starts here. -/
def comment : Reader Unit := do
  if (← peek?) = some '#' then
    let _ ← takeWhile isPlain

/-- The rest of a line: blanks, a comment, and the line end or the end of the text. -/
def endOfLine : Reader Unit := do
  spaces
  comment
  match ← peek? with
  | none => return
  | some _ => lineEnd

def gaps : Reader Unit :=
  repeated (fun () => do
    spaces
    match ← peek? with
    | some '#' =>
      comment
      return .inl ()
    | some '\n' | some '\r' =>
      lineEnd
      return .inl ()
    | _ => return .inr ()) ()

/-! ## Strings -/

/-- The character with a code of some hexadecimal digits. -/
def codePoint (count : Nat) : Reader Char := do
  let digits := (← get).take count
  if digits.length < count then refuse
  set ((← get).drop count)
  match digits.mapM hexDigit? with
  | none => refuse
  | some digits =>
    let n := positional 16 digits
    if n.isValidChar then return Char.ofNat n else refuse

/-- The character of an escape after its backslash. -/
def escape : Reader Char := do
  match ← take with
  | 'b' => return '\x08'
  | 't' => return '\t'
  | 'n' => return '\n'
  | 'f' => return '\x0c'
  | 'r' => return '\r'
  | '"' => return '"'
  | '\\' => return '\\'
  | 'u' => codePoint 4
  | 'U' => codePoint 8
  | _ => refuse

/-- The rest of a string on one line; only basic strings have escapes. -/
def lineString (quote : Char) : Reader String :=
  repeated (fun (taken : List Char) => do
    let c ← take
    if c = quote then return .inr (String.ofList taken.reverse)
    else if c = '\\' ∧ quote = '"' then return .inl ((← escape) :: taken)
    else if isPlain c then return .inl (c :: taken)
    else refuse) []

/-- Whether a backslash ends its line, but for blanks. -/
def continuesLine (text : List Char) : Bool :=
  match text.dropWhile isSpace with
  | '\n' :: _ | '\r' :: '\n' :: _ => true
  | _ => false

def blankLines : Reader Unit :=
  repeated (fun () => do
    spaces
    match ← peek? with
    | some '\n' | some '\r' =>
      lineEnd
      return .inl ()
    | _ => return .inr ()) ()

/-- The rest of a string of several lines after its opening quotes. Two of up to five quotes at
its end belong to it, and line ends are line feeds. -/
def blockString (quote : Char) : Reader String := do
  match ← get with
  | '\n' :: rest | '\r' :: '\n' :: rest => set rest
  | _ => pure ()
  repeated (fun (taken : List Char) => do
    match ← peek? with
    | none => refuse
    | some c =>
      if c = quote then
        let run ← takeWhile (· = quote)
        if run.length < 3 then return .inl (run ++ taken)
        else if run.length ≤ 5 then
          return .inr (String.ofList (run.drop 3 ++ taken).reverse)
        else refuse
      else if c = '\n' ∨ c = '\r' then
        lineEnd
        return .inl ('\n' :: taken)
      else if c = '\\' ∧ quote = '"' then
        skip
        if continuesLine (← get) then
          blankLines
          return .inl taken
        else return .inl ((← escape) :: taken)
      else if isPlain c then
        skip
        return .inl (c :: taken)
      else refuse) []

/-! ## Keys and values -/

/-- How many levels of nesting, and how many parts of a key, are too many. -/
def depthLimit : Nat := 80

def isBare (c : Char) : Bool := c.isAlphanum || c = '_' || c = '-'

def keyPart : Reader String := do
  match ← peek? with
  | some '"' =>
    skip
    lineString '"'
  | some '\'' =>
    skip
    lineString '\''
  | _ =>
    match ← takeWhile isBare with
    | [] => refuse
    | name => return String.ofList name

/-- A dotted key: the path to its last part, and that part. Blanks around it are taken. -/
def key : Reader (List String × String) := do
  let parts ← repeated (fun (taken : List String) => do
    spaces
    let part ← keyPart
    spaces
    if (← peek?) = some '.' then
      skip
      return .inl (part :: taken)
    else return .inr (part :: taken)) []
  match parts with
  | last :: path => if parts.length < depthLimit then return (path.reverse, last) else refuse
  | [] => refuse

/-- Characters of words that are no strings. -/
def isWord (c : Char) : Bool :=
  c.isAlphanum || c = '_' || c = '-' || c = '+' || c = '.' || c = ':'

/-- A word, and after a date and one blank a second one that starts with a digit. -/
def word : Reader (List Char) := do
  let first ← takeWhile isWord
  match ← get with
  | ' ' :: c :: _ =>
    if c.isDigit ∧ ((date? first).map (·.2)) = some [] then
      skip
      return first ++ ' ' :: (← takeWhile isWord)
    else return first
  | _ => return first

/-- The items of an array after its opening bracket. -/
def arrayItems (value : Reader Value) : Reader (List Value) :=
  repeated (fun (taken : List Value) => do
    gaps
    if (← peek?) = some ']' then
      skip
      return .inr taken.reverse
    else
      let item ← value
      gaps
      match ← take with
      | ',' => return .inl (item :: taken)
      | ']' => return .inr (item :: taken).reverse
      | _ => refuse) []

def keyValue (value : Reader Value) : Reader (List String × String × Value) := do
  let (path, last) ← key
  expect '='
  spaces
  return (path, last, ← value)

/-- The keys of an inline table after its opening bracket; it has no comma before its end. -/
def inlineItems (value : Reader Value) : Reader (List (List String × String × Value)) := do
  spaces
  if (← peek?) = some '}' then
    skip
    return []
  else
    repeated (fun (taken : List (List String × String × Value)) => do
      let item ← keyValue value
      spaces
      match ← take with
      | ',' => return .inl (item :: taken)
      | '}' => return .inr (item :: taken).reverse
      | _ => refuse) []

def stringValue (quote : Char) : Reader Value := do
  match ← get with
  | a :: b :: rest =>
    if a = quote ∧ b = quote then
      set rest
      return .string (← blockString quote)
    else return .string (← lineString quote)
  | _ => return .string (← lineString quote)

/-- A value. Arrays and inline tables read their items by `inner`; without it there is no level
of nesting left, and they are refused. -/
def valueWith (inner : Option (Reader Value)) : Reader Value := do
  match ← peek? with
  | some '"' =>
    skip
    stringValue '"'
  | some '\'' =>
    skip
    stringValue '\''
  | some '[' =>
    let some item := inner
      | refuse
    skip
    return .array (← arrayItems item)
  | some '{' =>
    let some item := inner
      | refuse
    skip
    match Entries.assignAll [] .header (← inlineItems item) with
    | some entries => return .table .inline entries
    | none => refuse
  | _ =>
    match scalar? (← word) with
    | some v => return v
    | none => refuse

/-- A value inside which some levels of nesting are left. -/
def value : Nat → Reader Value
  | 0 => valueWith none
  | depth + 1 => valueWith (some (value depth))

/-! ## Documents -/

inductive Statement where
  | assign (path : List String) (key : String) (value : Value)
  | table (path : List String) (key : String)
  | item (path : List String) (key : String)

/-- A statement and the rest of its line. -/
def statement : Reader Statement := do
  let s : Statement ← match ← get with
    | '[' :: '[' :: rest => do
      set rest
      let (path, last) ← key
      expect ']'
      expect ']'
      pure (.item path last)
    | '[' :: rest => do
      set rest
      let (path, last) ← key
      expect ']'
      pure (.table path last)
    | _ => do
      let (path, last, v) ← keyValue (value (depthLimit - 1))
      pure (.assign path last v)
  endOfLine
  return s

def statements : Reader (List Statement) :=
  repeated (fun (taken : List Statement) => do
    gaps
    match ← peek? with
    | none => return .inr taken.reverse
    | some _ => return .inl ((← statement) :: taken)) []

/-- The keys that are set before the next header. -/
def body : List Statement → List (List String × String × Value)
  | .assign path key v :: rest => (path, key, v) :: body rest
  | _ => []

/-- Carries out headers with the keys that follow them. -/
def carryOut (entries : Entries) : List Statement → Option Entries
  | [] => some entries
  | .assign .. :: rest => carryOut entries rest
  | .table path key :: rest => do carryOut (← entries.define path key (body rest)) rest
  | .item path key :: rest => do carryOut (← entries.append path key (body rest)) rest

/-- The table of a document; a byte order mark before it does not count. -/
def parse (text : String) : Option Entries := do
  let text := match text.toList with
    | '\uFEFF' :: rest => rest
    | text => text
  let (statements, _) ← statements.run text
  carryOut (← Entries.assignAll [] .header (body statements)) statements

end Settle.Toml
