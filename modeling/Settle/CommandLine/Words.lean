/-!
# The words of a command line

A word is an operand, an option, a cluster of short options, or the mark after which all words
are operands. A form tells which options a command knows and what its words do to a draft of
the command; words are taken one after the other, and the first one that is out of place ends
the reading.
-/

namespace Settle.CommandLine

/-- Why a command line is no command. -/
inductive Stop where
  /-- It asks how the program is used. -/
  | help
  | misuse
  deriving DecidableEq, Repr

inductive Word where
  | operand (text : String)
  /-- An option, perhaps with a value after an equals sign. -/
  | option (name : String) (value : Option String)
  | cluster (letters : List Char)
  /-- All words after this one are operands. -/
  | separator
  deriving DecidableEq, Repr

/-- How a word reads; a single hyphen is an operand. -/
def Word.ofText (text : String) : Word :=
  match text.toList with
  | ['-', '-'] => .separator
  | '-' :: '-' :: rest =>
    let name := rest.takeWhile (· ≠ '=')
    let value := (rest.drop name.length).tail?.map String.ofList
    .option (String.ofList name) value
  | '-' :: letter :: letters => .cluster (letter :: letters)
  | _ => .operand text

/-- What an option does to a draft; `none` refuses it. -/
inductive Setter (β : Type) where
  | flag (set : β → Option β)
  | valued (set : β → String → Option β)

/-- The options and operands of a command. -/
structure Form (β : Type) where
  setter? : String → Option (Setter β)
  operand : β → String → Option β

namespace Form

variable {β : Type}

def orMisuse {α : Type} : Option α → Except Stop α
  | some a => .ok a
  | none => .error .misuse

/-- Takes all words as operands. -/
def readOperands (f : Form β) (draft : β) (words : List String) : Except Stop β :=
  words.foldlM (fun d word => orMisuse (f.operand d word)) draft

/-- Takes the words of a command. -/
def read (f : Form β) (draft : β) : List String → Except Stop β
  | [] => .ok draft
  | text :: rest =>
    match Word.ofText text with
    | .operand text => do f.read (← orMisuse (f.operand draft text)) rest
    | .separator => f.readOperands draft rest
    | .cluster letters => .error (if letters.head? = some 'h' then .help else .misuse)
    | .option "help" none => .error .help
    | .option name value =>
      match f.setter? name, value, rest with
      | some (.flag set), none, rest => do f.read (← orMisuse (set draft)) rest
      | some (.valued set), some v, rest => do f.read (← orMisuse (set draft v)) rest
      | some (.valued set), none, v :: rest =>
        match Word.ofText v with
        | .operand v => do f.read (← orMisuse (set draft v)) rest
        | _ => .error .misuse
      | _, _, _ => .error .misuse

end Form

end Settle.CommandLine
