import Settle.Mismatch

/-!
# Why a JSON document is refused

A document may end too early, break the grammar, or hold data that does not fit. It is read in
one pass, so the first fault met is the one reported.
-/

namespace Settle

/-- How a document breaks the grammar of JSON. -/
inductive JsonFault where
  | expectedValue
  | expectedLiteral
  | expectedColon
  | expectedCommaOrEnd
  | keyMustBeString
  | trailingComma
  | trailingCharacters
  | invalidNumber
  | numberOutOfRange
  | invalidEscape
  | controlCharacter
  | unpairedSurrogate
  | invalidUtf8
  deriving DecidableEq, Repr

namespace JsonFault

def message : JsonFault → String
  | .expectedValue => "expected value"
  | .expectedLiteral => "expected true, false or null"
  | .expectedColon => "expected a colon after the key"
  | .expectedCommaOrEnd => "expected a comma or a closing bracket"
  | .keyMustBeString => "key must be a string"
  | .trailingComma => "trailing comma"
  | .trailingCharacters => "trailing characters"
  | .invalidNumber => "invalid number"
  | .numberOutOfRange => "number out of range"
  | .invalidEscape => "invalid escape"
  | .controlCharacter => "control character in a string"
  | .unpairedSurrogate => "unpaired surrogate in an escape"
  | .invalidUtf8 => "invalid UTF-8 in a string"

end JsonFault

inductive JsonError where
  /-- The document ends inside a value. -/
  | truncated
  | malformed (fault : JsonFault)
  | mismatch (mismatch : Mismatch)
  deriving DecidableEq, Repr

def JsonError.message : JsonError → String
  | .truncated => "unexpected end of the document"
  | .malformed fault => fault.message
  | .mismatch m => m.message

end Settle
