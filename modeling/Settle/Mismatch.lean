import Settle.Number.Decimal
import Settle.Text.Quoted

/-!
# Data that does not fit

Documents that follow their format may still hold other data than is asked for. A mismatch is
the cause, and one function words it for all formats.
-/

namespace Settle

/-- What stands in a document where something else was expected. -/
inductive Found where
  | boolean (value : Bool)
  | integer (value : Int)
  /-- A number with a fraction, in the words of the format. -/
  | floating (text : String)
  | text (value : String)
  | null
  | sequence
  | map
  /-- The name of a variant without a value. -/
  | unitVariant
  deriving DecidableEq, Repr

/-- Why the data of a document is refused. -/
inductive Mismatch where
  | invalidType (found : Found) (expected : String)
  | unknownVariant (name : String) (known : List String)
  | missingField (name : String)
  | duplicateField (name : String)
  /-- A sequence ended after `length` items. -/
  | invalidLength (length : Nat) (expected : String)
  deriving DecidableEq, Repr

/-- A name in backticks. -/
def ticked (name : String) : String := "\x60" ++ name ++ "\x60"

def Found.describe : Found → String
  | .boolean b => "boolean " ++ ticked (if b then "true" else "false")
  | .integer n => "integer " ++ ticked (toString n)
  | .floating t => "floating point " ++ ticked t
  | .text s => "string " ++ quoted s
  | .null => "null"
  | .sequence => "sequence"
  | .map => "map"
  | .unitVariant => "unit variant"

/-- The names that were expected. -/
def oneOf : List String → String
  | [] => "there are no variants"
  | [a] => "expected " ++ ticked a
  | [a, b] => "expected " ++ ticked a ++ " or " ++ ticked b
  | names => "expected one of " ++ String.intercalate ", " (names.map ticked)

namespace Mismatch

def message : Mismatch → String
  | .invalidType found expected =>
    "invalid type: " ++ found.describe ++ ", expected " ++ expected
  | .unknownVariant name known => "unknown variant " ++ ticked name ++ ", " ++ oneOf known
  | .missingField name => "missing field " ++ ticked name
  | .duplicateField name => "duplicate field " ++ ticked name
  | .invalidLength length expected =>
    "invalid length " ++ toString length ++ ", expected " ++ expected

end Mismatch

end Settle
