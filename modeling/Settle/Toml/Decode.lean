import Settle.Mismatch
import Settle.Toml.Value

/-!
# Typed values from TOML

A typed value takes the kinds that fit it and refuses the others. The fields of a record come
from a table, or from the items of an array in order; keys that nobody asks for do not count.
-/

namespace Settle.Toml

variable {α β : Type}

/-- Under this key a date is the one entry of a map. -/
def datetimeKey : String := "datetime"

namespace Value

/-- What a value is called where it does not fit. -/
def found : Value → Found
  | .string text => .text text
  | .integer n => .integer n
  | .float x => .floating x.pointed
  | .boolean b => .boolean b
  | .array _ | .tables _ => .sequence
  | .datetime _ | .table .. => .map

def misfit (v : Value) (expected : String) : Except Mismatch α :=
  .error (.invalidType v.found expected)

/-- A number; a whole one is rounded to a double. -/
def toFloat : Value → Except Mismatch Binary64
  | .float x => .ok x
  | .integer n => .ok (.ofInt n)
  | v => v.misfit "f64"

def toBool : Value → Except Mismatch Bool
  | .boolean b => .ok b
  | v => v.misfit "a boolean"

def toText : Value → Except Mismatch String
  | .string text => .ok text
  | v => v.misfit "a string"

/-- The items of an array or of an array of tables. -/
def items? : Value → Option (List Value)
  | .array items | .tables items => some items
  | _ => none

/-- The entries of a table; a date has one. -/
def entries? : Value → Option Entries
  | .table _ entries => some entries
  | .datetime text => some [(datetimeKey, .string text)]
  | _ => none

def toList (item : Value → Except Mismatch α) (v : Value) : Except Mismatch (List α) :=
  match v.items? with
  | some items => items.mapM item
  | none => v.misfit "a sequence"

/-- The entries of a map in the order of their keys. -/
def toMap (item : Value → Except Mismatch α) (v : Value) :
    Except Mismatch (List (String × α)) :=
  match v.entries? with
  | some entries => do
    let pairs ← entries.mapM fun (key, v) => (key, ·) <$> item v
    return pairs.mergeSort fun a b => decide (a.1 ≤ b.1)
  | none => v.misfit "a map"

end Value

/-- How a record is read: one field after the other is added to a draft, and the finished draft
is the record or names a field that it lacks. -/
structure Record (β α : Type) where
  name : String
  /-- The names of the fields, in order. -/
  fields : List String
  start : β
  add : β → String × Value → Except Mismatch β
  finish : β → Except String α

namespace Record

/-- The record of some entries. -/
def ofEntries (r : Record β α) (entries : Entries) : Except Mismatch α := do
  (r.finish (← entries.foldlM r.add r.start)).mapError .missingField

/-- The record of an array whose items stand for the fields in order. -/
def ofItems (r : Record β α) (items : List Value) : Except Mismatch α := do
  let expected := "struct " ++ r.name ++ " with " ++ toString r.fields.length ++ " elements"
  (r.finish (← (r.fields.zip items).foldlM r.add r.start)).mapError
    fun _ => .invalidLength items.length expected

def ofValue (r : Record β α) (v : Value) : Except Mismatch α :=
  match v.items?, v.entries? with
  | some items, _ => r.ofItems items
  | none, some entries => r.ofEntries entries
  | none, none => v.misfit ("struct " ++ r.name)

/-- A field that a record cannot do without. -/
def required (name : String) : Option α → Except String α
  | some v => .ok v
  | none => .error name

end Record

end Settle.Toml
