import Settle.Number.Decimal

/-!
# TOML values and tables

A document is a table built up by statements. A table remembers how it came about, because that
decides which later statements may still add to it: no key is set twice, and no table is
defined twice.
-/

namespace Settle.Toml

/-- How a table came about. -/
inductive Origin where
  /-- By a header of its own. -/
  | header
  /-- On the way to the table of another header. -/
  | implied
  /-- On the way to the last part of a dotted key. -/
  | dotted
  /-- Written as a value. -/
  | inline
  deriving DecidableEq, Repr

inductive Value where
  | string (text : String)
  | integer (value : Int)
  | float (value : Binary64)
  | boolean (value : Bool)
  /-- A date, a time or both, in its standard text. -/
  | datetime (text : String)
  | array (items : List Value)
  /-- A table that later statements may add to; keys in order of their definition. -/
  | table (origin : Origin) (entries : List (String × Value))
  /-- An array of tables, each from a header of its own. -/
  | tables (items : List Value)

/-- The keys of a table with their values, in order of their definition. -/
abbrev Entries := List (String × Value)

namespace Entries

def replace (entries : Entries) (key : String) (value : Value) : Entries :=
  entries.map fun (k, v) => if k = key then (k, value) else (k, v)

def remove (entries : Entries) (key : String) : Entries := entries.filter (·.1 ≠ key)

/-- Changes the table at the end of a path, making the tables on the way that are missing.
`none` where the path leads through something else than a table, and where a dotted key would
add to a table that has a header. -/
def descend (change : Origin → Entries → Option Entries) (dotted : Bool) :
    List String → Origin → Entries → Option Entries
  | [], origin, entries => change origin entries
  | key :: path, _, entries =>
    match entries.lookup key with
    | none => do
      let origin := if dotted then .dotted else .implied
      let inner ← descend change dotted path origin []
      return entries ++ [(key, .table origin inner)]
    | some (.table origin inner) =>
      if origin = .inline ∨ (dotted ∧ origin = .header) then none
      else do
        let inner ← descend change dotted path origin inner
        return entries.replace key (.table origin inner)
    | some (.tables items) =>
      match items.getLast? with
      | some (.table origin inner) => do
        let inner ← descend change dotted path origin inner
        return entries.replace key (.tables (items.dropLast ++ [.table origin inner]))
      | _ => none
    | some _ => none

/-- Sets a dotted key, given as the path to its last part and that part. -/
def assign (entries : Entries) (origin : Origin) (path : List String) (key : String)
    (value : Value) : Option Entries :=
  descend (fun origin entries =>
    if decide (origin = .dotted) = path.isEmpty ∨ (entries.lookup key).isSome then none
    else some (entries ++ [(key, value)])) (!path.isEmpty) path origin entries

/-- Sets the keys of a table one after the other. -/
def assignAll (entries : Entries) (origin : Origin) :
    List (List String × String × Value) → Option Entries
  | [] => some entries
  | (path, key, value) :: rest => do
    assignAll (← entries.assign origin path key value) origin rest

/-- Defines the table of a header. A table that was only implied so far keeps what it holds and
moves to the end. -/
def define (entries : Entries) (path : List String) (key : String)
    (body : List (List String × String × Value)) : Option Entries :=
  descend (fun _ entries =>
    match entries.lookup key with
    | none => do return entries ++ [(key, .table .header (← assignAll [] .header body))]
    | some (.table .implied inner) => do
      return entries.remove key ++ [(key, .table .header (← assignAll inner .header body))]
    | some _ => none) false path .header entries

def append (entries : Entries) (path : List String) (key : String)
    (body : List (List String × String × Value)) : Option Entries :=
  descend (fun _ entries => do
    let item := Value.table .header (← assignAll [] .header body)
    match entries.lookup key with
    | none => return entries ++ [(key, .tables [item])]
    | some (.tables items) => return entries.replace key (.tables (items ++ [item]))
    | some _ => none) false path .header entries

end Entries

end Settle.Toml
