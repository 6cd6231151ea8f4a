import Settle.Cause

/-!
# Classes of error codes

Error codes are dotted paths. A table gives classes to some of them, and a code without an
entry has the class of its nearest parent that has one. The class, the kind of call and whether
the call may be repeated decide what an error means.
-/

namespace Settle

/-- How an error code behaves under retry. -/
inductive CodeClass where
  /-- The remote side is busy or broken for now. -/
  | transient
  /-- The network failed, and the request may have been applied. -/
  | transport
  /-- The resource does not exist. -/
  | absent
  /-- Never retried. -/
  | fatal
  deriving DecidableEq, Repr

def CodeClass.text : CodeClass → String
  | .transient => "transient"
  | .transport => "transport"
  | .absent => "absent"
  | .fatal => "fatal"

inductive Verdict where
  | retryable
  | fatal
  | absent
  deriving DecidableEq, Repr

def Verdict.text : Verdict → String
  | .retryable => "retryable"
  | .fatal => "fatal"
  | .absent => "absent"

/-- A remote call: the name of its action, and whether it may be repeated when nobody knows
if it was applied. -/
structure Operation where
  action : String
  idempotent : Bool := true
  deriving DecidableEq, Repr

/-- Lists of error codes, one for each class. -/
structure CodeLists where
  transient : List String := []
  transport : List String := []
  absent : List String := []
  fatal : List String := []
  deriving DecidableEq, Repr

/-- The codes of all lists with their classes, in the order in which they enter a table. -/
def CodeLists.entries (lists : CodeLists) : List (String × CodeClass) :=
  lists.transient.map (·, .transient) ++ lists.transport.map (·, .transport) ++
    lists.absent.map (·, .absent) ++ lists.fatal.map (·, .fatal)

/-- Classes of error codes, the latest entry first. -/
structure ErrorTable where
  entries : List (String × CodeClass)
  deriving Repr

namespace ErrorTable

def empty : ErrorTable := ⟨[]⟩

/-- The new entry hides an older one for the same code. -/
def insert (t : ErrorTable) (code : String) (c : CodeClass) : ErrorTable :=
  ⟨(code, c) :: t.entries⟩

def insertAll (t : ErrorTable) (entries : List (String × CodeClass)) : ErrorTable :=
  entries.foldl (fun t (code, c) => t.insert code c) t

/-- Where lists overlap, the later class of `transient`, `transport`, `absent`, `fatal` wins. -/
def extend (t : ErrorTable) (lists : CodeLists) : ErrorTable := t.insertAll lists.entries

/-- The codes that need no configuration. -/
def builtIn : CodeLists where
  transient := ["InternalError", "RequestLimitExceeded", "ResourceBusy", "ResourceInUse",
    "ResourceUnavailable", "ResourceInUse.ActivityInProgress"]
  transport := ["ClientError.NetworkError", "ClientError.HttpStatusCodeError"]
  absent := ["ResourceNotFound", "InvalidInstanceId.NotFound"]

def standard : ErrorTable := empty.extend builtIn

def configured (lists : CodeLists) : ErrorTable := standard.extend lists

def entry? (t : ErrorTable) (code : String) : Option CodeClass := t.entries.lookup code

/-- A dotted path without its last part and the dot before it. -/
def parent? (path : List Char) : Option (List Char) :=
  match path.reverse.dropWhile (· ≠ '.') with
  | [] => none
  | _ :: rest => some rest.reverse

theorem length_lt_of_parent? {path up : List Char} (h : parent? path = some up) :
    up.length < path.length := by
  unfold parent? at h
  split at h
  · simp at h
  · next dot rest hrest =>
      obtain rfl := Option.some.inj h
      have hle := (List.dropWhile_sublist (· ≠ '.') (l := path.reverse)).length_le
      rw [hrest] at hle
      simp only [List.length_cons, List.length_reverse] at hle ⊢
      omega

/-- The class of the longest of a path and its parents that has an entry. -/
def lookupPath (t : ErrorTable) (path : List Char) : Option CodeClass :=
  match t.entry? (String.ofList path) with
  | some c => some c
  | none =>
    match _h : parent? path with
    | some up => lookupPath t up
    | none => none
  termination_by path.length
  decreasing_by exact length_lt_of_parent? _h

/-- The class of a code: its own entry, or else that of its nearest parent with one. -/
def lookup (t : ErrorTable) (code : String) : Option CodeClass := t.lookupPath code.toList

/-- A network failure may be retried only where the operation is idempotent; codes without a
class are fatal. -/
def judge (t : ErrorTable) (op : Operation) (e : RemoteError) : Verdict :=
  match t.lookup e.code with
  | some .transient => .retryable
  | some .transport => if op.idempotent then .retryable else .fatal
  | some .absent => .absent
  | some .fatal | none => .fatal

def isAbsent (t : ErrorTable) (e : RemoteError) : Bool := t.lookup e.code = some .absent

/-- The setback of an error, where `absent` is what the absence of the resource means. -/
def setback (t : ErrorTable) (op : Operation) (absent : Setback) (e : RemoteError) : Setback :=
  match t.judge op e with
  | .retryable => .retryable (.remote e)
  | .fatal => .fatal (.remote e)
  | .absent => absent

/-- A read of something absent ends with that finding. -/
def readSetback (t : ErrorTable) (op : Operation) (e : RemoteError) : Setback :=
  t.setback op (.fatal (.missing e)) e

/-- A write that misses something it needs is refused. -/
def writeSetback (t : ErrorTable) (op : Operation) (e : RemoteError) : Setback :=
  t.setback op (.fatal (.remote e)) e

/-- A poll may come before the resource is visible. -/
def pollSetback (t : ErrorTable) (op : Operation) (e : RemoteError) : Setback :=
  t.setback op (.retryable (.missing e)) e

/-- A deletion of something absent has succeeded. -/
def deleteSetback? (t : ErrorTable) (op : Operation) (e : RemoteError) : Option Setback :=
  if t.isAbsent e then none else some (t.writeSetback op e)

/-- A poll for the end of something absent has succeeded. -/
def gonePollSetback? (t : ErrorTable) (op : Operation) (e : RemoteError) : Option Setback :=
  if t.isAbsent e then none else some (t.pollSetback op e)

end ErrorTable

end Settle
