import Mathlib.Tactic.Common

/-!
# Errors

The gRPC status errors that the handlers return, and the errors of the operating system, with the
distinctions that the code makes (`os.IsNotExist`, `os.IsExist`, `ENOTEMPTY`,
`mount.IsCorruptedMnt`) and their texts.
-/

set_option autoImplicit false

namespace LustreCsi.Model

/-- The gRPC status codes. -/
inductive Code where
  | ok | canceled | unknown | invalidArgument | deadlineExceeded | notFound | alreadyExists
  | permissionDenied | resourceExhausted | failedPrecondition | aborted | outOfRange
  | unimplemented | internal | unavailable | dataLoss | unauthenticated
  deriving DecidableEq, Repr

/-- The name of a code, as `codes.Code.String` prints it. -/
def Code.text : Code → String
  | .ok => "OK"
  | .canceled => "Canceled"
  | .unknown => "Unknown"
  | .invalidArgument => "InvalidArgument"
  | .deadlineExceeded => "DeadlineExceeded"
  | .notFound => "NotFound"
  | .alreadyExists => "AlreadyExists"
  | .permissionDenied => "PermissionDenied"
  | .resourceExhausted => "ResourceExhausted"
  | .failedPrecondition => "FailedPrecondition"
  | .aborted => "Aborted"
  | .outOfRange => "OutOfRange"
  | .unimplemented => "Unimplemented"
  | .internal => "Internal"
  | .unavailable => "Unavailable"
  | .dataLoss => "DataLoss"
  | .unauthenticated => "Unauthenticated"

/-- A gRPC status error. -/
structure Status where
  code : Code
  message : String
  deriving DecidableEq, Repr

/-- The text of a status error, as its `Error` method prints it. -/
def Status.error (e : Status) : String := s!"rpc error: code = {e.code.text} desc = {e.message}"

/-- The kinds of operating-system errors that the code tells apart. -/
inductive ErrKind where
  | notExist | exist | notEmpty | corrupted | other
  deriving DecidableEq, Repr

/-- An error of a file-system or mount call. -/
structure OsError where
  kind : ErrKind
  text : String
  deriving DecidableEq, Repr

/-- One rune of a quoted text; beyond ASCII every rune counts as printable. -/
def quoteRune (c : Char) : List Char :=
  if c = '\x22' ∨ c = '\x5c' then ['\x5c', c]
  else if c = '\x07' then ['\x5c', 'a']
  else if c = '\x08' then ['\x5c', 'b']
  else if c = '\x0c' then ['\x5c', 'f']
  else if c = '\n' then ['\x5c', 'n']
  else if c = '\r' then ['\x5c', 'r']
  else if c = '\t' then ['\x5c', 't']
  else if c = '\x0b' then ['\x5c', 'v']
  else if c.toNat < 0x20 ∨ c.toNat = 0x7f then
    ['\x5c', 'x', Nat.digitChar (c.toNat / 16), Nat.digitChar (c.toNat % 16)]
  else [c]

/-- `strconv.Quote`, the `%q` verb of the messages. -/
def quote (s : String) : String :=
  "\"" ++ String.ofList (s.toList.flatMap quoteRune) ++ "\""

end LustreCsi.Model
