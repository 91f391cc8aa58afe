import LustreCsi.Computation.Program
import LustreCsi.Model.Text

/-!
# The server for upcalls

On COS nodes the kernel's upcalls and the calls of `lctl` are passed on, by a proxy on the host, to
a server in the container, which runs the command there if it is one of a few (`executeCommand`,
`validateCommand`). What the child process finds in its environment (`childValue`) is the work of
`os/exec`, which keeps the last entry of a repeated name. Log lines are left out.
-/

set_option autoImplicit false

namespace LustreCsi.Model.Upcall

open LustreCsi.Computation

/-- SOURCE: pkg/upcall/server.go:35-38 -/
def iamUpcallBinary : String := "l_gssiam_upcall"

def iamUpcallPath : String := "/usr/sbin/l_gssiam_upcall"

def lctlPath : String := "/usr/sbin/lctl"

/-- SOURCE: pkg/upcall/server.go:42-45 -/
structure Request where
  args : List String
  env : List String
  deriving DecidableEq

/-- SOURCE: pkg/upcall/server.go:47-52 -/
structure Response where
  exitCode : Int
  stdout : String := ""
  stderr : String := ""
  error : String := ""
  deriving DecidableEq

/-- The error of a command: its exit code (`exec.ExitError`), or why it was not run to its end. -/
inductive RunError where
  | exit (code : Int)
  | other (text : String)
  deriving DecidableEq

/-- How a command ended. -/
structure RunResult where
  stdout : String
  stderr : String
  err : Option RunError
  deriving DecidableEq

/-- Run a command. -/
structure Command where
  path : String
  args : List String
  env : List String
  deriving DecidableEq

abbrev upcallSig : Sig := ⟨Command, fun _ => RunResult⟩

abbrev UpcallM : Type → Type := Program upcallSig

/-- `filepath.Base`. -/
def base (path : String) : String :=
  if path = "" then "."
  else
    let last := ((path.toList.reverse.dropWhile (· = '/')).takeWhile (· ≠ '/')).reverse
    if last = [] then "/" else String.ofList last

/-- SOURCE: pkg/upcall/server.go:186-191 -/
def allowedLustrePrefixes : List String := ["osc.", "mdc.", "llite.", "ldlm."]

/-- The text before the first equals sign.
SOURCE: pkg/upcall/server.go:203-206 -/
def keyOf (arg : String) : String := String.ofList (arg.toList.takeWhile (· ≠ '='))

/-- SOURCE: pkg/upcall/server.go:220-239 -/
def isAllowedParam (U : Unicode) (key : String) : Bool :=
  if contains (toLower U key) "upcall" then false
  else if '.' ∉ key.toList then false
  else
    let lastComponent := String.ofList (key.toList.reverse.takeWhile (· ≠ '.')).reverse
    if lastComponent = "" || containsAny lastComponent "*?[]\\" then false
    else allowedLustrePrefixes.any fun pre =>
      hasPrefix key pre && pre.toList.length < key.toList.length

/-- The loop over the parameters. -/
def validateParams (U : Unicode) : List String → Option String
  | [] => none
  | arg :: args =>
    if hasPrefix arg "-" then some s!"unauthorized lctl option/flag: {arg}"
    else
      let key := keyOf arg
      if isAllowedParam U key then validateParams U args
      else some s!"unauthorized lctl parameter key: {key}"

/-- SOURCE: pkg/upcall/server.go:193-217 -/
def validateCommand (U : Unicode) (binary : String) (args : List String) : Option String :=
  if binary = lctlPath then
    match args with
    | sub :: arg :: rest =>
      if sub ≠ "set_param" then some s!"unauthorized lctl subcommand or arguments: {printList args}"
      else validateParams U (arg :: rest)
    | _ => some s!"unauthorized lctl subcommand or arguments: {printList args}"
  else if binary = iamUpcallPath then none
  else some s!"unauthorized binary path execution request: {binary}"

/-- SOURCE: pkg/upcall/server.go:241-255 -/
def sanitizeEnv (env : List String) : List String :=
  env.filter fun v =>
    let key := keyOf v
    !(hasPrefix key "LD_" || hasPrefix key "PYTHON" || hasPrefix key "PERL")

/-- `environ` is the environment of the container.
SOURCE: pkg/upcall/server.go:119-183 -/
def executeCommand (U : Unicode) (environ : List String) (req : Request) : UpcallM Response :=
  match req.args with
  | [] => return { exitCode := 1, error := "empty command arguments" }
  | binary :: cmdArgs => do
    let binaryPath := if base binary = iamUpcallBinary then iamUpcallPath else binary
    match validateCommand U binaryPath cmdArgs with
    | some err => return { exitCode := 1, error := s!"security rejection: {err}" }
    | none =>
      let command : Command := ⟨binaryPath, cmdArgs, sanitizeEnv req.env ++ environ⟩
      let res ← Program.perform (S := upcallSig) command
      match res.err with
      | some (.exit code) => return { exitCode := code, stdout := res.stdout, stderr := res.stderr }
      | some (.other text) =>
        return { exitCode := 1, error := text, stdout := res.stdout, stderr := res.stderr }
      | none => return { exitCode := 0, stdout := res.stdout, stderr := res.stderr }

/-! ## The environment of the child -/

/-- The value that an entry of an environment gives to a variable: the text after its first equals sign,
if the text before is the name. -/
def valueOf (name entry : String) : Option String :=
  match entry.toList.dropWhile (· ≠ '=') with
  | [] => none
  | _ :: value => if keyOf entry = name then some (String.ofList value) else none

/-- What `os/exec` takes for the name in an entry: an equals sign at the front belongs to the name, if there
is a second one. -/
def dedupKey (entry : String) : Option String :=
  match entry.toList with
  | '=' :: rest =>
    some (if '=' ∈ rest then String.ofList ('=' :: rest.takeWhile (· ≠ '=')) else "")
  | _ => if '=' ∈ entry.toList then some (keyOf entry) else none

/-- `os/exec` passes the last entry of each name on to the child, and every entry without a name that is not
empty. -/
def dedupEnv : List String → List String
  | [] => []
  | entry :: env =>
    match dedupKey entry with
    | none => if entry = "" then dedupEnv env else entry :: dedupEnv env
    | some key =>
      if env.any fun later => dedupKey later = some key then dedupEnv env else entry :: dedupEnv env

/-- `getenv`: the first entry of the name counts, and no variable has the empty name. -/
def getenv (env : List String) (name : String) : Option String :=
  if name = "" then none else env.findSome? (valueOf name)

/-- What a process started with an environment finds in a variable. -/
def childValue (env : List String) (name : String) : Option String := getenv (dedupEnv env) name

end LustreCsi.Model.Upcall
