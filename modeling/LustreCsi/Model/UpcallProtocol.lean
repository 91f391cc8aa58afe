import LustreCsi.Computation.Json
import LustreCsi.Model.Node
import LustreCsi.Model.Upcall

/-!
# The proxy on the host and its server in the container

The kernel runs the proxy (`cmd/lustre-host-proxy`) on the host; it sends its arguments and its
environment over a Unix socket to the server in the container, which runs the command and sends back
exit code and output, both as JSON values. `ProtocolOp` has the operations of both sides, and
`ProtocolState.exec` what they may do: the environment chooses where a stream ends, since a peer may
die, a deadline may pass and a write may be cut off.

Streams are modelled by their characters. Where a stream ends within a character, or the limit of
the server does, the rest of it completes no value and is left out.
-/

set_option autoImplicit false

namespace LustreCsi.Model.Upcall

open LustreCsi.Computation

/-! ## Messages -/

/-- A list of strings as `encoding/json` writes it. -/
def jsonStrings (texts : List String) : Json := .arr (texts.map fun text => .str text.toList)

/-- SOURCE: pkg/upcall/server.go:42-45, cmd/lustre-host-proxy/main.go:35-38 -/
def Request.toJson (req : Request) : Json :=
  .obj [("args".toList, jsonStrings req.args), ("env".toList, jsonStrings req.env)]

/-- `strconv.FormatInt` in base ten. -/
def formatInt (n : Int) : List Char :=
  if n < 0 then '-' :: Nat.toDigits 10 n.natAbs else Nat.toDigits 10 n.natAbs

/-- The error is left out when it is empty.
SOURCE: pkg/upcall/server.go:47-52 -/
def Response.toJson (resp : Response) : Json :=
  .obj ([("exitCode".toList, .num (formatInt resp.exitCode)), ("stdout".toList, .str resp.stdout.toList),
    ("stderr".toList, .str resp.stderr.toList)] ++
      if resp.error = "" then [] else [("error".toList, .str resp.error.toList)])

/-- `json.Marshal` -/
def Request.marshal (req : Request) : List Char := req.toJson.print

/-- `Encoder.Encode` ends the value with a newline. -/
def Response.encode (resp : Response) : List Char := resp.toJson.print ++ ['\n']

/-- How `encoding/json` compares the names of fields: outside ASCII only two characters fold to a
letter. -/
def foldChar (c : Char) : Char :=
  if 'a' ≤ c ∧ c ≤ 'z' then c.toUpper
  else if c = 'ſ' then 'S' else if c = 'K' then 'K' else c

/-- The key of a member names the field. -/
def isField (key : List Char) (field : String) : Bool := key.map foldChar = field.toList.map foldChar

/-- A value for a string field; `null` leaves the field as it is, other types are an error. -/
def setText (old : String) : Json → Option String
  | .null => some old
  | .str text => some (String.ofList text)
  | _ => none

/-- A slice that is decoded into: its elements, and behind them in its array what an earlier and longer
value has left there. -/
structure Slice where
  elems : List String
  behind : List String

/-- The elements of an array, each decoded into what the slice holds at its place. -/
def setElems : List String → List Json → Option (List String)
  | _, [] => some []
  | old, v :: vs => do
    let text ← setText (old.headD "") v
    let texts ← setElems old.tail vs
    return text :: texts

/-- A value for a field of type `[]string`. A key that comes again is decoded into the same array; `null`
and an empty array give a new one. -/
def setTexts (old : Slice) : Json → Option Slice
  | .null => some ⟨[], []⟩
  | .arr [] => some ⟨[], []⟩
  | .arr elems =>
    let array := old.elems ++ old.behind
    (setElems array elems).map fun texts => ⟨texts, array.drop elems.length⟩
  | _ => none

/-- A value for a field of type `int`. -/
def setInt (old : Int) : Json → Option Int
  | .null => some old
  | .num spelling => (atoi (String.ofList spelling)).toOption
  | _ => none

/-- A request while it is decoded. -/
structure PartialRequest where
  args : Slice
  env : Slice

/-- One member of the object; unknown ones are passed over. -/
def PartialRequest.setField (req : PartialRequest) (m : List Char × Json) : Option PartialRequest :=
  if isField m.1 "args" then (setTexts req.args m.2).map fun args => { req with args := args }
  else if isField m.1 "env" then (setTexts req.env m.2).map fun env => { req with env := env }
  else some req

/-- `none` is an error of type `UnmarshalTypeError`. -/
def Request.ofJson : Json → Option Request
  | .null => some ⟨[], []⟩
  | .obj members =>
    (members.foldlM PartialRequest.setField ⟨⟨[], []⟩, ⟨[], []⟩⟩).map fun req =>
      ⟨req.args.elems, req.env.elems⟩
  | _ => none

def Response.setField (resp : Response) (m : List Char × Json) : Option Response :=
  if isField m.1 "exitCode" then (setInt resp.exitCode m.2).map fun code => { resp with exitCode := code }
  else if isField m.1 "stdout" then (setText resp.stdout m.2).map fun text => { resp with stdout := text }
  else if isField m.1 "stderr" then (setText resp.stderr m.2).map fun text => { resp with stderr := text }
  else if isField m.1 "error" then (setText resp.error m.2).map fun text => { resp with error := text }
  else some resp

def Response.ofJson : Json → Option Response
  | .null => some { exitCode := 0 }
  | .obj members => members.foldlM Response.setField { exitCode := 0 }
  | _ => none

/-- The texts of the errors of `encoding/json`, for a text that is no JSON and for a value of the wrong
type. -/
structure JsonErrors where
  invalid : List Char → String
  wrongType : Json → String

/-- A value that has been read, as a value of the type asked for. -/
def convert {α : Type} (errors : JsonErrors) (ofJson : Json → Option α) (v : Json) : Except String α :=
  match ofJson v with
  | some a => .ok a
  | none => .error (errors.wrongType v)

/-- `Decoder.Decode` on a stream that ends after the text. -/
def decode {α : Type} (errors : JsonErrors) (ofJson : Json → Option α) (text : List Char) :
    Except String α :=
  match Json.read text with
  | .done v _ => convert errors ofJson v
  | .more reader =>
    match reader.atEnd with
    | some v => convert errors ofJson v
    | none => .error (if text.all Json.isSpace then "EOF" else "unexpected EOF")
  | .bad => .error (errors.invalid text)

/-! ## The socket -/

/-- A connection: who has dialled, what has been sent either way, and whether the server has it. -/
structure Connection where
  peer : ℕ
  toServer : List Char
  toClient : List Char
  accepted : Bool

structure ProtocolState where
  connections : List Connection

/-- The operations of the two sides. Processes on the host are told apart by a number, and a command is
run for the connection that asked for it. -/
inductive ProtocolOp where
  | dial (pid : ℕ) (socketPath : String)
  | sendRequest (conn : ℕ) (text : List Char)
  | closeWrite (conn : ℕ)
  | readResponse (conn : ℕ)
  | accept
  | readRequest (conn : ℕ)
  | run (conn : ℕ) (command : Command)
  | sendResponse (conn : ℕ) (text : List Char)
  deriving DecidableEq

abbrev ProtocolOp.Res : ProtocolOp → Type
  | .dial _ _ => Except String ℕ
  | .sendRequest _ _ => Option String
  | .closeWrite _ => Unit
  | .readResponse _ => List Char
  | .accept => Option ℕ
  | .readRequest _ => List Char
  | .run _ _ => RunResult
  | .sendResponse _ _ => Option String

abbrev protocolSig : Sig := ⟨ProtocolOp, ProtocolOp.Res⟩

abbrev ProtocolM : Type → Type := Program protocolSig

/-- Perform an operation of the protocol. -/
def perform (o : ProtocolOp) : ProtocolM o.Res := Program.perform (S := protocolSig) o

/-- What the environment chooses. -/
inductive ProtocolChoice where
  | ok
  | fail (text : String)
  /-- A write is cut off after `n` characters. -/
  | sent (n : ℕ) (text : String)
  /-- The stream ends after `n` characters. -/
  | arrived (n : ℕ)
  /-- The server gets this connection. -/
  | taken (conn : ℕ)
  /-- The command ends like this. -/
  | ended (res : RunResult)

namespace ProtocolState

/-- Change a connection. -/
def modify (s : ProtocolState) (conn : ℕ) (f : Connection → Connection) : ProtocolState :=
  ⟨s.connections.modify conn f⟩

def exec (s : ProtocolState) : (o : ProtocolOp) → ProtocolChoice → Option (o.Res × ProtocolState)
  | .dial pid _, .ok => some (.ok s.connections.length, ⟨s.connections ++ [⟨pid, [], [], false⟩]⟩)
  | .dial _ _, .fail text => some (.error text, s)
  | .sendRequest conn text, .ok =>
    some (none, s.modify conn fun c => { c with toServer := c.toServer ++ text })
  | .sendRequest conn text, .sent n err =>
    some (some err, s.modify conn fun c => { c with toServer := c.toServer ++ text.take n })
  | .closeWrite _, .ok => some ((), s)
  | .readResponse conn, .arrived n => (s.connections[conn]?).map fun c => (c.toClient.take n, s)
  | .accept, .taken conn =>
    match s.connections[conn]? with
    | some c => if c.accepted then none else some (some conn, s.modify conn fun c => { c with accepted := true })
    | none => none
  | .accept, .fail _ => some (none, s)
  | .readRequest conn, .arrived n => (s.connections[conn]?).map fun c => (c.toServer.take n, s)
  | .run _ _, .ended res => some (res, s)
  | .sendResponse conn text, .ok =>
    some (none, s.modify conn fun c => { c with toClient := c.toClient ++ text })
  | .sendResponse conn text, .sent n err =>
    some (some err, s.modify conn fun c => { c with toClient := c.toClient ++ text.take n })
  | _, _ => none

/-- A step of the two sides and what lies between them. -/
abbrev step : ProtocolState → (o : protocolSig.Op) → protocolSig.Res o → ProtocolState → Prop :=
  stepOf (S := protocolSig) exec

end ProtocolState

/-! ## The server -/

/-- The server in the container: its environment, and how characters are folded. -/
structure Server where
  unicode : Unicode
  environ : List String
  errors : JsonErrors

/-- SOURCE: pkg/upcall/server.go:99-100 -/
def requestLimit : ℕ := 1024 * 1024

/-- `io.LimitReader`: the characters of the text that fit into the given number of bytes. -/
def limitReader : ℕ → List Char → List Char
  | _, [] => []
  | limit, c :: cs => if c.utf8Size ≤ limit then c :: limitReader (limit - c.utf8Size) cs else []

/-- SOURCE: pkg/upcall/server.go:111-117 -/
def sendResponse (conn : ℕ) (resp : Response) : ProtocolM Unit := do
  let _ ← perform (.sendResponse conn resp.encode)
  return ()

/-- SOURCE: pkg/upcall/server.go:95-109 -/
def handleConnection (server : Server) (conn : ℕ) : ProtocolM Unit := do
  let text ← perform (.readRequest conn)
  match decode server.errors Request.ofJson (limitReader requestLimit text) with
  | .error err => sendResponse conn { exitCode := 1, error := s!"invalid request format: {err}" }
  | .ok req =>
    let resp ← (executeCommand server.unicode server.environ req).translate
      fun command => perform (.run conn command)
    sendResponse conn resp

/-- A round of the loop of `StartServer`: a connection is accepted and handled.
SOURCE: pkg/upcall/server.go:81-92 -/
def acceptConnection (server : Server) : ProtocolM Unit := do
  match ← perform .accept with
  | none => return ()
  | some conn => handleConnection server conn

/-! ## The proxy -/

/-- SOURCE: cmd/lustre-host-proxy/main.go:28-33 -/
def defaultSocketPath : String := "/var/lib/kubelet/plugins/lustre.csi.storage.gke.io/ipc.sock"

def socketEnvVar : String := "LUSTRE_IPC_SOCKET"

/-- `os.Args` and `os.Environ()` of the proxy; the kernel always passes the name of the program. -/
structure Invocation where
  name : String
  params : List String
  environ : List String

/-- How the proxy ends: its exit status and what it has written. -/
structure Exit where
  status : ℕ
  stdout : String
  stderr : String
  deriving DecidableEq

/-- The command that is passed on, unless none is given.
SOURCE: cmd/lustre-host-proxy/main.go:48-60 -/
def Invocation.args (inv : Invocation) : Option (List String) :=
  if base inv.name = iamUpcallBinary then some (inv.name :: inv.params)
  else if inv.params = [] then none
  else some inv.params

/-- SOURCE: cmd/lustre-host-proxy/main.go:62-65 -/
def Invocation.socketPath (inv : Invocation) : String :=
  let path := (getenv inv.environ socketEnvVar).getD ""
  if path = "" then defaultSocketPath else path

/-- SOURCE: cmd/lustre-host-proxy/main.go:79 -/
def maxRetries : ℕ := 5

/-- The attempts to connect that are left, and what they write to the standard error.
SOURCE: cmd/lustre-host-proxy/main.go:82-89 -/
def dialAttempts (pid : ℕ) (socketPath : String) : ℕ → String → ProtocolM (String × Except String ℕ)
  | 0, err => return ("", .error err)
  | left + 1, _ => do
    match ← perform (.dial pid socketPath) with
    | .ok conn => return ("", .ok conn)
    | .error err =>
      let (written, res) ← dialAttempts pid socketPath left err
      return (s!"Attempt {maxRetries - left}: failed to connect to CSI IPC socket {socketPath}: {err}. " ++
        s!"Retrying in 1s...\n" ++ written, res)

/-- What `os.Exit` makes of a code. -/
def exitStatus (code : Int) : ℕ := (code % 256).toNat

/-- SOURCE: cmd/lustre-host-proxy/main.go:121-132 -/
def Response.exit (resp : Response) (written : String) : Exit where
  status := exitStatus resp.exitCode
  stdout := resp.stdout
  stderr := written ++ (if resp.error = "" then "" else s!"Container execution error: {resp.error}\n") ++
    resp.stderr

/-- What happens on the connection.
SOURCE: cmd/lustre-host-proxy/main.go:95-132 -/
def exchange (errors : JsonErrors) (conn : ℕ) (req : Request) (written : String) : ProtocolM Exit := do
  if let some err ← perform (.sendRequest conn req.marshal) then
    return ⟨1, "", written ++ s!"Error writing payload to socket: {err}\n"⟩
  perform (.closeWrite conn)
  let text ← perform (.readResponse conn)
  match decode errors Response.ofJson text with
  | .error err => return ⟨1, "", written ++ s!"Error decoding response from socket: {err}\n"⟩
  | .ok resp => return resp.exit written

/-- SOURCE: cmd/lustre-host-proxy/main.go:47-133 -/
def proxyMain (errors : JsonErrors) (pid : ℕ) (inv : Invocation) : ProtocolM Exit :=
  match inv.args with
  | none =>
    return ⟨1, "", s!"Usage: {inv.name} <command> [args...]\n"⟩
  | some args => do
    let (written, res) ← dialAttempts pid inv.socketPath maxRetries ""
    match res with
    | .error err =>
      return ⟨1, "", written ++ s!"Fatal: could not connect to CSI IPC socket {inv.socketPath} after " ++
        s!"{maxRetries} attempts: {err}\n"⟩
    | .ok conn => exchange errors conn ⟨args, inv.environ⟩ written

end LustreCsi.Model.Upcall
