import LustreCsi.Model.LustreService

/-!
# Chains of errors

An error may wrap another one, which `errors.As` finds by unwrapping. The errors of the API client
come as gRPC status errors, as errors of the HTTP client (`googleapi.Error`), or as API errors
(`APIError`) made from either; the driver adds contexts (`fmt.Errorf`) and codes for other services
(`TemporaryError`). `statusError` turns a chain into a status error, whose code is chosen by
`codeForError`. The handlers' model keeps of an error only its text and where it comes from
(`ApiError`).
-/

set_option autoImplicit false

namespace LustreCsi.Model.Errors

/-! ## Errors -/

/-- `googleapi.Error`: the HTTP code and the message of an answer, and the text that `Error` prints.
SOURCE: vendor/google.golang.org/api/googleapi/googleapi.go:66-120 -/
structure HttpError where
  code : Int
  message : String
  text : String
  deriving DecidableEq

/-- The fields of an `APIError` but the error that it wraps; `details` is their printed text.
SOURCE: vendor/github.com/googleapis/gax-go/v2/apierror/apierror.go:219-224 -/
structure ApiInfo where
  status : Status
  httpErr : Option HttpError
  details : String
  deriving DecidableEq

/-- A chain of errors. The errors that may or may not wrap another one come in two forms. -/
inductive Err where
  | plain (text : String)
  | status (code : { c : Code // c ≠ .ok }) (message : String)
  | googleapi (h : HttpError)
  | googleapiOf (h : HttpError) (inner : Err)
  | apiError (a : ApiInfo)
  | apiErrorOf (a : ApiInfo) (inner : Err)
  | temporary (code : { c : Code // c ≠ .ok }) (inner : Err)
  | wrap (context : String) (inner : Err)
  deriving DecidableEq

/-- The text of an API error, given that of the error it wraps.
SOURCE: vendor/github.com/googleapis/gax-go/v2/apierror/apierror.go:237-249 -/
def ApiInfo.text (a : ApiInfo) (inner : Option String) : String :=
  let msg := match a.httpErr, inner with
    | some h, _ => s!"googleapi: Error {h.code}: {h.message}"
    | none, some innerText => innerText
    | none, none => a.status.message
  trimSpace (msg ++ "\n" ++ a.details)

namespace Err

/-- `err.Error()` -/
def text : Err → String
  | .plain text => text
  | .status code message => (Status.mk code.1 message).error
  | .googleapi h => h.text
  | .googleapiOf h _ => h.text
  | .apiError a => a.text none
  | .apiErrorOf a inner => a.text (some inner.text)
  | .temporary _ inner => inner.text
  | .wrap context inner => context ++ ": " ++ inner.text

/-- The error and those that it wraps, from the outside in. -/
def chain : Err → List Err
  | .googleapiOf h inner => .googleapiOf h inner :: inner.chain
  | .apiErrorOf a inner => .apiErrorOf a inner :: inner.chain
  | .temporary code inner => .temporary code inner :: inner.chain
  | .wrap context inner => .wrap context inner :: inner.chain
  | e => [e]

/-- `errors.As`: the first error of the chain that is of a certain type, seen as that type. -/
def as {α : Type} (view : Err → Option α) (e : Err) : Option α := e.chain.findSome? view

/-- `*common.TemporaryError`, by its code -/
def temporary? : Err → Option Code
  | .temporary code _ => some code.1
  | _ => none

/-- `*googleapi.Error` -/
def googleapi? : Err → Option HttpError
  | .googleapi h => some h
  | .googleapiOf h _ => some h
  | _ => none

/-- `*apierror.APIError` -/
def apiError? : Err → Option ApiInfo
  | .apiError a => some a
  | .apiErrorOf a _ => some a
  | _ => none

/-- The errors with a method `GRPCStatus`, by what it returns.
SOURCE: pkg/common/errors.go:46-52, vendor/google.golang.org/grpc/internal/status/status.go:216-218 -/
def grpcStatus? : Err → Option Status
  | .status code message => some ⟨code.1, message⟩
  | .apiError a => some a.status
  | .apiErrorOf a _ => some a.status
  | .temporary code inner => some ⟨code.1, inner.text⟩
  | _ => none

end Err

/-- `status.FromError`, where it is `ok`.
SOURCE: vendor/google.golang.org/grpc/status/status.go:96-127 -/
def statusFromError (e : Err) : Option Status :=
  match e.grpcStatus? with
  | some st => some st
  | none => (e.as Err.grpcStatus?).map fun st => { st with message := e.text }

/-! ## Making API errors -/

/-- SOURCE: vendor/github.com/googleapis/gax-go/v2/apierror/apierror.go:54-84 -/
def toCode (httpCode : Int) : Code :=
  if httpCode = 200 then .ok
  else if httpCode = 400 then .invalidArgument
  else if httpCode = 403 then .permissionDenied
  else if httpCode = 404 then .notFound
  else if httpCode = 409 then .aborted
  else if httpCode = 416 then .outOfRange
  else if httpCode = 429 then .resourceExhausted
  else if httpCode = 504 then .deadlineExceeded
  else if httpCode = 501 then .unimplemented
  else if httpCode = 503 then .unavailable
  else if httpCode = 401 then .unauthenticated
  else if 200 ≤ httpCode ∧ httpCode < 300 then .ok
  else if 400 ≤ httpCode ∧ httpCode < 500 then .failedPrecondition
  else if 500 ≤ httpCode ∧ httpCode < 600 then .internal
  else .unknown

/-- SOURCE: vendor/github.com/googleapis/gax-go/v2/apierror/apierror.go:299-316 -/
def apiInfo (details : String) (e : Err) : Option ApiInfo :=
  match statusFromError e with
  | some st => some ⟨st, none, details⟩
  | none => (e.as Err.googleapi?).map fun h => ⟨⟨toCode h.code, h.message⟩, some h, details⟩

/-- `apierror.ParseError`, which wraps the error or not; `apierror.FromError` wraps it.
SOURCE: vendor/github.com/googleapis/gax-go/v2/apierror/apierror.go:328-341 -/
def parseError (details : String) (e : Err) (wrap : Bool) : Option Err :=
  (apiInfo details e).map fun a => if wrap then .apiErrorOf a e else .apiError a

/-- SOURCE: vendor/github.com/googleapis/gax-go/v2/apierror/apierror.go:408-413 -/
def ApiInfo.httpCode (a : ApiInfo) : Int := a.httpErr.elim (-1) HttpError.code

/-! ## The classification -/

/-- SOURCE: pkg/cloud_provider/lustre/lustre.go:603-625 -/
def existingErrorCode (e : Err) : Option Code :=
  let fromTemporary := if (e.as Err.temporary?).isSome then (statusFromError e).map Status.code else none
  fromTemporary.or (if (e.as Err.googleapi?).isNone then (statusFromError e).map Status.code else none)

/-- SOURCE: pkg/cloud_provider/lustre/lustre.go:545-554 -/
def isUserOperationError (e : Err) : Option Code :=
  if (e.as Err.googleapi?).isNone then containsUserErrStr e.text else none

/-- SOURCE: pkg/cloud_provider/lustre/lustre.go:632-652 -/
def isGoogleAPIError (e : Err) : Option Code :=
  (e.as Err.googleapi?).bind fun googleErr =>
    let sourceCode := match e.as Err.apiError? with
      | some apiErr => apiErr.httpCode
      | none => googleErr.code
    sourceCode.toNat?.bind userErrorCodeMap

/-- SOURCE: pkg/cloud_provider/lustre/lustre.go:517-537 -/
def codeForError (e : Err) : Code :=
  ((existingErrorCode e).or ((isUserOperationError e).or
    ((isContextError e.text).or (isGoogleAPIError e)))).getD .internal

/-- `status.Error`, which is no error when the code is OK. -/
def newStatusError (code : Code) (message : String) : Option Err :=
  if h : code = .ok then none else some (.status ⟨code, h⟩ message)

/-- SOURCE: pkg/cloud_provider/lustre/lustre.go:498-504 -/
def statusError (err : Option Err) : Option Err :=
  err.bind fun e => newStatusError (codeForError e) e.text

/-- `status.Code` -/
def statusCode : Option Err → Code
  | none => .ok
  | some e => ((statusFromError e).map Status.code).getD .unknown

end LustreCsi.Model.Errors
