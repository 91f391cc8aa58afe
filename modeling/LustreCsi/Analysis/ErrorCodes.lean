import LustreCsi.Computation.Separator
import LustreCsi.Interface.Text
import LustreCsi.Model.Errors

/-!
# The codes of errors

`statusError` chooses the code from the types of the errors in the chain and from markers in the
text. `statusError_stable` says that wrapping and classifying again do not change it, and when it is
OK.
-/

set_option autoImplicit false

namespace LustreCsi.Analysis.ErrorCodes

open LustreCsi.Computation Model.Errors Interface
open Model hiding codeForError statusError

variable {context : String} {e : Err}

/-! ## Chains -/

/-- The chains that can be built; HTTP and API errors wrap another error or not. -/
inductive Chain : Err → Prop where
  | plain (text : String) : Chain (.plain text)
  | status (code : { c : Code // c ≠ .ok }) (message : String) : Chain (.status code message)
  | googleapi (h : HttpError) : Chain (.googleapi h)
  | googleapiOf (h : HttpError) {inner : Err} (hinner : Chain inner) : Chain (.googleapiOf h inner)
  | apiError {details : String} {inner e : Err} {wrap : Bool} (hinner : Chain inner)
      (h : parseError details inner wrap = some e) : Chain e
  | temporary (code : { c : Code // c ≠ .ok }) {inner : Err} (hinner : Chain inner) :
      Chain (.temporary code inner)
  | wrap (context : String) {inner : Err} (hinner : Chain inner) : Chain (.wrap context inner)

/-- The texts that the classification looks for. -/
def markers : List String :=
  ["PERMISSION_DENIED", "RESOURCE_EXHAUSTED", "INVALID_ARGUMENT", "NOT_FOUND",
    "context deadline exceeded", "context canceled"]

/-- A context without markers. -/
def Unmarked (context : String) : Prop := ∀ m ∈ markers, contains context m = false

/-- The error in further contexts, the first one outermost. -/
def wrapAll (contexts : List String) (e : Err) : Err := contexts.foldr Err.wrap e

/-- An API error that is made from an HTTP error with a code of success, and comes without it: no HTTP error
and no temporary error is in the chain. -/
structure BareSuccess (e : Err) : Prop where
  apiError : ∃ a, .apiError a ∈ e.chain ∧ a.status.code = .ok
  temporary : e.as Err.temporary? = none
  googleapi : e.as Err.googleapi? = none

/-! ## Wrapping -/

/-- No marker arises where the context and the text meet. -/
theorem contains_wrap {text m : String} (hm : m ∈ markers) (hctx : contains context m = false) :
    contains (context ++ ": " ++ text) m = contains text m := by
  have hall : markers.all (fun m => !m.toList.contains ':' && m.toList.head?.any (· != ' ')) = true := by
    decide
  have hshape := List.all_eq_true.mp hall m hm
  simp only [Bool.and_eq_true, Bool.not_eq_true', List.contains_eq_mem, decide_eq_false_iff_not] at hshape
  obtain ⟨hcolon, hhead⟩ := hshape
  have hctx' : ¬m.toList <:+: context.toList := by
    rw [← contains_iff, hctx]
    decide
  have hspace : ¬m.toList <+: ' ' :: text.toList := by
    intro h
    cases hlist : m.toList with
    | nil => simp [hlist] at hhead
    | cons c cs =>
      rw [hlist] at h hhead
      simp [(List.cons_prefix_cons.mp h).1] at hhead
  have htext : (context ++ ": " ++ text).toList = context.toList ++ ':' :: ' ' :: text.toList := by
    simp
  rw [Bool.eq_iff_iff, contains_iff, contains_iff, htext, infix_append_cons_iff hcolon,
    List.infix_cons_iff]
  tauto

/-- The texts of a wrapped error and of the error have the same markers. -/
theorem markers_wrap (h : Unmarked context) (text : String) :
    containsUserErrStr (context ++ ": " ++ text) = containsUserErrStr text ∧
      isContextError (context ++ ": " ++ text) = isContextError text := by
  have hsame : ∀ m ∈ markers, contains (context ++ ": " ++ text) m = contains text m := fun m hm =>
    contains_wrap hm (h m hm)
  simp only [markers, List.forall_mem_cons] at hsame
  simp only [containsUserErrStr, isContextError, hsame, and_self]

/-- A chain begins with the error itself. -/
theorem exists_chain_eq (e : Err) : ∃ rest, e.chain = e :: rest := by
  cases e <;> exact ⟨_, rfl⟩

/-- The code of the status is that of the first status of the chain. -/
theorem map_code_statusFromError (e : Err) :
    (statusFromError e).map Status.code = (e.as Err.grpcStatus?).map Status.code := by
  obtain ⟨rest, hchain⟩ := exists_chain_eq e
  unfold statusFromError
  cases hst : e.grpcStatus? with
  | some st => simp [Err.as, hchain, hst]
  | none =>
    simp only [Option.map_map]
    rfl

/-- A context without markers does not change the code. -/
theorem codeForError_wrap (h : Unmarked context) (e : Err) :
    codeForError (.wrap context e) = codeForError e := by
  have hexisting : existingErrorCode (.wrap context e) = existingErrorCode e := by
    simp only [existingErrorCode, map_code_statusFromError]
    rfl
  have huser : isUserOperationError (.wrap context e) = isUserOperationError e := by
    simp only [isUserOperationError, Err.text, (markers_wrap h _).1]
    rfl
  have hcontext : isContextError (Err.wrap context e).text = isContextError e.text :=
    (markers_wrap h _).2
  rw [codeForError, hexisting, huser, hcontext]
  rfl

/-- Nor do several of them. -/
theorem codeForError_wrapAll {contexts : List String} (h : ∀ context ∈ contexts, Unmarked context) (e : Err) :
    codeForError (wrapAll contexts e) = codeForError e := by
  induction contexts with
  | nil => rfl
  | cons context contexts ih =>
    rw [List.forall_mem_cons] at h
    exact (codeForError_wrap h.1 _).trans (ih h.2)

/-! ## Classifying again -/

/-- The code that is assigned. -/
theorem statusCode_statusError (e : Err) : statusCode (statusError (some e)) = codeForError e := by
  by_cases h : codeForError e = .ok
  · simp [statusError, newStatusError, h, statusCode]
  · simp [statusError, newStatusError, h, statusCode, statusFromError, Err.grpcStatus?]

/-- A status error has its own code. -/
theorem codeForError_status (code : { c : Code // c ≠ .ok }) (message : String) :
    codeForError (.status code message) = code.1 := rfl

/-- A status error keeps its code. -/
theorem statusCode_statusError_again (e : Err) :
    statusCode (statusError (statusError (some e))) = statusCode (statusError (some e)) := by
  rw [statusCode_statusError]
  by_cases h : codeForError e = .ok
  · simp [statusError, newStatusError, h, statusCode]
  have hfirst : statusError (some e) = some (.status ⟨_, h⟩ e.text) := by
    simp [statusError, newStatusError, h]
  rw [hfirst, statusCode_statusError, codeForError_status]

/-! ## OK -/

/-- Only a status that exists can be OK. -/
theorem codeForError_eq_ok : codeForError e = .ok ↔ existingErrorCode e = some .ok := by
  have huser : isUserOperationError e ≠ some .ok := by
    unfold isUserOperationError containsUserErrStr
    split_ifs <;> simp
  have hcontext : isContextError e.text ≠ some .ok := by
    unfold isContextError
    split_ifs <;> simp
  have hgoogle : isGoogleAPIError e ≠ some .ok := by
    unfold isGoogleAPIError
    intro h
    obtain ⟨googleErr, -, h⟩ := Option.bind_eq_some_iff.mp h
    obtain ⟨sourceCode, -, h⟩ := Option.bind_eq_some_iff.mp h
    unfold userErrorCodeMap at h
    split_ifs at h <;> simp at h
  unfold codeForError
  cases existingErrorCode e with
  | some c => simp
  | none =>
    cases huser' : isUserOperationError e with
    | some c => simpa [huser'] using huser
    | none =>
      cases hcontext' : isContextError e.text with
      | some c => simpa [hcontext'] using hcontext
      | none =>
        cases hgoogle' : isGoogleAPIError e with
        | some c => simpa [hgoogle'] using hgoogle
        | none => simp

/-- When a code is taken over. -/
theorem existingErrorCode_eq_some {c : Code} :
    existingErrorCode e = some c ↔ ((e.as Err.temporary?).isSome ∨ e.as Err.googleapi? = none) ∧
      (e.as Err.grpcStatus?).map Status.code = some c := by
  simp only [existingErrorCode, map_code_statusFromError]
  cases e.as Err.temporary? <;> cases e.as Err.googleapi? <;> simp

/-- A temporary error has a status. -/
theorem temporary_of_status (h : e.as Err.grpcStatus? = none) : e.as Err.temporary? = none := by
  unfold Err.as at h ⊢
  rw [List.findSome?_eq_none_iff] at h ⊢
  intro x hx
  have hstatus := h x hx
  cases x <;> first | rfl | cases hstatus

/-- An API error has the status of the error that it is made from, or one for its HTTP code. -/
theorem apiInfo_eq_some {details : String} {inner : Err} {a : ApiInfo} (h : apiInfo details inner = some a) :
    (inner.as Err.grpcStatus?).map Status.code = some a.status.code ∨
      inner.as Err.grpcStatus? = none ∧ (inner.as Err.googleapi?).isSome := by
  have hcode := map_code_statusFromError inner
  unfold apiInfo at h
  cases hst : statusFromError inner with
  | some st =>
    rw [hst] at h hcode
    cases h
    exact .inl hcode.symm
  | none =>
    rw [hst] at h hcode
    obtain ⟨g, hg, -⟩ := Option.map_eq_some_iff.mp h
    exact .inr ⟨Option.map_eq_none_iff.mp hcode.symm, by simp [hg]⟩

/-- What an API error is. -/
theorem parseError_eq_some {details : String} {inner : Err} {wrap : Bool}
    (h : parseError details inner wrap = some e) :
    ∃ a, apiInfo details inner = some a ∧ (e = .apiErrorOf a inner ∨ e = .apiError a) := by
  obtain ⟨a, ha, rfl⟩ := Option.map_eq_some_iff.mp h
  cases wrap with
  | false => exact ⟨a, ha, .inr rfl⟩
  | true => exact ⟨a, ha, .inl rfl⟩

/-- Where the first status of a chain is OK, there is no temporary error, and an HTTP error or a
bare API error. -/
theorem of_ok (h : Chain e) (hok : (e.as Err.grpcStatus?).map Status.code = some .ok) :
    e.as Err.temporary? = none ∧
      ((e.as Err.googleapi?).isSome ∨ ∃ a, .apiError a ∈ e.chain ∧ a.status.code = .ok) := by
  induction h with
  | plain text => cases hok
  | status code message | temporary code hinner ih => exact absurd (Option.some.inj hok) code.2
  | googleapi g => cases hok
  | googleapiOf g hinner ih => exact ⟨(ih hok).1, .inl rfl⟩
  | wrap context hinner ih =>
    obtain ⟨htemporary, hgoogle | ⟨a, ha, haok⟩⟩ := ih hok
    · exact ⟨htemporary, .inl hgoogle⟩
    · exact ⟨htemporary, .inr ⟨a, List.mem_cons_of_mem _ ha, haok⟩⟩
  | @apiError details inner e wrap hinner hparse ih =>
    obtain ⟨a, ha, rfl | rfl⟩ := parseError_eq_some hparse
    · have haok : a.status.code = .ok := Option.some.inj hok
      rcases apiInfo_eq_some ha with hcode | ⟨hnone, hgoogle⟩
      · obtain ⟨htemporary, hgoogle | ⟨a', ha', haok'⟩⟩ := ih (haok ▸ hcode)
        · exact ⟨htemporary, .inl hgoogle⟩
        · exact ⟨htemporary, .inr ⟨a', List.mem_cons_of_mem _ ha', haok'⟩⟩
      have htemporary : inner.as Err.temporary? = none := temporary_of_status hnone
      exact ⟨htemporary, .inl hgoogle⟩
    · exact ⟨rfl, .inr ⟨a, List.mem_singleton_self _, Option.some.inj hok⟩⟩

/-- The status of an API error that wraps nothing is handed outwards. -/
theorem ok_of_bareSuccess (h : Chain e) (hbare : BareSuccess e) :
    (e.as Err.grpcStatus?).map Status.code = some .ok := by
  obtain ⟨⟨b, hb, hbok⟩, htemporary, hgoogle⟩ := hbare
  induction h with
  | plain text => simp [Err.chain] at hb
  | status code message => simp [Err.chain] at hb
  | googleapi g => cases hgoogle
  | googleapiOf g hinner ih => cases hgoogle
  | temporary code hinner ih => cases htemporary
  | wrap context hinner ih => exact ih htemporary hgoogle (by simpa [Err.chain] using hb)
  | @apiError details inner e wrap hinner hparse ih =>
    obtain ⟨a, ha, rfl | rfl⟩ := parseError_eq_some hparse
    · have hok := ih htemporary hgoogle (by simpa [Err.chain] using hb)
      rcases apiInfo_eq_some ha with hcode | ⟨hnone, -⟩
      · exact hcode.symm.trans hok
      · simp [hnone] at hok
    · obtain rfl : b = a := by simpa [Err.chain] using hb
      exact congrArg some hbok

/-- **The code of an error is stable.** The code that `StatusError` assigns to a chain of errors does not
change when the chain is put into any number of contexts without markers, nor when the result is classified
again. It is OK only for an API error that was made from an HTTP error with a code of success without
wrapping it, and that comes without HTTP error and temporary error.

SOURCE: pkg/cloud_provider/lustre/lustre.go:496-656, pkg/common/errors.go:31-65 -/
theorem statusError_stable {e : Err} (h : Chain e) :
    (∀ contexts : List String, (∀ context ∈ contexts, Unmarked context) →
      statusCode (statusError (some (wrapAll contexts e))) = statusCode (statusError (some e))) ∧
    statusCode (statusError (statusError (some e))) = statusCode (statusError (some e)) ∧
    (statusCode (statusError (some e)) = .ok ↔ BareSuccess e) := by
  refine ⟨fun contexts hcontexts => ?_, statusCode_statusError_again e, ?_⟩
  · rw [statusCode_statusError, statusCode_statusError, codeForError_wrapAll hcontexts]
  · rw [statusCode_statusError, codeForError_eq_ok, existingErrorCode_eq_some]
    constructor
    · rintro ⟨hfound, hok⟩
      obtain ⟨htemporary, hbare⟩ := of_ok h hok
      have hgoogle : e.as Err.googleapi? = none := hfound.resolve_left (by simp [htemporary])
      exact ⟨hbare.resolve_left (by simp [hgoogle]), htemporary, hgoogle⟩
    · intro hbare
      exact ⟨.inr hbare.googleapi, ok_of_bareSuccess h hbare⟩

/-- A missing instance, as the API client reports it. -/
def missing : Err :=
  let answer : HttpError := ⟨404, "not found", "googleapi: Error 404: not found"⟩
  .apiErrorOf ⟨⟨.notFound, "not found"⟩, some answer, ""⟩ (.googleapi answer)

/-- The error is a chain of the kinds considered. -/
theorem chain_missing : Chain missing := by
  have hparse : parseError "" (.googleapi ⟨404, "not found", "googleapi: Error 404: not found"⟩) true =
    some missing := rfl
  exact .apiError (.googleapi _) hparse

/-- A missing instance stays one in a context. -/
theorem statusError_stable_missing :
    Chain missing ∧ statusCode (statusError (some missing)) = .notFound ∧
      statusCode (statusError (some (wrapAll ["failed to get instance"] missing))) = .notFound ∧
      ¬BareSuccess missing := by
  obtain ⟨hwrap, -, hok⟩ := statusError_stable chain_missing
  have hcode : statusCode (statusError (some missing)) = .notFound := by decide +kernel
  have hunmarked : ∀ context ∈ ["failed to get instance"], Unmarked context := by
    intro context hcontext m hm
    obtain rfl : context = "failed to get instance" := by simpa using hcontext
    have hall : markers.all (fun m => !contains "failed to get instance" m) = true := by decide +kernel
    simpa using List.all_eq_true.mp hall m hm
  refine ⟨chain_missing, hcode, (hwrap _ hunmarked).trans hcode, fun hbare => ?_⟩
  rw [hok.mpr hbare] at hcode
  cases hcode

/-- The API error that is made from an HTTP answer with a code of success, without wrapping it. -/
def bareNoContent : Err :=
  .apiError ⟨⟨.ok, ""⟩, some ⟨204, "", "googleapi: got HTTP response code 204 with body: "⟩, ""⟩

/-- The code can be OK, and then `StatusError` returns no error: the API error that `apierror.ParseError` makes
from an HTTP answer 204 without wrapping it has the status OK. -/
theorem statusError_bareNoContent :
    Chain bareNoContent ∧ statusError (some bareNoContent) = none ∧
      ¬∀ e, Chain e → statusCode (statusError (some e)) ≠ .ok := by
  have hparse : parseError "" (.googleapi ⟨204, "", "googleapi: got HTTP response code 204 with body: "⟩) false =
    some bareNoContent := rfl
  have hchain : Chain bareNoContent := .apiError (.googleapi _) hparse
  have hnone : statusError (some bareNoContent) = none := by decide +kernel
  refine ⟨hchain, hnone, fun hnever => hnever bareNoContent hchain ?_⟩
  rw [hnone]
  rfl

/-! ## The errors of the handlers -/

/-- The chain has the text of an error of the API client, and comes from where that comes from. -/
structure Represents (err : ApiError) (e : Err) : Prop where
  text : e.text = err.text
  grpc : ∀ code, err.source = .grpc code → (e.as Err.grpcStatus?).map Status.code = some code.1 ∧
    ((e.as Err.temporary?).isSome ∨ e.as Err.googleapi? = none)
  googleapi : ∀ n, err.source = .googleapi n → e.as Err.temporary? = none ∧
    (e.as Err.googleapi?).map HttpError.code = some (n : Int) ∧
    ∀ a, e.as Err.apiError? = some a → a.httpCode = n
  plain : err.source = .plain → e.as Err.grpcStatus? = none ∧ e.as Err.googleapi? = none

/-- The contexts that the handlers add are those of the chain. -/
theorem Represents.wrap {err : ApiError} (h : Represents err e) (context : String) :
    Represents (err.wrap context) (.wrap context e) where
  text := congrArg (context ++ ": " ++ ·) h.text
  grpc := h.grpc
  googleapi := h.googleapi
  plain := h.plain

/-- The handlers' classification of an error is that of its chain. -/
theorem codeForError_of_represents {err : ApiError} (h : Represents err e) :
    codeForError e = Model.codeForError err := by
  cases hsource : err.source with
  | grpc code =>
    obtain ⟨hstatus, hfound⟩ := h.grpc code hsource
    have hexisting := existingErrorCode_eq_some.mpr ⟨hfound, hstatus⟩
    simp [codeForError, hexisting, Model.codeForError, hsource]
  | googleapi n =>
    obtain ⟨htemporary, hgoogle, hapi⟩ := h.googleapi n hsource
    obtain ⟨g, hg, hcode⟩ := Option.map_eq_some_iff.mp hgoogle
    have hexisting : existingErrorCode e = none := by simp [existingErrorCode, htemporary, hg]
    have hmap : isGoogleAPIError e = userErrorCodeMap n := by
      unfold isGoogleAPIError
      rw [hg]
      cases hapi' : e.as Err.apiError? with
      | none => simp [hcode, Int.toNat?]
      | some a => simp [hapi a hapi', Int.toNat?]
    simp [codeForError, hexisting, isUserOperationError, hg, hmap, Model.codeForError, hsource, h.text]
  | plain =>
    obtain ⟨hstatus, hgoogle⟩ := h.plain hsource
    have hexisting : existingErrorCode e = none := by
      simp [existingErrorCode, map_code_statusFromError, hstatus]
    simp [codeForError, hexisting, isUserOperationError, isGoogleAPIError, hgoogle, Model.codeForError,
      hsource, h.text]

end LustreCsi.Analysis.ErrorCodes
