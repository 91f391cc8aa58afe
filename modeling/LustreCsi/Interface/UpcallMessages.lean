import LustreCsi.Model.UpcallProtocol

/-!
# The messages of the upcall protocol

What one side writes is what the other side reads (`decode_marshal`, `decode_encode`), and a message
of which the end is missing is refused (`decode_request_cut`, `decode_response_complete`).
-/

set_option autoImplicit false

namespace LustreCsi.Interface

open LustreCsi.Computation Model Model.Upcall

variable {s : List Char} {resp : Response} (errors : JsonErrors)

/-! ## Numbers -/

/-- The decimal digits of a number, with no zero in front. -/
theorem toDigits_eq_cons (n : ℕ) : ∃ c cs, Nat.toDigits 10 n = c :: cs ∧ (c :: cs).all Char.isDigit = true ∧
    (c = '0' → cs = []) := by
  have hdigits : (Nat.toDigits 10 n).all Char.isDigit = true := by
    rw [List.all_eq_true]
    exact fun c hc => Nat.isDigit_of_mem_toDigits (by decide) (by decide) hc
  -- Induction on the number: a digit is appended to the digits of a number that is not zero.
  induction n using Nat.strong_induction_on with
  | _ n ih =>
    by_cases hn : n < 10
    · rw [Nat.toDigits_of_lt_base hn] at hdigits ⊢
      exact ⟨_, [], rfl, hdigits, fun _ => rfl⟩
    have hpos : 0 < n / 10 := Nat.div_pos (by omega) (by decide)
    rw [Nat.toDigits_of_base_le (by decide) (by omega)] at hdigits ⊢
    rw [List.all_append, Bool.and_eq_true] at hdigits
    obtain ⟨c, cs, hcs, hall, hzero⟩ := ih (n / 10) (by omega) hdigits.1
    refine ⟨c, cs ++ [Nat.digitChar (n % 10)], by rw [hcs]; rfl, ?_, fun hc => ?_⟩
    · rw [← List.cons_append, List.all_append, hall, hdigits.2]
      rfl
    · -- Only the digits of zero start with a zero.
      have hvalue : Nat.ofDigitChars 10 (Nat.toDigits 10 (n / 10)) 0 = n / 10 :=
        Nat.ofDigitChars_toDigits (by decide) (by decide)
      rw [hcs, hc, hzero hc] at hvalue
      simp only [Nat.ofDigitChars, List.foldl_cons, List.foldl_nil] at hvalue
      omega

/-- More digits are a number as well. -/
theorem foldlM_digits {cs : List Char} (h : cs.all Char.isDigit = true) :
    cs.foldlM Json.Phase.next .digits = some .digits := by
  induction cs with
  | nil => rfl
  | cons c cs ih =>
    rw [List.all_cons, Bool.and_eq_true] at h
    rw [List.foldlM_cons]
    simp only [Json.Phase.next, h.1, if_true]
    exact ih h.2

/-- Integers are printed as numbers of JSON. -/
theorem isNumber_formatInt (n : Int) : Json.isNumber (formatInt n) = true := by
  obtain ⟨c, cs, hcs, hall, hzero⟩ := toDigits_eq_cons n.natAbs
  rw [List.all_cons, Bool.and_eq_true] at hall
  have hminus : c ≠ '-' := by
    rintro rfl
    exact absurd hall.1 (by decide)
  unfold formatInt
  rw [hcs]
  by_cases hc : c = '0'
  · rw [hzero hc, hc]
    split <;> rfl
  split
  · simp only [Json.isNumber, if_true, Option.bind_some, List.foldlM_cons, Json.Phase.next, hc, hall.1,
      if_false]
    rw [show (do let s' ← some Json.Phase.digits; cs.foldlM Json.Phase.next s') =
      cs.foldlM Json.Phase.next .digits from rfl, foldlM_digits hall.2]
    rfl
  · simp only [Json.isNumber, hminus, hc, hall.1, if_true, if_false, Option.bind_some,
      foldlM_digits hall.2]
    rfl

/-- A value of the type `int`. -/
def IsGoInt (n : Int) : Prop := -9223372036854775808 ≤ n ∧ n < 9223372036854775808

/-- A number that fits into 64 bits is read back. -/
theorem atoi_formatInt {n : Int} (h : IsGoInt n) : atoi (String.ofList (formatInt n)) = .ok n := by
  unfold IsGoInt at h
  obtain ⟨c, cs, hcs, hall, -⟩ := toDigits_eq_cons n.natAbs
  have hvalue : (c :: cs).foldl (fun n c => 10 * n + (c.toNat - '0'.toNat)) 0 = n.natAbs := by
    rw [← hcs]
    exact Nat.ofDigitChars_toDigits (by decide) (by decide)
  have hdigits : ¬(c :: cs = [] ∨ ¬(c :: cs).all Char.isDigit = true) := by simp [hall]
  have hsplit : ∀ d, d.isDigit = false → c ≠ d := by
    rintro d hd rfl
    rw [List.all_cons, hd] at hall
    cases hall
  have hrange : n.natAbs < 2 ^ 63 ∨ (n < 0 ∧ n.natAbs = 2 ^ 63) := by omega
  by_cases hneg : n < 0
  · obtain ⟨text, htext⟩ : ∃ text, text = String.ofList ('-' :: c :: cs) := ⟨_, rfl⟩
    have hsign : atoi text = if n.natAbs < 2 ^ 63 ∨ (true ∧ n.natAbs = 2 ^ 63) then .ok (-(n.natAbs : Int))
        else .error s!"strconv.Atoi: parsing {quote text}: value out of range" := by
      simp only [atoi, htext, String.toList_ofList, hdigits, if_false, hvalue, if_true, Nat.pow_eq]
    rw [formatInt, if_pos hneg, hcs, ← htext, hsign, if_pos (hrange.imp id fun h => ⟨rfl, h.2⟩)]
    congr 1
    omega
  · have hsign : atoi (String.ofList (c :: cs)) = if n.natAbs < 2 ^ 63 ∨ (false ∧ n.natAbs = 2 ^ 63)
        then .ok (n.natAbs : Int)
        else .error s!"strconv.Atoi: parsing {quote (String.ofList (c :: cs))}: value out of range" := by
      have hminus : ∀ ds, c :: cs ≠ '-' :: ds := fun ds h => hsplit '-' rfl (List.cons.inj h).1
      have hplus : ∀ ds, c :: cs ≠ '+' :: ds := fun ds h => hsplit '+' rfl (List.cons.inj h).1
      simp only [atoi, String.toList_ofList]
      simp only [hdigits, if_false, hvalue, Nat.pow_eq, Bool.false_eq_true]
    rw [formatInt, if_neg hneg, hcs, hsign, if_pos (.inl (by omega))]
    congr 1
    omega

/-! ## Values -/

/-- Strings replace what the slice held. -/
theorem setElems_strings (old texts : List String) :
    setElems old (texts.map fun text => .str text.toList) = some texts := by
  induction texts generalizing old with
  | nil => rfl
  | cons text texts ih =>
    simp only [List.map_cons, setElems, setText, String.ofList_toList, ih]
    rfl

/-- A list of strings is decoded as it was written, whatever the slice held. -/
theorem setTexts_jsonStrings (old : Slice) (texts : List String) :
    ∃ behind, setTexts old (jsonStrings texts) = some ⟨texts, behind⟩ := by
  cases texts with
  | nil => exact ⟨[], rfl⟩
  | cons text texts =>
    have h := setElems_strings (old.elems ++ old.behind) (text :: texts)
    simp only [jsonStrings, setTexts, List.map_cons] at h ⊢
    exact ⟨_, by rw [h, Option.map_some]⟩

/-- A request is read back from its value. -/
theorem ofJson_toJson_request (req : Request) : Request.ofJson req.toJson = some req := by
  have hargs : isField "args".toList "args" = true := by decide
  have henv : isField "env".toList "args" = false ∧ isField "env".toList "env" = true := by decide
  obtain ⟨behindArgs, hsetArgs⟩ := setTexts_jsonStrings ⟨[], []⟩ req.args
  obtain ⟨behindEnv, hsetEnv⟩ := setTexts_jsonStrings ⟨[], []⟩ req.env
  simp only [Request.toJson, Request.ofJson, List.foldlM_cons, List.foldlM_nil, PartialRequest.setField,
    hargs, henv, hsetArgs, if_true, Bool.false_eq_true, if_false, Option.map_some, Option.bind_eq_bind,
    Option.bind_some, hsetEnv]
  rfl

/-- A list of texts is nested no deeper than it stands. -/
theorem fitElems_strings (n : ℕ) (texts : List String) :
    Json.FitElems n (texts.map fun text => .str text.toList) := by
  induction texts with
  | nil => trivial
  | cons text texts ih => exact ⟨trivial, ih⟩

/-- Requests are within the nesting limit. -/
theorem fits_request (req : Request) : req.toJson.Fits 0 :=
  ⟨by decide, ⟨by decide, fitElems_strings 2 _⟩, ⟨by decide, fitElems_strings 2 _⟩, trivial⟩

/-- A key names the field of its name. -/
theorem isField_self (field : String) : isField field.toList field = true := decide_eq_true rfl

section Fields

variable (resp : Response) (text : String)

/-- The exit code is read back. -/
theorem setField_exitCode {n : Int} (h : IsGoInt n) :
    resp.setField ("exitCode".toList, .num (formatInt n)) = some { resp with exitCode := n } := by
  have hvalue : setInt resp.exitCode (.num (formatInt n)) = some n := by
    simp only [setInt, atoi_formatInt h]
    rfl
  exact (if_pos (isField_self "exitCode")).trans (congrArg (Option.map _) hvalue)

/-- The output is read back. -/
theorem setField_stdout :
    resp.setField ("stdout".toList, .str text.toList) = some { resp with stdout := text } := by
  unfold Response.setField
  dsimp only
  rw [if_neg (by decide), if_pos (isField_self _)]
  simp only [setText, String.ofList_toList, Option.map_some]

/-- The messages are read back. -/
theorem setField_stderr :
    resp.setField ("stderr".toList, .str text.toList) = some { resp with stderr := text } := by
  unfold Response.setField
  dsimp only
  rw [if_neg (by decide), if_neg (by decide), if_pos (isField_self _)]
  simp only [setText, String.ofList_toList, Option.map_some]

/-- The error is read back. -/
theorem setField_error :
    resp.setField ("error".toList, .str text.toList) = some { resp with error := text } := by
  unfold Response.setField
  dsimp only
  rw [if_neg (by decide), if_neg (by decide), if_neg (by decide), if_pos (isField_self _)]
  simp only [setText, String.ofList_toList, Option.map_some]

end Fields

/-- A response is read back from its value. -/
theorem ofJson_toJson_response (h : IsGoInt resp.exitCode) :
    Response.ofJson resp.toJson = some resp := by
  unfold Response.toJson Response.ofJson
  simp only [List.cons_append, List.nil_append, List.foldlM_cons, setField_exitCode _ h, setField_stdout,
    setField_stderr, Option.bind_eq_bind, Option.bind_some]
  by_cases hempty : resp.error = ""
  · rw [if_pos hempty, List.foldlM_nil, ← hempty]
    rfl
  rw [if_neg hempty, List.foldlM_cons, setField_error]
  rfl

/-- Responses are within the nesting limit. -/
theorem fits_response (resp : Response) : resp.toJson.Fits 0 := by
  refine ⟨by decide, isNumber_formatInt _, trivial, trivial, ?_⟩
  by_cases h : resp.error = ""
  · simp only [h, if_true]
    trivial
  simp only [h, if_false]
  exact ⟨trivial, trivial⟩

/-! ## Streams -/

section Streams

variable {α : Type} (errors : JsonErrors) {ofJson : Json → Option α} {v : Json} {a : α}

/-- A message that has arrived. -/
theorem decode_print (hfits : v.Fits 0) (hv : ∀ spelling, v ≠ .num spelling) (ha : ofJson v = some a)
    (rest : List Char) : decode errors ofJson (v.print ++ rest) = .ok a := by
  simp only [decode, Json.read_print hfits hv, convert, ha]

/-- A message of which only a part has arrived. -/
theorem decode_cut (hfits : v.Fits 0) (hv : ∀ spelling, v ≠ .num spelling) {s t : List Char}
    (hcut : s ++ t = v.print) (ht : t ≠ []) :
    decode errors ofJson s = .error (if s.all Json.isSpace then "EOF" else "unexpected EOF") := by
  obtain ⟨q, hread, hend⟩ := Json.read_cut hfits hv hcut ht
  simp only [decode, hread, hend]

end Streams

/-- A request is decoded from its text. -/
theorem decode_marshal (req : Request) :
    decode errors Request.ofJson req.marshal = .ok req := by
  have h := decode_print errors (fits_request req) (fun _ h => by cases h) (ofJson_toJson_request req) []
  rwa [List.append_nil] at h

/-- A response is decoded from its text. -/
theorem decode_encode (h : IsGoInt resp.exitCode) :
    decode errors Response.ofJson resp.encode = .ok resp :=
  decode_print errors (fits_response resp) (fun _ h => by cases h) (ofJson_toJson_response h) ['\n']

/-- A part of a request is no request. -/
theorem decode_request_cut {req : Request} (h : s <+: req.marshal) (hne : s ≠ req.marshal) :
    ∃ err, decode errors Request.ofJson s = .error err := by
  obtain ⟨t, ht⟩ := h
  refine ⟨_, decode_cut errors (fits_request req) (fun _ h => by cases h) ht ?_⟩
  rintro rfl
  exact hne (by rw [← ht, List.append_nil])

/-- A response is decoded only if all of it has arrived, but for the newline. -/
theorem decode_response_complete {resp' : Response} (h : s <+: resp.encode)
    (hok : decode errors Response.ofJson s = .ok resp') :
    resp.toJson.print <+: s := by
  obtain ⟨t, ht⟩ := h
  rw [Response.encode, List.append_eq_append_iff] at ht
  rcases ht with ⟨u, hu, -⟩ | ⟨u, rfl, -⟩
  · by_cases hempty : u = []
    · rw [hu, hempty, List.append_nil]
    · rw [decode_cut errors (fits_response resp) (fun _ h => by cases h) hu.symm hempty] at hok
      cases hok
  · exact List.prefix_append _ _

/-- What is decoded of a part of a response is the response. -/
theorem decode_response_part {resp' : Response} (hcode : IsGoInt resp.exitCode)
    (h : s <+: resp.encode) (hok : decode errors Response.ofJson s = .ok resp') :
    resp' = resp := by
  obtain ⟨rest, rfl⟩ := decode_response_complete errors h hok
  rw [decode_print errors (fits_response resp) (fun _ h => by cases h) (ofJson_toJson_response hcode)] at hok
  exact (Except.ok.inj hok).symm

/-- What the limit lets through is a part of the text from its beginning. -/
theorem limitReader_isPrefix (limit : ℕ) (text : List Char) : limitReader limit text <+: text := by
  induction text generalizing limit with
  | nil => exact List.nil_prefix
  | cons c cs ih =>
    simp only [limitReader]
    split
    · exact (List.prefix_cons_inj c).mpr (ih _)
    · exact List.nil_prefix

/-- The number of bytes of a text. -/
def byteLength : List Char → ℕ
  | [] => 0
  | c :: cs => c.utf8Size + byteLength cs

/-- A text within the limit gets through. -/
theorem limitReader_eq_self {limit : ℕ} {text : List Char} (h : byteLength text ≤ limit) :
    limitReader limit text = text := by
  induction text generalizing limit with
  | nil => rfl
  | cons c cs ih =>
    simp only [byteLength] at h
    rw [limitReader, if_pos (by omega), ih (by omega)]

/-- A text beyond the limit does not get through. -/
theorem limitReader_ne_self {limit : ℕ} {text : List Char} (h : limit < byteLength text) :
    limitReader limit text ≠ text := by
  induction text generalizing limit with
  | nil => simp [byteLength] at h
  | cons c cs ih =>
    simp only [byteLength] at h
    simp only [limitReader]
    split
    · exact fun heq => ih (by omega) (List.cons.inj heq).2
    · simp

end LustreCsi.Interface
