import Mathlib.Data.List.Basic

/-!
# JSON, written at once and read character by character

`Reader` is the state of a reader between two characters of a stream that may end anywhere, and
`Reader.step` what the next one does, as in the scanner of `encoding/json`: nesting has a limit,
numbers are kept as they are spelt, and a surrogate that is not one of a pair becomes U+FFFD.
`Reader.run` reads until the value is complete, and leaves the rest.

* A longer text is read like its beginning (`run_append`), and no part is taken for the whole
  (`run_of_cut`).
* What `print` writes is read back, whatever follows (`read_print`).
-/

set_option autoImplicit false

namespace LustreCsi.Computation

variable {s rest t : List Char} {c : Char} {n : ℕ}

/-- A JSON value; a number is given by its spelling. -/
inductive Json where
  | null
  | bool (b : Bool)
  | num (spelling : List Char)
  | str (text : List Char)
  | arr (elems : List Json)
  | obj (members : List (List Char × Json))

namespace Json

def quoteChar : Char := '\x22'

def backslash : Char := '\x5c'

def openBrace : Char := '\x7b'

def closeBrace : Char := '\x7d'

/-- The value of a hexadecimal digit. -/
def hexValue (c : Char) : Option ℕ :=
  if '0' ≤ c ∧ c ≤ '9' then some (c.toNat - 48)
  else if 'a' ≤ c ∧ c ≤ 'f' then some (c.toNat - 87)
  else if 'A' ≤ c ∧ c ≤ 'F' then some (c.toNat - 55)
  else none

/-- The digits with which numbers of code points are written. -/
def hexDigit (n : ℕ) : Char := Char.ofNat (if n < 10 then 48 + n else 87 + n)

/-! ## Writing -/

/-- The escape sequence for a code point below 2^16. -/
def escapeCode (n : ℕ) : List Char :=
  [backslash, 'u', hexDigit (n / 4096 % 16), hexDigit (n / 256 % 16), hexDigit (n / 16 % 16),
    hexDigit (n % 16)]

/-- One character of a string. -/
def escape (c : Char) : List Char :=
  if c = quoteChar ∨ c = backslash then [backslash, c]
  else if c = '\x08' then [backslash, 'b']
  else if c = '\x0c' then [backslash, 'f']
  else if c = '\n' then [backslash, 'n']
  else if c = '\r' then [backslash, 'r']
  else if c = '\t' then [backslash, 't']
  else if c.toNat < 0x20 ∨ c ∈ ['<', '>', '&', '\u2028', '\u2029'] then escapeCode c.toNat
  else [c]

def printText (text : List Char) : List Char := quoteChar :: text.flatMap escape ++ [quoteChar]

mutual

def print : Json → List Char
  | .null => "null".toList
  | .bool true => "true".toList
  | .bool false => "false".toList
  | .num spelling => spelling
  | .str text => printText text
  | .arr elems => '[' :: printElems elems
  | .obj members => openBrace :: printMembers members

/-- The elements of an array, with the bracket at the end. -/
def printElems : List Json → List Char
  | [] => [']']
  | [v] => print v ++ [']']
  | v :: w :: vs => print v ++ ',' :: printElems (w :: vs)

/-- The members of an object, with the brace at the end. -/
def printMembers : List (List Char × Json) → List Char
  | [] => [closeBrace]
  | [(key, v)] => printText key ++ ':' :: print v ++ [closeBrace]
  | (key, v) :: m :: ms => printText key ++ ':' :: print v ++ ',' :: printMembers (m :: ms)

end

/-! ## Reading -/

/-- What the reader is within. -/
inductive Frame where
  /-- An array with these elements so far, the last one first. -/
  | elems (before : List Json)
  /-- The member with this key, after those so far. -/
  | member (before : List (List Char × Json)) (key : List Char)

/-- How far a number has been read. -/
inductive Phase where
  | minus
  | zero
  | digits
  | point
  | fraction
  | exponent
  | sign
  | power
  deriving DecidableEq

/-- The next character of a number. -/
def Phase.next : Phase → Char → Option Phase
  | .minus, c => if c = '0' then some .zero else if c.isDigit then some .digits else none
  | .zero, c => if c = '.' then some .point else if c = 'e' ∨ c = 'E' then some .exponent else none
  | .digits, c =>
    if c.isDigit then some .digits
    else if c = '.' then some .point
    else if c = 'e' ∨ c = 'E' then some .exponent else none
  | .point, c => if c.isDigit then some .fraction else none
  | .fraction, c =>
    if c.isDigit then some .fraction else if c = 'e' ∨ c = 'E' then some .exponent else none
  | .exponent, c => if c.isDigit then some .power else if c = '+' ∨ c = '-' then some .sign else none
  | .sign, c => if c.isDigit then some .power else none
  | .power, c => if c.isDigit then some .power else none

/-- The number may end here. -/
def Phase.complete : Phase → Bool
  | .zero => true
  | .digits => true
  | .fraction => true
  | .power => true
  | _ => false

/-- What a string is read for: a value, or the key of a member. -/
inductive Purpose where
  | value
  | key (before : List (List Char × Json))

/-- Where in a string the reader is: between characters, behind a backslash, or in an escape sequence
of which these digits have been read. -/
inductive Place where
  | plain
  | escaped
  | code (digits : ℕ) (value : ℕ)

/-- The state of a reader between two characters. Strings are collected as characters and as code
units from escape sequences, the last one first. -/
inductive Reader where
  | value (stack : List Frame)
  | first (stack : List Frame)
  | firstKey (stack : List Frame)
  | nextKey (stack : List Frame) (before : List (List Char × Json))
  | colon (stack : List Frame) (before : List (List Char × Json)) (key : List Char)
  | text (stack : List Frame) (purpose : Purpose) (place : Place) (read : List (Char ⊕ ℕ))
  | number (stack : List Frame) (phase : Phase) (read : List Char)
  | literal (stack : List Frame) (rest : List Char) (v : Json)
  | after (stack : List Frame) (v : Json)

/-- What the next character does. -/
inductive Step where
  | next (r : Reader)
  /-- The value is complete. -/
  | fin (v : Json)
  /-- The value was complete before this character. -/
  | stop (v : Json)
  | bad

def isSpace (c : Char) : Bool := c == ' ' || c == '\t' || c == '\r' || c == '\n'

def maxNestingDepth : ℕ := 10000

/-- The characters of a string: pairs of surrogates are joined, others replaced. -/
def assemble : List (Char ⊕ ℕ) → List Char
  | [] => []
  | .inl c :: rest => c :: assemble rest
  | .inr u :: rest =>
    if u < 0xd800 ∨ 0xe000 ≤ u then Char.ofNat u :: assemble rest
    else
      match rest with
      | .inr u' :: rest' =>
        if u < 0xdc00 ∧ 0xdc00 ≤ u' ∧ u' < 0xe000 then
          Char.ofNat (0x10000 + (u - 0xd800) * 0x400 + (u' - 0xdc00)) :: assemble rest'
        else '\ufffd' :: assemble (.inr u' :: rest')
      | rest => '\ufffd' :: assemble rest

/-- A value has been read. -/
def complete : List Frame → Json → Step
  | [], v => .fin v
  | frame :: stack, v => .next (.after (frame :: stack) v)

/-- A string has been read. -/
def closeText (stack : List Frame) (purpose : Purpose) (read : List (Char ⊕ ℕ)) : Step :=
  match purpose with
  | .value => complete stack (.str (assemble read.reverse))
  | .key before => .next (.colon stack before (assemble read.reverse))

/-- The first character of a value. -/
def beginValue (stack : List Frame) (c : Char) : Step :=
  if c = openBrace then if stack.length < maxNestingDepth then .next (.firstKey stack) else .bad
  else if c = '[' then if stack.length < maxNestingDepth then .next (.first stack) else .bad
  else if c = quoteChar then .next (.text stack .value .plain [])
  else if c = '-' then .next (.number stack .minus ['-'])
  else if c = '0' then .next (.number stack .zero ['0'])
  else if c.isDigit then .next (.number stack .digits [c])
  else if c = 't' then .next (.literal stack "rue".toList (.bool true))
  else if c = 'f' then .next (.literal stack "alse".toList (.bool false))
  else if c = 'n' then .next (.literal stack "ull".toList .null)
  else .bad

/-- The next character of a string. -/
def stepText (stack : List Frame) (purpose : Purpose) (place : Place) (read : List (Char ⊕ ℕ))
    (c : Char) : Step :=
  match place with
  | .plain =>
    if c = quoteChar then closeText stack purpose read
    else if c = backslash then .next (.text stack purpose .escaped read)
    else if c.toNat < 0x20 then .bad
    else .next (.text stack purpose .plain (.inl c :: read))
  | .escaped =>
    if c = quoteChar ∨ c = backslash ∨ c = '/' then .next (.text stack purpose .plain (.inl c :: read))
    else if c = 'b' then .next (.text stack purpose .plain (.inl '\x08' :: read))
    else if c = 'f' then .next (.text stack purpose .plain (.inl '\x0c' :: read))
    else if c = 'n' then .next (.text stack purpose .plain (.inl '\n' :: read))
    else if c = 'r' then .next (.text stack purpose .plain (.inl '\r' :: read))
    else if c = 't' then .next (.text stack purpose .plain (.inl '\t' :: read))
    else if c = 'u' then .next (.text stack purpose (.code 0 0) read)
    else .bad
  | .code digits value =>
    match hexValue c with
    | none => .bad
    | some d =>
      if digits < 3 then .next (.text stack purpose (.code (digits + 1) (16 * value + d)) read)
      else .next (.text stack purpose .plain (.inr (16 * value + d) :: read))

/-- What follows a value that is an element or a member. -/
def stepAfter (frame : Frame) (stack : List Frame) (v : Json) (c : Char) : Step :=
  match frame with
  | .elems before =>
    if c = ',' then .next (.value (.elems (v :: before) :: stack))
    else if c = ']' then complete stack (.arr (v :: before).reverse)
    else .bad
  | .member before key =>
    if c = ',' then .next (.nextKey stack ((key, v) :: before))
    else if c = closeBrace then complete stack (.obj ((key, v) :: before).reverse)
    else .bad

/-- What the next character does to a reader. -/
def Reader.step : Reader → Char → Step
  | .value stack, c => if isSpace c then .next (.value stack) else beginValue stack c
  | .first stack, c =>
    if isSpace c then .next (.first stack)
    else if c = ']' then complete stack (.arr [])
    else beginValue (.elems [] :: stack) c
  | .firstKey stack, c =>
    if isSpace c then .next (.firstKey stack)
    else if c = closeBrace then complete stack (.obj [])
    else if c = quoteChar then .next (.text stack (.key []) .plain [])
    else .bad
  | .nextKey stack before, c =>
    if isSpace c then .next (.nextKey stack before)
    else if c = quoteChar then .next (.text stack (.key before) .plain [])
    else .bad
  | .colon stack before key, c =>
    if isSpace c then .next (.colon stack before key)
    else if c = ':' then .next (.value (.member before key :: stack))
    else .bad
  | .text stack purpose place read, c => stepText stack purpose place read c
  | .literal stack (x :: rest) v, c =>
    if c ≠ x then .bad
    else if rest = [] then complete stack v else .next (.literal stack rest v)
  | .literal _ [] v, _ => .stop v
  | .number stack phase read, c =>
    match phase.next c with
    | some phase' => .next (.number stack phase' (c :: read))
    | none =>
      if phase.complete then
        match stack with
        | [] => .stop (.num read.reverse)
        | frame :: stack =>
          if isSpace c then .next (.after (frame :: stack) (.num read.reverse))
          else stepAfter frame stack (.num read.reverse) c
      else .bad
  | .after [] v, _ => .stop v
  | .after (frame :: stack) v, c =>
    if isSpace c then .next (.after (frame :: stack) v) else stepAfter frame stack v c

/-- What a reader makes of a text: a value and the rest of the text, a part of a value after which it waits
in some state, or neither. -/
inductive Outcome where
  | done (v : Json) (rest : List Char)
  | more (r : Reader)
  | bad

def Reader.run : Reader → List Char → Outcome
  | r, [] => .more r
  | r, c :: cs =>
    match r.step c with
    | .next r' => r'.run cs
    | .fin v => .done v cs
    | .stop v => .done v (c :: cs)
    | .bad => .bad

/-- Read a value from the beginning. -/
def read (text : List Char) : Outcome := (Reader.value []).run text

/-- What the end of the stream completes: a number at the top, which has no end of its own. -/
def Reader.atEnd : Reader → Option Json
  | .number [] phase read => if phase.complete then some (.num read.reverse) else none
  | _ => none

/-! ## Parts of a text -/

/-- What becomes of an outcome when more text follows. -/
def Outcome.goOn : Outcome → List Char → Outcome
  | .done v rest, t => .done v (rest ++ t)
  | .more r, t => r.run t
  | .bad, _ => .bad

/-- A longer text is read like its beginning, as far as that goes. -/
theorem run_append (r : Reader) (s t : List Char) : r.run (s ++ t) = (r.run s).goOn t := by
  induction s generalizing r with
  | nil => rfl
  | cons c cs ih =>
    simp only [Reader.run, List.cons_append]
    cases r.step c with
    | next r' => exact ih r'
    | fin v | stop v | bad => rfl

/-- Within a number at the top only a number can be completed. -/
theorem isNum_of_run_number {phase : Phase} {digits : List Char} {v : Json}
    (h : (Reader.number [] phase digits).run t = .done v rest) : ∃ spelling, v = .num spelling := by
  induction t generalizing phase digits with
  | nil => cases h
  | cons c cs ih =>
    simp only [Reader.run, Reader.step] at h
    cases hnext : phase.next c with
    | some phase' =>
      simp only [hnext] at h
      exact ih h
    | none =>
      simp only [hnext] at h
      cases hcomplete : phase.complete with
      | true =>
        simp only [hcomplete, if_true] at h
        cases h
        exact ⟨_, rfl⟩
      | false => simp only [hcomplete, Bool.false_eq_true, if_false, reduceCtorEq] at h

/-- **No part passes for the whole.** A reader that needs all of a text to complete a value, not a number,
waits for more when it gets a part of the text, and the end of the stream completes nothing. -/
theorem run_of_cut {r : Reader} {v : Json} (h : r.run (s ++ t) = .done v [])
    (hv : ∀ spelling, v ≠ .num spelling) (ht : t ≠ []) : ∃ q, r.run s = .more q ∧ q.atEnd = none := by
  rw [run_append] at h
  cases hs : r.run s <;> rw [hs] at h
  case done v' rest =>
    injection h with _ hrest
    exact absurd (List.append_eq_nil_iff.mp hrest).2 ht
  case more q =>
    refine ⟨q, rfl, ?_⟩
    -- Only a number at the top could end here, and then it would be the value.
    unfold Reader.atEnd
    split
    · obtain ⟨spelling, hnum⟩ := isNum_of_run_number h
      exact absurd hnum (hv spelling)
    · rfl
  case bad => cases h

/-! ## Reading what was written -/

/-- What happens to the rest of a text when a value has been read. -/
def finish (stack : List Frame) (v : Json) (rest : List Char) : Outcome :=
  match stack with
  | [] => .done v rest
  | frame :: stack => (Reader.after (frame :: stack) v).run rest

/-- A step within a value. -/
theorem run_of_next {r q : Reader} (h : r.step c = .next q) (rest : List Char) :
    r.run (c :: rest) = q.run rest := by
  simp only [Reader.run, h]

/-- A step that completes a value. -/
theorem run_of_complete {r : Reader} {stack : List Frame} {v : Json}
    (h : r.step c = complete stack v) (rest : List Char) : r.run (c :: rest) = finish stack v rest := by
  cases stack <;> simp only [Reader.run, h, complete, finish]

section Text

variable (stack : List Frame) (purpose : Purpose) (pieces : List (Char ⊕ ℕ))

/-- A hexadecimal digit is read as the number that it is written for. -/
theorem hexValue_hexDigit {d : ℕ} (h : d < 16) : hexValue (hexDigit d) = some d := by
  have hall : ∀ d, d < 16 → hexValue (hexDigit d) = some d := by decide
  exact hall d h

/-- A digit of an escape sequence. -/
theorem step_code {d : ℕ} (hd : d < 16) (digits value : ℕ) :
    (Reader.text stack purpose (.code digits value) pieces).step (hexDigit d) =
      if digits < 3 then .next (.text stack purpose (.code (digits + 1) (16 * value + d)) pieces)
      else .next (.text stack purpose .plain (.inr (16 * value + d) :: pieces)) := by
  simp only [Reader.step, stepText, hexValue_hexDigit hd]

/-- An escape sequence is read as its code point. -/
theorem run_escapeCode (h : n < 65536) (rest : List Char) :
    (Reader.text stack purpose .plain pieces).run (escapeCode n ++ rest) =
      (Reader.text stack purpose .plain (.inr n :: pieces)).run rest := by
  have hdigit : ∀ m, m % 16 < 16 := fun m => Nat.mod_lt m (by decide)
  have hvalue : 16 * (16 * (16 * (16 * 0 + n / 4096 % 16) + n / 256 % 16) + n / 16 % 16) + n % 16 = n := by
    omega
  unfold escapeCode
  simp only [List.cons_append, List.nil_append]
  rw [run_of_next (q := .text stack purpose .escaped pieces) rfl,
    run_of_next (q := .text stack purpose (.code 0 0) pieces) rfl,
    run_of_next (step_code stack purpose pieces (hdigit _) 0 0),
    run_of_next (step_code stack purpose pieces (hdigit _) 1 _),
    run_of_next (step_code stack purpose pieces (hdigit _) 2 _),
    run_of_next (step_code stack purpose pieces (hdigit _) 3 _), hvalue]

/-- How a reader collects a character that was written. -/
def piece (c : Char) : Char ⊕ ℕ :=
  if c.toNat < 0x20 ∧ c ∉ ['\x08', '\x0c', '\n', '\r', '\t'] ∨
      c ∈ ['<', '>', '&', '\u2028', '\u2029'] then .inr c.toNat
  else .inl c

/-- Every character is read back. -/
theorem run_escape (c : Char) (rest : List Char) :
    (Reader.text stack purpose .plain pieces).run (escape c ++ rest) =
      (Reader.text stack purpose .plain (piece c :: pieces)).run rest := by
  by_cases hquote : c = quoteChar ∨ c = backslash
  · rcases hquote with rfl | rfl <;> rfl
  by_cases hb : c = '\x08'
  · subst hb
    rfl
  by_cases hf : c = '\x0c'
  · subst hf
    rfl
  by_cases hn : c = '\n'
  · subst hn
    rfl
  by_cases hr : c = '\r'
  · subst hr
    rfl
  by_cases ht : c = '\t'
  · subst ht
    rfl
  by_cases hcode : c.toNat < 0x20 ∨ c ∈ ['<', '>', '&', '\u2028', '\u2029']
  · have hsmall : c.toNat < 65536 := by
      rcases hcode with hlt | hmem
      · omega
      have hall : ∀ d ∈ ['<', '>', '&', '\u2028', '\u2029'], d.toNat < 65536 := by simp
      exact hall c hmem
    have hpiece : piece c = .inr c.toNat := by
      refine if_pos ?_
      rcases hcode with hlt | hmem
      · exact .inl ⟨hlt, by simp [hb, hf, hn, hr, ht]⟩
      · exact .inr hmem
    simp only [escape, hquote, hb, hf, hn, hr, ht, hcode, if_true, if_false]
    rw [run_escapeCode stack purpose pieces hsmall, hpiece]
  · have hpiece : piece c = .inl c := by
      refine if_neg fun h => hcode ?_
      rcases h with ⟨hlt, -⟩ | hmem
      · exact .inl hlt
      · exact .inr hmem
    have hstep : (Reader.text stack purpose .plain pieces).step c =
        .next (.text stack purpose .plain (.inl c :: pieces)) := by
      have hne : c ≠ quoteChar ∧ c ≠ backslash := not_or.mp hquote
      have hlt : ¬c.toNat < 0x20 := fun h => hcode (.inl h)
      simp only [Reader.step, stepText, hne.1, hne.2, hlt, if_false]
    simp only [escape, hquote, hb, hf, hn, hr, ht, hcode, if_false, List.cons_append, List.nil_append]
    rw [run_of_next hstep, hpiece]

/-- All characters of a string are read back. -/
theorem run_escapes (text rest : List Char) :
    (Reader.text stack purpose .plain pieces).run (text.flatMap escape ++ rest) =
      (Reader.text stack purpose .plain ((text.map piece).reverse ++ pieces)).run rest := by
  induction text generalizing pieces with
  | nil => rfl
  | cons c text ih =>
    rw [List.flatMap_cons, List.append_assoc, run_escape, ih]
    simp

/-- A code unit that is no surrogate is a character. -/
theorem assemble_code {u : ℕ} (h : u < 0xd800 ∨ 0xe000 ≤ u) (rest : List (Char ⊕ ℕ)) :
    assemble (.inr u :: rest) = Char.ofNat u :: assemble rest := by
  rcases rest with _ | ⟨p | p, rest⟩ <;> simp [assemble, h]

/-- The characters that were collected are those that were written. -/
theorem assemble_map_piece (text : List Char) : assemble (text.map piece) = text := by
  induction text with
  | nil => rfl
  | cons c text ih =>
    rw [List.map_cons, piece]
    split
    · rename_i hcode
      have hsmall : c.toNat < 0xd800 := by
        rcases hcode with ⟨hlt, -⟩ | hmem
        · omega
        have hall : ∀ d ∈ ['<', '>', '&', '\u2028', '\u2029'], d.toNat < 0xd800 := by simp
        exact hall c hmem
      rw [assemble_code (.inl hsmall), Char.ofNat_toNat, ih]
    · rw [assemble, ih]

/-- The quote at the end of a string. -/
theorem step_quote (text : List Char) :
    (Reader.text stack purpose .plain (text.map piece).reverse).step quoteChar =
      match purpose with
      | .value => complete stack (.str text)
      | .key before => .next (.colon stack before text) := by
  have hassemble : assemble (text.map piece).reverse.reverse = text := by
    rw [List.reverse_reverse, assemble_map_piece]
  cases purpose <;>
    simp only [Reader.step, stepText, if_true, closeText, hassemble]

end Text

/-- A string that is a value. -/
theorem run_printText (stack : List Frame) (text rest : List Char) :
    (Reader.value stack).run (printText text ++ rest) = finish stack (.str text) rest := by
  rw [printText, List.append_assoc, List.cons_append,
    run_of_next (q := .text stack .value .plain []) rfl, run_escapes, List.append_nil]
  exact run_of_complete (step_quote stack .value text) rest

/-- A string that is a key, and the colon behind it. -/
theorem run_printKey {r : Reader} {stack : List Frame} {before : List (List Char × Json)}
    (h : r.step quoteChar = .next (.text stack (.key before) .plain [])) (key rest : List Char) :
    r.run (printText key ++ ':' :: rest) = (Reader.value (.member before key :: stack)).run rest := by
  rw [printText, List.append_assoc, List.cons_append, run_of_next h, run_escapes, List.append_nil,
    List.cons_append, List.nil_append, run_of_next (step_quote stack (.key before) key)]
  exact run_of_next rfl rest

/-! ### Numbers -/

/-- The spelling of a number. -/
def isNumber : List Char → Bool
  | [] => false
  | c :: cs =>
    let start := if c = '-' then some Phase.minus else if c = '0' then some .zero
      else if c.isDigit then some .digits else none
    (start.bind fun phase => cs.foldlM Phase.next phase).any Phase.complete

/-- What may follow an element or a member. -/
def Delimited (rest : List Char) : Prop :=
  ∃ c cs, rest = c :: cs ∧ (c = ',' ∨ c = ']' ∨ c = closeBrace)

/-- A number ends before a delimiter. -/
theorem run_number {frame : Frame} {stack : List Frame} {phase q : Phase} {cs : List Char}
    (hrest : Delimited rest) (read : List Char) (h : cs.foldlM Phase.next phase = some q)
    (hq : q.complete = true) :
    (Reader.number (frame :: stack) phase read).run (cs ++ rest) =
      (Reader.after (frame :: stack) (.num (read.reverse ++ cs))).run rest := by
  induction cs generalizing phase read with
  | nil =>
    obtain rfl : phase = q := Option.some.inj h
    obtain ⟨c, cs, rfl, hc⟩ := hrest
    have hspace : isSpace c = false := by rcases hc with rfl | rfl | rfl <;> rfl
    have hnext : phase.next c = none := by
      rcases hc with rfl | rfl | rfl <;> cases phase <;> rfl
    simp only [List.nil_append, List.append_nil, Reader.run, Reader.step, hnext, hq, hspace, if_true,
      Bool.false_eq_true, if_false]
  | cons c cs ih =>
    rw [List.foldlM_cons, Option.bind_eq_bind, Option.bind_eq_some_iff] at h
    obtain ⟨phase', hphase, hrun⟩ := h
    have hstep : (Reader.number (frame :: stack) phase read).step c =
        .next (.number (frame :: stack) phase' (c :: read)) := by
      simp only [Reader.step, hphase]
    rw [List.cons_append, run_of_next hstep, ih (c :: read) hrun]
    simp

/-- A number in a container. -/
theorem run_isNumber {frame : Frame} {stack : List Frame} {spelling : List Char}
    (hrest : Delimited rest) (h : isNumber spelling = true) :
    (Reader.value (frame :: stack)).run (spelling ++ rest) =
      (Reader.after (frame :: stack) (.num spelling)).run rest := by
  cases spelling with
  | nil => cases h
  | cons c cs =>
    -- The first character starts the number in one of three phases.
    have hstart : ∃ phase, (Reader.value (frame :: stack)).step c =
        .next (.number (frame :: stack) phase [c]) ∧
        (cs.foldlM Phase.next phase).any Phase.complete = true := by
      simp only [isNumber] at h
      by_cases hminus : c = '-'
      · subst hminus
        exact ⟨.minus, rfl, h⟩
      by_cases hzero : c = '0'
      · subst hzero
        exact ⟨.zero, rfl, h⟩
      by_cases hdigit : c.isDigit = true
      · have hne : ∀ d : Char, d.isDigit = false → c ≠ d := by
          rintro d hd rfl
          simp [hd] at hdigit
        have hspace : isSpace c = false := by
          simp [isSpace, hne ' ' rfl, hne '\t' rfl, hne '\r' rfl, hne '\n' rfl]
        refine ⟨.digits, ?_, by simpa [hminus, hzero, hdigit] using h⟩
        simp [Reader.step, beginValue, hspace, hminus, hzero, hdigit, hne openBrace rfl, hne '[' rfl,
          hne quoteChar rfl]
      · simp [hminus, hzero, hdigit] at h
    obtain ⟨phase, hstep, hany⟩ := hstart
    cases hq : cs.foldlM Phase.next phase with
    | none => simp [hq] at hany
    | some q =>
      rw [hq] at hany
      rw [List.cons_append, run_of_next hstep, run_number hrest [c] hq hany]
      rfl

/-! ### All values -/

mutual

/-- The value can be read within the given number of containers: its numbers are numbers, and it is
not nested too deeply. -/
def Fits : ℕ → Json → Prop
  | _, .null => True
  | _, .bool _ => True
  | _, .num spelling => isNumber spelling = true
  | _, .str _ => True
  | n, .arr elems => n < maxNestingDepth ∧ FitElems (n + 1) elems
  | n, .obj members => n < maxNestingDepth ∧ FitMembers (n + 1) members

def FitElems : ℕ → List Json → Prop
  | _, [] => True
  | n, v :: vs => Fits n v ∧ FitElems n vs

def FitMembers : ℕ → List (List Char × Json) → Prop
  | _, [] => True
  | n, (_, v) :: ms => Fits n v ∧ FitMembers n ms

end

/-- A value does not start with a space or a bracket that closes. -/
theorem print_eq_cons {v : Json} {n : ℕ} (h : v.Fits n) :
    ∃ c cs, print v = c :: cs ∧ isSpace c = false ∧ c ≠ ']' := by
  cases v with
  | null => exact ⟨'n', _, rfl, rfl, by decide⟩
  | bool b => cases b <;> exact ⟨_, _, rfl, rfl, by decide⟩
  | str text => exact ⟨quoteChar, _, rfl, rfl, by decide⟩
  | arr elems => exact ⟨'[', _, rfl, rfl, by decide⟩
  | obj members => exact ⟨openBrace, _, rfl, rfl, by decide⟩
  | num spelling =>
    cases spelling with
    | nil => cases h
    | cons c cs =>
      refine ⟨c, cs, rfl, ?_, ?_⟩
      · by_contra hspace
        have hc : c = ' ' ∨ c = '\t' ∨ c = '\r' ∨ c = '\n' := by
          simpa [isSpace, or_iff_not_imp_left] using hspace
        rcases hc with rfl | rfl | rfl | rfl <;> cases h
      · rintro rfl
        cases h

/-- Behind an opening bracket a value is read as an element. -/
theorem run_first {v : Json} (h : v.Fits n) (stack : List Frame) (rest : List Char) :
    (Reader.first stack).run (print v ++ rest) =
      (Reader.value (.elems [] :: stack)).run (print v ++ rest) := by
  obtain ⟨c, cs, hprint, hspace, hne⟩ := print_eq_cons h
  rw [hprint, List.cons_append]
  simp only [Reader.run, Reader.step, hspace, hne, Bool.false_eq_true, if_false]

/-- The rest of a text after a value that is not a number, or after one in a container. -/
def Ends (stack : List Frame) (v : Json) (rest : List Char) : Prop :=
  (∃ spelling, v = .num spelling) → stack ≠ [] ∧ Delimited rest

/-- What is written of a value is read back as this value, wherever it stands. -/
def ReadsBack (v : Json) : Prop :=
  ∀ (stack : List Frame) (rest : List Char), v.Fits stack.length → Ends stack v rest →
    (Reader.value stack).run (print v ++ rest) = finish stack v rest

/-- An element is in a container, so that numbers may be among the elements. -/
theorem ends_of_delimiter {frame : Frame} {stack : List Frame} {v : Json} {c : Char} (rest : List Char)
    (hc : c = ',' ∨ c = ']' ∨ c = closeBrace) : Ends (frame :: stack) v (c :: rest) :=
  fun _ => ⟨List.cons_ne_nil _ _, c, rest, rfl, hc⟩

/-- The elements of an array are read back, whatever stands around the array. -/
theorem run_printElems {v : Json} {vs : List Json} (hback : ∀ w ∈ v :: vs, ReadsBack w)
    (before : List Json) (stack : List Frame) (rest : List Char)
    (h : FitElems (stack.length + 1) (v :: vs)) :
    (Reader.value (.elems before :: stack)).run (printElems (v :: vs) ++ rest) =
      finish stack (.arr (before.reverse ++ v :: vs)) rest := by
  induction vs generalizing v before with
  | nil =>
    rw [printElems, List.append_assoc, List.cons_append, List.nil_append]
    rw [hback v List.mem_cons_self (.elems before :: stack) _ h.1 (ends_of_delimiter rest (.inr (.inl rfl)))]
    exact run_of_complete (by simp [Reader.step, stepAfter, isSpace]) rest
  | cons w ws ih =>
    rw [printElems, List.append_assoc, List.cons_append]
    rw [hback v List.mem_cons_self (.elems before :: stack) _ h.1 (ends_of_delimiter _ (.inl rfl))]
    have hcomma : (Reader.after (.elems before :: stack) v).step ',' =
        .next (.value (.elems (v :: before) :: stack)) := rfl
    rw [finish, run_of_next hcomma, ih (fun u hu => hback u (List.mem_cons_of_mem _ hu)) _ h.2]
    simp

/-- The key and the value of a member. -/
theorem run_printMember {r : Reader} {stack : List Frame} {before : List (List Char × Json)}
    {key : List Char} {v : Json} (hback : ReadsBack v)
    (hr : r.step quoteChar = .next (.text stack (.key before) .plain []))
    (h : v.Fits (stack.length + 1)) (hc : c = ',' ∨ c = ']' ∨ c = closeBrace) :
    r.run (printText key ++ ':' :: print v ++ c :: rest) =
      (Reader.after (.member before key :: stack) v).run (c :: rest) := by
  rw [List.append_assoc, List.cons_append, run_printKey hr,
    hback (.member before key :: stack) _ h (ends_of_delimiter rest hc)]
  rfl

/-- The members of an object are read back, whatever stands around the object. -/
theorem run_printMembers {key : List Char} {v : Json} {ms : List (List Char × Json)}
    (hback : ∀ m ∈ (key, v) :: ms, ReadsBack m.2) {r : Reader} (before : List (List Char × Json))
    {stack : List Frame} (hr : r.step quoteChar = .next (.text stack (.key before) .plain []))
    (rest : List Char) (h : FitMembers (stack.length + 1) ((key, v) :: ms)) :
    r.run (printMembers ((key, v) :: ms) ++ rest) =
      finish stack (.obj (before.reverse ++ (key, v) :: ms)) rest := by
  induction ms generalizing key v before r with
  | nil =>
    rw [printMembers, List.append_assoc]
    rw [List.cons_append, List.nil_append,
      run_printMember (hback (key, v) List.mem_cons_self) hr h.1 (.inr (.inr rfl))]
    exact run_of_complete (by simp [Reader.step, stepAfter, isSpace, closeBrace]) rest
  | cons m ms ih =>
    obtain ⟨key', v'⟩ := m
    rw [printMembers, List.append_assoc]
    rw [List.cons_append, run_printMember (hback (key, v) List.mem_cons_self) hr h.1 (.inl rfl)]
    have hcomma : (Reader.after (.member before key :: stack) v).step ',' =
        .next (.nextKey stack ((key, v) :: before)) := rfl
    rw [run_of_next hcomma, ih (fun m hm => hback m (List.mem_cons_of_mem _ hm)) _ rfl h.2]
    simp

/-- Induction on a value, its elements and its members. -/
theorem induct {motive : Json → Prop} (null : motive .null) (bool : ∀ b, motive (.bool b))
    (num : ∀ spelling, motive (.num spelling)) (str : ∀ text, motive (.str text))
    (arr : ∀ elems, (∀ v ∈ elems, motive v) → motive (.arr elems))
    (obj : ∀ members, (∀ m ∈ members, motive m.2) → motive (.obj members)) : ∀ v, motive v
  | .null => null
  | .bool b => bool b
  | .num spelling => num spelling
  | .str text => str text
  | .arr elems => arr elems fun v _ => induct null bool num str arr obj v
  | .obj members => obj members fun m _ => induct null bool num str arr obj m.2
termination_by v => sizeOf v
decreasing_by
  · have := List.sizeOf_lt_of_mem ‹v ∈ elems›
    simp only [Json.arr.sizeOf_spec]
    omega
  · have := List.sizeOf_lt_of_mem ‹m ∈ members›
    obtain ⟨key, v⟩ := m
    simp only [Json.obj.sizeOf_spec, Prod.mk.sizeOf_spec] at this ⊢
    omega

/-- **Reading inverts writing.** A value is read back from its text, whatever stands behind it, unless
it is a number at the top, which has no end of its own. -/
theorem readsBack (v : Json) : ReadsBack v := by
  induction v using induct with
  | null => exact fun stack rest _ _ => run_of_complete (r := .literal stack ['l'] .null) rfl rest
  | bool b =>
    intro stack rest _ _
    cases b with
    | true => exact run_of_complete (r := .literal stack ['e'] (.bool true)) rfl rest
    | false => exact run_of_complete (r := .literal stack ['e'] (.bool false)) rfl rest
  | str text => exact fun stack rest _ _ => run_printText stack text rest
  | num spelling =>
    intro stack rest h hend
    obtain ⟨hstack, hrest⟩ := hend ⟨spelling, rfl⟩
    cases stack with
    | nil => exact absurd rfl hstack
    | cons frame stack => exact run_isNumber hrest h
  | arr elems ih =>
    intro stack rest h _
    have hbegin : (Reader.value stack).step '[' = .next (.first stack) := if_pos h.1
    rw [print, List.cons_append, run_of_next hbegin]
    cases elems with
    | nil => exact run_of_complete rfl rest
    | cons v vs =>
      have hfirst : (Reader.first stack).run (printElems (v :: vs) ++ rest) =
          (Reader.value (.elems [] :: stack)).run (printElems (v :: vs) ++ rest) := by
        cases vs with
        | nil =>
          rw [printElems, List.append_assoc]
          exact run_first h.2.1 stack _
        | cons w ws =>
          rw [printElems, List.append_assoc]
          exact run_first h.2.1 stack _
      rw [hfirst, run_printElems ih [] stack rest h.2]
      rfl
  | obj members ih =>
    intro stack rest h _
    have hbegin : (Reader.value stack).step openBrace = .next (.firstKey stack) := if_pos h.1
    rw [print, List.cons_append, run_of_next hbegin]
    cases members with
    | nil => exact run_of_complete rfl rest
    | cons m ms =>
      obtain ⟨key, v⟩ := m
      rw [run_printMembers ih [] rfl rest h.2]
      rfl

/-- A value that is not a number is read back at the top. -/
theorem read_print {v : Json} (h : v.Fits 0) (hv : ∀ spelling, v ≠ .num spelling) (rest : List Char) :
    read (print v ++ rest) = .done v rest :=
  readsBack v [] rest h fun hnum => absurd hnum (by simpa using hv)

/-- Of a part of it nothing is read. -/
theorem read_cut {v : Json} (h : v.Fits 0) (hv : ∀ spelling, v ≠ .num spelling)
    (hcut : s ++ t = print v) (ht : t ≠ []) : ∃ q, read s = .more q ∧ q.atEnd = none := by
  have hread : read (s ++ t) = .done v [] := by
    rw [hcut, ← List.append_nil (print v), read_print h hv]
  exact run_of_cut hread hv ht

end Json

end LustreCsi.Computation
