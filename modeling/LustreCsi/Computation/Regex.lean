import Mathlib.Data.List.Basic
import Mathlib.Data.List.Infix
import Mathlib.Data.List.TakeWhile
import Mathlib.Tactic.Common

/-!
# Regular expressions with submatches

The fragment in which only character classes are repeated, with the leftmost-first semantics: `run`
lists the ways an expression matches at a position, the preferred one first, and `find` takes the
first way at the leftmost position that has one. A way is the list of submatches and the text that
remains. `mem_run_*` say which ways there are, `head?_run_*` which is preferred, and `find_*` what
is found.
-/

set_option autoImplicit false

namespace LustreCsi.Computation

variable {inp : List Char} {s : String}

/-- Regular expressions: a class of characters, a greedy repetition of a class (`lo` times,
then at most `extra` times more, without bound if that is `none`), sequence, greedy option,
capturing group, and the anchors at the beginning and the end of the text. -/
inductive Regex where
  | eps
  | cls (p : Char → Bool)
  | rep (p : Char → Bool) (lo : ℕ) (extra : Option ℕ)
  | seq (a b : Regex)
  | opt (a : Regex)
  | grp (a : Regex)
  | bot
  | eot

namespace Regex

variable (p : Char → Bool)

/-- The expression that matches the given characters, one after the other. -/
def chars : List Char → Regex
  | [] => .eps
  | c :: cs => .seq (.cls (· == c)) (chars cs)

/-- The expression that matches the given string. -/
def lit (s : String) : Regex := chars s.toList

/-- The sequence of a list of expressions. -/
def cat : List Regex → Regex
  | [] => .eps
  | a :: as => .seq a (cat as)

/-- What remains after at most `n` characters of the class, longest match first. -/
def greedy (p : Char → Bool) : ℕ → List Char → List (List Char)
  | 0, inp => [inp]
  | _ + 1, [] => [[]]
  | n + 1, c :: cs => if p c then greedy p n cs ++ [c :: cs] else [c :: cs]

/-- What remains after `lo` characters of the class and at most `extra` more. -/
def runRep (p : Char → Bool) (extra : Option ℕ) : ℕ → List Char → List (List Char)
  | 0, inp => greedy p (extra.getD inp.length) inp
  | _ + 1, [] => []
  | lo + 1, c :: cs => if p c then runRep p extra lo cs else []

/-- A way to match: the submatches and what remains of the input. -/
abbrev Way : Type := List (List Char) × List Char

/-- The ways to match at a position, the preferred one first; `start` says whether it is the
beginning of the text. -/
def run : Regex → Bool → List Char → List Way
  | .eps, _, inp => [([], inp)]
  | .cls p, _, inp =>
    match inp with
    | [] => []
    | c :: cs => if p c then [([], cs)] else []
  | .rep p lo extra, _, inp => (runRep p extra lo inp).map fun rest => ([], rest)
  | .seq a b, start, inp =>
    (run a start inp).flatMap fun w =>
      (run b (start && w.2.length == inp.length) w.2).map fun w' => (w.1 ++ w'.1, w'.2)
  | .opt a, start, inp => run a start inp ++ [([], inp)]
  | .grp a, start, inp =>
    (run a start inp).map fun w => (inp.take (inp.length - w.2.length) :: w.1, w.2)
  | .bot, start, inp => if start then [([], inp)] else []
  | .eot, _, inp => if inp.isEmpty then [([], inp)] else []

/-- The submatches of the preferred way at the leftmost position that has one. -/
def findFrom (r : Regex) (start : Bool) : List Char → Option (List (List Char))
  | [] => (run r start []).head?.map (·.1)
  | c :: cs =>
    match (run r start (c :: cs)).head? with
    | some w => some w.1
    | none => findFrom r false cs

/-- `FindStringSubmatch`, without the match as a whole. -/
def find (r : Regex) (s : String) : Option (List String) :=
  (findFrom r true s.toList).map (·.map String.ofList)

/-! ## The ways of each construct -/

/-- The ways of a greedy repetition are the prefixes of bounded length in the class. -/
theorem mem_greedy (n : ℕ) (inp rest : List Char) :
    rest ∈ greedy p n inp ↔ ∃ w, inp = w ++ rest ∧ (∀ c ∈ w, p c = true) ∧ w.length ≤ n := by
  induction n generalizing inp with
  | zero =>
    simp only [greedy, List.mem_singleton, Nat.le_zero, List.length_eq_zero_iff]
    constructor
    · rintro rfl
      exact ⟨[], rfl, by simp, rfl⟩
    · rintro ⟨w, h, -, rfl⟩
      exact h.symm
  | succ n ih =>
    cases inp with
    | nil =>
      simp only [greedy, List.mem_singleton]
      constructor
      · rintro rfl
        exact ⟨[], rfl, by simp, by simp⟩
      · rintro ⟨w, h, -, -⟩
        exact (List.append_eq_nil_iff.mp h.symm).2
    | cons c cs =>
      simp only [greedy]
      constructor
      · intro h
        by_cases hc : p c = true
        · rw [if_pos hc, List.mem_append, List.mem_singleton] at h
          rcases h with h | rfl
          · obtain ⟨w, rfl, hw, hl⟩ := (ih cs).mp h
            refine ⟨c :: w, rfl, ?_, by simpa using hl⟩
            simpa [hc] using hw
          · exact ⟨[], rfl, by simp, by simp⟩
        · rw [if_neg hc, List.mem_singleton] at h
          exact ⟨[], by simp [h], by simp, by simp⟩
      · rintro ⟨w, hw, hall, hl⟩
        cases w with
        | nil =>
          have hrest : rest = c :: cs := by simpa using hw.symm
          split <;> simp [hrest]
        | cons d w =>
          simp only [List.cons_append, List.cons.injEq] at hw
          obtain ⟨rfl, rfl⟩ := hw
          rw [if_pos (hall c (by simp)), List.mem_append]
          refine Or.inl ((ih _).mpr ⟨w, rfl, fun d hd => hall d (by simp [hd]), ?_⟩)
          simpa using hl

/-- The ways of a repetition are the prefixes in the class with a length between its bounds. -/
theorem mem_runRep (extra : Option ℕ) (lo : ℕ) (inp rest : List Char) :
    rest ∈ runRep p extra lo inp ↔ ∃ w, inp = w ++ rest ∧ (∀ c ∈ w, p c = true) ∧
      lo ≤ w.length ∧ ∀ e ∈ extra, w.length ≤ lo + e := by
  induction lo generalizing inp with
  | zero =>
    rw [runRep, mem_greedy]
    constructor
    · rintro ⟨w, rfl, hw, hl⟩
      refine ⟨w, rfl, hw, Nat.zero_le _, fun e he => ?_⟩
      rw [Option.mem_def] at he
      simpa [he] using hl
    · rintro ⟨w, rfl, hw, -, hl⟩
      refine ⟨w, rfl, hw, ?_⟩
      cases extra with
      | none => simp
      | some e => simpa using hl e rfl
  | succ lo ih =>
    cases inp with
    | nil =>
      simp only [runRep, List.not_mem_nil, false_iff]
      rintro ⟨w, hw, -, hl, -⟩
      have hnil := (List.append_eq_nil_iff.mp hw.symm).1
      simp [hnil] at hl
    | cons c cs =>
      simp only [runRep]
      constructor
      · intro h
        by_cases hc : p c = true
        · rw [if_pos hc] at h
          obtain ⟨w, rfl, hw, hl, he⟩ := (ih cs).mp h
          refine ⟨c :: w, rfl, by simpa [hc] using hw, by simpa using hl, fun e hm => ?_⟩
          have := he e hm
          simp only [List.length_cons]
          omega
        · simp [hc] at h
      · rintro ⟨w, hw, hall, hl, he⟩
        cases w with
        | nil => simp at hl
        | cons d w =>
          simp only [List.cons_append, List.cons.injEq] at hw
          obtain ⟨rfl, rfl⟩ := hw
          rw [if_pos (hall c (by simp))]
          refine (ih _).mpr ⟨w, rfl, fun d hd => hall d (by simp [hd]), by simpa using hl,
            fun e hm => ?_⟩
          have := he e hm
          simp only [List.length_cons] at this
          omega

/-- A class consumes one of its characters. -/
theorem mem_run_cls (start : Bool) (inp : List Char) (w : Way) :
    w ∈ run (.cls p) start inp ↔ w.1 = [] ∧ ∃ c, p c = true ∧ inp = c :: w.2 := by
  obtain ⟨caps, rest⟩ := w
  cases inp with
  | nil => simp [run]
  | cons c cs =>
    by_cases hc : p c = true
    · simp only [run, hc, if_true, List.mem_singleton, Prod.mk.injEq, List.cons.injEq]
      constructor
      · rintro ⟨rfl, rfl⟩
        exact ⟨rfl, c, hc, rfl, rfl⟩
      · rintro ⟨rfl, d, -, rfl, rfl⟩
        exact ⟨rfl, rfl⟩
    · simp only [run, hc, Bool.false_eq_true, if_false, List.not_mem_nil, false_iff]
      rintro ⟨-, d, hd, h⟩
      simp only [List.cons.injEq] at h
      exact hc (h.1 ▸ hd)

/-- A repetition consumes a prefix in the class with a length between its bounds. -/
theorem mem_run_rep (lo : ℕ) (extra : Option ℕ) (start : Bool) (inp : List Char) (w : Way) :
    w ∈ run (.rep p lo extra) start inp ↔ w.1 = [] ∧ ∃ v, inp = v ++ w.2 ∧
      (∀ c ∈ v, p c = true) ∧ lo ≤ v.length ∧ ∀ e ∈ extra, v.length ≤ lo + e := by
  obtain ⟨caps, rest⟩ := w
  rw [run, List.mem_map]
  constructor
  · rintro ⟨rest', h, heq⟩
    simp only [Prod.mk.injEq] at heq
    obtain ⟨rfl, rfl⟩ := heq
    exact ⟨rfl, (mem_runRep p extra lo inp _).mp h⟩
  · rintro ⟨hcaps, h⟩
    exact ⟨rest, (mem_runRep p extra lo inp rest).mpr h, by simp [← hcaps]⟩

/-- A sequence consumes with its first part and then with its second. -/
theorem mem_run_seq (a b : Regex) (start : Bool) (inp : List Char) (w : Way) :
    w ∈ run (.seq a b) start inp ↔ ∃ caps mid caps', (caps, mid) ∈ run a start inp ∧
      (caps', w.2) ∈ run b (start && mid.length == inp.length) mid ∧ w.1 = caps ++ caps' := by
  obtain ⟨wcaps, rest⟩ := w
  simp only [run, List.mem_flatMap, List.mem_map, Prod.mk.injEq, Prod.exists]
  constructor
  · rintro ⟨caps, mid, ha, caps', rest', hb, rfl, rfl⟩
    exact ⟨caps, mid, caps', ha, hb, rfl⟩
  · rintro ⟨caps, mid, caps', ha, hb, rfl⟩
    exact ⟨caps, mid, ha, caps', rest, hb, rfl, rfl⟩

/-- A group captures what it consumes. -/
theorem mem_run_grp (a : Regex) (start : Bool) (inp : List Char) (w : Way) :
    w ∈ run (.grp a) start inp ↔ ∃ caps, (caps, w.2) ∈ run a start inp ∧
      w.1 = inp.take (inp.length - w.2.length) :: caps := by
  obtain ⟨wcaps, rest⟩ := w
  simp only [run, List.mem_map, Prod.mk.injEq, Prod.exists]
  constructor
  · rintro ⟨caps, rest', h, rfl, rfl⟩
    exact ⟨caps, h, rfl⟩
  · rintro ⟨caps, h, rfl⟩
    exact ⟨caps, rest, h, rfl, rfl⟩

/-- A group around a repetition captures what the repetition has matched. -/
theorem mem_run_grp_rep (lo : ℕ) (extra : Option ℕ) (start : Bool) (inp : List Char) (w : Way) :
    w ∈ run (.grp (.rep p lo extra)) start inp ↔ ∃ v, w.1 = [v] ∧ inp = v ++ w.2 ∧
      (∀ c ∈ v, p c = true) ∧ lo ≤ v.length ∧ ∀ e ∈ extra, v.length ≤ lo + e := by
  simp only [mem_run_grp, mem_run_rep]
  constructor
  · rintro ⟨caps, ⟨rfl, v, rfl, hv⟩, hw⟩
    exact ⟨v, by simpa using hw, rfl, hv⟩
  · rintro ⟨v, hw, rfl, hv⟩
    exact ⟨[], ⟨rfl, v, rfl, hv⟩, by simpa using hw⟩

/-- The end of the text consumes nothing, and only at the end. -/
theorem mem_run_eot (start : Bool) (inp : List Char) (w : Way) :
    w ∈ run .eot start inp ↔ inp = [] ∧ w = ([], []) := by
  cases inp <;> simp [run]

/-- The empty expression consumes nothing. -/
theorem mem_run_eps (start : Bool) (inp : List Char) (w : Way) :
    w ∈ run .eps start inp ↔ w = ([], inp) := by
  simp [run]

/-- An option matches as the expression does, or nothing. -/
theorem mem_run_opt (a : Regex) (start : Bool) (inp : List Char) (w : Way) :
    w ∈ run (.opt a) start inp ↔ w ∈ run a start inp ∨ w = ([], inp) := by
  simp [run]

/-- A literal matches in at most one way: it is a prefix of the input. -/
theorem mem_run_chars (l : List Char) (start : Bool) (inp : List Char) (w : Way) :
    w ∈ run (chars l) start inp ↔ w.1 = [] ∧ inp = l ++ w.2 := by
  induction l generalizing start inp w with
  | nil =>
    obtain ⟨caps, rest⟩ := w
    rw [chars, mem_run_eps]
    simp only [Prod.mk.injEq, List.nil_append]
    exact and_congr_right fun _ => eq_comm
  | cons c l ih =>
    rw [chars, mem_run_seq]
    constructor
    · rintro ⟨caps, mid, caps', ha, hb, hcaps⟩
      obtain ⟨hnil, d, hd, rfl⟩ := (mem_run_cls _ _ _ _).mp ha
      obtain ⟨hnil', rfl⟩ := (ih _ _ _).mp hb
      simp only [beq_iff_eq] at hd
      subst hd
      exact ⟨by simp_all, by simp⟩
    · rintro ⟨hcaps, rfl⟩
      refine ⟨[], l ++ w.2, [], (mem_run_cls _ _ _ _).mpr ⟨rfl, c, by simp, by simp⟩, ?_, by simp [hcaps]⟩
      exact (ih _ _ _).mpr ⟨rfl, rfl⟩

/-- A literal consumes itself. -/
theorem mem_run_lit (s : String) (start : Bool) (inp : List Char) (w : Way) :
    w ∈ run (lit s) start inp ↔ w.1 = [] ∧ inp = s.toList ++ w.2 :=
  mem_run_chars s.toList start inp w

/-! ## The preferred way -/

/-- The repetitions that match more come first. -/
theorem pairwise_greedy (n : ℕ) (inp : List Char) :
    (greedy p n inp).Pairwise fun a b => a.length < b.length := by
  induction n generalizing inp with
  | zero => simp [greedy]
  | succ n ih =>
    cases inp with
    | nil => simp [greedy]
    | cons c cs =>
      simp only [greedy]
      split
      · refine List.pairwise_append.mpr ⟨ih cs, by simp, fun a ha b hb => ?_⟩
        obtain ⟨w, rfl, -, -⟩ := (mem_greedy p n cs a).mp ha
        obtain rfl := List.mem_singleton.mp hb
        simp only [List.length_cons, List.length_append]
        omega
      · simp

/-- The ways of a repetition are tried from the longest to the shortest. -/
theorem pairwise_runRep (extra : Option ℕ) (lo : ℕ) (inp : List Char) :
    (runRep p extra lo inp).Pairwise fun a b => a.length < b.length := by
  induction lo generalizing inp with
  | zero => exact pairwise_greedy p _ inp
  | succ lo ih =>
    cases inp with
    | nil => simp [runRep]
    | cons c cs =>
      simp only [runRep]
      split
      · exact ih cs
      · exact .nil

/-- In a list that is ordered by length the first result is that of the shortest entry with
one. -/
theorem head?_flatMap_of_shortest {α β : Type} {l : List (List α)} {f : List α → List β}
    {a : List α} {x : β} (hl : l.Pairwise fun u v => u.length < v.length) (ha : a ∈ l)
    (hx : (f a).head? = some x) (hnone : ∀ b ∈ l, b.length < a.length → f b = []) :
    (l.flatMap f).head? = some x := by
  obtain ⟨l₁, l₂, rfl⟩ := List.append_of_mem ha
  have hfirst : l₁.flatMap f = [] := List.flatMap_eq_nil_iff.mpr fun b hb =>
    hnone b (by simp [hb]) ((List.pairwise_append.mp hl).2.2 b hb a (by simp))
  rw [List.flatMap_append, hfirst, List.nil_append, List.flatMap_cons, List.head?_append, hx]
  rfl

/-- A repetition takes as much as what follows it allows. -/
theorem head?_run_rep_seq {p : Char → Bool} {lo : ℕ} {extra : Option ℕ} {b : Regex} {start : Bool}
    (mid : List Char) {w : Way} (hmid : mid ∈ runRep p extra lo inp)
    (hb : (run b (start && mid.length == inp.length) mid).head? = some w)
    (hnone : ∀ mid' start', mid' ∈ runRep p extra lo inp → mid'.length < mid.length →
      run b start' mid' = []) :
    (run (.seq (.rep p lo extra) b) start inp).head? = some w := by
  have hrun : run (.seq (.rep p lo extra) b) start inp = (runRep p extra lo inp).flatMap fun rest =>
      run b (start && rest.length == inp.length) rest := by
    simp [run, List.flatMap_map]
  rw [hrun]
  exact head?_flatMap_of_shortest (pairwise_runRep p extra lo inp) hmid hb fun mid' hmem hlt =>
    hnone mid' _ hmem hlt

/-- A literal is read in its one way. -/
theorem run_lit_seq (s : String) (b : Regex) (start : Bool) (rest : List Char) (hs : s ≠ "") :
    run (.seq (lit s) b) start (s.toList ++ rest) = run b false rest := by
  have hlit : ∀ (l : List Char) (start : Bool), run (chars l) start (l ++ rest) = [([], rest)] := by
    intro l
    induction l with
    | nil => intro _; rfl
    | cons c l ih =>
      intro start
      simp [chars, run, ih]
  have hpos : 0 < s.toList.length := List.length_pos_iff.mpr (by simpa using hs)
  have hlen : (rest.length == s.toList.length + rest.length) = false :=
    beq_false_of_ne (by omega)
  simp [run, lit, hlit, hlen]

/-- A group around a repetition captures all there is of the class. -/
theorem head?_run_grp_rep {p : Char → Bool} {lo : ℕ} {b : Regex} {start : Bool} {w : Way}
    (hlo : lo ≤ (inp.takeWhile p).length)
    (hb : ∀ start, (run b start (inp.dropWhile p)).head? = some w) :
    (run (.seq (.grp (.rep p lo none)) b) start inp).head? =
      some (inp.takeWhile p :: w.1, w.2) := by
  have hrun : run (.seq (.grp (.rep p lo none)) b) start inp =
      (runRep p none lo inp).flatMap fun rest =>
        (run b (start && rest.length == inp.length) rest).map fun w' =>
          (inp.take (inp.length - rest.length) :: w'.1, w'.2) := by
    simp [run, List.flatMap_map]
  have hcut : inp.takeWhile p ++ inp.dropWhile p = inp := List.takeWhile_append_dropWhile
  have hlength := congrArg List.length hcut
  rw [List.length_append] at hlength
  rw [hrun]
  refine head?_flatMap_of_shortest (a := inp.dropWhile p) (pairwise_runRep p none lo inp) ?_ ?_ ?_
  · exact (mem_runRep p none lo inp _).mpr
      ⟨inp.takeWhile p, hcut.symm, fun c hc => List.mem_takeWhile_imp hc, hlo, by simp⟩
  · have htake : inp.take (inp.length - (inp.dropWhile p).length) = inp.takeWhile p := by
      rw [← hlength, Nat.add_sub_cancel]
      exact (List.prefix_iff_eq_take.mp (List.takeWhile_prefix p)).symm
    simp [hb, htake]
  · intro rest hmem hlt
    obtain ⟨v, heq, hv, -⟩ := (mem_runRep p none lo inp rest).mp hmem
    have htake := congrArg (List.takeWhile p) heq
    rw [List.takeWhile_append_of_pos hv] at htake
    have h₁ := congrArg List.length htake
    have h₂ := congrArg List.length heq
    rw [List.length_append] at h₁ h₂
    omega

/-! ## What is found -/

/-- The preferred way at the beginning is found. -/
theorem findFrom_of_head? {r : Regex} {start : Bool} {w : Way}
    (h : (run r start inp).head? = some w) : findFrom r start inp = some w.1 := by
  cases inp with
  | nil => simp [findFrom, h]
  | cons c cs => simp [findFrom, h]

/-- Positions without a way are passed over. -/
theorem findFrom_append {r : Regex} {u v : List Char} (hu : u ≠ [])
    (h : ∀ y start, y ≠ [] → y <:+ u → run r start (y ++ v) = []) (start : Bool) :
    findFrom r start (u ++ v) = findFrom r false v := by
  induction u generalizing start with
  | nil => exact absurd rfl hu
  | cons c u ih =>
    have hfirst : run r start (c :: (u ++ v)) = [] := h (c :: u) start hu List.suffix_rfl
    rw [List.cons_append, findFrom, hfirst]
    by_cases hrest : u = []
    · rw [hrest]
      rfl
    · exact ih hrest (fun y start hy hsuffix => h y start hy (hsuffix.trans (List.suffix_cons c u))) _

/-- What is found is a way at some position. -/
theorem exists_way_of_findFrom {r : Regex} {start : Bool} {caps : List (List Char)}
    (h : findFrom r start inp = some caps) :
    ∃ pre suf start' w, inp = pre ++ suf ∧ w ∈ run r start' suf ∧ w.1 = caps := by
  induction inp generalizing start with
  | nil =>
    simp only [findFrom, Option.map_eq_some_iff] at h
    obtain ⟨w, hw, hcaps⟩ := h
    exact ⟨[], [], start, w, rfl, List.mem_of_mem_head? hw, hcaps⟩
  | cons c cs ih =>
    simp only [findFrom] at h
    split at h
    · rename_i w hw
      exact ⟨[], c :: cs, start, w, rfl, List.mem_of_mem_head? hw, by simpa using h⟩
    obtain ⟨pre, suf, start', w, rfl, hw, hcaps⟩ := ih h
    exact ⟨c :: pre, suf, start', w, rfl, hw, hcaps⟩

/-- What is found is found at some position of the text. -/
theorem exists_way_of_find {r : Regex} {caps : List String} (h : find r s = some caps) :
    ∃ pre suf start w, s.toList = pre ++ suf ∧ w ∈ run r start suf ∧
      w.1.map String.ofList = caps := by
  simp only [find, Option.map_eq_some_iff] at h
  obtain ⟨l, hl, rfl⟩ := h
  obtain ⟨pre, suf, start, w, hs, hw, rfl⟩ := exists_way_of_findFrom hl
  exact ⟨pre, suf, start, w, hs, hw, rfl⟩

/-- A way at some position is enough for something to be found. -/
theorem findFrom_ne_none {r : Regex} {u suf : List Char} {w : Way}
    (hw : ∀ start, w ∈ run r start suf) (start : Bool) : findFrom r start (u ++ suf) ≠ none := by
  induction u generalizing start with
  | nil =>
    have hne : (run r start suf).head? ≠ none := by
      rw [Ne, List.head?_eq_none_iff]
      exact List.ne_nil_of_mem (hw start)
    cases suf with
    | nil => simpa [findFrom] using hne
    | cons c cs =>
      simp only [List.nil_append, findFrom]
      split
      · simp
      rename_i hnone
      exact absurd hnone hne
  | cons c u ih =>
    simp only [List.cons_append, findFrom]
    split
    · simp
    · exact ih false

/-- When all ways at all positions have the same submatches, these are found. -/
theorem find_of_unique {r : Regex} {pre suf : List Char} {w : Way} (hs : s.toList = pre ++ suf)
    (hw : ∀ start, w ∈ run r start suf)
    (huniq : ∀ pre' suf' start w', s.toList = pre' ++ suf' → w' ∈ run r start suf' → w'.1 = w.1) :
    find r s = some (w.1.map String.ofList) := by
  have hne : findFrom r true s.toList ≠ none := hs ▸ findFrom_ne_none hw true
  obtain ⟨caps, hcaps⟩ := Option.ne_none_iff_exists'.mp hne
  obtain ⟨pre', suf', start, w', hs', hw', rfl⟩ := exists_way_of_findFrom hcaps
  rw [find, hcaps, Option.map_some, huniq pre' suf' start w' hs' hw']

/-- An expression anchored at the beginning is tried there only. -/
theorem findFrom_anchored (r : Regex) (inp : List Char) :
    findFrom (.seq .bot r) true inp = (run r true inp).head?.map (·.1) := by
  have hrun : ∀ inp, run (.seq .bot r) true inp = run r true inp := by
    intro inp
    simp [run]
  have hnone : ∀ inp, findFrom (.seq .bot r) false inp = none := by
    intro inp
    induction inp with
    | nil => simp [findFrom, run]
    | cons c cs ih => simp [findFrom, run, ih]
  cases inp with
  | nil => simp only [findFrom, hrun]
  | cons c cs =>
    simp only [findFrom, hrun, hnone]
    cases (run r true (c :: cs)).head? <;> rfl

/-- An anchored expression whose ways all have the same submatches finds these. -/
theorem find_anchored_of_unique {r : Regex} {w : Way} (hw : w ∈ run r true s.toList)
    (huniq : ∀ w' ∈ run r true s.toList, w'.1 = w.1) :
    find (.seq .bot r) s = some (w.1.map String.ofList) := by
  rw [find, findFrom_anchored]
  cases hrun : run r true s.toList with
  | nil => simp [hrun] at hw
  | cons w' ws =>
    have := huniq w' (by simp [hrun])
    simp [this]

/-- What an anchored expression finds is a way at the beginning. -/
theorem exists_way_of_find_anchored {r : Regex} {caps : List String}
    (h : find (.seq .bot r) s = some caps) :
    ∃ w ∈ run r true s.toList, w.1.map String.ofList = caps := by
  rw [find, findFrom_anchored, Option.map_map] at h
  obtain ⟨w, hw, hcaps⟩ := Option.map_eq_some_iff.mp h
  exact ⟨w, List.mem_of_mem_head? hw, hcaps⟩

/-- An anchored expression finds something exactly if it has a way at the beginning. -/
theorem isSome_find_anchored {r : Regex} :
    (find (.seq .bot r) s).isSome = true ↔ ∃ w, w ∈ run r true s.toList := by
  rw [find, findFrom_anchored, Option.isSome_map, Option.isSome_map]
  cases run r true s.toList with
  | nil => simp
  | cons w ws => exact iff_of_true rfl ⟨w, List.mem_cons_self⟩

end Regex

end LustreCsi.Computation
