import Mathlib.Data.List.Infix
import Mathlib.Data.List.TakeWhile
import LustreCsi.Model.Text

/-!
# Strings of ASCII characters, and white space

The Unicode tables are known on the ASCII range; there the case mappings of Go are those of `Char`.
`trimSpace` takes off the white space around a text, and nothing else.
-/

set_option autoImplicit false

namespace LustreCsi.Interface

open Model

/-- A string of ASCII characters that are not upper-case letters. -/
def lowerAscii (s : String) : Bool := s.toList.all fun c => c.toNat < 128 && c.toLower == c

/-- Lower case leaves the characters of an ASCII text in lower case. -/
theorem map_toLower_of_lowerAscii {U : Unicode} {s : String} (h : lowerAscii s = true) :
    s.toList.map U.toLower = s.toList := by
  have hfix : ∀ c ∈ s.toList, U.toLower c = c := by
    intro c hc
    simp only [lowerAscii, List.all_eq_true, Bool.and_eq_true, decide_eq_true_eq,
      beq_iff_eq] at h
    rw [U.toLower_ascii c (h c hc).1, (h c hc).2]
  simpa using List.map_congr_left (g := id) hfix

/-- Lower case leaves an ASCII text in lower case. -/
theorem toLower_of_lowerAscii {U : Unicode} {s : String} (h : lowerAscii s = true) :
    toLower U s = s := by
  rw [toLower, map_toLower_of_lowerAscii h, String.ofList_toList]

/-- `strings.Contains` looks for an occurrence. -/
theorem contains_iff {s t : String} : contains s t = true ↔ t.toList <:+: s.toList := by
  simp only [contains, List.any_eq_true, List.mem_tails, List.isPrefixOf_iff_prefix]
  constructor
  · rintro ⟨r, hr, ht⟩
    exact ht.isInfix.trans hr.isInfix
  · intro h
    obtain ⟨r, ht, hr⟩ := List.infix_iff_prefix_suffix.mp h
    exact ⟨r, hr, ht⟩

/-- A text of white space. -/
def Blank (s : String) : Prop := ∀ c ∈ s.toList, isSpace c = true

/-- Blanks around a text without blanks are cut off. -/
theorem trimSpace_padded {w w' text : String} (hw : Blank w) (hw' : Blank w')
    (htext : ∀ c ∈ text.toList, isSpace c = false) : trimSpace (w ++ text ++ w') = text := by
  -- White space is taken off in front of a text that has none; the end is the front of the reverse.
  have hdrop : ∀ {u v : List Char}, (∀ c ∈ u, isSpace c = true) → (∀ c ∈ v, isSpace c = false) →
      ∀ rest, v ≠ [] ∨ rest = [] → (u ++ (v ++ rest)).dropWhile isSpace = v ++ rest := by
    intro u v hu hv rest hrest
    rw [List.dropWhile_append_of_pos hu]
    cases v with
    | nil => simp [hrest.resolve_left (by simp)]
    | cons c v => simp [hv c List.mem_cons_self]
  have htrim : ((w.toList ++ (text.toList ++ w'.toList)).dropWhile isSpace).reverse.dropWhile isSpace =
      text.toList.reverse := by
    by_cases hempty : text.toList = []
    · have hall : ∀ c ∈ w.toList ++ w'.toList, isSpace c = true := by
        intro c hc
        exact (List.mem_append.mp hc).elim (hw c) (hw' c)
      rw [hempty, List.nil_append, List.dropWhile_eq_nil_iff.mpr hall]
      rfl
    · have hfirst := hdrop hw htext w'.toList (.inl hempty)
      have hlast := hdrop (u := w'.toList.reverse) (v := text.toList.reverse)
        (fun c hc => hw' c (List.mem_reverse.mp hc))
        (fun c hc => htext c (List.mem_reverse.mp hc)) [] (.inr rfl)
      rw [hfirst, List.reverse_append]
      simpa using hlast
  apply String.toList_injective
  simp only [trimSpace, String.toList_append, List.append_assoc, htrim, List.reverse_reverse,
    String.toList_ofList]

/-- What is cut off are blanks. -/
theorem exists_of_trimSpace (s : String) :
    ∃ w w', Blank w ∧ Blank w' ∧ s = w ++ trimSpace s ++ w' := by
  let u := s.toList.dropWhile isSpace
  refine ⟨String.ofList (s.toList.takeWhile isSpace),
    String.ofList (u.reverse.takeWhile isSpace).reverse, fun c hc => ?_, fun c hc => ?_,
    String.toList_injective ?_⟩
  · exact List.mem_takeWhile_imp (String.toList_ofList ▸ hc)
  · rw [String.toList_ofList, List.mem_reverse] at hc
    exact List.mem_takeWhile_imp hc
  · have hfront : s.toList.takeWhile isSpace ++ u = s.toList := List.takeWhile_append_dropWhile
    have hback : (u.reverse.dropWhile isSpace).reverse ++ (u.reverse.takeWhile isSpace).reverse = u := by
      rw [← List.reverse_append, List.takeWhile_append_dropWhile, List.reverse_reverse]
    simp only [trimSpace, String.toList_append, String.toList_ofList, List.append_assoc]
    rw [hback, hfront]

end LustreCsi.Interface
