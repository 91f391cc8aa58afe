import LustreCsi.Analysis.LabelLimits
import LustreCsi.Interface.ResourceNames
import LustreCsi.Interface.Text

/-!
# The labels of a storage class, written and read

`ConvertLabelsStringToMap` splits a text twice, trims, checks and counts. `labelStrings_exact` says
that valid labels are read back from every way to write them, and that only such texts are accepted.
-/

set_option autoImplicit false

namespace LustreCsi.Analysis.LabelStrings

open LustreCsi.Computation Model Interface LabelLimits

variable {c : Char} {labels : String} {m m' : StrMap} {U : Unicode}

/-! ## Ways to write labels -/

/-- The text is a key and a value with white space around them. -/
def Spells (text key value : String) : Prop :=
  ∃ a b c d, (Blank a ∧ Blank b ∧ Blank c ∧ Blank d) ∧ text = (a ++ key ++ b) ++ "=" ++ (c ++ value ++ d)

/-- The segments of a label string; an empty one has none. -/
def segments (labels : String) : List String := if labels = "" then [] else split labels ','

/-- Labels and the texts that they are written as, one for each. -/
abbrev Written (entries : List (Sigma fun _ : String => String)) (texts : List String) : Prop :=
  List.Forall₂ (fun e text => Spells text e.1 e.2) entries texts

/-- White space is not a lower-case letter. -/
def SpaceApart (U : Unicode) : Prop := ∀ c, isSpace c = true → U.isLower c = false

/-! ## One label -/

/-- Characters of labels are no separators. -/
theorem labelChar_ne {d : Char} (h : labelChar U c = true) (hd : d.toNat < 128)
    (hplain : (d.isLower || d.isDigit || d == '_' || d == '-') = false) : c ≠ d := by
  rintro rfl
  rw [labelChar, U.isLower_ascii c hd, hplain] at h
  cases h

/-- Characters of labels are no white space. -/
theorem labelChar_not_space (hU : SpaceApart U) (h : labelChar U c = true) :
    isSpace c = false := by
  simp only [labelChar, Bool.or_eq_true, beq_iff_eq] at h
  rcases h with ((hlower | hdigit) | rfl) | rfl
  · by_contra hspace
    rw [hU c (Bool.eq_true_of_not_eq_false hspace)] at hlower
    cases hlower
  · have hrange : 48 ≤ c.toNat ∧ c.toNat ≤ 57 := by
      simpa [Char.isDigit, UInt32.le_iff_toNat_le] using hdigit
    simp [isSpace]
    omega
  · decide
  · decide

/-- Separators are no white space. -/
theorem notMem_of_blank {w : String} (hw : Blank w) (hc : isSpace c = false) :
    c ∉ w.toList := fun hmem => by
  rw [hw c hmem] at hc
  cases hc

/-- What is accepted as one label. -/
theorem convertLabel_iff (hU : SpaceApart U) {text : String} :
    convertLabel U labels m text = .ok m' ↔ ∃ key value, (ValidKey U key ∧ ValidValue U value) ∧
      Spells text key value ∧ m' = m.insert key value := by
  constructor
  · intro h
    unfold convertLabel at h
    split at h
    · rename_i k v hsplit
      dsimp only at h
      split at h
      · cases h
      split at h
      · cases h
      rename_i hkey hvalue
      obtain ⟨-, -, htext⟩ := split_eq_iff.mp hsplit
      obtain ⟨a, b, ha, hb, hk⟩ := exists_of_trimSpace k
      obtain ⟨c, d, hc, hd, hv⟩ := exists_of_trimSpace v
      refine ⟨trimSpace k, trimSpace v, ⟨matchString_regexKey.mp (by simpa using hkey),
        matchString_regexValue.mp (by simpa using hvalue)⟩, ⟨a, b, c, d, ⟨ha, hb, hc, hd⟩, ?_⟩, ?_⟩
      · rw [← hk, ← hv]
        apply String.toList_injective
        rw [htext]
        simp [List.intercalate]
      · cases h
        rfl
    · cases h
  · rintro ⟨key, value, ⟨hkey, hvalue⟩, ⟨a, b, c, d, ⟨ha, hb, hc, hd⟩, rfl⟩, rfl⟩
    have hsep : ∀ {w x w' : String}, Blank w → Blank w' → (∀ c ∈ x.toList, labelChar U c = true) →
        '=' ∉ (w ++ x ++ w').toList := by
      intro w x w' hw hw' hx hmem
      simp only [String.toList_append, List.mem_append] at hmem
      rcases hmem with (hmem | hmem) | hmem
      · exact notMem_of_blank hw (by decide) hmem
      · exact labelChar_ne (hx _ hmem) (by decide) (by decide) rfl
      · exact notMem_of_blank hw' (by decide) hmem
    have hsplit : split ((a ++ key ++ b) ++ "=" ++ (c ++ value ++ d)) '=' =
        [a ++ key ++ b, c ++ value ++ d] := by
      refine split_eq_iff.mpr ⟨by simp, ?_, by simp [List.intercalate]⟩
      simp only [List.mem_cons, List.not_mem_nil, or_false, forall_eq_or_imp, forall_eq]
      exact ⟨hsep ha hb hkey.chars, hsep hc hd hvalue.chars⟩
    have hk := trimSpace_padded ha hb fun c hc => labelChar_not_space hU (hkey.chars c hc)
    have hv := trimSpace_padded hc hd fun c hc => labelChar_not_space hU (hvalue.chars c hc)
    unfold convertLabel
    rw [hsplit]
    dsimp only
    rw [hk, hv, matchString_regexKey.mpr hkey, matchString_regexValue.mpr hvalue]
    rfl

/-! ## All labels -/

/-- The map of a list of labels, in which later ones replace earlier ones. -/
def collect (entries : List (Sigma fun _ : String => String)) (m : StrMap) : StrMap :=
  entries.foldl (fun m e => m.insert e.1 e.2) m

/-- The last value of a key counts. -/
theorem lookup_collect (entries : List (Sigma fun _ : String => String)) (m : StrMap) (key : String) :
    (collect entries m).lookup key = (entries.reverse.dlookup key).or (m.lookup key) := by
  induction entries generalizing m with
  | nil => simp [collect]
  | cons e entries ih =>
    have hstep : collect (e :: entries) m = collect entries (m.insert e.1 e.2) := rfl
    rw [hstep, ih, List.reverse_cons, List.dlookup_append, Option.or_assoc]
    congr 1
    obtain ⟨k, v⟩ := e
    by_cases hkey : key = k
    · subst hkey
      simp
    rw [AList.lookup_insert_ne hkey, List.dlookup_cons_ne _ _ hkey]
    simp

/-- The loop over the segments accepts written labels, and nothing else. -/
theorem foldlM_convertLabel (hU : SpaceApart U) {texts : List String} :
    texts.foldlM (convertLabel U labels) m = .ok m' ↔
      ∃ entries, Written entries texts ∧ (∀ e ∈ entries, ValidKey U e.1 ∧ ValidValue U e.2) ∧
        m' = collect entries m := by
  induction texts generalizing m with
  | nil =>
    rw [foldlM_nil_eq_ok]
    constructor
    · rintro rfl
      exact ⟨[], .nil, by simp, rfl⟩
    · rintro ⟨entries, hwritten, -, rfl⟩
      cases hwritten
      rfl
  | cons text texts ih =>
    rw [foldlM_cons_eq_ok]
    constructor
    · rintro ⟨m₁, hfirst, hrest⟩
      obtain ⟨key, value, hvalid, hspells, rfl⟩ := (convertLabel_iff hU).mp hfirst
      obtain ⟨entries, hwritten, hall, rfl⟩ := ih.mp hrest
      exact ⟨⟨key, value⟩ :: entries, .cons hspells hwritten, List.forall_mem_cons.mpr ⟨hvalid, hall⟩, rfl⟩
    · rintro ⟨entries, hwritten, hall, rfl⟩
      cases hwritten with
      | cons hspells hwritten =>
        rename_i e entries
        obtain ⟨hvalid, hall⟩ := List.forall_mem_cons.mp hall
        exact ⟨m.insert e.1 e.2, (convertLabel_iff hU).mpr ⟨e.1, e.2, hvalid, hspells, rfl⟩,
          ih.mpr ⟨entries, hwritten, hall, rfl⟩⟩

/-- Maps with the same values have the same size. -/
theorem length_eq_of_lookup (h : ∀ key, m.lookup key = m'.lookup key) :
    m.entries.length = m'.entries.length := by
  have hperm : m.keys.Perm m'.keys := (List.perm_ext_iff_of_nodup m.keys_nodup m'.keys_nodup).mpr
    fun key => by rw [← AList.mem_keys, ← AList.mem_keys, ← AList.lookup_isSome, h, AList.lookup_isSome]
  simpa [AList.keys, List.keys] using hperm.length_eq

/-- What is accepted: written labels, not too many. -/
theorem convert_eq_ok (hU : SpaceApart U) :
    convertLabelsStringToMap U labels = .ok m ↔ ∃ entries, Written entries (segments labels) ∧
      (∀ e ∈ entries, ValidKey U e.1 ∧ ValidValue U e.2) ∧ m = collect entries ∅ ∧
      m.entries.length ≤ 64 := by
  have hcount : convertLabelsStringToMap U labels = .ok m ↔
      (segments labels).foldlM (convertLabel U labels) ∅ = .ok m ∧ m.entries.length ≤ 64 := by
    unfold convertLabelsStringToMap segments
    split
    · rw [foldlM_nil_eq_ok]
      constructor
      · intro h
        cases h
        exact ⟨rfl, by simp⟩
      · rintro ⟨rfl, -⟩
        rfl
    · cases (split labels ',').foldlM (convertLabel U labels) ∅ with
      | error err => simp
      | ok m' =>
        dsimp only
        split
        · rename_i hmany
          simp only [reduceCtorEq, Except.ok.injEq, false_iff, not_and, not_le]
          rintro rfl
          exact hmany
        · rename_i hfew
          simp only [Except.ok.injEq, iff_self_and]
          rintro rfl
          omega
  rw [hcount, foldlM_convertLabel hU]
  constructor
  · rintro ⟨⟨entries, hwritten, hall, hm⟩, hle⟩
    exact ⟨entries, hwritten, hall, hm, hle⟩
  · rintro ⟨entries, hwritten, hall, hm, hle⟩
    exact ⟨⟨entries, hwritten, hall, hm⟩, hle⟩

/-- A written label has an equals sign and no comma. -/
theorem Spells.separators {text key value : String} (h : Spells text key value)
    (hkey : ValidKey U key) (hvalue : ValidValue U value) : text ≠ "" ∧ ',' ∉ text.toList := by
  obtain ⟨a, b, c, d, ⟨ha, hb, hc, hd⟩, rfl⟩ := h
  refine ⟨fun hempty => by simpa using congrArg String.toList hempty, fun hmem => ?_⟩
  have hlabel : ∀ {x : String}, (∀ c ∈ x.toList, labelChar U c = true) → ',' ∉ x.toList :=
    fun hx hmem => labelChar_ne (hx _ hmem) (by decide) (by decide) rfl
  have hblank : ∀ {w : String}, Blank w → ',' ∉ w.toList := fun hw => notMem_of_blank hw (by decide)
  simp [hlabel hkey.chars, hlabel hvalue.chars, hblank ha, hblank hb, hblank hc, hblank hd] at hmem

/-- Labels that are joined by commas are the segments. -/
theorem segments_intercalate {entries : List (Sigma fun _ : String => String)} {texts : List String}
    (hwritten : Written entries texts) (hall : ∀ e ∈ entries, ValidKey U e.1 ∧ ValidValue U e.2) :
    segments (",".intercalate texts) = texts := by
  have htexts : ∀ text ∈ texts, text ≠ "" ∧ ',' ∉ text.toList := by
    induction hwritten with
    | nil => simp
    | cons hspells _ ih =>
      obtain ⟨⟨hkey, hvalue⟩, hall⟩ := List.forall_mem_cons.mp hall
      exact List.forall_mem_cons.mpr ⟨hspells.separators hkey hvalue, ih hall⟩
  cases texts with
  | nil => rfl
  | cons text texts =>
    have hne : ",".intercalate (text :: texts) ≠ "" := fun hempty => by
      have hlist := congrArg String.toList hempty
      cases texts <;> simp [List.intercalate, (htexts text List.mem_cons_self).1] at hlist
    rw [segments, if_neg hne]
    exact split_eq_iff.mpr ⟨by simp, fun l hl => (htexts l hl).2, by simp⟩

/-- **Label strings are written and read alike.** Let no white space be a lower-case letter. Valid labels,
written as keys and values in any order and with any white space around them, are read back. Whatever is
read was written: every segment is one valid key and one valid value, the labels keep the rules, and each
key has the value of its last occurrence.

SOURCE: pkg/util/util.go:35-96 -/
theorem labelStrings_exact (hU : SpaceApart U) :
    (∀ m : StrMap, ValidLabels U m → ∀ entries texts, entries.Perm m.entries → Written entries texts →
      ∃ m', convertLabelsStringToMap U (",".intercalate texts) = .ok m' ∧
        ∀ key, m'.lookup key = m.lookup key) ∧
    ∀ labels m, convertLabelsStringToMap U labels = .ok m → ValidLabels U m ∧
      ∃ entries, Written entries (segments labels) ∧
        (∀ e ∈ entries, ValidKey U e.1 ∧ ValidValue U e.2) ∧
        ∀ key, m.lookup key = entries.reverse.dlookup key := by
  constructor
  · intro m hvalid entries texts hperm hwritten
    have hlookup : ∀ key, (collect entries ∅).lookup key = m.lookup key := fun key => by
      have hnodup : entries.reverse.NodupKeys :=
        (List.perm_nodupKeys ((List.reverse_perm entries).trans hperm)).mpr m.nodupKeys
      rw [lookup_collect, AList.lookup_empty, Option.or_none,
        List.perm_dlookup key hnodup ((List.reverse_perm entries).trans hperm)]
      rfl
    have hall : ∀ e ∈ entries, ValidKey U e.1 ∧ ValidValue U e.2 := fun e he => by
      have hmem : m.lookup e.1 = some e.2 := AList.mem_lookup_iff.mpr (hperm.mem_iff.mp he)
      exact ⟨hvalid.keys _ _ hmem, hvalid.values _ _ hmem⟩
    refine ⟨collect entries ∅, (convert_eq_ok hU).mpr ⟨entries, ?_, hall, rfl, ?_⟩, hlookup⟩
    · rw [segments_intercalate hwritten hall]
      exact hwritten
    · rw [length_eq_of_lookup hlookup]
      exact hvalid.count
  · intro labels m h
    obtain ⟨entries, hwritten, hall, rfl, -⟩ := (convert_eq_ok hU).mp h
    refine ⟨validLabels_of_convert h, entries, hwritten, hall, fun key => ?_⟩
    rw [lookup_collect, AList.lookup_empty, Option.or_none]

/-- No white space is an ASCII letter. -/
theorem spaceApart_ascii : SpaceApart .asciiOnly := by
  intro c hc
  by_contra hlower
  have hletter : c.isLower = true := by simpa [Unicode.asciiOnly] using hlower
  have hrange : 97 ≤ c.toNat ∧ c.toNat ≤ 122 := by
    have hbounds : (decide (c.val ≥ 'a'.val) && decide (c.val ≤ 'z'.val)) = true := hletter
    simpa [UInt32.le_iff_toNat_le] using hbounds
  simp [isSpace] at hc
  omega

/-- Two labels, with white space around one of them. -/
def twoLabels : StrMap := ((∅ : StrMap).insert "cost-center" "7").insert "team" "a"

/-- The labels keep the limits. -/
theorem validLabels_twoLabels : ValidLabels .asciiOnly twoLabels := by
  have hentry : ∀ key value, twoLabels.lookup key = some value →
      (key = "team" ∧ value = "a") ∨ (key = "cost-center" ∧ value = "7") := by
    intro key value h
    have hmem : (⟨key, value⟩ : Sigma fun _ : String => String) ∈ twoLabels.entries :=
      AList.mem_lookup_iff.mp h
    have hentries : twoLabels.entries = [⟨"team", "a"⟩, ⟨"cost-center", "7"⟩] := by decide
    simpa [hentries] using hmem
  refine ⟨by decide, fun key value h => ?_, fun key value h => ?_⟩
  · rcases hentry key value h with ⟨rfl, -⟩ | ⟨rfl, -⟩
    · exact validKey_of_plain (by decide) (by decide) (by decide) (by decide)
    · exact validKey_of_plain (by decide) (by decide) (by decide) (by decide)
  · rcases hentry key value h with ⟨-, rfl⟩ | ⟨-, rfl⟩
    · exact validValue_of_plain (by decide) (by decide)
    · exact validValue_of_plain (by decide) (by decide)

/-- They are read back, in another order than that of the map. -/
theorem labelStrings_exact_two :
    ∃ m', convertLabelsStringToMap .asciiOnly "cost-center=7, team = a" = .ok m' ∧
      ∀ key, m'.lookup key = twoLabels.lookup key := by
  have hblank : Blank "" ∧ Blank " " := ⟨by simp [Blank], by simp [Blank, isSpace]⟩
  have hwritten : Written [⟨"cost-center", "7"⟩, ⟨"team", "a"⟩] ["cost-center=7", " team = a"] :=
    .cons ⟨"", "", "", "", ⟨hblank.1, hblank.1, hblank.1, hblank.1⟩, by decide⟩
      (.cons ⟨" ", " ", " ", "", ⟨hblank.2, hblank.2, hblank.2, hblank.1⟩, by decide⟩ .nil)
  have hperm : [⟨"cost-center", "7"⟩, ⟨"team", "a"⟩].Perm twoLabels.entries := .swap _ _ _
  exact (labelStrings_exact spaceApart_ascii).1 twoLabels validLabels_twoLabels _ _ hperm hwritten

end LustreCsi.Analysis.LabelStrings
