import LustreCsi.Computation.CheckedFold
import LustreCsi.Model.Controller

/-!
# The labels of a new instance

`ConvertLabelsStringToMap` checks and counts the labels of the storage class; `extractLabels` adds
those from the metadata without checking values or total. `validLabels_iff` says when the labels
that are sent keep the documented limits.
-/

set_option autoImplicit false

namespace LustreCsi.Analysis.LabelLimits

open LustreCsi.Computation Model

variable {U : Unicode}

/-! ## The limits -/

/-- The rules for the keys of labels.
SOURCE: pkg/util/util.go:47-51 -/
structure ValidKey (U : Unicode) (key : String) : Prop where
  pos : 1 ≤ key.toList.length
  le : key.toList.length ≤ 63
  first : ∀ c ∈ key.toList.head?, U.isLower c = true
  chars : ∀ c ∈ key.toList, labelChar U c = true

/-- The rules for the values of labels.
SOURCE: pkg/util/util.go:49, 60-61 -/
structure ValidValue (U : Unicode) (value : String) : Prop where
  le : value.toList.length ≤ 63
  chars : ∀ c ∈ value.toList, labelChar U c = true

/-- The labels that the API accepts. -/
structure ValidLabels (U : Unicode) (labels : StrMap) : Prop where
  count : labels.entries.length ≤ 64
  keys : ∀ key value, labels.lookup key = some value → ValidKey U key
  values : ∀ key value, labels.lookup key = some value → ValidValue U value

/-- A text of ASCII characters that labels may have. -/
def plainLabel (text : String) : Bool :=
  text.toList.all fun c => c.toNat < 128 && (c.isLower || c.isDigit || c == '_' || c == '-')

/-- A plain text within the limit is a valid value. -/
theorem validValue_of_plain {text : String} (h : plainLabel text = true)
    (hle : text.toList.length ≤ 63) : ValidValue U text := by
  refine ⟨hle, fun c hc => ?_⟩
  have hplain := List.all_eq_true.mp h c hc
  simp only [Bool.and_eq_true, decide_eq_true_eq] at hplain
  rw [labelChar, U.isLower_ascii c hplain.1]
  exact hplain.2

/-- A plain text within the limits that begins with a letter is a valid key. -/
theorem validKey_of_plain {text : String} (h : plainLabel text = true)
    (hpos : 1 ≤ text.toList.length) (hle : text.toList.length ≤ 63)
    (hfirst : (text.toList.head?.all fun c => c.toNat < 128 && c.isLower) = true) :
    ValidKey U text := by
  refine ⟨hpos, hle, fun c hc => ?_, (validValue_of_plain h hle).chars⟩
  rw [Option.mem_def.mp hc] at hfirst
  simp only [Option.all_some, Bool.and_eq_true, decide_eq_true_eq] at hfirst
  rw [U.isLower_ascii c hfirst.1]
  exact hfirst.2

/-! ## The labels of the storage class -/

/-- The pattern of the keys says what the rules say. -/
theorem matchString_regexKey {key : String} :
    matchString (regexKey U) key = true ↔ ValidKey U key := by
  rw [matchString, regexKey, Regex.isSome_find_anchored]
  constructor
  · rintro ⟨⟨caps, rest⟩, hw⟩
    simp only [Regex.cat, Regex.mem_run_seq, Regex.mem_run_cls, Regex.mem_run_rep, Regex.mem_run_eot,
      Regex.mem_run_eps, Prod.mk.injEq] at hw
    obtain ⟨-, m₁, -, ⟨-, c, hc, hkey⟩, ⟨-, m₂, -, ⟨-, v, rfl, hv, -, hle⟩,
      ⟨-, m₃, -, ⟨rfl, -, -⟩, -, -⟩, -⟩, -⟩ := hw
    rw [List.append_nil] at hkey
    have hlen := hle 62 rfl
    refine ⟨by simp [hkey], by simp [hkey]; omega, fun d hd => ?_, fun d hd => ?_⟩
    · obtain rfl : c = d := by simpa [hkey] using hd
      exact hc
    · rw [hkey] at hd
      rcases List.mem_cons.mp hd with rfl | hd
      · simp [labelChar, hc]
      · exact hv d hd
  · rintro ⟨hpos, hle, hfirst, hchars⟩
    refine ⟨([], []), ?_⟩
    obtain ⟨c, v, hkey⟩ := List.exists_cons_of_length_pos hpos
    simp only [Regex.cat, Regex.mem_run_seq, Regex.mem_run_cls, Regex.mem_run_rep, Regex.mem_run_eot,
      Regex.mem_run_eps, Prod.mk.injEq]
    rw [hkey] at hle hfirst hchars ⊢
    have hrest : ∀ d ∈ v, labelChar U d = true := fun d hd => hchars d (List.mem_cons_of_mem c hd)
    refine ⟨[], v, [], ⟨rfl, c, hfirst c rfl, rfl⟩, ⟨[], [], [], ⟨rfl, v, by simp, hrest, by simp, ?_⟩,
      ⟨[], [], [], ⟨rfl, rfl, rfl⟩, ⟨rfl, rfl⟩, rfl⟩, rfl⟩, rfl⟩
    intro n hn
    obtain rfl : 62 = n := Option.some.inj hn
    rw [List.length_cons] at hle
    omega

/-- The pattern of the values says what the rules say. -/
theorem matchString_regexValue {value : String} :
    matchString (regexValue U) value = true ↔ ValidValue U value := by
  rw [matchString, regexValue, Regex.isSome_find_anchored]
  constructor
  · rintro ⟨⟨caps, rest⟩, hw⟩
    simp only [Regex.cat, Regex.mem_run_seq, Regex.mem_run_rep, Regex.mem_run_eot, Regex.mem_run_eps,
      Prod.mk.injEq] at hw
    obtain ⟨-, m₁, -, ⟨-, v, hvalue, hv, -, hle⟩, ⟨-, m₂, -, ⟨rfl, -, -⟩, -, -⟩, -⟩ := hw
    rw [List.append_nil] at hvalue
    have hlen := hle 63 rfl
    exact ⟨by rw [hvalue]; omega, fun d hd => hv d (hvalue ▸ hd)⟩
  · rintro ⟨hle, hchars⟩
    refine ⟨([], []), ?_⟩
    simp only [Regex.cat, Regex.mem_run_seq, Regex.mem_run_rep, Regex.mem_run_eot, Regex.mem_run_eps,
      Prod.mk.injEq]
    refine ⟨[], [], [], ⟨rfl, value.toList, by simp, hchars, by simp, ?_⟩,
      ⟨[], [], [], ⟨rfl, rfl, rfl⟩, ⟨rfl, rfl⟩, rfl⟩, rfl⟩
    intro n hn
    obtain rfl : 63 = n := Option.some.inj hn
    simpa using hle

/-- One entry of the label string. -/
theorem convertLabel_eq_ok {labels keyValue : String} {m m' : StrMap}
    (h : convertLabel U labels m keyValue = .ok m') :
    ∃ key value, ValidKey U key ∧ ValidValue U value ∧ m' = m.insert key value := by
  unfold convertLabel at h
  split at h
  · dsimp only at h
    split at h
    · cases h
    split at h
    · cases h
    rename_i hkey hvalue
    cases h
    exact ⟨_, _, matchString_regexKey.mp (by simpa using hkey),
      matchString_regexValue.mp (by simpa using hvalue), rfl⟩
  · cases h

/-- The labels of the storage class are valid, and not too many. -/
theorem validLabels_of_convert {labels : String} {m : StrMap}
    (h : convertLabelsStringToMap U labels = .ok m) : ValidLabels U m := by
  unfold convertLabelsStringToMap at h
  split at h
  · cases h
    exact ⟨by simp, by simp, by simp⟩
  split at h
  · cases h
  rename_i m' hfold
  have hvalid : ∀ key value, m'.lookup key = some value →
      ValidKey U key ∧ ValidValue U value := by
    refine foldlM_invariant (fun _ (m : StrMap) => ∀ key value, m.lookup key = some value →
      ValidKey U key ∧ ValidValue U value) (fun e l m m'' hm hstep key value hlookup => ?_)
      (by simp) hfold
    obtain ⟨k, v, hk, hv, rfl⟩ := convertLabel_eq_ok hstep
    by_cases heq : key = k
    · subst heq
      obtain rfl : v = value := by simpa using hlookup
      exact ⟨hk, hv⟩
    rw [AList.lookup_insert_ne heq] at hlookup
    exact hm key value hlookup
  split at h
  · cases h
  rename_i hcount
  cases h
  exact ⟨by omega, fun key value hl => (hvalid key value hl).1,
    fun key value hl => (hvalid key value hl).2⟩

/-! ## The labels from the metadata -/

/-- The value that the parameters give for a key, in any case of letters; of several the last one
that is met. -/
def given (U : Unicode) (key : String) : List (Sigma fun _ : String => String) → Option String
  | [] => none
  | e :: l => (given U key l).or (if toLower U e.1 = key then some e.2 else none)

/-- The keys of the metadata, and the labels that are made from them. -/
def metadataKeys : List (String × String) :=
  [(keyPVCName, tagKeyCreatedForClaimName), (keyPVCNamespace, tagKeyCreatedForClaimNamespace),
    (keyPVName, tagKeyCreatedForVolumeName)]

/-- The labels of the storage class. -/
def storageClassLabels (U : Unicode) (parameters : StrMap) : StrMap :=
  match given U keyLabels parameters.entries with
  | none => ∅
  | some text => (convertLabelsStringToMap U text).toOption.getD ∅

/-- The number of labels: those of the storage class, those from the metadata that is given, and
the driver's own. -/
def labelCount (U : Unicode) (parameters : StrMap) : ℕ :=
  (storageClassLabels U parameters).entries.length +
    (metadataKeys.filter fun p => (given U p.1 parameters.entries).isSome).length + 1

/-- The keys differ, and so do the labels. -/
theorem metadataKeys_inj {p q : String × String} (hp : p ∈ metadataKeys) (hq : q ∈ metadataKeys)
    (h : p.1 = q.1 ∨ p.2 = q.2) : p = q := by
  have hall : (metadataKeys.all fun p => metadataKeys.all fun q =>
      (p.1 != q.1 && p.2 != q.2) || p == q) = true := by decide
  have hpq := List.all_eq_true.mp (List.all_eq_true.mp hall p hp) q hq
  rcases h with h | h <;> simpa [h] using hpq

/-- The keys of the metadata are not the key of the labels. -/
theorem ne_keyLabels_of_mem {p : String × String} (hp : p ∈ metadataKeys) : p.1 ≠ keyLabels := by
  have hall : (metadataKeys.all fun p => p.1 != keyLabels) = true := by decide
  simpa using List.all_eq_true.mp hall p hp

/-- What one parameter adds. -/
theorem extractLabel_eq_ok {acc acc' : StrMap × StrMap} {e : Sigma fun _ : String => String}
    (h : extractLabel U acc e = .ok acc') :
    (∃ p ∈ metadataKeys, toLower U e.1 = p.1 ∧ acc' = (acc.1.insert p.2 e.2, acc.2)) ∨
      (toLower U e.1 = keyLabels ∧ ∃ sc, convertLabelsStringToMap U e.2 = .ok sc ∧
        acc' = (acc.1, sc)) ∨
      ((∀ p ∈ metadataKeys, toLower U e.1 ≠ p.1) ∧ toLower U e.1 ≠ keyLabels ∧ acc' = acc) := by
  simp only [extractLabel] at h
  split at h
  · rename_i hk
    cases h
    exact .inl ⟨(keyPVCName, tagKeyCreatedForClaimName), by simp [metadataKeys], hk, rfl⟩
  split at h
  · rename_i hk
    cases h
    exact .inl ⟨(keyPVCNamespace, tagKeyCreatedForClaimNamespace), by simp [metadataKeys], hk, rfl⟩
  split at h
  · rename_i hk
    cases h
    exact .inl ⟨(keyPVName, tagKeyCreatedForVolumeName), by simp [metadataKeys], hk, rfl⟩
  split at h
  · rename_i hk
    split at h
    · cases h
    rename_i sc hsc
    cases h
    exact .inr (.inl ⟨hk, sc, hsc, rfl⟩)
  · rename_i h₁ h₂ h₃ h₄
    cases h
    exact .inr (.inr ⟨by simpa [metadataKeys] using ⟨h₁, h₂, h₃⟩, h₄, rfl⟩)

/-- What the parameters add: the labels from the metadata that they give, no others, and the labels
of the storage class. -/
theorem foldlM_extractLabel {l : List (Sigma fun _ : String => String)} {acc : StrMap × StrMap}
    {m sc : StrMap} (h : l.foldlM (extractLabel U) acc = .ok (m, sc)) :
    (∀ p ∈ metadataKeys, m.lookup p.2 = (given U p.1 l).or (acc.1.lookup p.2)) ∧
      (∀ key, (∀ p ∈ metadataKeys, p.2 ≠ key) → m.lookup key = acc.1.lookup key) ∧
      (given U keyLabels l = none → sc = acc.2) ∧
      ∀ text, given U keyLabels l = some text → convertLabelsStringToMap U text = .ok sc := by
  induction l generalizing acc with
  | nil =>
    cases foldlM_nil_eq_ok.mp h
    exact ⟨fun p _ => by simp [given], fun _ _ => rfl, fun _ => rfl, by simp [given]⟩
  | cons e l ih =>
    obtain ⟨acc', hfirst, hrest⟩ := foldlM_cons_eq_ok.mp h
    obtain ⟨ih₁, ih₂, ih₃, ih₄⟩ := ih hrest
    rcases extractLabel_eq_ok hfirst with ⟨p, hp, hk, rfl⟩ | ⟨hk, sc', hsc, rfl⟩ | ⟨hk, hk', rfl⟩
    · have hlabels : given U keyLabels (e :: l) = given U keyLabels l := by
        simp [given, hk, ne_keyLabels_of_mem hp]
      refine ⟨fun q hq => ?_, fun key hkey => ?_, by rwa [hlabels], by rwa [hlabels]⟩
      · by_cases heq : q = p
        · subst heq
          simp [ih₁ q hq, given, hk]
        · have hne : p.1 ≠ q.1 := fun h => heq (metadataKeys_inj hq hp (.inl h.symm))
          have hne' : q.2 ≠ p.2 := fun h => heq (metadataKeys_inj hq hp (.inr h))
          simp [ih₁ q hq, given, hk, hne, AList.lookup_insert_ne hne']
      · rw [ih₂ key hkey, AList.lookup_insert_ne (hkey p hp).symm]
    · have hgiven : ∀ q ∈ metadataKeys, given U q.1 (e :: l) = given U q.1 l := fun q hq => by
        simp [given, hk, (ne_keyLabels_of_mem hq).symm]
      refine ⟨fun q hq => by rw [hgiven q hq, ih₁ q hq], ih₂, fun hnone => ?_, fun text htext => ?_⟩
      · simp [given, hk] at hnone
      · cases hl : given U keyLabels l with
        | none =>
          obtain rfl : e.2 = text := by simpa [given, hk, hl] using htext
          rw [ih₃ hl, hsc]
        | some text' =>
          obtain rfl : text' = text := by simpa [given, hk, hl] using htext
          exact ih₄ _ hl
    · have hlabels : given U keyLabels (e :: l) = given U keyLabels l := by simp [given, hk']
      have hgiven : ∀ q ∈ metadataKeys, given U q.1 (e :: l) = given U q.1 l := fun q hq => by
        simp [given, hk q hq]
      exact ⟨fun q hq => by rw [hgiven q hq, ih₁ q hq], ih₂, by rwa [hlabels], by rwa [hlabels]⟩

/-! ## Both sources -/

/-- What the loop of `mergeLabels` adds. -/
theorem foldlM_mergeLabel {l : List (Sigma fun _ : String => String)} {m labels : StrMap}
    (h : l.foldlM mergeLabel m = .ok labels) :
    labels.entries.length = m.entries.length + l.length ∧ (∀ e ∈ l, e.1 ∉ m) ∧
      ∀ e : Sigma fun _ : String => String, e ∈ labels.entries ↔ e ∈ m.entries ∨ e ∈ l := by
  induction l generalizing m with
  | nil =>
    cases foldlM_nil_eq_ok.mp h
    simp
  | cons e l ih =>
    obtain ⟨m', hfirst, hrest⟩ := foldlM_cons_eq_ok.mp h
    have hnew : e.1 ∉ m ∧ m' = m.insert e.1 e.2 := by
      unfold mergeLabel at hfirst
      split at hfirst
      · cases hfirst
      cases hfirst
      exact ⟨‹_›, rfl⟩
    obtain ⟨hnot, rfl⟩ := hnew
    obtain ⟨hlen, hnew, hmem⟩ := ih hrest
    rw [AList.entries_insert_of_notMem hnot] at hlen hmem
    refine ⟨by simp [hlen]; omega, List.forall_mem_cons.mpr ⟨hnot, fun e' he' hmem' => ?_⟩, fun e' => ?_⟩
    · exact hnew e' he' ((AList.mem_insert _).mpr (.inr hmem'))
    · rw [hmem, List.mem_cons, List.mem_cons]
      tauto

/-- Labels are merged only if they have no key in common. -/
theorem mergeLabels_eq_ok {sc m labels : StrMap} (h : mergeLabels sc m = .ok labels) :
    labels.entries.length = m.entries.length + sc.entries.length ∧
      ∀ key value, labels.lookup key = some value ↔
        m.lookup key = some value ∨ sc.lookup key = some value := by
  obtain ⟨hlen, -, hmem⟩ := foldlM_mergeLabel h
  refine ⟨hlen, fun key value => ?_⟩
  simp only [← Option.mem_def, AList.mem_lookup_iff, hmem]

/-- The labels from the metadata, with the driver's own. -/
theorem length_metadata {parameters m : StrMap} (value : String)
    (hmeta : ∀ p ∈ metadataKeys, m.lookup p.2 = given U p.1 parameters.entries)
    (hother : ∀ key, (∀ p ∈ metadataKeys, p.2 ≠ key) → m.lookup key = none) :
    (m.insert tagKeyCreatedBy value).entries.length =
      (metadataKeys.filter fun p => (given U p.1 parameters.entries).isSome).length + 1 := by
  have hkeys : ∀ key, key ∈ m ↔ ∃ p ∈ metadataKeys,
      (given U p.1 parameters.entries).isSome = true ∧ p.2 = key := by
    intro key
    rw [← AList.lookup_isSome]
    constructor
    · intro h
      by_contra hnone
      rw [hother key] at h
      · simp at h
      · intro p hp heq
        exact hnone ⟨p, hp, by rwa [← hmeta p hp, heq], heq⟩
    · rintro ⟨p, hp, hgiven, rfl⟩
      rwa [hmeta p hp]
  have hnot : tagKeyCreatedBy ∉ m := by
    rw [hkeys]
    rintro ⟨p, hp, -, heq⟩
    have hall : (metadataKeys.all fun p => p.2 != tagKeyCreatedBy) = true := by decide
    simpa [heq] using List.all_eq_true.mp hall p hp
  have hperm : m.keys.Perm ((metadataKeys.filter fun p =>
      (given U p.1 parameters.entries).isSome).map Prod.snd) := by
    refine (List.perm_ext_iff_of_nodup m.keys_nodup ?_).mpr fun key => ?_
    · have hnodup : (metadataKeys.map Prod.snd).Nodup := by decide
      exact hnodup.sublist (List.filter_sublist.map _)
    · rw [← AList.mem_keys, hkeys]
      simp [and_assoc]
  have hlen : m.entries.length = m.keys.length := by simp [AList.keys, List.keys]
  rw [AList.entries_insert_of_notMem hnot, List.length_cons, hlen, hperm.length_eq, List.length_map]

/-- The labels, when there are any. -/
theorem extractLabels_eq_ok {parameters labels : StrMap} {driverName : String}
    (h : extractLabels U parameters driverName = .ok labels) :
    labels.entries.length = labelCount U parameters ∧
      ∀ key value, labels.lookup key = some value ↔
        (key = tagKeyCreatedBy ∧ value = replaceAll driverName '.' '_') ∨
        (∃ p ∈ metadataKeys, key = p.2 ∧ given U p.1 parameters.entries = some value) ∨
        (storageClassLabels U parameters).lookup key = some value := by
  simp only [extractLabels] at h
  split at h
  · cases h
  rename_i m sc hfold
  obtain ⟨hmeta, hother, hnone, hsome⟩ := foldlM_extractLabel hfold
  have hmeta' : ∀ p ∈ metadataKeys, m.lookup p.2 = given U p.1 parameters.entries :=
    fun p hp => by simpa using hmeta p hp
  have hother' : ∀ key, (∀ p ∈ metadataKeys, p.2 ≠ key) → m.lookup key = none :=
    fun key hkey => by simpa using hother key hkey
  obtain rfl : sc = storageClassLabels U parameters := by
    unfold storageClassLabels
    split
    · exact hnone ‹_›
    · simp [hsome _ ‹_›, Except.toOption]
  obtain ⟨hlen, hlookup⟩ := mergeLabels_eq_ok h
  rw [length_metadata _ hmeta' hother'] at hlen
  refine ⟨by rw [hlen, labelCount]; omega, fun key value => ?_⟩
  rw [hlookup, ← or_assoc]
  refine or_congr_left ?_
  by_cases hkey : key = tagKeyCreatedBy
  · subst hkey
    have hno : ¬∃ p ∈ metadataKeys, tagKeyCreatedBy = p.2 ∧
        given U p.1 parameters.entries = some value := by
      rintro ⟨p, hp, heq, -⟩
      have hall : (metadataKeys.all fun p => p.2 != tagKeyCreatedBy) = true := by decide
      simpa [heq] using List.all_eq_true.mp hall p hp
    rw [AList.lookup_insert, Option.some.injEq]
    constructor
    · rintro rfl
      exact .inl ⟨rfl, rfl⟩
    · rintro (⟨-, rfl⟩ | hgiven)
      · rfl
      · exact absurd hgiven hno
  · rw [AList.lookup_insert_ne hkey]
    simp only [hkey, false_and, false_or]
    constructor
    · intro hvalue
      by_contra hnot
      rw [hother' key] at hvalue
      · cases hvalue
      · rintro p hp rfl
        exact hnot ⟨p, hp, rfl, by rw [← hmeta' p hp, hvalue]⟩
    · rintro ⟨p, hp, rfl, hgiven⟩
      rw [hmeta' p hp, hgiven]

/-- The keys that the driver adds, and its own value, are within the limits. -/
theorem validKey_tags {tag : String} (h : tag = tagKeyCreatedBy ∨ ∃ p ∈ metadataKeys, tag = p.2) :
    ValidKey U tag := by
  have hall : ((tagKeyCreatedBy :: metadataKeys.map Prod.snd).all fun tag => plainLabel tag &&
      decide (1 ≤ tag.toList.length) && decide (tag.toList.length ≤ 63) &&
      tag.toList.head?.all fun c => c.toNat < 128 && c.isLower) = true := by decide
  have hmem : tag ∈ tagKeyCreatedBy :: metadataKeys.map Prod.snd := by
    rcases h with rfl | ⟨p, hp, rfl⟩
    · simp
    · exact List.mem_cons_of_mem _ (List.mem_map_of_mem hp)
  have htag := List.all_eq_true.mp hall tag hmem
  simp only [Bool.and_eq_true, decide_eq_true_eq] at htag
  exact validKey_of_plain htag.1.1.1 htag.1.1.2 htag.1.2 htag.2

/-- The name of the driver, as it is used in labels, is a valid value. -/
theorem validValue_defaultName : ValidValue U (replaceAll defaultName '.' '_') :=
  validValue_of_plain (by decide) (by decide)

/-- **The limits of labels.** Whenever `extractLabels` succeeds for the driver, whatever the
parameters are, the labels keep the documented limits if and only if the given names of claim,
namespace and volume are valid label values and there are at most 64 labels from both sources
together.
SOURCE: pkg/csi_driver/controller.go:460-500, pkg/util/util.go:35-96 -/
theorem validLabels_iff {parameters labels : StrMap}
    (h : extractLabels U parameters defaultName = .ok labels) :
    ValidLabels U labels ↔
      (∀ p ∈ metadataKeys, ∀ value, given U p.1 parameters.entries = some value →
        ValidValue U value) ∧ labelCount U parameters ≤ 64 := by
  obtain ⟨hlen, hlookup⟩ := extractLabels_eq_ok h
  constructor
  · intro hvalid
    refine ⟨fun p hp value hgiven => ?_, hlen ▸ hvalid.count⟩
    exact hvalid.values p.2 value ((hlookup _ _).mpr (.inr (.inl ⟨p, hp, rfl, hgiven⟩)))
  · rintro ⟨hmeta, hcount⟩
    -- The labels of the storage class have been checked.
    have hsc : ValidLabels U (storageClassLabels U parameters) := by
      unfold storageClassLabels
      split
      · exact ⟨by simp, by simp, by simp⟩
      rename_i text _
      cases hconv : convertLabelsStringToMap U text with
      | error err => exact ⟨by simp [Except.toOption], by simp [Except.toOption],
          by simp [Except.toOption]⟩
      | ok m => simpa [Except.toOption] using validLabels_of_convert hconv
    refine ⟨hlen ▸ hcount, fun key value hkey => ?_, fun key value hkey => ?_⟩
    · rcases (hlookup key value).mp hkey with ⟨rfl, -⟩ | ⟨p, hp, rfl, -⟩ | hkey
      · exact validKey_tags (.inl rfl)
      · exact validKey_tags (.inr ⟨p, hp, rfl⟩)
      · exact hsc.keys key value hkey
    · rcases (hlookup key value).mp hkey with ⟨-, rfl⟩ | ⟨p, hp, -, hgiven⟩ | hkey
      · exact validValue_defaultName
      · exact hmeta p hp value hgiven
      · exact hsc.values key value hkey

/-! ## The name of a claim with a dot -/

section Sample

/-- The parameters of a request for the claim with the given name. -/
def parametersFor (claimName : String) : StrMap :=
  (((∅ : StrMap).insert keyLabels "team=storage").insert keyPVCName claimName).insert
    "perUnitStorageThroughput" "1000"

/-- The parameters with their keys normalised. -/
def normalFor (claimName : String) : StrMap :=
  (((∅ : StrMap).insert keyPerUnitStorageThroughput "1000").insert keyPVCName claimName).insert
    keyLabels "team=storage"

/-- The labels of the instance. -/
def labelsFor (claimName : String) : StrMap :=
  (((∅ : StrMap).insert tagKeyCreatedForClaimName claimName).insert tagKeyCreatedBy
    "lustre_csi_storage_gke_io").insert "team" "storage"

/-- A DNS subdomain, the names that Kubernetes allows for claims and volumes. -/
def dnsSubdomain (name : String) : Bool :=
  name.toList.length ≤ 253 && (split name '.').all fun part =>
    part.toList.all (fun c => isAlnumLower c || c == '-') &&
      part.toList.head?.any isAlnumLower && part.toList.getLast?.any isAlnumLower

/-- A result that was computed. -/
theorem eq_ok_of_toOption {α ε : Type} {x : Except ε α} {a : α} (h : x.toOption = some a) :
    x = .ok a := by
  cases x with
  | error err => cases h
  | ok b => exact congrArg _ (Option.some.inj h)

/-- A claim whose name is a valid label value: the labels keep the limits. -/
theorem validLabels_plain :
    extractLabels .asciiOnly (normalFor "my-claim") defaultName = .ok (labelsFor "my-claim") ∧
      ValidLabels .asciiOnly (labelsFor "my-claim") := by
  have hextract : extractLabels .asciiOnly (normalFor "my-claim") defaultName =
      .ok (labelsFor "my-claim") := eq_ok_of_toOption (by decide +kernel)
  have hplain : (metadataKeys.all fun p => (given .asciiOnly p.1 (normalFor "my-claim").entries).all
      fun value => plainLabel value && value.toList.length ≤ 63) = true := by decide +kernel
  refine ⟨hextract, (validLabels_iff hextract).mpr ⟨fun p hp value hgiven => ?_, by decide +kernel⟩⟩
  have hvalue := List.all_eq_true.mp hplain p hp
  simp only [hgiven, Option.all_some, Bool.and_eq_true, decide_eq_true_eq] at hvalue
  exact validValue_of_plain hvalue.1 hvalue.2

/-- A claim whose name has a dot, as Kubernetes allows it: the dot is in the label. -/
theorem not_always_validLabels :
    ¬∀ (U : Unicode) (input parameters labels : StrMap), normalizeParams U input = .ok parameters →
      (∀ p ∈ metadataKeys, ∀ value, given U p.1 parameters.entries = some value →
        dnsSubdomain value = true) →
      extractLabels U parameters defaultName = .ok labels → ValidLabels U labels := by
  intro h
  have hnormal : normalizeParams .asciiOnly (parametersFor "my.claim") = .ok (normalFor "my.claim") :=
    eq_ok_of_toOption (by decide +kernel)
  have hextract : extractLabels .asciiOnly (normalFor "my.claim") defaultName =
      .ok (labelsFor "my.claim") := eq_ok_of_toOption (by decide +kernel)
  have hdns : ∀ p ∈ metadataKeys, ∀ value,
      given .asciiOnly p.1 (normalFor "my.claim").entries = some value →
        dnsSubdomain value = true := by
    have hall : (metadataKeys.all fun p => (given .asciiOnly p.1
        (normalFor "my.claim").entries).all dnsSubdomain) = true := by decide +kernel
    intro p hp value hgiven
    simpa [hgiven] using List.all_eq_true.mp hall p hp
  have hvalid := h _ _ _ _ hnormal hdns hextract
  have hlookup : (labelsFor "my.claim").lookup tagKeyCreatedForClaimName = some "my.claim" := by
    decide +kernel
  have hdot := (hvalid.values _ _ hlookup).chars '.' (by decide)
  exact absurd hdot (by decide)

end Sample

end LustreCsi.Analysis.LabelLimits
