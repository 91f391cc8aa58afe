import LustreCsi.Analysis.LabelLimits
import LustreCsi.Interface.VolumeContexts

/-!
# Parameters and labels in any order

The loops over Go maps meet the entries in an order that changes from call to call, while
`normalizeKeys` overwrites entries and `mergeLabels` stops at the first conflict. `LabelsOf` has
every result that some choice of orders can have; `labels_of_any_order` says that they differ in the
texts of errors only, and which labels there are.
-/

set_option autoImplicit false

namespace LustreCsi.Analysis.ParameterMaps

open LustreCsi.Computation Model Interface LabelLimits

variable {l : List (Sigma fun _ : String => String)} {params input : StrMap} {U : Unicode}
  {driverName : String}

/-! ## Every order -/

/-- What `extractLabels` may return: its loop meets the parameters in some order, and `mergeLabels` the
labels of both sources.
SOURCE: pkg/csi_driver/controller.go:460-500 -/
inductive Extracts (U : Unicode) (driverName : String) (parameters : StrMap) :
    Except String StrMap → Prop where
  | fails {l : List (Sigma fun _ : String => String)} {err : String} (hl : l.Perm parameters.entries)
      (h : l.foldlM (extractLabel U) (∅, ∅) = .error err) : Extracts U driverName parameters (.error err)
  | merges {l : List (Sigma fun _ : String => String)} {labels scLabels m sc : StrMap}
      (hl : l.Perm parameters.entries) (h : l.foldlM (extractLabel U) (∅, ∅) = .ok (labels, scLabels))
      (hm : m.entries.Perm (labels.insert tagKeyCreatedBy (replaceAll driverName '.' '_')).entries)
      (hsc : sc.entries.Perm scLabels.entries) : Extracts U driverName parameters (mergeLabels sc m)

/-- What `normalizeParams` followed by `extractLabels` may return for a map of parameters. -/
inductive LabelsOf (U : Unicode) (driverName : String) (input : StrMap) :
    Except String StrMap → Prop where
  | refused {input' : StrMap} {err : String} (hin : input'.entries.Perm input.entries)
      (h : normalizeParams U input' = .error err) : LabelsOf U driverName input (.error err)
  | extracted {input' params : StrMap} {r : Except String StrMap}
      (hin : input'.entries.Perm input.entries) (h : normalizeParams U input' = .ok params)
      (hr : Extracts U driverName params r) : LabelsOf U driverName input r

/-- The order of the model is one of them. -/
theorem extracts_extractLabels (parameters : StrMap) :
    Extracts U driverName parameters (extractLabels U parameters driverName) := by
  unfold extractLabels
  split
  · exact .fails (.refl _) ‹_›
  · exact .merges (.refl _) ‹_› (.refl _) (.refl _)

/-- The outcome of a call: a failure, or a map as a function of its keys. -/
def outcome (r : Except String StrMap) : Option (String → Option String) :=
  r.toOption.map fun m key => m.lookup key

/-! ## What the outcome has to be -/

/-- The labels from the metadata in normalised parameters, and the driver's own. -/
def metadataLabel (driverName : String) (params : String → Option String) (key : String) :
    Option String :=
  if key = tagKeyCreatedBy then some (replaceAll driverName '.' '_')
  else (metadataKeys.find? (·.2 = key)).bind fun p => params p.1

/-- The labels of the storage class in normalised parameters. -/
def parsedLabels (U : Unicode) (params : String → Option String) : Except String StrMap :=
  (params keyLabels).elim (.ok ∅) (convertLabelsStringToMap U)

/-- The labels of both sources, unless those of the storage class cannot be read or have a key of the
metadata. -/
def labelsSpec (U : Unicode) (driverName : String) (params : String → Option String) :
    Option (String → Option String) :=
  (parsedLabels U params).toOption.bind fun sc =>
    if sc.keys.any fun key => (metadataLabel driverName params key).isSome then none
    else some fun key => (metadataLabel driverName params key).or (sc.lookup key)

/-! ## Merging -/

/-- Merging fails only at a key that both maps have. -/
theorem exists_of_mergeLabels_error {sc m : StrMap} {err : String} (h : mergeLabels sc m = .error err) :
    ∃ key ∈ sc, key ∈ m := by
  obtain ⟨l₁, e, l₂, b, hsc, hok, herr⟩ := exists_of_foldlM_error h
  have hmem : e.1 ∈ b := by
    unfold mergeLabel at herr
    split at herr
    · rename_i hmem
      exact hmem
    · cases herr
  have hkey : e.1 ∈ sc := AList.mem_keys.mpr (List.mem_map_of_mem (by simp [hsc]))
  refine ⟨e.1, hkey, ?_⟩
  obtain ⟨e', he', heq⟩ := List.mem_map.mp (AList.mem_keys.mp hmem)
  rcases ((foldlM_mergeLabel hok).2.2 e').mp he' with hm | hl
  · exact heq ▸ AList.mem_keys.mpr (List.mem_map_of_mem hm)
  -- The key would stand twice in the map that is merged.
  have hnodup := sc.nodupKeys
  rw [hsc, List.NodupKeys, List.keys, List.map_append, List.map_cons, List.nodup_append] at hnodup
  exact absurd heq (hnodup.2.2 _ (List.mem_map_of_mem hl) _ List.mem_cons_self)

/-- What merging returns. -/
theorem outcome_mergeLabels (sc m : StrMap) : outcome (mergeLabels sc m) =
    if sc.keys.any fun key => (m.lookup key).isSome then none
    else some fun key => (m.lookup key).or (sc.lookup key) := by
  have hcommon : (sc.keys.any fun key => (m.lookup key).isSome) = true ↔ ∃ key ∈ sc, key ∈ m := by
    simp only [List.any_eq_true, AList.lookup_isSome, AList.mem_keys]
  cases h : mergeLabels sc m with
  | error err =>
    rw [if_pos (hcommon.mpr (exists_of_mergeLabels_error h))]
    rfl
  | ok labels =>
    obtain ⟨-, hnew, -⟩ := foldlM_mergeLabel h
    have hdisjoint : ∀ key ∈ sc, key ∉ m := fun key hkey => by
      obtain ⟨e, he, rfl⟩ := List.mem_map.mp (AList.mem_keys.mp hkey)
      exact hnew e he
    rw [if_neg fun hany => by
      obtain ⟨key, hsc, hm⟩ := hcommon.mp hany
      exact hdisjoint key hsc hm]
    refine congrArg some (funext fun key => ?_)
    obtain ⟨-, hlookup⟩ := mergeLabels_eq_ok h
    refine Option.ext fun value => ?_
    rw [hlookup]
    cases hm : m.lookup key with
    | none => simp
    | some value' =>
      have hsc : sc.lookup key = none := AList.lookup_eq_none.mpr fun hkey =>
        hdisjoint key hkey (AList.lookup_isSome.mp (by simp [hm]))
      simp [hsc]

/-! ## Extracting -/

/-- The last value that is met for a key is one of its values. -/
theorem given_eq_some {key value : String} (h : given U key l = some value) :
    ∃ e ∈ l, toLower U e.1 = key ∧ e.2 = value := by
  induction l with
  | nil => cases h
  | cons e l ih =>
    rw [given, Option.or_eq_some_iff] at h
    rcases h with h | ⟨-, h⟩
    · obtain ⟨e', he', heq⟩ := ih h
      exact ⟨e', List.mem_cons_of_mem e he', heq⟩
    split at h
    · exact ⟨e, List.mem_cons_self, ‹_›, Option.some.inj h⟩
    · cases h

/-- There is a value if a key is met. -/
theorem given_eq_none {key : String} :
    given U key l = none ↔ ∀ e ∈ l, toLower U e.1 ≠ key := by
  induction l with
  | nil => simp [given]
  | cons e l ih => simp [given, ih, and_comm]

/-- In normalised parameters there is at most one value for a key. -/
theorem given_eq_lookup (hfix : ∀ key ∈ params, toLower U key = key) (hl : l.Perm params.entries)
    (key : String) :
    given U key l = params.lookup key := by
  have hentry : ∀ e ∈ l, toLower U e.1 = e.1 := fun e he =>
    hfix e.1 (AList.mem_keys.mpr (List.mem_map_of_mem (hl.mem_iff.mp he)))
  cases hgiven : given U key l with
  | none =>
    have hnot : key ∉ params := fun hmem => by
      obtain ⟨e, he, rfl⟩ := List.mem_map.mp (AList.mem_keys.mp hmem)
      exact given_eq_none.mp hgiven e (hl.mem_iff.mpr he) (hentry e (hl.mem_iff.mpr he))
    rw [AList.lookup_eq_none.mpr hnot]
  | some value =>
    obtain ⟨e, he, rfl, rfl⟩ := given_eq_some hgiven
    rw [hentry e he]
    exact (Option.mem_def.mp (AList.mem_lookup_iff.mpr (hl.mem_iff.mp he))).symm

/-- The loop fails only at labels that cannot be read. -/
theorem exists_of_extractLabel_error {acc : StrMap × StrMap} {e : Sigma fun _ : String => String}
    {err : String} (h : extractLabel U acc e = .error err) :
    toLower U e.1 = keyLabels ∧ ∃ err, convertLabelsStringToMap U e.2 = .error err := by
  unfold extractLabel at h
  dsimp only at h
  split at h
  · cases h
  split at h
  · cases h
  split at h
  · cases h
  split at h
  · split at h
    · exact ⟨‹_›, _, ‹_›⟩
    · cases h
  · cases h

/-- The labels from the metadata are looked up in the normalised parameters. -/
theorem lookup_metadata {m : StrMap} (hmeta : ∀ p ∈ metadataKeys, m.lookup p.2 = params.lookup p.1)
    (hother : ∀ key, (∀ p ∈ metadataKeys, p.2 ≠ key) → m.lookup key = none) (key : String) :
    (m.insert tagKeyCreatedBy (replaceAll driverName '.' '_')).lookup key =
      metadataLabel driverName (fun key => params.lookup key) key := by
  unfold metadataLabel
  by_cases hkey : key = tagKeyCreatedBy
  · rw [if_pos hkey, hkey, AList.lookup_insert]
  rw [if_neg hkey, AList.lookup_insert_ne hkey]
  cases hfind : metadataKeys.find? (·.2 = key) with
  | none =>
    refine hother key fun p hp heq => ?_
    simpa [heq] using List.find?_eq_none.mp hfind p hp
  | some p =>
    obtain rfl : p.2 = key := by simpa using List.find?_some hfind
    exact hmeta p (List.mem_of_find?_eq_some hfind)

/-- What `extractLabels` returns, in any order. -/
theorem outcome_of_extracts (hfix : ∀ key ∈ params, toLower U key = key) {r : Except String StrMap}
    (h : Extracts U driverName params r) :
    outcome r = labelsSpec U driverName fun key => params.lookup key := by
  cases h with
  | fails hl h =>
    rename_i l err
    obtain ⟨l₁, e, l₂, acc, rfl, -, herr⟩ := exists_of_foldlM_error h
    obtain ⟨hkey, err', hconvert⟩ := exists_of_extractLabel_error herr
    have hmem : e ∈ params.entries := hl.mem_iff.mp (by simp)
    have hlookup : params.lookup keyLabels = some e.2 := by
      rw [← hkey, hfix e.1 (AList.mem_keys.mpr (List.mem_map_of_mem hmem))]
      exact AList.mem_lookup_iff.mpr hmem
    simp [labelsSpec, parsedLabels, hlookup, hconvert, outcome, Except.toOption]
  | merges hl h hm hsc =>
    rename_i l labels scLabels m sc
    obtain ⟨hmeta, hother, hnone, hsome⟩ := foldlM_extractLabel h
    have hgiven := given_eq_lookup hfix hl
    have hparsed : parsedLabels U (fun key => params.lookup key) = .ok scLabels := by
      rw [parsedLabels, ← hgiven keyLabels]
      cases hlabels : given U keyLabels l with
      | none => exact congrArg Except.ok (hnone hlabels).symm
      | some text => exact hsome text hlabels
    have hlookup : ∀ key, m.lookup key = metadataLabel driverName (fun key => params.lookup key) key := by
      intro key
      rw [AList.perm_lookup hm]
      refine lookup_metadata (fun p hp => ?_) (fun key hkey => ?_) key
      · rw [hmeta p hp, hgiven p.1, AList.lookup_empty, Option.or_none]
      · rw [hother key hkey, AList.lookup_empty]
    have hkeys : sc.keys.Perm scLabels.keys := hsc.map Sigma.fst
    have hany : (sc.keys.any fun key => (m.lookup key).isSome) =
        scLabels.keys.any fun key => (metadataLabel driverName (fun key => params.lookup key) key).isSome := by
      simp only [hkeys.any_eq, hlookup]
    rw [outcome_mergeLabels, hany, labelsSpec, hparsed]
    simp only [Except.toOption, Option.bind_some, hlookup, AList.perm_lookup hsc]

/-! ## Normalised parameters -/

/-- Normalisation of parameters is that of their keys. -/
theorem normalizeParams_eq_ok : normalizeParams U input = .ok params ↔
    normalizeKeys U input (paramKeys.map (Model.normalize U)) = .ok params := by
  unfold normalizeParams
  cases normalizeKeys U input (paramKeys.map (Model.normalize U)) <;> simp

/-- The order of the parameters does not matter for what they are normalised to. -/
theorem normalizeParams_perm {input' : StrMap} (hin : input'.entries.Perm input.entries) :
    outcome (normalizeParams U input') = outcome (normalizeParams U input) := by
  have hmem : ∀ key, key ∈ input' ↔ key ∈ input := fun key => AList.mem_of_perm hin
  have hiff : (∃ n, normalizeParams U input' = .ok n) ↔ ∃ n, normalizeParams U input = .ok n := by
    simp only [normalizeParams_eq_ok, normalizeKeys_isOk, hmem]
  cases h' : normalizeParams U input' with
  | error err' =>
    cases h : normalizeParams U input with
    | error err => rfl
    | ok n => simp [h, h'] at hiff
  | ok n' =>
    obtain ⟨n, h⟩ := hiff.mp ⟨n', h'⟩
    rw [h]
    refine congrArg some (funext fun x => Option.ext fun value => ?_)
    rw [lookup_normalizeKeys (normalizeParams_eq_ok.mp h'), lookup_normalizeKeys (normalizeParams_eq_ok.mp h)]
    simp only [AList.perm_lookup hin]

/-- The keys of normalised parameters are in lower case, if lowering is idempotent. -/
theorem toLower_of_mem (hlower : ∀ c, U.toLower (U.toLower c) = U.toLower c)
    (h : normalizeParams U input = .ok params) : ∀ key ∈ params, toLower U key = key := by
  intro x hx
  obtain ⟨value, hvalue⟩ := Option.isSome_iff_exists.mp (AList.lookup_isSome.mpr hx)
  obtain ⟨key, -, rfl⟩ := (lookup_normalizeKeys (normalizeParams_eq_ok.mp h) x value).mp hvalue
  refine String.toList_injective ?_
  rw [toLower, String.toList_ofList, normalize_toList, List.map_map]
  exact List.map_congr_left fun c _ => hlower c

/-- What the labels are, whatever the orders. -/
theorem outcome_of_labelsOf (hlower : ∀ c, U.toLower (U.toLower c) = U.toLower c)
    {r : Except String StrMap} (h : LabelsOf U driverName input r) :
    outcome r = (outcome (normalizeParams U input)).bind (labelsSpec U driverName) := by
  cases h with
  | refused hin h =>
    rw [← normalizeParams_perm hin, h]
    rfl
  | extracted hin h hr =>
    rw [outcome_of_extracts (toLower_of_mem hlower h) hr, ← normalizeParams_perm hin, h]
    rfl

/-! ## Both results -/

/-- The keys of a map are admissible, and have different normal forms. -/
structure Distinguishable (U : Unicode) (supported : List String) (input : StrMap) : Prop where
  admissible : ∀ key ∈ input, Model.normalize U key ∈ supported ∨
    KubernetesKey (Model.normalize U key) = true
  distinct : ∀ key ∈ input, ∀ key' ∈ input, Model.normalize U key = Model.normalize U key' → key = key'

/-- The value that a map has for a normal form. -/
def Gives (U : Unicode) (input : StrMap) (x value : String) : Prop :=
  ∃ key, input.lookup key = some value ∧ Model.normalize U key = x

/-- The labels of the storage class: what is read from the parameter for labels, if there is one. -/
def ParsedFrom (U : Unicode) (input sc : StrMap) : Prop :=
  (∃ text, Gives U input keyLabels text ∧ convertLabelsStringToMap U text = .ok sc) ∨
    ((∀ text, ¬Gives U input keyLabels text) ∧ sc = ∅)

/-- A label from the metadata, or the driver's own. -/
def FromMetadata (U : Unicode) (driverName : String) (input : StrMap) (key value : String) : Prop :=
  (key = tagKeyCreatedBy ∧ value = replaceAll driverName '.' '_') ∨
    ∃ p ∈ metadataKeys, key = p.2 ∧ Gives U input p.1 value

/-- The labels from the metadata as they are specified. -/
theorem metadataLabel_eq_some (h : normalizeParams U input = .ok params) {key value : String} :
    metadataLabel driverName (fun key => params.lookup key) key = some value ↔
      FromMetadata U driverName input key value := by
  have hgives : ∀ x value, params.lookup x = some value ↔ Gives U input x value :=
    lookup_normalizeKeys (normalizeParams_eq_ok.mp h)
  have htag : ∀ p ∈ metadataKeys, p.2 ≠ tagKeyCreatedBy := by
    have hall : (metadataKeys.all fun p => p.2 != tagKeyCreatedBy) = true := by decide
    intro p hp
    simpa using List.all_eq_true.mp hall p hp
  unfold metadataLabel FromMetadata
  by_cases hkey : key = tagKeyCreatedBy
  · rw [if_pos hkey, Option.some.injEq]
    constructor
    · rintro rfl
      exact .inl ⟨hkey, rfl⟩
    · rintro (⟨-, rfl⟩ | ⟨p, hp, heq, -⟩)
      · rfl
      · exact absurd (heq.symm.trans hkey) (htag p hp)
  · rw [if_neg hkey, Option.bind_eq_some_iff]
    constructor
    · rintro ⟨p, hfind, hvalue⟩
      have heq : p.2 = key := by simpa using List.find?_some hfind
      exact .inr ⟨p, List.mem_of_find?_eq_some hfind, heq.symm, (hgives _ _).mp hvalue⟩
    · rintro (⟨heq, -⟩ | ⟨p, hp, rfl, hvalue⟩)
      · exact absurd heq hkey
      · refine ⟨p, ?_, (hgives _ _).mpr hvalue⟩
        cases hfind : metadataKeys.find? (·.2 = p.2) with
        | none => simpa using List.find?_eq_none.mp hfind p hp
        | some q =>
          have heq : q.2 = p.2 := by simpa using List.find?_some hfind
          rw [metadataKeys_inj (List.mem_of_find?_eq_some hfind) hp (.inr heq)]

/-- Labels are the disjoint union of the two sources. -/
theorem union_of_labelsSpec {labels : StrMap} (h : normalizeParams U input = .ok params)
    (hlabels : outcome (.ok labels) = labelsSpec U driverName fun key => params.lookup key) :
    ∃ sc, ParsedFrom U input sc ∧ (∀ key ∈ sc, ∀ value, ¬FromMetadata U driverName input key value) ∧
      ∀ key value, labels.lookup key = some value ↔
        FromMetadata U driverName input key value ∨ sc.lookup key = some value := by
  have hgives : ∀ x value, params.lookup x = some value ↔ Gives U input x value :=
    lookup_normalizeKeys (normalizeParams_eq_ok.mp h)
  obtain ⟨sc, hparsed, hspec⟩ := Option.bind_eq_some_iff.mp hlabels.symm
  split at hspec
  · cases hspec
  rename_i hdisjoint
  have hno : ∀ key ∈ sc, metadataLabel driverName (fun key => params.lookup key) key = none := by
    intro key hkey
    by_contra hsome
    exact hdisjoint (List.any_eq_true.mpr
      ⟨key, AList.mem_keys.mp hkey, Option.isSome_iff_ne_none.mpr hsome⟩)
  refine ⟨sc, ?_, fun key hkey value hmeta => ?_, fun key value => ?_⟩
  · cases htext : params.lookup keyLabels with
    | none =>
      refine .inr ⟨fun text htext' => ?_, ?_⟩
      · rw [(hgives _ _).mpr htext'] at htext
        cases htext
      · simpa [parsedLabels, htext, Except.toOption] using hparsed.symm
    | some text =>
      refine .inl ⟨text, (hgives _ _).mp htext, ?_⟩
      cases hconvert : convertLabelsStringToMap U text with
      | error err => simp [parsedLabels, htext, hconvert, Except.toOption] at hparsed
      | ok sc' => simpa [parsedLabels, htext, hconvert, Except.toOption] using hparsed
  · have hnone := hno key hkey
    rw [(metadataLabel_eq_some h).mpr hmeta] at hnone
    cases hnone
  · have heq := congrFun (Option.some.inj hspec) key
    dsimp only at heq
    rw [← heq, Option.or_eq_some_iff, metadataLabel_eq_some h]
    refine or_congr_right ⟨And.right, fun hsc => ⟨?_, hsc⟩⟩
    exact hno key (AList.lookup_isSome.mp (by simp [hsc]))

/-- **Parameters are normalised exactly, and labels do not depend on any order.** Let lowering the case of
a letter twice be the same as once. For every map, in every order of its entries, `normalizeKeys` succeeds
exactly if the keys are admissible and have different normal forms, and then returns each value under the
normal form of its key and nothing else. Any two results of `normalizeParams` followed by `extractLabels`,
in any orders of iteration, are failures or the same labels; labels are those of the storage class together
with those from the metadata, and the two have no key in common.

SOURCE: pkg/csi_driver/utils.go:68-148, pkg/csi_driver/controller.go:460-500 -/
theorem labels_of_any_order (hlower : ∀ c, U.toLower (U.toLower c) = U.toLower c) (input : StrMap) :
    (∀ supported, (∃ n, normalizeKeys U input supported = .ok n) ↔ Distinguishable U supported input) ∧
    (∀ supported n, normalizeKeys U input supported = .ok n →
      ∀ x value, n.lookup x = some value ↔ Gives U input x value) ∧
    ∀ driverName r r', LabelsOf U driverName input r → LabelsOf U driverName input r' →
      outcome r = outcome r' ∧ ∀ labels, r = .ok labels →
        ∃ sc, ParsedFrom U input sc ∧ (∀ key ∈ sc, ∀ value, ¬FromMetadata U driverName input key value) ∧
          ∀ key value, labels.lookup key = some value ↔
            FromMetadata U driverName input key value ∨ sc.lookup key = some value := by
  refine ⟨fun supported => ?_, fun supported n hn => lookup_normalizeKeys hn,
    fun driverName r r' hr hr' => ⟨?_, fun labels hok => ?_⟩⟩
  · rw [normalizeKeys_isOk]
    exact ⟨fun h => ⟨h.1, h.2⟩, fun h => ⟨h.admissible, h.distinct⟩⟩
  · rw [outcome_of_labelsOf hlower hr, outcome_of_labelsOf hlower hr']
  · subst hok
    have houtcome := outcome_of_labelsOf hlower hr
    cases hparams : normalizeParams U input with
    | error err =>
      rw [hparams] at houtcome
      cases houtcome
    | ok params =>
      rw [hparams] at houtcome
      exact union_of_labelsSpec hparams houtcome

/-! ## A storage class with a label -/

/-- Lowering the case of an ASCII letter twice. -/
theorem toLower_toLower_ascii (c : Char) : c.toLower.toLower = c.toLower := by
  have hfix : ∀ d : Char, ¬(d.val ≥ 'A'.val ∧ d.val ≤ 'Z'.val) → d.toLower = d := fun d hd => by
    delta Char.toLower
    exact dif_neg hd
  by_cases hc : c.val ≥ 'A'.val ∧ c.val ≤ 'Z'.val
  · refine hfix _ fun hlower => ?_
    have hval : c.toLower.val = c.val + ('a'.val - 'A'.val) := by
      delta Char.toLower
      rw [dif_pos hc]
    rw [hval] at hlower
    have h₁ := UInt32.le_iff_toNat_le.mp hc.1
    have h₂ := UInt32.le_iff_toNat_le.mp hc.2
    have h₃ := UInt32.le_iff_toNat_le.mp hlower.2
    simp at h₁ h₂ h₃
    omega
  · rw [hfix c hc, hfix c hc]

/-- Parameters with a label and the name of the claim. -/
def labelled : StrMap := ((∅ : StrMap).insert "Labels" "team=a").insert keyPVCName "claim"

/-- The labels are the same in every order. -/
theorem labels_of_any_order_labelled :
    ∃ labels, LabelsOf .asciiOnly defaultName labelled (.ok labels) ∧ labels.lookup "team" = some "a" ∧
      ∀ r, LabelsOf .asciiOnly defaultName labelled r → outcome r = outcome (.ok labels) := by
  have hsome : ((normalizeParams .asciiOnly labelled).toOption.bind fun params =>
      (extractLabels .asciiOnly params defaultName).toOption.map fun m => m.lookup "team") =
      some (some "a") := by decide +kernel
  cases hparams : normalizeParams .asciiOnly labelled with
  | error err => simp [hparams, Except.toOption] at hsome
  | ok params =>
    cases hlabels : extractLabels .asciiOnly params defaultName with
    | error err => simp [hparams, hlabels, Except.toOption] at hsome
    | ok labels =>
      have hlookup : labels.lookup "team" = some "a" := by
        simpa [hparams, hlabels, Except.toOption] using hsome
      have hown : LabelsOf .asciiOnly defaultName labelled (.ok labels) :=
        .extracted (.refl _) hparams (hlabels ▸ extracts_extractLabels params)
      exact ⟨labels, hown, hlookup, fun r hr =>
        ((labels_of_any_order toLower_toLower_ascii labelled).2.2 defaultName r _ hr hown).1⟩

end LustreCsi.Analysis.ParameterMaps
