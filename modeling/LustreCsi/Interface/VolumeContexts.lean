import LustreCsi.Interface.MountPoints
import LustreCsi.Interface.Text

/-!
# Volume contexts with foreign keys

Kubelet and the provisioner add keys of their own to the volume context (`Extends`); they are let
through as long as no two keys have the same normal form, and the attributes of the volume are found
under their normalised names.
-/

set_option autoImplicit false

namespace LustreCsi.Interface

open LustreCsi.Computation Model

variable {a : String} {supported : List String} {U : Unicode}

/-! ## Maps -/

/-- The value of a key that was entered. -/
@[simp] theorem get_insert_self (m : StrMap) (key value : String) :
    StrMap.get (m.insert key value) key = value := by
  simp [StrMap.get]

/-- The values of other keys. -/
theorem get_insert_of_ne (m : StrMap) {key key' : String} (h : key' ≠ key) (value : String) :
    StrMap.get (m.insert key value) key' = m.get key' := by
  rw [StrMap.get, AList.lookup_insert_ne h, StrMap.get]

/-- The empty map has no values. -/
@[simp] theorem get_empty (key : String) : StrMap.get (∅ : StrMap) key = "" := rfl

/-- The keys of a map with one entry. -/
theorem mem_insert_empty {key key' value : String} :
    key' ∈ (∅ : StrMap).insert key value ↔ key' = key := by
  rw [AList.mem_insert]
  exact or_iff_left (AList.notMem_empty _)

/-! ## Normal forms -/

/-- A key that Kubernetes adds. -/
def KubernetesKey (key : String) : Bool :=
  hasPrefix key csiPrefixKubernetesStorage || hasPrefix key storagePrefixKubernetes

/-- Characters that stay as they are. -/
def plainKey (key : String) : Bool := lowerAscii key && key.toList.all fun c => c != '-' && c != '_'

/-- The characters of a normalised key. -/
theorem normalize_toList (U : Unicode) (key : String) : (normalize U key).toList =
    ((key.toList.filter (· ≠ '-')).filter (· ≠ '_')).map U.toLower := by
  simp [Model.normalize]

/-- A plain key is its own normal form. -/
theorem normalize_of_plainKey {key : String} (h : plainKey key = true) : normalize U key = key := by
  obtain ⟨hlower, hall⟩ := (Bool.and_eq_true _ _).mp h
  have hchar := List.all_eq_true.mp hall
  apply String.toList_injective
  rw [normalize_toList, List.filter_filter, List.filter_eq_self.mpr]
  · exact map_toLower_of_lowerAscii hlower
  · intro c hc
    simpa [and_comm] using hchar c hc

/-- A prefix that normalisation leaves alone stays a prefix. -/
theorem hasPrefix_normalize {key p : String} (hp : plainKey p = true)
    (h : hasPrefix key p = true) : hasPrefix (normalize U key) p = true := by
  obtain ⟨rest, hrest⟩ := List.isPrefixOf_iff_prefix.mp h
  have hself := congrArg String.toList (normalize_of_plainKey (U := U) hp)
  rw [normalize_toList] at hself
  refine List.isPrefixOf_iff_prefix.mpr
    ⟨((rest.filter (· ≠ '-')).filter (· ≠ '_')).map U.toLower, ?_⟩
  rw [normalize_toList, ← hrest, List.filter_append, List.filter_append, List.map_append, hself]

/-- A key of Kubernetes is one in normal form too. -/
theorem kubernetesKey_normalize {key : String} (h : KubernetesKey key = true) :
    KubernetesKey (normalize U key) = true := by
  simp only [KubernetesKey, Bool.or_eq_true] at h ⊢
  exact h.imp (hasPrefix_normalize (by decide)) (hasPrefix_normalize (by decide))

/-- The normal forms of the attributes. -/
def normalAttribute (a : String) : String :=
  if a = keyIAMAccessControlEnabled then "iamaccesscontrolenabled" else a

/-- The normal forms of the volume attributes. -/
theorem normalize_attribute (h : a ∈ volumeAttributes) :
    normalize U a = normalAttribute a := by
  simp only [volumeAttributes, List.mem_cons, List.not_mem_nil, or_false] at h
  rcases h with rfl | rfl | rfl | rfl
  · exact normalize_of_plainKey (by decide)
  · exact normalize_of_plainKey (by decide)
  · exact normalize_of_plainKey (by decide)
  · have hfilter : ((keyIAMAccessControlEnabled.toList.filter (· ≠ '-')).filter (· ≠ '_')) =
        "iamaccesscontrolenabled".toList := by decide
    apply String.toList_injective
    rw [normalize_toList, hfilter, map_toLower_of_lowerAscii (by decide)]
    rfl

/-- Different volume attributes have different normal forms. -/
theorem normalAttribute_inj {b : String} (ha : a ∈ volumeAttributes) (hb : b ∈ volumeAttributes)
    (h : normalAttribute a = normalAttribute b) : a = b := by
  have hall : (volumeAttributes.all fun a => volumeAttributes.all fun b =>
      normalAttribute a != normalAttribute b || a == b) = true := by decide
  have := List.all_eq_true.mp (List.all_eq_true.mp hall a ha) b hb
  simpa [h] using this

/-- The volume attributes are no keys of Kubernetes. -/
theorem not_kubernetesKey_attribute (h : a ∈ volumeAttributes) :
    KubernetesKey (normalAttribute a) = false := by
  have hall : (volumeAttributes.all fun a => !KubernetesKey (normalAttribute a)) = true := by decide
  simpa using List.all_eq_true.mp hall a h

/-! ## The loop of `normalizeKeys` -/

/-- What the loop has collected after entries that it accepts. -/
theorem foldl_normalizeKey {l : List (Sigma fun _ : String => String)} (acc : Normalized)
    (hok : ∀ e ∈ l, normalize U e.1 ∈ supported ∨ KubernetesKey (normalize U e.1) = true)
    (hnodup : (l.map fun e => normalize U e.1).Nodup)
    (hfresh : ∀ e ∈ l, normalize U e.1 ∉ acc.processed) :
    (l.foldl (normalizeKey U supported) acc).unsupported = acc.unsupported ∧
      (l.foldl (normalizeKey U supported) acc).duplicate = acc.duplicate ∧
      (∀ e ∈ l, (l.foldl (normalizeKey U supported) acc).processed.lookup (normalize U e.1) =
        some e.2) ∧
      ∀ x, (∀ e ∈ l, normalize U e.1 ≠ x) →
        (l.foldl (normalizeKey U supported) acc).processed.lookup x = acc.processed.lookup x := by
  induction l generalizing acc with
  | nil => simp
  | cons e l ih =>
    obtain ⟨hfirst, hrest⟩ := List.forall_mem_cons.mp hok
    obtain ⟨hnot, hnodup⟩ := List.nodup_cons.mp hnodup
    obtain ⟨hnew, hfresh⟩ := List.forall_mem_cons.mp hfresh
    have hstep : normalizeKey U supported acc e =
        ⟨acc.processed.insert (normalize U e.1) e.2, acc.unsupported, acc.duplicate⟩ := by
      simp only [KubernetesKey, Bool.or_eq_true] at hfirst
      simp only [normalizeKey, hnew, if_false, Normalized.mk.injEq, true_and, and_true,
        ite_eq_right_iff]
      rintro ⟨h₁, h₂⟩
      rcases hfirst with h | h | h <;> simp_all
    have hne : ∀ e' ∈ l, normalize U e'.1 ≠ normalize U e.1 := fun e' he' heq =>
      hnot (List.mem_map.mpr ⟨e', he', heq⟩)
    rw [List.foldl_cons, hstep]
    obtain ⟨h₁, h₂, h₃, h₄⟩ := ih ⟨acc.processed.insert (normalize U e.1) e.2,
      acc.unsupported, acc.duplicate⟩ hrest hnodup fun e' he' => by
        simpa [hne e' he'] using hfresh e' he'
    refine ⟨h₁, h₂, fun e' he' => ?_, fun x hx => ?_⟩
    · rcases List.mem_cons.mp he' with rfl | he'
      · rw [h₄ _ hne]
        simp
      · exact h₃ e' he'
    · obtain ⟨hx₁, hx₂⟩ := List.forall_mem_cons.mp hx
      rw [h₄ x hx₂]
      exact AList.lookup_insert_ne hx₁.symm

/-- A context whose keys are all admissible and have different normal forms is normalised: each
value is found under the normal form of its key, and nothing else is there. -/
theorem normalizeKeys_ok (supported : List String) {input : StrMap}
    (hok : ∀ key ∈ input, normalize U key ∈ supported ∨ KubernetesKey (normalize U key) = true)
    (hinj : ∀ key ∈ input, ∀ key' ∈ input, normalize U key = normalize U key' → key = key') :
    ∃ n, normalizeKeys U input supported = .ok n ∧
      (∀ key value, input.lookup key = some value → n.lookup (normalize U key) = some value) ∧
      ∀ x, (∀ key ∈ input, normalize U key ≠ x) → n.lookup x = none := by
  have hmem : ∀ e ∈ input.entries, e.1 ∈ input := fun e he =>
    AList.mem_keys.mpr (List.mem_map_of_mem he)
  have hnodup : (input.entries.map fun e => normalize U e.1).Nodup := by
    have hmap : (input.entries.map fun e => normalize U e.1) =
        (input.entries.map Sigma.fst).map (normalize U) := by simp
    rw [hmap]
    refine List.Nodup.map_on (fun key hkey key' hkey' => ?_) input.nodupKeys
    exact hinj key hkey key' hkey'
  obtain ⟨h₁, h₂, h₃, h₄⟩ := foldl_normalizeKey ⟨∅, [], []⟩ (fun e he => hok e.1 (hmem e he)) hnodup
    fun e _ => AList.notMem_empty _
  refine ⟨(input.entries.foldl (normalizeKey U supported) ⟨∅, [], []⟩).processed, ?_, fun key value h => ?_, fun x hx => ?_⟩
  · simp only [normalizeKeys, h₁, h₂, ne_eq, not_true_eq_false, if_false]
  · exact h₃ ⟨key, value⟩ (AList.mem_lookup_iff.mp h)
  · exact h₄ x fun e he => hx e.1 (hmem e he)

/-- If the loop has collected no errors, it has met none. -/
theorem foldl_normalizeKey_inv {l : List (Sigma fun _ : String => String)} {acc : Normalized}
    (hunsupported : (l.foldl (normalizeKey U supported) acc).unsupported = [])
    (hduplicate : (l.foldl (normalizeKey U supported) acc).duplicate = []) :
    (acc.unsupported = [] ∧ acc.duplicate = []) ∧
      (∀ e ∈ l, normalize U e.1 ∈ supported ∨ KubernetesKey (normalize U e.1) = true) ∧
      (l.map fun e => normalize U e.1).Nodup ∧ ∀ e ∈ l, normalize U e.1 ∉ acc.processed := by
  induction l generalizing acc with
  | nil => exact ⟨⟨hunsupported, hduplicate⟩, by simp, by simp, by simp⟩
  | cons e l ih =>
    obtain ⟨⟨hu, hd⟩, hok, hnodup, hfresh⟩ := ih hunsupported hduplicate
    simp only [normalizeKey] at hu hd hfresh
    have hfirst : acc.unsupported = [] ∧
        (normalize U e.1 ∈ supported ∨ KubernetesKey (normalize U e.1) = true) := by
      split at hu
      · simp at hu
      rename_i hadmissible
      refine ⟨hu, ?_⟩
      by_contra hnot
      obtain ⟨hmem, hkube⟩ := not_or.mp hnot
      exact hadmissible ⟨hmem, by simpa [KubernetesKey] using hkube⟩
    have hnew : acc.duplicate = [] ∧ normalize U e.1 ∉ acc.processed := by
      split at hd
      · simp at hd
      · exact ⟨hd, ‹_›⟩
    simp only [AList.mem_insert, not_or] at hfresh
    refine ⟨⟨hfirst.1, hnew.1⟩, List.forall_mem_cons.mpr ⟨hfirst.2, hok⟩, List.nodup_cons.mpr ⟨?_, hnodup⟩,
      List.forall_mem_cons.mpr ⟨hnew.2, fun e' he' => (hfresh e' he').2⟩⟩
    rintro hmem
    obtain ⟨e', he', heq⟩ := List.mem_map.mp hmem
    exact (hfresh e' he').1 heq

/-- Normalisation succeeds exactly if every key is admissible and no two keys have the same normal
form. -/
theorem normalizeKeys_isOk (supported : List String) (input : StrMap) :
    (∃ n, normalizeKeys U input supported = .ok n) ↔
      (∀ key ∈ input, normalize U key ∈ supported ∨ KubernetesKey (normalize U key) = true) ∧
      ∀ key ∈ input, ∀ key' ∈ input, normalize U key = normalize U key' → key = key' := by
  constructor
  · rintro ⟨n, h⟩
    unfold normalizeKeys at h
    dsimp only at h
    split at h
    · cases h
    split at h
    · cases h
    rename_i hunsupported hduplicate
    obtain ⟨-, hok, hnodup, -⟩ :=
      foldl_normalizeKey_inv (not_not.mp hunsupported) (not_not.mp hduplicate)
    have hentry : ∀ key ∈ input, ∃ e ∈ input.entries, e.1 = key := fun key hkey =>
      List.mem_map.mp (AList.mem_keys.mp hkey)
    refine ⟨fun key hkey => ?_, fun key hkey key' hkey' heq => ?_⟩
    · obtain ⟨e, he, rfl⟩ := hentry key hkey
      exact hok e he
    · obtain ⟨e, he, rfl⟩ := hentry key hkey
      obtain ⟨e', he', rfl⟩ := hentry key' hkey'
      exact congrArg Sigma.fst (List.inj_on_of_nodup_map hnodup he he' heq)
  · rintro ⟨hok, hinj⟩
    obtain ⟨n, hn, -⟩ := normalizeKeys_ok supported hok hinj
    exact ⟨n, hn⟩

/-- What normalisation returns: each value under the normal form of its key. -/
theorem lookup_normalizeKeys {input n : StrMap} (h : normalizeKeys U input supported = .ok n)
    (x value : String) :
    n.lookup x = some value ↔ ∃ key, input.lookup key = some value ∧ normalize U key = x := by
  obtain ⟨hok, hinj⟩ := (normalizeKeys_isOk supported input).mp ⟨n, h⟩
  obtain ⟨n', hn', hfound, hnone⟩ := normalizeKeys_ok supported hok hinj
  obtain rfl : n = n' := Except.ok.inj (h.symm.trans hn')
  constructor
  · intro hx
    by_cases hkey : ∃ key ∈ input, normalize U key = x
    · obtain ⟨key, hmem, rfl⟩ := hkey
      obtain ⟨value', hvalue'⟩ := Option.isSome_iff_exists.mp (AList.lookup_isSome.mpr hmem)
      rw [hfound key value' hvalue'] at hx
      exact ⟨key, hvalue'.trans hx, rfl⟩
    · rw [hnone x fun key hmem heq => hkey ⟨key, hmem, heq⟩] at hx
      cases hx
  · rintro ⟨key, hvalue, rfl⟩
    exact hfound key value hvalue

/-! ## Attributes and foreign keys -/

/-- The context has the given attributes, and otherwise keys that Kubernetes adds, none of which
has the normal form of another key. -/
structure Extends (U : Unicode) (attributes context : StrMap) : Prop where
  own : ∀ key value, attributes.lookup key = some value → context.lookup key = some value
  foreign : ∀ key ∈ context, key ∉ attributes → KubernetesKey key = true ∧
    ∀ key' ∈ context, key' ≠ key → normalize U key' ≠ normalize U key

/-- One key that Kubernetes adds. -/
theorem extends_insert {attributes : StrMap} {key : String} (value : String)
    (hnot : key ∉ attributes) (hkey : KubernetesKey key = true)
    (hnew : ∀ key' ∈ attributes, normalize U key' ≠ normalize U key) :
    Extends U attributes (attributes.insert key value) := by
  refine ⟨fun key' value' h => ?_, fun key' hmem hnot' => ?_⟩
  · have hne : key' ≠ key := by
      rintro rfl
      rw [AList.lookup_eq_none.mpr hnot] at h
      cases h
    rw [AList.lookup_insert_ne hne, h]
  · obtain rfl : key' = key := ((AList.mem_insert _).mp hmem).resolve_right hnot'
    refine ⟨hkey, fun key'' hmem' hne => ?_⟩
    exact hnew key'' (((AList.mem_insert _).mp hmem').resolve_left hne)

/-- The attributes of a volume are found in its normalised context. -/
theorem normalizeVolumeContext_of_extends {attributes context : StrMap}
    (hattr : ∀ key ∈ attributes, key ∈ volumeAttributes) (h : Extends U attributes context) :
    ∃ n, normalizeVolumeContext U context = .ok n ∧
      ∀ a ∈ volumeAttributes, n.get (normalize U a) = attributes.get a := by
  have hcases : ∀ key ∈ context, key ∈ volumeAttributes ∨ KubernetesKey key = true := by
    intro key hkey
    by_cases hmem : key ∈ attributes
    · exact .inl (hattr key hmem)
    · exact .inr (h.foreign key hkey hmem).1
  have hinj : ∀ key ∈ context, ∀ key' ∈ context, normalize U key = normalize U key' →
      key = key' := by
    intro key hkey key' hkey' heq
    by_contra hne
    by_cases hmem : key ∈ attributes
    · by_cases hmem' : key' ∈ attributes
      · rw [normalize_attribute (hattr key hmem), normalize_attribute (hattr key' hmem')] at heq
        exact hne (normalAttribute_inj (hattr key hmem) (hattr key' hmem') heq)
      · exact (h.foreign key' hkey' hmem').2 key hkey hne heq
    · exact (h.foreign key hkey hmem).2 key' hkey' (Ne.symm hne) heq.symm
  obtain ⟨n, hn, hfound, hnone⟩ := normalizeKeys_ok
    (volumeAttributes.map (normalize U)) (fun key hkey => (hcases key hkey).imp
      (fun ha => List.mem_map_of_mem ha) fun hk => kubernetesKey_normalize hk) hinj
  refine ⟨n, by simp [normalizeVolumeContext, hn], fun a ha => ?_⟩
  cases hlookup : attributes.lookup a with
  | some value => simp [StrMap.get, hlookup, hfound a value (h.own a value hlookup)]
  | none =>
    -- No key of the context has the normal form of the attribute.
    have habsent : n.lookup (normalize U a) = none := hnone _ fun key hkey heq => by
      rw [normalize_attribute ha] at heq
      rcases hcases key hkey with hkattr | hkube
      · rw [normalize_attribute hkattr] at heq
        obtain rfl := normalAttribute_inj hkattr ha heq
        have hnot : key ∉ attributes := AList.lookup_eq_none.mp hlookup
        have hkube := kubernetesKey_normalize (U := U) (h.foreign key hkey hnot).1
        rw [normalize_attribute ha, not_kubernetesKey_attribute ha] at hkube
        cases hkube
      · have := kubernetesKey_normalize (U := U) hkube
        rw [heq, not_kubernetesKey_attribute ha] at this
        cases this
    simp [StrMap.get, hlookup, habsent]

end LustreCsi.Interface
