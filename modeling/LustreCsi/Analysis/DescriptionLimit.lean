import LustreCsi.Interface.ControllerSample

/-!
# The description of a new instance

`prepareNewInstance` cuts a description after byte 2048, wherever the characters end, whereas the
documented limit is one of characters. `description_kept_iff` says when the description is kept as
it should be.
-/

set_option autoImplicit false

namespace LustreCsi.Analysis.DescriptionLimit

open LustreCsi.Computation Model Interface

/-- The bytes are the encoding of some text. -/
def ValidUTF8 (b : List UInt8) : Prop := b.toByteArray.IsValidUTF8

instance (b : List UInt8) : Decidable (ValidUTF8 b) :=
  inferInstanceAs (Decidable b.toByteArray.IsValidUTF8)

/-- What should become of the description `v`: a beginning of it that is a text of at most 2048 characters, and
all of it if it has no more. -/
structure KeepsText (v : String) (b : List UInt8) : Prop where
  beginning : b <+: bytes v
  valid : ValidUTF8 b
  short : ∀ t : String, bytes t = b → t.length ≤ 2048
  whole : v.length ≤ 2048 → b = bytes v

/-! ## Bytes and characters -/

/-- The bytes of a text are those of its encoding. -/
theorem toByteArray_bytes (v : String) : (bytes v).toByteArray = v.toByteArray := by
  have hv : (String.ofList v.toList).toByteArray = v.toList.utf8Encode := String.toByteArray_ofList
  rw [String.ofList_toList] at hv
  exact hv.symm

/-- Different texts have different bytes. -/
theorem bytes_injective : Function.Injective bytes := by
  intro v w h
  rw [← String.toByteArray_inj, ← toByteArray_bytes, h, toByteArray_bytes]

/-- The number of bytes is that of the encoding. -/
theorem length_bytes (v : String) : (bytes v).length = v.utf8ByteSize := by
  rw [← List.size_toByteArray, toByteArray_bytes, String.size_toByteArray]

/-- The bytes of a text are valid. -/
theorem validUTF8_bytes (v : String) : ValidUTF8 (bytes v) := by
  rw [ValidUTF8, toByteArray_bytes]
  exact v.isValidUTF8

/-- Every character has at least one byte. -/
theorem length_le_length_bytes (v : String) : v.length ≤ (bytes v).length := by
  have hchars (cs : List Char) : cs.length ≤ (cs.flatMap String.utf8EncodeChar).length := by
    induction cs with
    | nil => exact le_rfl
    | cons c cs ih =>
      have hc := c.utf8Size_pos
      rw [List.flatMap_cons, List.length_append, String.length_utf8EncodeChar, List.length_cons]
      omega
  rw [← String.length_toList]
  exact hchars v.toList

/-- The first bytes of a text are valid when the last of them ends a character. -/
theorem validUTF8_take_iff {v : String} {n : ℕ} (hn : n ≤ v.utf8ByteSize) :
    ValidUTF8 ((bytes v).take n) ↔ ∃ t rest, v = t ++ rest ∧ t.utf8ByteSize = n := by
  have htake : ((bytes v).take n).toByteArray = v.toByteArray.extract 0 n := by
    rw [← toByteArray_bytes]
    apply ByteArray.ext
    simp
  have hpos : String.Pos.Raw.IsValid v ⟨n⟩ ↔ ValidUTF8 ((bytes v).take n) := by
    rw [String.Pos.Raw.isValid_iff_isValidUTF8_extract_zero, ValidUTF8, htake]
    simp [String.Pos.Raw.le_iff, hn]
  rw [← hpos, String.Pos.Raw.isValid_iff_exists_append]
  simp [String.Pos.Raw.ext_iff, eq_comm]

/-! ## The description -/

/-- The first 2048 bytes. -/
theorem descriptionOf_eq {params : StrMap} {v : String} (hv : params.lookup keyDescription = some v) :
    descriptionOf params = (bytes v).take 2048 := by
  simp only [descriptionOf, hv]
  split
  · rfl
  · exact (List.take_of_length_le (by omega)).symm

/-- The first 2048 bytes are what the description should be. -/
theorem keepsText_take_iff (v : String) :
    KeepsText v ((bytes v).take 2048) ↔ v.utf8ByteSize ≤ 2048 ∨
      (2048 < v.length ∧ ∃ t rest, v = t ++ rest ∧ t.utf8ByteSize = 2048) := by
  rw [← length_bytes]
  constructor
  · intro h
    by_cases hsize : (bytes v).length ≤ 2048
    · exact .inl hsize
    refine .inr ⟨?_, (validUTF8_take_iff (by rw [← length_bytes]; omega)).mp h.valid⟩
    -- A description of at most 2048 characters would be kept as a whole.
    by_contra hshort
    have hlength := congrArg List.length (h.whole (by omega))
    rw [List.length_take] at hlength
    omega
  · rintro (hsize | ⟨hlong, hends⟩)
    · rw [List.take_of_length_le hsize]
      refine ⟨List.prefix_rfl, validUTF8_bytes v, fun t ht => ?_, fun _ => rfl⟩
      rw [bytes_injective ht]
      exact (length_le_length_bytes v).trans hsize
    · have hsize : 2048 ≤ v.utf8ByteSize := by
        have hle := length_le_length_bytes v
        rw [length_bytes] at hle
        omega
      refine ⟨List.take_prefix _ _, (validUTF8_take_iff hsize).mpr hends, fun t ht => ?_, fun h => ?_⟩
      · have hle := length_le_length_bytes t
        rw [ht] at hle
        exact hle.trans (List.length_take_le _ _)
      · omega

/-- **Truncated descriptions.** The description on the new instance is what it should be exactly when it has at
most 2048 bytes, or has more than 2048 characters of which one ends at byte 2048.
SOURCE: pkg/csi_driver/controller.go:343-392 -/
theorem description_kept_iff (s : ControllerServer) (name : String) (capBytes : Int) (params : StrMap)
    (top : Option TopologyRequirement) {i : ServiceInstance} {v : String}
    (hi : prepareNewInstance s name capBytes params top = .ok i)
    (hv : params.lookup keyDescription = some v) :
    KeepsText v i.description ↔ v.utf8ByteSize ≤ 2048 ∨
      (2048 < v.length ∧ ∃ t rest, v = t ++ rest ∧ t.utf8ByteSize = 2048) := by
  obtain ⟨location, throughput, -, -, rfl⟩ := prepareNewInstance_eq_ok hi
  rw [descriptionOf_eq hv]
  exact keepsText_take_iff v

/-! ## Two descriptions -/

section Sample

open Interface.ControllerSample

/-- The parameters of a storage class with a description. -/
def described (v : String) : StrMap :=
  ((∅ : StrMap).insert keyPerUnitStorageThroughput "1000").insert keyDescription v

/-- The parameters have the description. -/
theorem lookup_described (v : String) : (described v).lookup keyDescription = some v := by
  simp [described]

/-- The instance gets the first bytes of the description. -/
theorem prepareNewInstance_described (v : String) :
    ∃ i, prepareNewInstance server "vol" minVolumeSizeBytes (described v) none = .ok i ∧
      i.description = (bytes v).take 2048 := by
  have hne : keyPerUnitStorageThroughput ≠ keyDescription := by decide
  have hlookup : (described v).lookup keyPerUnitStorageThroughput = some "1000" := by
    rw [described, AList.lookup_insert_ne hne, AList.lookup_insert]
  have hthroughput : throughputOf (described v) = .ok 1000 := by simp [throughputOf, hlookup]
  simp only [prepareNewInstance, pickZone, hthroughput]
  exact ⟨_, rfl, descriptionOf_eq (lookup_described v)⟩

/-- A short description is kept. -/
theorem description_kept_short :
    ∃ i, prepareNewInstance server "vol" minVolumeSizeBytes (described "scratch") none = .ok i ∧
      KeepsText "scratch" i.description := by
  obtain ⟨i, hi, -⟩ := prepareNewInstance_described "scratch"
  exact ⟨i, hi, (description_kept_iff server "vol" minVolumeSizeBytes (described "scratch") none hi
    (lookup_described _)).mpr (.inl (by decide))⟩

/-- Plain characters, followed by one of two bytes. -/
def accented (n : ℕ) : String := String.ofList (List.replicate n 'a' ++ ['é'])

/-- The text has one letter more than the plain ones. -/
theorem length_accented (n : ℕ) : (accented n).length = n + 1 := by
  rw [← String.length_toList, accented, String.toList_ofList]
  simp

/-- No character ends at the first byte of the last one. -/
theorem not_ends_accented (n : ℕ) : ¬∃ t rest, accented n = t ++ rest ∧ t.utf8ByteSize = n + 1 := by
  rintro ⟨t, rest, heq, hsize⟩
  have hplain : ((List.replicate n 'a').flatMap String.utf8EncodeChar).length = n := by
    have ha : 'a'.utf8Size = 1 := by decide
    simp [List.length_flatMap, String.length_utf8EncodeChar, ha]
  rw [← length_bytes, bytes] at hsize
  have hsplit : List.replicate n 'a' ++ ['é'] = t.toList ++ rest.toList := by
    rw [← String.toList_append, ← heq, accented, String.toList_ofList]
  rcases List.append_eq_append_iff.mp hsplit with ⟨cs, ht, hcs⟩ | ⟨cs, ha, -⟩
  · -- All plain characters are before the cut, and the last one is before it or not.
    rw [ht, List.flatMap_append, List.length_append, hplain] at hsize
    cases cs with
    | nil => simp at hsize
    | cons c cs =>
      obtain ⟨rfl, hrest⟩ := List.cons.inj hcs
      obtain rfl : cs = [] := (List.append_eq_nil_iff.mp hrest.symm).1
      have hlast : (['é'].flatMap String.utf8EncodeChar).length = 2 := by decide
      omega
  · have hle := congrArg (fun cs => (List.flatMap String.utf8EncodeChar cs).length) ha
    simp only [hplain, List.flatMap_append, List.length_append] at hle
    omega

/-- A cut in the last letter leaves half of it. -/
theorem not_validUTF8_accented (n : ℕ) : ¬ValidUTF8 ((bytes (accented n)).take (n + 1)) := by
  have hle := length_le_length_bytes (accented n)
  rw [length_accented, length_bytes] at hle
  rw [validUTF8_take_iff hle]
  exact not_ends_accented n

/-- A description of 2048 characters is cut within the last one. -/
theorem description_cut_accented :
    ∃ i, prepareNewInstance server "vol" minVolumeSizeBytes (described (accented 2047)) none = .ok i ∧
      (accented 2047).length = 2048 ∧ ¬ValidUTF8 i.description ∧ i.description ≠ bytes (accented 2047) := by
  have hlength := length_accented 2047
  obtain ⟨i, hi, hdescription⟩ := prepareNewInstance_described (accented 2047)
  have hvalid : ¬ValidUTF8 i.description := hdescription ▸ not_validUTF8_accented 2047
  refine ⟨i, hi, hlength, hvalid, fun heq => hvalid ?_⟩
  rw [heq]
  exact validUTF8_bytes _

end Sample

end LustreCsi.Analysis.DescriptionLimit
