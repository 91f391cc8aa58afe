import LustreCsi.Interface.Paths
import LustreCsi.Interface.Sample
import Mathlib

/-!
# Which IAM volumes share a key

A key is the digest of `volumeID + namespace + "/" + serviceAccount`, which is not delimited between
volume ID and namespace. With an injective digest, moving characters from the one to the other is
the only way two uses of IAM volumes come to share a key.
-/

set_option autoImplicit false

namespace LustreCsi.Analysis.KeySharing

open LustreCsi.Computation Model Interface Interface.Sample

/-- The use of an IAM volume by a principal, as `publishIAMVolume` accepts it: nothing is
empty, and namespace and service account are Kubernetes names. -/
@[ext]
structure IAMUse where
  volumeID : String
  namespace_ : String
  saName : String
  volumeID_ne : volumeID ≠ ""
  namespace_ne : namespace_ ≠ ""
  saName_ne : saName ≠ ""
  namespace_slash : '/' ∉ namespace_.toList
  saName_slash : '/' ∉ saName.toList

/-- The key that `publishIAMVolume` derives. -/
def IAMUse.key (s : NodeServer) (u : IAMUse) : Key := iamKey s u.volumeID u.namespace_ u.saName

/-- The paths in the directory of a key: mount point, token file, reference set. -/
def pathsOf (k : Key) : Set String := { x | ∃ p : Path, p.key? = some k ∧ p.render = x }

/-- Two uses with the same key are the same, and different ones have no path below the root
in common. -/
def Separate (s : NodeServer) (u v : IAMUse) : Prop :=
  (u.key s = v.key s → u = v) ∧ (u ≠ v → Disjoint (pathsOf (u.key s)) (pathsOf (v.key s)))

/-- The volume ID of `v` is that of `u` with a further part, by which the namespace of `u`
begins and which is missing in the namespace of `v`. -/
def IAMUse.Shifts (u v : IAMUse) : Prop :=
  ∃ part : String, part ≠ "" ∧ v.volumeID = u.volumeID ++ part ∧
    u.namespace_ = part ++ v.namespace_ ∧ u.saName = v.saName

/-- The hashed text, cut at its last slash.
SOURCE: pkg/csi_driver/node.go:348-349 -/
theorem hashed_toList (v ns sa : String) :
    (v ++ principalOf ns sa).toList = (v.toList ++ ns.toList) ++ '/' :: sa.toList := by
  show (v ++ (ns ++ "/" ++ sa)).toList = _
  simp

/-- Two hashed texts are equal only when the uses are the same or a part of the
volume ID has moved into the namespace.
SOURCE: pkg/csi_driver/node.go:348-349 -/
theorem eq_or_shifts_of_hashed_eq {u v : IAMUse}
    (h : u.volumeID ++ principalOf u.namespace_ u.saName =
      v.volumeID ++ principalOf v.namespace_ v.saName) : u = v ∨ u.Shifts v ∨ v.Shifts u := by
  have hlist := congrArg String.toList h
  rw [hashed_toList, hashed_toList] at hlist
  obtain ⟨hfront, -, hsa⟩ := cut_last (p := (· = '/'))
    (fun y hy hs => u.saName_slash (hs ▸ hy)) (fun y hy hs => v.saName_slash (hs ▸ hy)) rfl rfl
    hlist
  have hsa : u.saName = v.saName := String.toList_injective hsa
  rcases shift_of_append_eq hfront with ⟨hv, hns⟩ | ⟨t, ht, hv, hns⟩ | ⟨t, ht, hv, hns⟩
  · exact .inl (IAMUse.ext (String.toList_injective hv) (String.toList_injective hns) hsa)
  · refine .inr (.inl ⟨String.ofList t, by simpa using ht, ?_, ?_, hsa⟩)
    · exact String.toList_injective (by simpa using hv)
    · exact String.toList_injective (by simpa using hns)
  · refine .inr (.inr ⟨String.ofList t, by simpa using ht, ?_, ?_, hsa.symm⟩)
    · exact String.toList_injective (by simpa using hv)
    · exact String.toList_injective (by simpa using hns)

/-- A shift does not change the key. -/
theorem key_eq_of_shifts (s : NodeServer) {u v : IAMUse} (h : u.Shifts v) : u.key s = v.key s := by
  obtain ⟨part, -, hv, hns, hsa⟩ := h
  have htext : u.volumeID ++ principalOf u.namespace_ u.saName =
      v.volumeID ++ principalOf v.namespace_ v.saName := by
    apply String.toList_injective
    rw [hashed_toList, hashed_toList, hv, hns, hsa]
    simp
  simp only [IAMUse.key, iamKey, htext]

/-- A shift relates different uses. -/
theorem ne_of_shifts {u v : IAMUse} (h : u.Shifts v) : u ≠ v := by
  rintro rfl
  obtain ⟨part, hne, hv, -, -⟩ := h
  have hlist := congrArg String.toList hv
  simp only [String.toList_append, List.self_eq_append_right] at hlist
  exact hne (by simpa using hlist)

/-- Paths of different keys are different strings. -/
theorem disjoint_pathsOf {k k' : Key} (h : k ≠ k') : Disjoint (pathsOf k) (pathsOf k') := by
  rw [Set.disjoint_left]
  rintro x ⟨p, hp, rfl⟩ ⟨q, hq, hpq⟩
  exact h (Path.key_eq_of_render_eq hp hq hpq.symm)

/-- With an injective digest, two uses of IAM volumes are kept apart exactly when neither is
obtained from the other by moving the beginning of the namespace to the end of the volume
ID.
SOURCE: pkg/csi_driver/node.go:332-363, 771-795 -/
theorem separate_iff_not_shifts (s : NodeServer) (hinj : Function.Injective s.computeHash)
    (u v : IAMUse) : Separate s u v ↔ ¬(u.Shifts v ∨ v.Shifts u) := by
  constructor
  · rintro ⟨hkey, -⟩ (h | h)
    · exact ne_of_shifts h (hkey (key_eq_of_shifts s h))
    · exact ne_of_shifts h (hkey (key_eq_of_shifts s h).symm).symm
  · intro hno
    have hkey : u.key s = v.key s → u = v := fun h =>
      (eq_or_shifts_of_hashed_eq (hinj h)).resolve_right hno
    exact ⟨hkey, fun hne => disjoint_pathsOf fun h => hne (hkey h)⟩

/-! ## A pair of uses that shares a key -/

/-- A use of the volume `ab` from namespace `c`. -/
def useABC : IAMUse :=
  ⟨"ab", "c", "d", by decide, by decide, by decide, by decide, by decide⟩

/-- A use of the volume `a` from namespace `bc`. -/
def useBC : IAMUse :=
  ⟨"a", "bc", "d", by decide, by decide, by decide, by decide, by decide⟩

/-- A use of the volume `ab` from namespace `e`. -/
def useABE : IAMUse :=
  ⟨"ab", "e", "d", by decide, by decide, by decide, by decide, by decide⟩

/-- Another namespace keeps the volume apart; moving `b` from the volume ID to the namespace
does not. -/
theorem separate_useABC :
    Separate sampleServer useABC useABE ∧ ¬Separate sampleServer useABC useBC := by
  refine ⟨(separate_iff_not_shifts sampleServer sampleHash_injective useABC useABE).mpr ?_,
    fun h => (separate_iff_not_shifts sampleServer sampleHash_injective useABC useBC).mp h ?_⟩
  · rintro (⟨part, hne, hv, -, -⟩ | ⟨part, hne, hv, -, -⟩) <;>
    · have hlist := congrArg String.toList hv
      simp [useABC, useABE] at hlist
      exact hne hlist
  · exact .inr ⟨"b", by decide, by decide, by decide, by decide⟩

/-- The volume `ab` used from namespace `c` and the volume `a` used from namespace `bc`, with
one service account name, share the key and with it mount, token and references.
SOURCE: pkg/csi_driver/node.go:348-350 -/
theorem not_separate : ¬∀ s : NodeServer, Function.Injective s.computeHash →
    ∀ u v : IAMUse, Separate s u v := by
  intro h
  have hkey : useABC.key sampleServer = useBC.key sampleServer := by
    simp only [IAMUse.key, iamKey, sampleServer]
    exact congrArg sampleHash (by decide)
  have heq := (h sampleServer sampleHash_injective useABC useBC).1 hkey
  exact absurd (congrArg IAMUse.volumeID heq) (by decide)

end LustreCsi.Analysis.KeySharing
