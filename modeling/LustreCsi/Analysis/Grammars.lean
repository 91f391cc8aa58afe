import LustreCsi.Interface.MountPoints
import LustreCsi.Interface.ResourceNames

/-!
# What the parsers of mount points and volume IDs accept

The separators may occur in the parts as well: an address may contain `@tcp:/`, and anything may
follow the colon of a volume ID. `parseMountPoint_grammar` and `parseVolumeID_grammar` say which
texts are accepted, and that the parts are determined by the text.
-/

set_option autoImplicit false

namespace LustreCsi.Analysis.Grammars

open LustreCsi.Computation Model Interface

/-! ## Mount points -/

/-- An address and the name of a file system that make a mount point. -/
structure Endpoint (ip fsname : String) : Prop where
  ip_ne : ip ≠ ""
  ip_line : '\n' ∉ ip.toList
  fs_ne : fsname ≠ ""
  fs_slash : '/' ∉ fsname.toList

/-- **The grammar of mount points.** A mount point is accepted with an address and a name exactly if it is
printed from them, the address is not empty and has no newline, and the name is not empty and has no
slash. Such parts are determined by the text, and the source that `NodeStageVolume` and `mountGlobalIAM`
mount for a mount point is the mount point itself.

SOURCE: pkg/csi_driver/node.go:58, 107-133, 422-450, 647-654 -/
theorem parseMountPoint_grammar (mountPoint : String) :
    (∀ ip fsname, parseMountPoint mountPoint = .ok (ip, fsname) ↔
      mountPoint = lustreSource ip fsname ∧ Endpoint ip fsname) ∧
    (∀ ip fsname ip' fsname', Endpoint ip fsname → Endpoint ip' fsname' →
      mountPoint = lustreSource ip fsname → mountPoint = lustreSource ip' fsname' →
      ip = ip' ∧ fsname = fsname') ∧
    ∀ ip₀ fsname₀ ip fsname, mountPoint ≠ "" →
      lustreEndpoint ip₀ fsname₀ mountPoint = .ok (ip, fsname) →
      lustreSource ip fsname = mountPoint := by
  refine ⟨fun ip fsname => ?_, fun ip fsname ip' fsname' h h' heq heq' => ?_,
    fun ip₀ fsname₀ ip fsname hne hend => ?_⟩
  · rw [parseMountPoint_eq_ok]
    exact and_congr_right fun _ =>
      ⟨fun ⟨hip, hline, hfs, hslash⟩ => ⟨hip, hline, hfs, hslash⟩,
        fun h => ⟨h.ip_ne, h.ip_line, h.fs_ne, h.fs_slash⟩⟩
  · exact lustreSource_inj h.fs_slash h'.fs_slash (heq.symm.trans heq')
  · obtain ⟨-, -, hparse⟩ := lustreEndpoint_eq_ok.mp hend
    rw [if_neg hne] at hparse
    exact (parseMountPoint_eq_ok.mp hparse).1.symm

/-- The last separator is the one that counts. -/
theorem parseMountPoint_nested : parseMountPoint "10.0.0.2@tcp:/a@tcp:/fs" =
    .ok ("10.0.0.2@tcp:/a", "fs") :=
  ((parseMountPoint_grammar _).1 _ _).mpr ⟨by decide, by decide, by decide, by decide, by decide⟩

/-! ## Volume IDs -/

/-- A component of a volume ID: the separators do not occur in it. -/
structure IDPart (x : String) : Prop extends Component x where
  colon : ':' ∉ x.toList

/-- The three components as a volume ID has them. -/
def printID (p l n : String) : String := s!"{p}/{l}/{n}"

/-- The characters of a volume ID. -/
theorem printID_toList (p l n : String) :
    (printID p l n).toList = p.toList ++ '/' :: (l.toList ++ '/' :: n.toList) := by
  have h : printID p l n = p ++ "/" ++ l ++ "/" ++ n := rfl
  simp [h]

/-- What stands in front of the first colon of a volume ID, as a text. -/
theorem takeWhile_colon_iff {id t : String} :
    id.toList.takeWhile (· ≠ ':') = t.toList ↔
      ':' ∉ t.toList ∧ (id = t ∨ ∃ s, id = t ++ ":" ++ s) := by
  rw [takeWhile_ne_eq_iff, String.toList_inj]
  refine and_congr_right fun _ => or_congr_right ⟨?_, ?_⟩
  · rintro ⟨rest, hid⟩
    refine ⟨String.ofList rest, String.toList_injective ?_⟩
    rw [hid]
    simp
  · rintro ⟨s, rfl⟩
    exact ⟨s.toList, by simp⟩

/-- A volume ID is accepted if it is printed from its components, with or without a suffix. -/
theorem parseVolumeID_iff {id p l n : String} :
    parseVolumeID id = .ok (p, l, n) ↔ (IDPart p ∧ IDPart l ∧ IDPart n) ∧
      (id = printID p l n ∨ ∃ s, id = printID p l n ++ ":" ++ s) := by
  rw [parseVolumeID_eq_ok, ← printID_toList, takeWhile_colon_iff, printID_toList]
  simp only [List.mem_append, List.mem_cons, not_or]
  constructor
  · rintro ⟨hp, hl, hn, ⟨hcp, -, hcl, -, hcn⟩, hid⟩
    exact ⟨⟨⟨hp, hcp⟩, ⟨hl, hcl⟩, ⟨hn, hcn⟩⟩, hid⟩
  · rintro ⟨⟨hp, hl, hn⟩, hid⟩
    exact ⟨hp.toComponent, hl.toComponent, hn.toComponent,
      ⟨hp.colon, by decide, hl.colon, by decide, hn.colon⟩, hid⟩

/-- What follows the first colon is not read. -/
theorem takeWhile_append_colon (id s : String) :
    (id ++ ":" ++ s).toList.takeWhile (· ≠ ':') = id.toList.takeWhile (· ≠ ':') := by
  rw [takeWhile_ne_eq_iff]
  obtain ⟨hcolon, hid⟩ := takeWhile_ne_eq_iff.mp (Eq.refl (id.toList.takeWhile (· ≠ ':')))
  refine ⟨hcolon, .inr ?_⟩
  rcases hid with hid | ⟨rest, hid⟩
  · refine ⟨s.toList, ?_⟩
    rw [← hid]
    simp
  refine ⟨rest ++ ':' :: s.toList, ?_⟩
  rw [String.toList_append, String.toList_append]
  nth_rewrite 1 [hid]
  simp

/-- **The grammar of volume IDs.** A volume ID is accepted with three components exactly if they are not
empty and have neither slash nor colon, and it is printed from them, alone or with a colon and any text
behind it. The components are determined by the text. A colon and any text appended to a volume ID,
accepted or not, change only the volume ID that the message of a refusal quotes.

SOURCE: pkg/util/util.go:122-155 -/
theorem parseVolumeID_grammar (id : String) :
    (∀ p l n, parseVolumeID id = .ok (p, l, n) ↔ (IDPart p ∧ IDPart l ∧ IDPart n) ∧
      (id = printID p l n ∨ ∃ s, id = printID p l n ++ ":" ++ s)) ∧
    (∀ p l n p' l' n', IDPart p ∧ IDPart l ∧ IDPart n → IDPart p' ∧ IDPart l' ∧ IDPart n' →
      (id = printID p l n ∨ ∃ s, id = printID p l n ++ ":" ++ s) →
      (id = printID p' l' n' ∨ ∃ s, id = printID p' l' n' ++ ":" ++ s) →
      p = p' ∧ l = l' ∧ n = n') ∧
    ∀ s, parseVolumeID (id ++ ":" ++ s) =
      (parseVolumeID id).mapError fun _ => invalidVolumeID (id ++ ":" ++ s) := by
  refine ⟨fun p l n => parseVolumeID_iff, fun p l n p' l' n' h h' hid hid' => ?_, fun s => ?_⟩
  · have heq := (parseVolumeID_iff.mpr ⟨h, hid⟩).symm.trans (parseVolumeID_iff.mpr ⟨h', hid'⟩)
    simpa using heq
  · unfold parseVolumeID
    rw [takeWhile_append_colon]
    dsimp only
    split
    · split <;> rfl
    · rfl

/-- Separators behind the first colon do not count. -/
theorem parseVolumeID_suffix : parseVolumeID "p/l/n:a/b:c" = .ok ("p", "l", "n") :=
  ((parseVolumeID_grammar _).1 _ _ _).mpr
    ⟨⟨⟨⟨by decide, by decide⟩, by decide⟩, ⟨⟨by decide, by decide⟩, by decide⟩,
      ⟨⟨by decide, by decide⟩, by decide⟩⟩, .inr ⟨"a/b:c", by decide⟩⟩

end LustreCsi.Analysis.Grammars
