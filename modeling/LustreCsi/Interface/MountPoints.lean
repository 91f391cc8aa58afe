import LustreCsi.Computation.Separator
import LustreCsi.Model.Node

/-!
# The source of a Lustre mount

A Lustre file system is mounted from `<ip>@tcp:/<fsname>` (`lustreSource`). `parseMountPoint` and
`extractFSName` give back what the source is made of, as long as the name has no slash and the
address no newline.
-/

set_option autoImplicit false

namespace LustreCsi.Interface

open LustreCsi.Computation Model

/-- The characters of a mount source. -/
theorem lustreSource_toList (ip fsname : String) :
    (lustreSource ip fsname).toList = ip.toList ++ ("@tcp:/".toList ++ fsname.toList) := by
  simp [lustreSource, toString]

/-- A text is cut in one way at the last of the separators `@tcp:/`. -/
theorem cut_tcp {a b a' b' : List Char} (hb : '/' ∉ b) (hb' : '/' ∉ b')
    (h : a ++ ("@tcp:/".toList ++ b) = a' ++ ("@tcp:/".toList ++ b')) : a = a' ∧ b = b' := by
  have hslash : (a ++ "@tcp:".toList) ++ '/' :: b = (a' ++ "@tcp:".toList) ++ '/' :: b' := by
    simpa using h
  have hfree : ∀ {l : List Char}, '/' ∉ l → ∀ c ∈ l, ¬c = '/' := fun hl c hc hcs => hl (hcs ▸ hc)
  obtain ⟨ha, -, hbb⟩ := cut_last (p := (· = '/')) (hfree hb) (hfree hb') rfl rfl hslash
  exact ⟨List.append_cancel_right ha, hbb⟩

/-- A source determines address and name. -/
theorem lustreSource_inj {ip fsname ip' fsname' : String} (hfs : '/' ∉ fsname.toList)
    (hfs' : '/' ∉ fsname'.toList) (h : lustreSource ip fsname = lustreSource ip' fsname') :
    ip = ip' ∧ fsname = fsname' := by
  have hlist := congrArg String.toList h
  rw [lustreSource_toList, lustreSource_toList] at hlist
  obtain ⟨h₁, h₂⟩ := cut_tcp hfs hfs' hlist
  exact ⟨String.toList_injective h₁, String.toList_injective h₂⟩

section Patterns

variable {ip fsname : String}

/-- The characters of an address without newline match the dot of the pattern. -/
theorem anyChar_of_mem (h : '\n' ∉ ip.toList) : ∀ c ∈ ip.toList, anyChar c = true := by
  intro c hc
  have hne : c ≠ '\n' := fun heq => h (heq ▸ hc)
  simpa [anyChar] using hne

/-- The class of the pattern as a statement about a list. -/
theorem notSlash_iff {l : List Char} : (∀ c ∈ l, notSlash c = true) ↔ '/' ∉ l := by
  constructor
  · intro h hmem
    simpa [notSlash] using h _ hmem
  · intro h c hc
    simpa [notSlash] using fun heq : c = '/' => h (heq ▸ hc)

/-- A text that is not empty has a character. -/
theorem one_le_length {x : String} (h : x ≠ "") : 1 ≤ x.toList.length :=
  List.length_pos_iff.mpr (by simpa using h)

/-- The mount point of a volume context is read as it was written.
SOURCE: pkg/csi_driver/node.go:58, 647-654 -/
theorem parseMountPoint_lustreSource (hip : ip ≠ "") (hline : '\n' ∉ ip.toList) (hfs : fsname ≠ "")
    (hslash : '/' ∉ fsname.toList) : parseMountPoint (lustreSource ip fsname) = .ok (ip, fsname) := by
  have hfind : mountPointRegex.find (lustreSource ip fsname) = some [ip, fsname] := by
    have hway : (([ip.toList, fsname.toList], []) : Regex.Way) ∈
        (Regex.cat [.grp (.rep anyChar 1 none), .lit "@tcp:/", .grp (.rep notSlash 1 none), .eot]).run
          true (lustreSource ip fsname).toList := by
      simp only [Regex.cat, Regex.mem_run_seq, Regex.mem_run_lit, Regex.mem_run_grp_rep,
        Regex.mem_run_eot, Regex.mem_run_eps, Prod.mk.injEq]
      exact ⟨_, _, _, ⟨ip.toList, rfl, lustreSource_toList ip fsname, anyChar_of_mem hline,
        one_le_length hip, by simp⟩, ⟨_, _, _, ⟨rfl, rfl⟩, ⟨_, _, _, ⟨fsname.toList, rfl,
        (List.append_nil _).symm, notSlash_iff.mpr hslash, one_le_length hfs, by simp⟩,
        ⟨_, _, _, ⟨rfl, rfl, rfl⟩, ⟨rfl, rfl⟩, rfl⟩, rfl⟩, rfl⟩, rfl⟩
    have hfound := Regex.find_anchored_of_unique hway fun w hw => by
      obtain ⟨caps, rest⟩ := w
      simp only [Regex.cat, Regex.mem_run_seq, Regex.mem_run_lit, Regex.mem_run_grp_rep,
        Regex.mem_run_eot, Regex.mem_run_eps, Prod.mk.injEq] at hw
      obtain ⟨_, m₁, _, ⟨u, rfl, hu, -⟩, ⟨_, m₂, _, ⟨rfl, rfl⟩, ⟨_, m₃, _, ⟨v, rfl, rfl, hv, -⟩,
        ⟨_, m₄, _, ⟨rfl, rfl, rfl⟩, ⟨rfl, rfl⟩, rfl⟩, rfl⟩, rfl⟩, rfl⟩ := hw
      rw [lustreSource_toList, List.append_nil] at hu
      have hvslash : '/' ∉ v := fun hmem => by simpa [notSlash] using hv '/' hmem
      obtain ⟨rfl, rfl⟩ := cut_tcp hslash hvslash hu
      rfl
    simpa [mountPointRegex, Regex.cat] using hfound
  simp [parseMountPoint, hfind]

/-- What `parseMountPoint` accepts: a mount point is printed from its address and its name.
SOURCE: pkg/csi_driver/node.go:58, 647-654 -/
theorem parseMountPoint_eq_ok {mountPoint : String} :
    parseMountPoint mountPoint = .ok (ip, fsname) ↔ mountPoint = lustreSource ip fsname ∧
      ip ≠ "" ∧ '\n' ∉ ip.toList ∧ fsname ≠ "" ∧ '/' ∉ fsname.toList := by
  constructor
  · intro h
    have hfind : mountPointRegex.find mountPoint = some [ip, fsname] := by
      unfold parseMountPoint at h
      split at h
      · rename_i hfind
        cases h
        exact hfind
      · cases h
    obtain ⟨⟨caps, rest⟩, hw, hcaps⟩ := Regex.exists_way_of_find_anchored hfind
    simp only [Regex.cat, Regex.mem_run_seq, Regex.mem_run_lit, Regex.mem_run_grp_rep,
      Regex.mem_run_eot, Regex.mem_run_eps, Prod.mk.injEq] at hw
    obtain ⟨_, m₁, _, ⟨u, rfl, hu, hany, hulo, -⟩, ⟨_, m₂, _, ⟨rfl, rfl⟩, ⟨_, m₃, _,
      ⟨v, rfl, rfl, hv, hvlo, -⟩, ⟨_, m₄, _, ⟨rfl, rfl, rfl⟩, ⟨rfl, rfl⟩, rfl⟩, rfl⟩, rfl⟩, rfl⟩ := hw
    obtain ⟨rfl, rfl⟩ : String.ofList u = ip ∧ String.ofList v = fsname := by simpa using hcaps
    refine ⟨String.toList_injective ?_, ?_, fun hmem => ?_, ?_, fun hmem => ?_⟩
    · rw [hu, lustreSource_toList]
      simp
    · simpa using List.ne_nil_of_length_pos hulo
    · exact absurd (hany _ (String.toList_ofList ▸ hmem)) (by decide)
    · simpa using List.ne_nil_of_length_pos hvlo
    · exact absurd (hv _ (String.toList_ofList ▸ hmem)) (by decide)
  · rintro ⟨rfl, hip, hline, hfs, hslash⟩
    exact parseMountPoint_lustreSource hip hline hfs hslash

/-- The pattern of `extractFSName`. -/
def sourceRegex : Regex :=
  .cat [.rep anyChar 1 none, .lit "@tcp:/", .grp (.rep notSlash 1 none)]

/-- The name is the first group of the match, if there is one. -/
theorem extractFSName_eq (source : String) : extractFSName source =
    match sourceRegex.find source with
    | some (fsname :: _) => fsname
    | _ => "" := rfl

/-- What the pattern of a mount source consumes and captures. -/
theorem mem_run_source {start : Bool} {inp : List Char} {w : Regex.Way}
    (h : w ∈ sourceRegex.run start inp) : ∃ a v, a ≠ [] ∧ '\n' ∉ a ∧ v ≠ [] ∧ '/' ∉ v ∧
      inp = a ++ ("@tcp:/".toList ++ (v ++ w.2)) ∧ w.1 = [v] := by
  simp only [sourceRegex, Regex.cat, Regex.mem_run_seq, Regex.mem_run_lit, Regex.mem_run_rep,
    Regex.mem_run_grp_rep, Regex.mem_run_eps, Prod.mk.injEq] at h
  obtain ⟨_, m₁, _, ⟨rfl, a, rfl, ha, halo, -⟩, ⟨_, m₂, _, ⟨rfl, rfl⟩, ⟨_, m₃, _,
    ⟨v, rfl, rfl, hv, hvlo, -⟩, ⟨rfl, rfl⟩, rfl⟩, rfl⟩, hcaps⟩ := h
  refine ⟨a, v, List.ne_nil_of_length_pos halo, fun hmem => ?_, List.ne_nil_of_length_pos hvlo,
    fun hmem => ?_, rfl, by simpa using hcaps⟩
  · simpa [anyChar] using ha _ hmem
  · simpa [notSlash] using hv _ hmem

/-- The name follows the last separator on the line that a name can follow. -/
theorem head?_run_source (start : Bool) {a b inp : List Char}
    (hinp : inp = a ++ ("@tcp:/".toList ++ b)) (ha : a ≠ []) (hline : '\n' ∉ a)
    (hb : b.takeWhile notSlash ≠ [])
    (hlast : ∀ a' b', inp = a' ++ ("@tcp:/".toList ++ b') → '\n' ∉ a' → b'.length < b.length →
      b'.takeWhile notSlash = []) :
    (sourceRegex.run start inp).head? = some ([b.takeWhile notSlash], b.dropWhile notSlash) := by
  have hany : ∀ c ∈ a, anyChar c = true := fun c hc => by
    simpa [anyChar] using fun heq : c = '\n' => hline (heq ▸ hc)
  refine Regex.head?_run_rep_seq ("@tcp:/".toList ++ b) ((Regex.mem_runRep _ _ _ _ _).mpr
    ⟨a, hinp, hany, List.length_pos_iff.mpr ha, by simp⟩) ?_ fun mid start' hmid hlt => ?_
  · rw [Regex.cat, Regex.run_lit_seq _ _ _ _ (by decide)]
    exact Regex.head?_run_grp_rep (w := ([], b.dropWhile notSlash)) (List.length_pos_iff.mpr hb)
      fun _ => rfl
  · refine List.eq_nil_iff_forall_not_mem.mpr fun w hw => ?_
    simp only [Regex.cat, Regex.mem_run_seq, Regex.mem_run_lit, Regex.mem_run_grp_rep] at hw
    obtain ⟨_, m, _, ⟨rfl, rfl⟩, ⟨_, m', _, ⟨v, rfl, rfl, hv, hvlo, -⟩, -⟩, -⟩ := hw
    obtain ⟨a', heq, ha', -⟩ := (Regex.mem_runRep _ _ _ _ _).mp hmid
    have hnil := hlast a' (v ++ m') heq (fun hmem => by simpa [anyChar] using ha' _ hmem)
      (by simpa using hlt)
    rw [List.takeWhile_append_of_pos hv] at hnil
    exact absurd (List.append_eq_nil_iff.mp hnil).1 (List.ne_nil_of_length_pos hvlo)

/-- The separator in front of the name is the last one. -/
theorem length_le_of_cut {a b a' b' : List Char} (hb : '/' ∉ b)
    (h : a ++ ("@tcp:/".toList ++ b) = a' ++ ("@tcp:/".toList ++ b')) : b.length ≤ b'.length := by
  have hcut : (a ++ "@tcp:".toList) ++ '/' :: b = (a' ++ "@tcp:".toList) ++ '/' :: b' := by
    simpa using h
  rcases List.append_eq_append_iff.mp hcut with ⟨t, -, heq⟩ | ⟨t, -, heq⟩
  · cases t with
    | nil =>
      obtain ⟨-, rfl⟩ := List.cons.inj heq
      exact Nat.le_refl _
    | cons c t =>
      obtain ⟨-, hname⟩ := List.cons.inj heq
      exact absurd (by simp [hname]) hb
  · have := congrArg List.length heq
    simp at this
    omega

/-- The name is found behind the last line of an address. -/
theorem findFrom_source {line name : List Char} (hne : line ≠ []) (hline : '\n' ∉ line)
    (hname : name ≠ []) (hslash : '/' ∉ name) (start : Bool) :
    sourceRegex.findFrom start (line ++ ("@tcp:/".toList ++ name)) = some [name] := by
  have hall : ∀ c ∈ name, notSlash c = true := fun c hc => by
    simpa [notSlash] using fun heq : c = '/' => hslash (heq ▸ hc)
  have htake : name.takeWhile notSlash = name := List.takeWhile_eq_self_iff.mpr hall
  have hhead := head?_run_source start rfl hne hline (htake.symm ▸ hname)
    fun a' b' heq _ hlt => absurd (length_le_of_cut hslash heq) (Nat.not_le.mpr hlt)
  rw [Regex.findFrom_of_head? hhead, htake]

/-- The name is found in the device of a mount.
SOURCE: pkg/csi_driver/node.go:632-645 -/
theorem extractFSName_lustreSource (hip : ip ≠ "") (hline : '\n' ∉ ip.toList) (hfs : fsname ≠ "")
    (hslash : '/' ∉ fsname.toList) : extractFSName (lustreSource ip fsname) = fsname := by
  have hfound := findFrom_source (by simpa using hip) hline (by simpa using hfs) hslash true
  rw [extractFSName_eq, Regex.find, lustreSource_toList, hfound]
  simp

end Patterns

/-! ## Address and name of a volume -/

/-- A volume has the parts of its mount point, or else its own attributes; neither may be empty. -/
theorem lustreEndpoint_eq_ok {ip fsname mountPoint ip' fsname' : String} :
    lustreEndpoint ip fsname mountPoint = .ok (ip', fsname') ↔ ip' ≠ "" ∧ fsname' ≠ "" ∧
      if mountPoint = "" then ip' = ip ∧ fsname' = fsname
      else parseMountPoint mountPoint = .ok (ip', fsname') := by
  have hcheck : ∀ e : String × String,
      (if e.1 = "" then .error ⟨.invalidArgument, "Lustre instance IP is not provided"⟩
        else if e.2 = "" then .error ⟨.invalidArgument, "Lustre filesystem name is not provided"⟩
        else .ok e : Except Status (String × String)) = .ok (ip', fsname') ↔
      ip' ≠ "" ∧ fsname' ≠ "" ∧ e = (ip', fsname') := by
    rintro ⟨a, b⟩
    by_cases ha : a = ""
    · simp only [ha, if_true, reduceCtorEq, Prod.mk.injEq, false_iff]
      rintro ⟨h, -, rfl, -⟩
      exact h rfl
    by_cases hb : b = ""
    · simp only [ha, hb, if_true, if_false, reduceCtorEq, Prod.mk.injEq, false_iff]
      rintro ⟨-, h, -, rfl⟩
      exact h rfl
    simp only [ha, hb, if_false, Except.ok.injEq, Prod.mk.injEq]
    constructor
    · rintro ⟨rfl, rfl⟩
      exact ⟨ha, hb, rfl, rfl⟩
    · rintro ⟨-, -, h⟩
      exact h
  by_cases hempty : mountPoint = ""
  · simp only [lustreEndpoint, if_pos hempty]
    refine (hcheck (ip, fsname)).trans ?_
    simp only [Prod.mk.injEq, eq_comm]
  simp only [lustreEndpoint, if_neg hempty]
  cases hparse : parseMountPoint mountPoint with
  | error err => simp [Except.mapError, bind, Except.bind]
  | ok e =>
    refine (hcheck e).trans ?_
    simp only [Except.ok.injEq]

/-- The requests that `NodePublishVolume` accepts, and what it reads from them. -/
theorem validatePublish_eq_ok {s : NodeServer} {req : NodePublishVolumeRequest} {vc : StrMap}
    {volCap : VolumeCapability} :
    validatePublish s req = .ok (vc, volCap) ↔ req.volumeID ≠ "" ∧ req.stagingTargetPath ≠ "" ∧
      req.targetPath ≠ "" ∧ req.volumeCapability = some volCap ∧
      validateVolumeCapabilities [some volCap] = none ∧
      normalizeVolumeContext s.unicode req.volumeContext = .ok vc := by
  constructor
  · intro h
    unfold validatePublish at h
    split at h
    · cases h
    split at h
    · cases h
    split at h
    · cases h
    split at h
    · cases h
    rename_i hid hstaging htarget _ volCap' hcap
    split at h
    · cases h
    rename_i hvalid
    split at h
    · cases h
    rename_i vc' hvc
    simp only [Except.ok.injEq, Prod.mk.injEq] at h
    obtain ⟨rfl, rfl⟩ := h
    exact ⟨hid, hstaging, htarget, hcap, hvalid, hvc⟩
  · rintro ⟨hid, hstaging, htarget, hcap, hvalid, hvc⟩
    simp [validatePublish, hid, hstaging, htarget, hcap, hvalid, hvc]

/-- What `NodeStageVolume` is to mount, for a request that it does not refuse. -/
theorem validateStage_eq_some {s : NodeServer} {req : NodeStageVolumeRequest} {ip fsname : String}
    {volCap : VolumeCapability} (h : validateStage s req = .ok (some (ip, fsname, volCap))) :
    req.volumeCapability = some volCap ∧
      ∃ vc, normalizeVolumeContext s.unicode req.volumeContext = .ok vc ∧
        lustreEndpoint (vc.get keyInstanceIP) (vc.get keyFilesystem)
          (vc.get (normalize s.unicode keyMountPoint)) = .ok (ip, fsname) := by
  unfold validateStage at h
  split at h
  · simp at h
  split at h
  · simp at h
  rename_i vc hvc
  split at h
  · simp at h
  rename_i ip' fsname' hend
  split at h
  · simp at h
  split at h
  · simp at h
  split at h
  · simp at h
  rename_i volCap' hcap
  split at h
  · simp at h
  simp only [Except.ok.injEq, Option.some.injEq, Prod.mk.injEq] at h
  obtain ⟨rfl, rfl, rfl⟩ := h
  exact ⟨hcap, vc, hvc, hend⟩

end LustreCsi.Interface
