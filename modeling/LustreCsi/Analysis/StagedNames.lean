import LustreCsi.Computation.CheckThenAct
import LustreCsi.Interface.MountPoints
import LustreCsi.Interface.NodeCalls
import LustreCsi.Interface.Sample

/-!
# One staged mount for each file-system name

`NodeStageVolume` refuses a volume whose file-system name is in the mount table, but between the
scan and the mount it holds no other lock than that of the staging path. `one_staging_path`: each
name is mounted on one staging path at most in every run in which no handler mounts while another
one for the name is between scan and mount (`Alone`). `not_alwaysOne` is a run in which two handlers
have scanned before both mount.
-/

set_option autoImplicit false

namespace LustreCsi.Analysis.StagedNames

open LustreCsi.Computation Model Interface

variable {s : NodeState} {fsname ip : String} {s' : NodeState} {volCap : VolumeCapability}

/-! ## Lustre mounts -/

/-- A Lustre mount of a file system with the given name. -/
structure MountOf (fsname : String) (m : MountPoint) : Prop where
  lustre : m.fstype = "lustre"
  slash : '/' ∉ fsname.toList
  device : ∃ ip, m.device = lustreSource ip fsname

/-- File systems with the same name are mounted on one path only. -/
def OneStagingPath (s : NodeState) : Prop :=
  ∀ fsname m m', m ∈ s.mounts → m' ∈ s.mounts → MountOf fsname m → MountOf fsname m' →
    m.path = m'.path

/-- The device of a mount is such that the scan of the mount table reads the name from it. -/
def Legible (device : String) : Prop :=
  ∃ ip fsname, device = lustreSource ip fsname ∧ ip ≠ "" ∧ '\n' ∉ ip.toList ∧ fsname ≠ "" ∧
    '/' ∉ fsname.toList

/-- All Lustre mounts are legible. -/
def AllLegible (s : NodeState) : Prop := ∀ m ∈ s.mounts, m.fstype = "lustre" → Legible m.device

/-- No Lustre mount is new. -/
def NoneNew (s s' : NodeState) : Prop := ∀ m ∈ s'.mounts, m.fstype = "lustre" → m ∈ s.mounts

/-- No file system of the name is mounted. -/
def NoneNamed (fsname : String) (s : NodeState) : Prop := ∀ m ∈ s.mounts, ¬MountOf fsname m

/-- A legible device has the name that the scan reads from it. -/
theorem extractFSName_of_mountOf {m : MountPoint} (h : MountOf fsname m)
    (hlegible : Legible m.device) : extractFSName m.device = fsname := by
  obtain ⟨ip, hip⟩ := h.device
  obtain ⟨ip', fsname', hdevice, hne, hline, hne', hslash⟩ := hlegible
  obtain ⟨rfl, rfl⟩ := lustreSource_inj h.slash hslash (hip.symm.trans hdevice)
  rw [hip, extractFSName_lustreSource hne hline hne' hslash]

/-- A scan that does not find the name has looked at a table without it. -/
theorem noneNamed_of_scan (hlegible : AllLegible s)
    (h : (s.mounts.reverse.any fun m => extractFSName m.device = fsname) = false) :
    NoneNamed fsname s := by
  intro m hm hof
  have hname := extractFSName_of_mountOf hof (hlegible m hm hof.lustre)
  have hnone := List.any_eq_false.mp h m (List.mem_reverse.mpr hm)
  simp [hname] at hnone

/-! ## What the operations do to the mount table -/

/-- Scanning the mount table, mounting, and giving back the lock of the staging path. -/
def mounting : Window nodeSig where
  opens o := o = .list
  acts o := ∃ source target fstype options,
    o = .mountSensitiveWithoutSystemd source target fstype options
  ends o := ∃ x, o = .release x

instance : DecidablePred mounting.opens := fun o => inferInstanceAs (Decidable (o = Op.list))

instance : DecidablePred mounting.acts := fun o =>
  decidable_of_iff
    ((match o with | Op.mountSensitiveWithoutSystemd _ _ _ _ => true | _ => false) = true)
    (by cases o <;> simp [mounting])

instance : DecidablePred mounting.ends := fun o =>
  decidable_of_iff ((match o with | Op.release _ => true | _ => false) = true)
    (by cases o <;> simp [mounting])

/-- Only mounting adds to the mount table. -/
theorem mounts_subset {o : Op} {r : o.Res} (h : s.step o r s') (hno : ¬mounting.acts o) :
    s'.mounts ⊆ s.mounts := by
  have hout := outcome_of_step h
  have hdetach : ∀ p, (s.detach p).mounts ⊆ s.mounts := fun p => List.eraseP_subset
  cases o with
  | unmount p | umount flags p =>
    rcases hout with rfl | ⟨-, rfl⟩
    · exact hdetach p
    · exact List.Subset.refl _
  | mountSensitiveWithoutSystemd source target fstype options =>
    exact absurd ⟨source, target, fstype, options, rfl⟩ hno
  | _ =>
    intro m hm
    have hat : m ∈ s'.mountsAt m.path := by simpa [NodeState.mountsAt] using hm
    rw [hout.mountsAt_eq (by simp [opMount])] at hat
    exact List.mem_of_mem_filter hat

/-- The answer of a scan. -/
theorem list_eq {l : List MountPoint} (h : s.step .list (.ok l) s') :
    l = s.mounts.reverse ∧ s' = s := by
  obtain ⟨c, hc⟩ := h
  cases c <;> simp only [NodeState.exec, reduceCtorEq, Option.some.injEq, Prod.mk.injEq,
    Except.ok.injEq, false_and] at hc
  exact ⟨hc.1.symm, hc.2.symm⟩

/-! ## The contract of the handlers -/

/-- The invariant of the mount table, and what it means to leave a name alone. -/
def staged : Checked NodeState String where
  inv s := OneStagingPath s ∧ AllLegible s
  mono _ _ := True
  calm fsname s s' := ∀ m ∈ s'.mounts, MountOf fsname m → m ∈ s.mounts
  mono_refl _ := trivial
  mono_trans _ _ _ _ _ := trivial
  calm_refl _ _ _ hm _ := hm
  calm_trans _ _ _ _ h h' m hm hof := h m (h' m hm hof) hof

/-- What adds no Lustre mount leaves all names alone. -/
theorem inert_of_noneNew (h : NoneNew s s') : staged.Inert s s' where
  inv hi :=
    ⟨fun fsname m m' hm hm' hof hof' =>
      hi.1 fsname m m' (h m hm hof.lustre) (h m' hm' hof'.lustre) hof hof',
      fun m hm hl => hi.2 m (h m hm hl) hl⟩
  mono := trivial
  calm _ m hm hof := h m hm hof.lustre

/-- The operations other than mounting. -/
theorem inert_of_step {o : Op} {r : o.Res} (hno : ¬mounting.acts o) (h : s.step o r s') :
    staged.Inert s s' :=
  inert_of_noneNew fun _ hm _ => mounts_subset h hno hm

/-- That no mount has a name lasts until a mount of the name. -/
theorem noneNamed_lasting (fsname : String) : staged.Lasting fsname (NoneNamed fsname) :=
  fun _ _ _ hcalm hnone m hm hof => hnone m (hcalm m hm hof) hof

/-- A mount after a scan that has not found the name. -/
theorem mount_keeps {target : Path} {options : List String} (hip : ip ≠ "")
    (hline : '\n' ∉ ip.toList) (hfs : fsname ≠ "") (hslash : '/' ∉ fsname.toList)
    (hbind : "bind" ∉ options) {r : Option OsError}
    (h : s.step (.mountSensitiveWithoutSystemd (lustreSource ip fsname) target "lustre" options) r s')
    (hnone : NoneNamed fsname s) (hinv : staged.inv s) :
    staged.inv s' ∧ staged.mono s s' ∧ ∀ fsname', fsname' ≠ fsname → staged.calm fsname' s s' := by
  have hout : (_ ∧ s' = s.attach (lustreSource ip fsname) target "lustre" options) ∨
    (_ ∧ s' = s) := outcome_of_step h
  rcases hout with ⟨-, rfl⟩ | ⟨-, rfl⟩
  · have hmem : ∀ m ∈ (s.attach (lustreSource ip fsname) target "lustre" options).mounts,
        m = ⟨lustreSource ip fsname, target, "lustre", options⟩ ∨ m ∈ s.mounts := by
      intro m hm
      simpa [NodeState.attach, NodeState.deviceOf, hbind] using hm
    -- The new mount has the name, and none of the others has it.
    have hname : ∀ fsname' m, m = (⟨lustreSource ip fsname, target, "lustre", options⟩ : MountPoint) →
        MountOf fsname' m → fsname' = fsname := by
      rintro fsname' m rfl hof
      obtain ⟨ip', hdevice⟩ := hof.device
      exact (lustreSource_inj hslash hof.slash hdevice).2.symm
    refine ⟨⟨fun fsname' m m' hm hm' hof hof' => ?_, fun m hm hl => ?_⟩, trivial,
      fun fsname' hne m hm hof => ?_⟩
    · rcases hmem m hm with hnew | hold
      · obtain rfl := hname fsname' m hnew hof
        rcases hmem m' hm' with hnew' | hold'
        · rw [hnew, hnew']
        · exact absurd hof' (hnone m' hold')
      · rcases hmem m' hm' with hnew' | hold'
        · obtain rfl := hname fsname' m' hnew' hof'
          exact absurd hof (hnone m hold)
        · exact hinv.1 fsname' m m' hold hold' hof hof'
    · rcases hmem m hm with rfl | hold
      · exact ⟨ip, fsname, rfl, hip, hline, hfs, hslash⟩
      · exact hinv.2 m hold hl
    · rcases hmem m hm with hnew | hold
      · exact absurd (hname fsname' m hnew hof) hne
      · exact hold
  · exact ⟨hinv, trivial, fun _ _ m hm _ => hm⟩

/-! ## Staging -/

/-- What a call is to mount: address, file system and capability. -/
def stagedBy (s : NodeServer) : NodeCall → Option (String × String × VolumeCapability)
  | .stage req => (validateStage s req).toOption.join
  | _ => none

/-- The file system that a call is to mount. -/
def fsnameOf (s : NodeServer) (call : NodeCall) : Option String := (stagedBy s call).map (·.2.1)

/-- If a handler has just mounted, no other handler for the same file-system name was between its
scan of the mount table and its own mount. -/
def Alone (s : NodeServer) (calls : ℕ → NodeCall) (w : World nodeSig NodeState) : Prop :=
  mounting.Alone (fun t => fsnameOf s (calls t)) w

/-- What a call mounts is legible in the mount table: no newline in the address, no bind mount. -/
def Plain (s : NodeServer) (call : NodeCall) : Prop :=
  ∀ ip fsname volCap, stagedBy s call = some (ip, fsname, volCap) →
    '\n' ∉ ip.toList ∧ "bind" ∉ volCap.mountFlags

/-- The file-system name of a call has no slash. -/
def SlashFree (s : NodeServer) (call : NodeCall) : Prop :=
  ∀ fsname, fsnameOf s call = some fsname → '/' ∉ fsname.toList

/-- A call of `NodeStageVolume` or `NodeUnstageVolume`. -/
def Staging : NodeCall → Prop
  | .stage _ => True
  | .unstage _ => True
  | _ => False

/-- The mount options are the mount flags. -/
theorem mem_addMountFlags {o : String} {options : List String}
    (h : o ∈ addMountFlags options volCap) : o ∈ options ∨ o ∈ volCap.mountFlags := by
  unfold addMountFlags at h
  generalize volCap.mountFlags = flags at h ⊢
  induction flags generalizing options with
  | nil => exact .inl h
  | cons f fs ih =>
    rcases ih h with h | h
    · dsimp only at h
      split at h
      · exact .inl h
      rcases List.mem_append.mp h with h | h
      · exact .inl h
      · exact .inr (by simp [List.mem_singleton.mp h])
    · exact .inr (List.mem_cons_of_mem _ h)

section Contract

variable (s : NodeServer) (calls : ℕ → NodeCall)

/-- The contract of the handlers. -/
abbrev contract : Contract nodeSig NodeState :=
  checkContract mounting (fun t => fsnameOf s (calls t)) staged

variable {s calls} {t : ℕ}

/-- The operations that neither scan nor mount nor end a window. -/
def Quiet (o : Op) : Prop := ¬mounting.acts o ∧ ¬mounting.ends o

/-- Looking for a mount is quiet. -/
theorem quiet_isMounted (p : Path) : (isMounted p).All Quiet := by
  apply all_isMounted <;> simp [Quiet, mounting]

/-- An unmount is quiet. -/
theorem quiet_unmountPath (p : Path) : (unmountPath s p).All Quiet := by
  apply all_unmountPath <;> simp [Quiet, mounting]

/-- Setting up the NICs is quiet. -/
theorem quiet_setUpMultiNIC (volumeID ip : String) : (setUpMultiNIC s volumeID ip).All Quiet := by
  apply all_setUpMultiNIC
  simp [Quiet, mounting]

/-- Making a directory is quiet. -/
theorem quiet_makeDir (p : Path) : (makeDir p).All Quiet := by
  apply all_makeDir
  simp [Quiet, mounting]

/-- A quiet program is safe. -/
theorem safe_of_quiet {α : Type} {p : NodeM α} (hp : p.All Quiet) (w : World nodeSig NodeState) :
    Safe NodeState.step t (contract s calls) (fun _ _ => True) p w :=
  safe_of_inert hp (fun _ _ _ _ hq hs => inert_of_step hq.1 hs) w

/-- What a handler knows from its scan stays true until it mounts. -/
theorem safe_quiet_between {α : Type} {p : NodeM α} (hp : p.All Quiet)
    (hcls : fsnameOf s (calls t) = some fsname) {w : World nodeSig NodeState}
    (hw : mounting.Knows t (NoneNamed fsname) w) :
    Safe NodeState.step t (contract s calls) (fun _ => mounting.Knows t (NoneNamed fsname)) p w :=
  safe_all_between hp (fun _ h => h.1) (fun _ h => h.2) hcls (noneNamed_lasting fsname) hw
    fun _ _ _ _ hq hs => inert_of_step hq.1 hs

/-- What a handler has validated. -/
structure Valid (s : NodeServer) (call : NodeCall) (ip fsname : String)
    (volCap : VolumeCapability) : Prop where
  cls : fsnameOf s call = some fsname
  ip_ne : ip ≠ ""
  ip_line : '\n' ∉ ip.toList
  fs_ne : fsname ≠ ""
  fs_slash : '/' ∉ fsname.toList
  bind : "bind" ∉ addMountFlags [] volCap

/-- A staging that passes validation is valid. -/
theorem valid_of_stage {req : NodeStageVolumeRequest} (hslash : SlashFree s (.stage req))
    (hplain : Plain s (.stage req)) (h : validateStage s req = .ok (some (ip, fsname, volCap))) :
    Valid s (.stage req) ip fsname volCap := by
  have hby : stagedBy s (.stage req) = some (ip, fsname, volCap) := by
    simp [stagedBy, h, Except.toOption]
  have hname : fsnameOf s (.stage req) = some fsname := by simp [fsnameOf, hby]
  obtain ⟨-, vc, -, hend⟩ := validateStage_eq_some h
  obtain ⟨hip, hfs, -⟩ := lustreEndpoint_eq_ok.mp hend
  obtain ⟨hline, hbind⟩ := hplain ip fsname volCap hby
  refine ⟨hname, hip, hline, hfs, hslash fsname hname, fun hmem => ?_⟩
  rcases mem_addMountFlags hmem with h | h
  · simp at h
  · exact hbind h

/-- The mount of a staging is safe after a listing without its name. -/
theorem safe_mountStaged {targetPath : String} (hv : Valid s (calls t) ip fsname volCap)
    {w : World nodeSig NodeState} (hw : mounting.Knows t (NoneNamed fsname) w) :
    Safe NodeState.step t (contract s calls) (fun _ _ => True)
      (mountStaged s targetPath ip fsname volCap) w := by
  refine Safe.bind (safe_quiet_between (quiet_makeDir _) hv.cls hw) fun r w _ hw => ?_
  cases r with
  | some err => exact safe_of_quiet .pure w
  | none =>
    refine safe_act ⟨_, _, _, _, rfl⟩ hv.cls (noneNamed_lasting fsname) hw
      (fun _ _ _ hs hnone hinv =>
        mount_keeps hv.ip_ne hv.ip_line hv.fs_ne hv.fs_slash hv.bind hs hnone hinv)
      fun w r s' => ?_
    cases r with
    | none => exact safe_of_quiet .pure _
    | some err => exact safe_of_quiet (.bind (quiet_unmountPath _) fun _ => .pure) _

/-- A scan of the mount table without the name begins the window. -/
theorem safe_hasMountWithSameFSName (hcls : fsnameOf s (calls t) = some fsname)
    (w : World nodeSig NodeState) :
    Safe NodeState.step t (contract s calls)
      (fun r w => r = .ok false → mounting.Knows t (NoneNamed fsname) w)
      (hasMountWithSameFSName fsname) w := by
  refine safe_inert .true trivial (fun _ _ => .inl rfl)
    (fun _ _ _ hs => inert_of_step (by simp [mounting]) hs) fun w r s' _ hinv hs hknows => ?_
  cases r with
  | error err => exact Safe.ret .true trivial (by simp)
  | ok l =>
    obtain ⟨rfl, rfl⟩ := list_eq hs
    by_cases hfound : (w.state.mounts.reverse.any fun m => extractFSName m.device = fsname) = true
    · refine Safe.ret .true trivial fun _ _ _ h => ?_
      simp [hfound] at h
    exact Safe.ret (Window.Knows.stable hcls (noneNamed_lasting fsname))
      (hknows _ (noneNamed_of_scan hinv.2 (Bool.eq_false_iff.mpr hfound))) fun _ _ h _ => h

/-- A valid staging is safe. -/
theorem safe_stageLocked {req : NodeStageVolumeRequest} (hv : Valid s (calls t) ip fsname volCap)
    (w : World nodeSig NodeState) :
    Safe NodeState.step t (contract s calls) (fun _ _ => True)
      (stageLocked s req ip fsname volCap) w := by
  refine Safe.bind (safe_of_quiet (quiet_isMounted _) w) fun r w _ _ => ?_
  split
  · exact safe_of_quiet .pure w
  · exact safe_of_quiet .pure w
  · refine Safe.bind (safe_hasMountWithSameFSName hv.cls w) fun r w _ hscan => ?_
    split
    · exact safe_of_quiet .pure w
    · exact safe_of_quiet .pure w
    · refine Safe.bind (safe_quiet_between (quiet_setUpMultiNIC _ _) hv.cls (hscan rfl))
        fun r w _ hw => ?_
      cases r with
      | some err => exact safe_of_quiet .pure w
      | none => exact safe_mountStaged hv hw

/-- The lock around a handler begins no window and mounts nothing. -/
theorem safe_withLock {x : String} {refused : Status} {body : NodeM (Option Status)}
    (hbody : ∀ w, Safe NodeState.step t (contract s calls) (fun _ _ => True) body w)
    (w : World nodeSig NodeState) :
    Safe NodeState.step t (contract s calls) (fun _ _ => True) (withLock x refused body) w := by
  have hinert : ∀ {α : Type} {p : NodeM α}, p.All (fun o => ¬mounting.acts o) →
      ∀ w, Safe NodeState.step t (contract s calls) (fun _ _ => True) p w :=
    fun hp => safe_of_inert hp fun _ _ _ _ hno hs => inert_of_step hno hs
  refine Safe.bind (hinert (all_perform (by simp [mounting])) w) fun acquired w _ _ => ?_
  split
  · refine Safe.bind (hbody w) fun err w _ _ => ?_
    exact hinert (.bind (all_perform (by simp [mounting])) fun _ => .pure) w
  · exact safe_of_quiet .pure w

/-- Every staging or unstaging is safe. -/
theorem safe_callBody (hstaging : Staging (calls t)) (hslash : SlashFree s (calls t))
    (hplain : Plain s (calls t)) (w : World nodeSig NodeState) :
    Safe NodeState.step t (contract s calls) (fun _ _ => True) (callBody s (calls t)) w := by
  cases hcall : calls t with
  | stage req =>
    simp only [callBody, nodeStageVolume]
    split
    · exact safe_of_quiet .pure w
    · exact safe_of_quiet .pure w
    · rename_i ip fsname volCap hval
      have hv : Valid s (calls t) ip fsname volCap := by
        rw [hcall] at hslash hplain ⊢
        exact valid_of_stage hslash hplain hval
      exact safe_withLock (safe_stageLocked hv) w
  | unstage req =>
    simp only [callBody, nodeUnstageVolume]
    split
    · exact safe_of_quiet .pure w
    split
    · exact safe_of_quiet .pure w
    · exact safe_withLock (safe_of_quiet (quiet_unmountPath _)) w
  | publish req | unpublish req => simp [hcall, Staging] at hstaging

end Contract

/-! ## Runs -/

/-- A run of handlers; besides them nobody mounts a Lustre file system. -/
abbrev Stagings (s : NodeServer) (calls : ℕ → NodeCall) (ok : World nodeSig NodeState → Prop) :
    Config nodeSig NodeState (Option Status) → Config nodeSig NodeState (Option Status) → Prop :=
  RunWhile NodeState.step NoneNew (fun t => callBody s (calls t)) fun c => ok c.world

/-- **One staging path for each name.** In every run of any number of staging and unstaging
handlers on a node that starts without Lustre mounts, in which a handler mounts only while no other
handler for the same file-system name is between its scan of the mount table and its own mount,
file systems with the same name are mounted on one path only.
SOURCE: pkg/csi_driver/node.go:149-208, 613-645 -/
theorem one_staging_path {s : NodeServer} {calls : ℕ → NodeCall} {s₀ : NodeState}
    (hstaging : ∀ t, Staging (calls t)) (hslash : ∀ t, SlashFree s (calls t))
    (hplain : ∀ t, Plain s (calls t)) (hnone : ∀ m ∈ s₀.mounts, m.fstype ≠ "lustre")
    {c : Config nodeSig NodeState (Option Status)}
    (hrun : Stagings s calls (Alone s calls) (.start s₀) c) : OneStagingPath c.world.state := by
  have hstart : PoolSafe NodeState.step (contract s calls)
      (fun _ (_ : Option Status) _ => True) (fun _ => True) (.start s₀) :=
    .start ⟨fun _ m _ hm _ hof _ => absurd hof.lustre (hnone m hm),
      fun m hm hl => absurd hl (hnone m hm)⟩
  have hsafe := (PoolSafe.runWhile (checkContract_compatible fun _ _ => inert_of_noneNew)
    (fun _ h => h) (fun t w _ _ => safe_callBody (hstaging t) (hslash t) (hplain t) w)
    (fun _ _ _ _ _ _ _ _ => trivial) hstart hrun).1
  exact hsafe.inv.1

/-! ## Two handlers that scan before they mount -/

section Sample

open Interface.Sample

/-- A staging path, another one for each number. -/
def stagingPath (t : ℕ) : String := String.ofList ('/' :: List.replicate t 'v')

/-- The request to stage a volume of the file system `lustrefs`. -/
def stageRequest (t : ℕ) : NodeStageVolumeRequest where
  volumeID := "vol"
  stagingTargetPath := stagingPath t
  volumeCapability := some (mountCapability "")
  volumeContext := ((∅ : StrMap).insert keyInstanceIP "10.0.0.2").insert keyFilesystem "lustrefs"

/-- Its volume context with the keys normalised. -/
def normalSample : StrMap :=
  ((∅ : StrMap).insert "filesystem" "lustrefs").insert "ip" "10.0.0.2"

def sampleCalls (t : ℕ) : NodeCall := .stage (stageRequest t)

/-- The stagings of the sample pass validation. -/
theorem validateStage_stageRequest (t : ℕ) : validateStage sampleServer (stageRequest t) =
    .ok (some ("10.0.0.2", "lustrefs", mountCapability "")) := by
  have hpath : stagingPath t ≠ "" := by
    intro h
    simpa [stagingPath] using congrArg String.toList h
  have hcontext : normalizeVolumeContext .asciiOnly (stageRequest t).volumeContext =
      .ok normalSample := rfl
  have hend : lustreEndpoint (normalSample.get keyInstanceIP) (normalSample.get keyFilesystem)
      (normalSample.get (normalize .asciiOnly keyMountPoint)) = .ok ("10.0.0.2", "lustrefs") := rfl
  have hiam : toLower .asciiOnly (normalSample.get
      (normalize .asciiOnly keyIAMAccessControlEnabled)) ≠ "true" := by decide +kernel
  have hcap : validateVolumeCapabilities [some (mountCapability "")] = none := by decide
  have hid : (stageRequest t).volumeID ≠ "" := by simp [stageRequest]
  have hpath' : (stageRequest t).stagingTargetPath ≠ "" := hpath
  simp only [validateStage, if_neg hid, sampleServer, hcontext, hend, if_neg hiam, if_neg hpath']
  simp [stageRequest, hcap]

/-- What the calls of the sample stage. -/
theorem stagedBy_sampleCalls (t : ℕ) : stagedBy sampleServer (sampleCalls t) =
    some ("10.0.0.2", "lustrefs", mountCapability "") := by
  simp [stagedBy, sampleCalls, validateStage_stageRequest, Except.toOption]

/-- The filesystem of the sample has no slash in its name. -/
theorem slashFree_sampleCalls (t : ℕ) : SlashFree sampleServer (sampleCalls t) := by
  intro fsname h
  obtain rfl : "lustrefs" = fsname := by simpa [fsnameOf, stagedBy_sampleCalls] using h
  decide

/-- What the calls of the sample mount is legible. -/
theorem plain_sampleCalls (t : ℕ) : Plain sampleServer (sampleCalls t) := by
  intro ip fsname volCap h
  rw [stagedBy_sampleCalls] at h
  cases h
  decide

/-- A handler takes its lock, finds its path unmounted and scans the mount table. -/
def scans (t : ℕ) : List (Move Choice) :=
  .spawn t :: [.ok, .probe (.ok true), .ok].map (.call t)

/-- It makes its directory and mounts. -/
def mounts (t : ℕ) : List (Move Choice) := [.ok, .ok].map (.call t)

/-- The mount table after a schedule. -/
def playMounts (ms : List (Move Choice)) : Option (List MountPoint) :=
  (playPool NodeState.exec (fun t => callBody sampleServer (sampleCalls t)) ms
    (.start freshNode)).map (·.world.state.mounts)

/-- The mount of a handler. -/
def sampleMount (t : ℕ) : MountPoint :=
  ⟨lustreSource "10.0.0.2" "lustrefs", .outside (stagingPath t), "lustre", []⟩

/-- The mounts of the sample are mounts of its filesystem. -/
theorem sampleMount_of (t : ℕ) : MountOf "lustrefs" (sampleMount t) :=
  ⟨rfl, by decide, "10.0.0.2", rfl⟩

/-- There is one staging path for each name in every run, whatever the handlers do meanwhile. -/
def AlwaysOne : Prop :=
  ∀ (s : NodeServer) (calls : ℕ → NodeCall) (s₀ : NodeState)
    (c : Config nodeSig NodeState (Option Status)),
    (∀ t, Staging (calls t)) → (∀ t, SlashFree s (calls t)) →
    (∀ m ∈ s₀.mounts, m.fstype ≠ "lustre") → Stagings s calls (fun _ => True) (.start s₀) c →
    OneStagingPath c.world.state

/-- Two handlers scan the mount table; then both of them mount `lustrefs`. -/
theorem not_alwaysOne : ¬AlwaysOne := by
  intro h
  have hplay : playMounts (scans 0 ++ scans 1 ++ mounts 0 ++ mounts 1) =
      some [sampleMount 1, sampleMount 0] := by decide +kernel
  obtain ⟨c, hc, hmounts⟩ := Option.map_eq_some_iff.mp hplay
  have hrun : Stagings sampleServer sampleCalls (fun _ => True) (.start freshNode) c :=
    playPool_run (fun _ => trivial) hc
  have hone := h sampleServer sampleCalls freshNode c (fun _ => trivial) slashFree_sampleCalls
    (by simp [freshNode]) hrun "lustrefs" (sampleMount 0) (sampleMount 1) (by simp [hmounts])
    (by simp [hmounts]) (sampleMount_of 0) (sampleMount_of 1)
  exact absurd hone (by decide)

/-- The code of the answer of a handler that has ended with an error. -/
def refusal (c : Config nodeSig NodeState (Option Status)) (t : ℕ) : Option Code :=
  match c.slot t with
  | .done (some status) => some status.code
  | _ => none

/-- A handler mounts the file system; after it has ended, another one finds the name in the mount
table and is refused. -/
theorem one_staging_path_refusal :
    ∃ c, Stagings sampleServer sampleCalls (Alone sampleServer sampleCalls) (.start freshNode) c ∧
      refusal c 1 = some .alreadyExists ∧ c.world.state.mounts = [sampleMount 0] ∧
      OneStagingPath c.world.state := by
  have hplay : (playPoolWhile NodeState.exec (fun t => callBody sampleServer (sampleCalls t))
      (fun c => mounting.undisturbed c.world)
      (scans 0 ++ mounts 0 ++ [.call 0 .ok, .finish 0] ++ scans 1 ++ [.call 1 .ok, .finish 1])
      (.start freshNode)).map (fun c => (refusal c 1, c.world.state.mounts)) =
      some (some .alreadyExists, [sampleMount 0]) := by
    decide +kernel
  obtain ⟨c, hc, hend⟩ := Option.map_eq_some_iff.mp hplay
  obtain ⟨hrefused, hmounts⟩ := Prod.mk.inj hend
  have hcheck : ∀ c : Config nodeSig NodeState (Option Status),
      mounting.undisturbed c.world = true → Alone sampleServer sampleCalls c.world :=
    fun _ => Window.alone_of_undisturbed
  have halone : Stagings sampleServer sampleCalls (Alone sampleServer sampleCalls)
      (.start freshNode) c := (playPoolWhile_run hcheck hc).2
  have hstaging : ∀ t, Staging (sampleCalls t) := fun _ => trivial
  exact ⟨c, halone, hrefused, hmounts, one_staging_path hstaging slashFree_sampleCalls
    plain_sampleCalls (by simp [freshNode]) halone⟩

end Sample

end LustreCsi.Analysis.StagedNames
