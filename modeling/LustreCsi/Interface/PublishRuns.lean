import LustreCsi.Interface.Sequential
import Mathlib.Data.Finset.Basic

/-!
# Publishing, when it succeeds

What a call of NodePublishVolume for an IAM volume does to the node when it returns without error,
function by function and as a whole (`PublishEffect`). The answers of the node are accurate; its
operations may fail, as long as the call does not.
-/

set_option autoImplicit false

namespace LustreCsi.Interface

open LustreCsi.Computation Model

variable {volumeID principal : String} {vc : StrMap} {volCap : VolumeCapability}
  {targetMounted : Bool}

/-! ## Single steps -/

section Steps

variable {s s' : NodeState}
  {p : Path}

/-- `lstat` answers group and mode of the path. -/
theorem lstat_step {a : Attr} (h : s.step (.lstat p) (.ok a) s') : s.attrAt p = some a := by
  obtain ⟨c, hc⟩ := h
  cases c <;> simp only [NodeState.exec, reduceCtorEq, Option.some.injEq, Prod.mk.injEq, false_and] at hc
  cases ha : s.attrAt p with
  | none => simp [ha] at hc
  | some a' =>
    simp only [ha, Except.ok.injEq] at hc
    rw [hc.1]

/-- `lchown` without an error sets the group of a path that is there. -/
theorem lchown_step {gid : Int} (h : s.step (.lchown p gid) none s') :
    ∃ a, s.attrAt p = some a ∧ s' = s.setAttr p { a with gid := chownGroup a.gid gid } := by
  obtain ⟨c, hc⟩ := h
  cases c <;> simp only [NodeState.exec, reduceCtorEq, Option.some.injEq, Prod.mk.injEq, false_and] at hc
  split at hc
  · rename_i a ha
    exact ⟨a, ha, by simpa using hc.symm⟩
  · simp at hc

/-- `chmod` without an error sets the mode of a path that is there. -/
theorem chmod_step {mode : ℕ} (h : s.step (.chmod p mode) none s') :
    ∃ a, s.attrAt p = some a ∧ s' = s.setAttr p { a with mode := mode } := by
  obtain ⟨c, hc⟩ := h
  cases c <;> simp only [NodeState.exec, reduceCtorEq, Option.some.injEq, Prod.mk.injEq, false_and] at hc
  split at hc
  · rename_i a ha
    exact ⟨a, ha, by simpa using hc.symm⟩
  · simp at hc

end Steps

/-! ## Files -/

/-- Two changes to the directory of a key are one. -/
theorem modifyKey_modifyKey (s : NodeState) (k : Key) (f g : KeyDir → KeyDir) :
    (s.modifyKey k f).modifyKey k g = s.modifyKey k (g ∘ f) := by
  simp [NodeState.modifyKey, NodeState.dir, AList.insert_insert]

/-- The later of two contents of a file counts. -/
theorem putFile_putFile (s : NodeState) (p : Path) (text text' : String) :
    (s.putFile p text).putFile p text' = s.putFile p text' := by
  cases p <;> simp only [NodeState.putFile, modifyKey_modifyKey]
  case ref k u =>
    congr 1
    funext d
    cases hrefs : d.refs <;> simp [hrefs, AList.insert_insert]
  all_goals rfl

/-- A file in a directory that exists has the content that was written, and the directory stays. -/
theorem content_putFile {s : NodeState} {p : Path} (h : s.parentPresent p = true) (text : String) :
    (s.putFile p text).content p = some text ∧ (s.putFile p text).parentPresent p = true := by
  cases p <;> simp only [NodeState.parentPresent, Bool.false_eq_true] at h
  case ref k u =>
    obtain ⟨d, hd, hrefs⟩ := (Option.any_eq_true _ _).mp h
    obtain ⟨rs, hrs⟩ := Option.isSome_iff_exists.mp hrefs
    simp [NodeState.parentPresent, NodeState.pathPresent, NodeState.putFile, NodeState.content, hd, hrs]
  all_goals simp [NodeState.parentPresent, NodeState.putFile, NodeState.content]

/-! ## Function by function -/

section Functions

variable {s s' : NodeState} {tr : List (Event nodeSig)} {k : Key}
  {srv : NodeServer} {p : Path}

/-- `makeDir` without an error has made the directory. -/
theorem exec_makeDir_none (h : Exec (nodeStep True) (makeDir p) s tr none s') :
    s' = s.mkdirAll p := by
  obtain ⟨r, s₁, tr₁, hstep, -, hret⟩ := exec_perform_bind.mp h
  obtain ⟨-, hr, rfl⟩ := exec_pure.mp hret
  rcases outcome_of_nodeStep hstep with ⟨-, rfl⟩ | ⟨e, rfl, hkind, -⟩
  · rfl
  · simp [Option.filter, hkind] at hr

/-- The loop appends what is left to write. -/
theorem exec_writeLoop_none {old rest : String} {fuel : ℕ} (hold : s.content p = some old)
    (hparent : s.parentPresent p = true)
    (h : Exec (nodeStep True) (writeLoop p fuel rest) s tr none s') : s' = s.putFile p (old ++ rest) := by
  induction fuel generalizing s old rest tr with
  | zero => simpa using (exec_pure.mp h).2.1
  | succ fuel ih =>
    obtain ⟨r, s₁, tr₁, hstep, -, hrest⟩ := exec_perform_bind.mp h
    cases r with
    | error e => simpa using (exec_pure.mp hrest).2.1
    | ok n =>
      obtain ⟨hle, rfl⟩ := write_step (step_of_nodeStep hstep) hold
      simp only at hrest
      split at hrest
      · -- All of the rest has been written.
        rename_i hall
        obtain ⟨-, -, rfl⟩ := exec_pure.mp hrest
        rw [ofList_take_length hall]
      split at hrest
      · simpa using (exec_pure.mp hrest).2.1
      have hfile := ih (content_putFile hparent _).1 (content_putFile hparent _).2 hrest
      rwa [putFile_putFile, append_ofList_take_drop] at hfile

/-- `writeFile` without an error has written the data into a directory that exists. -/
theorem exec_writeFile_none {data : String}
    (h : Exec (nodeStep True) (writeFile p data) s tr none s') :
    s.parentPresent p = true ∧ s' = s.putFile p data := by
  obtain ⟨r, s₁, tr₁, hstep, -, hrest⟩ := exec_perform_bind.mp h
  cases r with
  | some e => simpa using (exec_pure.mp hrest).2.1
  | none =>
    rcases outcome_of_nodeStep hstep with ⟨-, hparent, rfl⟩ | ⟨e, he, -⟩
    · have hfile := exec_writeLoop_none (content_putFile hparent "").1 (content_putFile hparent "").2 hrest
      rw [putFile_putFile] at hfile
      exact ⟨hparent, by simpa using hfile⟩
    · cases he

/-- The state after the token of a key has been replaced. -/
def replaceToken (s : NodeState) (k : Key) (token : String) : NodeState :=
  ((s.putFile (.tokenTmp k) token).putFile (.token k) token).erase (.tokenTmp k)

/-- `updateTokenFile` without an error has replaced the token. -/
theorem exec_updateTokenFile_none {token : String}
    (h : Exec (nodeStep True) (updateTokenFile k token) s tr none s') : s' = replaceToken s k token := by
  obtain ⟨tr₁, written, s₁, tr₂, hwrite, hrest, -⟩ := exec_bind.mp h
  cases written with
  | some e => simpa using (exec_pure.mp hrest).2.1
  | none =>
    obtain ⟨hparent, rfl⟩ := exec_writeFile_none hwrite
    obtain ⟨r, s₂, tr₃, hstep, -, hrest₂⟩ := exec_perform_bind.mp hrest
    cases r with
    | some e =>
      obtain ⟨r', s₃, tr₄, -, -, hret⟩ := exec_perform_bind.mp hrest₂
      simpa using (exec_pure.mp hret).2.1
    | none =>
      obtain ⟨-, -, rfl⟩ := exec_pure.mp hrest₂
      rcases outcome_of_nodeStep hstep with ⟨-, text, htext, rfl⟩ | ⟨e, he, -⟩
      · rw [(content_putFile hparent _).1] at htext
        cases htext
        rfl
      · cases he

/-- The state after the directories of a key have been made. -/
def makeDirs (s : NodeState) (k : Key) : NodeState := (s.mkdirAll (.mount k)).mkdirAll (.refs k)

/-- `makeGlobalDirs` without an error has made the directories of the key. -/
theorem exec_makeGlobalDirs_none (h : Exec (nodeStep True) (makeGlobalDirs k) s tr none s') :
    s' = makeDirs s k := by
  obtain ⟨tr₁, r, s₁, tr₂, hmount, hrest, -⟩ := exec_bind.mp h
  cases r with
  | some e => simpa using (exec_pure.mp hrest).2.1
  | none =>
    obtain ⟨tr₃, r', s₂, tr₄, hrefs, hret, -⟩ := exec_bind.mp hrest
    cases r' with
    | some e => simpa using (exec_pure.mp hret).2.1
    | none =>
      obtain ⟨-, -, rfl⟩ := exec_pure.mp hret
      rw [exec_makeDir_none hrefs, exec_makeDir_none hmount]
      rfl

/-- `mountGlobalIAM` without an error has found an address and mounted the key. -/
theorem exec_mountGlobalIAM_none
    (h : Exec (nodeStep True) (mountGlobalIAM srv volumeID principal k vc volCap) s tr none s') :
    (∃ ep, lustreEndpoint (vc.get (normalize srv.unicode keyInstanceIP))
      (vc.get (normalize srv.unicode keyFilesystem)) (vc.get (normalize srv.unicode keyMountPoint)) =
        .ok ep) ∧
      ∃ source options, s' = s.attach source (.mount k) "lustre" options := by
  simp only [mountGlobalIAM] at h
  split at h
  · simpa using (exec_pure.mp h).2.1
  refine ⟨⟨_, ‹_›⟩, ?_⟩
  obtain ⟨tr₁, r, s₁, tr₂, hnic, hrest, -⟩ := exec_bind.mp h
  have hs₁ : s₁ = s := by
    unfold setUpMultiNIC at hnic
    split at hnic
    · exact (exec_pure.mp hnic).2.2
    obtain ⟨r', s₂, tr₃, hstep, -, -, -, rfl⟩ := hnic
    exact outcome_of_nodeStep hstep
  subst hs₁
  cases r with
  | some e => simpa using (exec_pure.mp hrest).2.1
  | none =>
    obtain ⟨r', s₂, tr₃, hstep, -, hrest₂⟩ := exec_perform_bind.mp hrest
    cases r' with
    | none =>
      obtain ⟨-, -, rfl⟩ := exec_pure.mp hrest₂
      rcases outcome_of_nodeStep hstep with ⟨-, rfl⟩ | ⟨he, -⟩
      · exact ⟨_, _, rfl⟩
      · exact absurd rfl he
    | some e =>
      obtain ⟨tr₄, r'', s₃, tr₅, -, hret, -⟩ := exec_bind.mp hrest₂
      simpa using (exec_pure.mp hret).2.1

/-- The directory of a key after its directories have been made and its token replaced. -/
theorem dir_replaceToken_makeDirs (s : NodeState) (k : Key) (token : String) :
    (replaceToken (makeDirs s k) k token).dir k =
      some ⟨true, some (((s.dir k).bind (·.refs)).getD ∅), some token, none⟩ := by
  simp only [replaceToken, makeDirs, NodeState.putFile, NodeState.erase, NodeState.mkdirAll, modifyKey_modifyKey,
    dir_modifyKey_self]
  cases s.dir k <;> rfl

/-- `ensureGlobalMount` without an error has replaced the token, and mounted the key if it was not.
-/
theorem exec_ensureGlobalMount_none
    (h : Exec (nodeStep True) (ensureGlobalMount srv volumeID principal k vc volCap) s tr none s') :
    ∃ token, serviceToken srv volumeID k vc = .ok token ∧
      ((s.mounted (.mount k) = true ∧ s' = replaceToken (makeDirs s k) k token) ∨
        (s.mounted (.mount k) = false ∧
          (∃ ep, lustreEndpoint (vc.get (normalize srv.unicode keyInstanceIP))
            (vc.get (normalize srv.unicode keyFilesystem))
            (vc.get (normalize srv.unicode keyMountPoint)) = .ok ep) ∧
          ∃ source options,
            s' = (replaceToken (makeDirs s k) k token).attach source (.mount k) "lustre" options)) := by
  obtain ⟨tr₁, dirs, s₁, tr₂, hdirs, hrest, -⟩ := exec_bind.mp h
  cases dirs with
  | some err => simpa using (exec_pure.mp hrest).2.1
  | none =>
    obtain rfl := exec_makeGlobalDirs_none hdirs
    simp only at hrest
    split at hrest
    · simpa using (exec_pure.mp hrest).2.1
    rename_i token htoken
    refine ⟨token, htoken, ?_⟩
    obtain ⟨tr₃, written, s₂, tr₄, hwrite, hrest₂, -⟩ := exec_bind.mp hrest
    cases written with
    | some err => simpa using (exec_pure.mp hrest₂).2.1
    | none =>
      obtain rfl := exec_updateTokenFile_none hwrite
      obtain ⟨tr₅, probe, s₃, tr₆, hprobe, hrest₃, -⟩ := exec_bind.mp hrest₂
      have hpresent : (replaceToken (makeDirs s k) k token).pathPresent (.mount k) = true := by
        simp [NodeState.pathPresent, dir_replaceToken_makeDirs]
      cases probe with
      | error err => simpa using (exec_pure.mp hrest₃).2.1
      | ok mounted =>
        obtain ⟨rfl, hmounted⟩ := exec_isMounted_ok hpresent hprobe
        cases mounted with
        | true =>
          obtain ⟨-, -, rfl⟩ := exec_pure.mp hrest₃
          exact .inl ⟨hmounted, rfl⟩
        | false => exact .inr ⟨hmounted, exec_mountGlobalIAM_none hrest₃⟩

/-- `addPodReference` without an error has found the reference or written it. -/
theorem exec_addPodReference_none {podUID : String}
    (h : Exec (nodeStep True) (addPodReference k podUID volumeID) s tr none s') :
    (s.pathPresent (.ref k podUID) = true ∧ s' = s) ∨
      (s.parentPresent (.ref k podUID) = true ∧ s' = s.putFile (.ref k podUID) volumeID) := by
  obtain ⟨tr₁, found, s₁, tr₂, hexists, hrest, -⟩ := exec_bind.mp h
  obtain ⟨r, s₂, tr₃, hstep, -, hret⟩ := exec_perform_bind.mp hexists
  obtain ⟨rfl, hpresent, -⟩ := outcome_of_nodeStep hstep
  cases r with
  | none =>
    obtain ⟨-, rfl, rfl⟩ := exec_pure.mp hret
    obtain ⟨-, -, rfl⟩ := exec_pure.mp hrest
    exact .inl ⟨hpresent rfl, rfl⟩
  | some err =>
    simp only at hret
    split at hret <;> obtain ⟨-, rfl, rfl⟩ := exec_pure.mp hret <;>
      exact .inr (exec_writeFile_none hrest)

/-- `bindPod` without an error has recorded the pod, and mounted its target if it was not. -/
theorem exec_bindPod_none {targetPath podUID : String} {options : List String}
    (h : Exec (nodeStep True) (bindPod srv volumeID targetPath targetMounted podUID k options) s tr none s') :
    ∃ s₁, ((s.pathPresent (.ref k podUID) = true ∧ s₁ = s) ∨
      (s.parentPresent (.ref k podUID) = true ∧ s₁ = s.putFile (.ref k podUID) volumeID)) ∧
      ((targetMounted = true ∧ s' = s₁) ∨ (targetMounted = false ∧
        s' = s₁.attach (Path.mount k).render (.outside targetPath) "lustre" options)) := by
  obtain ⟨tr₁, added, s₁, tr₂, hadd, hrest, -⟩ := exec_bind.mp h
  cases added with
  | some err => simpa using (exec_pure.mp hrest).2.1
  | none =>
    refine ⟨s₁, exec_addPodReference_none hadd, ?_⟩
    cases targetMounted with
    | true =>
      obtain ⟨-, -, rfl⟩ := exec_pure.mp hrest
      exact .inl ⟨rfl, rfl⟩
    | false =>
      obtain ⟨r, s₂, tr₃, hstep, -, hrest₂⟩ := exec_perform_bind.mp hrest
      cases r with
      | none =>
        obtain ⟨-, -, rfl⟩ := exec_pure.mp hrest₂
        rcases outcome_of_nodeStep hstep with ⟨-, rfl⟩ | ⟨he, -⟩
        · exact .inr ⟨rfl, rfl⟩
        · exact absurd rfl he
      | some err =>
        obtain ⟨tr₄, r', s₃, tr₅, -, hrest₃, -⟩ := exec_bind.mp hrest₂
        obtain ⟨tr₆, r'', s₄, tr₇, -, hret, -⟩ := exec_bind.mp hrest₃
        simpa using (exec_pure.mp hret).2.1

/-- Group and mode of the target are changed, or the request does not ask for it. -/
theorem exec_publishOwnership_none {target : Path} {fsGroup : String} {readonly : Bool}
    (h : Exec (nodeStep True) (publishOwnership srv target fsGroup readonly) s tr none s') :
    ((readonly = true ∨ fsGroup = "") ∧ s' = s) ∨
      (readonly = false ∧ fsGroup ≠ "" ∧ ∃ gid a a', atoi fsGroup = .ok gid ∧ s.attrAt target = some a ∧
        (s.setAttr target { a with gid := chownGroup a.gid gid }).attrAt target = some a' ∧
        s' = (s.setAttr target { a with gid := chownGroup a.gid gid }).setAttr target
          { a' with mode := a.mode ||| ownershipMask }) := by
  obtain ⟨tr₁, res, s₁, tr₂, hset, hrest, -⟩ := exec_bind.mp h
  cases res with
  | some text =>
    obtain ⟨tr₃, r, s₂, tr₄, -, hret, -⟩ := exec_bind.mp hrest
    simpa using (exec_pure.mp hret).2.1
  | none =>
    obtain ⟨-, -, rfl⟩ := exec_pure.mp hrest
    unfold setVolumeOwnershipTopLevel at hset
    split at hset
    · exact .inl ⟨.inl ‹_›, (exec_pure.mp hset).2.2⟩
    split at hset
    · exact .inl ⟨.inr ‹_›, (exec_pure.mp hset).2.2⟩
    rename_i hreadonly hgroup
    refine .inr ⟨by simpa using hreadonly, hgroup, ?_⟩
    split at hset
    · simpa using (exec_pure.mp hset).2.1
    rename_i gid hgid
    obtain ⟨tr₃, err, s₂, tr₄, hchange, hret, -⟩ := exec_bind.mp hset
    obtain ⟨-, herr, rfl⟩ := exec_pure.mp hret
    obtain rfl : err = none := by simpa using herr.symm
    obtain ⟨r, s₃, tr₅, hlstat, -, hrest₂⟩ := exec_perform_bind.mp hchange
    obtain rfl : s₃ = s := outcome_of_nodeStep hlstat
    cases r with
    | error e => simpa using (exec_pure.mp hrest₂).2.1
    | ok a =>
      have ha := lstat_step (step_of_nodeStep hlstat)
      obtain ⟨r', s₄, tr₆, hlchown, -, hrest₃⟩ := exec_perform_bind.mp hrest₂
      cases r' with
      | some e => simpa using (exec_pure.mp hrest₃).2.1
      | none =>
        obtain ⟨a₁, ha₁, rfl⟩ := lchown_step (step_of_nodeStep hlchown)
        obtain rfl : a = a₁ := Option.some.inj (ha.symm.trans ha₁)
        obtain ⟨r'', s₅, tr₇, hchmod, -, -, hr, rfl⟩ := hrest₃
        obtain rfl : r'' = none := hr.symm
        obtain ⟨a', ha', rfl⟩ := chmod_step (step_of_nodeStep hchmod)
        exact ⟨gid, a, a', hgid, ha, ha', rfl⟩

end Functions

/-! ## Ownership -/

/-- The group that `setVolumeOwnershipTopLevel` sets, unless it leaves the directory alone or refuses. -/
def askedGroup (fsGroup : String) (readonly : Bool) : Option Int :=
  if readonly = true ∨ fsGroup = "" then none else (atoi fsGroup).toOption

/-- Group and mode of a directory after `setVolumeOwnershipTopLevel`. -/
def chowned (gid : Int) (a : Attr) : Attr := ⟨chownGroup a.gid gid, a.mode ||| ownershipMask⟩

/-- The state after the root of the file system of a device has been given to the group asked for. -/
def setOwnership (s : NodeState) (d : String) : Option Int → NodeState
  | none => s
  | some gid => { s with rootAttrs := Function.update s.rootAttrs d (chowned gid (s.rootAttrs d)) }

section Ownership

variable {s s' : NodeState} {p : Path} {d : String}

/-- Group and mode of a mounted path are those of the root of its file system. -/
theorem attrAt_of_topDevice (h : s.topDevice p = some d) : s.attrAt p = some (s.rootAttrs d) := by
  simp [NodeState.attrAt, h]

/-- Setting group and mode of a mounted path sets those of the root of its file system. -/
theorem setAttr_of_topDevice (h : s.topDevice p = some d) (a : Attr) :
    s.setAttr p a = { s with rootAttrs := Function.update s.rootAttrs d a } := by
  simp [NodeState.setAttr, h]

/-- A mounted path has a topmost device. -/
theorem topDevice_of_mounted (h : s.mounted p = true) : ∃ d, s.topDevice p = some d := by
  have hne : s.mountsAt p ≠ [] := by simpa [NodeState.mounted] using h
  obtain ⟨m, hm⟩ := List.exists_mem_of_ne_nil _ hne
  obtain ⟨hmem, hpath⟩ := List.mem_filter.mp hm
  have hfound : (s.mounts.find? fun m => m.path = p).isSome := List.find?_isSome.mpr ⟨m, hmem, hpath⟩
  obtain ⟨m', hm'⟩ := Option.isSome_iff_exists.mp hfound
  exact ⟨m'.device, by simp [NodeState.topDevice, hm']⟩

/-- A change of ownership does not concern the lock set. -/
@[simp] theorem locks_setOwnership (s : NodeState) (d : String) (g : Option Int) :
    (setOwnership s d g).locks = s.locks := by cases g <;> rfl

/-- A change of ownership does not concern the mount table. -/
@[simp] theorem mounts_setOwnership (s : NodeState) (d : String) (g : Option Int) :
    (setOwnership s d g).mounts = s.mounts := by cases g <;> rfl

/-- A change of ownership does not concern what is mounted. -/
@[simp] theorem mounted_setOwnership (s : NodeState) (d : String) (g : Option Int) (p : Path) :
    (setOwnership s d g).mounted p = s.mounted p := by cases g <;> rfl

/-- A change of ownership does not concern the directories of keys. -/
@[simp] theorem dir_setOwnership (s : NodeState) (d : String) (g : Option Int) (k : Key) :
    (setOwnership s d g).dir k = s.dir k := by cases g <;> rfl

/-- A release of a lock and a change of ownership do not interfere. -/
theorem unlock_setOwnership (s : NodeState) (d : String) (g : Option Int) (x : String) :
    { setOwnership s d g with locks := (setOwnership s d g).locks.erase x } =
      setOwnership { s with locks := s.locks.erase x } d g := by cases g <;> rfl

/-- The two changes of the directory are one of the root that is mounted there. -/
theorem setAttr_setAttr_of_topDevice {gid : Int} {a a' : Attr} (hd : s.topDevice p = some d)
    (ha : s.attrAt p = some a)
    (ha' : (s.setAttr p { a with gid := chownGroup a.gid gid }).attrAt p = some a') :
    (s.setAttr p { a with gid := chownGroup a.gid gid }).setAttr p
      { a' with mode := a.mode ||| ownershipMask } = setOwnership s d (some gid) := by
  obtain rfl : s.rootAttrs d = a := Option.some.inj ((attrAt_of_topDevice hd).symm.trans ha)
  rw [setAttr_of_topDevice hd] at ha' ⊢
  have hd' (ra : String → Attr) : ({ s with rootAttrs := ra } : NodeState).topDevice p = some d := hd
  simp only [attrAt_of_topDevice (hd' _), Option.some.injEq, Function.update_self] at ha'
  rw [setAttr_of_topDevice (hd' _), Function.update_idem, ← ha']
  rfl

/-- The change of ownership without an error has set the group asked for. -/
theorem exec_publishOwnership_mounted {srv : NodeServer} {fsGroup : String} {readonly : Bool}
    {tr : List (Event nodeSig)} (hd : s.topDevice p = some d)
    (h : Exec (nodeStep True) (publishOwnership srv p fsGroup readonly) s tr none s') :
    s' = setOwnership s d (askedGroup fsGroup readonly) := by
  rcases exec_publishOwnership_none h with
    ⟨hnone, rfl⟩ | ⟨hreadonly, hgroup, gid, a, a', hgid, ha, ha', rfl⟩
  · simp [askedGroup, hnone, setOwnership]
  have hasked : askedGroup fsGroup readonly = some gid := by
    simp [askedGroup, hreadonly, hgroup, hgid, Except.toOption]
  rw [hasked]
  exact setAttr_setAttr_of_topDevice hd ha ha'

end Ownership

/-! ## The whole call -/

/-- A request that passes the checks of `NodePublishVolume` and is for an IAM volume, with the volume context
and the capability that the checks yield. -/
structure IAMRequest (srv : NodeServer) where
  req : NodePublishVolumeRequest
  vc : StrMap
  volCap : VolumeCapability
  valid : validatePublish srv req = .ok (vc, volCap)
  iam : isIAM srv vc = true

namespace IAMRequest

variable {srv : NodeServer}

def target (c : IAMRequest srv) : Path := .outside c.req.targetPath

def key (c : IAMRequest srv) : Key := keyOf srv c.req.volumeID c.vc

def podUID (c : IAMRequest srv) : String := (identityOf srv c.vc).podUID

def token (c : IAMRequest srv) : Except Status String := serviceToken srv c.req.volumeID c.key c.vc

/-- The group that the request asks for, if it does. -/
def group (c : IAMRequest srv) : Option Int := askedGroup c.volCap.volumeMountGroup c.req.readonly

/-- Pod UID, namespace and service account are given. -/
def Complete (c : IAMRequest srv) : Prop :=
  c.podUID ≠ "" ∧ (identityOf srv c.vc).namespace_ ≠ "" ∧ (identityOf srv c.vc).saName ≠ ""

end IAMRequest

/-- Mounts have been added, on paths that had none; no reference is gone; locks and file systems are as they
were. -/
structure Grows (s s' : NodeState) : Prop where
  locks : s'.locks = s.locks
  mounts : ∃ added, s'.mounts = added ++ s.mounts ∧ ∀ m ∈ added, s.mounted m.path = false
  refs : ∀ k u, s.pathPresent (.ref k u) = true → s'.pathPresent (.ref k u) = true
  rootAttrs : s'.rootAttrs = s.rootAttrs

section Growing

variable {s s₁ s₂ s₃ s' : NodeState} {k : Key}
  {p : Path}

/-- What was mounted is mounted below further mounts. -/
theorem mounted_of_append {added : List MountPoint} (h : s'.mounts = added ++ s.mounts)
    (hp : s.mounted p = true) : s'.mounted p = true := by
  have hne : s.mountsAt p ≠ [] := by simpa [NodeState.mounted] using hp
  have hsplit : s'.mountsAt p = added.filter (fun m => m.path = p) ++ s.mountsAt p := by
    simp [NodeState.mountsAt, h]
  simp [NodeState.mounted, hsplit, hne]

/-- What was mounted is mounted. -/
theorem Grows.mounted (h : Grows s s') (hp : s.mounted p = true) : s'.mounted p = true := by
  obtain ⟨added, hadded, -⟩ := h.mounts
  exact mounted_of_append hadded hp

/-- A path that is mounted keeps its topmost mount. -/
theorem Grows.topDevice (h : Grows s s') (hp : s.mounted p = true) :
    s'.topDevice p = s.topDevice p := by
  obtain ⟨added, hadded, hfree⟩ := h.mounts
  have hnone : added.find? (fun m => m.path = p) = none := by
    refine List.find?_eq_none.mpr fun m hm => ?_
    rintro heq
    obtain rfl : m.path = p := by simpa using heq
    simp [hfree m hm] at hp
  simp [NodeState.topDevice, hadded, List.find?_append, hnone]

/-- Nothing is lost where nothing happens. -/
theorem Grows.refl (s : NodeState) : Grows s s := ⟨rfl, ⟨[], rfl, by simp⟩, fun _ _ h => h, rfl⟩

/-- What two steps keep, both together keep. -/
theorem Grows.trans (h : Grows s₁ s₂) (h' : Grows s₂ s₃) : Grows s₁ s₃ := by
  obtain ⟨added, hadded, hfree⟩ := h.mounts
  obtain ⟨added', hadded', hfree'⟩ := h'.mounts
  refine ⟨h'.locks.trans h.locks, ⟨added' ++ added, by rw [hadded', hadded, List.append_assoc], ?_⟩,
    fun k u hu => h'.refs k u (h.refs k u hu), h'.rootAttrs.trans h.rootAttrs⟩
  intro m hm
  rcases List.mem_append.mp hm with hm | hm
  · by_contra hp
    have hmounted := h.mounted (p := m.path) (by simpa using hp)
    simp [hfree' m hm] at hmounted
  · exact hfree m hm

/-- A change of the directory of a key in which the references stay. -/
theorem Grows.modifyKey (s : NodeState) (k : Key) {f : KeyDir → KeyDir}
    (hf : ∀ d : KeyDir, ∀ u, d.refs.any (fun rs => u ∈ rs) = true → (f d).refs.any (fun rs => u ∈ rs) = true) :
    Grows s (s.modifyKey k f) := by
  refine ⟨rfl, ⟨[], rfl, by simp⟩, fun k' u hu => ?_, rfl⟩
  by_cases hk : k' = k
  · subst hk
    cases hd : s.dir k' with
    | none => simp [NodeState.pathPresent, hd] at hu
    | some d =>
      simp only [NodeState.pathPresent, hd, Option.any_some] at hu
      simpa [NodeState.pathPresent, hd] using hf d u hu
  · simpa [NodeState.pathPresent, dir_modifyKey_of_ne s hk] using hu

/-- Writing a file loses nothing. -/
theorem Grows.putFile (s : NodeState) (p : Path) (text : String) : Grows s (s.putFile p text) := by
  cases p <;> simp only [NodeState.putFile]
  case ref k u =>
    refine .modifyKey s k fun d u' hu' => ?_
    obtain ⟨rs, hrs, hmem⟩ := (Option.any_eq_true _ _).mp hu'
    simp only [decide_eq_true_eq] at hmem
    simp [hrs, AList.mem_insert, hmem]
  case token k => exact .modifyKey s k fun d u hu => hu
  case tokenTmp k => exact .modifyKey s k fun d u hu => hu
  all_goals exact .refl s

/-- Creating a directory loses nothing. -/
theorem Grows.mkdirAll (s : NodeState) (p : Path) : Grows s (s.mkdirAll p) := by
  cases p <;> simp only [NodeState.mkdirAll]
  case outside q =>
    split
    · exact .refl s
    · exact ⟨rfl, ⟨[], rfl, by simp⟩, fun _ _ h => h, rfl⟩
  case keyDir k => exact .modifyKey s k fun d u hu => hu
  case mount k => exact .modifyKey s k fun d u hu => hu
  case refs k =>
    refine .modifyKey s k fun d u hu => ?_
    obtain ⟨rs, hrs, hmem⟩ := (Option.any_eq_true _ _).mp hu
    simpa [hrs] using hmem
  all_goals exact .refl s

/-- Replacing the token loses nothing but the token. -/
theorem grows_replaceToken_makeDirs (s : NodeState) (k : Key) (token : String) :
    Grows s (replaceToken (makeDirs s k) k token) := by
  have hdirs : Grows s (makeDirs s k) := (Grows.mkdirAll s _).trans (.mkdirAll _ _)
  have hwritten := (Grows.putFile (makeDirs s k) (.tokenTmp k) token).trans (.putFile _ (.token k) token)
  refine (hdirs.trans hwritten).trans ?_
  simp only [replaceToken, NodeState.erase]
  exact .modifyKey _ k fun d u hu => hu

/-- Mounting on a path that is not mounted loses nothing. -/
theorem Grows.attach (s : NodeState) (hp : s.mounted p = false) (source fstype : String)
    (options : List String) : Grows s (s.attach source p fstype options) := by
  refine ⟨rfl, ⟨[⟨s.deviceOf source options, p, fstype, options⟩], rfl, ?_⟩, fun _ _ h => h, rfl⟩
  intro m hm
  obtain rfl := List.mem_singleton.mp hm
  exact hp

/-- `ensureGlobalMount` without an error has the key mounted, and other paths as before. -/
theorem grows_ensureGlobalMount {srv : NodeServer} {tr : List (Event nodeSig)}
    (h : Exec (nodeStep True) (ensureGlobalMount srv volumeID principal k vc volCap) s tr none s') :
    Grows s s' ∧ s'.mounted (.mount k) = true ∧ ∀ q, q ≠ .mount k → s'.mounted q = s.mounted q := by
  obtain ⟨token, -, ⟨hmounted, rfl⟩ | ⟨hfree, -, source, options, rfl⟩⟩ :=
    exec_ensureGlobalMount_none h
  · have hgrows := grows_replaceToken_makeDirs s k token
    exact ⟨hgrows, hgrows.mounted hmounted, fun _ _ => rfl⟩
  · have hfree : (replaceToken (makeDirs s k) k token).mounted (.mount k) = false := hfree
    refine ⟨(grows_replaceToken_makeDirs s k token).trans (.attach _ hfree _ _ _),
      mounted_attach_self _ _ _ _ _, fun q hq => ?_⟩
    exact mounted_eq_of_mountsAt (mountsAt_attach_of_ne (replaceToken (makeDirs s k) k token) hq _ _ _)

/-- `bindPod` without an error has the pod recorded and its target mounted. -/
theorem grows_bindPod {srv : NodeServer} {targetPath podUID : String} {options : List String}
    {tr : List (Event nodeSig)} (hmounted : s.mounted (.outside targetPath) = targetMounted)
    (h : Exec (nodeStep True) (bindPod srv volumeID targetPath targetMounted podUID k options) s tr none s') :
    Grows s s' ∧ s'.pathPresent (.ref k podUID) = true ∧ s'.mounted (.outside targetPath) = true := by
  obtain ⟨s₁, href, hbind⟩ := exec_bindPod_none h
  have hs₁ : Grows s s₁ ∧ s₁.pathPresent (.ref k podUID) = true ∧
      s₁.mounted (.outside targetPath) = targetMounted := by
    rcases href with ⟨hpresent, rfl⟩ | ⟨hparent, rfl⟩
    · exact ⟨.refl _, hpresent, hmounted⟩
    refine ⟨.putFile _ _ _, ?_, hmounted⟩
    obtain ⟨d, hd, hrefs⟩ := (Option.any_eq_true _ _).mp hparent
    obtain ⟨rs, hrs⟩ := Option.isSome_iff_exists.mp hrefs
    simp [NodeState.pathPresent, NodeState.putFile, hd, hrs]
  obtain ⟨hgrows, hpresent, hm⟩ := hs₁
  rcases hbind with ⟨rfl, rfl⟩ | ⟨rfl, rfl⟩
  · exact ⟨hgrows, hpresent, hm⟩
  · exact ⟨hgrows.trans (.attach _ hm _ _ _), hpresent, mounted_attach_self _ _ _ _ _⟩

/-- Taking a lock for a while. -/
theorem Grows.unlock {x : String} (hx : x ∉ s.locks) (h : Grows { s with locks := insert x s.locks } s₁) :
    Grows s { s₁ with locks := s₁.locks.erase x } := by
  refine ⟨?_, h.mounts, h.refs, h.rootAttrs⟩
  have hlocks : s₁.locks = insert x s.locks := h.locks
  rw [hlocks]
  exact Finset.erase_insert hx

end Growing

/-- What a call has done that has returned without error. The locks it needs were free. Its target and the
global mount are mounted and the pod is recorded, where nothing that was there is gone. The root of the file
system on the target has the group that the request asks for. -/
structure PublishEffect {srv : NodeServer} (c : IAMRequest srv) (s s' : NodeState) : Prop where
  complete : c.Complete
  targetFree : c.req.targetPath ∉ s.locks
  keyFree : c.key.name ∉ insert c.req.targetPath s.locks
  grows : ∃ s₁ d, Grows s s₁ ∧ s₁.topDevice c.target = some d ∧ s' = setOwnership s₁ d c.group
  target : s'.mounted c.target = true
  mount : s'.mounted (.mount c.key) = true
  ref : s'.pathPresent (.ref c.key c.podUID) = true

section Effect

variable {srv : NodeServer} {c : IAMRequest srv} {s s' : NodeState} {tr : List (Event nodeSig)}

/-- The mounts of the call, for a target that has been probed. -/
theorem grows_publishMounts (hmounted : s.mounted c.target = targetMounted)
    (h : Exec (nodeStep True) (publishMounts srv c.req c.vc c.volCap targetMounted) s tr none s') :
    c.Complete ∧ c.key.name ∉ s.locks ∧ Grows s s' ∧ s'.mounted c.target = true ∧
      s'.mounted (.mount c.key) = true ∧ s'.pathPresent (.ref c.key c.podUID) = true := by
  simp only [publishMounts, c.iam, if_true, publishIAMVolume] at h
  split at h
  · simpa using (exec_pure.mp h).2.1
  split at h
  · simpa using (exec_pure.mp h).2.1
  split at h
  · simpa using (exec_pure.mp h).2.1
  rename_i hpod hns hsa
  rcases exec_withLock step_of_nodeStep h with ⟨-, hr, -⟩ | ⟨hfree, tr₁, s₁, hbody, rfl, -⟩
  · simp at hr
  obtain ⟨tr₂, res, s₂, tr₃, hglobal, hrest, -⟩ := exec_bind.mp hbody
  cases res with
  | some err => simpa using (exec_pure.mp hrest).2.1
  | none =>
    obtain ⟨hgrows, hmount, hothers⟩ := grows_ensureGlobalMount hglobal
    have htarget : s₂.mounted c.target = targetMounted :=
      (hothers c.target (by simp [IAMRequest.target])).trans hmounted
    obtain ⟨hgrows', href, hbound⟩ := grows_bindPod htarget hrest
    exact ⟨⟨hpod, hns, hsa⟩, hfree, (hgrows.trans hgrows').unlock hfree, hbound, hgrows'.mounted hmount, href⟩

/-- **Effect of a publish.** A call for an IAM volume that returns without error has mounted and recorded
what it should, and nothing that was there is gone.
SOURCE: pkg/csi_driver/node.go:236-417 -/
theorem publishEffect (h : Exec (nodeStep True) (nodePublishVolume srv c.req) s tr none s') :
    PublishEffect c s s' := by
  simp only [nodePublishVolume, c.valid] at h
  rcases exec_withLock step_of_nodeStep h with ⟨-, hr, -⟩ | ⟨hfree, tr₁, s₁, hbody, rfl, -⟩
  · simp at hr
  obtain ⟨tr₂, made, s₂, tr₃, hdir, hrest, -⟩ := exec_bind.mp hbody
  cases made with
  | some err => simpa using (exec_pure.mp hrest).2.1
  | none =>
    obtain rfl := exec_makeDir_none hdir
    obtain ⟨tr₄, probe, s₃, tr₅, hprobe, hrest₂, -⟩ := exec_bind.mp hrest
    cases probe with
    | error err => simpa using (exec_pure.mp hrest₂).2.1
    | ok targetMounted =>
      obtain ⟨rfl, hmounted⟩ := exec_isMounted_ok (pathPresent_mkdirAll_outside _ _) hprobe
      obtain ⟨tr₆, res, s₄, tr₇, hmounts, hrest₃, -⟩ := exec_bind.mp hrest₂
      cases res with
      | some err => simpa using (exec_pure.mp hrest₃).2.1
      | none =>
        obtain ⟨hcomplete, hkey, hgrows, htarget, hmount, href⟩ := grows_publishMounts hmounted hmounts
        obtain ⟨d, hd⟩ := topDevice_of_mounted htarget
        obtain rfl := exec_publishOwnership_mounted hd hrest₃
        have hlocked := Grows.mkdirAll { s with locks := insert c.req.targetPath s.locks } c.target
        refine ⟨hcomplete, hfree, fun hmem => hkey ?_, ⟨_, d, (hlocked.trans hgrows).unlock hfree, hd, ?_⟩,
          ?_, ?_, ?_⟩
        · exact hlocked.locks ▸ hmem
        · exact unlock_setOwnership s₄ d c.group c.req.targetPath
        · exact (mounted_setOwnership s₄ d _ _).trans htarget
        · exact (mounted_setOwnership s₄ d _ _).trans hmount
        · have hdir := dir_setOwnership s₄ d (askedGroup c.volCap.volumeMountGroup c.req.readonly) c.key
          exact (congrArg (Option.any _) hdir).trans href

end Effect

end LustreCsi.Interface
