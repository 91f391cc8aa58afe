import LustreCsi.Interface.Host

/-!
# Key directories and their mounts

A mount point is a directory that exists (`MountDirs`), because the operating system removes no
directory on which something is mounted; and which operations take a reference, the token or the
mount of a key away.
-/

set_option autoImplicit false

namespace LustreCsi.Interface

open LustreCsi.Computation Model

variable {k : Key} {s s' : NodeState} {p : Path} {u : String} {f : KeyDir → KeyDir} {o : Op}
  {r : o.Res}

/-- The paths of a key that is as before are there as before. -/
theorem SameKey.pathPresent (h : SameKey k s s') (hp : p.key? = some k) :
    s'.pathPresent p = s.pathPresent p := by
  cases p <;> simp only [Path.key?, Option.some.injEq, reduceCtorEq] at hp <;> subst hp <;>
    simp only [NodeState.pathPresent, h.dir]

/-- A key that is as before is mounted as before. -/
theorem SameKey.mounted (h : SameKey k s s') :
    s'.mounted (.mount k) = s.mounted (.mount k) := mounted_eq_of_mountsAt h.mounts

/-- The mount directory of a key is there. -/
theorem pathPresent_mount_iff :
    s.pathPresent (.mount k) = true ↔ ∃ d, s.dir k = some d ∧ d.mount = true := by
  simp [NodeState.pathPresent, Option.any_eq_true]

/-- The token file of a key is there. -/
theorem pathPresent_token_iff :
    s.pathPresent (.token k) = true ↔ ∃ d, s.dir k = some d ∧ d.token.isSome = true := by
  simp [NodeState.pathPresent, Option.any_eq_true]

/-- The reference of a pod is there. -/
theorem pathPresent_ref_iff :
    s.pathPresent (.ref k u) = true ↔
      ∃ d rs, s.dir k = some d ∧ d.refs = some rs ∧ u ∈ rs := by
  simp only [NodeState.pathPresent, Option.any_eq_true]
  constructor
  · rintro ⟨d, hd, rs, hrs, hu⟩
    exact ⟨d, rs, hd, hrs, by simpa using hu⟩
  · rintro ⟨d, rs, hd, hrs, hu⟩
    exact ⟨d, hd, rs, hrs, by simpa using hu⟩

/-! ## Mount points exist -/

/-- Where something is mounted for a key, the directory exists. -/
def MountDirs (s : NodeState) : Prop :=
  ∀ k, s.mounted (.mount k) = true → s.pathPresent (.mount k) = true

/-- A change of a key directory that keeps `mount`. -/
theorem MountDirs.modifyKey (h : MountDirs s)
    (hf : ∀ d, d.mount = true → s.mounted (.mount k) = true → (f d).mount = true) :
    MountDirs (s.modifyKey k f) := by
  intro k' hm
  rw [mounted_modifyKey] at hm
  by_cases hk : k' = k
  · subst hk
    obtain ⟨d, hd, hmount⟩ := pathPresent_mount_iff.mp (h k' hm)
    exact pathPresent_mount_iff.mpr ⟨_, dir_modifyKey_self s k' f, by
      simpa [hd] using hf d hmount hm⟩
  · rw [(SameKey.modifyKey s hk f).pathPresent rfl]
    exact h k' hm

/-- A change that keeps the directories and mounts nothing on them. -/
theorem MountDirs.of_dir (h : MountDirs s) (hdir : ∀ k, s'.dir k = s.dir k)
    (hm : ∀ k, s'.mounted (.mount k) = true → s.mounted (.mount k) = true) : MountDirs s' := by
  intro k hk
  have := h k (hm k hk)
  rw [pathPresent_mount_iff] at this ⊢
  rwa [hdir]

/-- Creating a directory keeps the directories of mounts. -/
theorem MountDirs.mkdirAll (h : MountDirs s) (p : Path) :
    MountDirs (s.mkdirAll p) := by
  cases p <;> simp only [NodeState.mkdirAll]
  case outside q =>
    split
    · exact h
    · exact h.of_dir (fun _ => rfl) fun _ hk => hk
  case keyDir k => exact h.modifyKey fun d hd _ => hd
  case mount k => exact h.modifyKey fun d _ _ => rfl
  case refs k => exact h.modifyKey fun d hd _ => hd
  all_goals exact h

/-- Writing a file keeps the directories of mounts. -/
theorem MountDirs.putFile (h : MountDirs s) (p : Path) (text : String) :
    MountDirs (s.putFile p text) := by
  cases p <;> simp only [NodeState.putFile]
  case ref k u => exact h.modifyKey fun d hd _ => hd
  case token k => exact h.modifyKey fun d hd _ => hd
  case tokenTmp k => exact h.modifyKey fun d hd _ => hd
  all_goals exact h

/-- A key directory on which nothing is mounted may go. -/
theorem MountDirs.eraseKey (h : MountDirs s) (hk : s.mounted (.mount k) = false) :
    MountDirs { s with keys := s.keys.erase k } := by
  intro k' hm
  by_cases hkk : k' = k
  · subst hkk
    exact absurd (show s.mounted (.mount k') = true from hm) (by simp [hk])
  rw [(SameKey.eraseKey s hkk).pathPresent rfl]
  exact h k' hm

/-- `os.Remove` refuses a directory that is mounted on or still has its `mount`. -/
theorem MountDirs.erase (h : MountDirs s) (huse : s.dirInUse p = false) (hm : s.mounted p = false) :
    MountDirs (s.erase p) := by
  cases p <;> simp only [NodeState.erase]
  case outside q => exact h.of_dir (fun _ => rfl) fun _ hk => hk
  case keyDir k =>
    refine h.eraseKey ?_
    rw [Bool.eq_false_iff]
    intro hk
    obtain ⟨d, hd, hmount⟩ := pathPresent_mount_iff.mp (h k hk)
    simp [NodeState.dirInUse, hd, hmount] at huse
  case mount k => exact h.modifyKey fun d _ hk => absurd hk (by simp [hm])
  all_goals exact h.modifyKey fun d hd _ => hd

/-- Unmounting keeps the directories of mounts. -/
theorem MountDirs.detach (h : MountDirs s) (p : Path) : MountDirs (s.detach p) :=
  h.of_dir (fun _ => rfl) fun _ => mounted_of_mounted_detach

/-- Mounting on a directory that exists keeps the directories of mounts. -/
theorem MountDirs.attach (h : MountDirs s) (hp : s.pathPresent p = true) (source fstype : String)
    (options : List String) :
    MountDirs (s.attach source p fstype options) := by
  intro k hk
  by_cases hpk : Path.mount k = p
  · subst hpk
    exact hp
  rw [mounted_eq_of_mountsAt (mountsAt_attach_of_ne s hpk _ _ _)] at hk
  exact h k hk

/-- A recursive removal that stops at a mount keeps the directories of mounts. -/
theorem MountDirs.removeParts (h : MountDirs s) (k : Key) (parts : Removed) :
    MountDirs (s.removeParts k parts) := by
  have hwipe : MountDirs (s.wipe (.mount k)) := by
    unfold NodeState.wipe
    split
    · exact h
    · exact h.of_dir (fun _ => rfl) fun _ hk => hk
  have hmounted : (s.wipe (.mount k)).mounted (.mount k) = s.mounted (.mount k) :=
    (wipe_sameKey s k _).mounted
  unfold NodeState.removeParts
  split
  · refine hwipe.modifyKey fun d hd hk => ?_
    rw [hmounted] at hk
    simp [hd, hk]
  · exact h.modifyKey fun d hd hk => by simp [hd, hk]

/-- The operating system keeps the directories of mount points. -/
theorem Outcome.mountDirs (h : Outcome s o r s') (hs : MountDirs s) : MountDirs s' := by
  obtain rfl | hc := h.change
  · exact hs
  cases hc with
  | acquire | release => exact hs.of_dir (fun _ => rfl) fun _ hk => hk
  | mkdirAll p q => exact hs.mkdirAll q
  | unmount | umount => exact hs.detach _
  | mount source fstype p options r hp => exact hs.attach hp _ _ _
  | remove p huse hm => exact hs.erase huse hm
  | removeAll k hm => exact hs.eraseKey hm
  | removeParts k r parts => exact hs.removeParts k parts
  | openTrunc | write => exact hs.putFile _ _
  | rename k text => exact (hs.putFile (.token k) text).modifyKey fun d hd _ => hd
  | attr o r p a =>
    exact hs.of_dir (fun k => (SameKey.setAttr s k p a).dir) fun k hk => by
      rwa [(SameKey.setAttr s k p a).mounted] at hk

/-! ## Keys in use -/

/-- The pod's reference exists, the key is mounted and has its token. -/
structure InUse (s : NodeState) (k : Key) (u : String) : Prop where
  ref : s.pathPresent (.ref k u) = true
  mounted : s.mounted (.mount k) = true
  token : s.pathPresent (.token k) = true

/-- A key that is as before is in use as before. -/
theorem SameKey.inUse (h : SameKey k s s') (hu : InUse s k u) : InUse s' k u :=
  ⟨(h.pathPresent rfl).trans hu.ref, h.mounted.trans hu.mounted, (h.pathPresent rfl).trans hu.token⟩

/-- A change of a key directory that keeps token and reference. -/
theorem InUse.modifyKey {k' : Key} (h : InUse s k u)
    (htoken : ∀ d, d.token.isSome = true → (f d).token.isSome = true)
    (href : k' = k → ∀ d rs, d.refs = some rs → u ∈ rs → ∃ rs', (f d).refs = some rs' ∧ u ∈ rs') :
    InUse (s.modifyKey k' f) k u := by
  by_cases hk : k = k'
  · subst hk
    obtain ⟨d, rs, hd, hrs, hu⟩ := pathPresent_ref_iff.mp h.ref
    obtain ⟨d', hd', ht⟩ := pathPresent_token_iff.mp h.token
    obtain rfl : d = d' := Option.some.inj (hd.symm.trans hd')
    have hdir : (s.modifyKey k f).dir k = some (f d) := by simp [hd]
    obtain ⟨rs', hrs', hu'⟩ := href rfl d rs hrs hu
    exact ⟨pathPresent_ref_iff.mpr ⟨f d, rs', hdir, hrs', hu'⟩, h.mounted,
      pathPresent_token_iff.mpr ⟨f d, hdir, htoken d ht⟩⟩
  · exact (SameKey.modifyKey s hk f).inUse h

/-- Creating a directory takes nothing from a pod. -/
theorem InUse.mkdirAll (h : InUse s k u) (p : Path) :
    InUse (s.mkdirAll p) k u := by
  cases p <;> simp only [NodeState.mkdirAll]
  case outside q =>
    split
    · exact h
    · exact ⟨h.ref, h.mounted, h.token⟩
  case keyDir k' => exact h.modifyKey (fun d hd => hd) fun _ d rs hrs hu => ⟨rs, hrs, hu⟩
  case mount k' => exact h.modifyKey (fun d hd => hd) fun _ d rs hrs hu => ⟨rs, hrs, hu⟩
  case refs k' =>
    exact h.modifyKey (fun d hd => hd) fun _ d rs hrs hu => ⟨rs, by simp [hrs], hu⟩
  all_goals exact h

/-- Writing a file takes nothing from a pod. -/
theorem InUse.putFile (h : InUse s k u) (p : Path) (text : String) : InUse (s.putFile p text) k u := by
  cases p <;> simp only [NodeState.putFile]
  case ref k' u' =>
    exact h.modifyKey (fun d hd => hd) fun _ d rs hrs hu =>
      ⟨rs.insert u' text, by simp [hrs], by simp [hu]⟩
  case token k' => exact h.modifyKey (fun d _ => rfl) fun _ d rs hrs hu => ⟨rs, hrs, hu⟩
  case tokenTmp k' => exact h.modifyKey (fun d hd => hd) fun _ d rs hrs hu => ⟨rs, hrs, hu⟩
  all_goals exact h

/-- `os.Remove` takes from a key in use nothing but the reference or the token themselves. -/
theorem InUse.erase (h : InUse s k u) (huse : s.dirInUse p = false) (hm : s.mounted p = false)
    (href : p ≠ .ref k u) (htoken : p ≠ .token k) : InUse (s.erase p) k u := by
  obtain ⟨d, rs, hd, hrs, hu⟩ := pathPresent_ref_iff.mp h.ref
  by_cases hpk : p.key? = some k
  · cases p <;> simp only [Path.key?, Option.some.injEq, reduceCtorEq] at hpk <;> subst hpk <;>
      simp only [NodeState.erase]
    case keyDir => simp [NodeState.dirInUse, hd, hrs] at huse
    case mount => exact absurd h.mounted (by simp [hm])
    case refs =>
      simp only [NodeState.dirInUse, hd, hrs, Option.any_some, Bool.not_eq_false',
        List.isEmpty_iff] at huse
      have hmem : u ∈ rs.keys := hu
      simp [huse] at hmem
    case ref u' =>
      have hne : u ≠ u' := fun heq => href (by rw [heq])
      exact h.modifyKey (fun d hd => hd) fun _ d rs hrs hu =>
        ⟨rs.erase u', by simp [hrs], by simp [hu, hne]⟩
    case token => exact absurd rfl htoken
    case tokenTmp => exact h.modifyKey (fun d hd => hd) fun _ d rs hrs hu => ⟨rs, hrs, hu⟩
  · exact (erase_sameKey s hpk).inUse h

/-- Unmounting something else takes nothing from a pod. -/
theorem InUse.detach (h : InUse s k u) (hp : p ≠ .mount k) : InUse (s.detach p) k u :=
  ⟨h.ref, (mounted_eq_of_mountsAt (mountsAt_detach_of_ne s hp.symm)).trans h.mounted, h.token⟩

/-- Mounting takes nothing from a pod. -/
theorem InUse.attach (h : InUse s k u) (p : Path) (source fstype : String) (options : List String) :
    InUse (s.attach source p fstype options) k u := by
  refine ⟨h.ref, ?_, h.token⟩
  by_cases hp : Path.mount k = p
  · subst hp
    exact mounted_attach_self s _ _ _ _
  rw [mounted_eq_of_mountsAt (mountsAt_attach_of_ne s hp _ _ _)]
  exact h.mounted

/-- The operations that can end the use of a key by a pod. -/
def Drops : (o : Op) → o.Res → Key → String → Prop
  | .unmount p, _, k, _ => p = .mount k
  | .umount _ p, _, k, _ => p = .mount k
  | .remove p, r, k, u => (p = .ref k u ∧ r = none) ∨ p = .token k
  | .removeAll k', _, k, _ => k' = k
  | _, _, _, _ => False

/-- All other operations keep it. -/
theorem Outcome.inUse (h : Outcome s o r s') (hu : InUse s k u) (hno : ¬Drops o r k u) :
    InUse s' k u := by
  obtain rfl | hc := h.change
  · exact hu
  cases hc with
  | acquire | release => exact ⟨hu.ref, hu.mounted, hu.token⟩
  | mkdirAll p q => exact hu.mkdirAll q
  | unmount | umount => exact hu.detach hno
  | mount => exact hu.attach _ _ _ _
  | remove p huse hm =>
    exact hu.erase huse hm (fun heq => hno (.inl ⟨heq, rfl⟩)) fun heq => hno (.inr heq)
  | removeAll | removeParts => exact (h.frame fun heq => hno (Option.some.inj heq)).inUse hu
  | openTrunc | write => exact hu.putFile _ _
  | rename k' text =>
    simp only [NodeState.erase]
    exact InUse.modifyKey (hu.putFile (.token k') text) (fun d hd => hd) fun _ d rs hrs hu =>
      ⟨rs, hrs, hu⟩
  | attr o r p a => exact (SameKey.setAttr s k p a).inUse hu

/-! ## Mounts and references come and go only by name -/

/-- The path whose mounts an operation may change. -/
def opMount : Op → Option Path
  | .unmount p => some p
  | .mountSensitiveWithoutSystemd _ p _ _ => some p
  | .umount _ p => some p
  | _ => none

/-- Changes of files and attributes leave the mount table as it is. -/
theorem mounts_mkdirAll (s : NodeState) (p : Path) : (s.mkdirAll p).mounts = s.mounts := by
  cases p <;> simp only [NodeState.mkdirAll] <;> first | rfl | (split <;> rfl)

/-- Removing a path does not concern the mount table. -/
theorem mounts_erase (s : NodeState) (p : Path) : (s.erase p).mounts = s.mounts := by
  cases p <;> rfl

/-- Writing a file does not concern the mount table. -/
theorem mounts_putFile (s : NodeState) (p : Path) (text : String) :
    (s.putFile p text).mounts = s.mounts := by
  cases p <;> rfl

/-- Setting group and mode does not concern the mount table. -/
theorem mounts_setAttr (s : NodeState) (p : Path) (a : Attr) :
    (s.setAttr p a).mounts = s.mounts := by
  unfold NodeState.setAttr
  split <;> rfl

/-- A recursive removal does not concern the mount table. -/
theorem mounts_removeParts (s : NodeState) (k : Key) (parts : Removed) :
    (s.removeParts k parts).mounts = s.mounts := by
  have hwipe : (s.wipe (.mount k)).mounts = s.mounts := by
    unfold NodeState.wipe
    split <;> rfl
  unfold NodeState.removeParts
  split
  · exact hwipe
  · rfl

/-- An operation changes the mounts on no path but the one it mounts on or unmounts. -/
theorem Outcome.mountsAt_eq (h : Outcome s o r s') (hp : opMount o ≠ some p) :
    s'.mountsAt p = s.mountsAt p := by
  have hmounts : s'.mounts = s.mounts → s'.mountsAt p = s.mountsAt p := fun h => by
    simp only [NodeState.mountsAt, h]
  obtain rfl | hc := h.change
  · rfl
  cases hc with
  | acquire | release | removeAll | rename => rfl
  | mkdirAll _ q => exact hmounts (mounts_mkdirAll s q)
  | unmount | umount => exact mountsAt_detach_of_ne s fun heq => hp (heq ▸ rfl)
  | mount => exact mountsAt_attach_of_ne s (fun heq => hp (by rw [heq]; rfl)) _ _ _
  | remove q => exact hmounts (mounts_erase s q)
  | removeParts k r parts => exact hmounts (mounts_removeParts s k parts)
  | openTrunc | write => exact hmounts (mounts_putFile s _ _)
  | attr o r q a => exact hmounts (mounts_setAttr s q a)

/-- A change of a key directory that adds no reference of the pod. -/
theorem ref_absent_modifyKey {k' : Key} (h : s.pathPresent (.ref k u) = false)
    (hf : k' = k → ∀ d rs', (f d).refs = some rs' → u ∈ rs' → ∃ rs, d.refs = some rs ∧ u ∈ rs) :
    (s.modifyKey k' f).pathPresent (.ref k u) = false := by
  rw [Bool.eq_false_iff] at h ⊢
  intro hpresent
  by_cases hk : k = k'
  · subst hk
    obtain ⟨d, rs', hd, hrs', hu⟩ := pathPresent_ref_iff.mp hpresent
    rw [dir_modifyKey_self, Option.some.injEq] at hd
    subst hd
    obtain ⟨rs, hrs, hmem⟩ := hf rfl _ rs' hrs' hu
    cases hdir : s.dir k with
    | none => simp [hdir, KeyDir.empty] at hrs
    | some d => exact h (pathPresent_ref_iff.mpr ⟨d, rs, hdir, by simpa [hdir] using hrs, hmem⟩)
  · rw [(SameKey.modifyKey s hk f).pathPresent rfl] at hpresent
    exact h hpresent

/-- Creating a directory makes no reference. -/
theorem ref_absent_mkdirAll (h : s.pathPresent (.ref k u) = false) (p : Path) :
    (s.mkdirAll p).pathPresent (.ref k u) = false := by
  cases p <;> simp only [NodeState.mkdirAll]
  case outside q => split <;> exact h
  case keyDir k' => exact ref_absent_modifyKey h fun _ d rs' hrs hu => ⟨rs', hrs, hu⟩
  case mount k' => exact ref_absent_modifyKey h fun _ d rs' hrs hu => ⟨rs', hrs, hu⟩
  case refs k' =>
    refine ref_absent_modifyKey h fun _ d rs' hrs hu => ?_
    cases hd : d.refs with
    | none =>
      obtain rfl : rs' = ∅ := by simpa [hd] using hrs.symm
      simp at hu
    | some rs =>
      obtain rfl : rs' = rs := by simpa [hd] using hrs.symm
      exact ⟨rs', rfl, hu⟩
  all_goals exact h

/-- Removing the directory of a key makes no reference. -/
theorem ref_absent_eraseKey (h : s.pathPresent (.ref k u) = false) (k' : Key) :
    ({ s with keys := s.keys.erase k' } : NodeState).pathPresent (.ref k u) = false := by
  by_cases hk : k = k'
  · subst hk
    simp [NodeState.pathPresent, NodeState.dir]
  rw [(SameKey.eraseKey s hk).pathPresent rfl]
  exact h

/-- Removing a path makes no reference. -/
theorem ref_absent_erase (h : s.pathPresent (.ref k u) = false) (p : Path) :
    (s.erase p).pathPresent (.ref k u) = false := by
  cases p <;> simp only [NodeState.erase]
  case outside q => exact h
  case keyDir k' => exact ref_absent_eraseKey h k'
  case refs k' => exact ref_absent_modifyKey h fun _ d rs' hrs => by simp at hrs
  case ref k' u' =>
    refine ref_absent_modifyKey h fun _ d rs' hrs hu => ?_
    obtain ⟨rs, hd, rfl⟩ := Option.map_eq_some_iff.mp hrs
    exact ⟨rs, hd, (AList.mem_erase.mp hu).2⟩
  all_goals exact ref_absent_modifyKey h fun _ d rs' hrs hu => ⟨rs', hrs, hu⟩

/-- Writing another file makes no reference. -/
theorem ref_absent_putFile (h : s.pathPresent (.ref k u) = false) (hp : p ≠ .ref k u)
    (text : String) :
    (s.putFile p text).pathPresent (.ref k u) = false := by
  cases p <;> simp only [NodeState.putFile]
  case ref k' u' =>
    refine ref_absent_modifyKey h fun hk d rs' hrs hu => ?_
    obtain ⟨rs, hd, rfl⟩ := Option.map_eq_some_iff.mp hrs
    refine ⟨rs, hd, (AList.mem_insert rs).mp hu |>.resolve_left fun heq => ?_⟩
    exact hp (by rw [hk, heq])
  case token k' => exact ref_absent_modifyKey h fun _ d rs' hrs hu => ⟨rs', hrs, hu⟩
  case tokenTmp k' => exact ref_absent_modifyKey h fun _ d rs' hrs hu => ⟨rs', hrs, hu⟩
  all_goals exact h

/-- A recursive removal makes no reference. -/
theorem ref_absent_removeParts (h : s.pathPresent (.ref k u) = false) (k' : Key) (parts : Removed) :
    (s.removeParts k' parts).pathPresent (.ref k u) = false := by
  have hwipe : (s.wipe (.mount k')).pathPresent (.ref k u) = false := by
    rw [(wipe_sameKey s k _).pathPresent rfl]
    exact h
  unfold NodeState.removeParts
  split
  · refine ref_absent_modifyKey hwipe fun _ d rs' hrs hu => ⟨rs', ?_, hu⟩
    simp only at hrs
    split at hrs
    · simp at hrs
    · exact hrs
  · refine ref_absent_modifyKey h fun _ d rs' hrs hu => ⟨rs', ?_, hu⟩
    simp only at hrs
    split at hrs
    · simp at hrs
    · exact hrs

/-- A reference with a content exists. -/
theorem pathPresent_of_content {text : String} (h : s.content (.ref k u) = some text) :
    s.pathPresent (.ref k u) = true := by
  simp only [NodeState.content, Option.bind_eq_some_iff] at h
  obtain ⟨d, hd, rs, hrs, hl⟩ := h
  exact pathPresent_ref_iff.mpr ⟨d, rs, hd, hrs, AList.lookup_isSome.mp (by simp [hl])⟩

/-- A reference is created by opening its file for writing, and by nothing else. -/
theorem Outcome.ref_absent (h : Outcome s o r s') (habs : s.pathPresent (.ref k u) = false)
    (hno : o ≠ .openTrunc (.ref k u)) :
    s'.pathPresent (.ref k u) = false := by
  obtain rfl | hc := h.change
  · exact habs
  cases hc with
  | acquire | release | unmount | umount | mount => exact habs
  | mkdirAll p q => exact ref_absent_mkdirAll habs q
  | remove p => exact ref_absent_erase habs p
  | removeAll k' => exact ref_absent_eraseKey habs k'
  | removeParts k' r parts => exact ref_absent_removeParts habs k' parts
  | openTrunc p => exact ref_absent_putFile habs (fun heq => hno (by rw [heq])) ""
  | write p data old text r hcontent =>
    refine ref_absent_putFile habs ?_ text
    rintro rfl
    simp [pathPresent_of_content hcontent] at habs
  | rename k' text => exact ref_absent_erase (ref_absent_putFile habs (by simp) text) _
  | attr o r p a => exact ((SameKey.setAttr s k p a).pathPresent rfl).trans habs

/-! ## A key directory goes only by name -/

/-- A change to the directory of some key leaves those that exist. -/
theorem dir_isSome_modifyKey (h : (s.dir k).isSome) (k' : Key) (f : KeyDir → KeyDir) :
    ((s.modifyKey k' f).dir k).isSome := by
  by_cases hk : k = k'
  · subst hk
    simp
  · rwa [dir_modifyKey_of_ne s hk]

/-- A key directory is removed as a whole, or not at all. -/
theorem Outcome.dir_isSome (h : Outcome s o r s') (hk : (s.dir k).isSome) (hall : o ≠ .removeAll k)
    (hdir : o ≠ .remove (.keyDir k)) :
    (s'.dir k).isSome := by
  obtain rfl | hc := h.change
  · exact hk
  cases hc with
  | acquire | release | unmount | umount | mount => exact hk
  | mkdirAll p q =>
    cases q <;> simp only [NodeState.mkdirAll]
    case outside q => split <;> exact hk
    all_goals first | exact hk | exact dir_isSome_modifyKey hk _ _
  | remove p =>
    cases p <;> simp only [NodeState.erase]
    case keyDir k' => rwa [(SameKey.eraseKey s fun heq => hdir (by rw [heq])).dir]
    all_goals first | exact hk | exact dir_isSome_modifyKey hk _ _
  | removeAll k' | removeParts k' =>
    rwa [(h.frame fun heq => hall (by rw [Option.some.inj heq])).dir]
  | openTrunc p | write p =>
    cases p <;> simp only [NodeState.putFile] <;>
      first | exact hk | exact dir_isSome_modifyKey hk _ _
  | rename k' text =>
    simp only [NodeState.erase, NodeState.putFile]
    exact dir_isSome_modifyKey (dir_isSome_modifyKey hk _ _) _ _
  | attr o r p a => rwa [(SameKey.setAttr s k p a).dir]

end LustreCsi.Interface
