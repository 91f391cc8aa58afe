import LustreCsi.Interface.Paths
import LustreCsi.Interface.Sample
import LustreCsi.Interface.Volumes

/-!
# The node server refines its volumes

`Represents` says when a state of the node shows given volumes: exactly their mounts, key
directories and references, and nothing else. `represents_after` is the simulation: without faults
every call that kubelet may make succeeds and leads to a state that represents the volumes after the
call. `lifecycle_refines` is the same for sequences of calls, and `clean_node` what follows for a
node on which everything has been unpublished.
-/

set_option autoImplicit false

namespace LustreCsi.Analysis.NodeLifecycle

open LustreCsi.Computation Model Interface

variable {k : Key} {g : Shared} {q d u fsname : String} {p : Path} {options : List String}
  {volCap : VolumeCapability} {req : NodePublishVolumeRequest} {vc : StrMap}

/-! ## The relation -/

/-- What the node has for a key: nothing, or one mount and a directory with the users. -/
def SharedAt (s : NodeState) (k : Key) : Option Shared → Prop
  | none => s.dir k = none ∧ s.mountsAt (.mount k) = []
  | some g => (s.mountsAt (.mount k)).map (·.device) = [g.device] ∧
      ∃ rs token, s.dir k = some ⟨true, some rs, some token, none⟩ ∧ ∀ u, u ∈ rs ↔ u ∈ g.users

/-- The state of the node shows the volumes, while the given locks are held. -/
structure Represents (site : Site) (v : Volumes) (locks : Finset String) (s : NodeState) : Prop where
  locks : s.locks = locks
  apart : ∀ q, v.staged q = none ∨ v.bound q = none
  mounts : ∀ q, site.kubelet q →
    (s.mountsAt (.outside q)).map (·.device) = (v.staged q).toList ++ (v.bound q).toList
  present : ∀ q, site.kubelet q → s.mounted (.outside q) = true → (s.outside q).isSome = true
  shared : ∀ k, SharedAt s k (v.shared k)
  known : ∀ m ∈ s.mounts, (∃ k, m.path = .mount k) ∨ ∃ q, m.path = .outside q ∧
    (site.kubelet q ∨ (m.device ∈ site.foreign ∧ ∀ k : Key, q ≠ (Path.mount k).render))

variable {site : Site} {v v' : Volumes} {L L' : Finset String} {s s' : NodeState} {srv : NodeServer}

/-- What is shared at a key depends on the key's directory and mounts only. -/
theorem SharedAt.congr {g : Option Shared} (h : SharedAt s k g) (hk : SameKey k s s') :
    SharedAt s' k g := by
  cases g with
  | none => exact ⟨hk.dir.trans h.1, hk.mounts.trans h.2⟩
  | some g =>
    obtain ⟨hm, rs, token, hd, hu⟩ := h
    exact ⟨by rw [hk.mounts]; exact hm, rs, token, hk.dir.trans hd, hu⟩

/-- The path of a shared mount is mounted. -/
theorem SharedAt.mounted (h : SharedAt s k (some g)) :
    s.mounted (.mount k) = true := by
  have hdevice := h.1
  by_contra hm
  have hnil : s.mountsAt (.mount k) = [] := by simpa [NodeState.mounted] using hm
  simp [hnil] at hdevice

/-- What does not concern mounts and keys does not concern the volumes. -/
theorem Represents.congr (h : Represents site v L s) (hlocks : s'.locks = L')
    (hmounts : s'.mounts = s.mounts) (hdir : ∀ k, s'.dir k = s.dir k)
    (hout : ∀ q, (s.outside q).isSome = true → (s'.outside q).isSome = true) :
    Represents site v L' s' := by
  have hat : ∀ p, s'.mountsAt p = s.mountsAt p := fun p => by simp only [NodeState.mountsAt, hmounts]
  refine ⟨hlocks, h.apart, fun q hq => ?_, fun q hq hm => ?_, fun k => ?_, fun m hm => ?_⟩
  · rw [hat]
    exact h.mounts q hq
  · exact hout q (h.present q hq (by rwa [mounted_eq_of_mountsAt (hat _)] at hm))
  · exact (h.shared k).congr ⟨hdir k, hat _⟩
  · exact h.known m (hmounts ▸ hm)

/-- A node represents the same volumes with other locks. -/
theorem Represents.setLocks (h : Represents site v L s) (locks : Finset String) :
    Represents site v locks { s with locks := locks } :=
  h.congr rfl rfl (fun _ => rfl) fun _ hq => hq

/-- Making a directory outside the keys does not change the volumes. -/
theorem Represents.mkdirAll_outside (h : Represents site v L s) (q : String) :
    Represents site v L (s.mkdirAll (.outside q)) := by
  simp only [NodeState.mkdirAll]
  split
  · exact h
  refine h.congr h.locks rfl (fun _ => rfl) fun q' hq' => ?_
  by_cases heq : q' = q
  · subst heq
    simp
  · simpa [Function.update_of_ne heq] using hq'

/-- The directory that is made is there. -/
theorem isSome_mkdirAll_outside (s : NodeState) (q : String) :
    ((s.mkdirAll (.outside q)).outside q).isSome = true := by
  simp only [NodeState.mkdirAll]
  split
  · assumption
  · simp

/-- The ownership of a filesystem's root does not change the volumes. -/
theorem Represents.setOwnership (h : Represents site v L s) (d : String) (g : Option Int) :
    Represents site v L (setOwnership s d g) :=
  h.congr ((locks_setOwnership s d g).trans h.locks) (mounts_setOwnership s d g)
    (dir_setOwnership s d g) fun q hq => by cases g <;> exact hq

/-- A path of kubelet is mounted when something is staged or bound there. -/
theorem Represents.mounted_outside (h : Represents site v L s) (hq : site.kubelet q) :
    s.mounted (.outside q) = ((v.staged q).isSome || (v.bound q).isSome) := by
  have hm := congrArg List.isEmpty (h.mounts q hq)
  rw [List.isEmpty_map] at hm
  unfold NodeState.mounted
  rw [hm]
  cases v.staged q <;> cases v.bound q <;> rfl

/-- A path of the kubelet has at most one mount. -/
theorem Represents.single_outside (h : Represents site v L s) (hq : site.kubelet q) :
    (s.mountsAt (.outside q)).length ≤ 1 := by
  rw [← List.length_map (·.device), h.mounts q hq]
  rcases h.apart q with hnone | hnone
  · rw [hnone]
    cases v.bound q <;> simp
  rw [hnone]
  cases v.staged q <;> simp

/-- Nothing is mounted on files and on directories other than these. -/
theorem Represents.not_mounted (h : Represents site v L s) (hout : ∀ q, p ≠ .outside q)
    (hmount : ∀ k, p ≠ .mount k) : s.mounted p = false := by
  have hnil : s.mountsAt p = [] := by
    refine List.filter_eq_nil_iff.mpr fun m hm hp => ?_
    have hpath : m.path = p := by simpa using hp
    rcases h.known m hm with ⟨k, hk⟩ | ⟨q, hq, -⟩
    · exact hmount k (hpath.symm.trans hk)
    · exact hout q (hpath.symm.trans hq)
  simp [NodeState.mounted, hnil]

/-! ## Bind mounts show what is mounted at their source -/

/-- The device of a bind mount, when only one path has the name of its source. -/
theorem deviceOf_render (hdevice : (s.mountsAt p).map (·.device) = [d])
    (honly : ∀ m ∈ s.mounts, m.path.render = p.render → m.path = p) (hbind : "bind" ∈ options) :
    s.deviceOf p.render options = d := by
  have hfind : s.mounts.find? (fun m => decide (m.path.render = p.render)) = (s.mountsAt p).head? := by
    rw [← List.head?_filter]
    refine congrArg List.head? (List.filter_congr fun m hm => ?_)
    refine decide_eq_decide.mpr ⟨honly m hm, fun hp => by rw [hp]⟩
  unfold NodeState.deviceOf
  rw [if_pos hbind, hfind, ← List.head?_map, hdevice]
  rfl

/-- A bind mount of a key's path is of the shared device. -/
theorem Represents.deviceOf_mount (h : Represents site v L s) (hg : v.shared k = some g)
    (hbind : "bind" ∈ options) :
    s.deviceOf (Path.mount k).render options = g.device := by
  have hshared := h.shared k
  rw [hg] at hshared
  refine deviceOf_render hshared.1 (fun m hm hrender => ?_) hbind
  rcases h.known m hm with ⟨k', hk'⟩ | ⟨q, hq, hsite⟩
  · rw [hk'] at hrender ⊢
    rw [Path.key_eq_of_render_eq rfl rfl hrender]
  rw [hq] at hrender
  rcases hsite with hkubelet | ⟨-, hne⟩
  · exact absurd hrender (site.not_mount q hkubelet k)
  · exact absurd hrender (hne k)

/-- A bind mount of a staging path is of the staged device. -/
theorem Represents.deviceOf_staged (h : Represents site v L s) (hq : site.kubelet q)
    (hd : v.staged q = some d) (hbind : "bind" ∈ options) : s.deviceOf q options = d := by
  have hbound : v.bound q = none := by simpa [hd] using h.apart q
  have hdevice := h.mounts q hq
  rw [hd, hbound] at hdevice
  refine deviceOf_render (p := .outside q) hdevice (fun m hm hrender => ?_) hbind
  rcases h.known m hm with ⟨k', hk'⟩ | ⟨q', hq', -⟩
  · rw [hk'] at hrender
    exact absurd hrender.symm (site.not_mount q hq k')
  rw [hq'] at hrender ⊢
  exact congrArg Path.outside hrender

/-! ## Changes at a path of kubelet -/

/-- The volumes differ at one path only. -/
structure SameElsewhere (q : String) (v v' : Volumes) : Prop where
  staged : ∀ q', q' ≠ q → v'.staged q' = v.staged q'
  bound : ∀ q', q' ≠ q → v'.bound q' = v.bound q'
  shared : v'.shared = v.shared

/-- An unstaging changes nothing elsewhere. -/
theorem sameElsewhere_unstage (v : Volumes) (q : String) : SameElsewhere q v (v.unstage q) :=
  ⟨fun _ h => Function.update_of_ne h _ _, fun _ _ => rfl, rfl⟩

/-- The end of a bind mount changes nothing elsewhere. -/
theorem sameElsewhere_unbind (v : Volumes) (q : String) : SameElsewhere q v (v.unbind q) :=
  ⟨fun _ _ => rfl, fun _ h => Function.update_of_ne h _ _, rfl⟩

/-- A change of the node at one path of kubelet. -/
theorem Represents.atPath (h : Represents site v L s) (hv : SameElsewhere q v v')
    (hlocks : s'.locks = L) (hapart : v'.staged q = none ∨ v'.bound q = none)
    (hdevices : (s'.mountsAt (.outside q)).map (·.device) =
      (v'.staged q).toList ++ (v'.bound q).toList)
    (hpresent : s'.mounted (.outside q) = true → (s'.outside q).isSome = true)
    (hmounts : ∀ p, p ≠ .outside q → s'.mountsAt p = s.mountsAt p)
    (hout : ∀ q', q' ≠ q → s'.outside q' = s.outside q') (hdir : ∀ k, s'.dir k = s.dir k)
    (hknown : ∀ m ∈ s'.mounts, m ∈ s.mounts ∨ (m.path = .outside q ∧ site.kubelet q)) :
    Represents site v' L s' := by
  refine ⟨hlocks, fun q' => ?_, fun q' hq' => ?_, fun q' hq' hm => ?_, fun k => ?_, fun m hm => ?_⟩
  · by_cases heq : q' = q
    · exact heq ▸ hapart
    · rw [hv.staged q' heq, hv.bound q' heq]
      exact h.apart q'
  · by_cases heq : q' = q
    · exact heq ▸ hdevices
    · rw [hv.staged q' heq, hv.bound q' heq, hmounts _ (by simpa using heq)]
      exact h.mounts q' hq'
  · by_cases heq : q' = q
    · exact heq ▸ hpresent (heq ▸ hm)
    · rw [hout q' heq]
      exact h.present q' hq' (by rwa [mounted_eq_of_mountsAt (hmounts _ (by simpa using heq))] at hm)
  · rw [hv.shared]
    exact (h.shared k).congr ⟨hdir k, hmounts _ (by simp)⟩
  · rcases hknown m hm with hold | ⟨hpath, hq⟩
    · exact h.known m hold
    · exact .inr ⟨q, hpath, .inl hq⟩

/-- A mount on a path of kubelet where nothing is. -/
theorem Represents.attach_outside (h : Represents site v L s) {source fstype : String}
    (hq : site.kubelet q) (hpresent : (s.outside q).isSome = true)
    (hnone : v.staged q = none ∧ v.bound q = none) (hdevice : s.deviceOf source options = d)
    (hv : SameElsewhere q v v') (hapart : v'.staged q = none ∨ v'.bound q = none)
    (hd : (v'.staged q).toList ++ (v'.bound q).toList = [d]) :
    Represents site v' L (s.attach source (.outside q) fstype options) := by
  have hnil : s.mountsAt (.outside q) = [] := by
    have hm := h.mounts q hq
    rw [hnone.1, hnone.2] at hm
    simpa using hm
  refine h.atPath hv h.locks hapart ?_ (fun _ => hpresent)
    (fun p hp => mountsAt_attach_of_ne _ hp _ _ _) (fun _ _ => rfl) (fun _ => rfl) fun m hm => ?_
  · rw [mountsAt_attach_self, hnil, hd, ← hdevice]
    rfl
  · rcases List.mem_cons.mp hm with rfl | hm
    · exact .inr ⟨rfl, hq⟩
    · exact .inl hm

/-- A path of kubelet is unmounted. -/
theorem Represents.unmounted_outside (h : Represents site v L s) (hq : site.kubelet q)
    (hv : SameElsewhere q v v') (hnone : v'.staged q = none ∧ v'.bound q = none) :
    Represents site v' L (unmounted s (.outside q)) := by
  have hlen := h.single_outside hq
  unfold unmounted
  split
  · have htail : ((s.detach (.outside q)).erase (.outside q)).mountsAt (.outside q) = [] := by
      have hdetach : ((s.detach (.outside q)).erase (.outside q)).mountsAt (.outside q) =
          (s.detach (.outside q)).mountsAt (.outside q) := rfl
      rw [hdetach, mountsAt_detach_self]
      exact List.eq_nil_of_length_eq_zero (by rw [List.length_tail]; omega)
    refine h.atPath hv h.locks (.inl hnone.1) ?_ (fun hm => ?_)
      (fun p hp => mountsAt_detach_of_ne s hp) (fun q' hq' => Function.update_of_ne hq' _ _)
      (fun _ => rfl) fun m hm => .inl (List.mem_of_mem_eraseP hm)
    · rw [htail, hnone.1, hnone.2]
      rfl
    · simp [NodeState.mounted, htail] at hm
  · rename_i habsent
    have hm : s.mounted (.outside q) = false := by
      by_contra hm
      exact habsent (h.present q hq (by simpa using hm))
    have hnil : s.mountsAt (.outside q) = [] := by simpa [NodeState.mounted] using hm
    refine h.atPath hv h.locks (.inl hnone.1) ?_ (h.present q hq) (fun _ _ => rfl) (fun _ _ => rfl)
      (fun _ => rfl) fun m hm => .inl hm
    rw [hnil, hnone.1, hnone.2]
    rfl

/-! ## Changes at a key -/

/-- A change of the node at one key. -/
theorem Represents.atKey (h : Represents site v L s) (hlocks : s'.locks = L)
    (hstaged : v'.staged = v.staged) (hbound : v'.bound = v.bound)
    (hshared : ∀ k', k' ≠ k → v'.shared k' = v.shared k') (hkey : SharedAt s' k (v'.shared k))
    (hothers : ∀ k', k' ≠ k → SameKey k' s s')
    (hmounts : ∀ q, s'.mountsAt (.outside q) = s.mountsAt (.outside q))
    (hout : s'.outside = s.outside) (hknown : ∀ m ∈ s'.mounts, m ∈ s.mounts ∨ m.path = .mount k) :
    Represents site v' L s' := by
  refine ⟨hlocks, fun q => ?_, fun q hq => ?_, fun q hq hm => ?_, fun k' => ?_, fun m hm => ?_⟩
  · rw [hstaged, hbound]
    exact h.apart q
  · rw [hstaged, hbound, hmounts]
    exact h.mounts q hq
  · rw [hout]
    exact h.present q hq (by rwa [mounted_eq_of_mountsAt (hmounts q)] at hm)
  · by_cases hk : k' = k
    · exact hk ▸ hkey
    · rw [hshared k' hk]
      exact (h.shared k').congr (hothers k' hk)
  · rcases hknown m hm with hold | hpath
    · exact h.known m hold
    · exact .inl ⟨k, hpath⟩

/-- What the node has for a key after `ensureGlobalMount`, and that it is the same elsewhere. -/
structure Ensured (s : NodeState) (k : Key) (token source : String) (s' : NodeState) : Prop where
  locks : s'.locks = s.locks
  outside : s'.outside = s.outside
  others : ∀ k', k' ≠ k → SameKey k' s s'
  dir : s'.dir k = some ⟨true, some (((s.dir k).bind (·.refs)).getD ∅), some token, none⟩
  mounts : ∀ q, s'.mountsAt (.outside q) = s.mountsAt (.outside q)
  devices : (s'.mountsAt (.mount k)).map (·.device) =
    if s.mounted (.mount k) then (s.mountsAt (.mount k)).map (·.device) else [source]
  known : ∀ m ∈ s'.mounts, m ∈ s.mounts ∨ m.path = .mount k

/-- The mount of a key that is ensured is as the volumes expect it. -/
theorem ensured_spec (s : NodeState) (k : Key) (token source : String)
    (hplain : s.mounted (.mount k) = false → "bind" ∉ options) :
    Ensured s k token source (ensured s k token source options) := by
  have hothers : ∀ k', k' ≠ k → SameKey k' s (replaceToken (makeDirs s k) k token) := by
    intro k' hk
    simp only [replaceToken, makeDirs, NodeState.putFile, NodeState.erase, NodeState.mkdirAll,
      modifyKey_modifyKey]
    exact .modifyKey s hk _
  have hdir := dir_replaceToken_makeDirs s k token
  unfold ensured
  cases hm : s.mounted (.mount k) with
  | true => exact ⟨rfl, rfl, hothers, hdir, fun _ => rfl, by rw [if_pos hm]; rfl, fun m hm => .inl hm⟩
  | false =>
    have hnil : s.mountsAt (.mount k) = [] := by simpa [NodeState.mounted] using hm
    refine ⟨rfl, rfl, fun k' hk => ⟨(hothers k' hk).dir, ?_⟩, hdir, fun q => ?_, ?_, fun m hm => ?_⟩
    · exact (mountsAt_attach_of_ne _ (by simpa using hk) _ _ _).trans (hothers k' hk).mounts
    · exact mountsAt_attach_of_ne _ (by simp) _ _ _
    · have hold : (replaceToken (makeDirs s k) k token).mountsAt (.mount k) = [] := hnil
      simp only [hm, Bool.false_eq_true, if_false]
      rw [mountsAt_attach_self, hold, NodeState.deviceOf, if_neg (hplain hm)]
      rfl
    · rcases List.mem_cons.mp hm with rfl | hm
      · exact .inr rfl
      · exact .inl hm

/-- The state after `addPodReference`. -/
def referenced (s : NodeState) (k : Key) (u volumeID : String) : NodeState :=
  if s.pathPresent (.ref k u) then s else s.putFile (.ref k u) volumeID

/-- The reference is there, and the others are as they were. -/
theorem dir_referenced (u volumeID : String) {d : KeyDir} {rs : AList fun _ : String => String}
    (hd : s.dir k = some d) (hrs : d.refs = some rs) :
    ∃ rs', (referenced s k u volumeID).dir k = some { d with refs := some rs' } ∧
      ∀ u', u' ∈ rs' ↔ u' = u ∨ u' ∈ rs := by
  unfold referenced
  split
  · rename_i href
    have hu : u ∈ rs := by simpa [NodeState.pathPresent, hd, hrs] using href
    refine ⟨rs, by rw [hd, ← hrs], fun u' => ⟨.inr, ?_⟩⟩
    rintro (rfl | hmem)
    · exact hu
    · exact hmem
  · refine ⟨rs.insert u volumeID, ?_, fun u' => AList.mem_insert rs⟩
    simp [NodeState.putFile, hd, hrs]

/-- A pod comes to use a key. -/
theorem Represents.join (h : Represents site v L s) {token source : String}
    (he : Ensured s k token source s') (u volumeID : String) :
    Represents site (v.join k source u) L (referenced s' k u volumeID) := by
  obtain ⟨rs', hdir, hrs'⟩ := dir_referenced u volumeID he.dir rfl
  have hsame : ∀ k', k' ≠ k → SameKey k' s' (referenced s' k u volumeID) := by
    intro k' hk
    unfold referenced
    split
    · exact .refl k' s'
    · exact putFile_sameKey s' (by simpa [Path.key?] using Ne.symm hk) _
  have hmounts : (referenced s' k u volumeID).mounts = s'.mounts := by
    unfold referenced
    split <;> rfl
  have hat : ∀ p, (referenced s' k u volumeID).mountsAt p = s'.mountsAt p := fun p => by
    simp only [NodeState.mountsAt, hmounts]
  refine h.atKey ?_ rfl rfl (fun k' hk => Function.update_of_ne hk _ _) ?_
    (fun k' hk => (he.others k' hk).trans (hsame k' hk)) (fun q => (hat _).trans (he.mounts q)) ?_
    fun m hm => he.known m (hmounts ▸ hm)
  · unfold referenced
    split <;> exact he.locks.trans h.locks
  · have hjoin : (v.join k source u).shared k = some (v.joined k source u) :=
      Function.update_self _ _ _
    have hshared := h.shared k
    rw [hjoin]
    refine ⟨?_, rs', token, hdir, fun u' => (hrs' u').trans ?_⟩
    · rw [hat, he.devices]
      cases hg : v.shared k with
      | none =>
        rw [hg] at hshared
        simp [NodeState.mounted, hshared.2, Volumes.joined, hg]
      | some g =>
        rw [hg] at hshared
        simp [hshared.mounted, hshared.1, Volumes.joined, hg, Shared.join]
    · cases hg : v.shared k with
      | none =>
        rw [hg] at hshared
        simp [hshared.1, Volumes.joined, hg]
      | some g =>
        rw [hg] at hshared
        obtain ⟨-, rs, token', hd, hmem⟩ := hshared
        simp [hd, Volumes.joined, hg, Shared.join, hmem]
  · unfold referenced
    split <;> exact he.outside

/-! ## Programs that lead from volumes to volumes -/

/-- Without faults the program succeeds and leads from the one to the other. -/
def Leads {ε : Type} (site : Site) (L : Finset String) (v : Volumes) (p : NodeM (Option ε))
    (v' : Volumes) : Prop :=
  ∀ s, Represents site v L s → Faultless p (fun r s' => r = none ∧ Represents site v' L s') s

/-- A body leads to the same volumes under a lock that is free. -/
theorem Leads.withLock {ε : Type} {x : String} {refused : ε} {body : NodeM (Option ε)} (hx : x ∉ L)
    (hbody : Leads site (insert x L) v body v') : Leads site L v (withLock x refused body) v' := by
  intro s h
  refine cooperative_faultless.withLock (h.locks ▸ hx) ((hbody _ (h.locks ▸ h.setLocks _)).mono ?_)
  rintro r s₁ ⟨hr, hs₁⟩
  refine ⟨hr, ?_⟩
  have hlocks : s₁.locks.erase x = L := by rw [hs₁.locks, Finset.erase_insert hx]
  exact hlocks ▸ hs₁.setLocks _

/-- Unmounting a path of the kubelet leads to volumes without it. -/
theorem leads_unmountPath (hq : site.kubelet q) (hv : SameElsewhere q v v')
    (hnone : v'.staged q = none ∧ v'.bound q = none) :
    Leads site L v (unmountPath srv (.outside q)) v' := by
  intro s h
  refine (faultless_unmountPath (h.present q hq) (h.single_outside hq) rfl).mono ?_
  rintro r _ ⟨rfl, rfl⟩
  exact ⟨rfl, h.unmounted_outside hq hv hnone⟩

/-! ## A pod leaves its keys -/

/-- Nothing is left of a key, and the rest is as it was. -/
structure Released (s : NodeState) (k : Key) (s' : NodeState) : Prop where
  locks : s'.locks = s.locks
  outside : s'.outside = s.outside
  others : ∀ k', k' ≠ k → SameKey k' s s'
  dir : s'.dir k = none
  mounts : s'.mountsAt (.mount k) = []
  elsewhere : ∀ q, s'.mountsAt (.outside q) = s.mountsAt (.outside q)
  known : ∀ m ∈ s'.mounts, m ∈ s.mounts

/-- Removing a file or an empty directory on which nothing is mounted. -/
theorem faultless_remove (hp : s.pathPresent p = true) (huse : s.dirInUse p = false)
    (hm : s.mounted p = false) :
    Faultless (perform (.remove p)) (fun r s' => r = none ∧ s' = s.erase p) s := by
  have hexec : s.exec (.remove p) .ok = some (none, s.erase p) := by
    simp [NodeState.exec, NodeState.removeOne, hp, huse, hm]
  exact faultless_ok (fun _ => Iff.rfl) hexec ⟨rfl, rfl⟩

/-- The mount of a key that is in use stays. -/
theorem faultless_releaseGlobalMount_inUse (hp : s.pathPresent (.refs k) = true)
    (huse : s.dirInUse (.refs k) = true) :
    Faultless (releaseGlobalMount srv k) (fun r s' => r = none ∧ s' = s) s := by
  have hexec : s.exec (.remove (.refs k)) .ok = some (some ⟨.notEmpty, "directory not empty"⟩, s) := by
    simp [NodeState.exec, NodeState.removeOne, hp, huse]
  refine .bind (faultless_ok (Q := fun r s' => r = some ⟨.notEmpty, "directory not empty"⟩ ∧ s' = s)
    (fun _ => Iff.rfl) hexec ⟨rfl, rfl⟩) ?_
  rintro _ s ⟨rfl, rfl⟩
  exact .pure ⟨rfl, rfl⟩

/-- The mount of a key that is no longer in use goes, and its directory with it. -/
theorem faultless_releaseGlobalMount_last {token : Option String}
    {rs : AList fun _ : String => String} (hd : s.dir k = some ⟨true, some rs, token, none⟩)
    (hlast : rs.keys = []) (hm : s.mounted (.refs k) = false)
    (hsingle : (s.mountsAt (.mount k)).length ≤ 1) :
    Faultless (releaseGlobalMount srv k) (fun r s' => r = none ∧ Released s k s') s := by
  refine .bind (faultless_remove (p := .refs k) (by simp [NodeState.pathPresent, hd])
    (by simp [NodeState.dirInUse, hd, hlast]) hm) ?_
  rintro _ _ ⟨rfl, rfl⟩
  have hpresent : (s.erase (.refs k)).pathPresent (.mount k) = true := by
    simp [NodeState.pathPresent, NodeState.erase, hd]
  refine .bind (faultless_unmountPath (fun _ => hpresent) hsingle rfl) ?_
  rintro _ s₂ ⟨rfl, hs₂⟩
  rw [unmounted, if_pos hpresent] at hs₂
  have hdir₂ : (s₂.dir k).isNone = false := by
    rw [hs₂]
    simp [NodeState.erase]
  have hnil : s₂.mountsAt (.mount k) = [] := by
    have htail : s₂.mountsAt (.mount k) = (s.mountsAt (.mount k)).tail := by
      rw [hs₂]
      exact mountsAt_detach_self _ _
    rw [htail]
    exact List.eq_nil_of_length_eq_zero (by rw [List.length_tail]; omega)
  have hexec : s₂.exec (.removeAll k) .ok = some (none, { s₂ with keys := s₂.keys.erase k }) := by
    simp [NodeState.exec, hdir₂, NodeState.mounted, hnil]
  refine .bind (faultless_ok (Q := fun r s' => r = none ∧ s' = { s₂ with keys := s₂.keys.erase k })
    (fun _ => Iff.rfl) hexec ⟨rfl, rfl⟩) ?_
  rintro _ _ ⟨rfl, rfl⟩
  refine .pure ⟨rfl, by rw [hs₂]; rfl, by rw [hs₂]; rfl, fun k' hk => ?_, ?_, hnil, fun q => ?_, fun m hm => ?_⟩
  · refine .trans ?_ (SameKey.eraseKey s₂ hk)
    have hkey : some k ≠ some k' := fun heq => hk (Option.some.inj heq).symm
    rw [hs₂]
    exact ((erase_sameKey s (p := .refs k) hkey).trans (detach_sameKey _ (p := .mount k) hkey)).trans
      (erase_sameKey _ (p := .mount k) hkey)
  · exact AList.lookup_erase _ _
  · change s₂.mountsAt _ = _
    rw [hs₂]
    exact mountsAt_detach_of_ne _ (by simp)
  · have hmem : m ∈ s₂.mounts := hm
    rw [hs₂] at hmem
    exact List.mem_of_mem_eraseP hmem

/-- A pod gives up a key that it uses. -/
theorem leads_cleanUpReference (hg : v.shared k = some g) (hu : u ∈ g.users) (hk : k.name ∉ L) :
    Leads site L v (cleanUpIAMReferenceForKey srv k (.ref k u)) (v.leaveKeys [k] u) := by
  refine Leads.withLock hk fun s h => ?_
  obtain ⟨hdevices, rs, token, hd, hmem⟩ : SharedAt s k (some g) := hg ▸ h.shared k
  have hleave : (v.leaveKeys [k] u).shared k = g.leave u := by simp [Volumes.leaveKeys, hg]
  have hothers : ∀ k', k' ≠ k → (v.leaveKeys [k] u).shared k' = v.shared k' := fun k' hk' => by
    simp [Volumes.leaveKeys, hk']
  have hsame : ∀ k', k' ≠ k → SameKey k' s (s.erase (.ref k u)) := fun k' hk' =>
    erase_sameKey s (p := .ref k u) fun heq => hk' (Option.some.inj heq).symm
  refine .bind (faultless_remove (p := .ref k u)
    (by simpa [NodeState.pathPresent, hd] using (hmem u).mpr hu) rfl
    (h.not_mounted (by simp) (by simp))) ?_
  rintro _ _ ⟨rfl, rfl⟩
  have hd₁ : (s.erase (.ref k u)).dir k = some ⟨true, some (rs.erase u), some token, none⟩ := by
    simp [NodeState.erase, hd]
  have hmem₁ : ∀ u', u' ∈ rs.erase u ↔ u' ∈ g.users.erase u := fun u' => by
    rw [AList.mem_erase, Finset.mem_erase, hmem]
  by_cases hlast : (rs.erase u).keys = []
  · -- The last user is gone.
    have hnone : g.leave u = none := by
      refine dif_neg ?_
      rintro ⟨u', hu'⟩
      have hkey : u' ∈ (rs.erase u).keys := AList.mem_keys.mp ((hmem₁ u').mpr hu')
      simp [hlast] at hkey
    have hsingle : (s.mountsAt (.mount k)).length ≤ 1 := by
      rw [← List.length_map (·.device), hdevices]
      exact le_refl 1
    refine (faultless_releaseGlobalMount_last hd₁ hlast (h.not_mounted (by simp) (by simp))
      hsingle).mono ?_
    rintro r s' ⟨rfl, hs'⟩
    refine ⟨rfl, h.atKey (hs'.locks.trans h.locks) rfl rfl hothers ?_
      (fun k' hk' => (hsame k' hk').trans (hs'.others k' hk')) hs'.elsewhere hs'.outside
      fun m hm => .inl (hs'.known m hm)⟩
    rw [hleave, hnone]
    exact ⟨hs'.dir, hs'.mounts⟩
  · have hne : (g.users.erase u).Nonempty := by
      obtain ⟨u', hu'⟩ := List.exists_mem_of_ne_nil _ hlast
      exact ⟨u', (hmem₁ u').mp (AList.mem_keys.mpr hu')⟩
    refine (faultless_releaseGlobalMount_inUse (by simp [NodeState.pathPresent, hd₁])
      (by simpa [NodeState.dirInUse, hd₁] using hlast)).mono ?_
    rintro r _ ⟨rfl, rfl⟩
    refine ⟨rfl, h.atKey h.locks rfl rfl hothers ?_ hsame (fun _ => rfl) rfl
      fun m hm => .inl hm⟩
    rw [hleave, Shared.leave, dif_pos hne]
    exact ⟨hdevices, rs.erase u, token, hd₁, hmem₁⟩

/-- Leaving one key after another. -/
theorem leaveKeys_cons {ks : List Key} (hk : k ∉ ks) (v : Volumes) (u : String) :
    (v.leaveKeys [k] u).leaveKeys ks u = v.leaveKeys (k :: ks) u := by
  have hshared : ∀ k', (if k' ∈ ks then
      (if k' ∈ [k] then (v.shared k').bind (·.leave u) else v.shared k').bind (·.leave u)
      else if k' ∈ [k] then (v.shared k').bind (·.leave u) else v.shared k') =
      if k' ∈ k :: ks then (v.shared k').bind (·.leave u) else v.shared k' := by
    intro k'
    by_cases heq : k' = k
    · subst heq
      simp [hk]
    · simp [heq]
  simp only [Volumes.leaveKeys, hshared]

/-- A pod gives up one key after another. -/
theorem faultless_cleanUpReferences (hu : u ≠ "") (hsep : ∀ c ∈ u.toList, notSeparator c = true)
    (hL : ∀ k : Key, k.name ∉ L) {ks : List Key} (hnodup : ks.Nodup)
    (hks : ∀ k ∈ ks, ∃ g, v.shared k = some g ∧ u ∈ g.users) (h : Represents site v L s) :
    Faultless (cleanUpReferences srv (ks.map (.ref · u)))
      (fun errs s' => errs = [] ∧ Represents site (v.leaveKeys ks u) L s') s := by
  induction ks generalizing v s with
  | nil => exact .pure ⟨rfl, by simpa [Volumes.leaveKeys] using h⟩
  | cons k ks ih =>
    obtain ⟨hk, hnodup⟩ := List.nodup_cons.mp hnodup
    obtain ⟨g, hg, hmem⟩ := hks k List.mem_cons_self
    simp only [List.map_cons, cleanUpReferences, extractKey_ref k hu hsep]
    refine .bind (leads_cleanUpReference hg hmem (hL k) s h) ?_
    rintro _ s₁ ⟨rfl, hs₁⟩
    refine .bind (ih hnodup (fun k' hk' => ?_) hs₁) ?_
    · obtain ⟨g', hg', hmem'⟩ := hks k' (List.mem_cons_of_mem _ hk')
      have hne : k' ≠ k := fun heq => hk (heq ▸ hk')
      exact ⟨g', by simpa [Volumes.leaveKeys, hne] using hg', hmem'⟩
    · rintro _ s₂ ⟨rfl, hs₂⟩
      exact .pure ⟨rfl, leaveKeys_cons hk v u ▸ hs₂⟩

/-- A pod gives up all its keys. -/
theorem leads_cleanUpIAMReference {target : String} (hpod : getPodUIDFromTargetPath target = some u)
    (hplain : PlainUID u) (hL : ∀ k : Key, k.name ∉ L) :
    Leads site L v (cleanUpIAMReference srv target) (v.leave u) := by
  intro s h
  have hback : '\\' ∉ u.toList := fun hc => by simpa using hplain _ hc
  have huser : ∀ k, s.pathPresent (.ref k u) = true ↔ ∃ g, v.shared k = some g ∧ u ∈ g.users := by
    intro k
    have hshared := h.shared k
    cases hg : v.shared k with
    | none =>
      rw [hg] at hshared
      simp [NodeState.pathPresent, hshared.1]
    | some g =>
      rw [hg] at hshared
      obtain ⟨-, rs, token, hd, hmem⟩ := hshared
      simp [NodeState.pathPresent, hd, hmem]
  simp only [cleanUpIAMReference, hpod]
  refine .bind (faultless_globPodReferences u) ?_
  rintro _ s ⟨rfl, ks, hnodup, rfl, hks⟩
  refine .bind (faultless_cleanUpReferences (getPodUIDFromTargetPath_spec hpod).2.1
    (notSeparator_of_uid hpod hback) hL hnodup (fun k hk => (huser k).mp ((hks k).mp hk)) h) ?_
  rintro _ s₁ ⟨rfl, hs₁⟩
  refine .pure ⟨rfl, ?_⟩
  rwa [Volumes.leaveKeys_eq_leave fun k g hg hu => (hks k).mpr ((huser k).mpr ⟨g, hg, hu⟩)] at hs₁

/-! ## Staging -/

/-- Every mount on the node is accounted for. -/
theorem Represents.device_cases (h : Represents site v L s) {m : MountPoint} (hm : m ∈ s.mounts) :
    (∃ k g, v.shared k = some g ∧ m.device = g.device) ∨ (∃ q, v.staged q = some m.device) ∨
      (∃ q, v.bound q = some m.device) ∨ m.device ∈ site.foreign := by
  have hat : ∀ p, m.path = p → m.device ∈ (s.mountsAt p).map (·.device) := fun p hp =>
    List.mem_map_of_mem (List.mem_filter.mpr ⟨hm, by simpa using hp⟩)
  rcases h.known m hm with ⟨k, hk⟩ | ⟨q, hq, hkubelet | ⟨hforeign, -⟩⟩
  · have hdevice := hat _ hk
    have hshared := h.shared k
    cases hg : v.shared k with
    | none =>
      rw [hg] at hshared
      simp [hshared.2] at hdevice
    | some g =>
      rw [hg] at hshared
      rw [hshared.1, List.mem_singleton] at hdevice
      exact .inl ⟨k, g, hg, hdevice⟩
  · have hdevice := hat _ hq
    rw [h.mounts q hkubelet, List.mem_append, Option.mem_toList, Option.mem_toList] at hdevice
    rcases hdevice with hstaged | hbound
    · exact .inr (.inl ⟨q, hstaged⟩)
    · exact .inr (.inr (.inl ⟨q, hbound⟩))
  · exact .inr (.inr (.inr hforeign))

/-- The check for a second mount of a file system finds nothing if its name is free. -/
theorem faultless_hasMountWithSameFSName (h : Represents site v L s)
    (hfree : v.FreeName site fsname) :
    Faultless (hasMountWithSameFSName fsname) (fun r s' => r = .ok false ∧ s' = s) s := by
  have hany : (s.mounts.reverse.any fun m => decide (extractFSName m.device = fsname)) = false := by
    rw [List.any_reverse, List.any_eq_false]
    intro m hm hname
    have hname : extractFSName m.device = fsname := by simpa using hname
    rcases h.device_cases hm with ⟨k, g, hg, hd⟩ | ⟨q, hq⟩ | ⟨q, hq⟩ | hforeign
    · exact hfree.shared k g hg (hd ▸ hname)
    · exact hfree.staged q _ hq hname
    · exact hfree.bound q _ hq hname
    · exact hfree.foreign _ hforeign hname
  refine .bind (faultless_ok (o := .list) (Q := fun r s' => r = .ok s.mounts.reverse ∧ s' = s)
    (fun _ => Iff.rfl) rfl ⟨rfl, rfl⟩) ?_
  rintro _ s ⟨rfl, rfl⟩
  exact .pure ⟨by rw [hany], rfl⟩

/-- What is staged stays staged. -/
theorem stage_of_staged (h : v.staged q = some d) (d' : String) : v.stage q d' = v := by
  simp only [Volumes.stage, h, Option.getD_some]
  rw [← h, Function.update_eq_self]

/-- What is bound stays bound. -/
theorem bind_of_bound (h : v.bound q = some d) (d' : String) : v.bind q d' = v := by
  simp only [Volumes.bind, h, Option.getD_some]
  rw [← h, Function.update_eq_self]

/-- Only a bind mount has the option. -/
theorem bind_notMem_addMountFlags (hoptions : "bind" ∉ options)
    (hflags : "bind" ∉ volCap.mountFlags) :
    "bind" ∉ addMountFlags options volCap := by
  obtain ⟨more, hmore, hmem⟩ := addMountFlags_append options volCap
  rw [hmore, List.mem_append]
  rintro (h | h)
  · exact hoptions h
  · exact hflags (hmem _ h)

/-- The mount of a key is not a bind mount, unless a mount flag makes it one. -/
theorem bind_notMem_globalOptions (principal : String) (k : Key)
    (hflags : "bind" ∉ volCap.mountFlags) : "bind" ∉ globalOptions principal k volCap := by
  refine bind_notMem_addMountFlags (fun h => ?_) hflags
  have hhead := congrArg (fun text => text.toList.head?) (List.mem_singleton.mp h)
  have hliteral : (toString "user_principal=gke-wi://").toList.head? = some 'u' := by decide
  simp [hliteral] at hhead

/-- The mount of a staging leads to the volumes with it staged. -/
theorem leads_mountStaged {ip : String} (hq : site.kubelet q) (hplain : "bind" ∉ volCap.mountFlags)
    (hstaged : v.staged q = none) (hbound : v.bound q = none) :
    Leads site L v (mountStaged srv q ip fsname volCap) (v.stage q (lustreSource ip fsname)) := by
  intro s h
  refine .bind (cooperative_faultless.makeDir _) ?_
  rintro _ _ ⟨rfl, rfl⟩
  have hpresent := isSome_mkdirAll_outside s q
  refine .bind (faultless_mount (p := .outside q) hpresent) ?_
  rintro _ _ ⟨rfl, rfl⟩
  refine .pure ⟨rfl, (h.mkdirAll_outside q).attach_outside hq hpresent ⟨hstaged, hbound⟩ rfl
    ⟨fun _ h => Function.update_of_ne h _ _, fun _ _ => rfl, rfl⟩ (.inr hbound) ?_⟩
  rw [NodeState.deviceOf, if_neg (bind_notMem_addMountFlags (by simp) hplain)]
  simp [Volumes.stage, hstaged, hbound]

/-- A staging that the volumes permit leads to the volumes with it staged. -/
theorem leads_stageLocked {req : NodeStageVolumeRequest} {ip : String}
    (hp : v.PermitsMount site req.stagingTargetPath fsname volCap) :
    Leads site L v (stageLocked srv req ip fsname volCap)
      (v.stage req.stagingTargetPath (lustreSource ip fsname)) := by
  intro s h
  refine .bind (faultless_isMounted (h.present _ hp.kubelet)) ?_
  rintro _ s ⟨rfl, rfl⟩
  rw [h.mounted_outside hp.kubelet, hp.bound]
  cases hstaged : v.staged req.stagingTargetPath with
  | some d =>
    rw [stage_of_staged hstaged]
    exact .pure ⟨rfl, h⟩
  | none =>
    refine .bind (faultless_hasMountWithSameFSName h (hp.free hstaged)) ?_
    rintro _ s ⟨rfl, rfl⟩
    refine .bind (faultless_setUpMultiNIC srv _ _) ?_
    rintro _ s ⟨rfl, rfl⟩
    exact leads_mountStaged hp.kubelet hp.plain hstaged hp.bound s h

/-! ## Publishing -/

/-- The bind options contain the bind option. -/
theorem bind_mem_bindOptions (readonly : Bool) (volCap : VolumeCapability) :
    "bind" ∈ bindOptions readonly volCap := by
  obtain ⟨more, hmore, -⟩ := addMountFlags_append (["bind"] ++ if readonly then ["ro"] else []) volCap
  rw [bindOptions, hmore]
  simp

/-- The mounts of a publish call lead to the volumes, and the target is mounted then. -/
def Publishes (site : Site) (L : Finset String) (target : String) (v : Volumes)
    (p : Bool → NodeM (Option Status)) (v' : Volumes) : Prop :=
  ∀ s, Represents site v L s → (s.outside target).isSome = true →
    Faultless (p (s.mounted (.outside target))) (fun r s' => r = none ∧ Represents site v' L s' ∧
      s'.mounted (.outside target) = true) s

/-- The mount that binds something to a target, unless something is bound there. -/
theorem Represents.bound_target (h : Represents site v L s) {target source : String}
    (hq : site.kubelet target) (hstaged : v.staged target = none)
    (hpresent : (s.outside target).isSome = true) (hdevice : s.deviceOf source options = d)
    (hs' : s' = if s.mounted (.outside target) then s
      else s.attach source (.outside target) "lustre" options) :
    Represents site (v.bind target d) L s' ∧ s'.mounted (.outside target) = true := by
  have hmounted := h.mounted_outside hq
  rw [hstaged, Option.isSome_none, Bool.false_or] at hmounted
  cases hbound : v.bound target with
  | some d' =>
    rw [hbound, Option.isSome_some] at hmounted
    rw [hmounted, if_pos rfl] at hs'
    rw [bind_of_bound hbound, hs']
    exact ⟨h, hmounted⟩
  | none =>
    rw [hbound, Option.isSome_none] at hmounted
    rw [hmounted, if_neg (by simp)] at hs'
    rw [hs']
    refine ⟨h.attach_outside hq hpresent ⟨hstaged, hbound⟩ hdevice
      ⟨fun _ _ => rfl, fun _ h => Function.update_of_ne h _ _, rfl⟩ (.inl hstaged) ?_,
      mounted_attach_self _ _ _ _ _⟩
    simp [Volumes.bind, hstaged, hbound]

/-- A staged volume is bound to its target. -/
theorem publishes_staged (hp : v.PermitsPublish srv site req vc volCap)
    (hiam : isIAM srv vc = false) :
    Publishes site L req.targetPath v (publishMounts srv req vc volCap)
      (v.bind req.targetPath ((v.staged req.stagingTargetPath).getD req.stagingTargetPath)) := by
  intro s h hpresent
  obtain ⟨d, hd⟩ := Option.isSome_iff_exists.mp (hp.legacy hiam).staged
  have hdevice := h.deviceOf_staged (hp.legacy hiam).kubelet hd (bind_mem_bindOptions req.readonly volCap)
  rw [hd, Option.getD_some]
  simp only [publishMounts, hiam, Bool.false_eq_true, if_false]
  cases hm : s.mounted (.outside req.targetPath) with
  | true => exact .pure ⟨rfl, h.bound_target hp.kubelet hp.staged hpresent hdevice (by rw [hm, if_pos rfl])⟩
  | false =>
    refine .bind (faultless_mount (p := .outside req.targetPath) hpresent) ?_
    rintro _ _ ⟨rfl, rfl⟩
    exact .pure ⟨rfl, h.bound_target hp.kubelet hp.staged hpresent hdevice
      (by rw [hm, if_neg (by simp)])⟩

/-- The part of an IAM publish that holds the lock of the key. -/
theorem publishes_locked (hp : v.PermitsPublish srv site req vc volCap)
    (hiam : v.PermitsIAM srv req vc volCap) :
    Publishes site L req.targetPath v
      (fun targetMounted => do
        let id := identityOf srv vc
        let key := keyOf srv req.volumeID vc
        if let some err ← ensureGlobalMount srv req.volumeID (principalOf id.namespace_ id.saName) key vc
          volCap then return some err
        bindPod srv req.volumeID req.targetPath targetMounted id.podUID key
          (bindOptions req.readonly volCap))
      (v.publishIAM (keyOf srv req.volumeID vc) (Volumes.sourceOf srv vc) (identityOf srv vc).podUID
        req.targetPath) := by
  intro s h hpresent
  obtain ⟨token, htoken⟩ := hiam.token
  have hunused : s.mounted (.mount (keyOf srv req.volumeID vc)) = false →
      v.shared (keyOf srv req.volumeID vc) = none := fun hm => by
    cases hg : v.shared (keyOf srv req.volumeID vc) with
    | none => rfl
    | some g =>
      have hshared : SharedAt s _ (some g) := hg ▸ h.shared _
      simp [hshared.mounted] at hm
  have hsource : s.mounted (.mount (keyOf srv req.volumeID vc)) = false →
      ∃ ip fsname, endpointOf srv vc = .ok (ip, fsname) ∧
        Volumes.sourceOf srv vc = lustreSource ip fsname := fun hm => by
    obtain ⟨⟨ip, fsname⟩, hend⟩ := hiam.address (hunused hm)
    exact ⟨ip, fsname, hend, by simp [Volumes.sourceOf, hend]⟩
  refine .bind (faultless_ensureGlobalMount htoken hsource) ?_
  rintro _ s₁ ⟨rfl, hs₁⟩
  have he : Ensured s (keyOf srv req.volumeID vc) token (Volumes.sourceOf srv vc) s₁ := by
    rw [hs₁]
    exact ensured_spec s _ token _ fun _ => bind_notMem_globalOptions _ _ hiam.plain
  have hout : s₁.pathPresent (.outside req.targetPath) = true := by
    rw [NodeState.pathPresent, he.outside]
    exact hpresent
  refine (faultless_bindPod (by simp [NodeState.pathPresent, he.dir]) hout).mono ?_
  rintro r s' ⟨rfl, s₂, hs₂, hs'⟩
  have hjoin := h.join he (identityOf srv vc).podUID req.volumeID
  have hs₂ : s₂ = referenced s₁ (keyOf srv req.volumeID vc) (identityOf srv vc).podUID req.volumeID := hs₂
  rw [← hs₂] at hjoin
  have hmounted : s₂.mounted (.outside req.targetPath) = s.mounted (.outside req.targetPath) := by
    rw [hjoin.mounted_outside hp.kubelet, h.mounted_outside hp.kubelet]
    rfl
  rw [← hmounted] at hs'
  refine ⟨rfl, hjoin.bound_target hp.kubelet hp.staged ?_
    (hjoin.deviceOf_mount (Function.update_self _ _ _) (bind_mem_bindOptions _ _)) hs'⟩
  rw [hs₂, referenced]
  split <;> exact hout

/-- A body publishes the same under a lock that is free. -/
theorem Publishes.withLock {target x : String} {refused : Status} {body : Bool → NodeM (Option Status)}
    (hx : x ∉ L) (hbody : Publishes site (insert x L) target v body v') :
    Publishes site L target v (fun targetMounted => withLock x refused (body targetMounted)) v' := by
  intro s h hpresent
  refine cooperative_faultless.withLock (h.locks ▸ hx)
    ((hbody { s with locks := insert x s.locks } (h.locks ▸ h.setLocks _) hpresent).mono ?_)
  rintro r s₁ ⟨hr, hs₁, hm⟩
  have hlocks : s₁.locks.erase x = L := by rw [hs₁.locks, Finset.erase_insert hx]
  exact ⟨hr, hlocks ▸ hs₁.setLocks _, hm⟩

/-- The mount of the key is bound to the target. -/
theorem publishes_iam (hp : v.PermitsPublish srv site req vc volCap) (hiam : isIAM srv vc = true)
    (hkey : (keyOf srv req.volumeID vc).name ∉ L) :
    Publishes site L req.targetPath v (publishMounts srv req vc volCap)
      (v.publishIAM (keyOf srv req.volumeID vc) (Volumes.sourceOf srv vc) (identityOf srv vc).podUID
        req.targetPath) := by
  have hpi := hp.iam hiam
  intro s h hpresent
  simp only [publishMounts, hiam, if_true, publishIAMVolume, hpi.pod, hpi.namespace_, hpi.saName, if_false]
  exact (publishes_locked hp hpi).withLock hkey s h hpresent

/-- A publish leads to the volumes that its mounts lead to. -/
theorem leads_publishLocked (hp : v.PermitsPublish srv site req vc volCap)
    (hmounts : Publishes site L req.targetPath v (publishMounts srv req vc volCap) v') :
    Leads site L v (publishLocked srv req vc volCap) v' := by
  intro s h
  refine .bind (cooperative_faultless.makeDir _) ?_
  rintro _ s₁ ⟨rfl, hs₁⟩
  have h₁ : Represents site v L s₁ := hs₁ ▸ h.mkdirAll_outside req.targetPath
  have hpresent : (s₁.outside req.targetPath).isSome = true := by
    rw [hs₁, isSome_mkdirAll_outside]
  refine .bind (faultless_isMounted (h₁.present _ hp.kubelet)) ?_
  rintro _ s₁ ⟨rfl, rfl⟩
  refine .bind (hmounts s₁ h₁ hpresent) ?_
  rintro _ s₂ ⟨rfl, h₂, hm⟩
  obtain ⟨d, hd⟩ := topDevice_of_mounted hm
  refine (cooperative_faultless.publishOwnership hd hp.group).mono ?_
  rintro r _ ⟨rfl, rfl⟩
  exact ⟨rfl, h₂.setOwnership d _⟩

/-! ## Calls -/

/-- An unpublish leads to the volumes after it. -/
theorem leads_unpublishLocked {target : String} (hq : site.kubelet target)
    (hstaged : v.staged target = none)
    (hplain : ∀ u, getPodUIDFromTargetPath target = some u → PlainUID u)
    (hL : ∀ k : Key, k.name ∉ L) :
    Leads site L v (unpublishLocked srv target)
      (v.after srv (.unpublish ⟨target⟩)) := by
  intro s h
  refine .bind (leads_unmountPath hq (sameElsewhere_unbind v target)
    ⟨hstaged, Function.update_self _ _ _⟩ s h) ?_
  rintro _ s₁ ⟨rfl, h₁⟩
  cases hpod : getPodUIDFromTargetPath target with
  | none =>
    simp only [cleanUpIAMReference, hpod, Volumes.after]
    exact .pure ⟨rfl, h₁⟩
  | some u =>
    simp only [Volumes.after, hpod]
    refine .bind (leads_cleanUpIAMReference hpod (hplain u hpod) hL s₁ h₁) ?_
    rintro _ s₂ ⟨rfl, h₂⟩
    exact .pure ⟨rfl, h₂⟩

/-- Every call that kubelet may make succeeds, and does to the node what it does to the volumes. -/
theorem represents_after {call : NodeCall} (hp : v.Permits srv site call) :
    Leads site ∅ v (callBody srv call) (v.after srv call) := by
  cases call with
  | stage req =>
    obtain ⟨m, hvalid, hm⟩ := hp
    simp only [callBody, nodeStageVolume, Volumes.after, hvalid]
    rcases m with _ | ⟨ip, fsname, volCap⟩
    · exact fun s h => .pure ⟨rfl, h⟩
    · exact (leads_stageLocked (hm ip fsname volCap rfl)).withLock (Finset.notMem_empty _)
  | unstage req =>
    obtain ⟨hvolume, hpath, hq, hbound⟩ := hp
    simp only [callBody, nodeUnstageVolume, if_neg hvolume, if_neg hpath]
    exact (leads_unmountPath hq (sameElsewhere_unstage v _)
      ⟨Function.update_self _ _ _, hbound⟩).withLock (Finset.notMem_empty _)
  | publish req =>
    obtain ⟨vc, volCap, hp⟩ := hp
    simp only [callBody, nodePublishVolume, Volumes.after, hp.valid]
    refine (leads_publishLocked hp ?_).withLock (Finset.notMem_empty _)
    cases hiam : isIAM srv vc with
    | true =>
      refine publishes_iam hp hiam fun hmem => ?_
      simp only [insert_empty_eq, Finset.mem_singleton] at hmem
      exact site.not_name _ hp.kubelet _ hmem.symm
    | false => exact publishes_staged hp hiam
  | unpublish req =>
    obtain ⟨hpath, hq, hstaged, hplain⟩ := hp
    simp only [callBody, nodeUnpublishVolume, if_neg hpath]
    refine (leads_unpublishLocked hq hstaged hplain fun k hmem => ?_).withLock (Finset.notMem_empty _)
    simp only [insert_empty_eq, Finset.mem_singleton] at hmem
    exact site.not_name _ hq k hmem.symm

/-- One call after the other. -/
def callAll (srv : NodeServer) : List NodeCall → NodeM (List (Option Status))
  | [] => return []
  | call :: calls => do
    let err ← callBody srv call
    let errs ← callAll srv calls
    return err :: errs

/-- The simulation over a sequence of calls. -/
theorem faultless_callAll {calls : List NodeCall} (h : Represents site v ∅ s)
    (hp : v.PermitsAll srv site calls) :
    Faultless (callAll srv calls) (fun errs s' => errs = calls.map (fun _ => none) ∧
      Represents site (v.afterAll srv calls) ∅ s') s := by
  -- Induction on the calls; the state after each of them represents the volumes after it.
  induction calls generalizing v s with
  | nil => exact .pure ⟨rfl, h⟩
  | cons call calls ih =>
    refine .bind (represents_after hp.1 s h) ?_
    rintro _ s₁ ⟨rfl, h₁⟩
    refine .bind (ih h₁ hp.2) ?_
    rintro _ s₂ ⟨rfl, h₂⟩
    exact .pure ⟨rfl, h₂⟩

/-- **The node server refines its volumes.** On a node that represents some volumes, any sequence of
calls that kubelet may make comes to an end when nothing goes wrong, every call succeeds, and the
node represents the volumes after the calls: it has exactly the mounts, references and directories
that they say, and no lock is held.

SOURCE: pkg/csi_driver/node.go:96-926 -/
theorem lifecycle_refines (site : Site) (srv : NodeServer) (v : Volumes) (s : NodeState)
    (calls : List NodeCall) (h : Represents site v ∅ s) (hp : v.PermitsAll srv site calls) :
    Faultless (callAll srv calls) (fun errs s' => errs = calls.map (fun _ => none) ∧
      Represents site (v.afterAll srv calls) ∅ s') s :=
  faultless_callAll h hp

/-! ## A pod comes and goes -/

/-- Kubelet's own directory, on a node without other mounts. -/
def kubeletSite : Site where
  kubelet q := "/var/lib/kubelet/".toList <+: q.toList
  foreign := []
  not_name := by
    intro q hq k
    exact ne_name_of_slash k (hq.subset (by decide))
  not_mount := by
    rintro q ⟨rest, hrest⟩ k rfl
    have hchar := congrArg (·[9]?) hrest
    rw [List.getElem?_append_left (by decide)] at hchar
    simp only [Path.render, globalMountRoot, String.toList_append, List.append_assoc] at hchar
    rw [List.getElem?_append_left (by decide)] at hchar
    exact absurd hchar (by decide)

/-- A fresh node represents that there are no volumes. -/
theorem represents_freshNode : Represents kubeletSite .empty ∅ Sample.freshNode where
  locks := rfl
  apart _ := .inl rfl
  mounts _ _ := rfl
  present _ _ h := by cases h
  shared _ := ⟨rfl, rfl⟩
  known m hm := by cases hm

/-- The volume is published to the pod and unpublished again. -/
def comeAndGo : List NodeCall :=
  [.publish (Sample.publishRequest ""), .unpublish ⟨Sample.targetPath⟩]

/-- From no volumes, the pod may come and go. -/
theorem permitsAll_comeAndGo : Volumes.empty.PermitsAll Sample.sampleServer kubeletSite comeAndGo := by
  have hkubelet : kubeletSite.kubelet Sample.targetPath := by
    change _ <+: _
    decide
  refine ⟨⟨Sample.normalContext, Sample.mountCapability "", ?_⟩,
    ⟨by decide, hkubelet, ?_, fun u hu => ?_⟩, trivial⟩
  · refine ⟨Sample.validatePublish_publishRequest "", hkubelet, rfl, .inr (.inl rfl), fun _ => ?_, fun h => ?_⟩
    · refine ⟨?_, ?_, ?_, ?_, ⟨"secret", by decide +kernel⟩, by decide, fun _ => ?_⟩
      · rw [Sample.identityOf_normalContext]
        decide
      · rw [Sample.identityOf_normalContext]
        decide
      · rw [Sample.identityOf_normalContext]
        decide
      · rw [Sample.identityOf_normalContext]
        exact Sample.getPodUIDFromTargetPath_targetPath
      · exact ⟨("10.0.0.2", "lustrefs"), by decide +kernel⟩
    · simp [Sample.isIAM_normalContext] at h
  · simp only [Volumes.after, Sample.validatePublish_publishRequest, Sample.isIAM_normalContext, if_true]
    rfl
  · obtain rfl : "u1" = u := Option.some.inj (Sample.getPodUIDFromTargetPath_targetPath.symm.trans hu)
    decide

/-- A pod that comes and goes on a fresh node: the node ends as the volumes do. -/
theorem lifecycle_refines_comeAndGo :
    Represents kubeletSite .empty ∅ Sample.freshNode ∧
      Volumes.empty.PermitsAll Sample.sampleServer kubeletSite comeAndGo ∧
      Faultless (callAll Sample.sampleServer comeAndGo) (fun errs s' => errs = [none, none] ∧
        Represents kubeletSite (Volumes.empty.afterAll Sample.sampleServer comeAndGo) ∅ s')
        Sample.freshNode :=
  ⟨represents_freshNode, permitsAll_comeAndGo,
    lifecycle_refines kubeletSite Sample.sampleServer .empty Sample.freshNode comeAndGo
      represents_freshNode permitsAll_comeAndGo⟩

/-! ## Nothing is left behind -/

/-- The target that a call publishes. -/
def published : NodeCall → Option String
  | .publish req => some req.targetPath
  | _ => none

/-- The target that a call unpublishes. -/
def unpublished : NodeCall → Option String
  | .unpublish req => some req.targetPath
  | _ => none

/-- The path at which a call stages. -/
def stagedAt : NodeCall → Option String
  | .stage req => some req.stagingTargetPath
  | _ => none

/-- The path that a call unstages. -/
def unstagedAt : NodeCall → Option String
  | .unstage req => some req.stagingTargetPath
  | _ => none

/-- What is done at a path is undone later. -/
def Undone (does undoes : NodeCall → Option String) (calls : List NodeCall) : Prop :=
  ∀ before call later q, calls = before ++ call :: later → does call = some q →
    ∃ call' ∈ later, undoes call' = some q

/-- Where everything is undone, nothing is left at the end. -/
theorem afterAll_eq_none {f : Volumes → String → Option String}
    {does undoes : NodeCall → Option String} {calls : List NodeCall}
    (hstep : ∀ v call q, (f (Volumes.after srv v call) q).isSome →
      does call = some q ∨ ((f v q).isSome ∧ undoes call ≠ some q))
    (hundone : Undone does undoes calls)
    (hv : ∀ q, (f v q).isSome → ∃ call ∈ calls, undoes call = some q) (q : String) :
    f (v.afterAll srv calls) q = none := by
  -- At every point what is there is undone by one of the calls to come.
  induction calls generalizing v with
  | nil =>
    by_contra hne
    obtain ⟨call, hmem, -⟩ := hv q (Option.isSome_iff_ne_none.mpr hne)
    cases hmem
  | cons call calls ih =>
    refine ih (fun before call' later q' heq => hundone (call :: before) call' later q' (by rw [heq]; rfl))
      fun q' hq' => ?_
    rcases hstep v call q' hq' with hdoes | ⟨hold, hnot⟩
    · exact hundone [] call calls q' rfl hdoes
    obtain ⟨call', hmem, hundoes⟩ := hv q' hold
    rcases List.mem_cons.mp hmem with rfl | hmem
    · exact absurd hundoes hnot
    · exact ⟨call', hmem, hundoes⟩

/-- Only a publish binds, and an unpublish unbinds. -/
theorem bound_after (srv : NodeServer) (v : Volumes) (call : NodeCall) (q : String)
    (h : ((v.after srv call).bound q).isSome) :
    published call = some q ∨ ((v.bound q).isSome ∧ unpublished call ≠ some q) := by
  cases call with
  | stage req =>
    refine .inr ⟨?_, by simp [unpublished]⟩
    simp only [Volumes.after] at h
    split at h <;> exact h
  | unstage req => exact .inr ⟨h, by simp [unpublished]⟩
  | publish req =>
    by_cases hq : q = req.targetPath
    · exact .inl (congrArg some hq.symm)
    refine .inr ⟨?_, by simp [unpublished]⟩
    simp only [Volumes.after] at h
    split at h
    · exact h
    split at h
    · simpa [Volumes.publishIAM, Volumes.bind, Volumes.join, Function.update_of_ne hq] using h
    · simpa [Volumes.bind, Function.update_of_ne hq] using h
  | unpublish req =>
    have hunbound : ((v.unbind req.targetPath).bound q).isSome := by
      simp only [Volumes.after] at h
      split at h <;> exact h
    by_cases hq : q = req.targetPath
    · simp [Volumes.unbind, hq] at hunbound
    refine .inr ⟨by simpa [Volumes.unbind, Function.update_of_ne hq] using hunbound, fun heq => ?_⟩
    exact hq (Option.some.inj heq).symm

/-- Only a stage call stages, and an unstage call takes it away. -/
theorem staged_after (srv : NodeServer) (v : Volumes) (call : NodeCall) (q : String)
    (h : ((v.after srv call).staged q).isSome) :
    stagedAt call = some q ∨ ((v.staged q).isSome ∧ unstagedAt call ≠ some q) := by
  cases call with
  | stage req =>
    by_cases hq : q = req.stagingTargetPath
    · exact .inl (congrArg some hq.symm)
    refine .inr ⟨?_, by simp [unstagedAt]⟩
    simp only [Volumes.after] at h
    split at h
    · simpa [Volumes.stage, Function.update_of_ne hq] using h
    · exact h
  | unstage req =>
    have hunstaged : ((v.unstage req.stagingTargetPath).staged q).isSome := h
    by_cases hq : q = req.stagingTargetPath
    · simp [Volumes.unstage, hq] at hunstaged
    refine .inr ⟨by simpa [Volumes.unstage, Function.update_of_ne hq] using hunstaged, fun heq => ?_⟩
    exact hq (Option.some.inj heq).symm
  | publish req =>
    refine .inr ⟨?_, by simp [unstagedAt]⟩
    simp only [Volumes.after] at h
    split at h
    · exact h
    · split at h <;> exact h
  | unpublish req =>
    refine .inr ⟨?_, by simp [unstagedAt]⟩
    simp only [Volumes.after] at h
    split at h <;> exact h

/-- **Nothing is left behind.** When every target that kubelet publishes on a fresh node is
unpublished later, in any order with any other calls in between, then without faults no IAM key has a
directory or a mount in the end, although each unpublish sees only its own target; and when every
staged path is unstaged later too, there are no mounts on the node but those made by others.

SOURCE: pkg/csi_driver/node.go:477-500, 839-926; pkg/csi_driver/unmount.go:100-195 -/
theorem clean_node (site : Site) (srv : NodeServer) (s : NodeState) (calls : List NodeCall)
    (h : Represents site .empty ∅ s) (hp : Volumes.empty.PermitsAll srv site calls)
    (hpublished : Undone published unpublished calls) :
    Faultless (callAll srv calls) (fun errs s' => errs = calls.map (fun _ => none) ∧ s'.locks = ∅ ∧
      (∀ k, s'.dir k = none ∧ s'.mountsAt (.mount k) = []) ∧
      (Undone stagedAt unstagedAt calls → ∀ m ∈ s'.mounts, m.device ∈ site.foreign)) s := by
  have hbound := afterAll_eq_none (f := Volumes.bound) (v := .empty) (bound_after srv)
    hpublished fun q hq => by cases hq
  have hshared := (Volumes.accounted_empty.afterAll hp).shared_eq_none hbound
  refine (faultless_callAll h hp).mono ?_
  rintro errs s' ⟨herrs, h'⟩
  refine ⟨herrs, h'.locks, fun k => ?_, fun hstaged m hm => ?_⟩
  · have hk := h'.shared k
    rw [hshared k] at hk
    exact hk
  · have hnone := afterAll_eq_none (f := Volumes.staged) (v := .empty) (staged_after srv)
      hstaged fun q hq => by cases hq
    rcases h'.device_cases hm with ⟨k, g, hg, -⟩ | ⟨q, hq⟩ | ⟨q, hq⟩ | hforeign
    · simp [hshared k] at hg
    · simp [hnone q] at hq
    · simp [hbound q] at hq
    · exact hforeign

/-- The pod that comes and goes undoes its publish. -/
theorem undone_comeAndGo : Undone published unpublished comeAndGo := by
  intro before call later q heq hdoes
  unfold comeAndGo at heq
  rcases before with _ | ⟨c, before⟩
  · obtain ⟨rfl, rfl⟩ := List.cons.inj heq
    exact ⟨_, List.mem_singleton_self _, hdoes⟩
  obtain ⟨-, heq⟩ := List.cons.inj heq
  rcases before with _ | ⟨c', before⟩
  · obtain ⟨rfl, -⟩ := List.cons.inj heq
    cases hdoes
  · simp at heq

/-- A pod that comes and goes leaves a clean node. -/
theorem clean_node_comeAndGo :
    Undone published unpublished comeAndGo ∧
      Faultless (callAll Sample.sampleServer comeAndGo) (fun errs s' => errs = [none, none] ∧
        s'.locks = ∅ ∧ (∀ k, s'.dir k = none ∧ s'.mountsAt (.mount k) = []) ∧
        (Undone stagedAt unstagedAt comeAndGo → ∀ m ∈ s'.mounts, m.device ∈ kubeletSite.foreign))
        Sample.freshNode :=
  ⟨undone_comeAndGo, clean_node kubeletSite Sample.sampleServer Sample.freshNode comeAndGo
    represents_freshNode permitsAll_comeAndGo undone_comeAndGo⟩

end LustreCsi.Analysis.NodeLifecycle
