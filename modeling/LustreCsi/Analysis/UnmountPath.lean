import LustreCsi.Interface.Sequential
import LustreCsi.Interface.Sample

/-!
# What `unmountPath` leaves behind

`unmountPath` infers from a probe, from exit statuses and from texts that a path is not mounted any
more, and then removes the directory. `unmountPath_post`: after a success the path is gone and
nothing is mounted on it, whatever was answered, since the removal of a mount point fails. It also
says which commands are run (`Cascade`, `Probed`), and that nothing else is removed
(`SameElsewhere`).
-/

set_option autoImplicit false

namespace LustreCsi.Analysis.UnmountPath

open LustreCsi.Computation Model Interface

variable {σ σ' : NodeState} {p : Path}

/-! ## The commands -/

/-- A `umount` command with its flags, its output and its error. -/
abbrev Attempt : Type := List String × String × Option String

/-- The command that an event runs. -/
def attempt : Event nodeSig → Option Attempt
  | ⟨.umount flags _, answer⟩ => some (flags, answer)
  | _ => none

/-- A command failed and did not report that nothing is mounted. -/
def Failed (s : NodeServer) (a : Attempt) : Prop :=
  a.2.2 ≠ none ∧ isNotMounted s a.2.2 a.2.1 = false

/-- The commands of a run have flags from the given list, in its order; all but the last one have
failed, and if the last one has failed as well, all flags of the list have been tried. -/
structure Cascade (s : NodeServer) (flags : List (List String)) (tr : List (Event nodeSig)) :
    Prop where
  order : (tr.filterMap attempt).map Prod.fst <+: flags
  failed : ∀ a ∈ (tr.filterMap attempt).dropLast, Failed s a
  exhausted : ∀ a ∈ (tr.filterMap attempt).getLast?, Failed s a →
    (tr.filterMap attempt).map Prod.fst = flags

/-- The run begins with the probe, and no command is run exactly if the probe says that the path is not
mounted. -/
def Probed (target : Path) (tr : List (Event nodeSig)) : Prop :=
  ∃ answer rest, tr = ⟨.isLikelyNotMountPoint target, answer⟩ :: rest ∧
    (tr.filterMap attempt = [] ↔ notMountPoint answer = true)

/-- The operations of `unmountPath`. -/
def OnTarget (target : Path) (o : Op) : Prop :=
  o = .isLikelyNotMountPoint target ∨ (∃ flags, o = .umount flags target) ∨ o = .remove target

/-- An unmount acts on its target only. -/
theorem onTarget_unmountPath (s : NodeServer) (target : Path) :
    (unmountPath s target).All (OnTarget target) := by
  apply all_unmountPath <;> simp [OnTarget]

/-! ## Other paths -/

/-- All paths but one are there as before, with the same content and the same mounts. -/
structure SameElsewhere (target : Path) (σ σ' : NodeState) : Prop where
  present : ∀ q, q ≠ target → σ'.pathPresent q = σ.pathPresent q
  content : ∀ q, q ≠ target → σ'.content q = σ.content q
  mountsAt : ∀ q, q ≠ target → σ'.mountsAt q = σ.mountsAt q
  wiped : σ'.wiped = σ.wiped

/-- A node is the same as itself elsewhere. -/
theorem SameElsewhere.refl (target : Path) (σ : NodeState) : SameElsewhere target σ σ :=
  ⟨fun _ _ => rfl, fun _ _ => rfl, fun _ _ => rfl, rfl⟩

/-- Being the same elsewhere is transitive. -/
theorem SameElsewhere.trans {target : Path} {σ₁ σ₂ σ₃ : NodeState}
    (h : SameElsewhere target σ₁ σ₂) (h' : SameElsewhere target σ₂ σ₃) :
    SameElsewhere target σ₁ σ₃ :=
  ⟨fun q hq => (h'.present q hq).trans (h.present q hq),
    fun q hq => (h'.content q hq).trans (h.content q hq),
    fun q hq => (h'.mountsAt q hq).trans (h.mountsAt q hq), h'.wiped.trans h.wiped⟩

/-- What does not touch keys and directories. -/
theorem SameElsewhere.detach (target : Path) (σ : NodeState) :
    SameElsewhere target σ (σ.detach target) where
  present q _ := by cases q <;> rfl
  content q _ := by cases q <;> rfl
  mountsAt q hq := mountsAt_detach_of_ne σ hq
  wiped := rfl

/-- Paths of other keys. -/
theorem erase_of_key_ne {q : Path} (h : q.key? ≠ p.key?) :
    (σ.erase p).pathPresent q = σ.pathPresent q ∧ (σ.erase p).content q = σ.content q := by
  cases hq : q.key? with
  | none =>
    obtain ⟨a, rfl⟩ : ∃ a, q = .outside a := by
      cases q <;> simp_all [Path.key?]
    cases p <;> simp_all [Path.key?, NodeState.erase, NodeState.pathPresent, NodeState.content,
      NodeState.modifyKey]
  | some k =>
    have hsame := erase_sameKey σ (p := p) (k := k) fun hp => h (hq.trans hp.symm)
    refine ⟨hsame.pathPresent hq, ?_⟩
    cases q <;> simp_all [Path.key?, NodeState.content, hsame.dir]

/-- The directory in which a path lies. -/
theorem exists_dir_of_present {k : Key} (hk : p.key? = some k) (hp : σ.pathPresent p = true) :
    ∃ d, σ.dir k = some d := by
  cases p <;> simp only [Path.key?, Option.some.injEq, reduceCtorEq] at hk <;> subst hk <;>
    simp only [NodeState.pathPresent, Option.any_eq_true, Option.isSome_iff_exists] at hp
  case keyDir => exact hp
  all_goals exact ⟨_, hp.choose_spec.1⟩

/-- Removing a path that is not in use leaves the others of its key. -/
theorem erase_of_key_eq {q : Path} {k : Key} (hq : q ≠ p) (hpk : p.key? = some k)
    (hqk : q.key? = some k) (hp : σ.pathPresent p = true) (huse : σ.dirInUse p = false) :
    (σ.erase p).pathPresent q = σ.pathPresent q ∧ (σ.erase p).content q = σ.content q := by
  obtain ⟨d, hd⟩ := exists_dir_of_present hpk hp
  cases p with
  | outside a => cases hpk
  | keyDir k' =>
    obtain rfl : k' = k := Option.some.inj hpk
    have herased : (σ.erase (.keyDir k')).dir k' = none := by simp [NodeState.erase, NodeState.dir]
    simp only [NodeState.dirInUse, hd, Option.any_some, Bool.or_eq_false_iff] at huse
    cases q <;> simp only [Path.key?, Option.some.injEq, reduceCtorEq] at hqk <;> subst hqk <;>
      simp_all [NodeState.pathPresent, NodeState.content]
  | mount k' | token k' | tokenTmp k' =>
    obtain rfl : k' = k := Option.some.inj hpk
    cases q <;> simp only [Path.key?, Option.some.injEq, reduceCtorEq] at hqk <;> subst hqk <;>
      simp_all [NodeState.pathPresent, NodeState.content, NodeState.erase]
  | refs k' =>
    obtain rfl : k' = k := Option.some.inj hpk
    cases hrefs : d.refs with
    | none => simp [NodeState.pathPresent, hd, hrefs] at hp
    | some rs =>
      -- No reference is lost, since there is none.
      have hempty : ∀ u, u ∉ rs := fun u hu => by
        have hkeys : rs.keys = [] := by simpa [NodeState.dirInUse, hd, hrefs] using huse
        simpa [hkeys] using AList.mem_keys.mp hu
      have hnone : ∀ u, rs.lookup u = none := fun u => AList.lookup_eq_none.mpr (hempty u)
      cases q <;> simp only [Path.key?, Option.some.injEq, reduceCtorEq] at hqk <;> subst hqk <;>
        simp_all [NodeState.pathPresent, NodeState.content, NodeState.erase]
  | ref k' u =>
    obtain rfl : k' = k := Option.some.inj hpk
    cases hrefs : d.refs with
    | none => simp [NodeState.pathPresent, hd, hrefs] at hp
    | some rs =>
      cases q <;> simp only [Path.key?, Option.some.injEq, reduceCtorEq] at hqk <;> subst hqk <;>
        simp_all [NodeState.pathPresent, NodeState.content, NodeState.erase, AList.mem_erase,
          AList.lookup_erase_ne]

/-- `os.Remove` of a path that is not in use. -/
theorem SameElsewhere.erase {target : Path} (hp : σ.pathPresent target = true)
    (huse : σ.dirInUse target = false) : SameElsewhere target σ (σ.erase target) := by
  have hother : ∀ q, q ≠ target → (σ.erase target).pathPresent q = σ.pathPresent q ∧
      (σ.erase target).content q = σ.content q := by
    intro q hq
    by_cases hkey : q.key? = target.key?
    · cases hk : target.key? with
      | some k => exact erase_of_key_eq hq hk (hkey.trans hk) hp huse
      | none =>
        cases target <;> simp only [Path.key?, reduceCtorEq] at hk
        cases q <;> simp_all [Path.key?, NodeState.erase, NodeState.pathPresent, NodeState.content,
          Function.update_of_ne]
    · exact erase_of_key_ne hkey
  exact ⟨fun q hq => (hother q hq).1, fun q hq => (hother q hq).2,
    fun q _ => by simp [NodeState.mountsAt, mounts_erase], by cases target <;> rfl⟩

/-- An operation on the target changes nothing elsewhere. -/
theorem sameElsewhere_of_step {target : Path} {o : Op} {r : o.Res} (ho : OnTarget target o)
    (h : σ.step o r σ') : SameElsewhere target σ σ' := by
  have hout := outcome_of_step h
  rcases ho with rfl | ⟨flags, rfl⟩ | rfl
  · obtain rfl : σ' = σ := hout
    exact .refl _ _
  · rcases hout with rfl | ⟨-, rfl⟩
    · exact .detach _ _
    · exact .refl _ _
  · rcases hout with ⟨-, hp, huse, -, rfl⟩ | ⟨e, -, rfl, -⟩
    · exact .erase hp huse
    · exact .refl _ _

/-! ## The result -/

/-- The path is gone, and nothing is mounted on it. -/
structure Gone (target : Path) (σ : NodeState) : Prop where
  absent : σ.pathPresent target = false
  free : σ.mounted target = false

/-- What is mounted on the path is mounted on a directory that exists. -/
def MountExists (target : Path) (σ : NodeState) : Prop :=
  σ.mounted target = true → σ.pathPresent target = true

/-- What detaching leaves mounted is still on a directory that exists. -/
theorem MountExists.detach {target : Path} (h : MountExists target σ) :
    MountExists target (σ.detach target) := by
  intro hm
  have hp := h (mounted_of_mounted_detach hm)
  cases target <;> exact hp

/-- A path that was removed is not there. -/
theorem pathPresent_erase_self (σ : NodeState) (p : Path) : (σ.erase p).pathPresent p = false := by
  cases p with
  | outside a => simp [NodeState.erase, NodeState.pathPresent]
  | keyDir k => simp [NodeState.erase, NodeState.pathPresent, NodeState.dir]
  | ref k u =>
    cases hrefs : ((σ.dir k).getD .empty).refs <;>
      simp [NodeState.erase, NodeState.pathPresent, hrefs, AList.mem_erase]
  | _ => simp [NodeState.erase, NodeState.pathPresent]

/-- Removing the directory unmounts nothing, and the target is gone when it succeeds. -/
theorem exec_removeDir {target : Path} {tr : List (Event nodeSig)} {r : Option Status}
    (h : Exec NodeState.step (removeDir target) σ tr r σ') (hexists : MountExists target σ) :
    tr.filterMap attempt = [] ∧ (r = none → Gone target σ') := by
  obtain ⟨answer, σ₁, tr₁, hs, rfl, hret⟩ := exec_perform_bind.mp h
  obtain ⟨rfl, rfl, rfl⟩ := exec_pure.mp hret
  refine ⟨rfl, fun hnone => ?_⟩
  rcases outcome_of_step hs with ⟨rfl, hp, -, hfree, rfl⟩ | ⟨e, rfl, rfl, hnotExist, -⟩
  · exact ⟨pathPresent_erase_self σ target, by simpa [NodeState.mounted, NodeState.mountsAt,
      mounts_erase] using hfree⟩
  -- Any other error would have been returned.
  have hkind : e.kind = .notExist := by simpa [unlessNotExist] using hnone
  have habsent := hnotExist hkind
  refine ⟨habsent, Bool.eq_false_iff.mpr fun hm => ?_⟩
  rw [hexists hm] at habsent
  cases habsent

/-- The phases make a cascade of attempts, and the target is gone when they succeed. -/
theorem exec_umountPhases {s : NodeServer} {target : Path} {flags : List (List String)}
    (hne : flags ≠ []) {tr : List (Event nodeSig)} {r : Option Status}
    (h : Exec NodeState.step (umountPhases s target flags) σ tr r σ')
    (hexists : MountExists target σ) :
    Cascade s flags tr ∧ tr.filterMap attempt ≠ [] ∧ (r = none → Gone target σ') := by
  induction flags generalizing σ tr with
  | nil => exact absurd rfl hne
  | cons fs rest ih =>
    obtain ⟨⟨out, err⟩, σ₁, tr₁, hs, rfl, hrest⟩ := exec_perform_bind.mp h
    have hexists₁ : MountExists target σ₁ := by
      rcases outcome_of_step hs with rfl | ⟨-, rfl⟩
      · exact hexists.detach
      · exact hexists
    have hone : attempt ⟨.umount fs target, (out, err)⟩ = some (fs, out, err) := rfl
    by_cases hstop : (err.isNone || isNotMounted s err out) = true
    · simp only [hstop, if_true] at hrest
      obtain ⟨hnil, hgone⟩ := exec_removeDir hrest hexists₁
      refine ⟨⟨by simp [hone, hnil], by simp [hone, hnil], fun a ha hfailed => ?_⟩, by simp [hone], hgone⟩
      -- The command has succeeded or has found nothing mounted.
      rw [List.filterMap_cons, hone, hnil] at ha
      obtain rfl : (fs, out, err) = a := by simpa using ha
      obtain ⟨herr, hout⟩ : err ≠ none ∧ isNotMounted s err out = false := hfailed
      simp [hout, Option.isNone_iff_eq_none, herr] at hstop
    · have hfailed : Failed s (fs, out, err) := by
        simpa [Failed, Option.isNone_iff_eq_none] using hstop
      simp only [hstop, if_false, Bool.false_eq_true] at hrest
      cases rest with
      | nil =>
        simp only [List.isEmpty_nil, if_true] at hrest
        obtain ⟨rfl, rfl, rfl⟩ := exec_pure.mp hrest
        exact ⟨⟨by simp [hone], by simp [hone], fun a _ _ => by simp [hone]⟩, by simp [hone], by simp⟩
      | cons fs' rest =>
        simp only [List.isEmpty_cons, if_false, Bool.false_eq_true] at hrest
        obtain ⟨hcascade, hmore, hgone⟩ := ih (by simp) hrest hexists₁
        have hcons : (⟨.umount fs target, (out, err)⟩ :: tr₁ : List (Event nodeSig)).filterMap attempt =
            (fs, out, err) :: tr₁.filterMap attempt := by rw [List.filterMap_cons, hone]
        refine ⟨⟨?_, fun a ha => ?_, fun a ha hlast => ?_⟩, by simp [hcons], hgone⟩
        · rw [hcons, List.map_cons]
          exact List.cons_prefix_cons.mpr ⟨rfl, hcascade.order⟩
        · rw [hcons, List.dropLast_cons_of_ne_nil hmore] at ha
          rcases List.mem_cons.mp ha with rfl | ha
          · exact hfailed
          · exact hcascade.failed a ha
        · rw [hcons, List.getLast?_cons_of_ne_nil hmore] at ha
          rw [hcons, List.map_cons, hcascade.exhausted a ha hlast]

/-- **What `unmountPath` leaves behind.** In every run, from a state in which nothing is mounted on a
target that does not exist: if `unmountPath` returns no error, the target does not exist any more and
nothing is mounted on it; plain, forced and lazy `umount` are run in this order, each at most once
and only after all commands before have failed without reporting that nothing is mounted; the plain
command is run unless the probe says that nothing is mounted, and each command that has failed in this
way is followed by the next one, if there is one; and only the target is unmounted or removed, while
everything else stays as it was.
SOURCE: pkg/csi_driver/unmount.go:88-164, 189-194 -/
theorem unmountPath_post {s : NodeServer} {target : Path} {σ σ' : NodeState}
    {tr : List (Event nodeSig)} {r : Option Status}
    (h : Exec NodeState.step (unmountPath s target) σ tr r σ') (hexists : MountExists target σ) :
    (r = none → Gone target σ') ∧ Cascade s [[], ["-f"], ["-l"]] tr ∧ Probed target tr ∧
      (∀ e ∈ tr, OnTarget target e.1) ∧ SameElsewhere target σ σ' := by
  have hops := h.mem_all (onTarget_unmountPath s target)
  have hsame : SameElsewhere target σ σ' := h.rel (R := SameElsewhere target) (.refl target)
    (fun _ _ _ h h' => h.trans h') (fun _ _ _ _ => sameElsewhere_of_step)
    (onTarget_unmountPath s target)
  suffices hrest : Cascade s [[], ["-f"], ["-l"]] tr ∧ Probed target tr ∧ (r = none → Gone target σ') from
    ⟨hrest.2.2, hrest.1, hrest.2.1, hops, hsame⟩
  obtain ⟨answer, σ₁, tr₁, hs, rfl, hrest⟩ := exec_perform_bind.mp h
  obtain rfl : σ₁ = σ := outcome_of_step hs
  have hcons : (⟨.isLikelyNotMountPoint target, answer⟩ :: tr₁ : List (Event nodeSig)).filterMap attempt =
      tr₁.filterMap attempt := rfl
  by_cases hnot : notMountPoint answer = true
  · simp only [hnot, if_true] at hrest
    obtain ⟨hnil, hgone⟩ := exec_removeDir hrest hexists
    have hnone := hcons.trans hnil
    exact ⟨⟨by simp [hnone], by simp [hnone], by simp [hnone]⟩, ⟨answer, tr₁, rfl, by simp [hnone, hnot]⟩,
      hgone⟩
  · simp only [hnot, if_false, Bool.false_eq_true] at hrest
    obtain ⟨hcascade, hmore, hgone⟩ := exec_umountPhases (by simp) hrest hexists
    refine ⟨⟨?_, ?_, ?_⟩, ⟨answer, tr₁, rfl, by simp [hcons, hmore, hnot]⟩, hgone⟩
    · rw [hcons]
      exact hcascade.order
    · rw [hcons]
      exact hcascade.failed
    · rw [hcons]
      exact hcascade.exhausted

section Sample

open Interface.Sample

/-- The plain command finds the target busy, and the forced one takes the mount away. -/
def forcing : List Choice :=
  [.probe (.ok false), .umounted "target is busy" (some "exit status 32") false, .umounted "" none true, .ok]

/-- The plain command fails, and the forced one takes the mount of the pod's volume away. -/
theorem unmountPath_post_forced :
    ∃ tr σ', Exec NodeState.step (unmountPath sampleServer (.outside targetPath)) oneVolume tr none
        σ' ∧
      tr.filterMap attempt =
        [([], "target is busy", some "exit status 32"), (["-f"], "", none)] ∧
      Failed sampleServer ([], "target is busy", some "exit status 32") ∧
      oneVolume.mounted (.outside targetPath) = true ∧ Gone (.outside targetPath) σ' ∧
      SameElsewhere (.outside targetPath) oneVolume σ' := by
  have hplay : (playTrace (S := nodeSig) NodeState.exec
      (unmountPath sampleServer (.outside targetPath)) forcing oneVolume).map
        (fun x => (x.1.filterMap attempt, x.2.1)) =
      some ([([], "target is busy", some "exit status 32"), (["-f"], "", none)], none) := by
    decide +kernel
  obtain ⟨⟨tr, r, σ'⟩, hplay, heq⟩ := Option.map_eq_some_iff.mp hplay
  obtain ⟨hattempts, rfl⟩ := Prod.mk.inj heq
  have hrun := playTrace_exec _ hplay
  have hexists : MountExists (.outside targetPath) oneVolume := fun _ => by decide
  obtain ⟨hgone, hcascade, -, -, hsame⟩ := unmountPath_post hrun hexists
  refine ⟨tr, σ', hrun, hattempts, ?_, by decide +kernel, hgone rfl, hsame⟩
  apply hcascade.failed
  rw [hattempts]
  exact List.mem_cons_self

end Sample

end LustreCsi.Analysis.UnmountPath
