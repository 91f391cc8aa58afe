import LustreCsi.Interface.Sample
import LustreCsi.Interface.Sequential

/-!
# Repeating NodeUnpublishVolume

The teardown of a key removes the pod's reference first, and only then unmounts the key and deletes
its directory; a call that fails in between has removed what the next call would have found it by.
`converged_iff`: after a sequence of calls that ends with a success the key is gone exactly when
none of these later steps ever failed.
-/

set_option autoImplicit false

namespace LustreCsi.Analysis.UnpublishRetry

open LustreCsi.Computation Model Interface

variable {s s' : NodeState} {o : Op} {r : o.Res} {tr : List (Event nodeSig)} {a : Option Status}
  {failed : Prop} {refPaths : List Path}

/-- Directories are read in full. -/
def FullRead (s : NodeState) : (o : Op) → o.Res → Prop
  | .readRoot, ks => ∀ k ∈ s.keys.keys, k ∈ (show List Key from ks)
  | .readDirNames p, ns => ∀ n ∈ s.names p, n ∈ (show List String from ns)
  | _, _ => True

/-- A step of a node on which locks, mounts and removals may fail, but no directory listing. -/
def retryStep (s : NodeState) (o : nodeSig.Op) (r : nodeSig.Res o) (s' : NodeState) : Prop :=
  s.step o r s' ∧ FullRead s o r

/-- A step under the assumptions is a step of the node. -/
theorem step_of_retryStep (h : retryStep s o r s') :
    NodeState.step s o r s' := h.1

/-- A step of the teardown of a key that comes after the reference is gone has failed. What
`releaseGlobalMount` and `unmountPath` accept does not count: a directory that is missing or,
for `refs`, not empty, and a path on which nothing is mounted. -/
def TeardownFault (srv : NodeServer) (k : Key) : Event nodeSig → Prop
  | ⟨.remove p, r⟩ =>
    (p = .refs k ∧ r.any (fun e => e.kind ≠ .notExist ∧ e.kind ≠ .notEmpty) = true) ∨
      (p = .mount k ∧ r.any (fun e => e.kind ≠ .notExist) = true)
  | ⟨.umount flags p, r⟩ =>
    p = .mount k ∧ flags = ["-l"] ∧ r.2 ≠ none ∧ isNotMounted srv r.2 r.1 = false
  | ⟨.removeAll k', r⟩ => k' = k ∧ r ≠ none
  | _ => False

/-- Between two calls other handlers may run, but no publish to the key and no teardown of it;
the operating system keeps the directories of mount points. -/
structure Between (k : Key) (s s' : NodeState) : Prop where
  same : SameKey k s s'
  mountDirs : MountDirs s'

/-- A sequence of calls for one target path, with the operations of all of them. -/
inductive Retries (srv : NodeServer) (targetPath : String) (k : Key) (s : NodeState) :
    List (Event nodeSig) → NodeState → Prop
  | start : Retries srv targetPath k s [] s
  | call {tr tr' : List (Event nodeSig)} {s₁ s₂ s₃ : NodeState} {a : Option Status} :
    Retries srv targetPath k s tr s₁ → Between k s₁ s₂ →
    Exec retryStep (nodeUnpublishVolume srv ⟨targetPath⟩) s₂ tr' a s₃ →
    Retries srv targetPath k s (tr ++ tr') s₃

/-- The pod is the only one that references the key. -/
def OnlyUser (s : NodeState) (k : Key) (podUID : String) : Prop :=
  ∃ d rs, s.dir k = some d ∧ d.refs = some rs ∧ rs.keys = [podUID]

/-- The key is not mounted and has no directory. -/
structure Gone (s : NodeState) (k : Key) : Prop where
  mount : s.mounted (.mount k) = false
  dir : s.dir k = none

/-- The key has a directory, but no reference of the pod by which a call would find it. -/
structure Lost (s : NodeState) (k : Key) (podUID : String) : Prop where
  dir : (s.dir k).isSome
  ref : s.pathPresent (.ref k podUID) = false

variable {srv : NodeServer} {k : Key} {podUID : String}

/-! ## Operations on other keys -/

/-- A fault of a teardown is at the teardown's key. -/
theorem opKey_of_teardownFault (h : TeardownFault srv k ⟨o, r⟩) :
    opKey o = some k := by
  cases o <;> simp only [TeardownFault] at h
  case remove p => rcases h with ⟨rfl, -⟩ | ⟨rfl, -⟩ <;> rfl
  case umount flags p => rw [h.1]; rfl
  case removeAll k' => rw [h.1]; rfl

/-- A program that does not name the key neither changes it nor fails in its teardown. -/
theorem exec_avoids (srv : NodeServer) {α : Type} {p : NodeM α}
    (hp : p.All fun o : Op => opKey o ≠ some k) {a : α} (h : Exec retryStep p s tr a s') :
    SameKey k s s' ∧ ∀ e ∈ tr, ¬TeardownFault srv k e :=
  ⟨exec_sameKey step_of_retryStep hp h, fun e he hfault =>
    h.mem_all hp e he (opKey_of_teardownFault hfault)⟩

/-- Who uses a key depends on the key only. -/
theorem OnlyUser.same (hs : OnlyUser s k podUID) (h : SameKey k s s') :
    OnlyUser s' k podUID := by
  obtain ⟨d, rs, hd, hrest⟩ := hs
  exact ⟨d, rs, h.dir.trans hd, hrest⟩

/-- Whether a key is gone depends on the key only. -/
theorem Gone.same (hs : Gone s k) (h : SameKey k s s') : Gone s' k :=
  ⟨h.mounted.trans hs.mount, h.dir.trans hs.dir⟩

/-- Whether a key is lost depends on the key only. -/
theorem Lost.same (hs : Lost s k podUID) (h : SameKey k s s') :
    Lost s' k podUID :=
  ⟨by rw [h.dir]; exact hs.dir, (h.pathPresent rfl).trans hs.ref⟩

/-- The only user of a key has a reference. -/
theorem OnlyUser.ref (h : OnlyUser s k podUID) :
    s.pathPresent (.ref k podUID) = true := by
  obtain ⟨d, rs, hd, hrs, hkeys⟩ := h
  exact pathPresent_ref_iff.mpr ⟨d, rs, hd, hrs, AList.mem_keys.mpr (by simp [hkeys])⟩

/-! ## The teardown of the key -/

/-- How unmounting the key ends: it is not mounted any more, or a fault has occurred. -/
def Unmounted (srv : NodeServer) (k : Key) (tr : List (Event nodeSig)) (a : Option Status)
    (s' : NodeState) : Prop :=
  (a = none ∧ s'.mounted (.mount k) = false ∧ ∀ e ∈ tr, ¬TeardownFault srv k e) ∨
    (a ≠ none ∧ ∃ e ∈ tr, TeardownFault srv k e)

/-- An event that is no fault can be put before. -/
theorem Unmounted.cons {e : Event nodeSig} {tr : List (Event nodeSig)} {a : Option Status}
    {s' : NodeState} (he : ¬TeardownFault srv k e) (h : Unmounted srv k tr a s') :
    Unmounted srv k (e :: tr) a s' := by
  rcases h with ⟨ha, hm, hno⟩ | ⟨ha, e', he', hfault⟩
  · exact .inl ⟨ha, hm, List.forall_mem_cons.mpr ⟨he, hno⟩⟩
  · exact .inr ⟨ha, e', List.mem_cons_of_mem _ he', hfault⟩

/-- The directory of the mount goes only when nothing is mounted on it. -/
theorem removeDir_unmounted (h : Exec retryStep (removeDir (.mount k)) s tr a s') (hs : MountDirs s) :
    Unmounted srv k tr a s' := by
  obtain ⟨r, s₁, tr₁, hremove, rfl, hret⟩ := exec_perform_bind.mp h
  obtain ⟨rfl, rfl, rfl⟩ := exec_pure.mp hret
  rcases outcome_of_step hremove.1 with ⟨rfl, -, -, hm, rfl⟩ | ⟨e, rfl, rfl, habs, -⟩
  · exact .inl ⟨rfl, hm, by simp [TeardownFault]⟩
  by_cases he : e.kind = .notExist
  · refine .inl ⟨by simp [unlessNotExist, he], ?_, by simp [TeardownFault, he]⟩
    rw [Bool.eq_false_iff]
    intro hm
    exact absurd (hs k hm) (by simp [habs he])
  · refine .inr ⟨by simp [unlessNotExist, he], _, List.mem_singleton_self _, ?_⟩
    exact .inr ⟨rfl, by simp [he]⟩

/-- Only a failure of the last phase, the lazy unmount, leaves the directory. -/
theorem umountPhases_unmounted (phases : List (List String)) (hphases : ["-l"] ∉ phases)
    (h : Exec retryStep (umountPhases srv (.mount k) (phases ++ [["-l"]])) s tr a s')
    (hs : MountDirs s) : Unmounted srv k tr a s' := by
  induction phases generalizing s tr with
  | nil =>
    obtain ⟨⟨out, err⟩, s₁, tr₁, humount, rfl, hrest⟩ := exec_perform_bind.mp h
    have hdirs := (outcome_of_step humount.1).mountDirs hs
    simp only at hrest
    split at hrest
    · rename_i hok
      refine (removeDir_unmounted hrest hdirs).cons fun hfault => ?_
      obtain ⟨-, -, herr, hnot⟩ := hfault
      cases err <;> simp_all
    · rename_i hfail
      obtain ⟨rfl, rfl, rfl⟩ := exec_pure.mp hrest
      refine .inr ⟨by simp, _, List.mem_singleton_self _, rfl, rfl, ?_⟩
      cases err <;> simp_all
  | cons flags phases ih =>
    obtain ⟨⟨out, err⟩, s₁, tr₁, humount, rfl, hrest⟩ := exec_perform_bind.mp h
    have hdirs := (outcome_of_step humount.1).mountDirs hs
    have hflags : ¬TeardownFault srv k ⟨.umount flags (.mount k), (out, err)⟩ := by
      rintro ⟨-, rfl, -⟩
      exact hphases List.mem_cons_self
    simp only at hrest
    split at hrest
    · exact (removeDir_unmounted hrest hdirs).cons hflags
    rw [if_neg (by simp)] at hrest
    exact (ih (fun hmem => hphases (List.mem_cons_of_mem _ hmem)) hrest hdirs).cons hflags

/-- An unmount of the key ends unmounted or with a fault. -/
theorem unmountPath_unmounted (h : Exec retryStep (unmountPath srv (.mount k)) s tr a s')
    (hs : MountDirs s) :
    Unmounted srv k tr a s' := by
  obtain ⟨answer, s₁, tr₁, hprobe, rfl, hrest⟩ := exec_perform_bind.mp h
  obtain rfl : s₁ = s := outcome_of_step hprobe.1
  split at hrest
  · exact (removeDir_unmounted hrest hs).cons id
  · exact (umountPhases_unmounted [[], ["-f"]] (by simp) hrest hs).cons id

/-- With the last reference gone, the teardown goes through, or a fault leaves the key lost. -/
theorem releaseGlobalMount_spec (podUID : String) {a : Option String}
    (h : Exec retryStep (releaseGlobalMount srv k) s tr a s') (hs : MountDirs s)
    (hempty : ∃ d rs, s.dir k = some d ∧ d.refs = some rs ∧ rs.keys = []) :
    (a = none ∧ Gone s' k ∧ ∀ e ∈ tr, ¬TeardownFault srv k e) ∨
      (a ≠ none ∧ Lost s' k podUID ∧ ∃ e ∈ tr, TeardownFault srv k e) := by
  obtain ⟨d, rs, hd, hrs, hkeys⟩ := hempty
  have hsome : (s.dir k).isSome := by simp [hd]
  have href : s.pathPresent (.ref k podUID) = false := by
    rw [Bool.eq_false_iff]
    intro hpresent
    obtain ⟨d', rs', hd', hrs', hmem⟩ := pathPresent_ref_iff.mp hpresent
    obtain rfl := Option.some.inj (hd.symm.trans hd')
    obtain rfl := Option.some.inj (hrs.symm.trans hrs')
    simpa [hkeys] using AList.mem_keys.mp hmem
  obtain ⟨r, s₁, tr₁, hrefs, rfl, hrest⟩ := exec_perform_bind.mp h
  have hout := outcome_of_step hrefs.1
  have hdirs := hout.mountDirs hs
  have hsome₁ := hout.dir_isSome hsome (by simp) (by simp)
  have href₁ := hout.ref_absent href (by simp)
  cases r with
  | some e =>
    -- The directory exists and is empty, so that it can only be refused for another reason.
    obtain ⟨e', he', rfl, hexist, hnotEmpty⟩ := hout.resolve_left (by simp)
    obtain rfl := Option.some.inj he'
    have hkind : e.kind ≠ .notExist ∧ e.kind ≠ .notEmpty := by
      refine ⟨fun he => ?_, fun he => ?_⟩
      · simpa [NodeState.pathPresent, hd, hrs] using hexist he
      · simpa [NodeState.dirInUse, hd, hrs, hkeys] using hnotEmpty he
    simp only [if_neg hkind.1, if_neg hkind.2] at hrest
    obtain ⟨rfl, rfl, rfl⟩ := exec_pure.mp hrest
    exact .inr ⟨by simp, ⟨hsome, href⟩, _, List.mem_singleton_self _, .inl ⟨rfl, by simp [hkind]⟩⟩
  | none =>
    have hfirst : ¬TeardownFault srv k ⟨.remove (.refs k), none⟩ := by simp [TeardownFault]
    obtain ⟨tr₂, err, s₂, tr₃, hunmount, hafter, rfl⟩ := exec_bind.mp hrest
    have hunmounted : Unmounted srv k tr₂ err s₂ := unmountPath_unmounted hunmount hdirs
    have hsome₂ : (s₂.dir k).isSome := by
      refine exec_dir_isSome step_of_retryStep (all_unmountPath srv ?_ ?_ ?_) hunmount hsome₁
      all_goals simp
    have href₂ : s₂.pathPresent (.ref k podUID) = false := by
      refine exec_ref_absent step_of_retryStep (all_unmountPath srv ?_ ?_ ?_) hunmount href₁
      all_goals simp
    cases err with
    | some err =>
      obtain ⟨rfl, rfl, rfl⟩ := exec_pure.mp hafter
      obtain ⟨-, e, he, hfault⟩ := hunmounted.resolve_left (by simp)
      exact .inr ⟨by simp, ⟨hsome₂, href₂⟩, e, by simp [he], hfault⟩
    | none =>
      obtain ⟨-, hm, hno⟩ := hunmounted.resolve_right (by simp)
      obtain ⟨r, s₃, tr₄, hall, rfl, hret⟩ := exec_perform_bind.mp hafter
      obtain ⟨rfl, rfl, rfl⟩ := exec_pure.mp hret
      have hout₃ := outcome_of_step hall.1
      rcases hout₃ with ⟨rfl, hnone, rfl⟩ | ⟨rfl, -, rfl⟩ | ⟨⟨e, rfl⟩, -, parts, rfl⟩
      · simp [hnone] at hsome₂
      · refine .inl ⟨rfl, ⟨hm, by simp [NodeState.dir]⟩, ?_⟩
        simp only [List.mem_cons, List.mem_append, List.not_mem_nil, or_false]
        rintro e (rfl | he | rfl)
        · exact hfirst
        · exact hno e he
        · simp [TeardownFault]
      · refine .inr ⟨by simp, ⟨?_, ref_absent_removeParts href₂ k parts⟩, ⟨.removeAll k, some e⟩,
          by simp, rfl, by simp⟩
        unfold NodeState.removeParts
        simp

/-- How a call, or a part of it, may leave the key: as it was, and then it has failed; gone; or
lost through a fault. -/
def Left (srv : NodeServer) (k : Key) (podUID : String) (tr : List (Event nodeSig))
    (failed : Prop) (s : NodeState) : Prop :=
  (OnlyUser s k podUID ∧ failed ∧ ∀ e ∈ tr, ¬TeardownFault srv k e) ∨
    (Gone s k ∧ ∀ e ∈ tr, ¬TeardownFault srv k e) ∨
    (Lost s k podUID ∧ ∃ e ∈ tr, TeardownFault srv k e)

/-- What comes before it and has no fault. -/
theorem Left.append_left {tr' : List (Event nodeSig)} (htr : ∀ e ∈ tr, ¬TeardownFault srv k e)
    (h : Left srv k podUID tr' failed s) :
    Left srv k podUID (tr ++ tr') failed s := by
  rcases h with ⟨honly, hf, hno⟩ | ⟨hgone, hno⟩ | ⟨hlost, e, he, hfault⟩
  · exact .inl ⟨honly, hf, List.forall_mem_append.mpr ⟨htr, hno⟩⟩
  · exact .inr (.inl ⟨hgone, List.forall_mem_append.mpr ⟨htr, hno⟩⟩)
  · exact .inr (.inr ⟨hlost, e, List.mem_append_right _ he, hfault⟩)

/-- What comes after it and does not touch the key. -/
theorem Left.append_right {tr' : List (Event nodeSig)} (h : Left srv k podUID tr failed s)
    (hs : SameKey k s s') (htr : ∀ e ∈ tr', ¬TeardownFault srv k e) :
    Left srv k podUID (tr ++ tr') failed s' := by
  rcases h with ⟨honly, hf, hno⟩ | ⟨hgone, hno⟩ | ⟨hlost, e, he, hfault⟩
  · exact .inl ⟨honly.same hs, hf, List.forall_mem_append.mpr ⟨hno, htr⟩⟩
  · exact .inr (.inl ⟨hgone.same hs, List.forall_mem_append.mpr ⟨hno, htr⟩⟩)
  · exact .inr (.inr ⟨hlost.same hs, e, List.mem_append_left _ he, hfault⟩)

/-- What a teardown leaves depends on the key only. -/
theorem Left.same (h : Left srv k podUID tr failed s) (hs : SameKey k s s') :
    Left srv k podUID tr failed s' := by
  simpa using h.append_right hs (List.forall_mem_nil _)

/-- What a teardown leaves, with a weaker condition for a failure. -/
theorem Left.failed_mono {failed' : Prop} (h : Left srv k podUID tr failed s)
    (hf : failed → failed') : Left srv k podUID tr failed' s :=
  h.imp_left fun ⟨honly, h, hno⟩ => ⟨honly, hf h, hno⟩

/-- The cleanup of the key, when the pod is its only user. -/
theorem cleanUpIAMReferenceForKey_left {a : Option String}
    (h : Exec retryStep (cleanUpIAMReferenceForKey srv k (.ref k podUID)) s tr a s')
    (hs : MountDirs s) (honly : OnlyUser s k podUID) : Left srv k podUID tr (a ≠ none) s' := by
  rcases exec_withLock step_of_retryStep h with
    ⟨-, rfl, rfl, rfl⟩ | ⟨-, tr₁, s₁, hbody, rfl, rfl⟩
  · exact .inl ⟨honly, by simp, by simp [TeardownFault]⟩
  have hacquire : ∀ e ∈ [(⟨.tryAcquire k.name, true⟩ : Event nodeSig)], ¬TeardownFault srv k e := by
    simp [TeardownFault]
  have hrelease : ∀ e ∈ [(⟨.release k.name, ()⟩ : Event nodeSig)], ¬TeardownFault srv k e := by
    simp [TeardownFault]
  have hunlocked : SameKey k s₁ { s₁ with locks := s₁.locks.erase k.name } := ⟨rfl, rfl⟩
  suffices hleft : Left srv k podUID tr₁ (a ≠ none) s₁ from
    (hleft.append_left hacquire).append_right hunlocked hrelease
  obtain ⟨r, s₂, tr₂, hremove, rfl, hrest⟩ := exec_perform_bind.mp hbody
  have hout := outcome_of_step hremove.1
  have hfirst : ¬TeardownFault srv k ⟨.remove (.ref k podUID), r⟩ := by simp [TeardownFault]
  rcases hout with ⟨rfl, -, -, -, rfl⟩ | ⟨e, rfl, rfl, habs, -⟩
  · -- The reference is gone, and with it the last entry of `refs`.
    have hempty : ∃ d rs, (NodeState.erase { s with locks := insert k.name s.locks }
        (.ref k podUID)).dir k = some d ∧ d.refs = some rs ∧ rs.keys = [] := by
      obtain ⟨d, rs, hd, hrs, hkeys⟩ := honly
      refine ⟨_, rs.erase podUID, dir_modifyKey_self _ _ _, ?_, ?_⟩
      · simp [show ({ s with locks := insert k.name s.locks } : NodeState).dir k = some d from hd, hrs]
      · simp [AList.keys_erase, hkeys]
    have hdirs := (outcome_of_step hremove.1).mountDirs
      (s := { s with locks := insert k.name s.locks }) hs
    rcases releaseGlobalMount_spec podUID hrest hdirs hempty with
      ⟨-, hgone, hno⟩ | ⟨-, hlost, e, he, hfault⟩
    · exact .inr (.inl ⟨hgone, List.forall_mem_cons.mpr ⟨hfirst, hno⟩⟩)
    · exact .inr (.inr ⟨hlost, e, List.mem_cons_of_mem _ he, hfault⟩)
  · -- Nothing has changed: the reference exists, so the error is one that ends the call.
    have hkind : e.kind ≠ .notExist := fun he => by
      have hpresent : s.pathPresent (.ref k podUID) = false := habs he
      simp [honly.ref] at hpresent
    simp only [unlessNotExist, Option.filter, hkind, ne_eq, not_false_eq_true, decide_true,
      if_true] at hrest
    obtain ⟨rfl, rfl, rfl⟩ := exec_pure.mp hrest
    exact .inl ⟨honly, by simp, by simpa using hfirst⟩

/-! ## One call -/

/-- Cleaning up references of other keys does not name the key. -/
theorem all_cleanUpReferences_of_ne (hu : podUID ≠ "")
    (hsep : ∀ c ∈ podUID.toList, notSeparator c = true)
    (hrefs : ∀ p ∈ refPaths, ∃ k', p = .ref k' podUID ∧ k' ≠ k) :
    (cleanUpReferences srv refPaths).All fun o : Op => opKey o ≠ some k := by
  induction refPaths with
  | nil => exact .pure
  | cons p rest ih =>
    obtain ⟨⟨k', rfl, hne⟩, hrest⟩ := List.forall_mem_cons.mp hrefs
    rw [cleanUpReferences, extractKey_ref k' hu hsep]
    exact .bind (cleanUpIAMReferenceForKey_avoids srv hne podUID) fun _ =>
      .bind (ih hrest) fun _ => .pure

/-- The loop over the references, among them the one of the key. -/
theorem cleanUpReferences_left (hu : podUID ≠ "")
    (hsep : ∀ c ∈ podUID.toList, notSeparator c = true)
    (hrefs : ∀ p ∈ refPaths, ∃ k', p = .ref k' podUID) (hnodup : refPaths.Nodup)
    (hmem : .ref k podUID ∈ refPaths) {errs : List String}
    (h : Exec retryStep (cleanUpReferences srv refPaths) s tr errs s') (hs : MountDirs s)
    (honly : OnlyUser s k podUID) : Left srv k podUID tr (errs ≠ []) s' := by
  induction refPaths generalizing s tr errs with
  | nil => simp at hmem
  | cons p rest ih =>
    obtain ⟨⟨k', rfl⟩, hrest⟩ := List.forall_mem_cons.mp hrefs
    obtain ⟨hnot, hnodup⟩ := List.nodup_cons.mp hnodup
    rw [cleanUpReferences, extractKey_ref k' hu hsep] at h
    obtain ⟨tr₁, err, s₁, tr₂, hone, hloop, rfl⟩ := exec_bind.mp h
    obtain ⟨tr₃, errs', s₂, tr₄, htail, hret, rfl⟩ := exec_bind.mp hloop
    obtain ⟨rfl, rfl, rfl⟩ := exec_pure.mp hret
    by_cases hk : k' = k
    · subst hk
      have hother : ∀ p ∈ rest, ∃ k₁, p = .ref k₁ podUID ∧ k₁ ≠ k' := fun p hp => by
        obtain ⟨k₁, rfl⟩ := hrest p hp
        exact ⟨k₁, rfl, fun heq => hnot (heq ▸ hp)⟩
      obtain ⟨hsame, hno⟩ := exec_avoids srv (all_cleanUpReferences_of_ne hu hsep hother) htail
      have hleft := cleanUpIAMReferenceForKey_left hone hs honly
      have hfailed : err ≠ none → err.toList ++ errs' ≠ [] := by cases err <;> simp
      simpa using (hleft.failed_mono hfailed).append_right hsame hno
    · obtain ⟨hsame, hno⟩ := exec_avoids srv (cleanUpIAMReferenceForKey_avoids srv hk podUID) hone
      have hmem' : .ref k podUID ∈ rest :=
        (List.mem_cons.mp hmem).resolve_left fun heq => hk (Path.ref.inj heq).1.symm
      have hleft := ih hrest hnodup hmem' htail (exec_mountDirs step_of_retryStep hone hs)
        (honly.same hsame)
      have hfailed : errs' ≠ [] → err.toList ++ errs' ≠ [] := by cases err <;> simp
      simpa using (hleft.failed_mono hfailed).append_left hno

/-- With directories read in full, the listing is the list of all keys that have the name. -/
theorem keysListing_eq {dirOf : Key → Path} {name : String} {ks found : List Key}
    (h : Exec retryStep (keysListing dirOf name ks) s tr found s') :
    found = ks.filter fun k => name ∈ s.names (dirOf k) := by
  induction ks generalizing found tr s s' with
  | nil =>
    obtain ⟨-, rfl, -⟩ := exec_pure.mp h
    rfl
  | cons k ks ih =>
    obtain ⟨names, s₁, tr₁, hread, -, hrest⟩ := exec_perform_bind.mp h
    obtain ⟨rfl, -, hnames⟩ := outcome_of_step hread.1
    have hfull : name ∈ names ↔ name ∈ s₁.names (dirOf k) := ⟨hnames name, hread.2 name⟩
    obtain ⟨tr₂, rest, s₂, tr₃, hlist, hret, -⟩ := exec_bind.mp hrest
    obtain ⟨-, rfl, -⟩ := exec_pure.mp hret
    rw [ih hlist]
    simp only [List.filter_cons, hfull, decide_eq_true_eq]

/-- The glob finds every reference of the pod, and none twice. -/
theorem globPodReferences_full (h : Exec retryStep (globPodReferences podUID) s tr refPaths s') :
    refPaths.Nodup ∧ (s.pathPresent (.ref k podUID) = true → .ref k podUID ∈ refPaths) := by
  obtain ⟨ks, s₁, tr₁, hread, -, hrest⟩ := exec_perform_bind.mp h
  obtain ⟨rfl, hnodup, -⟩ := outcome_of_step hread.1
  obtain ⟨tr₂, ks₂, s₂, tr₃, hdirs, hrest₂, -⟩ := exec_bind.mp hrest
  obtain ⟨rfl, -⟩ := exec_keysListing step_of_retryStep hdirs
  obtain rfl := keysListing_eq hdirs
  obtain ⟨tr₄, ks₃, s₃, tr₅, hrefs, hret, -⟩ := exec_bind.mp hrest₂
  obtain rfl := keysListing_eq hrefs
  obtain ⟨-, rfl, -⟩ := exec_pure.mp hret
  refine ⟨((hnodup.filter _).filter _).map fun k k' heq => (Path.ref.inj heq).1, fun hpresent => ?_⟩
  obtain ⟨d, rs, hd, hrs, hmem⟩ := pathPresent_ref_iff.mp hpresent
  have hkey : k ∈ s₂.keys.keys := AList.mem_keys.mp (AList.lookup_isSome.mp (by
    rw [show s₂.keys.lookup k = some d from hd]
    rfl))
  refine List.mem_map.mpr ⟨k, List.mem_filter.mpr ⟨List.mem_filter.mpr ⟨hread.2 k hkey, ?_⟩, ?_⟩, rfl⟩
  · simp [NodeState.names, hd, hrs]
  · simpa [NodeState.names, hd, hrs] using AList.mem_keys.mp hmem

/-- The parts of a call around the loop over the references do not touch the key. -/
theorem unpublish_split {targetPath : String}
    (huid : getPodUIDFromTargetPath targetPath = some podUID)
    (h : Exec retryStep (nodeUnpublishVolume srv ⟨targetPath⟩) s tr a s') (hs : MountDirs s) :
    (a ≠ none ∧ SameKey k s s' ∧ ∀ e ∈ tr, ¬TeardownFault srv k e) ∨
      ∃ tr₁ refPaths s₁ tr₂ errs s₂ tr₃, (a = none ↔ errs = []) ∧ MountDirs s₁ ∧
        SameKey k s s₁ ∧ Exec retryStep (globPodReferences podUID) s₁ tr₁ refPaths s₁ ∧
        Exec retryStep (cleanUpReferences srv refPaths) s₁ tr₂ errs s₂ ∧ SameKey k s₂ s' ∧
        (∀ e ∈ tr₃, ¬TeardownFault srv k e) ∧
        tr = tr₃ ++ tr₂ ++ [⟨.release targetPath, ()⟩] := by
  rcases exec_nodeUnpublishVolume step_of_retryStep huid h with
    ⟨-, ha, rfl, rfl⟩ | ⟨-, tr₁, err, s₁, tr₂, s₂, hunmount, hrest, rfl, rfl⟩
  · exact .inl ⟨ha, .refl k _, by simp [TeardownFault]⟩
  have hall : (unmountPath srv (.outside targetPath)).All fun o : Op => opKey o ≠ some k :=
    all_unmountPath srv (by simp [opKey]) (by simp [opKey, Path.key?]) (by simp [opKey, Path.key?])
  obtain ⟨hsame, hno⟩ := exec_avoids srv hall hunmount
  have hlocked : SameKey k s { s with locks := insert targetPath s.locks } := ⟨rfl, rfl⟩
  have hunlocked : SameKey k s₂ { s₂ with locks := s₂.locks.erase targetPath } := ⟨rfl, rfl⟩
  have hdirs : MountDirs s₁ := exec_mountDirs step_of_retryStep hunmount hs
  rcases hrest with ⟨-, ha, rfl, rfl⟩ | ⟨tr₃, refPaths, tr₄, errs, -, ha, hglob, hloop, rfl⟩
  · refine .inl ⟨ha, (hlocked.trans hsame).trans hunlocked, fun e he => ?_⟩
    simp only [List.append_nil, List.cons_append, List.mem_cons, List.mem_append,
      List.not_mem_nil, or_false] at he
    rcases he with rfl | he | rfl
    · simp [TeardownFault]
    · exact hno e he
    · simp [TeardownFault]
  · have hallGlob : (globPodReferences podUID).All fun o : Op => opKey o ≠ some k :=
      all_globPodReferences podUID (by simp [opKey]) (by simp [opKey])
    obtain ⟨-, hnoGlob⟩ := exec_avoids srv hallGlob hglob
    refine .inr ⟨tr₃, refPaths, s₁, tr₄, errs, s₂, ⟨.tryAcquire targetPath, true⟩ :: (tr₁ ++ tr₃),
      ha, hdirs, hlocked.trans hsame, hglob, hloop, hunlocked, ?_, by simp⟩
    refine List.forall_mem_cons.mpr ⟨by simp [TeardownFault], List.forall_mem_append.mpr ⟨hno, hnoGlob⟩⟩

/-- One more call. -/
theorem Left.call {targetPath : String} (huid : getPodUIDFromTargetPath targetPath = some podUID)
    (hplain : PlainUID podUID) {tr tr' : List (Event nodeSig)} {failed : Prop} {s s' : NodeState}
    {a : Option Status} (hleft : Left srv k podUID tr failed s) (hs : MountDirs s)
    (h : Exec retryStep (nodeUnpublishVolume srv ⟨targetPath⟩) s tr' a s') :
    Left srv k podUID (tr ++ tr') (a ≠ none) s' := by
  obtain ⟨-, hne, -⟩ := getPodUIDFromTargetPath_spec huid
  have hsep := notSeparator_of_uid huid fun hc => hplain _ hc (by simp)
  have hrelease : ∀ e ∈ [(⟨.release targetPath, ()⟩ : Event nodeSig)], ¬TeardownFault srv k e := by
    simp [TeardownFault]
  rcases unpublish_split (k := k) huid h hs with ⟨ha, hsame, hno⟩ |
    ⟨tr₁, refPaths, s₁, tr₂, errs, s₂, tr₃, ha, hdirs, hsame, hglob, hloop, hsame', hno, rfl⟩
  · exact (hleft.failed_mono fun _ => ha).append_right hsame hno
  obtain ⟨-, hfound⟩ := exec_globPodReferences step_of_retryStep hglob
  have hrefs : ∀ p ∈ refPaths, ∃ k', p = .ref k' podUID := fun p hp => by
    obtain ⟨k', hk', -⟩ := hfound p hp
    exact ⟨k', hk'⟩
  by_cases href : s.pathPresent (.ref k podUID) = true
  · -- The pod is still the only user, and the loop comes to its reference.
    rcases hleft with ⟨honly, -, hno'⟩ | ⟨hgone, -⟩ | ⟨hlost, -⟩
    · obtain ⟨hnodup, hmem⟩ := globPodReferences_full (k := k) hglob
      have hmem := hmem (((hsame.pathPresent rfl).trans href))
      have hpart := cleanUpReferences_left hne hsep hrefs hnodup hmem hloop hdirs (honly.same hsame)
      have hpart : Left srv k podUID tr₂ (a ≠ none) s₂ := hpart.failed_mono (mt ha.mp)
      exact ((hpart.append_left hno).append_right hsame' hrelease).append_left hno'
    · simp [NodeState.pathPresent, hgone.dir] at href
    · simp [hlost.ref] at href
  · -- Without the reference no call finds the key.
    have hother : ∀ p ∈ refPaths, ∃ k', p = .ref k' podUID ∧ k' ≠ k := fun p hp => by
      obtain ⟨k', rfl, hpresent⟩ := hfound p hp
      refine ⟨k', rfl, ?_⟩
      rintro rfl
      rw [hsame.pathPresent rfl] at hpresent
      exact href hpresent
    obtain ⟨hsame₂, hno₂⟩ := exec_avoids srv (all_cleanUpReferences_of_ne hne hsep hother) hloop
    rcases hleft with ⟨honly, -⟩ | hrest
    · exact absurd honly.ref href
    refine Left.append_right (.inr hrest) ((hsame.trans hsame₂).trans hsame') ?_
    exact List.forall_mem_append.mpr ⟨List.forall_mem_append.mpr ⟨hno, hno₂⟩, hrelease⟩

/-- Along every sequence of calls. -/
theorem Retries.left {targetPath : String} (huid : getPodUIDFromTargetPath targetPath = some podUID)
    (hplain : PlainUID podUID) (h : Retries srv targetPath k s tr s') (honly : OnlyUser s k podUID) :
    Left srv k podUID tr True s' := by
  induction h with
  | start => exact .inl ⟨honly, trivial, by simp⟩
  | call _ hbetween hrun ih =>
    exact ((ih.same hbetween.same).call huid hplain hbetween.mountDirs hrun).failed_mono fun _ => trivial

/-- After any number of calls for the target path of the only pod that references a key, of
which the last one succeeded, the key is unmounted and its directory gone exactly when no step
of its teardown behind the removal of the reference has failed in any of the calls.
SOURCE: pkg/csi_driver/node.go:477-500, 839-926; pkg/csi_driver/unmount.go:100-154 -/
theorem converged_iff (srv : NodeServer) (targetPath podUID : String)
    (huid : getPodUIDFromTargetPath targetPath = some podUID) (hplain : PlainUID podUID) (k : Key)
    (s s₁ s₂ s' : NodeState) (tr tr' : List (Event nodeSig)) (honly : OnlyUser s k podUID)
    (hretries : Retries srv targetPath k s tr s₁) (hbetween : Between k s₁ s₂)
    (hlast : Exec retryStep (nodeUnpublishVolume srv ⟨targetPath⟩) s₂ tr' none s') :
    Gone s' k ↔ ∀ e ∈ tr ++ tr', ¬TeardownFault srv k e := by
  have hleft := (hretries.left huid hplain honly).same hbetween.same
  rcases hleft.call huid hplain hbetween.mountDirs hlast with
    ⟨-, hfailed, -⟩ | ⟨hgone, hno⟩ | ⟨hlost, e, he, hfault⟩
  · exact absurd rfl hfailed
  · exact ⟨fun _ => hno, fun _ => hgone⟩
  · refine ⟨fun hgone => ?_, fun hno => absurd hfault (hno e he)⟩
    have hdir := hlost.dir
    simp [hgone.dir] at hdir

/-! ## A lazy unmount that fails -/

open Sample

/-- `FullRead` as a test. -/
def fullRead (s : NodeState) : (o : Op) → o.Res → Bool
  | .readRoot, ks => s.keys.keys.all fun k => (show List Key from ks).contains k
  | .readDirNames p, ns => (s.names p).all fun n => (show List String from ns).contains n
  | _, _ => true

/-- The check of an answer decides whether a directory was read fully. -/
theorem fullRead_iff : fullRead s o r = true ↔ FullRead s o r := by
  cases o <;> simp [fullRead, FullRead]

instance (s : NodeState) (o : Op) (r : o.Res) : Decidable (FullRead s o r) :=
  decidable_of_iff _ fullRead_iff

/-- The pod of the sample is the only user of its key. -/
theorem onlyUser_oneVolume : OnlyUser oneVolume digestABC "u1" :=
  ⟨_, _, AList.lookup_insert _, rfl, rfl⟩

/-- The sample has mounts in directories only. -/
theorem mountDirs_oneVolume : MountDirs oneVolume := by
  intro k hk
  obtain rfl : k = digestABC := by
    simp only [NodeState.mounted, NodeState.mountsAt, oneVolume] at hk
    by_contra hne
    simp [Ne.symm hne] at hk
  decide +kernel

/-- The `umount` of a mount that is in use. -/
def busy : Choice := .umounted "target is busy" (some "exit status 32") false

/-- The first call: the reference goes, and then the key cannot be unmounted. -/
def firstCall : List Choice :=
  [.ok, .probe (.ok false), .umounted "" none true, .ok, .keys [digestABC],
    .names ["mount", "refs", "token"], .names ["u1"], .ok, .ok, .ok, .probe (.ok false), busy, busy,
    busy, .ok, .ok]

/-- The second call: nothing fails, and there is nothing to do any more. -/
def secondCall : List Choice :=
  [.ok, .probe (.error ⟨.notExist, "no such file or directory"⟩), .ok, .keys [digestABC],
    .names ["mount", "token"], .ok]

/-- The first call fails, the second succeeds, and the key is still mounted. -/
theorem play_calls :
    ((play (S := nodeSig) (execWhere FullRead) (nodeUnpublishVolume sampleServer ⟨targetPath⟩)
      firstCall oneVolume).bind fun rs =>
        (play (S := nodeSig) (execWhere FullRead) (nodeUnpublishVolume sampleServer ⟨targetPath⟩)
          secondCall rs.2).map fun rs' =>
            (rs.1.isSome, rs'.1, rs'.2.mounted (.mount digestABC))) = some (true, none, true) := by
  decide +kernel

/-- The two calls, as a sequence of retries. -/
theorem retries_calls : ∃ s₁ s' tr tr',
    Retries sampleServer targetPath digestABC oneVolume tr s₁ ∧ Between digestABC s₁ s₁ ∧
      Exec retryStep (nodeUnpublishVolume sampleServer ⟨targetPath⟩) s₁ tr' none s' ∧
      s'.mounted (.mount digestABC) = true := by
  obtain ⟨⟨a, s₁⟩, hfirst, hrest⟩ := Option.bind_eq_some_iff.mp play_calls
  obtain ⟨⟨a', s'⟩, hsecond, hafter⟩ := Option.map_eq_some_iff.mp hrest
  simp only [Prod.mk.injEq] at hafter
  obtain ⟨-, rfl, hm⟩ := hafter
  obtain ⟨tr, htr⟩ := play_exec _ hfirst
  obtain ⟨tr', htr'⟩ := play_exec _ hsecond
  have hrun : Exec retryStep _ oneVolume tr a s₁ := htr.mono fun _ _ _ _ => step_of_execWhere
  have hdirs : MountDirs s₁ := exec_mountDirs step_of_retryStep hrun mountDirs_oneVolume
  exact ⟨s₁, s', _, tr', .call .start ⟨.refl _ _, mountDirs_oneVolume⟩ hrun, ⟨.refl _ _, hdirs⟩,
    htr'.mono fun _ _ _ _ => step_of_execWhere, hm⟩

/-- The key is still there after the last call, and so a step of its teardown has failed. -/
theorem converged_calls : ∃ s₁ s' tr tr',
    Retries sampleServer targetPath digestABC oneVolume tr s₁ ∧
      Exec retryStep (nodeUnpublishVolume sampleServer ⟨targetPath⟩) s₁ tr' none s' ∧
      ¬Gone s' digestABC ∧ ∃ e ∈ tr ++ tr', TeardownFault sampleServer digestABC e := by
  obtain ⟨s₁, s', tr, tr', hretries, hbetween, hlast, hm⟩ := retries_calls
  have hiff := converged_iff sampleServer targetPath "u1" getPodUIDFromTargetPath_targetPath
    (by decide) digestABC oneVolume s₁ s₁ s' tr tr' onlyUser_oneVolume hretries hbetween hlast
  have hleft : ¬Gone s' digestABC := fun hgone => by simp [hgone.mount] at hm
  have hfault : ∃ e ∈ tr ++ tr', TeardownFault sampleServer digestABC e := by
    by_contra hno
    push Not at hno
    exact hleft (hiff.mpr hno)
  exact ⟨s₁, s', tr, tr', hretries, hlast, hleft, hfault⟩

/-- A sequence of calls that ends with a success does not always finish the teardown. -/
theorem not_converged :
    ¬∀ (srv : NodeServer) (targetPath podUID : String),
      getPodUIDFromTargetPath targetPath = some podUID → PlainUID podUID →
      ∀ (k : Key) (s s₁ s₂ s' : NodeState) (tr tr' : List (Event nodeSig)),
        OnlyUser s k podUID → Retries srv targetPath k s tr s₁ → Between k s₁ s₂ →
        Exec retryStep (nodeUnpublishVolume srv ⟨targetPath⟩) s₂ tr' none s' → Gone s' k := by
  intro hconverged
  obtain ⟨s₁, s', tr, tr', hretries, hbetween, hlast, hm⟩ := retries_calls
  have hgone := hconverged sampleServer targetPath "u1" getPodUIDFromTargetPath_targetPath
    (by decide) digestABC oneVolume s₁ s₁ s' tr tr' onlyUser_oneVolume hretries hbetween hlast
  simp [hgone.mount] at hm

end LustreCsi.Analysis.UnpublishRetry
