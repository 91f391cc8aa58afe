import LustreCsi.Interface.Footprints
import LustreCsi.Interface.NodePool
import LustreCsi.Interface.Paths

/-!
# Handlers run alone

Runs of node programs without interference: what a run leaves as it was is read off the operations
of the program, `withLock` is entered exactly when the lock is free, and the directory listings of
`filepath.Glob` find only references that exist. Every operation has an outcome.
-/

set_option autoImplicit false

namespace LustreCsi.Interface

open LustreCsi.Computation Model

variable {s s' : NodeState} {k : Key} {u x : String} {α : Type} {tr : List (Event nodeSig)} {a : α}
  {p : NodeM α}

/-- A name found in the directory of references is a reference. -/
theorem pathPresent_ref_of_name (h : u ∈ s.names (.refs k)) : s.pathPresent (.ref k u) = true := by
  cases hd : s.dir k with
  | none => simp [NodeState.names, hd] at h
  | some d =>
    cases hrs : d.refs with
    | none => simp [NodeState.names, hd, hrs] at h
    | some rs =>
      refine pathPresent_ref_iff.mpr ⟨d, rs, hd, hrs, ?_⟩
      exact AList.mem_keys.mpr (by simpa [NodeState.names, hd, hrs] using h)

/-- Cleaning up the reference of one key names no other key. -/
theorem cleanUpIAMReferenceForKey_avoids (srv : NodeServer) {k' : Key} (hne : k' ≠ k) (u : String) :
    (cleanUpIAMReferenceForKey srv k' (.ref k' u)).All fun o : Op => opKey o ≠ some k := by
  have hkey : some k' ≠ some k := fun heq => hne (Option.some.inj heq)
  refine all_cleanUpIAMReferenceForKey srv ?_ ?_ ?_ ?_ ?_ ?_ ?_
  · simp [opKey]
  · simp [opKey]
  · exact hkey
  · simp [opKey]
  · exact fun _ => hkey
  · exact fun p hp => by rwa [opKey, hp]
  · exact hkey

section Runs

variable {step : NodeState → (o : nodeSig.Op) → nodeSig.Res o → NodeState → Prop}
  (hsub : ∀ {s o r s'}, step s o r s' → NodeState.step s o r s')

/-- A run that begins with an operation. -/
theorem exec_perform_bind {o : Op} {f : o.Res → NodeM α} :
    Exec step (perform o >>= f) s tr a s' ↔
      ∃ r s₁ tr₁, step s o r s₁ ∧ tr = ⟨o, r⟩ :: tr₁ ∧ Exec step (f r) s₁ tr₁ a s' := Iff.rfl

/-- A run of a program that returns. -/
theorem exec_pure {b : α} :
    Exec step (pure b : NodeM α) s tr a s' ↔ tr = [] ∧ a = b ∧ s' = s := Iff.rfl

include hsub

/-- A program that does not name a key leaves it as it was. -/
theorem exec_sameKey (hp : p.All fun o : Op => opKey o ≠ some k) (h : Exec step p s tr a s') :
    SameKey k s s' := by
  refine h.rel (R := SameKey k) (SameKey.refl k) (fun _ _ _ h h' => h.trans h') ?_ hp
  intro s o r s' ho hs
  exact (outcome_of_step (hsub hs)).frame ho

/-- A program that does not mount on a path or unmount it leaves its mounts as they were. -/
theorem exec_mountsAt {q : Path} (hp : p.All fun o : Op => opMount o ≠ some q)
    (h : Exec step p s tr a s') : s'.mountsAt q = s.mountsAt q := by
  refine h.rel (R := fun s s' : NodeState => s'.mountsAt q = s.mountsAt q) (fun _ => rfl) ?_ ?_ hp
  · intro s₁ s₂ s₃ h h'
    exact h'.trans h
  intro s o r s' ho hs
  exact (outcome_of_step (hsub hs)).mountsAt_eq ho

/-- A program that does not create a reference leaves it absent. -/
theorem exec_ref_absent (hp : p.All fun o : Op => o ≠ .openTrunc (.ref k u))
    (h : Exec step p s tr a s') (habs : s.pathPresent (.ref k u) = false) :
    s'.pathPresent (.ref k u) = false := by
  refine h.rel (R := fun s s' : NodeState => s.pathPresent (.ref k u) = false →
    s'.pathPresent (.ref k u) = false) (fun _ h => h) ?_ ?_ hp habs
  · intro s₁ s₂ s₃ h h' habs
    exact h' (h habs)
  intro s o r s' ho hs habs
  exact (outcome_of_step (hsub hs)).ref_absent habs ho

/-- A program keeps the mount points in existence. -/
theorem exec_mountDirs (h : Exec step p s tr a s') (hs : MountDirs s) : MountDirs s' := by
  refine h.rel (R := fun s s' => MountDirs s → MountDirs s') (fun _ h => h)
    (fun _ _ _ h h' hs => h' (h hs)) ?_ (Program.All.trivial p) hs
  intro s o r s' _ hs
  exact (outcome_of_step (hsub hs)).mountDirs

/-- A program that does not remove the directory of a key keeps it. -/
theorem exec_dir_isSome (hp : p.All fun o : Op => o ≠ .removeAll k ∧ o ≠ .remove (.keyDir k))
    (h : Exec step p s tr a s') (hk : (s.dir k).isSome) :
    (s'.dir k).isSome := by
  refine h.rel (R := fun s s' : NodeState => (s.dir k).isSome → (s'.dir k).isSome) (fun _ h => h)
    ?_ ?_ hp hk
  · intro s₁ s₂ s₃ h h' hk
    exact h' (h hk)
  intro s o r s' ho hs hk
  exact (outcome_of_step (hsub hs)).dir_isSome hk ho.1 ho.2

/-- A program without lock operations leaves the lock set as it is. -/
theorem exec_locks (hp : p.All fun o : Op => ∀ r, lockEvent ⟨o, r⟩ = none)
    (h : Exec step p s tr a s') : s'.locks = s.locks := by
  refine h.rel (R := fun s s' : NodeState => s'.locks = s.locks) (fun _ => rfl) ?_ ?_ hp
  · intro s₁ s₂ s₃ h h'
    exact h'.trans h
  intro s o r s' ho hs
  exact (outcome_of_step (hsub hs)).locks (ho r)

/-- A lock that is taken stays so, unless the program releases it. -/
theorem exec_locked (hp : p.All fun o : Op => o ≠ .release x) (h : Exec step p s tr a s')
    (hx : x ∈ s.locks) : x ∈ s'.locks := by
  refine h.rel (R := fun s s' : NodeState => x ∈ s.locks → x ∈ s'.locks) (fun _ h => h) ?_ ?_ hp hx
  · intro s₁ s₂ s₃ h h' hx
    exact h' (h hx)
  intro s o r s' ho hs hx
  have hout := outcome_of_step (hsub hs)
  cases o with
  | tryAcquire y => rcases hout with ⟨-, -, rfl⟩ | ⟨-, -, rfl⟩ <;> simp [hx]
  | release y =>
    obtain rfl : s' = _ := hout
    exact Finset.mem_erase.mpr ⟨fun heq => ho (by rw [heq]), hx⟩
  | _ => rwa [hout.locks rfl]

/-- `withLock` refuses when the lock is taken, and otherwise runs the body with it. -/
theorem exec_withLock {ε : Type} {refused : ε} {body : NodeM (Option ε)} {a : Option ε}
    (h : Exec step (withLock x refused body) s tr a s') :
    (x ∈ s.locks ∧ a = some refused ∧ s' = s ∧ tr = [⟨.tryAcquire x, false⟩]) ∨
      (x ∉ s.locks ∧ ∃ tr₁ s₁, Exec step body { s with locks := insert x s.locks } tr₁ a s₁ ∧
        s' = { s₁ with locks := s₁.locks.erase x } ∧
        tr = ⟨.tryAcquire x, true⟩ :: tr₁ ++ [⟨.release x, ()⟩]) := by
  obtain ⟨r, s₁, tr₁, hs, rfl, hrest⟩ := exec_perform_bind.mp h
  rcases outcome_of_step (hsub hs) with ⟨rfl, hfree, rfl⟩ | ⟨rfl, htaken, rfl⟩
  · obtain ⟨tr₂, err, s₂, tr₃, hbody, hafter, rfl⟩ := exec_bind.mp hrest
    obtain ⟨r, s₃, tr₄, hrel, rfl, hret⟩ := exec_perform_bind.mp hafter
    obtain ⟨rfl, rfl, rfl⟩ := exec_pure.mp hret
    obtain rfl : s' = _ := outcome_of_step (hsub hrel)
    exact .inr ⟨hfree, tr₂, s₂, hbody, rfl, rfl⟩
  · obtain ⟨rfl, rfl, rfl⟩ := exec_pure.mp hrest
    exact .inl ⟨htaken, rfl, rfl, rfl⟩

/-- Listing directories changes nothing, and finds only keys whose directory has the name. -/
theorem exec_keysListing {dirOf : Key → Path} {name : String} {ks found : List Key}
    (h : Exec step (keysListing dirOf name ks) s tr found s') :
    s' = s ∧ ∀ k ∈ found, k ∈ ks ∧ name ∈ s.names (dirOf k) := by
  induction ks generalizing found tr s s' with
  | nil =>
    obtain ⟨-, rfl, rfl⟩ := exec_pure.mp h
    exact ⟨rfl, by simp⟩
  | cons k ks ih =>
    obtain ⟨names, s₁, tr₁, hs, -, hrest⟩ := exec_perform_bind.mp h
    obtain ⟨rfl, -, hnames⟩ := outcome_of_step (hsub hs)
    obtain ⟨tr₂, rest, s₂, tr₃, hlist, hret, -⟩ := exec_bind.mp hrest
    obtain ⟨rfl, hfound⟩ := ih hlist
    obtain ⟨-, rfl, rfl⟩ := exec_pure.mp hret
    refine ⟨rfl, fun k' hk' => ?_⟩
    split at hk'
    · rename_i hmem
      rcases List.mem_cons.mp hk' with rfl | hk'
      · exact ⟨List.mem_cons_self, hnames _ hmem⟩
      · exact ⟨List.mem_cons_of_mem _ (hfound k' hk').1, (hfound k' hk').2⟩
    · exact ⟨List.mem_cons_of_mem _ (hfound k' hk').1, (hfound k' hk').2⟩

/-- The glob changes nothing and finds only references of the pod that exist. -/
theorem exec_globPodReferences {refPaths : List Path}
    (h : Exec step (globPodReferences u) s tr refPaths s') :
    s' = s ∧ ∀ p ∈ refPaths, ∃ k, p = .ref k u ∧ s.pathPresent (.ref k u) = true := by
  obtain ⟨ks, s₁, tr₁, hs, -, hrest⟩ := exec_perform_bind.mp h
  obtain ⟨rfl, -⟩ := outcome_of_step (hsub hs)
  obtain ⟨tr₂, ks₂, s₂, tr₃, hdirs, hrest₂, -⟩ := exec_bind.mp hrest
  obtain ⟨rfl, -⟩ := exec_keysListing hsub hdirs
  obtain ⟨tr₄, ks₃, s₃, tr₅, hrefs, hret, -⟩ := exec_bind.mp hrest₂
  obtain ⟨rfl, hfound⟩ := exec_keysListing hsub hrefs
  obtain ⟨-, rfl, rfl⟩ := exec_pure.mp hret
  refine ⟨rfl, fun p hp => ?_⟩
  obtain ⟨k, hk, rfl⟩ := List.mem_map.mp hp
  exact ⟨k, rfl, pathPresent_ref_of_name (hfound k hk).2⟩

/-- The runs of `NodeUnpublishVolume` for the target path of a pod: refused, ended by a failed
unmount of the target, or gone through the references that the glob has found. -/
theorem exec_nodeUnpublishVolume {srv : NodeServer} {targetPath podUID : String}
    (huid : getPodUIDFromTargetPath targetPath = some podUID) {a : Option Status}
    (h : Exec step (nodeUnpublishVolume srv ⟨targetPath⟩) s tr a s') :
    (targetPath ∈ s.locks ∧ a ≠ none ∧ s' = s ∧ tr = [⟨.tryAcquire targetPath, false⟩]) ∨
      (targetPath ∉ s.locks ∧ ∃ tr₁ err s₁ tr₂ s₂,
        Exec step (unmountPath srv (.outside targetPath))
          { s with locks := insert targetPath s.locks } tr₁ err s₁ ∧
        ((err ≠ none ∧ a ≠ none ∧ s₂ = s₁ ∧ tr₂ = []) ∨
          ∃ tr₃ refPaths tr₄ errs, err = none ∧ (a = none ↔ errs = []) ∧
            Exec step (globPodReferences podUID) s₁ tr₃ refPaths s₁ ∧
            Exec step (cleanUpReferences srv refPaths) s₁ tr₄ errs s₂ ∧ tr₂ = tr₃ ++ tr₄) ∧
        s' = { s₂ with locks := s₂.locks.erase targetPath } ∧
        tr = ⟨.tryAcquire targetPath, true⟩ :: (tr₁ ++ tr₂) ++ [⟨.release targetPath, ()⟩]) := by
  have hempty : targetPath ≠ "" := by
    rintro rfl
    simpa using (getPodUIDFromTargetPath_spec huid).1
  rw [nodeUnpublishVolume, if_neg hempty] at h
  rcases exec_withLock hsub h with ⟨hlock, rfl, rfl, rfl⟩ | ⟨hfree, tr₀, s₂, hbody, rfl, rfl⟩
  · exact .inl ⟨hlock, by simp, rfl, rfl⟩
  obtain ⟨tr₁, err, s₁, tr₂, hunmount, hclean, rfl⟩ := exec_bind.mp hbody
  refine .inr ⟨hfree, tr₁, err, s₁, tr₂, s₂, hunmount, ?_, rfl, rfl⟩
  cases err with
  | some err =>
    obtain ⟨rfl, rfl, rfl⟩ := exec_pure.mp hclean
    exact .inl ⟨by simp, by simp, rfl, rfl⟩
  | none =>
    obtain ⟨tr₃, text, s₃, tr₄, hreferences, hret, rfl⟩ := exec_bind.mp hclean
    obtain ⟨rfl, rfl, rfl⟩ := exec_pure.mp hret
    rw [cleanUpIAMReference, huid] at hreferences
    obtain ⟨tr₅, refPaths, s₄, tr₆, hglob, hrest, rfl⟩ := exec_bind.mp hreferences
    obtain ⟨rfl, -⟩ := exec_globPodReferences hsub hglob
    obtain ⟨tr₇, errs, s₅, tr₈, hloop, hret₂, rfl⟩ := exec_bind.mp hrest
    obtain ⟨rfl, rfl, rfl⟩ := exec_pure.mp hret₂
    refine .inr ⟨tr₅, refPaths, tr₇, errs, rfl, ?_, hglob, hloop, by simp⟩
    cases errs <;> simp

end Runs

/-- With accurate answers `isMounted` changes nothing. It takes no path for mounted that is
not, and one that is for unmounted only if the path does not exist. -/
theorem exec_isMounted {p : Path} {r : Except Status Bool}
    (h : Exec (nodeStep True) (isMounted p) s tr r s') :
    s' = s ∧ (r = .ok true → s.mounted p = true) ∧
      (r = .ok false → s.mounted p = true → s.pathPresent p = false) := by
  obtain ⟨answer, s₁, tr₁, hprobe, -, hrest⟩ := exec_perform_bind.mp h
  obtain rfl : s₁ = s := outcome_of_nodeStep hprobe
  have hacc := hprobe.2 trivial
  cases answer with
  | ok notMnt =>
    obtain ⟨-, rfl, rfl⟩ := exec_pure.mp hrest
    obtain rfl : notMnt = !s'.mounted p := hacc
    cases s'.mounted p <;> simp
  | error e =>
    simp only at hrest
    split at hrest
    · obtain ⟨-, rfl, rfl⟩ := exec_pure.mp hrest
      exact ⟨rfl, by simp, fun _ _ => hacc ‹_›⟩
    obtain ⟨tr₂, res, s₂, tr₃, hexists, hafter, -⟩ := exec_bind.mp hrest
    obtain ⟨rs, s₃, tr₄, hstat, -, hret⟩ := exec_perform_bind.mp hexists
    obtain ⟨rfl, -⟩ := outcome_of_nodeStep hstat
    have hstatAcc := hstat.2 trivial
    -- No path is reported as a corrupted mount, so that nothing is unmounted here.
    have hres : s₂ = s₃ ∧ ∀ e', res = .error e' → e'.kind ≠ .corrupted := by
      cases rs with
      | none =>
        obtain ⟨-, rfl, rfl⟩ := exec_pure.mp hret
        simp
      | some err =>
        simp only at hret
        split at hret <;> obtain ⟨-, rfl, rfl⟩ := exec_pure.mp hret
        · simp
        refine ⟨rfl, fun e' he' => ?_⟩
        obtain rfl := Except.error.inj he'
        exact hstatAcc
    obtain ⟨rfl, hres⟩ := hres
    cases res with
    | ok b =>
      obtain ⟨-, rfl, rfl⟩ := exec_pure.mp hafter
      simp
    | error e' =>
      simp only [if_neg (hres e' rfl)] at hafter
      obtain ⟨-, rfl, rfl⟩ := exec_pure.mp hafter
      simp

/-- With accurate answers `isMounted` is right about a path that exists. -/
theorem exec_isMounted_ok {p : Path} {b : Bool} (hp : s.pathPresent p = true)
    (h : Exec (nodeStep True) (isMounted p) s tr (.ok b) s') :
    s' = s ∧ s.mounted p = b := by
  obtain ⟨hs', hyes, hno⟩ := exec_isMounted h
  refine ⟨hs', ?_⟩
  cases b with
  | true => exact hyes rfl
  | false =>
    by_contra hm
    have hmissing := hno rfl (by simpa using hm)
    simp [hp] at hmissing

/-- A directory that was created is there. -/
theorem pathPresent_mkdirAll_outside (s : NodeState) (p : String) :
    (s.mkdirAll (.outside p)).pathPresent (.outside p) = true := by
  simp only [NodeState.mkdirAll]
  split
  · assumption
  · simp [NodeState.pathPresent]

/-! ## Building runs -/

section Building

variable {acc : Prop}

/-- A choice of the environment with an accurate answer is a step. -/
theorem nodeStep_of_exec {o : Op} {r : o.Res} (c : Choice) (h : s.exec o c = some (r, s'))
    (hacc : Accurate s o r) : nodeStep acc s o r s' :=
  ⟨⟨c, h⟩, fun _ => hacc⟩

/-- Every operation has an outcome, and an accurate one. -/
theorem nodeStep_total (acc : Prop) (s : NodeState) (o : nodeSig.Op) :
    ∃ r s', nodeStep acc s o r s' := by
  have ok : ∀ c : Choice, (∃ rs, s.exec o c = some rs ∧ Accurate s o rs.1) →
      ∃ r s', nodeStep acc s o r s' := fun c ⟨rs, h, hacc⟩ => ⟨_, _, nodeStep_of_exec c h hacc⟩
  cases o with
  | tryAcquire x => refine ok .ok ?_; simp only [NodeState.exec]; split <;> exact ⟨_, rfl, trivial⟩
  | isLikelyNotMountPoint p => exact ok (.probe (.ok !s.mounted p)) ⟨_, rfl, rfl⟩
  | stat p => exact ok (.fail "" false) ⟨_, rfl, by simp [Accurate]⟩
  | umount flags p => exact ok (.umounted "" (some "") false) ⟨_, rfl, trivial⟩
  | removeAll k =>
    refine ok .ok ?_
    simp only [NodeState.exec]
    split
    · exact ⟨_, rfl, trivial⟩
    · split <;> exact ⟨_, rfl, trivial⟩
  | readRoot => exact ok (.keys []) ⟨([], s), by simp [NodeState.exec], trivial⟩
  | readDirNames p => exact ok (.names []) ⟨([], s), by simp [NodeState.exec], trivial⟩
  | setUpMultiNIC volumeID ip => exact ok (.nic none) ⟨_, rfl, trivial⟩
  | release x | list => exact ok .ok ⟨_, rfl, trivial⟩
  | _ => exact ok (.fail "" false) ⟨_, rfl, trivial⟩

/-- A step, and a run of what follows it. -/
theorem reaches_perform {o : Op} {f : o.Res → NodeM α} {r : o.Res} {s₁ : NodeState}
    (hs : nodeStep acc s o r s₁) (h : Reaches (nodeStep acc) (f r) s₁ a s') :
    Reaches (nodeStep acc) (perform o >>= f) s a s' := .call hs h

/-- When the lock is free, a run of the body is one under the lock. -/
theorem reaches_withLock {ε : Type} {refused : ε} {body : NodeM (Option ε)} {s s₁ : NodeState}
    {a : Option ε} (hx : x ∉ s.locks)
    (h : Reaches (nodeStep acc) body { s with locks := insert x s.locks } a s₁) :
    Reaches (nodeStep acc) (withLock x refused body) s a { s₁ with locks := s₁.locks.erase x } := by
  have hacquire : nodeStep acc s (.tryAcquire x) true { s with locks := insert x s.locks } :=
    nodeStep_of_exec .ok (by simp [NodeState.exec, hx]) trivial
  have hrelease : nodeStep acc s₁ (.release x) () { s₁ with locks := s₁.locks.erase x } :=
    nodeStep_of_exec .ok rfl trivial
  exact reaches_perform hacquire (.bind h (reaches_perform hrelease (.ret a _)))

/-- A directory has no name twice. -/
theorem names_nodup (s : NodeState) (p : Path) : (s.names p).Nodup := by
  cases p <;> simp only [NodeState.names]
  case keyDir k =>
    cases s.dir k with
    | none => simp
    | some d =>
      simp only
      split_ifs <;> simp
  case refs k =>
    cases (s.dir k).bind (·.refs) with
    | none => simp
    | some rs => exact rs.keys_nodup
  all_goals simp

/-- The listing in which every directory is read in full. -/
theorem reaches_keysListing (dirOf : Key → Path) (name : String) (ks : List Key)
    (s : NodeState) :
    Reaches (nodeStep acc) (keysListing dirOf name ks) s
      (ks.filter fun k => name ∈ s.names (dirOf k)) s := by
  induction ks with
  | nil => exact .ret _ _
  | cons k ks ih =>
    have hread : nodeStep acc s (.readDirNames (dirOf k)) (s.names (dirOf k)) s :=
      nodeStep_of_exec (.names (s.names (dirOf k))) (by simp [NodeState.exec, names_nodup]) trivial
    simp only [List.filter_cons, decide_eq_true_eq]
    exact reaches_perform hread (.bind ih (.ret _ _))

/-- The glob that reads all directories in full and meets a given key first. -/
theorem reaches_globPodReferences (acc : Prop) (h : s.pathPresent (.ref k u) = true) :
    ∃ rest, Reaches (nodeStep acc) (globPodReferences u) s (.ref k u :: rest) s := by
  obtain ⟨d, rs, hd, hrs, hu⟩ := pathPresent_ref_iff.mp h
  have hkey : k ∈ s.keys := AList.lookup_isSome.mp (by
    rw [show s.keys.lookup k = some d from hd]
    rfl)
  let ks := k :: s.keys.keys.erase k
  have hnodup : ks.Nodup := List.nodup_cons.mpr
    ⟨s.keys.keys_nodup.not_mem_erase, s.keys.keys_nodup.erase k⟩
  have hmem : ∀ k' ∈ ks, k' ∈ s.keys := by
    intro k' hk'
    rcases List.mem_cons.mp hk' with rfl | hk'
    · exact hkey
    · exact AList.mem_keys.mpr (List.mem_of_mem_erase hk')
  have hread : nodeStep acc s .readRoot ks s :=
    nodeStep_of_exec (.keys ks) (by simp only [NodeState.exec, if_pos (And.intro hnodup hmem)])
      trivial
  have hrefs : "refs" ∈ s.names (.keyDir k) := by simp [NodeState.names, hd, hrs]
  have hname : u ∈ s.names (.refs k) := by
    simpa [NodeState.names, hd, hrs] using AList.mem_keys.mp hu
  have hrun : Reaches (nodeStep acc) (globPodReferences u) s _ s :=
    reaches_perform hread (.bind (reaches_keysListing .keyDir "refs" ks s)
      (.bind (reaches_keysListing .refs u _ s) (.ret _ _)))
  simp only [ks, List.filter_cons, hrefs, hname, decide_true, if_true, List.map_cons] at hrun
  exact ⟨_, hrun⟩

end Building

end LustreCsi.Interface
