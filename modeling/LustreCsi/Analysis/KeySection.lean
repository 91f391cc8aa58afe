import LustreCsi.Analysis.HandlerSafety

/-!
# What runs under the lock of a key

The functions that change a key are safe for the contract of the node server when the thread holds
the lock of the key: a reference is added only when the key is mounted and has its token, the mount
goes only when no reference is left, and the directory only when its mount point is gone.
-/

set_option autoImplicit false

namespace LustreCsi.Analysis.KeySection

open LustreCsi.Computation Model Interface SharedMounts HandlerSafety

variable {ψ : NodeWorld → Prop} {w : NodeWorld} {p : Path} {s' : NodeState}
  {pod : ℕ → Option String} {acc : Prop} {solo : ℕ → Prop} {wiped : List String} {t : ℕ}
  {X : List String} {k : Key}

/-- A thread with the lock of the key owns the paths of the key. -/
theorem owns_of_at (hk : k.name ∈ X) (h : At acc t X ψ w) (hp : p.key? = some k) : Owns acc w t p := by
  intro k' hk'
  obtain rfl : k = k' := Option.some.inj (hp.symm.trans hk')
  exact h.held _ hk

/-- What an operation tells about a path other than a reference changes nothing in what is known of
the references. -/
theorem referenced_after_of_ne {o : Op} {r : o.Res} {u : String}
    (h : ∀ p b, refEvent ⟨o, r⟩ = some (p, b) → p ≠ .ref k u) :
    Referenced (w.after t ⟨o, r⟩ s').trace k u ↔ Referenced w.trace k u := by
  rcases he : refEvent ⟨o, r⟩ with _ | ⟨p, b⟩
  · exact referenced_cons_none he t _ k u
  · exact referenced_cons_of_ne he t _ (h p b he)

/-- Where nothing is mounted, no reference is known to exist. -/
theorem unreferenced_of_not_mounted (hi : Inv acc wiped w) (ha : acc)
    (hm : w.state.mounted (.mount k) = false) : Unreferenced k w :=
  fun u hu => absurd (hi.inUse ha k u hu).mounted (by simp [hm])

/-- Where there is no mount point, nothing is mounted. -/
theorem not_mounted_of_noMountDir (hi : Inv acc wiped w) (h : NoMountDir k w) :
    w.state.mounted (.mount k) = false := by
  rw [Bool.eq_false_iff]
  intro hm
  exact absurd (hi.dirs k hm) (by simp [show w.state.pathPresent (.mount k) = false from h])

/-! ## Directories and token -/

/-- Creating a directory of the key. -/
theorem safe_makeDir (hk : k.name ∈ X) (hp : p.key? = some k) (hw : Held acc t X w) :
    SafeNode pod acc solo wiped t (fun _ => Held acc t X) (makeDir p) w :=
  safe_op At.stable_true hw (fun _ _ h => owns_of_at hk h hp) fun _ _ _ _ h _ _ =>
    safe_pure At.stable_true (h.after rfl trivial) fun _ _ h => h

/-- Creating the directories of the key. -/
theorem safe_makeGlobalDirs (hk : k.name ∈ X) (hw : Held acc t X w) :
    SafeNode pod acc solo wiped t (fun _ => Held acc t X) (makeGlobalDirs k) w := by
  refine Safe.bind (safe_makeDir hk rfl hw) fun err w _ hw => ?_
  split
  · exact safe_pure At.stable_true hw fun _ _ h => h
  refine Safe.bind (safe_makeDir hk rfl hw) fun err w _ hw => ?_
  split <;> exact safe_pure At.stable_true hw fun _ _ h => h

/-- The loop that writes a file keeps every fact about the key that single writes keep. -/
theorem safe_writeLoop (hk : k.name ∈ X) (hp : p.key? = some k) (hψ : Local k ψ)
    (hwrite : ∀ w data r s', nodeStep acc w.state (.write p data) r s' → ψ w →
      ψ (w.after t ⟨.write p data, r⟩ s')) (fuel : ℕ) (data : String) (hw : At acc t X ψ w) :
    SafeNode pod acc solo wiped t (fun _ => At acc t X ψ) (writeLoop p fuel data) w := by
  induction fuel generalizing data w with
  | zero => exact safe_pure (At.stable hk hψ) hw fun _ _ h => h
  | succ fuel ih =>
    refine safe_op (At.stable hk hψ) hw (fun _ _ h => owns_of_at hk h hp)
      fun w r s' _ h hs _ => ?_
    have hafter : At acc t X ψ (w.after t ⟨.write p data, r⟩ s') :=
      h.after rfl (hwrite w data r s' hs h.fact)
    split
    · exact safe_pure (At.stable hk hψ) hafter fun _ _ h => h
    split
    · exact safe_pure (At.stable hk hψ) hafter fun _ _ h => h
    split
    · exact safe_pure (At.stable hk hψ) hafter fun _ _ h => h
    · exact ih _ hafter

/-- Writing the temporary token file of the key. -/
theorem safe_writeTokenTmp (data : String) (hk : k.name ∈ X) (hw : Held acc t X w) :
    SafeNode pod acc solo wiped t (fun _ => Held acc t X) (writeFile (.tokenTmp k) data) w := by
  refine safe_op At.stable_true hw
    (fun _ _ h => ⟨owns_of_at hk h rfl, fun _ _ _ heq => by simp at heq⟩) fun w r s' _ h _ _ => ?_
  have hafter : Held acc t X (w.after t ⟨.openTrunc (.tokenTmp k), r⟩ s') := h.after rfl trivial
  split
  · exact safe_pure At.stable_true hafter fun _ _ h => h
  · exact safe_writeLoop hk rfl (.true k) (fun _ _ _ _ _ _ => trivial) _ _ hafter

/-- After the rename the token is there. -/
theorem hasToken_of_renameToken {s : NodeState} (h : Outcome s (.renameToken k) none s') :
    s'.pathPresent (.token k) = true := by
  rcases h with ⟨-, text, -, rfl⟩ | ⟨e, he, -⟩
  · exact pathPresent_token_iff.mpr ⟨_, dir_modifyKey_self _ _ _, by simp [NodeState.putFile]⟩
  · simp at he

/-- `updateTokenFile` leaves a token when it succeeds. -/
theorem safe_updateTokenFile (token : String) (hk : k.name ∈ X) (hw : Held acc t X w) :
    SafeNode pod acc solo wiped t (fun err => At acc t X fun w => err = none → HasToken k w)
      (updateTokenFile k token) w := by
  refine Safe.bind (safe_writeTokenTmp token hk hw) fun err w _ hw => ?_
  split
  · exact safe_pure At.stable_true hw fun _ _ h => ⟨h.held, by simp⟩
  refine safe_op At.stable_true hw (fun _ _ h => h.held _ hk) fun w r s' _ h hs _ => ?_
  split
  · refine safe_op At.stable_true (h.after rfl trivial)
      (fun _ _ h => ⟨owns_of_at hk h rfl, fun _ _ heq => by simp at heq, by simp⟩)
      fun w r s' _ h _ _ => ?_
    exact safe_pure At.stable_true (h.after rfl trivial) fun _ _ h => ⟨h.held, by simp⟩
  · rename_i hr
    have hnone : r = none := by
      cases r with
      | none => rfl
      | some e => exact absurd rfl (hr e)
    subst hnone
    refine safe_pure (At.stable hk (HasToken.isLocal k))
      (h.after rfl (hasToken_of_renameToken (outcome_of_nodeStep hs)))
      fun _ _ h => ⟨h.held, fun _ => h.fact⟩

/-! ## Mounting and unmounting -/

/-- What `isMounted` tells the caller about the key: with accurate probes, that it is mounted
and has its token, or that no reference on it is left. -/
def Probed (acc : Prop) (k : Key) : Except Status Bool → NodeWorld → Prop
  | .ok true, w => acc → Ready k w
  | .ok false, w => HasToken k w ∧ (acc → Unreferenced k w)
  | .error _, _ => True

/-- What the probe has told is local to the key. -/
theorem Probed.isLocal (k : Key) (r : Except Status Bool) : Local k (Probed acc k r) := by
  rcases r with e | b
  · exact .true k
  cases b with
  | true => exact (Ready.isLocal k).imp acc
  | false => exact (HasToken.isLocal k).and ((Unreferenced.isLocal k).imp acc)

/-- Looking at the mount point keeps the token, and a corrupted mount is reported only if answers
need not be accurate. -/
theorem safe_pathExists (hk : k.name ∈ X) (hw : At acc t X (HasToken k) w) :
    SafeNode pod acc solo wiped t (fun r => At acc t X fun w => HasToken k w ∧
      ∀ e, r = .error e → e.kind = .corrupted → ¬acc) (pathExists (.mount k)) w := by
  refine safe_op (At.stable hk (HasToken.isLocal k)) hw
    (fun _ _ h => ⟨owns_of_at hk h rfl, fun _ _ _ heq => by simp at heq⟩) fun w r s' _ h hs hi' => ?_
  obtain ⟨rfl, -⟩ := outcome_of_nodeStep hs
  have hafter : At acc t X (HasToken k) (w.after t ⟨.stat (.mount k), r⟩ w.state) :=
    h.after rfl h.fact
  cases r with
  | none =>
    exact safe_pure (At.stable hk (HasToken.isLocal k)) hafter fun _ _ h =>
      h.mono fun ht => ⟨ht, by simp⟩
  | some e =>
    have hno : e.kind = .corrupted → ¬acc := fun hc ha => hs.2 ha hc
    simp only
    split
    · exact safe_pure (At.stable hk (HasToken.isLocal k)) hafter fun _ _ h =>
        h.mono fun ht => ⟨ht, by simp⟩
    exact safe_pure (At.stable hk (HasToken.isLocal k)) hafter fun _ _ h =>
      h.mono fun ht => ⟨ht, by simpa using hno⟩

/-- Probing the mount of the key, once its token is there. -/
theorem safe_isMounted (hk : k.name ∈ X) (hw : At acc t X (HasToken k) w) :
    SafeNode pod acc solo wiped t (fun r => At acc t X (Probed acc k r)) (isMounted (.mount k))
      w := by
  refine safe_op (At.stable hk (HasToken.isLocal k)) hw (fun _ _ _ => trivial)
    fun w r s' _ h hs hi' => ?_
  obtain rfl : s' = w.state := outcome_of_nodeStep hs
  have hacc := hs.2
  cases r with
  | ok notMnt =>
    refine safe_pure (At.stable hk (Probed.isLocal k (.ok !notMnt))) (h.after rfl ?_)
      fun _ _ h => h
    cases notMnt with
    | false => exact fun ha => ⟨by simpa [Accurate] using hacc ha, h.fact⟩
    | true =>
      exact ⟨h.fact, fun ha => unreferenced_of_not_mounted hi' ha (by
        simpa [Accurate] using hacc ha)⟩
  | error err =>
    simp only
    split
    · -- The mount point does not exist.
      rename_i hkind
      refine safe_pure (At.stable hk (Probed.isLocal k (.ok false))) (h.after rfl ?_)
        fun _ _ h => h
      exact ⟨h.fact, fun ha => unreferenced_of_not_mounted hi' ha
        (not_mounted_of_noMountDir hi' (hacc ha hkind))⟩
    · refine Safe.bind (safe_pathExists hk (h.after rfl h.fact)) fun r w _ hw => ?_
      cases r with
      | ok present => exact safe_pure At.stable_true hw.held' fun _ _ h => h
      | error pathErr =>
        simp only
        split
        · rename_i hkind
          have hno : ¬acc := hw.fact.2 pathErr rfl hkind
          refine safe_op (At.stable hk (HasToken.isLocal k)) (hw.mono fun h => h.1)
            (fun _ _ h => ⟨owns_of_at hk h rfl, fun ha => absurd ha hno⟩)
            fun w r s' _ h hs _ => ?_
          have htoken : HasToken k (w.after t ⟨.unmount (.mount k), r⟩ s') := by
            rcases outcome_of_nodeStep hs with rfl | ⟨-, rfl⟩ <;> exact h.fact
          cases r with
          | some mntErr =>
            exact safe_pure At.stable_true (h.after rfl trivial) fun _ _ h => h
          | none =>
            exact safe_pure (At.stable hk (Probed.isLocal k (.ok false)))
              (h.after rfl ⟨htoken, fun ha => absurd ha hno⟩) fun _ _ h => h
        · exact safe_pure At.stable_true hw.held' fun _ _ h => h

/-! Unmounting needs that no reference is left, and tells when the mount point is gone. -/

/-- Operations on the mount point tell nothing about references. -/
theorem unreferenced_after {o : Op} {r : o.Res}
    (h : ∀ p b, refEvent ⟨o, r⟩ = some (p, b) → p = .mount k) (hu : acc → Unreferenced k w) :
    acc → Unreferenced k (w.after t ⟨o, r⟩ s') :=
  fun ha u hr => hu ha u ((referenced_after_of_ne fun p b he => by simp [h p b he]).mp hr)

/-- `os.Remove` on the mount point, when it removes it or finds it missing. -/
theorem noMountDir_of_remove {s : NodeState} {r : Option OsError}
    (h : Outcome s (.remove (.mount k)) r s') (hr : unlessNotExist r = none) :
    s'.pathPresent (.mount k) = false := by
  rcases h with ⟨-, -, -, -, rfl⟩ | ⟨e, rfl, rfl, hmissing, -⟩
  · simp [NodeState.pathPresent, NodeState.erase]
  · exact hmissing (by simpa [unlessNotExist] using hr)

/-- What the callers of `unmountPath` learn of the key. -/
def Unmounted (acc : Prop) (k : Key) (err : Option Status) (w : NodeWorld) : Prop :=
  (acc → Unreferenced k w) ∧ (err = none → NoMountDir k w)

/-- Removing the mount directory of a key to which nobody refers. -/
theorem safe_removeDir (hk : k.name ∈ X) (hw : At acc t X (fun w => acc → Unreferenced k w) w) :
    SafeNode pod acc solo wiped t (fun err => At acc t X (Unmounted acc k err))
      (removeDir (.mount k)) w := by
  have hloc : Local k fun w => acc → Unreferenced k w := (Unreferenced.isLocal k).imp acc
  refine safe_op (At.stable hk hloc) hw
    (fun _ _ h => ⟨owns_of_at hk h rfl, fun _ _ heq => by simp at heq, by simp⟩)
    fun w r s' _ h hs _ => ?_
  have hun : acc → Unreferenced k (w.after t ⟨.remove (.mount k), r⟩ s') := by
    refine unreferenced_after (fun p b he => ?_) h.fact
    rcases opPath_of_refEvent he with heq | heq | heq <;> cases heq
    rfl
  cases hr : unlessNotExist r with
  | none =>
    refine safe_pure (At.stable hk (hloc.and (NoMountDir.isLocal k)))
      (h.after rfl ⟨hun, noMountDir_of_remove (outcome_of_nodeStep hs) hr⟩) fun _ _ h => ?_
    exact h.mono fun hf => ⟨hf.1, fun _ => hf.2⟩
  | some e =>
    exact safe_pure (At.stable hk hloc) (h.after rfl hun) fun _ _ h =>
      h.mono fun hf => ⟨hf, by simp⟩

/-- The phases of unmounting a key to which nobody refers. -/
theorem safe_umountPhases (s : NodeServer) (hk : k.name ∈ X) (phases : List (List String))
    (hne : phases ≠ []) (hw : At acc t X (fun w => acc → Unreferenced k w) w) :
    SafeNode pod acc solo wiped t (fun err => At acc t X (Unmounted acc k err))
      (umountPhases s (.mount k) phases) w := by
  have hloc : Local k fun w => acc → Unreferenced k w := (Unreferenced.isLocal k).imp acc
  induction phases generalizing w with
  | nil => exact absurd rfl hne
  | cons flags rest ih =>
    refine safe_op (At.stable hk hloc) hw (fun _ _ h => ⟨owns_of_at hk h rfl, ?_⟩)
      fun w r s' _ h hs _ => ?_
    · rintro ha k' u heq
      cases heq
      exact h.fact ha u
    have hafter : At acc t X (fun w => acc → Unreferenced k w)
        (w.after t ⟨.umount flags (.mount k), r⟩ s') :=
      h.after rfl (unreferenced_after (fun p b he => by simp [refEvent] at he) h.fact)
    simp only
    split
    · exact safe_removeDir hk hafter
    split
    · exact safe_pure (At.stable hk hloc) hafter fun _ _ h => h.mono fun hf => ⟨hf, by simp⟩
    rename_i hrest
    exact ih (by simpa using hrest) hafter

/-- Unmounting a key to which nobody refers. -/
theorem safe_unmountPath (s : NodeServer) (hk : k.name ∈ X)
    (hw : At acc t X (fun w => acc → Unreferenced k w) w) :
    SafeNode pod acc solo wiped t (fun err => At acc t X (Unmounted acc k err))
      (unmountPath s (.mount k)) w := by
  have hloc : Local k fun w => acc → Unreferenced k w := (Unreferenced.isLocal k).imp acc
  refine safe_op (At.stable hk hloc) hw (fun _ _ _ => trivial) fun w r s' _ h hs _ => ?_
  have hafter : At acc t X (fun w => acc → Unreferenced k w)
      (w.after t ⟨.isLikelyNotMountPoint (.mount k), r⟩ s') :=
    h.after rfl (unreferenced_after (fun p b he => by simp [refEvent] at he) h.fact)
  split
  · exact safe_removeDir hk hafter
  · exact safe_umountPhases s hk _ (by simp) hafter

/-! ## The global mount -/

/-- `mountGlobalIAM` leaves the key mounted when it succeeds, and cleans up otherwise. -/
theorem safe_mountGlobalIAM (s : NodeServer) (volumeID principal : String) (vc : StrMap)
    (volCap : VolumeCapability) (hk : k.name ∈ X)
    (hw : At acc t X (fun w => HasToken k w ∧ (acc → Unreferenced k w)) w) :
    SafeNode pod acc solo wiped t (fun err => At acc t X fun w => err = none → acc → Ready k w)
      (mountGlobalIAM s volumeID principal k vc volCap) w := by
  have hloc : Local k fun w => HasToken k w ∧ (acc → Unreferenced k w) :=
    (HasToken.isLocal k).and ((Unreferenced.isLocal k).imp acc)
  simp only [mountGlobalIAM]
  split
  · exact safe_pure At.stable_true hw.held' fun _ _ h => ⟨h.held, by simp⟩
  refine Safe.bind (safe_outer (all_setUpMultiNIC s _ _ trivial) (At.stable hk hloc)
    (At.respects hloc) hw) fun err w _ hw => ?_
  split
  · exact safe_pure At.stable_true hw.held' fun _ _ h => ⟨h.held, by simp⟩
  refine safe_op (At.stable hk hloc) hw (fun _ _ h => owns_of_at hk h rfl)
    fun w r s' _ h hs _ => ?_
  cases r with
  | none =>
    -- The mount has succeeded.
    refine safe_pure (At.stable hk (Ready.isLocal k)) (h.after rfl ?_)
      fun _ _ h => ⟨h.held, fun _ _ => h.fact⟩
    rcases outcome_of_nodeStep hs with ⟨-, rfl⟩ | ⟨hne, -⟩
    · exact ⟨mounted_attach_self _ _ _ _ _, h.fact.1⟩
    · exact absurd rfl hne
  | some err =>
    refine Safe.bind (safe_unmountPath s hk (h.after rfl
      (unreferenced_after (fun p b he => by simp [refEvent] at he) h.fact.2)))
      fun _ w _ hw => ?_
    exact safe_pure At.stable_true hw.held' fun _ _ h => ⟨h.held, by simp⟩

/-- `ensureGlobalMount` leaves the key mounted and with its token when it succeeds. -/
theorem safe_ensureGlobalMount (s : NodeServer) (volumeID principal : String) (vc : StrMap)
    (volCap : VolumeCapability) (hk : k.name ∈ X) (hw : Held acc t X w) :
    SafeNode pod acc solo wiped t (fun err => At acc t X fun w => err = none → acc → Ready k w)
      (ensureGlobalMount s volumeID principal k vc volCap) w := by
  have hfail : ∀ {w : NodeWorld} (e : Status), Held acc t X w → SafeNode pod acc solo wiped t
      (fun err => At acc t X fun w => err = none → acc → Ready k w) (pure (some e)) w :=
    fun e hw => safe_pure At.stable_true hw fun _ _ h => ⟨h.held, by simp⟩
  refine Safe.bind (safe_makeGlobalDirs hk hw) fun err w _ hw => ?_
  split
  · exact hfail _ hw
  split
  · exact hfail _ hw
  refine Safe.bind (safe_updateTokenFile _ hk hw) fun err w _ hw => ?_
  cases err with
  | some e => exact hfail _ hw.held'
  | none =>
    refine Safe.bind (safe_isMounted hk (hw.mono fun h => h rfl)) fun r w _ hw => ?_
    rcases r with e | b
    · exact hfail _ hw.held'
    cases b with
    | true =>
      exact safe_pure (At.stable hk (Probed.isLocal k (.ok true))) hw
        fun _ _ h => ⟨h.held, fun _ => h.fact⟩
    | false => exact safe_mountGlobalIAM s _ _ _ _ hk hw

/-! ## References -/

/-- The reference file is created, or found to be missing, only when the key is mounted and has its
token. -/
theorem allowed_ref_of_ready {podUID : String} (h : At acc t X (fun w => acc → Ready k w) w)
    (ha : acc) (k' : Key) (u : String) (heq : Path.ref k podUID = .ref k' u) :
    w.state.mounted (.mount k') = true ∧ w.state.pathPresent (.token k') = true := by
  cases heq
  exact h.fact ha

/-- Writing the reference file, from the open call on. -/
theorem safe_writeRef (podUID data : String) (hk : k.name ∈ X)
    (hw : At acc t X (fun w => acc → Ready k w) w) :
    SafeNode pod acc solo wiped t (fun err => At acc t X fun w => err = none → HasRef k podUID w)
      (writeFile (.ref k podUID) data) w := by
  refine safe_op (At.stable hk ((Ready.isLocal k).imp acc)) hw
    (fun _ _ h => ⟨owns_of_at hk h rfl, fun ha => allowed_ref_of_ready h ha⟩)
    fun w r s' _ h hs _ => ?_
  cases r with
  | some e => exact safe_pure At.stable_true (h.after rfl trivial) fun _ _ h => ⟨h.held, by simp⟩
  | none =>
    have href : HasRef k podUID (w.after t ⟨.openTrunc (.ref k podUID), none⟩ s') :=
      (referenced_cons_self rfl t _).mpr rfl
    refine Safe.mono (safe_writeLoop hk rfl (HasRef.isLocal k podUID)
      (fun _ _ _ _ _ h => (referenced_cons_none rfl t _ k podUID).mpr h) _ _ (h.after rfl href))
      fun _ _ _ h => ?_
    exact h.mono fun hf _ => hf

/-- A reference file that is found counts from then on. -/
theorem safe_pathExists_ref (podUID : String) (hk : k.name ∈ X)
    (hw : At acc t X (fun w => acc → Ready k w) w) :
    SafeNode pod acc solo wiped t (fun r => At acc t X fun w =>
      (r = .ok true → HasRef k podUID w) ∧ (acc → Ready k w)) (pathExists (.ref k podUID)) w := by
  have hloc : Local k fun w => acc → Ready k w := (Ready.isLocal k).imp acc
  refine safe_op (At.stable hk hloc) hw
    (fun _ _ h => ⟨owns_of_at hk h rfl, fun ha => allowed_ref_of_ready h ha⟩)
    fun w r s' _ h hs _ => ?_
  obtain ⟨rfl, -⟩ := outcome_of_nodeStep hs
  cases r with
  | none =>
    have href : HasRef k podUID (w.after t ⟨.stat (.ref k podUID), none⟩ w.state) :=
      (referenced_cons_self rfl t _).mpr rfl
    exact safe_pure (At.stable hk ((HasRef.isLocal k podUID).and hloc))
      (h.after rfl ⟨href, h.fact⟩) fun _ _ h => h.mono fun hf => ⟨fun _ => hf.1, hf.2⟩
  | some e =>
    simp only
    split <;> exact safe_pure (At.stable hk hloc) (h.after rfl h.fact) fun _ _ h =>
      h.mono fun hf => ⟨by simp, hf⟩

/-- `addPodReference` leaves a reference when it succeeds. -/
theorem safe_addPodReference (podUID volumeID : String) (hk : k.name ∈ X)
    (hw : At acc t X (fun w => acc → Ready k w) w) :
    SafeNode pod acc solo wiped t (fun err => At acc t X fun w => err = none → HasRef k podUID w)
      (addPodReference k podUID volumeID) w := by
  refine Safe.bind (safe_pathExists_ref podUID hk hw) fun r w _ hw => ?_
  split
  · exact safe_pure (At.stable hk (HasRef.isLocal k podUID)) (hw.mono fun h => h.1 rfl)
      fun _ _ h => ⟨h.held, fun _ => h.fact⟩
  · exact safe_writeRef podUID volumeID hk (hw.mono fun h => h.2)

/-- The reference of its pod is one that the thread may remove. -/
theorem allowed_remove_ref {podUID : String} (hk : k.name ∈ X) (hpod : pod t = some podUID)
    (h : At acc t X ψ w) :
    Allowed pod acc t w (.remove (.ref k podUID)) := by
  refine ⟨owns_of_at hk h rfl, fun k' u heq => ?_, by simp⟩
  cases heq
  exact hpod

/-- Removing the reference of the own pod. -/
theorem safe_removePodReference {podUID : String} (hk : k.name ∈ X) (hpod : pod t = some podUID)
    (hw : Held acc t X w) :
    SafeNode pod acc solo wiped t (fun _ => Held acc t X) (removePodReference k podUID) w :=
  safe_op At.stable_true hw (fun _ _ h => allowed_remove_ref hk hpod h) fun _ _ _ _ h _ _ =>
    safe_pure At.stable_true (h.after rfl trivial) fun _ _ h => h

/-- `bindPod` leaves a reference of the pod when it succeeds; otherwise it gives it up, which
only a handler of the pod may do. -/
theorem safe_bindPod (s : NodeServer) (volumeID targetPath : String) (targetMounted : Bool)
    {podUID : String} (options : List String) (hk : k.name ∈ X) (hpod : pod t = some podUID)
    (hw : At acc t X (fun w => acc → Ready k w) w) :
    SafeNode pod acc solo wiped t (fun err => At acc t X fun w => err = none → HasRef k podUID w)
      (bindPod s volumeID targetPath targetMounted podUID k options) w := by
  have hfail : ∀ {w : NodeWorld} (e : Status), Held acc t X w → SafeNode pod acc solo wiped t
      (fun err => At acc t X fun w => err = none → HasRef k podUID w) (pure (some e)) w :=
    fun e hw => safe_pure At.stable_true hw fun _ _ h => ⟨h.held, by simp⟩
  refine Safe.bind (safe_addPodReference podUID volumeID hk hw) fun err w _ hw => ?_
  cases err with
  | some e => exact hfail _ hw.held'
  | none =>
    have href := hw.mono fun h => h rfl
    have hst : StableNode pod acc solo wiped t (At acc t X (HasRef k podUID)) :=
      At.stable hk (HasRef.isLocal k podUID)
    simp only
    split
    · exact safe_pure hst href fun _ _ h => ⟨h.held, fun _ => h.fact⟩
    have houter : Outer (.mountSensitiveWithoutSystemd (Path.mount k).render
      (.outside targetPath) "lustre" options) := rfl
    refine safe_op hst href (fun w _ _ => houter.allowed w) fun w r s' _ h hs _ => ?_
    cases r with
    | none =>
      refine safe_pure hst (h.after rfl ?_) fun _ _ h => ⟨h.held, fun _ => h.fact⟩
      exact (referenced_cons_none rfl t _ k podUID).mpr h.fact
    | some e =>
      refine Safe.bind (safe_removePodReference hk hpod (h.after rfl trivial))
        fun _ w _ hw => ?_
      exact Safe.bind (safe_outer (outer_unmountPath s targetPath) At.stable_true
        At.respects_true hw) fun _ w _ hw => hfail _ hw

/-! ## Teardown -/

/-- When `refs` could be removed, it was empty, and no reference was known. -/
theorem unreferenced_of_remove_refs (hi : Inv acc wiped w)
    (h : Outcome w.state (.remove (.refs k)) none s') : acc → Unreferenced k w := by
  intro ha u hu
  obtain ⟨d, rs, hd, hrs, hmem⟩ := pathPresent_ref_iff.mp (hi.inUse ha k u hu).ref
  rcases h with ⟨-, -, huse, -⟩ | ⟨e, he, -⟩
  · simp only [NodeState.dirInUse, hd, hrs, Option.any_some, Bool.not_eq_false',
      List.isEmpty_iff] at huse
    have hkeys : u ∈ rs.keys := hmem
    simp [huse] at hkeys
  · simp at he

/-- `releaseGlobalMount` unmounts only a key without references, and removes its directory
only when the mount point is gone. -/
theorem safe_releaseGlobalMount (s : NodeServer) (hk : k.name ∈ X) (hw : Held acc t X w) :
    SafeNode pod acc solo wiped t (fun _ => Held acc t X) (releaseGlobalMount s k) w := by
  have hdone : ∀ {w : NodeWorld} (err : Option String), Held acc t X w →
      SafeNode pod acc solo wiped t (fun _ => Held acc t X) (pure err) w :=
    fun err hw => safe_pure At.stable_true hw fun _ _ h => h
  refine safe_op At.stable_true hw
    (fun _ _ h => ⟨owns_of_at hk h rfl, fun _ _ heq => by simp at heq, by simp⟩)
    fun w r s' hi h hs _ => ?_
  cases r with
  | some e =>
    simp only
    split
    · exact hdone _ (h.after rfl trivial)
    · split <;> exact hdone _ (h.after rfl trivial)
  | none =>
    have hun : acc → Unreferenced k (w.after t ⟨.remove (.refs k), none⟩ s') := fun ha u hr =>
      unreferenced_of_remove_refs hi (outcome_of_nodeStep hs) ha u
        ((referenced_cons_of_ne rfl t _ (by simp)).mp hr)
    refine Safe.bind (safe_unmountPath s hk (h.after rfl hun)) fun err w _ hw => ?_
    cases err with
    | some e => exact hdone _ hw.held'
    | none =>
      refine safe_op (At.stable hk (NoMountDir.isLocal k)) (hw.mono fun h => h.2 rfl)
        (fun w hi h => ⟨h.held _ hk, not_mounted_of_noMountDir hi h.fact⟩)
        fun w r s' _ h _ _ => ?_
      exact hdone _ (h.after rfl trivial)

/-- `cleanUpIAMReferenceForKey`, for a reference of the pod that the thread acts for. -/
theorem safe_cleanUpIAMReferenceForKey (s : NodeServer) {podUID : String}
    (hpod : pod t = some podUID) (hw : Held acc t X w) :
    SafeNode pod acc solo wiped t (fun _ => Held acc t X)
      (cleanUpIAMReferenceForKey s k (.ref k podUID)) w := by
  refine Safe.mono (safe_withLock (G := fun _ _ => True) (fun _ _ _ h _ _ => h)
    (fun _ _ _ _ h => h) (fun _ => trivial) (fun w hw => ?_) hw) fun _ _ _ h => h.1
  have hk : k.name ∈ k.name :: X := by simp
  refine safe_op At.stable_true hw (fun _ _ h => allowed_remove_ref hk hpod h)
    fun w r s' _ h _ _ => ?_
  split
  · exact safe_pure At.stable_true (h.after rfl trivial) fun _ _ h => ⟨h, trivial⟩
  · exact Safe.mono (safe_releaseGlobalMount s hk (h.after rfl trivial)) fun _ _ _ h => ⟨h, trivial⟩

end LustreCsi.Analysis.KeySection
