import LustreCsi.Interface.Faultless
import LustreCsi.Interface.Sample

/-!
# Token refresh

Kubelet calls NodePublishVolume again for every running pod to bring new tokens. `refresh_frame`:
every call of such a sequence succeeds without mounting or unmounting anything, and the token file
of the key holds the token of the last call.

All pods of a key see the root directory of one file system, and the call that sets its group last
decides; in `not_alwaysFirst` the refresh of one pod changes the group of the other's directory.
-/

set_option autoImplicit false

namespace LustreCsi.Analysis.TokenRefresh

open LustreCsi.Computation Model Interface

/-! ## Calls whose steps all succeed -/

/-- A step of a node with accurate answers that succeeds. -/
def smoothStep (s : NodeState) (o : nodeSig.Op) (r : nodeSig.Res o) (s' : NodeState) : Prop :=
  nodeStep True s o r s' ∧ Succeeds o r

/-- As long as its steps succeed, the program comes to an end as `Q` says, and mounts and unmounts nothing. -/
abbrev Smooth {α : Type} (p : NodeM α) (Q : α → NodeState → Prop) (s : NodeState) : Prop :=
  Ensures smoothStep (fun o : Op => opMount o = none) p Q s

/-- A node whose steps succeed, for programs that mount and unmount nothing. -/
theorem cooperative_smooth : Cooperative smoothStep fun o : Op => opMount o = none where
  accurate h := h.1
  offered h hr := ⟨nodeStep_of_faultless h, hr⟩
  succeeds _ _ h := h.2
  allowed _ ho := ho

/-! ## One refresh -/

/-- The token of a key has been replaced, and nothing else that is recorded has changed. -/
structure Updated (k : Key) (token : String) (s s' : NodeState) : Prop where
  locks : s'.locks = s.locks
  mounts : s'.mounts = s.mounts
  refs : ∀ k', (s'.dir k').bind (·.refs) = (s.dir k').bind (·.refs)
  others : ∀ k', k' ≠ k → s'.dir k' = s.dir k'
  token : s'.content (.token k) = some token
  rootAttrs : s'.rootAttrs = s.rootAttrs

section Updates

variable {s s' s₁ : NodeState} {k : Key} {token : String}

/-- Replacing the token updates the key. -/
theorem updated_replaceToken (hrefs : s.pathPresent (.refs k) = true) (token : String) :
    Updated k token s (replaceToken (makeDirs s k) k token) := by
  have hdir := dir_replaceToken_makeDirs s k token
  have hothers (k' : Key) (hk : k' ≠ k) : (replaceToken (makeDirs s k) k token).dir k' = s.dir k' := by
    simp only [replaceToken, makeDirs, NodeState.putFile, NodeState.erase, NodeState.mkdirAll,
      modifyKey_modifyKey, dir_modifyKey_of_ne s hk]
  refine ⟨rfl, rfl, fun k' => ?_, hothers, by simp [NodeState.content, hdir], rfl⟩
  by_cases hk : k' = k
  · subst hk
    obtain ⟨d, hd, hsome⟩ := (Option.any_eq_true _ _).mp hrefs
    obtain ⟨rs, hrs⟩ := Option.isSome_iff_exists.mp hsome
    simp [hdir, hd, hrs]
  · rw [hothers k' hk]

/-- An update under a lock is one after it. -/
theorem Updated.unlock {x : String} (hx : x ∉ s.locks)
    (h : Updated k token { s with locks := insert x s.locks } s₁) :
    Updated k token s { s₁ with locks := s₁.locks.erase x } := by
  refine ⟨?_, h.mounts, h.refs, h.others, h.token, h.rootAttrs⟩
  have hlocks : s₁.locks = insert x s.locks := h.locks
  rw [hlocks]
  exact Finset.erase_insert hx

/-- An update after making the target directory is one from before. -/
theorem Updated.of_mkdirAll {p : String} (h : Updated k token (s.mkdirAll (.outside p)) s') :
    Updated k token s s' := by
  simp only [NodeState.mkdirAll] at h
  split at h
  · exact h
  · exact ⟨h.locks, h.mounts, h.refs, h.others, h.token, h.rootAttrs⟩

/-- A reference is there when its pod is in the key's references. -/
theorem pathPresent_ref_eq (s : NodeState) (k : Key) (u : String) :
    s.pathPresent (.ref k u) = ((s.dir k).bind (·.refs)).any fun rs => decide (u ∈ rs) := by
  cases hd : s.dir k <;> simp [NodeState.pathPresent, hd]

/-- A reference is in the key's directory of references. -/
theorem pathPresent_refs_of_ref {u : String} (h : s.pathPresent (.ref k u) = true) :
    s.pathPresent (.refs k) = true := by
  obtain ⟨d, hd, hrefs⟩ := (Option.any_eq_true _ _).mp h
  obtain ⟨rs, hrs, -⟩ := (Option.any_eq_true _ _).mp hrefs
  simp [NodeState.pathPresent, hd, hrs]

/-- What is mounted depends on the mounts only. -/
theorem mounted_eq_of_mounts (h : s'.mounts = s.mounts) (p : Path) : s'.mounted p = s.mounted p := by
  simp [NodeState.mounted, NodeState.mountsAt, h]

/-- The device on top depends on the mounts only. -/
theorem topDevice_eq_of_mounts (h : s'.mounts = s.mounts) (p : Path) : s'.topDevice p = s.topDevice p := by
  simp [NodeState.topDevice, h]

end Updates

section Calls

variable {srv : NodeServer} {c h : IAMRequest srv} {s s' s₁ : NodeState} {token : String}

/-- What a pod that has been published finds on the node: its locks are free, its target and the global mount
are mounted, and it is recorded. -/
structure Ready (c : IAMRequest srv) (s : NodeState) : Prop where
  targetFree : c.req.targetPath ∉ s.locks
  keyFree : c.key.name ∉ insert c.req.targetPath s.locks
  target : s.mounted c.target = true
  mount : s.mounted (.mount c.key) = true
  ref : s.pathPresent (.ref c.key c.podUID) = true

/-- The requests are for the same pod, with the same target path and the same key. -/
structure SamePod (c h : IAMRequest srv) : Prop where
  targetPath : c.req.targetPath = h.req.targetPath
  identity : identityOf srv c.vc = identityOf srv h.vc
  key : c.key = h.key

/-- A repetition for the same pod is ready where the first publish is. -/
theorem SamePod.ready (hpod : SamePod c h) (hready : Ready h s) : Ready c s := by
  have htarget : c.target = h.target := congrArg Path.outside hpod.targetPath
  have hpodUID : c.podUID = h.podUID := congrArg Identity.podUID hpod.identity
  constructor
  · rw [hpod.targetPath]
    exact hready.targetFree
  · rw [hpod.targetPath, hpod.key]
    exact hready.keyFree
  · rw [htarget]
    exact hready.target
  · rw [hpod.key]
    exact hready.mount
  · rw [hpod.key, hpodUID]
    exact hready.ref

/-- A repetition for the same pod is complete when the first publish is. -/
theorem SamePod.complete (hpod : SamePod c h) (hcomplete : h.Complete) : c.Complete := by
  simp only [IAMRequest.Complete, IAMRequest.podUID, hpod.identity] at hcomplete ⊢
  exact hcomplete

/-- What a refresh does: the token is replaced, and the group of the directory is set again. -/
def Refreshed (c : IAMRequest srv) (token : String) (s s' : NodeState) : Prop :=
  ∃ s₁ d, Updated c.key token s s₁ ∧ s.topDevice c.target = some d ∧ s' = setOwnership s₁ d c.group

/-- Under the lock of the target, the mounts of the call replace the token. -/
theorem smooth_publishMounts (hcomplete : c.Complete) (htoken : c.token = .ok token)
    (hkey : c.key.name ∉ s.locks) (hmount : s.mounted (.mount c.key) = true)
    (href : s.pathPresent (.ref c.key c.podUID) = true) :
    Smooth (publishMounts srv c.req c.vc c.volCap true) (fun r s' => r = none ∧ Updated c.key token s s') s := by
  obtain ⟨hpod, hns, hsa⟩ := hcomplete
  have hpod : (identityOf srv c.vc).podUID ≠ "" := hpod
  simp only [publishMounts, c.iam, if_true, publishIAMVolume, if_neg hpod, if_neg hns, if_neg hsa]
  refine cooperative_smooth.withLock hkey ?_
  have htoken : serviceToken srv c.req.volumeID c.key c.vc = .ok token := htoken
  have hupdated := updated_replaceToken (s := { s with locks := insert c.key.name s.locks })
    (pathPresent_refs_of_ref href) token
  refine .bind (cooperative_smooth.ensureGlobalMount s htoken fun hfree => ?_) ?_
  · -- The key is mounted.
    exact absurd (hmount.symm.trans hfree) (by simp)
  rintro _ s₁ ⟨rfl, hs₁⟩
  obtain rfl := hs₁.trans (if_pos hmount)
  have href' : (replaceToken (makeDirs { s with locks := insert c.key.name s.locks } c.key) c.key
      token).pathPresent (.ref c.key c.podUID) = true := by
    rw [pathPresent_ref_eq, hupdated.refs, ← pathPresent_ref_eq]
    exact href
  refine .bind (cooperative_smooth.addPodReference c.podUID c.req.volumeID (pathPresent_refs_of_ref href')) ?_
  rintro _ s₂ ⟨rfl, hs₂⟩
  obtain rfl := hs₂.trans (if_pos href')
  exact .pure ⟨rfl, hupdated.unlock hkey⟩

/-- A call for a pod that has been published, when its steps succeed. -/
theorem smooth_nodePublishVolume (hready : Ready c s) (hcomplete : c.Complete) (htoken : c.token = .ok token)
    (hgroup : ReadableGroup c.volCap.volumeMountGroup c.req.readonly) :
    Smooth (nodePublishVolume srv c.req) (fun r s' => r = none ∧ Refreshed c token s s') s := by
  simp only [nodePublishVolume, c.valid]
  refine cooperative_smooth.withLock hready.targetFree ?_
  have hgrows := Grows.mkdirAll { s with locks := insert c.req.targetPath s.locks }
    (.outside c.req.targetPath)
  have hmounted := hgrows.mounted (p := .outside c.req.targetPath) hready.target
  have hkey : c.key.name ∉ (NodeState.mkdirAll { s with locks := insert c.req.targetPath s.locks }
      (.outside c.req.targetPath)).locks := by
    rw [hgrows.locks]
    exact hready.keyFree
  obtain ⟨d, hd⟩ := topDevice_of_mounted hready.target
  refine .bind (cooperative_smooth.makeDir _) ?_
  rintro _ _ ⟨rfl, rfl⟩
  refine .bind (cooperative_smooth.isMounted (pathPresent_mkdirAll_outside _ _)) ?_
  rintro _ _ ⟨rfl, rfl⟩
  simp only [hmounted]
  refine .bind (smooth_publishMounts hcomplete htoken hkey (hgrows.mounted hready.mount)
    (hgrows.refs _ _ hready.ref)) ?_
  rintro _ s₁ ⟨rfl, hupdated⟩
  have hupdated := hupdated.of_mkdirAll
  have hd₁ : s₁.topDevice c.target = some d := (topDevice_eq_of_mounts hupdated.mounts _).trans hd
  refine (cooperative_smooth.publishOwnership hd₁ hgroup).mono ?_
  rintro _ _ ⟨rfl, rfl⟩
  exact ⟨rfl, _, d, hupdated.unlock hready.targetFree, hd,
    unlock_setOwnership s₁ d c.group c.req.targetPath⟩

end Calls

/-! ## Groups -/

/-- The group that a change of ownership to this id sets; the id that means no change sets none. -/
def groupSet (gid : Int) : Option Int :=
  if gid % 0x100000000 = 0xffffffff then none else some (gid % 0x100000000)

/-- The group that a sequence of changes sets last. -/
def lastGroup (gids : List Int) : Option Int := (gids.filterMap groupSet).getLast?

/-- A directory after a sequence of changes of ownership. -/
def chownAll (gids : List Int) (a : Attr) : Attr := gids.foldl (fun a gid => chowned gid a) a

section Groups

variable {gid : Int} {gids : List Int} {a : Attr}

/-- Groups are set one after the other. -/
theorem chownAll_append (gids gids' : List Int) (a : Attr) :
    chownAll (gids ++ gids') a = chownAll gids' (chownAll gids a) := List.foldl_append

/-- The last group that is set remains. -/
theorem gid_chownAll (gids : List Int) (a : Attr) : (chownAll gids a).gid = (lastGroup gids).getD a.gid := by
  induction gids generalizing a with
  | nil => rfl
  | cons gid gids ih =>
    have hrest : (chownAll (gid :: gids) a).gid = (lastGroup gids).getD (chownGroup a.gid gid) := ih _
    rw [hrest]
    simp only [lastGroup, List.filterMap_cons, groupSet, chownGroup]
    split
    · rfl
    rw [List.getLast?_cons]
    rfl

/-- The bits of the mask are added once. -/
theorem mode_chownAll (h : a.mode ||| ownershipMask = a.mode) : (chownAll gids a).mode = a.mode := by
  induction gids generalizing a with
  | nil => rfl
  | cons gid gids ih =>
    have hmode : (chowned gid a).mode = a.mode := h
    exact (ih (by rw [hmode, h])).trans hmode

/-- A directory stays as a change of ownership has left it, as long as the same group is set. -/
theorem chownAll_chowned (h : ∀ g, lastGroup gids = some g → groupSet gid = some g) :
    chownAll gids (chowned gid a) = chowned gid a := by
  have hmode : (chowned gid a).mode ||| ownershipMask = (chowned gid a).mode := by
    simp only [chowned, Nat.or_assoc, Nat.or_self]
  have hgid : (chownAll gids (chowned gid a)).gid = (chowned gid a).gid := by
    rw [gid_chownAll]
    cases hlast : lastGroup gids with
    | none => rfl
    | some g =>
      have hg := h g hlast
      simp only [groupSet, Option.ite_none_left_eq_some, Option.some.injEq] at hg
      simp only [Option.getD_some, chowned, chownGroup, if_neg hg.1]
      exact hg.2.symm
  have hmode' : (chownAll gids (chowned gid a)).mode = (chowned gid a).mode := mode_chownAll hmode
  exact congrArg₂ Attr.mk hgid hmode'

/-- Setting the ownership of one filesystem changes that one's root only. -/
theorem rootAttrs_setOwnership (s : NodeState) (e : String) (g : Option Int) (d : String) :
    (setOwnership s e g).rootAttrs d = chownAll (if e = d then g.toList else []) (s.rootAttrs d) := by
  cases g with
  | none => split <;> rfl
  | some gid =>
    split
    · subst e
      simp [setOwnership, chownAll]
    rename_i hne
    simp [setOwnership, chownAll, Function.update_of_ne (Ne.symm hne)]

end Groups

/-! ## Runs -/

section Runs

variable {srv : NodeServer} {K : Key} {R : List (IAMRequest srv)}

/-- The groups that requests ask for on the file system of a device, as it is mounted on their targets. -/
def asked (s : NodeState) (d : String) (cs : List (IAMRequest srv)) : List Int :=
  cs.filterMap fun c => if s.topDevice c.target = some d then c.group else none

/-- What two lists of publishes ask for, one after the other. -/
theorem asked_append (s : NodeState) (d : String) (cs cs' : List (IAMRequest srv)) :
    asked s d (cs ++ cs') = asked s d cs ++ asked s d cs' := List.filterMap_append

/-- What one publish asks for. -/
theorem asked_singleton (s : NodeState) (d : String) (c : IAMRequest srv) :
    asked s d [c] = if s.topDevice c.target = some d then c.group.toList else [] := by
  by_cases hd : s.topDevice c.target = some d
  · cases hg : c.group <;> simp [asked, hd, hg]
  · simp [asked, hd]

/-- What is asked for depends on the devices at the targets only. -/
theorem asked_congr {s s' : NodeState} {d : String} {cs : List (IAMRequest srv)}
    (h : ∀ c ∈ cs, s'.topDevice c.target = s.topDevice c.target) : asked s' d cs = asked s d cs :=
  List.filterMap_congr fun c hc => by rw [h c hc]

/-- The states reached from `s₀` by successful publishes of IAM volumes, one after another; the list has each
request with the state that it has left. -/
inductive Publishes (srv : NodeServer) (s₀ : NodeState) : List (IAMRequest srv × NodeState) → NodeState → Prop
  | start : Publishes srv s₀ [] s₀
  | publish {H : List (IAMRequest srv × NodeState)} {s s' : NodeState} {tr : List (Event nodeSig)}
      (c : IAMRequest srv) (before : Publishes srv s₀ H s)
      (call : Exec (nodeStep True) (nodePublishVolume srv c.req) s tr none s') :
      Publishes srv s₀ (H ++ [(c, s')]) s'

variable {c h : IAMRequest srv} {s s' s₀ σ : NodeState} {H : List (IAMRequest srv × NodeState)}

/-- A publish that succeeds takes nothing away from the pods that were there. -/
theorem Ready.publish (hready : Ready h s) (heffect : PublishEffect c s s') : Ready h s' := by
  obtain ⟨s₁, d, hgrows, -, rfl⟩ := heffect.grows
  constructor
  · rw [locks_setOwnership, hgrows.locks]
    exact hready.targetFree
  · rw [locks_setOwnership, hgrows.locks]
    exact hready.keyFree
  · rw [mounted_setOwnership]
    exact hgrows.mounted hready.target
  · rw [mounted_setOwnership]
    exact hgrows.mounted hready.mount
  · rw [pathPresent_ref_eq, dir_setOwnership, ← pathPresent_ref_eq]
    exact hgrows.refs _ _ hready.ref

/-- A publish leaves its volume ready. -/
theorem ready_of_publishEffect (heffect : PublishEffect c s s') : Ready c s' := by
  obtain ⟨s₁, d, hgrows, -, hs'⟩ := heffect.grows
  have hlocks : s'.locks = s.locks := by rw [hs', locks_setOwnership, hgrows.locks]
  exact ⟨hlocks ▸ heffect.targetFree, hlocks ▸ heffect.keyFree, heffect.target, heffect.mount, heffect.ref⟩

/-- All volumes that were published are ready. -/
theorem Publishes.ready (hH : Publishes srv s₀ H σ) : ∀ e ∈ H, e.1.Complete ∧ Ready e.1 σ := by
  induction hH with
  | start => simp
  | @publish H s s' tr c before call ih =>
    have heffect := publishEffect call
    intro e he
    rcases List.mem_append.mp he with he | he
    · exact ⟨(ih e he).1, (ih e he).2.publish heffect⟩
    obtain rfl := List.mem_singleton.mp he
    exact ⟨heffect.complete, ready_of_publishEffect heffect⟩

/-- A later publish keeps the topmost mount of a target. -/
theorem topDevice_publish (hready : Ready h s) (heffect : PublishEffect c s s') :
    s'.topDevice h.target = s.topDevice h.target := by
  obtain ⟨s₁, d, hgrows, -, rfl⟩ := heffect.grows
  rw [topDevice_eq_of_mounts (mounts_setOwnership s₁ d c.group), hgrows.topDevice hready.target]

/-- What a publish does to the root of a file system. -/
theorem rootAttrs_publish (heffect : PublishEffect c s s') (d : String) :
    s'.rootAttrs d = chownAll (asked s' d [c]) (s.rootAttrs d) := by
  obtain ⟨s₁, e, hgrows, he, rfl⟩ := heffect.grows
  have he' : (setOwnership s₁ e c.group).topDevice c.target = some e :=
    (topDevice_eq_of_mounts (mounts_setOwnership s₁ e c.group) _).trans he
  rw [rootAttrs_setOwnership, hgrows.rootAttrs, asked_singleton, he']
  simp only [Option.some.injEq]

/-- The root of a published file system has changed since then as the later publishes have asked. -/
theorem Publishes.rootAttrs (hH : Publishes srv s₀ H σ) {H₁ H₂ : List (IAMRequest srv × NodeState)}
    {t : NodeState} (hsplit : H = H₁ ++ (h, t) :: H₂) {d : String} (hd : σ.topDevice h.target = some d) :
    t.topDevice h.target = some d ∧
      σ.rootAttrs d = chownAll (asked σ d (H₂.map (·.1))) (t.rootAttrs d) ∧
      ∀ g, h.group = some g → ∃ a, t.rootAttrs d = chowned g a := by
  induction hH generalizing H₂ with
  | start => simp at hsplit
  | @publish H s s' tr c before call ih =>
    have heffect := publishEffect call
    rcases List.eq_nil_or_concat H₂ with rfl | ⟨H₃, e, rfl⟩
    · -- It is the last one.
      obtain ⟨-, he⟩ := List.append_inj' hsplit rfl
      obtain ⟨rfl, rfl⟩ : c = h ∧ s' = t := by simpa using he
      refine ⟨hd, rfl, fun g hg => ?_⟩
      rw [rootAttrs_publish heffect, asked_singleton, if_pos hd, hg]
      exact ⟨_, rfl⟩
    · rw [List.concat_eq_append, ← List.cons_append, ← List.append_assoc] at hsplit
      obtain ⟨hH', he⟩ := List.append_inj' hsplit rfl
      obtain rfl : (c, s') = e := by simpa using he
      have hready := before.ready
      have hmem : (h, t) ∈ H := by simp [hH']
      have hd' : s.topDevice h.target = some d := (topDevice_publish (hready _ hmem).2 heffect).symm.trans hd
      obtain ⟨htd, hroot, hset⟩ := ih hH' hd'
      have hasked : asked s' d (H₃.map (·.1)) = asked s d (H₃.map (·.1)) := by
        refine asked_congr fun c' hc' => ?_
        obtain ⟨e, he, rfl⟩ := List.mem_map.mp hc'
        exact topDevice_publish (hready e (by simp [hH', he])).2 heffect
      refine ⟨htd, ?_, hset⟩
      rw [List.concat_eq_append, List.map_append, asked_append, chownAll_append, hasked, ← hroot]
      exact rootAttrs_publish heffect d

/-- The calls for a list of requests, one after another, with their results. -/
def publishAll (srv : NodeServer) : List (IAMRequest srv) → NodeM (List (Option Status))
  | [] => return []
  | c :: cs => do
    let r ← nodePublishVolume srv c.req
    let rs ← publishAll srv cs
    return r :: rs

/-- What a sequence of refreshes with the key does. -/
structure RefreshRun (K : Key) (R : List (IAMRequest srv)) (s s' : NodeState) : Prop where
  locks : s'.locks = s.locks
  mounts : s'.mounts = s.mounts
  refs : ∀ k, (s'.dir k).bind (·.refs) = (s.dir k).bind (·.refs)
  others : ∀ k, k ≠ K → s'.dir k = s.dir k
  token : s'.content (.token K) = R.getLast?.elim (s.content (.token K)) fun c => c.token.toOption
  rootAttrs : ∀ d, s'.rootAttrs d = chownAll (asked s d R) (s.rootAttrs d)

/-- One refresh is a sequence. -/
theorem Refreshed.run {token : String} (htoken : c.token = .ok token) (h : Refreshed c token s s') :
    RefreshRun c.key [c] s s' := by
  obtain ⟨s₁, e, hupdated, he, rfl⟩ := h
  have hdir (k : Key) : (setOwnership s₁ e c.group).dir k = s₁.dir k := dir_setOwnership _ _ _ _
  refine ⟨?_, ?_, fun k => ?_, fun k hk => ?_, ?_, fun d => ?_⟩
  · rw [locks_setOwnership, hupdated.locks]
  · rw [mounts_setOwnership, hupdated.mounts]
  · rw [hdir, hupdated.refs]
  · rw [hdir, hupdated.others k hk]
  · have hcontent : (setOwnership s₁ e c.group).content (.token c.key) = s₁.content (.token c.key) := by
      simp only [NodeState.content, hdir]
    rw [hcontent, hupdated.token]
    simp [htoken, Except.toOption]
  · rw [rootAttrs_setOwnership, hupdated.rootAttrs, asked_singleton, he]
    simp only [Option.some.injEq]

/-- Runs of repetitions compose. -/
theorem RefreshRun.trans {R' : List (IAMRequest srv)} {s₁ : NodeState} (h : RefreshRun K R s s₁)
    (h' : RefreshRun K R' s₁ s') : RefreshRun K (R ++ R') s s' := by
  refine ⟨h'.locks.trans h.locks, h'.mounts.trans h.mounts, fun k => (h'.refs k).trans (h.refs k),
    fun k hk => (h'.others k hk).trans (h.others k hk), ?_, fun d => ?_⟩
  · rw [h'.token, List.getLast?_append, h.token]
    cases R'.getLast? <;> rfl
  · rw [h'.rootAttrs, h.rootAttrs, asked_append, chownAll_append,
      asked_congr fun c _ => topDevice_eq_of_mounts h.mounts c.target]

/-- A run of repetitions keeps a volume ready. -/
theorem Ready.refresh (hready : Ready h s) (hrun : RefreshRun K R s s') :
    Ready h s' := by
  constructor
  · rw [hrun.locks]
    exact hready.targetFree
  · rw [hrun.locks]
    exact hready.keyFree
  · rw [mounted_eq_of_mounts hrun.mounts]
    exact hready.target
  · rw [mounted_eq_of_mounts hrun.mounts]
    exact hready.mount
  · rw [pathPresent_ref_eq, hrun.refs, ← pathPresent_ref_eq]
    exact hready.ref

/-- A request that brings a token for a pod that has been published and uses the key. The token is found, and
the group, if the request has one, is a number. -/
structure IsRefresh (H : List (IAMRequest srv × NodeState)) (K : Key) (c : IAMRequest srv) : Prop where
  published : ∃ e ∈ H, SamePod c e.1
  key : c.key = K
  token : ∃ t, c.token = .ok t
  group : ReadableGroup c.volCap.volumeMountGroup c.req.readonly

/-- By induction on the sequence, from a state in which the pods are ready. -/
theorem smooth_publishAll (hR : ∀ c ∈ R, IsRefresh H K c)
    (hready : ∀ e ∈ H, e.1.Complete ∧ Ready e.1 s) :
    Smooth (publishAll srv R) (fun rs s' => (rs = R.map fun _ => none) ∧ RefreshRun K R s s') s := by
  induction R generalizing s with
  | nil => exact .pure ⟨rfl, rfl, rfl, fun _ => rfl, fun _ _ => rfl, rfl, fun _ => rfl⟩
  | cons c R ih =>
    obtain ⟨hc, hR⟩ := List.forall_mem_cons.mp hR
    obtain ⟨e, he, hpod⟩ := hc.published
    obtain ⟨token, htoken⟩ := hc.token
    obtain ⟨hcomplete, hre⟩ := hready e he
    refine .bind (smooth_nodePublishVolume (hpod.ready hre) (hpod.complete hcomplete) htoken hc.group) ?_
    rintro _ s₁ ⟨rfl, hrefreshed⟩
    have hfirst : RefreshRun K [c] s s₁ := hc.key ▸ hrefreshed.run htoken
    refine .bind (ih hR fun e he => ⟨(hready e he).1, (hready e he).2.refresh hfirst⟩) ?_
    rintro _ s₂ ⟨rfl, hrest⟩
    exact .pure ⟨rfl, hfirst.trans hrest⟩

/-- The group that requests set last on the file system that is mounted on a path. -/
def lastGroupAt (s : NodeState) (p : Path) (cs : List (IAMRequest srv)) : Option Int :=
  (s.topDevice p).bind fun d => lastGroup (asked s d cs)

/-- What a sequence `R` of refreshes with the key `K` leaves of a state `σ` that the publishes `H` have
reached.
The mount table and the references of all keys are unchanged, and so are the directories of the other keys.
The token file has the token of the last request. A directory has the group and mode that a publish `h` has
given to the root of its file system, if the group that is set last after `h` is that of `h`; where no group
is asked for they are unchanged. -/
structure RefreshFrame (K : Key) (H : List (IAMRequest srv × NodeState)) (R : List (IAMRequest srv))
    (σ ρ : NodeState) : Prop where
  mounts : ρ.mounts = σ.mounts
  refs : ∀ k, (ρ.dir k).bind (·.refs) = (σ.dir k).bind (·.refs)
  others : ∀ k, k ≠ K → ρ.dir k = σ.dir k
  token : ∀ c t, R.getLast? = some c → c.token = .ok t → ρ.content (.token K) = some t
  ownership : ∀ H₁ h t H₂ g p, H = H₁ ++ (h, t) :: H₂ → h.group = some g →
    σ.topDevice p = σ.topDevice h.target →
    (∀ g', lastGroupAt σ p (H₂.map (·.1) ++ R) = some g' → groupSet g = some g') →
    ρ.attrAt p = t.attrAt h.target
  unasked : ∀ p, σ.mounted p = true →
    (∀ c ∈ R, σ.topDevice c.target = σ.topDevice p → c.group = none) → ρ.attrAt p = σ.attrAt p

/-- A run of repetitions changes the token and the ownership only. -/
theorem RefreshRun.frame {ρ : NodeState} (hH : Publishes srv s₀ H σ) (hrun : RefreshRun K R σ ρ) :
    RefreshFrame K H R σ ρ := by
  have hattr {p : Path} {d : String} (hd : σ.topDevice p = some d) :
      ρ.attrAt p = some (chownAll (asked σ d R) (σ.rootAttrs d)) := by
    rw [attrAt_of_topDevice ((topDevice_eq_of_mounts hrun.mounts p).trans hd), hrun.rootAttrs]
  refine ⟨hrun.mounts, hrun.refs, hrun.others, fun c t hlast ht => ?_, ?_, fun p hp hnone => ?_⟩
  · rw [hrun.token, hlast]
    simp [ht, Except.toOption]
  · intro H₁ h t H₂ g p hsplit hg hp hlast
    obtain ⟨d, hd⟩ := topDevice_of_mounted (hH.ready (h, t) (by simp [hsplit])).2.target
    obtain ⟨htd, hroot, hset⟩ := hH.rootAttrs hsplit hd
    obtain ⟨a, ha⟩ := hset g hg
    have hpd : σ.topDevice p = some d := hp.trans hd
    rw [hattr hpd, attrAt_of_topDevice htd, hroot, ← chownAll_append, ← asked_append, ha]
    refine congrArg some (chownAll_chowned fun g' hg' => hlast g' ?_)
    rw [lastGroupAt, hpd]
    exact hg'
  · obtain ⟨d, hd⟩ := topDevice_of_mounted hp
    have hasked : asked σ d R = [] := by
      refine List.filterMap_eq_nil_iff.mpr fun c hc => ?_
      split
      · exact hnone c hc (‹σ.topDevice c.target = some d›.trans hd.symm)
      · rfl
    rw [hattr hd, hasked, attrAt_of_topDevice hd]
    rfl

/-- **Token refresh.** On a node that successful publishes of IAM volumes have reached, let pods that have
been published and share a key be published again, any number of times and in any order. As long as the steps
succeed, every call succeeds, nothing is mounted or unmounted, the mount table and the references stay as they
are, and the token file of the key has the last token. The directories have the group and mode that the
publish of the group set last has given them; where no group is asked for they are unchanged.
SOURCE: pkg/csi_driver/node.go:236-417, 716-820 -/
theorem refresh_frame (srv : NodeServer) {s₀ σ : NodeState} {H : List (IAMRequest srv × NodeState)} {K : Key}
    {R : List (IAMRequest srv)} (hH : Publishes srv s₀ H σ) (hR : ∀ c ∈ R, IsRefresh H K c) :
    Ensures smoothStep (fun o : Op => opMount o = none) (publishAll srv R)
      (fun results ρ => (results = R.map fun _ => none) ∧ RefreshFrame K H R σ ρ) σ := by
  refine (smooth_publishAll hR hH.ready).mono ?_
  rintro results ρ ⟨hresults, hrun⟩
  exact ⟨hresults, hrun.frame hH⟩

/-- There is a run of the refreshes, and the frame holds at its end. -/
theorem exists_refresh (hH : Publishes srv s₀ H σ) (hR : ∀ c ∈ R, IsRefresh H K c) :
    ∃ tr results ρ, Exec smoothStep (publishAll srv R) σ tr results ρ ∧ RefreshFrame K H R σ ρ := by
  obtain ⟨results, ρ, ⟨tr, hexec⟩, -, hrun⟩ := (smooth_publishAll hR hH.ready).reaches
  exact ⟨tr, results, ρ, hexec, hrun.frame hH⟩

/-- For every group that a publish has asked for, the first publish that has asked for it still determines the
group and mode of its target. -/
def FirstDecides (H : List (IAMRequest srv × NodeState)) (ρ : NodeState) : Prop :=
  ∀ H₁ h t H₂ g, H = H₁ ++ (h, t) :: H₂ → h.group = some g → (∀ e ∈ H₁, e.1.group ≠ some g) →
    ρ.attrAt h.target = t.attrAt h.target

end Runs

/-! ## Two pods with different groups -/

open Sample

/-- The request for the pod `u1`, with the group 2000. -/
def firstRequest : IAMRequest sampleServer :=
  ⟨publishRequest "2000", normalContext, mountCapability "2000", validatePublish_publishRequest "2000",
    isIAM_normalContext⟩

/-- The request for the pod `u2`, which shares the key, with the group 3000. -/
def secondRequest : IAMRequest sampleServer :=
  ⟨otherRequest "3000", normalContextOf "u2", mountCapability "3000", validatePublish_otherRequest "3000",
    isIAM_otherContext⟩

/-- The choices with which the publish to `u1` goes through. -/
def firstPublish : List Choice :=
  [.ok, .ok, .probe (.ok true), .ok, .ok, .ok, .ok, .wrote 6, .ok, .probe (.ok true), .ok, .ok, .ok, .wrote 2,
    .ok, .ok, .ok, .ok, .ok, .ok]

/-- The choices with which the publish to `u2` goes through after it: the key is mounted already. -/
def secondPublish : List Choice :=
  [.ok, .ok, .probe (.ok true), .ok, .ok, .ok, .ok, .wrote 6, .ok, .probe (.ok false), .ok, .ok, .wrote 2,
    .ok, .ok, .ok, .ok, .ok, .ok]

/-- Both publishes go through; the shared root gets the group 2000, then 3000, and is set last by
`u1`. -/
theorem play_publishes :
    ((play (S := nodeSig) execAccurate (nodePublishVolume sampleServer firstRequest.req) firstPublish
      freshNode).bind fun p => (play (S := nodeSig) execAccurate
        (nodePublishVolume sampleServer secondRequest.req) secondPublish p.2).map fun q =>
          (p.1, q.1, decide (q.2.topDevice secondRequest.target = q.2.topDevice firstRequest.target),
            [(p.2.attrAt firstRequest.target).map (·.gid), (q.2.attrAt secondRequest.target).map (·.gid),
              lastGroupAt q.2 secondRequest.target [secondRequest, firstRequest],
              lastGroupAt q.2 secondRequest.target [secondRequest, secondRequest, firstRequest]])) =
      some (none, none, true, [some 2000, some 3000, some 2000, some 2000]) := by
  decide +kernel

/-- The state after the two publishes. -/
theorem publishes_sample : ∃ σ₁ σ₂,
    Publishes sampleServer freshNode [(firstRequest, σ₁), (secondRequest, σ₂)] σ₂ ∧
    (σ₁.attrAt firstRequest.target).map (·.gid) = some 2000 ∧
    (σ₂.attrAt secondRequest.target).map (·.gid) = some 3000 ∧
    σ₂.topDevice secondRequest.target = σ₂.topDevice firstRequest.target ∧
    lastGroupAt σ₂ secondRequest.target [secondRequest, firstRequest] = some 2000 ∧
    lastGroupAt σ₂ secondRequest.target [secondRequest, secondRequest, firstRequest] = some 2000 := by
  obtain ⟨⟨a, σ₁⟩, hfirst, hrest⟩ := Option.bind_eq_some_iff.mp play_publishes
  obtain ⟨⟨b, σ₂⟩, hsecond, hend⟩ := Option.map_eq_some_iff.mp hrest
  simp only [Prod.mk.injEq, decide_eq_true_eq, List.cons.injEq, and_true] at hend
  obtain ⟨rfl, rfl, htop, hattr₁, hattr₂, hlast, hlast'⟩ := hend
  obtain ⟨tr₁, hexec₁⟩ := play_exec _ hfirst
  obtain ⟨tr₂, hexec₂⟩ := play_exec _ hsecond
  have hpublished : Publishes sampleServer freshNode [(firstRequest, σ₁)] σ₁ :=
    .publish firstRequest .start (hexec₁.mono fun _ _ _ _ => nodeStep_of_execAccurate)
  exact ⟨σ₁, σ₂, .publish secondRequest hpublished (hexec₂.mono fun _ _ _ _ => nodeStep_of_execAccurate),
    hattr₁, hattr₂, htop, hlast, hlast'⟩

/-- The group that the request for `u1` asks for. -/
theorem group_firstRequest : firstRequest.group = some 2000 := by decide +kernel

/-- The group that the request for `u2` asks for. -/
theorem group_secondRequest : secondRequest.group = some 3000 := by decide +kernel

/-- The two pods use one key. -/
theorem key_secondRequest : secondRequest.key = firstRequest.key := by decide +kernel

/-- The requests are refreshes after they have been publishes. -/
theorem isRefresh_sample (σ₁ σ₂ : NodeState) : ∀ c ∈ [firstRequest, secondRequest],
    IsRefresh [(firstRequest, σ₁), (secondRequest, σ₂)] firstRequest.key c := by
  have hfirst : IsRefresh [(firstRequest, σ₁), (secondRequest, σ₂)] firstRequest.key firstRequest :=
    ⟨⟨(firstRequest, σ₁), by simp, rfl, rfl, rfl⟩, rfl, ⟨"secret", by decide +kernel⟩,
      .inr (.inr ⟨2000, by decide +kernel⟩)⟩
  have hsecond : IsRefresh [(firstRequest, σ₁), (secondRequest, σ₂)] firstRequest.key secondRequest :=
    ⟨⟨(secondRequest, σ₂), by simp, rfl, rfl, rfl⟩, key_secondRequest, ⟨"secret", by decide +kernel⟩,
      .inr (.inr ⟨3000, by decide +kernel⟩)⟩
  simp [hfirst, hsecond]

/-- Two pods with different groups are published and then refreshed, `u1` last. Both directories end as the
publish to `u1` has made them, and the other fields of the frame hold. -/
theorem refresh_frame_shared : ∃ σ₁ σ₂,
    Publishes sampleServer freshNode [(firstRequest, σ₁), (secondRequest, σ₂)] σ₂ ∧
    Ensures smoothStep (fun o : Op => opMount o = none)
      (publishAll sampleServer [secondRequest, firstRequest])
      (fun results ρ => results = [none, none] ∧ ρ.mounts = σ₂.mounts ∧
        (∀ k, (ρ.dir k).bind (·.refs) = (σ₂.dir k).bind (·.refs)) ∧
        ρ.content (.token firstRequest.key) = some "secret" ∧
        ρ.attrAt firstRequest.target = σ₁.attrAt firstRequest.target ∧
        ρ.attrAt secondRequest.target = σ₁.attrAt firstRequest.target) σ₂ := by
  obtain ⟨σ₁, σ₂, hpublished, -, -, htop, -, hlast⟩ := publishes_sample
  refine ⟨σ₁, σ₂, hpublished, ?_⟩
  have hrefresh : ∀ c ∈ [secondRequest, firstRequest],
      IsRefresh [(firstRequest, σ₁), (secondRequest, σ₂)] firstRequest.key c :=
    fun c hc => isRefresh_sample σ₁ σ₂ c (by simpa [or_comm] using hc)
  refine (refresh_frame sampleServer hpublished hrefresh).mono ?_
  rintro results ρ ⟨rfl, hframe⟩
  have hset (p : Path) (hp : σ₂.topDevice p = σ₂.topDevice firstRequest.target) :
      ρ.attrAt p = σ₁.attrAt firstRequest.target := by
    refine hframe.ownership [] firstRequest σ₁ [(secondRequest, σ₂)] 2000 p rfl group_firstRequest hp ?_
    intro g' hg'
    have hsame : lastGroupAt σ₂ p [secondRequest, secondRequest, firstRequest] = some 2000 := by
      rw [← hlast, lastGroupAt, lastGroupAt, hp, htop]
    rw [← hg']
    exact hsame.symm
  exact ⟨rfl, hframe.mounts, hframe.refs, hframe.token firstRequest "secret" rfl (by decide +kernel),
    hset _ rfl, hset _ htop⟩

/-- The first publish with a group decides in every run of refreshes, whatever groups are set later. -/
def AlwaysFirst : Prop :=
  ∀ (srv : NodeServer) (s₀ σ : NodeState) (H : List (IAMRequest srv × NodeState)) (K : Key)
    (R : List (IAMRequest srv)), Publishes srv s₀ H σ → (∀ c ∈ R, IsRefresh H K c) →
    ∀ tr results ρ, Exec smoothStep (publishAll srv R) σ tr results ρ → FirstDecides H ρ

/-- The pods `u1` and `u2` share a key, with the groups 2000 and 3000. A refresh of `u1` gives the group 2000
to the root of their file system, and so to the target of `u2`. -/
theorem not_alwaysFirst : ¬AlwaysFirst := by
  intro h
  obtain ⟨σ₁, σ₂, hpublished, hattr₁, hattr₂, htop, hlast, -⟩ := publishes_sample
  have hrefresh : ∀ c ∈ [firstRequest], IsRefresh [(firstRequest, σ₁), (secondRequest, σ₂)]
      firstRequest.key c := by
    intro c hc
    rw [List.mem_singleton.mp hc]
    exact isRefresh_sample σ₁ σ₂ firstRequest (by simp)
  obtain ⟨tr, results, ρ, hexec, hframe⟩ := exists_refresh hpublished hrefresh
  have hkept : ρ.attrAt secondRequest.target = σ₂.attrAt secondRequest.target :=
    h _ _ _ _ _ _ hpublished hrefresh tr results ρ hexec [(firstRequest, σ₁)] secondRequest σ₂ [] 3000 rfl
      group_secondRequest (by simp [group_firstRequest])
  have hmoved : ρ.attrAt secondRequest.target = σ₁.attrAt firstRequest.target := by
    refine hframe.ownership [] firstRequest σ₁ [(secondRequest, σ₂)] 2000 _ rfl
      group_firstRequest htop ?_
    intro g' hg'
    rw [← hg']
    exact hlast.symm
  have hsame : some (2000 : Int) = some 3000 := by
    rw [← hattr₁, ← hattr₂, ← hkept, hmoved]
  exact absurd hsame (by decide)

end LustreCsi.Analysis.TokenRefresh
