import LustreCsi.Interface.PublishRuns

/-!
# Runs without faults

`faultlessStep` is what the node does when nothing goes wrong: calls do their work as far as the
state allows it, probes and listings are right and complete, and every write makes progress. For
each function of the handlers one lemma says what it returns then and in which state it ends; none
can get stuck.

The functions that neither mount nor unmount need only that operations which can succeed do so
(`Cooperative`).
-/

set_option autoImplicit false

namespace LustreCsi.Interface

open LustreCsi.Computation Model

variable {s' : NodeState} {p : Path} {volumeID principal : String} {vc : StrMap}
  {volCap : VolumeCapability}

/-- The choices of an environment that makes no trouble. -/
def Sound (s : NodeState) : Op → Choice → Prop
  | .isLikelyNotMountPoint p, c =>
    if s.pathPresent p then c = .probe (.ok !s.mounted p)
    else ∃ e : OsError, e.kind = .notExist ∧ c = .probe (.error e)
  | .umount _ p, c =>
    if s.mounted p then ∃ out, c = .umounted out none true
    else ∃ out err, c = .umounted out (some err) false
  | .write _ data, c => ∃ n, c = .wrote n ∧ (n = 0 → data = "")
  | .readRoot, c => ∃ ks, c = .keys ks ∧ ∀ k ∈ s.keys, k ∈ ks
  | .readDirNames p, c => ∃ ns, c = .names ns ∧ ∀ n ∈ s.names p, n ∈ ns
  | .setUpMultiNIC _ _, c => c = .nic none
  | _, c => c = .ok

/-- What the node may do when nothing goes wrong. -/
def faultlessStep (s : NodeState) (o : nodeSig.Op) (r : nodeSig.Res o) (s' : NodeState) : Prop :=
  ∃ c, Sound s o c ∧ s.exec o c = some (r, s')

/-- Without faults the program comes to an end, as `Q` says. -/
abbrev Faultless {α : Type} (p : NodeM α) (Q : α → NodeState → Prop) (s : NodeState) : Prop :=
  Ensures faultlessStep (fun _ => True) p Q s

/-- A faultless step is a step of a node with accurate answers. -/
theorem nodeStep_of_faultless {s : NodeState} {o : Op} {r : o.Res} (h : faultlessStep s o r s') :
    nodeStep True s o r s' := by
  obtain ⟨c, hsound, hexec⟩ := h
  refine nodeStep_of_exec c hexec ?_
  cases o with
  | isLikelyNotMountPoint p =>
    simp only [Sound] at hsound
    split at hsound
    · subst hsound
      cases hexec
      rfl
    rename_i habsent
    obtain ⟨e, -, rfl⟩ := hsound
    cases hexec
    exact fun _ => by simpa using habsent
  | stat p =>
    obtain rfl : c = .ok := hsound
    simp only [NodeState.exec, Option.some.injEq, Prod.mk.injEq] at hexec
    obtain ⟨rfl, -⟩ := hexec
    split
    · trivial
    · exact fun h => by cases h
  | _ => trivial

/-! ## Nodes on which operations succeed -/

/-- The answer of an operation that succeeds; finding a path missing is no failure. -/
def Succeeds : (o : Op) → o.Res → Prop
  | .mkdirAll _, r => r = none
  | .isLikelyNotMountPoint _, r => r.toOption.isSome
  | .stat _, r => ∀ e, r = some e → e.kind = .notExist
  | .unmount _, r => r = none
  | .mountSensitiveWithoutSystemd _ _ _ _, r => r = none
  | .umount _ _, r => r.2 = none
  | .remove _, r => r = none
  | .removeAll _, r => r = none
  | .openTrunc _, r => r = none
  | .write _ data, r => ∃ n, r = .ok n ∧ (n = 0 → data = "")
  | .renameToken _, r => r = none
  | .lstat _, r => r.toOption.isSome
  | .lchown _ _, r => r = none
  | .chmod _ _, r => r = none
  | .setUpMultiNIC _ _, r => r = none
  | .list, r => r.toOption.isSome
  | _, _ => True

/-- The answers of a node are accurate, it may do what it does when nothing goes wrong, and what can
succeed then does. Programs may perform the operations `φ`, and those at least that neither mount nor
unmount. -/
structure Cooperative
    (step : NodeState → (o : nodeSig.Op) → nodeSig.Res o → NodeState → Prop) (φ : Op → Prop) : Prop where
  accurate : ∀ {s o r s'}, step s o r s' → nodeStep True s o r s'
  offered : ∀ {s o r s'}, faultlessStep s o r s' → Succeeds o r → step s o r s'
  succeeds : ∀ {s o r s' r' s''}, faultlessStep s o r s' → Succeeds o r → step s o r' s'' → Succeeds o r'
  allowed : ∀ o, opMount o = none → φ o

/-- A choice that is the only one leads to one outcome. -/
theorem succeeds_of_eq {s s'' : NodeState} {o : Op} {r r' : o.Res} {c c' : Choice} (hc : c' = c)
    (h : s.exec o c = some (r, s')) (h' : s.exec o c' = some (r', s'')) (hr : Succeeds o r) :
    Succeeds o r' := by
  rw [hc, h] at h'
  cases h'
  exact hr

/-- A node on which nothing goes wrong. -/
theorem cooperative_faultless : Cooperative faultlessStep fun _ => True where
  accurate := nodeStep_of_faultless
  offered h _ := h
  allowed _ _ := trivial
  succeeds := by
    rintro s o r s' r' s'' ⟨c, hc, h⟩ hr ⟨c', hc', h'⟩
    cases o with
    | isLikelyNotMountPoint p =>
      simp only [Sound] at hc hc'
      split at hc
      · rename_i hp
        rw [if_pos hp] at hc'
        exact succeeds_of_eq (hc'.trans hc.symm) h h' hr
      obtain ⟨e, -, rfl⟩ := hc
      cases h
      cases hr
    | umount flags p =>
      simp only [Sound] at hc hc'
      split at hc
      · rename_i hm
        rw [if_pos hm] at hc'
        obtain ⟨out, rfl⟩ := hc'
        simp only [NodeState.exec, hm, if_true, Option.some.injEq] at h'
        cases h'
        rfl
      · obtain ⟨out, err, rfl⟩ := hc
        cases h
        cases hr
    | write p data =>
      obtain ⟨n, rfl, hn⟩ := hc'
      simp only [NodeState.exec] at h'
      split at h'
      · cases h'
        exact ⟨n, rfl, hn⟩
      · cases h'
    | readRoot => trivial
    | readDirNames p => trivial
    | _ => exact succeeds_of_eq (Eq.trans hc' (Eq.symm hc)) h h' hr

/-- The group is a number, if it is read at all. -/
def ReadableGroup (fsGroup : String) (readonly : Bool) : Prop :=
  readonly = true ∨ fsGroup = "" ∨ ∃ gid, atoi fsGroup = .ok gid

namespace Cooperative

variable {step : NodeState → (o : nodeSig.Op) → nodeSig.Res o → NodeState → Prop} {φ : Op → Prop}
  {s : NodeState} {k : Key} {srv : NodeServer}

/-- An operation that can succeed. -/
theorem perform_op (h : Cooperative step φ) {o : Op} {Q : o.Res → NodeState → Prop}
    (ho : opMount o = none) {r : o.Res} (hstep : faultlessStep s o r s') (hr : Succeeds o r)
    (hall : ∀ r s', Outcome s o r s' → Accurate s o r → Succeeds o r → Q r s') :
    Ensures step φ (perform o) Q s :=
  .perform (h.allowed o ho) ⟨r, s', h.offered hstep hr⟩ fun r' s'' hs =>
    hall r' s'' (outcome_of_nodeStep (h.accurate hs)) ((h.accurate hs).2 trivial)
      (h.succeeds hstep hr hs)

/-- What every run without error does, a run on such a node does. -/
theorem of_none (h : Cooperative step φ) {ε : Type} {p : NodeM (Option ε)} {P : NodeState → Prop}
    (hp : Ensures step φ p (fun r _ => r = none) s)
    (hexec : ∀ tr s', Exec (nodeStep True) p s tr none s' → P s') :
    Ensures step φ p (fun r s' => r = none ∧ P s') s := by
  refine hp.with_exec fun tr r s' hrun hr => ⟨hr, ?_⟩
  subst hr
  exact hexec tr s' (hrun.mono fun _ _ _ _ hs => h.accurate hs)

/-- Directories are made. -/
theorem makeDir (h : Cooperative step φ) (p : Path) :
    Ensures step φ (makeDir p) (fun r s' => r = none ∧ s' = s.mkdirAll p) s := by
  refine h.of_none (.bind (Q := fun r _ => r = none)
    (h.perform_op rfl ⟨.ok, rfl, rfl⟩ rfl fun r s' _ _ hr => hr) ?_) fun tr s' h => exec_makeDir_none h
  rintro _ s' rfl
  exact .pure rfl

/-- The directories of a key are made. -/
theorem makeGlobalDirs (h : Cooperative step φ) (k : Key) :
    Ensures step φ (makeGlobalDirs k) (fun r s' => r = none ∧ s' = makeDirs s k) s := by
  refine .bind (h.makeDir _) ?_
  rintro _ _ ⟨rfl, rfl⟩
  refine .bind (h.makeDir _) ?_
  rintro _ _ ⟨rfl, rfl⟩
  exact .pure ⟨rfl, rfl⟩

/-- The answer to whether a path exists is right. -/
theorem pathExists (h : Cooperative step φ) (p : Path) :
    Ensures step φ (pathExists p) (fun r s' => r = .ok (s.pathPresent p) ∧ s' = s) s := by
  have hok : faultlessStep s (.stat p)
      (if s.pathPresent p then none else some ⟨.notExist, "no such file or directory"⟩) s :=
    ⟨.ok, rfl, rfl⟩
  refine .bind (Q := fun r s' => s' = s ∧ (∀ e, r = some e → e.kind = .notExist) ∧
    (r = none ↔ s.pathPresent p = true)) (h.perform_op rfl hok ?_ fun r s' hout _ hr => ?_) ?_
  · intro e he
    split at he <;> cases he
    rfl
  · obtain ⟨rfl, hpresent, hmissing⟩ := hout
    refine ⟨rfl, hr, hpresent, fun hp => ?_⟩
    refine Option.eq_none_iff_forall_ne_some.mpr fun e he => ?_
    have habsent := hmissing e he (hr e he)
    rw [hp] at habsent
    cases habsent
  · rintro r s ⟨rfl, hkind, hiff⟩
    cases r with
    | none => exact .pure ⟨by rw [hiff.mp rfl], rfl⟩
    | some e =>
      have habsent : s.pathPresent p = false := by simpa using hiff
      simp only [hkind e rfl, if_true]
      exact .pure ⟨by rw [habsent], rfl⟩

/-- Every round of the loop but the last writes something. -/
theorem writeLoop (h : Cooperative step φ) {old rest : String} {fuel : ℕ}
    (hold : s.content p = some old) (hparent : s.parentPresent p = true)
    (hfuel : rest.length < fuel) :
    Ensures step φ (writeLoop p fuel rest) (fun r _ => r = none) s := by
  induction fuel generalizing s old rest with
  | zero => omega
  | succ fuel ih =>
    have hwrite : s.exec (.write p rest) (.wrote rest.length) =
        some (.ok rest.length, s.putFile p (old ++ String.ofList (rest.toList.take rest.length))) := by
      simp [NodeState.exec, hold]
    have hok : faultlessStep s (.write p rest) (.ok rest.length) _ :=
      ⟨_, ⟨rest.length, rfl, by simp⟩, hwrite⟩
    refine .bind (Q := fun r s' => ∃ n, r = .ok n ∧ (n = 0 → rest = "") ∧ n ≤ rest.length ∧
      s' = s.putFile p (old ++ String.ofList (rest.toList.take n))) ?_ ?_
    · have hall : Succeeds (.write p rest) (.ok rest.length) := ⟨rest.length, rfl, by simp⟩
      refine .perform (h.allowed _ rfl) ⟨_, _, h.offered hok hall⟩ fun r s' hs => ?_
      obtain ⟨n, rfl, hzero⟩ := h.succeeds hok hall hs
      exact ⟨n, rfl, hzero, write_step (step_of_nodeStep (h.accurate hs)) hold⟩
    · rintro _ _ ⟨n, rfl, hzero, hle, rfl⟩
      simp only
      split
      · exact .pure rfl
      split
      · rename_i hne hn
        obtain rfl := hzero hn
        exact absurd hn hne
      refine ih (content_putFile hparent _).1 (content_putFile hparent _).2 ?_
      simp only [String.length_ofList, List.length_drop, String.length_toList]
      omega

/-- A file is written as a whole. -/
theorem writeFile (h : Cooperative step φ) (hparent : s.parentPresent p = true) (data : String) :
    Ensures step φ (writeFile p data) (fun r s' => r = none ∧ s' = s.putFile p data) s := by
  refine h.of_none (.bind (Q := fun r s' => r = none ∧ s' = s.putFile p "") ?_ ?_)
    fun tr s' hrun => (exec_writeFile_none hrun).2
  · have hopen : s.exec (.openTrunc p) .ok = some (none, s.putFile p "") := by
      simp [NodeState.exec, hparent]
    refine h.perform_op rfl ⟨.ok, rfl, hopen⟩ rfl fun r s' hout _ hr => ?_
    rcases hout with ⟨-, -, rfl⟩ | ⟨e, rfl, -⟩
    · exact ⟨hr, rfl⟩
    · cases hr
  · rintro _ _ ⟨rfl, rfl⟩
    exact h.writeLoop (content_putFile hparent "").1 (content_putFile hparent "").2 (by omega)

/-- The token of a key is replaced. -/
theorem updateTokenFile (h : Cooperative step φ) (hdir : (s.dir k).isSome) (token : String) :
    Ensures step φ (updateTokenFile k token) (fun r s' => r = none ∧ s' = replaceToken s k token) s := by
  have hparent : s.parentPresent (.tokenTmp k) = true := hdir
  refine h.of_none (.bind (h.writeFile hparent token) ?_) fun tr s' hrun => exec_updateTokenFile_none hrun
  rintro _ _ ⟨rfl, rfl⟩
  refine .bind (Q := fun r _ => r = none) ?_ ?_
  · have hrename : (s.putFile (.tokenTmp k) token).exec (.renameToken k) .ok =
        some (none, replaceToken s k token) := by
      simp only [NodeState.exec, (content_putFile hparent token).1]
      rfl
    exact h.perform_op rfl ⟨.ok, rfl, hrename⟩ rfl fun r s' _ _ hr => hr
  · rintro _ s' rfl
    exact .pure rfl

/-- A path that exists is probed rightly. -/
theorem isMounted (h : Cooperative step φ) (hp : s.pathPresent p = true) :
    Ensures step φ (isMounted p) (fun r s' => r = .ok (s.mounted p) ∧ s' = s) s := by
  refine .bind (Q := fun r s' => r = .ok (!s.mounted p) ∧ s' = s) ?_ ?_
  · refine h.perform_op rfl ⟨.probe (.ok !s.mounted p), by simp [Sound, hp], rfl⟩ rfl
      fun r s' hout hacc hr => ?_
    cases r with
    | error e => cases hr
    | ok b =>
      obtain rfl : b = !s.mounted p := hacc
      exact ⟨rfl, hout⟩
  · rintro _ _ ⟨rfl, rfl⟩
    exact .pure (by simp)

/-- A lock that is free is taken for the time of the body. -/
theorem withLock (h : Cooperative step φ) {ε : Type} {x : String} {refused : ε}
    {body : NodeM (Option ε)} {P : Option ε → NodeState → Prop} (hx : x ∉ s.locks)
    (hbody : Ensures step φ body (fun r s₁ => P r { s₁ with locks := s₁.locks.erase x })
      { s with locks := insert x s.locks }) :
    Ensures step φ (withLock x refused body) P s := by
  refine .bind (Q := fun r s' => r = true ∧ s' = { s with locks := insert x s.locks }) ?_ ?_
  · have hacquire : s.exec (.tryAcquire x) .ok = some (true, { s with locks := insert x s.locks }) := by
      simp [NodeState.exec, hx]
    refine h.perform_op rfl ⟨.ok, rfl, hacquire⟩ trivial fun r s' hout _ _ => ?_
    rcases hout with ⟨rfl, -, rfl⟩ | ⟨-, htaken, -⟩
    · exact ⟨rfl, rfl⟩
    · exact absurd htaken hx
  · rintro _ _ ⟨rfl, rfl⟩
    refine .bind hbody ?_
    intro r s₁ hs₁
    refine .bind (Q := fun _ s' => s' = { s₁ with locks := s₁.locks.erase x }) ?_
      fun _ _ hs => .pure (hs ▸ hs₁)
    exact h.perform_op rfl ⟨.ok, rfl, rfl⟩ trivial fun r s' hout _ _ => hout

/-- The token is replaced, and what mounts the key is run if the key is not mounted. -/
theorem ensureGlobalMount (h : Cooperative step φ) {token : String} (after : NodeState)
    (htoken : serviceToken srv volumeID k vc = .ok token) (hmount : s.mounted (.mount k) = false →
      Ensures step φ (mountGlobalIAM srv volumeID principal k vc volCap)
        (fun r s' => r = none ∧ s' = after) (replaceToken (makeDirs s k) k token)) :
    Ensures step φ (ensureGlobalMount srv volumeID principal k vc volCap) (fun r s' => r = none ∧
      s' = if s.mounted (.mount k) then replaceToken (makeDirs s k) k token else after) s := by
  refine .bind (h.makeGlobalDirs k) ?_
  rintro _ _ ⟨rfl, rfl⟩
  simp only [htoken]
  have hdir : ((makeDirs s k).dir k).isSome := by simp [makeDirs, NodeState.mkdirAll]
  refine .bind (h.updateTokenFile hdir token) ?_
  rintro _ _ ⟨rfl, rfl⟩
  have hpresent : (replaceToken (makeDirs s k) k token).pathPresent (.mount k) = true := by
    simp [NodeState.pathPresent, dir_replaceToken_makeDirs]
  refine .bind (h.isMounted hpresent) ?_
  rintro _ _ ⟨rfl, rfl⟩
  have hm : (replaceToken (makeDirs s k) k token).mounted (.mount k) = s.mounted (.mount k) := rfl
  rw [hm]
  cases hmounted : s.mounted (.mount k) with
  | true => exact .pure ⟨rfl, rfl⟩
  | false => exact hmount hmounted

/-- A reference that is there is left as it is; another one is written. -/
theorem addPodReference (h : Cooperative step φ) (podUID volumeID : String)
    (hparent : s.pathPresent (.refs k) = true) :
    Ensures step φ (addPodReference k podUID volumeID) (fun r s' => r = none ∧
      s' = if s.pathPresent (.ref k podUID) then s else s.putFile (.ref k podUID) volumeID) s := by
  refine .bind (h.pathExists _) ?_
  rintro _ s ⟨rfl, rfl⟩
  cases hp : s.pathPresent (.ref k podUID) with
  | true => exact .pure ⟨rfl, rfl⟩
  | false => exact h.writeFile (p := .ref k podUID) hparent volumeID

/-- Group and mode of a mounted directory are changed. -/
theorem changeOwnership (h : Cooperative step φ) {d : String} (hd : s.topDevice p = some d)
    (gid : Int) : Ensures step φ (changeOwnership p gid) (fun r _ => r = none) s := by
  have hattr := attrAt_of_topDevice hd
  refine .bind (Q := fun r s' => (∃ a, r = .ok a) ∧ s' = s) ?_ ?_
  · have hlstat : s.exec (.lstat p) .ok = some (.ok (s.rootAttrs d), s) := by simp [NodeState.exec, hattr]
    refine h.perform_op rfl ⟨.ok, rfl, hlstat⟩ rfl fun r s' hout _ hr => ⟨?_, hout⟩
    cases r with
    | error e => cases hr
    | ok a => exact ⟨a, rfl⟩
  · rintro _ s ⟨⟨a, rfl⟩, rfl⟩
    refine .bind (Q := fun r s' => r = none ∧ s'.topDevice p = some d) ?_ ?_
    · have hlchown : ∃ s', s.exec (.lchown p gid) .ok = some (none, s') := by simp [NodeState.exec, hattr]
      obtain ⟨s', hlchown⟩ := hlchown
      have hok : faultlessStep s (.lchown p gid) none s' := ⟨.ok, rfl, hlchown⟩
      refine .perform (h.allowed _ rfl) ⟨none, s', h.offered hok rfl⟩ fun r s₂ hs => ?_
      obtain rfl : r = none := h.succeeds hok rfl hs
      obtain ⟨a₁, -, rfl⟩ := lchown_step (step_of_nodeStep (h.accurate hs))
      exact ⟨rfl, by rw [NodeState.topDevice, mounts_setAttr]; exact hd⟩
    · rintro _ s₂ ⟨rfl, hd₂⟩
      have hchmod : ∃ s', s₂.exec (.chmod p (a.mode ||| ownershipMask)) .ok = some (none, s') := by
        simp [NodeState.exec, attrAt_of_topDevice hd₂]
      obtain ⟨s', hchmod⟩ := hchmod
      exact h.perform_op rfl ⟨.ok, rfl, hchmod⟩ rfl fun r s' _ _ hr => hr

/-- The group of a mounted directory is set, if one is asked for. -/
theorem publishOwnership (h : Cooperative step φ) {d fsGroup : String} {readonly : Bool}
    (hd : s.topDevice p = some d) (hgroup : ReadableGroup fsGroup readonly) :
    Ensures step φ (publishOwnership srv p fsGroup readonly)
      (fun r s' => r = none ∧ s' = setOwnership s d (askedGroup fsGroup readonly)) s := by
  refine h.of_none (.bind (Q := fun r _ => r = none) ?_ ?_)
    fun tr s' hrun => exec_publishOwnership_mounted hd hrun
  · unfold setVolumeOwnershipTopLevel
    split
    · exact .pure rfl
    split
    · exact .pure rfl
    rename_i hreadonly hne
    obtain ⟨gid, hgid⟩ := (hgroup.resolve_left hreadonly).resolve_left hne
    simp only [hgid]
    refine .bind (h.changeOwnership hd gid) ?_
    rintro _ s' rfl
    exact .pure rfl
  · rintro _ s' rfl
    exact .pure rfl

end Cooperative

section Functions

variable {s : NodeState} {k : Key} {srv : NodeServer}

/-- An operation that leaves nothing open. -/
theorem faultless_ok {o : Op} {Q : o.Res → NodeState → Prop} {c : Choice} {r : o.Res}
    (hsound : ∀ c', Sound s o c' ↔ c' = c) (hexec : s.exec o c = some (r, s')) (hQ : Q r s') :
    Faultless (perform o) Q s := by
  refine .perform trivial ⟨r, s', c, (hsound c).mpr rfl, hexec⟩ ?_
  rintro r₁ s₁ ⟨c', hc', hexec'⟩
  obtain rfl := (hsound c').mp hc'
  rw [hexec] at hexec'
  cases hexec'
  exact hQ

/-- What the probe answers: an error counts as unmounted only where nothing can be mounted. -/
theorem faultless_probe (hp : s.mounted p = true → s.pathPresent p = true) :
    Faultless (perform (.isLikelyNotMountPoint p))
      (fun r s' => notMountPoint r = (!s.mounted p) ∧ s' = s ∧
        (∀ e, r = .error e → e.kind = .notExist) ∧ ∀ b, r = .ok b → b = !s.mounted p) s := by
  by_cases hpresent : s.pathPresent p = true
  · refine faultless_ok (c := .probe (.ok !s.mounted p)) (fun c => ?_) rfl ⟨rfl, rfl, by simp, by simp⟩
    simp [Sound, hpresent]
  have hnot : s.mounted p = false := by
    by_contra h
    exact hpresent (hp (by simpa using h))
  refine .perform trivial ⟨.error ⟨.notExist, ""⟩, s, .probe (.error ⟨.notExist, ""⟩), ?_, rfl⟩ ?_
  · simp [Sound, hpresent]
  · rintro r s' ⟨c, hc, hexec⟩
    simp only [Sound, hpresent] at hc
    obtain ⟨e, he, rfl⟩ := hc
    cases hexec
    refine ⟨by simp [notMountPoint, he, hnot], rfl, fun e' he' => ?_, fun b hb => by cases hb⟩
    cases he'
    exact he

/-- The probe answers whether the path is mounted. -/
theorem faultless_isMounted (hp : s.mounted p = true → s.pathPresent p = true) :
    Faultless (isMounted p) (fun r s' => r = .ok (s.mounted p) ∧ s' = s) s := by
  refine .bind (faultless_probe hp) ?_
  rintro r s ⟨hnot, rfl, herr, hok⟩
  cases r with
  | ok b =>
    rw [hok b rfl]
    exact .pure (by simp)
  | error e =>
    have hkind := herr e rfl
    have hnot : s.mounted p = false := by
      simpa [notMountPoint, hkind] using hnot.symm
    simp only [hkind, if_true]
    exact .pure ⟨by rw [hnot], rfl⟩

/-! ## Unmounting -/

/-- The path without its mount, and without the directory if there was one. -/
def unmounted (s : NodeState) (p : Path) : NodeState :=
  if s.pathPresent p then (s.detach p).erase p else s

/-- Where nothing is mounted there is nothing to take off. -/
theorem detach_of_not_mounted (h : s.mounted p = false) : s.detach p = s := by
  have hnone : ∀ m ∈ s.mounts, ¬(decide (m.path = p)) = true := by
    simpa [NodeState.mounted, NodeState.mountsAt] using h
  have hmounts : s.mounts.eraseP (fun m => decide (m.path = p)) = s.mounts :=
    List.eraseP_of_forall_not hnone
  simp only [NodeState.detach, hmounts]

/-- An empty directory, or none, is removed. -/
theorem faultless_removeDir (hm : s.mounted p = false) (huse : s.dirInUse p = false) :
    Faultless (removeDir p)
      (fun r s' => r = none ∧ s' = if s.pathPresent p then s.erase p else s) s := by
  have hexec : s.exec (.remove p) .ok = some ((s.removeOne p).1, (s.removeOne p).2) := rfl
  refine .bind (faultless_ok (Q := fun r s' => unlessNotExist r = none ∧
    s' = if s.pathPresent p then s.erase p else s) (fun _ => Iff.rfl) hexec ?_) ?_
  · unfold NodeState.removeOne
    cases hp : s.pathPresent p with
    | true => simp [huse, hm, unlessNotExist]
    | false => simp [unlessNotExist]
  · rintro r _ ⟨hr, rfl⟩
    exact .pure ⟨by rw [hr]; rfl, rfl⟩

/-- Unmounting removes no path. -/
theorem pathPresent_detach (s : NodeState) (p q : Path) :
    (s.detach p).pathPresent q = s.pathPresent q := by
  cases q <;> rfl

/-- Unmounting does not change whether a directory is in use. -/
theorem dirInUse_detach (s : NodeState) (p q : Path) : (s.detach p).dirInUse q = s.dirInUse q := by
  cases q <;> rfl

/-- A path with one mount at most is unmounted, and its directory goes. -/
theorem faultless_unmountPath (hp : s.mounted p = true → s.pathPresent p = true)
    (hsingle : (s.mountsAt p).length ≤ 1) (huse : s.dirInUse p = false) :
    Faultless (unmountPath srv p) (fun r s' => r = none ∧ s' = unmounted s p) s := by
  refine .bind (faultless_probe hp) ?_
  rintro r s ⟨hnot, rfl, -⟩
  rw [hnot]
  cases hm : s.mounted p with
  | false =>
    simp only [Bool.not_false, if_true]
    refine (faultless_removeDir hm huse).mono ?_
    rintro _ _ ⟨rfl, rfl⟩
    simp only [unmounted, detach_of_not_mounted hm, and_self]
  | true =>
    simp only [Bool.not_true, Bool.false_eq_true, if_false, umountPhases]
    refine .bind (Q := fun r s' => r.2 = none ∧ s' = s.detach p) ?_ ?_
    · refine .perform trivial ⟨("", none), s.detach p, .umounted "" none true, ?_, ?_⟩ ?_
      · simp [Sound, hm]
      · simp [NodeState.exec, hm]
      · rintro r s' ⟨c, hc, hexec⟩
        simp only [Sound, hm, if_true] at hc
        obtain ⟨out, rfl⟩ := hc
        simp only [NodeState.exec, hm, if_true, Option.some.injEq] at hexec
        cases hexec
        exact ⟨rfl, rfl⟩
    · rintro ⟨out, err⟩ _ ⟨rfl, rfl⟩
      have hm' : (s.detach p).mounted p = false := by
        have hlen : ((s.detach p).mountsAt p).length = 0 := by
          rw [mountsAt_detach_self, List.length_tail]
          omega
        simp [NodeState.mounted, List.eq_nil_of_length_eq_zero hlen]
      simp only [Option.isNone_none, Bool.true_or, if_true]
      refine (faultless_removeDir hm' ((dirInUse_detach _ _ _).trans huse)).mono ?_
      rintro _ _ ⟨rfl, rfl⟩
      simp only [pathPresent_detach, unmounted, hp hm, if_true, and_self]

/-! ## Publishing -/

/-- The routes are set up. -/
theorem faultless_setUpMultiNIC (srv : NodeServer) (volumeID ip : String) :
    Faultless (setUpMultiNIC srv volumeID ip) (fun r s' => r = none ∧ s' = s) s := by
  unfold setUpMultiNIC
  split
  · exact .pure ⟨rfl, rfl⟩
  · exact faultless_ok (fun _ => Iff.rfl) rfl ⟨rfl, rfl⟩

/-- A mount on a directory. -/
theorem faultless_mount {source fstype : String} {options : List String}
    (hp : s.pathPresent p = true) :
    Faultless (perform (.mountSensitiveWithoutSystemd source p fstype options))
      (fun r s' => r = none ∧ s' = s.attach source p fstype options) s := by
  have hexec : s.exec (.mountSensitiveWithoutSystemd source p fstype options) .ok =
      some (none, s.attach source p fstype options) := by simp [NodeState.exec, hp]
  exact faultless_ok (fun _ => Iff.rfl) hexec ⟨rfl, rfl⟩

/-- The address and the file system that a volume context names for an IAM volume. -/
def endpointOf (srv : NodeServer) (vc : StrMap) : Except Status (String × String) :=
  lustreEndpoint (vc.get (normalize srv.unicode keyInstanceIP))
    (vc.get (normalize srv.unicode keyFilesystem)) (vc.get (normalize srv.unicode keyMountPoint))

/-- The options of the global mount of a key. -/
def globalOptions (principal : String) (k : Key) (volCap : VolumeCapability) : List String :=
  addMountFlags [s!"user_principal=gke-wi://{principal}+{k.name}"] volCap

/-- The file system is mounted for the key. -/
theorem faultless_mountGlobalIAM {ip fsname : String} (hp : s.pathPresent (.mount k) = true)
    (hend : endpointOf srv vc = .ok (ip, fsname)) :
    Faultless (mountGlobalIAM srv volumeID principal k vc volCap)
      (fun r s' => r = none ∧ s' = s.attach (lustreSource ip fsname) (.mount k) "lustre"
        (globalOptions principal k volCap)) s := by
  unfold endpointOf at hend
  simp only [mountGlobalIAM, hend]
  refine .bind (faultless_setUpMultiNIC srv volumeID ip) ?_
  rintro _ _ ⟨rfl, rfl⟩
  refine .bind (faultless_mount hp) ?_
  rintro _ _ ⟨rfl, rfl⟩
  exact .pure ⟨rfl, rfl⟩

/-- The state after `ensureGlobalMount`: the token is new, and so is the mount if there was none. -/
def ensured (s : NodeState) (k : Key) (token source : String) (options : List String) : NodeState :=
  let s' := replaceToken (makeDirs s k) k token
  if s.mounted (.mount k) then s' else s'.attach source (.mount k) "lustre" options

/-- The global mount of a key is there afterwards, with the new token. -/
theorem faultless_ensureGlobalMount {token source : String}
    (htoken : serviceToken srv volumeID k vc = .ok token) (hsource : s.mounted (.mount k) = false →
      ∃ ip fsname, endpointOf srv vc = .ok (ip, fsname) ∧ source = lustreSource ip fsname) :
    Faultless (ensureGlobalMount srv volumeID principal k vc volCap)
      (fun r s' => r = none ∧ s' = ensured s k token source (globalOptions principal k volCap)) s := by
  refine cooperative_faultless.ensureGlobalMount _ htoken fun hmounted => ?_
  obtain ⟨ip, fsname, hend, rfl⟩ := hsource hmounted
  apply faultless_mountGlobalIAM _ hend
  simp [NodeState.pathPresent, dir_replaceToken_makeDirs]

/-- The reference of the pod is there afterwards, and its target is mounted. -/
theorem faultless_bindPod {targetPath podUID : String} {options : List String}
    {targetMounted : Bool} (hparent : s.pathPresent (.refs k) = true)
    (htarget : s.pathPresent (.outside targetPath) = true) :
    Faultless (bindPod srv volumeID targetPath targetMounted podUID k options) (fun r s' => r = none ∧
      ∃ s₁, (s₁ = if s.pathPresent (.ref k podUID) then s else s.putFile (.ref k podUID) volumeID) ∧
        s' = if targetMounted then s₁
          else s₁.attach (Path.mount k).render (.outside targetPath) "lustre" options) s := by
  refine .bind (cooperative_faultless.addPodReference podUID volumeID hparent) ?_
  rintro _ s₁ ⟨rfl, hs₁⟩
  cases targetMounted with
  | true => exact .pure ⟨rfl, s₁, hs₁, rfl⟩
  | false =>
    have hpresent : s₁.pathPresent (.outside targetPath) = true := by
      rw [hs₁]
      split <;> exact htarget
    refine .bind (faultless_mount hpresent) ?_
    rintro _ _ ⟨rfl, rfl⟩
    exact .pure ⟨rfl, s₁, hs₁, rfl⟩

/-! ## Cleaning up -/

/-- The directories of the keys in which a name is found, in the order given. -/
theorem faultless_keysListing (dirOf : Key → Path) (name : String) (ks : List Key) :
    Faultless (keysListing dirOf name ks)
      (fun r s' => r = ks.filter (fun k => name ∈ s.names (dirOf k)) ∧ s' = s) s := by
  induction ks with
  | nil => exact .pure ⟨rfl, rfl⟩
  | cons k ks ih =>
    refine .bind (Q := fun ns s' => s' = s ∧ (name ∈ ns ↔ name ∈ s.names (dirOf k))) ?_ ?_
    · refine .perform trivial ⟨s.names (dirOf k), s, .names (s.names (dirOf k)), ⟨_, rfl, fun _ h => h⟩, ?_⟩ ?_
      · simp only [NodeState.exec, if_pos (And.intro (names_nodup s (dirOf k)) fun _ h => h)]
      · rintro ns s' ⟨c, ⟨ns', rfl, hcomplete⟩, hexec⟩
        simp only [NodeState.exec, Option.ite_none_right_eq_some, Option.some.injEq,
          Prod.mk.injEq] at hexec
        obtain ⟨⟨-, hsub⟩, rfl, rfl⟩ := hexec
        exact ⟨rfl, hsub name, hcomplete name⟩
    · rintro ns _ ⟨rfl, hname⟩
      refine .bind ih ?_
      rintro _ _ ⟨rfl, rfl⟩
      refine .pure ⟨?_, rfl⟩
      simp only [hname, List.filter_cons, decide_eq_true_eq]

/-- The references of a pod are all found, each once. -/
theorem faultless_globPodReferences (u : String) :
    Faultless (globPodReferences u) (fun r s' => s' = s ∧ ∃ ks : List Key, ks.Nodup ∧
      r = ks.map (.ref · u) ∧ ∀ k, k ∈ ks ↔ s.pathPresent (.ref k u) = true) s := by
  refine .bind (Q := fun ks s' => s' = s ∧ List.Nodup (α := Key) ks ∧ ∀ k : Key, k ∈ ks ↔ k ∈ s.keys) ?_ ?_
  · refine .perform trivial ⟨s.keys.keys, s, .keys s.keys.keys, ⟨_, rfl, fun k hk => AList.mem_keys.mp hk⟩, ?_⟩ ?_
    · simp only [NodeState.exec, if_pos (And.intro s.keys.keys_nodup fun k hk => AList.mem_keys.mpr hk)]
    · rintro ks s' ⟨c, ⟨ks', rfl, hcomplete⟩, hexec⟩
      simp only [NodeState.exec, Option.ite_none_right_eq_some, Option.some.injEq,
        Prod.mk.injEq] at hexec
      obtain ⟨⟨hnodup, hsub⟩, rfl, rfl⟩ := hexec
      exact ⟨rfl, hnodup, fun k => ⟨hsub k, hcomplete k⟩⟩
  · rintro ks s ⟨rfl, hnodup, hks⟩
    refine .bind (faultless_keysListing _ _ _) ?_
    rintro _ s ⟨rfl, rfl⟩
    refine .bind (faultless_keysListing _ _ _) ?_
    rintro _ s ⟨rfl, rfl⟩
    refine .pure ⟨rfl, _, (hnodup.filter _).filter _, rfl, fun k => ?_⟩
    simp only [List.mem_filter, decide_eq_true_eq, hks]
    constructor
    · rintro ⟨-, hname⟩
      exact pathPresent_ref_of_name hname
    · intro href
      obtain ⟨d, rs, hd, hrs, hu⟩ := pathPresent_ref_iff.mp href
      have hkey : k ∈ s.keys := AList.lookup_isSome.mp (by
        rw [show s.keys.lookup k = some d from hd]
        rfl)
      refine ⟨⟨hkey, by simp [NodeState.names, hd, hrs]⟩, ?_⟩
      simpa [NodeState.names, hd, hrs] using AList.mem_keys.mp hu

end Functions

end LustreCsi.Interface
