import LustreCsi.Interface.NodeSections
import LustreCsi.Interface.PublishRuns
import LustreCsi.Interface.Sample

/-!
# The token files

`updateTokenFile` writes a token to `token.tmp`, which all publishes of a key share, and renames
that file to `token`, which the upcall reads outside any lock. `token_integrity`: in every run a
reader of the token file finds a complete token that some publish of this key has renamed into
place, and an update that fails leaves the file as it was. The lock of a key protects its two token
files, and a handler renames only what is complete (`Renames`).
-/

set_option autoImplicit false

namespace LustreCsi.Analysis.TokenFiles

open LustreCsi.Computation Model Interface

variable {k : Key} {s : NodeState} {s' σ : NodeState} {p : Path} {o : Op} {r : o.Res} {ε : Type}
  {volumeID : String} {vc : StrMap} {volCap : VolumeCapability}

/-! ## The operations that concern token files -/

/-- The token files of the key are the same. -/
structure SameTokens (k : Key) (s s' : NodeState) : Prop where
  token : s'.content (.token k) = s.content (.token k)
  tmp : s'.content (.tokenTmp k) = s.content (.tokenTmp k)

/-- A key has the same token files as itself. -/
theorem SameTokens.refl (k : Key) (s : NodeState) : SameTokens k s s := ⟨rfl, rfl⟩

/-- Having the same token files is transitive. -/
theorem SameTokens.trans {s₁ s₂ s₃ : NodeState} (h : SameTokens k s₁ s₂) (h' : SameTokens k s₂ s₃) :
    SameTokens k s₁ s₃ :=
  ⟨h'.token.trans h.token, h'.tmp.trans h.tmp⟩

/-- The key whose token files are lost or changed with the path. -/
def tokenKey : Path → Option Key
  | .token k => some k
  | .tokenTmp k => some k
  | .keyDir k => some k
  | _ => none

/-- The key whose token files an operation may change. -/
def opToken : Op → Option Key
  | .remove p => tokenKey p
  | .openTrunc p => tokenKey p
  | .write p _ => tokenKey p
  | .removeAll k => some k
  | .renameToken k => some k
  | _ => none

/-- The token files are part of the directory of the key. -/
theorem sameTokens_of_dir (h : s'.dir k = s.dir k) :
    SameTokens k s s' := by
  constructor <;> simp only [NodeState.content, h]

/-- A change of a key's directory that leaves its token files alone. -/
theorem sameTokens_modifyKey (s : NodeState) (k k' : Key) {f : KeyDir → KeyDir}
    (hf : ∀ d, (f d).token = d.token ∧ (f d).tokenTmp = d.tokenTmp) :
    SameTokens k s (s.modifyKey k' f) := by
  by_cases hk : k = k'
  · subst hk
    constructor <;> cases hd : s.dir k <;> simp [NodeState.content, hd, hf, KeyDir.empty]
  · exact sameTokens_of_dir (dir_modifyKey_of_ne s hk f)

/-- Making a directory leaves the token files alone. -/
theorem sameTokens_mkdirAll (s : NodeState) (k : Key) (p : Path) :
    SameTokens k s (s.mkdirAll p) := by
  cases p <;> simp only [NodeState.mkdirAll]
  case outside q => split <;> exact sameTokens_of_dir rfl
  case keyDir k' => exact sameTokens_modifyKey s k k' fun _ => ⟨rfl, rfl⟩
  case mount k' => exact sameTokens_modifyKey s k k' fun _ => ⟨rfl, rfl⟩
  case refs k' => exact sameTokens_modifyKey s k k' fun _ => ⟨rfl, rfl⟩
  all_goals exact .refl k s

/-- A path of another key. -/
theorem ne_of_tokenKey {k' : Key} (h : tokenKey p ≠ some k) (hp : tokenKey p = some k') : k ≠ k' := by
  rintro rfl
  exact h hp

/-- Removing another path leaves the token files alone. -/
theorem sameTokens_erase (s : NodeState) (h : tokenKey p ≠ some k) :
    SameTokens k s (s.erase p) := by
  cases p <;> simp only [NodeState.erase]
  case outside q => exact sameTokens_of_dir rfl
  case keyDir k' => exact sameTokens_of_dir (SameKey.eraseKey s (ne_of_tokenKey h rfl)).dir
  case token k' => exact sameTokens_of_dir (dir_modifyKey_of_ne s (ne_of_tokenKey h rfl) _)
  case tokenTmp k' => exact sameTokens_of_dir (dir_modifyKey_of_ne s (ne_of_tokenKey h rfl) _)
  all_goals exact sameTokens_modifyKey s k _ fun _ => ⟨rfl, rfl⟩

/-- Writing another file leaves the token files alone. -/
theorem sameTokens_putFile (s : NodeState) (h : tokenKey p ≠ some k) (text : String) :
    SameTokens k s (s.putFile p text) := by
  cases p <;> simp only [NodeState.putFile]
  case ref k' u => exact sameTokens_modifyKey s k k' fun _ => ⟨rfl, rfl⟩
  case token k' => exact sameTokens_of_dir (dir_modifyKey_of_ne s (ne_of_tokenKey h rfl) _)
  case tokenTmp k' => exact sameTokens_of_dir (dir_modifyKey_of_ne s (ne_of_tokenKey h rfl) _)
  all_goals exact .refl k s

/-- An operation changes no token files but those it names. -/
theorem sameTokens_of_step (h : s.step o r s') (hno : opToken o ≠ some k) :
    SameTokens k s s' := by
  have hout := outcome_of_step h
  obtain rfl | hc := hout.change
  · exact .refl k _
  cases hc with
  | acquire | release | unmount | umount | mount => exact sameTokens_of_dir rfl
  | mkdirAll p q => exact sameTokens_mkdirAll s k q
  | remove => exact sameTokens_erase s hno
  | removeAll | removeParts | rename => exact sameTokens_of_dir (hout.frame hno).dir
  | openTrunc | write => exact sameTokens_putFile s hno _
  | attr o r p a => exact sameTokens_of_dir (SameKey.setAttr s k p a).dir

/-- The temporary file holds what was written. -/
@[simp] theorem content_putFile_tmp (s : NodeState) (k : Key) (text : String) :
    (s.putFile (.tokenTmp k) text).content (.tokenTmp k) = some text := by
  simp [NodeState.putFile, NodeState.content]

/-- The token file itself, when the temporary one is written or removed. -/
theorem token_putFile_tmp (s : NodeState) (k : Key) (text : String) :
    (s.putFile (.tokenTmp k) text).content (.token k) = s.content (.token k) := by
  cases hd : s.dir k <;> simp [NodeState.putFile, NodeState.content, hd, KeyDir.empty]

/-- Removing the temporary file leaves the token alone. -/
theorem token_erase_tmp (s : NodeState) (k : Key) :
    (s.erase (.tokenTmp k)).content (.token k) = s.content (.token k) := by
  cases hd : s.dir k <;> simp [NodeState.erase, NodeState.content, hd, KeyDir.empty]

/-! ## The contract of the handlers -/

/-- The request is a publish of the key that passes the token to `updateTokenFile`. -/
def Passes (s : NodeServer) (req : NodeRequest) (k : Key) (token : String) : Prop :=
  match req with
  | .publish req => ∃ vc volCap, validatePublish s req = .ok (vc, volCap) ∧ isIAM s vc = true ∧
      keyOf s req.volumeID vc = k ∧ serviceToken s req.volumeID k vc = .ok token
  | .unpublish _ => False

/-- The lock of a key protects its token files. -/
def tokenResources : Resources NodeState String where
  inv _ := True
  mono _ _ := True
  keeps x s s' := ∀ k : Key, k.name = x → SameTokens k s s'
  mono_refl _ := trivial
  mono_trans _ _ _ _ _ := trivial
  keeps_refl _ s k _ := .refl k s
  keeps_trans _ _ _ _ h h' k hk := (h k hk).trans (h' k hk)

/-- What a handler does with token files: only under the lock of their key, never to the token
file in place, and what it renames is a token that its request passes. -/
structure Renames (s : NodeServer) (reqs : ℕ → NodeRequest) (t : ℕ) (w : World nodeSig NodeState)
    (e : Event nodeSig) : Prop where
  owned : ∀ k, opToken e.1 = some k → callLocks.Holds w.trace t k.name
  apart : ∀ k, e.1 ≠ .openTrunc (.token k) ∧ ∀ data, e.1 ≠ .write (.token k) data
  complete : ∀ k, e = ⟨.renameToken k, none⟩ →
    ∃ token, Passes s (reqs t) k token ∧ w.state.content (.tokenTmp k) = some token

section Handlers

variable {s : NodeServer} {reqs : ℕ → NodeRequest} {t : ℕ} {X : List String} {k : Key}
  {w : World nodeSig NodeState}

/-- The contract of the handlers. -/
abbrev contract (s : NodeServer) (reqs : ℕ → NodeRequest) : Contract nodeSig NodeState :=
  sectionContract callLocks tokenResources (Renames s reqs)

/-- Safety of a handler. -/
abbrev SafeTokens (s : NodeServer) (reqs : ℕ → NodeRequest) (t : ℕ) {α : Type}
    (Q : α → World nodeSig NodeState → Prop) (p : NodeM α) (w : World nodeSig NodeState) : Prop :=
  Safe NodeState.step t (contract s reqs) Q p w

/-- The handler holds the locks in `X`. -/
abbrev Held (t : ℕ) (X : List String) : World nodeSig NodeState → Prop :=
  InsideAll callLocks t X fun _ => True

/-- Operations that take no lock, rename nothing and are on token files of the given locks only. -/
def Plain (X : List String) : Op → Prop
  | .tryAcquire _ => False
  | .release _ => False
  | .renameToken _ => False
  | .removeAll k => k.name ∈ X
  | .remove p => ∀ k, tokenKey p = some k → k.name ∈ X
  | .openTrunc p => tokenKey p = none
  | .write p _ => tokenKey p = none
  | _ => True

/-- A plain operation neither takes nor releases a lock. -/
theorem Plain.event_eq (h : Plain X o) (r : o.Res) : callLocks.event ⟨o, r⟩ = none := by
  cases o with
  | tryAcquire x => exact h.elim
  | release x => exact h.elim
  | _ => rfl

/-- A plain operation renames no token file. -/
theorem Plain.renames (h : Plain X o) (hw : Held t X w) (r : o.Res) :
    Renames s reqs t w ⟨o, r⟩ := by
  refine ⟨fun k hk => hw.held _ ?_, fun k => ⟨?_, ?_⟩, fun k heq => ?_⟩
  · cases o with
    | removeAll k' =>
      obtain rfl : k' = k := by simpa [opToken] using hk
      exact h
    | remove p => exact h k hk
    | openTrunc p | write p data =>
      have hp : tokenKey p = none := h
      simp [opToken, hp] at hk
    | renameToken k' => exact h.elim
    | _ => simp [opToken] at hk
  · rintro rfl
    simp [Plain, tokenKey] at h
  · rintro data rfl
    simp [Plain, tokenKey] at h
  · cases heq
    exact h.elim

/-- The guarantee keeps what the locks protect; taking and releasing a lock renames nothing. -/
theorem sections : @Sections NodeState.step (fun h => h) tokenResources (Renames s reqs) where
  keeps _ _ _ _ _ _ hs hR :=
    ⟨trivial, trivial, fun _ hx k hk => sameTokens_of_step hs fun ho => hx (hk ▸ hR.owned k ho), hR⟩
  acquire _ _ _ _ := ⟨fun k hk => by simp [opToken] at hk, fun k => ⟨by simp, by simp⟩,
    fun k heq => by cases heq⟩
  release _ _ _ _ := ⟨fun k hk => by simp [opToken] at hk, fun k => ⟨by simp, by simp⟩,
    fun k heq => by cases heq⟩

/-- A program of plain operations is safe, and keeps the locks. -/
theorem safe_plain {α : Type} {p : NodeM α} (hp : p.All (Plain X)) (hw : Held t X w) :
    SafeTokens s reqs t (fun _ => Held t X) p w :=
  sections.all InsideAll.stable_true (fun _ r h => h.event_eq r) (fun _ _ r h hw _ => h.renames hw r)
    (fun _ _ r _ h hw _ => hw.kept (h.event_eq r)) hp hw

/-- A program that has ended keeps the locks it holds. -/
theorem safe_return {α : Type} {a : α} (hw : Held t X w) :
    SafeTokens s reqs t (fun _ => Held t X) (pure a : NodeM α) w :=
  safe_plain .pure hw

/-- The rule for `withLock`. -/
theorem safe_withLock {x : String} {refused : ε} {body : NodeM (Option ε)}
    (hbody : ∀ w, Held t (x :: X) w → SafeTokens s reqs t (fun _ => Held t (x :: X)) body w)
    (hw : Held t X w) : SafeTokens s reqs t (fun _ => Held t X) (withLock x refused body) w :=
  sections.withLock InsideAll.stable_true (fun _ _ h => h) hbody hw

/-! ## Writing a token -/

/-- The temporary file of the key has the content. -/
def Tmp (k : Key) (text : String) (s : NodeState) : Prop := s.content (.tokenTmp k) = some text

/-- The temporary file of a key is protected by its lock. -/
theorem Tmp.isProtected (k : Key) (text : String) :
    Protected tokenResources k.name (Tmp k text) :=
  fun _ _ h _ _ hkeep => (hkeep k rfl).tmp.trans h

/-- The operations on the temporary file under the lock of the key. -/
theorem renames_tmp {ψ : NodeState → Prop} (hk : k.name ∈ X) (hw : InsideAll callLocks t X ψ w)
    (r : o.Res) (ho : o = .openTrunc (.tokenTmp k) ∨ ∃ data, o = .write (.tokenTmp k) data) :
    Renames s reqs t w ⟨o, r⟩ := by
  rcases ho with rfl | ⟨data, rfl⟩
  all_goals
    refine ⟨fun k' hk' => ?_, fun k' => ⟨by simp, by simp⟩, fun k' heq => by cases heq⟩
    obtain rfl : k = k' := by simpa [opToken, tokenKey] using hk'
    exact hw.held _ hk

/-- An error is returned, whatever is known of the state. -/
theorem safe_error {ψ φ : NodeState → Prop} (e : ε) (hw : InsideAll callLocks t X φ w) :
    SafeTokens s reqs t (fun err => InsideAll callLocks t X fun s => err = none → ψ s)
      (pure (some e)) w :=
  Safe.ret InsideAll.stable_true ⟨hw.held, trivial⟩ fun _ _ h => h.mono fun _ h => by simp at h

/-- Partial writes are continued until the whole text is in the temporary file, or one of them
fails. -/
theorem safe_writeLoop (hk : k.name ∈ X) (fuel : ℕ) {written : String} (rest : String)
    (hw : InsideAll callLocks t X (Tmp k written) w) :
    SafeTokens s reqs t
      (fun err => InsideAll callLocks t X fun s => err = none → Tmp k (written ++ rest) s)
      (writeLoop (.tokenTmp k) fuel rest) w := by
  induction fuel generalizing written rest w with
  | zero => exact safe_error _ hw
  | succ fuel ih =>
    refine sections.perform (InsideAll.stable hk (Tmp.isProtected k written)) hw (fun _ => rfl)
      (fun w r hF _ => renames_tmp hk hF r (.inr ⟨rest, rfl⟩)) fun w r s' hF _ hs => ?_
    cases r with
    | error e => exact safe_error _ (hF.kept rfl)
    | ok n =>
      obtain ⟨hn, rfl⟩ := write_step hs hF.fact
      have hnow : InsideAll callLocks t X (Tmp k (written ++ String.ofList (rest.toList.take n)))
          (w.after t ⟨.write (.tokenTmp k) rest, .ok n⟩
            (w.state.putFile (.tokenTmp k) (written ++ String.ofList (rest.toList.take n)))) :=
        hF.after rfl (content_putFile_tmp _ _ _)
      dsimp only
      split
      · -- All of the rest has been written.
        rename_i hall
        simp only [ofList_take_length hall] at hnow ⊢
        exact Safe.ret (InsideAll.stable hk (Tmp.isProtected k _)) hnow
          fun _ _ h => h.mono fun h _ => h
      · split
        · exact safe_error _ hnow
        · have hrest := ih (String.ofList (rest.toList.drop n)) hnow
          rwa [append_ofList_take_drop] at hrest

/-- A file that has been written without an error has the whole text. -/
theorem safe_writeFile (hk : k.name ∈ X) (token : String) (hw : Held t X w) :
    SafeTokens s reqs t (fun err => InsideAll callLocks t X fun s => err = none → Tmp k token s)
      (writeFile (.tokenTmp k) token) w := by
  refine sections.perform InsideAll.stable_true hw (fun _ => rfl)
    (fun w r hF _ => renames_tmp hk hF r (.inl rfl)) fun w r s' hF _ hs => ?_
  cases r with
  | some e => exact safe_error _ (hF.kept rfl)
  | none =>
    rcases outcome_of_step hs with ⟨-, -, rfl⟩ | ⟨e, he, -⟩
    · have hempty : InsideAll callLocks t X (Tmp k "") (w.after t ⟨.openTrunc (.tokenTmp k), none⟩
          (w.state.putFile (.tokenTmp k) "")) := hF.after rfl (content_putFile_tmp _ _ _)
      have hloop : SafeTokens s reqs t
          (fun err => InsideAll callLocks t X fun s => err = none → Tmp k ("" ++ token) s)
          (writeLoop (.tokenTmp k) (token.length + 1) token) _ :=
        safe_writeLoop hk (token.length + 1) token hempty
      rwa [String.empty_append] at hloop
    · cases he

/-- What `updateTokenFile` renames is the whole token. -/
theorem safe_updateTokenFile (hk : k.name ∈ X) {token : String} (hp : Passes s (reqs t) k token)
    (hw : Held t X w) :
    SafeTokens s reqs t (fun _ => Held t X) (updateTokenFile k token) w := by
  refine Safe.bind (safe_writeFile hk token hw) fun err w _ hw => ?_
  cases err with
  | some e => exact safe_return ⟨hw.held, trivial⟩
  | none =>
    refine sections.perform (InsideAll.stable hk (Tmp.isProtected k token)) (hw.mono fun h => h rfl)
      (fun _ => rfl) (fun w r hF _ => ⟨fun k' hk' => ?_, fun k' => ⟨by simp, by simp⟩,
        fun k' heq => ?_⟩) fun w r s' hF _ _ => ?_
    · obtain rfl : k = k' := by simpa [opToken] using hk'
      exact hF.held _ hk
    · cases heq
      exact ⟨token, hp, hF.fact⟩
    · have hheld : Held t X (w.after t ⟨.renameToken k, r⟩ s') := hF.after rfl trivial
      cases r with
      | none => exact safe_return hheld
      | some e =>
        have hplain : Plain X (.remove (.tokenTmp k)) := fun k' hk' => by
          obtain rfl : k = k' := by simpa [tokenKey] using hk'
          exact hk
        exact safe_plain (.bind (all_perform hplain) fun _ => .pure) hheld

/-! ## The handlers -/

/-- The Lustre mount of a key is plain. -/
theorem plain_mountGlobalIAM (volumeID principal : String) (vc : StrMap)
    (volCap : VolumeCapability) :
    (mountGlobalIAM s volumeID principal k vc volCap).All (Plain X) := by
  simp only [mountGlobalIAM]
  split
  · exact .pure
  refine .bind (all_setUpMultiNIC s _ _ trivial) fun r => ?_
  split
  · exact .pure
  refine .bind (all_perform trivial) fun r => ?_
  split
  · exact .pure
  exact .bind (all_unmountPath s trivial (fun _ => trivial) (by simp [Plain, tokenKey]))
    fun _ => .pure

/-- Ensuring the mount of a key puts the token of the call in place, and no other. -/
theorem safe_ensureGlobalMount (hk : k.name ∈ X) {principal : String}
    (hp : ∀ token, serviceToken s volumeID k vc = .ok token → Passes s (reqs t) k token)
    (hw : Held t X w) :
    SafeTokens s reqs t (fun _ => Held t X) (ensureGlobalMount s volumeID principal k vc volCap)
      w := by
  refine Safe.bind (safe_plain (all_makeGlobalDirs trivial trivial) hw) fun r w _ hw => ?_
  split
  · exact safe_return hw
  split
  · exact safe_return hw
  rename_i token htoken
  refine Safe.bind (safe_updateTokenFile hk (hp token htoken) hw) fun r w _ hw => ?_
  split
  · exact safe_return hw
  refine Safe.bind (safe_plain (all_isMounted trivial trivial trivial) hw) fun r w _ hw => ?_
  split
  · exact safe_return hw
  · exact safe_return hw
  · exact safe_plain (plain_mountGlobalIAM volumeID principal vc volCap) hw

/-- Binding a pod is plain. -/
theorem plain_bindPod (volumeID targetPath podUID : String) (targetMounted : Bool)
    (options : List String) :
    (bindPod s volumeID targetPath targetMounted podUID k options).All (Plain X) := by
  have href : (addPodReference k podUID volumeID).All (Plain X) := by
    apply all_addPodReference <;> simp [Plain, tokenKey]
  refine .bind href fun r => ?_
  split
  · exact .pure
  split
  · exact .pure
  refine .bind (all_perform trivial) fun r => ?_
  split
  · exact .pure
  refine .bind (.bind (all_perform (by simp [Plain, tokenKey])) fun _ => .pure) fun _ => ?_
  exact .bind (all_unmountPath s trivial (fun _ => trivial) (by simp [Plain, tokenKey]))
    fun _ => .pure

/-- Publishing an IAM volume puts the token of the call in place, and no other. -/
theorem safe_publishIAMVolume {targetPath : String} {targetMounted : Bool} {options : List String}
    (hp : ∀ token, serviceToken s volumeID (keyOf s volumeID vc) vc = .ok token →
      Passes s (reqs t) (keyOf s volumeID vc) token) (hw : Held t X w) :
    SafeTokens s reqs t (fun _ => Held t X)
      (publishIAMVolume s volumeID targetPath targetMounted vc options volCap) w := by
  simp only [publishIAMVolume]
  split
  · exact safe_return hw
  split
  · exact safe_return hw
  split
  · exact safe_return hw
  refine safe_withLock (fun w hw => ?_) hw
  refine Safe.bind (safe_ensureGlobalMount (by simp) hp hw) fun err w _ hw => ?_
  cases err with
  | some e => exact safe_return hw
  | none => exact safe_plain (plain_bindPod _ _ _ _ _) hw

/-- Setting the ownership is plain. -/
theorem plain_publishOwnership (q fsGroup : String) (readonly : Bool) :
    (publishOwnership s (.outside q) fsGroup readonly).All (Plain X) :=
  all_publishOwnership s trivial (fun _ => trivial) (fun _ => trivial)
    (all_unmountPath s trivial (fun _ => trivial) (by simp [Plain, tokenKey])) fsGroup readonly

/-- The mounts of a publish put the token of the call in place, and no other. -/
theorem safe_publishMounts {req : NodePublishVolumeRequest} (hreq : reqs t = .publish req)
    (hval : validatePublish s req = .ok (vc, volCap)) (targetMounted : Bool) (hw : Held t X w) :
    SafeTokens s reqs t (fun _ => Held t X) (publishMounts s req vc volCap targetMounted) w := by
  simp only [publishMounts]
  split
  · rename_i hiam
    refine safe_publishIAMVolume (fun token htoken => ?_) hw
    rw [hreq]
    exact ⟨vc, volCap, hval, hiam, rfl, htoken⟩
  · split
    · exact safe_return hw
    · exact safe_plain (.bind (all_perform (by exact trivial)) fun _ => .pure) hw

/-- A publish puts its own token in place, and no other. -/
theorem safe_nodePublishVolume {req : NodePublishVolumeRequest} (hreq : reqs t = .publish req)
    (hw : Held t [] w) :
    SafeTokens s reqs t (fun _ => Held t []) (nodePublishVolume s req) w := by
  simp only [nodePublishVolume]
  split
  · exact safe_return hw
  rename_i vc volCap hval
  refine safe_withLock (fun w hw => ?_) hw
  refine Safe.bind (safe_plain (all_makeDir trivial) hw) fun r w _ hw => ?_
  split
  · exact safe_return hw
  refine Safe.bind (safe_plain (all_isMounted trivial trivial trivial) hw) fun r w _ hw => ?_
  split
  · exact safe_return hw
  rename_i targetMounted
  refine Safe.bind (safe_publishMounts hreq hval targetMounted hw) fun err w _ hw => ?_
  cases err with
  | some e => exact safe_return hw
  | none => exact safe_plain (plain_publishOwnership _ _ _) hw

/-- Whatever key a reference path is taken to belong to, its token files go only under its lock. -/
theorem safe_cleanUpReferences {refPaths : List Path} (href : ∀ p ∈ refPaths, tokenKey p = none)
    (hw : Held t X w) :
    SafeTokens s reqs t (fun _ => Held t X) (cleanUpReferences s refPaths) w := by
  induction refPaths generalizing w with
  | nil => exact safe_return hw
  | cons refPath rest ih =>
    obtain ⟨hpath, hrest⟩ := List.forall_mem_cons.mp href
    simp only [cleanUpReferences]
    split
    · exact ih hrest hw
    rename_i k _
    refine Safe.bind (safe_withLock (fun w hw => ?_) hw) fun _ w _ hw => ?_
    · refine safe_plain (.bind (all_perform (by simp [Plain, hpath])) fun r => ?_) hw
      split
      · exact .pure
      refine all_releaseGlobalMount s trivial (fun _ => trivial) (fun p hp k' hk' => ?_) ?_
      · obtain rfl : k = k' := by
          cases p <;> simp_all [Path.key?, tokenKey]
        simp
      · simp [Plain]
    · exact Safe.bind (ih hrest hw) fun _ w _ hw => safe_return hw

/-- Cleaning up references puts no token in place. -/
theorem safe_cleanUpIAMReference (targetPath : String) (hw : Held t X w) :
    SafeTokens s reqs t (fun _ => Held t X) (cleanUpIAMReference s targetPath) w := by
  simp only [cleanUpIAMReference]
  split
  · exact safe_return hw
  simp only [globPodReferences, Program.bind_assoc]
  refine Safe.bind (safe_plain (all_perform (by exact trivial)) hw) fun ks w _ hw => ?_
  refine Safe.bind (safe_plain (all_keysListing _ _ _ fun _ => trivial) hw) fun ks w _ hw => ?_
  refine Safe.bind (safe_plain (all_keysListing _ _ _ fun _ => trivial) hw) fun ks w _ hw => ?_
  simp only [Program.pure_eq, Program.ret_bind]
  refine Safe.bind (safe_cleanUpReferences (by simp [tokenKey]) hw) fun _ w _ hw => ?_
  exact safe_return hw

/-- An unpublish puts no token in place. -/
theorem safe_nodeUnpublishVolume {req : NodeUnpublishVolumeRequest} (hw : Held t [] w) :
    SafeTokens s reqs t (fun _ => Held t []) (nodeUnpublishVolume s req) w := by
  simp only [nodeUnpublishVolume]
  split
  · exact safe_return hw
  refine safe_withLock (fun w hw => ?_) hw
  refine Safe.bind (safe_plain (all_unmountPath s trivial (fun _ => trivial)
    (by simp [Plain, tokenKey])) hw) fun r w _ hw => ?_
  split
  · exact safe_return hw
  · exact Safe.bind (safe_cleanUpIAMReference req.targetPath hw) fun err w _ hw => safe_return hw

/-- Every handler keeps the contract. -/
theorem safe_nodeBody (w : World nodeSig NodeState) :
    SafeTokens s reqs t (fun _ => Held t []) (nodeBody s (reqs t)) w := by
  have hw : Held t [] w := ⟨by simp, trivial⟩
  cases hreq : reqs t with
  | publish req => exact safe_nodePublishVolume hreq hw
  | unpublish req => exact safe_nodeUnpublishVolume hw

end Handlers

/-! ## Runs -/

/-- What happens on the node outside the driver concerns neither its lock set nor the directories
of the keys; a reader of a token file changes nothing. -/
structure Untouched (s s' : NodeState) : Prop where
  locks : s'.locks = s.locks
  keys : s'.keys = s.keys

/-- The environment leaves the token files alone. -/
theorem Untouched.sameTokens (h : Untouched s s') (k : Key) :
    SameTokens k s s' :=
  sameTokens_of_dir (by simp only [NodeState.dir, h.keys])

/-- The environment respects the resources. -/
theorem envKeeps_tokens : tokenResources.EnvKeeps callLocks Untouched where
  locked _ _ h := by simp only [callLocks, nodeLocks, h.locks]
  inv _ _ _ _ := trivial
  mono _ _ _ _ := trivial
  keeps _ _ _ _ h k _ := h.sameTokens k

section Runs

variable {s : NodeServer} {reqs : ℕ → NodeRequest} {s₀ : NodeState}
  {c c' : Config nodeSig NodeState (Option Status)} {k : Key} {t : ℕ}

/-- A run of the handlers of the given requests. -/
abbrev TokenRun (s : NodeServer) (reqs : ℕ → NodeRequest) :
    Config nodeSig NodeState (Option Status) → Config nodeSig NodeState (Option Status) → Prop :=
  Run NodeState.step Untouched fun t => nodeBody s (reqs t)

/-- A step of such a run. -/
abbrev TokenStep (s : NodeServer) (reqs : ℕ → NodeRequest) :
    Config nodeSig NodeState (Option Status) → Action nodeSig →
      Config nodeSig NodeState (Option Status) → Prop :=
  PoolStep NodeState.step Untouched fun t => nodeBody s (reqs t)

/-- The handlers keep their contract in every configuration reached. -/
abbrev SafePool (s : NodeServer) (reqs : ℕ → NodeRequest)
    (c : Config nodeSig NodeState (Option Status)) : Prop :=
  PoolSafe NodeState.step (contract s reqs) (fun t _ => Held t []) (fun _ => True) c

/-- Every configuration of a run is safe. -/
theorem safePool_of_run (hlocks : s₀.locks = ∅) (hrun : TokenRun s reqs (.start s₀) c) :
    SafePool s reqs c := by
  have hstart : SafePool s reqs (.start s₀) :=
    .start ⟨.start callLocks (by simp [callLocks, nodeLocks, hlocks]), trivial⟩
  exact (PoolSafe.run (sectionContract_compatible envKeeps_tokens) (fun t w _ _ => safe_nodeBody w)
    (fun _ _ _ _ _ _ _ _ => trivial) hstart hrun).1

/-- A recursive removal takes the token file away or leaves it. -/
theorem token_of_removeParts {parts : Removed} {text : String}
    (h : (σ.removeParts k parts).content (.token k) = some text) :
    σ.content (.token k) = some text := by
  have hwipe : ∀ p, (σ.wipe p).dir k = σ.dir k := fun p => by
    unfold NodeState.wipe
    split <;> rfl
  have hdir : (if parts.mount then σ.wipe (.mount k) else σ).dir k = σ.dir k := by
    split
    · exact hwipe _
    · rfl
  simp only [NodeState.removeParts, NodeState.content, dir_modifyKey_self, hdir,
    Option.bind_some] at h
  split at h
  · cases h
  · cases hd : σ.dir k <;> simp_all [NodeState.content, KeyDir.empty]

/-- A removal takes the token file away or leaves it. -/
theorem token_of_erase {text : String} (hp : tokenKey p = some k)
    (h : (σ.erase p).content (.token k) = some text) : σ.content (.token k) = some text := by
  cases p <;> simp only [tokenKey, Option.some.injEq, reduceCtorEq] at hp <;> subst hp
  case keyDir => simp [NodeState.erase, NodeState.content, NodeState.dir] at h
  case token => simp [NodeState.erase, NodeState.content] at h
  case tokenTmp => rwa [token_erase_tmp] at h

/-- A file other than the token file is written. -/
theorem token_of_putFile {data : String} (hp : tokenKey p = some k) (hne : p ≠ .token k) :
    (σ.putFile p data).content (.token k) = σ.content (.token k) := by
  cases p <;> simp only [tokenKey, Option.some.injEq, reduceCtorEq] at hp <;> subst hp
  case keyDir => rfl
  case token => exact absurd rfl hne
  case tokenTmp => exact token_putFile_tmp _ _ _

/-- A token file gets a new content by a rename only. -/
theorem token_of_call {e : Event nodeSig} (hsafe : SafePool s reqs c)
    (hs : TokenStep s reqs c (.call t e) c') {text : String}
    (h : c'.world.state.content (.token k) = some text) :
    c.world.state.content (.token k) = some text ∨
      (e = ⟨.renameToken k, none⟩ ∧ Passes s (reqs t) k text) := by
  have hR : Renames s reqs t c.world e := (hsafe.guarantee trivial hs).2.2.2
  cases hs with
  | call t o f r s' hslot hstep =>
    by_cases hk : opToken o = some k
    swap
    · exact .inl ((sameTokens_of_step hstep hk).token ▸ h)
    obtain rfl | hc := (outcome_of_step hstep).change
    · exact .inl h
    cases hc with
    | remove p => exact .inl (token_of_erase hk h)
    | removeAll k' =>
      obtain rfl : k' = k := by simpa [opToken] using hk
      simp [NodeState.content, NodeState.dir] at h
    | removeParts k' r parts =>
      obtain rfl : k' = k := by simpa [opToken] using hk
      exact .inl (token_of_removeParts h)
    | openTrunc p =>
      have hne : p ≠ .token k := fun heq => (hR.apart k).1 (by rw [heq])
      exact .inl ((token_of_putFile hk hne).symm.trans h)
    | write p data =>
      have hne : p ≠ .token k := fun heq => (hR.apart k).2 data (by rw [heq])
      exact .inl ((token_of_putFile hk hne).symm.trans h)
    | rename k' new htmp =>
      obtain rfl : k' = k := by simpa [opToken] using hk
      -- The content of the temporary file is the token that was passed.
      obtain ⟨token, hp, htoken⟩ := hR.complete k' rfl
      obtain rfl : new = token := Option.some.inj (htmp.symm.trans htoken)
      obtain rfl : new = text := by
        simpa [NodeState.erase, NodeState.putFile, NodeState.content] using h
      exact .inr ⟨rfl, hp⟩
    | attr o r p a =>
      exact .inl ((sameTokens_of_dir (SameKey.setAttr _ k p a).dir).token ▸ h)
    | _ => simp [opToken] at hk

/-- The token is there from the start, or a publish of the key that passed it has renamed it into
place. -/
def Complete (s : NodeServer) (reqs : ℕ → NodeRequest) (s₀ : NodeState)
    (w : World nodeSig NodeState) (k : Key) (text : String) : Prop :=
  s₀.content (.token k) = some text ∨
    ∃ u, (u, (⟨.renameToken k, none⟩ : Event nodeSig)) ∈ w.trace ∧ Passes s (reqs u) k text

/-- What a reader of a token file finds. -/
theorem complete_of_run (hlocks : s₀.locks = ∅) (hrun : TokenRun s reqs (.start s₀) c)
    {text : String} (h : c.world.state.content (.token k) = some text) :
    Complete s reqs s₀ c.world k text := by
  induction hrun with
  | refl _ => exact .inl h
  | @tail c₁ c₂ a hprefix hs _ ih =>
    cases hs with
    | spawn u hidle => exact ih h
    | finish u b hslot => exact ih h
    | env s' henv => exact ih ((henv.sameTokens k).token ▸ h)
    | call u o f r s' hslot hstep =>
      have hcall : TokenStep s reqs c₁ (.call u ⟨o, r⟩) _ := .call c₁ u o f r s' hslot hstep
      rcases token_of_call (safePool_of_run hlocks hprefix) hcall h with hold | ⟨he, hp⟩
      · rcases ih hold with hold | ⟨v, hv, hp⟩
        · exact .inl hold
        · exact .inr ⟨v, List.mem_cons_of_mem _ hv, hp⟩
      · exact .inr ⟨u, he ▸ List.mem_cons_self, hp⟩

/-! ## Failed updates -/

/-- An operation of `updateTokenFile` on the key other than a rename that succeeds. -/
def Leaves (k : Key) (e : Event nodeSig) : Prop :=
  (e.1 = .openTrunc (.tokenTmp k) ∨ (∃ data, e.1 = .write (.tokenTmp k) data) ∨
    e.1 = .renameToken k ∨ e.1 = .remove (.tokenTmp k)) ∧ e ≠ ⟨.renameToken k, none⟩

/-- These operations leave the token file as it is. -/
theorem token_of_leaves {σ' : NodeState} (h : Leaves k ⟨o, r⟩) (hs : σ.step o r σ') :
    σ'.content (.token k) = σ.content (.token k) := by
  have hout := outcome_of_step hs
  obtain ⟨ho, hne⟩ := h
  dsimp only at ho
  rcases ho with rfl | ⟨data, rfl⟩ | rfl | rfl
  · rcases hout with ⟨-, -, rfl⟩ | ⟨e, -, rfl⟩
    · exact token_putFile_tmp _ _ _
    · rfl
  · rcases hout with rfl | ⟨old, text, -, rfl⟩
    · rfl
    · exact token_putFile_tmp _ _ _
  · rcases hout with ⟨rfl, -⟩ | ⟨e, -, rfl⟩
    · exact absurd rfl hne
    · rfl
  · rcases hout with ⟨-, -, -, -, rfl⟩ | ⟨e, -, rfl, -⟩
    · exact token_erase_tmp _ _
    · rfl

/-- These operations neither take nor release a lock. -/
theorem event_of_leaves {e : Event nodeSig} (h : Leaves k e) : callLocks.event e = none := by
  obtain ⟨o, r⟩ := e
  rcases h.1 with ho | ⟨data, ho⟩ | ho | ho
  all_goals
    dsimp only at ho
    subst ho
    rfl

/-- The operations of an update that fails. -/
theorem leaves_of_yields {token : String} {es : List (Event nodeSig)} {err : OsError}
    (h : Yields (updateTokenFile k token) es (some err)) : ∀ e ∈ es, Leaves k e := by
  have hwrite : (writeFile (.tokenTmp k) token).All fun o : Op =>
      o = .openTrunc (.tokenTmp k) ∨ ∃ data, o = .write (.tokenTmp k) data :=
    all_writeFile (.inl rfl) (fun data => .inr ⟨data, rfl⟩) token
  obtain ⟨es₁, r, _, es₂, hfirst, hrest, rfl⟩ := exec_bind.mp h
  have hleaves : ∀ e ∈ es₁, Leaves k e := fun e he => by
    rcases Exec.mem_all hwrite hfirst e he with ho | ⟨data, ho⟩
    · exact ⟨.inl ho, fun heq => by simp [heq] at ho⟩
    · exact ⟨.inr (.inl ⟨data, ho⟩), fun heq => by simp [heq] at ho⟩
  intro e he
  rcases List.mem_append.mp he with he | he
  · exact hleaves e he
  cases r with
  | some e' =>
    obtain ⟨rfl, -, -⟩ := hrest
    simp at he
  | none =>
    -- The rename has failed, since the update has.
    obtain ⟨r, _, es₃, -, rfl, hrest⟩ := hrest
    cases r with
    | none =>
      obtain ⟨-, hcontra, -⟩ := hrest
      cases hcontra
    | some e' =>
      obtain ⟨r', _, es₄, -, rfl, rfl, -, -⟩ := hrest
      rcases List.mem_cons.mp he with rfl | he
      · exact ⟨.inr (.inr (.inl rfl)), fun heq => by cases heq⟩
      obtain rfl : e = ⟨.remove (.tokenTmp k), r'⟩ := by simpa using he
      exact ⟨.inr (.inr (.inr rfl)), fun heq => by cases heq⟩

/-- A handler about to update the token holds the lock of the key. -/
theorem holds_of_updating {token : String} {f : Option OsError → NodeM (Option Status)}
    (hsafe : SafePool s reqs c) (hslot : c.slot t = .running (updateTokenFile k token >>= f)) :
    callLocks.Holds c.world.trace t k.name := by
  have hfails : c.world.state.step (.openTrunc (.tokenTmp k)) (some ⟨.other, ""⟩) c.world.state :=
    ⟨.fail "" false, rfl⟩
  have hg := (hsafe.running t _ trivial hslot c.world
    ((contract s reqs).rely_refl t c.world) hsafe.inv _ _ hfails).1
  exact hg.2.2.2.owned k rfl

/-- As long as the holder of the lock leaves the token file alone, it stays as it is. -/
theorem token_kept (hlocks : s₀.locks = ∅) (hrun : TokenRun s reqs (.start s₀) c)
    (hholds : callLocks.Holds c.world.trace t k.name) (hrun' : TokenRun s reqs c c') :
    ∃ es : List (Event nodeSig),
      ownTrace t c'.world.trace = es.map (fun e => (t, e)) ++ ownTrace t c.world.trace ∧
      ((∀ e ∈ es, Leaves k e) → callLocks.Holds c'.world.trace t k.name ∧
        c'.world.state.content (.token k) = c.world.state.content (.token k)) := by
  induction hrun' with
  | refl _ => exact ⟨[], rfl, fun _ => ⟨hholds, rfl⟩⟩
  | @tail c₁ c₂ a hprefix hs _ ih =>
    obtain ⟨es, hown, hkept⟩ := ih
    cases hs with
    | spawn u hidle => exact ⟨es, hown, hkept⟩
    | finish u b hslot => exact ⟨es, hown, hkept⟩
    | env s' henv =>
      exact ⟨es, hown, fun h => ⟨(hkept h).1, (henv.sameTokens k).token.trans (hkept h).2⟩⟩
    | call u o f r s' hslot hstep =>
      have hsafe := safePool_of_run hlocks (hrun.trans hprefix)
      by_cases hu : u = t
      · subst hu
        refine ⟨⟨o, r⟩ :: es, ?_, fun h => ?_⟩
        · simpa [ownTrace] using hown
        · obtain ⟨hfirst, hrest⟩ := List.forall_mem_cons.mp h
          obtain ⟨hheld, hsame⟩ := hkept hrest
          exact ⟨(callLocks.holds_cons_none (event_of_leaves hfirst) _ _ _).mpr hheld,
            (token_of_leaves hfirst hstep).trans hsame⟩
      · refine ⟨es, by simpa [ownTrace, hu] using hown, fun h => ?_⟩
        obtain ⟨hheld, hsame⟩ := hkept h
        have hcall : TokenStep s reqs c₁ (.call u ⟨o, r⟩) _ := .call c₁ u o f r s' hslot hstep
        -- The other handler does not hold the lock of the key.
        have hother : ¬callLocks.Holds c₁.world.trace u k.name := fun h' =>
          hu (hsafe.inv.1.unique u t k.name h' hheld)
        have hkeep := (hsafe.guarantee trivial hcall).2.2.1 k.name hother k rfl
        exact ⟨(callLocks.holds_cons_of_ne hu _ _ _).mpr hheld, hkeep.token.trans hsame⟩

/-- **Token integrity.** In every configuration that a run of any number of publishes and
unpublishes reaches, with any faults, what a reader finds in the token file of a key is a complete
token that a publish of the key has passed to `updateTokenFile`; and if an update of the token
fails, then the file is what it was when the update began.
SOURCE: pkg/csi_driver/node.go:352-383, 783-795, 879-926 -/
theorem token_integrity (hlocks : s₀.locks = ∅) (hrun : TokenRun s reqs (.start s₀) c) :
    (∀ k text, c.world.state.content (.token k) = some text → Complete s reqs s₀ c.world k text) ∧
      ∀ c' t k token f es err, TokenRun s reqs c c' →
        c.slot t = .running (updateTokenFile k token >>= f) →
        Yields (updateTokenFile k token) es (some err) →
        ownTrace t c'.world.trace = (es.map fun e => (t, e)).reverse ++ ownTrace t c.world.trace →
        c'.world.state.content (.token k) = c.world.state.content (.token k) := by
  refine ⟨fun k text h => complete_of_run hlocks hrun h,
    fun c' t k token f es err hrun' hslot hyields hown => ?_⟩
  have hholds := holds_of_updating (safePool_of_run hlocks hrun) hslot
  obtain ⟨es', hown', hkept⟩ := token_kept hlocks hrun hholds hrun'
  have hsame : es'.map (fun e => (t, e)) = (es.reverse).map fun e => (t, e) := by
    rw [List.map_reverse]
    exact List.append_cancel_right (hown'.symm.trans hown)
  have hes : es' = es.reverse :=
    List.map_injective_iff.mpr (fun a b h => (Prod.mk.inj h).2) hsame
  exact (hkept fun e he => leaves_of_yields hyields e (by simpa [hes] using he)).2

end Runs

/-! ## An update that fails half way -/

section Sample

open Interface.Sample

/-- All requests publish the volume `ab` to its pod. -/
def sampleRequests (_ : ℕ) : NodeRequest := .publish (publishRequest "")

/-- A handler enters its key section and opens the temporary file. -/
def enters (t : ℕ) : List (Move Choice) :=
  .spawn t :: [.ok, .ok, .probe (.ok true), .ok, .ok, .ok, .ok].map (.call t)

/-- It writes the token in two parts, renames it, and goes on to its end. -/
def completes (t : ℕ) : List (Move Choice) :=
  [.wrote 3, .wrote 3, .ok, .probe (.ok true), .ok, .ok, .ok, .wrote 2, .ok, .ok, .ok].map (.call t)

/-- The two token files of the key. -/
def tokenFiles (c : Config nodeSig NodeState (Option Status)) : Option String × Option String :=
  (c.world.state.content (.token digestABC), c.world.state.content (.tokenTmp digestABC))

/-- The thread has not begun. -/
def waits (c : Config nodeSig NodeState (Option Status)) (t : ℕ) : Bool :=
  match c.slot t with
  | .idle => true
  | _ => false

/-- What the test says. -/
theorem idle_of_waits {c : Config nodeSig NodeState (Option Status)} {t : ℕ}
    (h : waits c t = true) : c.slot t = .idle := by
  unfold waits at h
  split at h
  · assumption
  · cases h

/-- By operations of its own, the thread gets to the update of the token of a key. Until then the
token is as it was. -/
def Updates {α : Type} (t : ℕ) (w : World nodeSig NodeState) (p : NodeM α) (k : Key)
    (token : String) : Prop :=
  ∃ w' f, Advance NodeState.step t w p w' (updateTokenFile k token >>= f) ∧
    w'.state.parentPresent (.tokenTmp k) = true ∧
    w'.state.content (.token k) = w.state.content (.token k)

section Updates

variable {α β : Type} {t : ℕ} {w : World nodeSig NodeState} {k : Key} {token : String}

/-- What comes behind the update waits. -/
theorem Updates.bind {p : NodeM α} (h : Updates t w p k token) (g : α → NodeM β) :
    Updates t w (p >>= g) k token := by
  obtain ⟨w', f, hf, hend⟩ := h
  have hbind := hf.bind g
  rw [Program.bind_assoc] at hbind
  exact ⟨w', _, hbind, hend⟩

/-- One operation on the way, which is not on token files. -/
theorem Updates.perform {f : o.Res → NodeM α} (hs : w.state.step o r s') (ho : opToken o ≠ some k)
    (h : Updates t (w.after t ⟨o, r⟩ s') (f r) k token) :
    Updates t w (perform o >>= f) k token := by
  obtain ⟨w', g, hg, hparent, hcontent⟩ := h
  exact ⟨w', g, .call hs hg, hparent, hcontent.trans (sameTokens_of_step hs ho).token⟩

/-- A lock that is free can be taken. -/
theorem Updates.withLock {x : String} {refused : ε} {body : NodeM (Option ε)}
    (hx : x ∉ w.state.locks)
    (h : Updates t (w.after t ⟨.tryAcquire x, true⟩ { w.state with locks := insert x w.state.locks })
      body k token) : Updates t w (withLock x refused body) k token :=
  .perform ⟨.ok, by simp [NodeState.exec, hx]⟩ (by simp [opToken]) (h.bind _)

/-- The key section of a publish comes to the update when it has made the directories. -/
theorem updates_ensureGlobalMount {s : NodeServer} {principal : String}
    (htoken : serviceToken s volumeID k vc = .ok token) :
    Updates t w (ensureGlobalMount s volumeID principal k vc volCap) k token := by
  simp only [ensureGlobalMount, htoken]
  refine .perform ⟨.ok, rfl⟩ (by simp [opToken]) (.perform ⟨.ok, rfl⟩ (by simp [opToken]) ?_)
  exact ⟨_, _, .refl _ _, by simp [NodeState.parentPresent, NodeState.mkdirAll], rfl⟩

end Updates

/-- From every state in which its locks are free, a publish of the pod gets to the update of its
token. -/
theorem updates_sample (t : ℕ) (w : World nodeSig NodeState) (htarget : targetPath ∉ w.state.locks)
    (hkey : digestABC.name ∉ insert targetPath w.state.locks) :
    Updates t w (nodeBody sampleServer (sampleRequests t)) digestABC "secret" := by
  have htoken : serviceToken sampleServer "ab" digestABC normalContext = .ok "secret" := by
    with_unfolding_all rfl
  have hpublish (w : World nodeSig NodeState) (hw : digestABC.name ∉ w.state.locks) :
      Updates t w (publishMounts sampleServer (publishRequest "") normalContext (mountCapability "") false)
        digestABC "secret" := by
    have hvolume : (publishRequest "").volumeID = "ab" := rfl
    simp only [publishMounts, isIAM_normalContext, if_true, publishIAMVolume, identityOf_normalContext,
      hvolume, iamKey_sample]
    rw [if_neg (by decide), if_neg (by decide), if_neg (by decide)]
    exact .withLock hw ((updates_ensureGlobalMount htoken).bind _)
  show Updates t w (nodePublishVolume sampleServer (publishRequest "")) digestABC "secret"
  rw [nodePublishVolume, validatePublish_publishRequest]
  have hfree : digestABC.name ∉ ({ w.state with locks := insert targetPath w.state.locks }.mkdirAll
      (.outside targetPath)).locks := by
    simp only [NodeState.mkdirAll]
    split <;> exact hkey
  refine .withLock htarget ?_
  -- The target directory, and the probe that does not find it mounted.
  exact .perform ⟨.ok, rfl⟩ (by simp [opToken])
    (.perform ⟨.probe (.ok true), rfl⟩ (by simp [opToken]) ((hpublish _ hfree).bind _))

/-- The token is written in part when the disk is full. -/
def broken : List (Event nodeSig) :=
  [⟨.openTrunc (.tokenTmp digestABC), none⟩, ⟨.write (.tokenTmp digestABC) "secret", .ok 2⟩,
    ⟨.write (.tokenTmp digestABC) "cret", .error ⟨.other, "disk full"⟩⟩]

/-- These are operations of the update, which returns the error. -/
theorem yields_broken :
    Yields (updateTokenFile digestABC "secret") broken (some ⟨.other, "disk full"⟩) :=
  ⟨none, (), _, trivial, rfl, .ok 2, (), _, trivial, rfl, .error _, (), [], trivial, rfl, rfl, rfl, rfl⟩

/-- The update can break off like this in every state with the directory of the key. -/
theorem exec_broken {s : NodeState} (hparent : s.parentPresent (.tokenTmp digestABC) = true) :
    ∃ s', Exec NodeState.step (updateTokenFile digestABC "secret") s broken
      (some ⟨.other, "disk full"⟩) s' ∧ s'.content (.tokenTmp digestABC) = some "se" := by
  let s₁ := s.putFile (.tokenTmp digestABC) ""
  have hparent₁ : s₁.parentPresent (.tokenTmp digestABC) = true := (content_putFile hparent _).2
  have hopen : s.step (.openTrunc (.tokenTmp digestABC)) none s₁ :=
    ⟨.ok, by simp [NodeState.exec, hparent, s₁]⟩
  have hwrite : s₁.step (.write (.tokenTmp digestABC) "secret") (.ok 2)
      (s₁.putFile (.tokenTmp digestABC) "se") := by
    refine ⟨.wrote 2, ?_⟩
    simp only [NodeState.exec, s₁, (content_putFile hparent "").1]
    rfl
  exact ⟨_, ⟨none, s₁, _, hopen, rfl, .ok 2, _, _, hwrite, rfl, .error _, _, [], ⟨.fail "disk full" false, rfl⟩,
    rfl, rfl, rfl, rfl⟩, (content_putFile hparent₁ _).1⟩

/-- A publish has brought a token, and another one breaks off while it writes the next. What the reader
finds before is a complete token, and it is the same afterwards. -/
theorem token_integrity_broken : ∃ c c' f,
    TokenRun sampleServer sampleRequests (.start freshNode) c ∧
    Complete sampleServer sampleRequests freshNode c.world digestABC "secret" ∧
    TokenRun sampleServer sampleRequests c c' ∧
    c.slot 1 = .running (updateTokenFile digestABC "secret" >>= f) ∧
    ownTrace 1 c'.world.trace = (broken.map fun e => (1, e)).reverse ++ ownTrace 1 c.world.trace ∧
    tokenFiles c' = (some "secret", some "se") := by
  have hplay : (playPool NodeState.exec (fun t => nodeBody sampleServer (sampleRequests t))
      (enters 0 ++ completes 0) (.start freshNode)).map
        (fun c => (c.world.state.locks, waits c 1, (tokenFiles c).1)) = some (∅, true, some "secret") := by
    decide +kernel
  obtain ⟨c₀, hc₀, hend⟩ := Option.map_eq_some_iff.mp hplay
  simp only [Prod.mk.injEq] at hend
  obtain ⟨hlocks, hwaits, hsecret⟩ := hend
  have hrun₀ : TokenRun sampleServer sampleRequests (.start freshNode) c₀ :=
    playPool_run (fun _ => trivial) hc₀
  -- The second publish gets to its update.
  obtain ⟨w, f, hadvance, hparent, hcontent⟩ :=
    updates_sample 1 c₀.world (by simp [hlocks]) (by rw [hlocks]; decide)
  let c : Config nodeSig NodeState (Option Status) :=
    ⟨w, Function.update c₀.slot 1 (.running (updateTokenFile digestABC "secret" >>= f))⟩
  have hrun : TokenRun sampleServer sampleRequests (.start freshNode) c :=
    hrun₀.trans (hadvance.run_spawn (idle_of_waits hwaits))
  have hslot : c.slot 1 = .running (updateTokenFile digestABC "secret" >>= f) :=
    Function.update_self 1 _ c₀.slot
  -- It breaks off.
  obtain ⟨s', hexec, htmp⟩ := exec_broken hparent
  have hrun' : TokenRun sampleServer sampleRequests c _ := (Advance.of_exec hexec f).run rfl hslot
  have hown : ownTrace 1 ((broken.map fun e => (1, e)).reverse ++ w.trace) =
      (broken.map fun e => (1, e)).reverse ++ ownTrace 1 w.trace := by
    simp [ownTrace, broken]
  obtain ⟨hcomplete, hkept⟩ := token_integrity rfl hrun
  have hsame := hkept _ 1 digestABC "secret" f broken _ hrun' hslot yields_broken hown
  exact ⟨c, _, f, hrun, hcomplete digestABC "secret" (hcontent.trans hsecret), hrun', hslot, hown,
    Prod.ext (hsame.trans (hcontent.trans hsecret)) htmp⟩

end Sample

end LustreCsi.Analysis.TokenFiles
