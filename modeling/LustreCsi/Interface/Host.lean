import LustreCsi.Computation.TryLock
import LustreCsi.Model.Host

/-!
# What the operations of the node can do

`Outcome` says, for each operation, what answers and next states there are when the choice of the
environment is forgotten; all facts about steps of the node are derived from it. `Change` lists the
ways in which the state changes, over which invariants are proved (`Outcome.change`). The frame
lemmas tell what an operation leaves as it was: everything of a key that it does not name
(`Outcome.frame`), the lock set, the record of wiped file systems.
-/

set_option autoImplicit false

namespace LustreCsi.Interface

open LustreCsi.Computation Model

variable {s s' : NodeState} {o : Op} {r : o.Res} {p q : Path} {k k' : Key}

/-- The list has no repetitions, and all its members satisfy the predicate. -/
def Lists {α : Type} (l : List α) (p : α → Prop) : Prop := l.Nodup ∧ ∀ x ∈ l, p x

/-- The answers and next states of an operation. -/
def Outcome (s : NodeState) : (o : Op) → o.Res → NodeState → Prop
  | .tryAcquire x, r, s' =>
    (r = true ∧ x ∉ s.locks ∧ s' = { s with locks := insert x s.locks }) ∨
      (r = false ∧ x ∈ s.locks ∧ s' = s)
  | .release x, _, s' => s' = { s with locks := s.locks.erase x }
  | .mkdirAll p, r, s' =>
    (r = none ∧ s' = s.mkdirAll p) ∨
      ∃ e : OsError, r = some e ∧ e.kind = .other ∧
        (s' = s ∨ ∃ k, p.key? = some k ∧ s' = s.mkdirAll (.keyDir k))
  | .isLikelyNotMountPoint _, _, s' => s' = s
  | .stat p, r, s' =>
    s' = s ∧ (r = none → s.pathPresent p = true) ∧
      ∀ e : OsError, r = some e → e.kind = .notExist → s.pathPresent p = false
  | .unmount p, r, s' => s' = s.detach p ∨ (r ≠ none ∧ s' = s)
  | .mountSensitiveWithoutSystemd source target fstype options, r, s' =>
    (s.pathPresent target = true ∧ s' = s.attach source target fstype options) ∨
      (r ≠ none ∧ s' = s)
  | .umount _ p, r, s' => s' = s.detach p ∨ (r.2 ≠ none ∧ s' = s)
  | .remove p, r, s' =>
    (r = none ∧ s.pathPresent p = true ∧ s.dirInUse p = false ∧ s.mounted p = false ∧
        s' = s.erase p) ∨
      ∃ e : OsError, r = some e ∧ s' = s ∧ (e.kind = .notExist → s.pathPresent p = false) ∧
        (e.kind = .notEmpty → s.dirInUse p = true)
  | .removeAll k, r, s' =>
    (r = none ∧ s.dir k = none ∧ s' = s) ∨
      (r = none ∧ s.mounted (.mount k) = false ∧ s' = { s with keys := s.keys.erase k }) ∨
      ((∃ e : OsError, r = some e) ∧ (s.dir k).isSome ∧ ∃ parts, s' = s.removeParts k parts)
  | .openTrunc p, r, s' =>
    (r = none ∧ s.parentPresent p = true ∧ s' = s.putFile p "") ∨
      (∃ e : OsError, r = some e ∧ s' = s)
  | .write p _, _, s' =>
    s' = s ∨ ∃ old text, s.content p = some old ∧ s' = s.putFile p text
  | .renameToken k, r, s' =>
    (r = none ∧ ∃ text, s.content (.tokenTmp k) = some text ∧
        s' = (s.putFile (.token k) text).erase (.tokenTmp k)) ∨
      (∃ e : OsError, r = some e ∧ s' = s)
  | .readRoot, ks, s' => s' = s ∧ Lists (α := Key) ks (· ∈ s.keys)
  | .readDirNames p, ns, s' => s' = s ∧ Lists (α := String) ns (· ∈ s.names p)
  | .lstat _, _, s' => s' = s
  | .lchown p _, _, s' => s' = s ∨ ∃ a, s' = s.setAttr p a
  | .chmod p _, _, s' => s' = s ∨ ∃ a, s' = s.setAttr p a
  | .setUpMultiNIC _ _, _, s' => s' = s
  | .list, _, s' => s' = s

/-- The answers of `os.Remove`. -/
theorem removeOne_outcome (s : NodeState) (p : Path) :
    Outcome s (.remove p) (s.removeOne p).1 (s.removeOne p).2 := by
  simp only [Outcome, NodeState.removeOne]
  cases hp : s.pathPresent p with
  | false => exact .inr ⟨_, rfl, rfl, fun _ => rfl, fun h => by simp at h⟩
  | true =>
    cases hu : s.dirInUse p with
    | true => exact .inr ⟨_, rfl, rfl, fun h => by simp at h, fun _ => rfl⟩
    | false =>
      cases hm : s.mounted p with
      | true => exact .inr ⟨_, rfl, rfl, fun h => by simp at h, fun h => by simp at h⟩
      | false => exact .inl ⟨rfl, rfl, rfl, rfl, rfl⟩

/-- Every step of the node has one of the outcomes listed. -/
theorem outcome_of_step (h : s.step o r s') :
    Outcome s o r s' := by
  obtain ⟨c, hc⟩ := h
  cases o with
  | tryAcquire x =>
    cases c <;> simp only [NodeState.exec, reduceCtorEq] at hc
    split at hc <;> cases hc
    · exact .inr ⟨rfl, ‹_›, rfl⟩
    · exact .inl ⟨rfl, ‹_›, rfl⟩
  | release x | isLikelyNotMountPoint p | setUpMultiNIC volumeID ip =>
    cases c <;> cases hc
    rfl
  | mkdirAll p =>
    cases c <;> cases hc
    · exact .inl ⟨rfl, rfl⟩
    · refine .inr ⟨_, rfl, rfl, ?_⟩
      split
      · cases hk : p.key? with
        | none => exact .inl rfl
        | some k => exact .inr ⟨k, rfl, rfl⟩
      · exact .inl rfl
  | stat p =>
    cases c <;> cases hc
    · refine ⟨rfl, ?_⟩
      cases hp : s.pathPresent p <;> simp
    · exact ⟨rfl, by simp, fun e he hk => by cases he; simp at hk⟩
    · exact ⟨rfl, by simp, fun e he hk => by cases he; simp at hk⟩
  | unmount p =>
    cases c <;> cases hc
    · exact .inl rfl
    · split
      · exact .inl rfl
      · exact .inr ⟨by simp, rfl⟩
  | mountSensitiveWithoutSystemd source target fstype options =>
    cases c <;> simp only [NodeState.exec, reduceCtorEq] at hc
    · split at hc <;> cases hc
      · exact .inl ⟨‹_›, rfl⟩
      · exact .inr ⟨by simp, rfl⟩
    · cases hc
      split
      · simp only [Bool.and_eq_true] at *
        exact .inl ⟨by simp_all, rfl⟩
      · exact .inr ⟨by simp, rfl⟩
  | umount flags p =>
    cases c with
    | umounted out err detached =>
      cases err with
      | none =>
        simp only [NodeState.exec] at hc
        split at hc <;> cases hc
        exact .inl rfl
      | some err =>
        cases hc
        split
        · exact .inl rfl
        · exact .inr ⟨by simp, rfl⟩
    | _ => cases hc
  | remove p =>
    cases c with
    | ok =>
      have hrs : s.removeOne p = (r, s') := Option.some.inj hc
      simpa only [hrs] using removeOne_outcome s p
    | fail text applied =>
      cases hc
      exact .inr ⟨_, rfl, rfl, fun h => by simp at h, fun h => by simp at h⟩
    | _ => cases hc
  | removeAll k =>
    cases c <;> simp only [NodeState.exec, reduceCtorEq] at hc
    · split at hc
      · cases hc
        exact .inl ⟨rfl, Option.isNone_iff_eq_none.mp ‹_›, rfl⟩
      · have hsome := Option.isSome_iff_ne_none.mpr (mt Option.isNone_iff_eq_none.mpr ‹_›)
        split at hc <;> cases hc
        · exact .inr (.inr ⟨⟨_, rfl⟩, hsome, _, rfl⟩)
        · exact .inr (.inl ⟨rfl, by simpa using ‹¬s.mounted _ = true›, rfl⟩)
    · split at hc <;> cases hc
      have hsome := Option.isSome_iff_ne_none.mpr (mt Option.isNone_iff_eq_none.mpr ‹_›)
      exact .inr (.inr ⟨⟨_, rfl⟩, hsome, _, rfl⟩)
  | openTrunc p =>
    cases c <;> simp only [NodeState.exec, reduceCtorEq] at hc
    · split at hc <;> cases hc
      · exact .inl ⟨rfl, ‹_›, rfl⟩
      · exact .inr ⟨_, rfl, rfl⟩
    · cases hc
      exact .inr ⟨_, rfl, rfl⟩
  | write p data =>
    cases c <;> simp only [NodeState.exec, reduceCtorEq] at hc
    · cases hc
      split
      · split
        · exact .inr ⟨_, _, ‹_›, rfl⟩
        · exact .inl rfl
      · exact .inl rfl
    · split at hc <;> cases hc
      split
      · exact .inr ⟨_, _, ‹_›, rfl⟩
      · exact .inl rfl
  | renameToken k =>
    cases c <;> simp only [NodeState.exec, reduceCtorEq] at hc
    · split at hc <;> cases hc
      · exact .inl ⟨rfl, _, ‹_›, rfl⟩
      · exact .inr ⟨_, rfl, rfl⟩
    · cases hc
      exact .inr ⟨_, rfl, rfl⟩
  | readRoot | readDirNames p =>
    cases c <;> simp only [NodeState.exec, reduceCtorEq] at hc
    split at hc <;> cases hc
    exact ⟨rfl, ‹_›⟩
  | lchown p gid | chmod p mode =>
    cases c <;> simp only [NodeState.exec, reduceCtorEq] at hc
    · split at hc <;> cases hc
      · exact .inr ⟨_, rfl⟩
      · exact .inl rfl
    · cases hc
      exact .inl rfl
  | lstat p | list =>
    cases c <;> cases hc
    · rfl
    · rfl

/-- The ways in which an operation changes the state. -/
inductive Change (s : NodeState) : (o : Op) → o.Res → NodeState → Prop
  | acquire (x : String) : Change s (.tryAcquire x) true { s with locks := insert x s.locks }
  | release (x : String) : Change s (.release x) () { s with locks := s.locks.erase x }
  | mkdirAll (p q : Path) (h : q.key? = p.key?) (r : _) : Change s (.mkdirAll p) r (s.mkdirAll q)
  | unmount (p : Path) (r : _) : Change s (.unmount p) r (s.detach p)
  | umount (flags : List String) (p : Path) (r : _) : Change s (.umount flags p) r (s.detach p)
  | mount (source fstype : String) (p : Path) (options : List String) (r : _)
      (h : s.pathPresent p = true) :
    Change s (.mountSensitiveWithoutSystemd source p fstype options) r
      (s.attach source p fstype options)
  | remove (p : Path) (huse : s.dirInUse p = false) (hm : s.mounted p = false) :
    Change s (.remove p) none (s.erase p)
  | removeAll (k : Key) (hm : s.mounted (.mount k) = false) :
    Change s (.removeAll k) none { s with keys := s.keys.erase k }
  | removeParts (k : Key) (r : _) (parts : Removed) :
    Change s (.removeAll k) r (s.removeParts k parts)
  | openTrunc (p : Path) : Change s (.openTrunc p) none (s.putFile p "")
  | write (p : Path) (data old text : String) (r : _) (h : s.content p = some old) :
    Change s (.write p data) r (s.putFile p text)
  | rename (k : Key) (text : String) (h : s.content (.tokenTmp k) = some text) :
    Change s (.renameToken k) none ((s.putFile (.token k) text).erase (.tokenTmp k))
  | attr (o : Op) (r : o.Res) (p : Path) (a : Attr) : Change s o r (s.setAttr p a)

/-- An operation leaves the state as it was, or changes it in one of these ways. -/
theorem Outcome.change (h : Outcome s o r s') : s' = s ∨ Change s o r s' := by
  cases o with
  | tryAcquire x =>
    rcases h with ⟨rfl, -, rfl⟩ | ⟨-, -, rfl⟩
    · exact .inr (.acquire x)
    · exact .inl rfl
  | release x => exact .inr (h ▸ .release x)
  | mkdirAll p =>
    rcases h with ⟨-, rfl⟩ | ⟨e, -, -, rfl | ⟨k, hk, rfl⟩⟩
    · exact .inr (.mkdirAll p p rfl r)
    · exact .inl rfl
    · exact .inr (.mkdirAll p (.keyDir k) hk.symm r)
  | unmount p =>
    rcases h with rfl | ⟨-, rfl⟩
    · exact .inr (.unmount p r)
    · exact .inl rfl
  | mountSensitiveWithoutSystemd source target fstype options =>
    rcases h with ⟨hp, rfl⟩ | ⟨-, rfl⟩
    · exact .inr (.mount _ _ _ _ r hp)
    · exact .inl rfl
  | umount flags p =>
    rcases h with rfl | ⟨-, rfl⟩
    · exact .inr (.umount flags p r)
    · exact .inl rfl
  | remove p =>
    rcases h with ⟨rfl, -, huse, hm, rfl⟩ | ⟨e, -, rfl, -⟩
    · exact .inr (.remove p huse hm)
    · exact .inl rfl
  | removeAll k =>
    rcases h with ⟨-, -, rfl⟩ | ⟨rfl, hm, rfl⟩ | ⟨-, -, parts, rfl⟩
    · exact .inl rfl
    · exact .inr (.removeAll k hm)
    · exact .inr (.removeParts k r parts)
  | openTrunc p =>
    rcases h with ⟨rfl, -, rfl⟩ | ⟨e, -, rfl⟩
    · exact .inr (.openTrunc p)
    · exact .inl rfl
  | write p data => exact h.imp id fun ⟨old, text, hold, h⟩ => h ▸ .write p data old text r hold
  | renameToken k =>
    rcases h with ⟨rfl, text, htext, rfl⟩ | ⟨e, -, rfl⟩
    · exact .inr (.rename k text htext)
    · exact .inl rfl
  | readRoot | readDirNames p | stat p => exact .inl h.1
  | lchown p gid | chmod p mode => exact h.imp id fun ⟨a, h⟩ => h ▸ .attr _ r p a
  | isLikelyNotMountPoint p | lstat p | setUpMultiNIC volumeID ip | list => exact .inl h

/-- A write appends a part of the data to the file. -/
theorem write_step {data old : String} {n : ℕ} (h : s.step (.write p data) (.ok n) s')
    (hold : s.content p = some old) :
    n ≤ data.length ∧ s' = s.putFile p (old ++ String.ofList (data.toList.take n)) := by
  obtain ⟨c, hc⟩ := h
  cases c <;> simp only [NodeState.exec, reduceCtorEq, Option.some.injEq, Prod.mk.injEq,
    false_and] at hc
  rename_i m
  split at hc
  · rename_i hle
    simp only [Option.some.injEq, Prod.mk.injEq, Except.ok.injEq, hold] at hc
    obtain ⟨rfl, rfl⟩ := hc
    exact ⟨hle, rfl⟩
  · cases hc

/-- A write of the whole length has written all of the text. -/
theorem ofList_take_length {rest : String} {n : ℕ} (h : n = rest.length) :
    String.ofList (rest.toList.take n) = rest := by
  rw [List.take_of_length_le (by rw [h, String.length_toList]), String.ofList_toList]

/-- A part that has been written and what is then left make up the text. -/
theorem append_ofList_take_drop (old rest : String) (n : ℕ) :
    old ++ String.ofList (rest.toList.take n) ++ String.ofList (rest.toList.drop n) = old ++ rest := by
  apply String.toList_injective
  simp [List.append_assoc, List.take_append_drop]

/-! ## The view of one key -/

/-- The two states have the same directory and the same mounts for the key. -/
structure SameKey (k : Key) (s s' : NodeState) : Prop where
  dir : s'.dir k = s.dir k
  mounts : s'.mountsAt (.mount k) = s.mountsAt (.mount k)

/-- A key is as it is. -/
theorem SameKey.refl (k : Key) (s : NodeState) : SameKey k s s := ⟨rfl, rfl⟩

/-- A key that is as before twice is as before. -/
theorem SameKey.trans {s₁ s₂ s₃ : NodeState} (h : SameKey k s₁ s₂) (h' : SameKey k s₂ s₃) :
    SameKey k s₁ s₃ :=
  ⟨h'.dir.trans h.dir, h'.mounts.trans h.mounts⟩

/-- The directory of a key after a change to it. -/
@[simp] theorem dir_modifyKey_self (s : NodeState) (k : Key) (f : KeyDir → KeyDir) :
    (s.modifyKey k f).dir k = some (f ((s.dir k).getD .empty)) := by
  simp [NodeState.dir, NodeState.modifyKey]

/-- The directories of other keys after a change to one. -/
theorem dir_modifyKey_of_ne (s : NodeState) (h : k' ≠ k) (f : KeyDir → KeyDir) :
    (s.modifyKey k f).dir k' = s.dir k' := by
  simp [NodeState.dir, NodeState.modifyKey, AList.lookup_insert_ne h]

/-- A change to a directory does not concern what is mounted. -/
@[simp] theorem mounted_modifyKey (s : NodeState) (k : Key) (f : KeyDir → KeyDir) (p : Path) :
    (s.modifyKey k f).mounted p = s.mounted p := rfl

/-- A change to the directory of a key leaves the other keys. -/
theorem SameKey.modifyKey (s : NodeState) (h : k' ≠ k) (f : KeyDir → KeyDir) :
    SameKey k' s (s.modifyKey k f) := ⟨dir_modifyKey_of_ne s h f, rfl⟩

/-- Removing the directory of a key leaves the other keys. -/
theorem SameKey.eraseKey (s : NodeState) (h : k' ≠ k) :
    SameKey k' s { s with keys := s.keys.erase k } :=
  ⟨by simp [NodeState.dir, AList.lookup_erase_ne h], rfl⟩

/-- Erasing one element of a class leaves the elements outside it. -/
theorem filter_eraseP_of_disjoint {α : Type} {p q : α → Bool} (h : ∀ a, p a = true → q a = false)
    (l : List α) : (l.eraseP p).filter q = l.filter q := by
  induction l with
  | nil => rfl
  | cons a l ih =>
    cases ha : p a with
    | true => simp [ha, h a ha]
    | false => simp [ha, ih, List.filter_cons]

/-- Erasing the first element of a class removes the first one that it has. -/
theorem filter_eraseP_self {α : Type} (p : α → Bool) (l : List α) :
    (l.eraseP p).filter p = (l.filter p).tail := by
  induction l with
  | nil => rfl
  | cons a l ih =>
    cases ha : p a with
    | true => simp [ha]
    | false => simp [ha, ih]

/-- Unmounting a path leaves the mounts of others. -/
theorem mountsAt_detach_of_ne (s : NodeState) (h : q ≠ p) :
    (s.detach p).mountsAt q = s.mountsAt q :=
  filter_eraseP_of_disjoint (by rintro m hm; simp_all [eq_comm]) s.mounts

/-- Unmounting takes the topmost mount off. -/
theorem mountsAt_detach_self (s : NodeState) (p : Path) :
    (s.detach p).mountsAt p = (s.mountsAt p).tail := filter_eraseP_self _ s.mounts

/-- Mounting on a path leaves the mounts of others. -/
theorem mountsAt_attach_of_ne (s : NodeState) (h : q ≠ p) (source fstype : String)
    (options : List String) : (s.attach source p fstype options).mountsAt q = s.mountsAt q := by
  simp [NodeState.mountsAt, NodeState.attach, h.symm]

/-- A new mount lies on top of those that were there. -/
theorem mountsAt_attach_self (s : NodeState) (p : Path) (source fstype : String)
    (options : List String) : (s.attach source p fstype options).mountsAt p =
      ⟨s.deviceOf source options, p, fstype, options⟩ :: s.mountsAt p :=
  List.filter_cons_of_pos (by simp)

/-- What has been mounted is mounted. -/
theorem mounted_attach_self (s : NodeState) (p : Path) (source fstype : String)
    (options : List String) : (s.attach source p fstype options).mounted p = true := by
  simp [NodeState.mounted, mountsAt_attach_self]

/-- With the same mounts the same paths are mounted. -/
theorem mounted_eq_of_mountsAt (h : s'.mountsAt p = s.mountsAt p) :
    s'.mounted p = s.mounted p := by
  simp only [NodeState.mounted, h]

/-- Taking a mount off a path that has none mounted leaves none mounted. -/
theorem mounted_of_mounted_detach (h : (s.detach p).mounted q = true) : s.mounted q = true := by
  by_cases hq : q = p
  · subst hq
    simp only [NodeState.mounted, mountsAt_detach_self] at h ⊢
    cases hm : s.mountsAt q <;> simp_all
  · rwa [mounted_eq_of_mountsAt (mountsAt_detach_of_ne s hq)] at h

/-- Setting group and mode leaves the keys. -/
theorem SameKey.setAttr (s : NodeState) (k : Key) (p : Path) (a : Attr) :
    SameKey k s (s.setAttr p a) := by
  unfold NodeState.setAttr
  split
  · exact ⟨rfl, rfl⟩
  · exact ⟨rfl, rfl⟩
  · exact ⟨rfl, rfl⟩

/-! ## What an operation leaves as it was -/

/-- The key whose directory or mount an operation may change. -/
def opKey : Op → Option Key
  | .mkdirAll p => p.key?
  | .unmount p => p.key?
  | .mountSensitiveWithoutSystemd _ p _ _ => p.key?
  | .umount _ p => p.key?
  | .remove p => p.key?
  | .removeAll k => some k
  | .openTrunc p => p.key?
  | .write p _ => p.key?
  | .renameToken k => some k
  | _ => none

/-- Creating a directory that is not of the key leaves the key. -/
theorem mkdirAll_sameKey (s : NodeState) (h : p.key? ≠ some k) :
    SameKey k s (s.mkdirAll p) := by
  cases p <;> simp only [Path.key?, ne_eq, Option.some.injEq] at h <;>
    simp only [NodeState.mkdirAll]
  case outside q =>
    split
    · exact .refl k s
    · exact ⟨rfl, rfl⟩
  case keyDir k' => exact .modifyKey s (Ne.symm h) _
  case mount k' => exact .modifyKey s (Ne.symm h) _
  case refs k' => exact .modifyKey s (Ne.symm h) _
  all_goals exact .refl k s

/-- Removing a path that is not of the key leaves the key. -/
theorem erase_sameKey (s : NodeState) (h : p.key? ≠ some k) :
    SameKey k s (s.erase p) := by
  cases p <;> simp only [Path.key?, ne_eq, Option.some.injEq] at h <;>
    simp only [NodeState.erase]
  case outside q => exact ⟨rfl, rfl⟩
  case keyDir k' => exact .eraseKey s (Ne.symm h)
  all_goals exact .modifyKey s (Ne.symm h) _

/-- Writing a file that is not of the key leaves the key. -/
theorem putFile_sameKey (s : NodeState) (h : p.key? ≠ some k) (text : String) :
    SameKey k s (s.putFile p text) := by
  cases p <;> simp only [Path.key?, ne_eq, Option.some.injEq] at h <;>
    simp only [NodeState.putFile]
  case ref k' u => exact .modifyKey s (Ne.symm h) _
  case token k' => exact .modifyKey s (Ne.symm h) _
  case tokenTmp k' => exact .modifyKey s (Ne.symm h) _
  all_goals exact .refl k s

/-- Unmounting a path that is not of the key leaves the key. -/
theorem detach_sameKey (s : NodeState) (h : p.key? ≠ some k) :
    SameKey k s (s.detach p) :=
  ⟨rfl, mountsAt_detach_of_ne s fun heq => h (heq ▸ rfl)⟩

/-- Deleting files of a mounted file system leaves the keys. -/
theorem wipe_sameKey (s : NodeState) (k : Key) (p : Path) : SameKey k s (s.wipe p) := by
  unfold NodeState.wipe
  split
  · exact .refl k s
  · exact ⟨rfl, rfl⟩

/-- A recursive removal for another key leaves the key. -/
theorem removeParts_sameKey (s : NodeState) (h : k' ≠ k) (parts : Removed) :
    SameKey k' s (s.removeParts k parts) := by
  unfold NodeState.removeParts
  refine SameKey.trans ?_ (.modifyKey _ h _)
  split
  · exact wipe_sameKey s k' _
  · exact .refl k' s

/-- **Frame.** An operation changes nothing of a key that it does not name. -/
theorem Outcome.frame (h : Outcome s o r s') (hk : opKey o ≠ some k) : SameKey k s s' := by
  obtain rfl | hc := h.change
  · exact .refl k _
  cases hc with
  | acquire | release => exact ⟨rfl, rfl⟩
  | mkdirAll p q hq => exact mkdirAll_sameKey s fun heq => hk (hq.symm.trans heq)
  | unmount | umount => exact detach_sameKey s hk
  | mount => exact ⟨rfl, mountsAt_attach_of_ne s (fun heq => hk (by rw [← heq]; rfl)) _ _ _⟩
  | remove => exact erase_sameKey s hk
  | removeAll => exact .eraseKey s fun heq => hk (by rw [heq]; rfl)
  | removeParts k' r parts => exact removeParts_sameKey s (fun heq => hk (by rw [heq]; rfl)) parts
  | openTrunc | write => exact putFile_sameKey s hk _
  | rename k' text =>
    exact (putFile_sameKey s (p := .token k') hk text).trans (erase_sameKey _ hk)
  | attr o r p a => exact .setAttr s k p a

/-- The two states have the same lock set, and no file system has been wiped in between. -/
structure SameRest (s s' : NodeState) : Prop where
  locks : s'.locks = s.locks
  wiped : s'.wiped = s.wiped

/-- Creating a directory takes no lock and wipes nothing. -/
theorem mkdirAll_sameRest (s : NodeState) (p : Path) : SameRest s (s.mkdirAll p) := by
  cases p <;> simp only [NodeState.mkdirAll]
  case outside q => split <;> exact ⟨rfl, rfl⟩
  all_goals exact ⟨rfl, rfl⟩

/-- Removing a path takes no lock and wipes nothing. -/
theorem erase_sameRest (s : NodeState) (p : Path) : SameRest s (s.erase p) := by
  cases p <;> exact ⟨rfl, rfl⟩

/-- Writing a file takes no lock and wipes nothing. -/
theorem putFile_sameRest (s : NodeState) (p : Path) (text : String) :
    SameRest s (s.putFile p text) := by
  cases p <;> exact ⟨rfl, rfl⟩

/-- Setting group and mode takes no lock and wipes nothing. -/
theorem setAttr_sameRest (s : NodeState) (p : Path) (a : Attr) : SameRest s (s.setAttr p a) := by
  unfold NodeState.setAttr
  split <;> exact ⟨rfl, rfl⟩

/-- Where nothing is mounted there is no topmost device. -/
theorem topDevice_of_not_mounted (h : s.mounted p = false) :
    s.topDevice p = none := by
  have hnil : s.mountsAt p = [] := by simpa [NodeState.mounted] using h
  simpa [NodeState.topDevice, NodeState.mountsAt] using hnil

/-- Deleting parts of a key directory on which nothing is mounted wipes no file system. -/
theorem removeParts_sameRest (h : s.mounted (.mount k) = false) (parts : Removed) :
    SameRest s (s.removeParts k parts) := by
  unfold NodeState.removeParts
  have hwipe : s.wipe (.mount k) = s := by
    simp [NodeState.wipe, topDevice_of_not_mounted h]
  rw [hwipe]
  split <;> exact ⟨rfl, rfl⟩

/-- A recursive removal does not concern the lock set. -/
theorem removeParts_locks (s : NodeState) (k : Key) (parts : Removed) :
    (s.removeParts k parts).locks = s.locks := by
  have hwipe : (s.wipe (.mount k)).locks = s.locks := by
    unfold NodeState.wipe
    split <;> rfl
  unfold NodeState.removeParts
  split
  · exact hwipe
  · rfl

/-- What an operation does to the lock set. -/
def lockEvent : Event nodeSig → Option (LockEvent String)
  | ⟨.tryAcquire x, acquired⟩ => if acquired = true then some (.acquired x) else none
  | ⟨.release x, _⟩ => some (.released x)
  | _ => none

/-- Lock set and wiped file systems are changed by lock operations and by recursive removals
only. -/
theorem Outcome.sameRest (h : Outcome s o r s') (hlock : lockEvent ⟨o, r⟩ = none)
    (hno : ∀ k, o ≠ .removeAll k) : SameRest s s' := by
  obtain rfl | hc := h.change
  · exact ⟨rfl, rfl⟩
  cases hc with
  | acquire | release => simp [lockEvent] at hlock
  | mkdirAll p q => exact mkdirAll_sameRest s q
  | remove => exact erase_sameRest s _
  | removeAll | removeParts => exact absurd rfl (hno _)
  | openTrunc | write => exact putFile_sameRest s _ _
  | attr o r p a => exact setAttr_sameRest s p a
  | _ => exact ⟨rfl, rfl⟩

/-- Only a recursive removal below a mount wipes a file system. -/
theorem Outcome.wiped (h : Outcome s o r s')
    (hno : ∀ k, o = .removeAll k → s.mounted (.mount k) = false) : s'.wiped = s.wiped := by
  cases o with
  | tryAcquire x => rcases h with ⟨-, -, rfl⟩ | ⟨-, -, rfl⟩ <;> rfl
  | release x => exact h ▸ rfl
  | removeAll k =>
    rcases h with ⟨-, -, rfl⟩ | ⟨-, -, rfl⟩ | ⟨-, -, parts, rfl⟩
    · rfl
    · rfl
    · exact (removeParts_sameRest (hno k rfl) parts).wiped
  | _ => exact (h.sameRest rfl fun k hk => by cases hk).wiped

/-- Operations other than those on locks leave the lock set as it is. -/
theorem Outcome.locks (h : Outcome s o r s') (hno : lockEvent ⟨o, r⟩ = none) : s'.locks = s.locks := by
  cases o with
  | removeAll k =>
    rcases h with ⟨-, -, rfl⟩ | ⟨-, -, rfl⟩ | ⟨-, -, parts, rfl⟩
    · rfl
    · rfl
    · exact removeParts_locks s k parts
  | _ => exact (h.sameRest hno fun k hk => by cases hk).locks

/-- The lock set of the node server as a set of try-locks, for every step relation within
that of the node. -/
def nodeLocks {step : NodeState → (o : nodeSig.Op) → nodeSig.Res o → NodeState → Prop}
    (hstep : ∀ {s o r s'}, step s o r s' → s.step o r s') : LockProtocol step String where
  event := lockEvent
  locked s := s.locks
  acquired := by
    intro s o r s' x h he
    have hout := outcome_of_step (hstep h)
    cases o with
    | tryAcquire y =>
      rcases hout with ⟨rfl, hfree, rfl⟩ | ⟨rfl, -, -⟩
      · obtain rfl : y = x := by simpa [lockEvent] using he
        exact ⟨by simpa using hfree, by simp⟩
      · simp [lockEvent] at he
    | _ => simp [lockEvent] at he
  released := by
    intro s o r s' x h he
    have hout := outcome_of_step (hstep h)
    cases o with
    | tryAcquire y => cases r <;> simp [lockEvent] at he
    | release y =>
      obtain rfl : y = x := by simpa [lockEvent] using he
      rw [show s' = _ from hout]
      simp
    | _ => simp [lockEvent] at he
  other := by
    intro s o r s' h he
    rw [(outcome_of_step (hstep h)).locks he]

end LustreCsi.Interface
