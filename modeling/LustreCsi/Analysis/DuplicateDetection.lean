import LustreCsi.Analysis.StagedNames
import LustreCsi.Interface.Footprints
import LustreCsi.Interface.MountPoints
import LustreCsi.Interface.Sample
import LustreCsi.Interface.Sequential

/-!
# Duplicate detection reads what staging mounts

`NodeStageVolume` mounts `<ip>@tcp:/<fsname>` and recognises the name again by a pattern that is not
anchored. `seen_iff` says for which addresses and names the pattern reads the name that was mounted
(`Readable`), so that a second request for it is refused; those of a mount point are among them
(`readable_of_mountPoint`), a name with a slash is not (`not_always_seen`).
-/

set_option autoImplicit false

namespace LustreCsi.Analysis.DuplicateDetection

open LustreCsi.Computation Model Interface

/-! ## Addresses with several lines -/

/-- The separator stands in the line with text in front of it and no slash right behind it. -/
structure CutAt (line a b : List Char) : Prop where
  eq : line = a ++ ("@tcp:/".toList ++ b)
  front : a ≠ []
  behind : b.head? ≠ some '/'

/-- Some separator does. -/
def Separated (line : List Char) : Prop := ∃ a b, CutAt line a b

/-- The last one that does. -/
def LastCut (line a b : List Char) : Prop :=
  CutAt line a b ∧ ∀ a' b', CutAt line a' b' → b.length ≤ b'.length

/-- The source with an address of these lines. -/
def sourceText (lines : List (List Char)) (name : List Char) : List Char :=
  ['\n'].intercalate lines ++ ("@tcp:/".toList ++ name)

/-- The name is the one that the address of these lines leaves readable: no line before the last one has
a separator, and the last one is not empty; or the name stands by chance between the last separator of the
first such line and the next slash. -/
inductive ReadableIn (name : List Char) : List (List Char) → Prop where
  | last {line : List Char} (h : line ≠ []) : ReadableIn name [line]
  | skip {line : List Char} {lines : List (List Char)} (h : ¬Separated line)
      (hrest : ReadableIn name lines) : ReadableIn name (line :: lines)
  | here {line a b : List Char} {lines : List (List Char)} (h : LastCut line a b) (hne : lines ≠ [])
      (hname : name ++ ['/'] <+: b ++ '\n' :: sourceText lines name) : ReadableIn name (line :: lines)

/-- The name can be read from the source. -/
def Readable (ip fsname : String) : Prop :=
  '/' ∉ fsname.toList ∧ ReadableIn fsname.toList (ip.toList.splitOn '\n')

/-! ## What the pattern finds -/

section Pattern

variable {name line a b rest : List Char} {lines : List (List Char)}

/-- The first line of a source with several. -/
theorem sourceText_cons (hne : lines ≠ []) :
    sourceText (line :: lines) name = line ++ '\n' :: sourceText lines name := by
  cases lines with
  | nil => exact absurd rfl hne
  | cons l ls => simp [sourceText, List.intercalate]

/-- A text that is cut at a separator, in front of which there is no newline, is cut within its
first line. -/
theorem cut_line {t : List Char} (ha : '\n' ∉ a)
    (h : line ++ '\n' :: rest = a ++ ("@tcp:/".toList ++ t)) :
    ∃ b, line = a ++ ("@tcp:/".toList ++ b) ∧ t = b ++ '\n' :: rest := by
  rw [← List.append_assoc] at h
  rcases List.append_eq_append_iff.mp h with ⟨u, heq, hrest⟩ | ⟨u, heq, ht⟩
  · cases u with
    | nil => exact ⟨[], by simpa using heq.symm, by simpa using hrest.symm⟩
    | cons c u =>
      obtain ⟨rfl, -⟩ := List.cons.inj hrest
      have hmem : '\n' ∈ a ++ "@tcp:/".toList := heq ▸ by simp
      rcases List.mem_append.mp hmem with hmem | hmem
      · exact absurd hmem ha
      · exact absurd hmem (by decide)
  · exact ⟨u, by simpa using heq, ht⟩

/-- A separated line has a last separator. -/
theorem exists_lastCut (h : Separated line) : ∃ a b, LastCut line a b := by
  obtain ⟨a, b, hcut⟩ := h
  induction hn : b.length using Nat.strongRecOn generalizing a b with
  | ind n ih =>
    by_cases hlast : ∀ a' b', CutAt line a' b' → b.length ≤ b'.length
    · exact ⟨a, b, hcut, hlast⟩
    push Not at hlast
    obtain ⟨a', b', hcut', hlt⟩ := hlast
    exact ih _ (hn ▸ hlt) a' b' hcut' rfl

/-- The last cut of a line is determined. -/
theorem lastCut_unique {a' b' : List Char} (h : LastCut line a b) (h' : LastCut line a' b') : b = b' := by
  have hlength := Nat.le_antisymm (h.2 _ _ h'.1) (h'.2 _ _ h.1)
  have heq := h.1.eq.symm.trans h'.1.eq
  rw [← List.append_assoc, ← List.append_assoc] at heq
  exact (List.append_inj' heq hlength).2

/-- A line that does not begin with a slash begins with a character of the class. -/
theorem takeWhile_ne_nil (h : b.head? ≠ some '/') : (b ++ '\n' :: rest).takeWhile notSlash ≠ [] := by
  cases b with
  | nil => simp [notSlash]
  | cons c b =>
    have hc : notSlash c = true := by simpa [notSlash] using h
    simp [hc]

/-- A line with a separator ends the search. -/
theorem findFrom_separated (hline : '\n' ∉ line) (hcut : LastCut line a b) (start : Bool) :
    sourceRegex.findFrom start (line ++ '\n' :: rest) =
      some [(b ++ '\n' :: rest).takeWhile notSlash] := by
  obtain ⟨⟨rfl, hfront, hbehind⟩, hlast⟩ := hcut
  have hnew : '\n' ∉ a := fun hmem => hline (List.mem_append_left _ hmem)
  refine Regex.findFrom_of_head? (head?_run_source start (by simp) hfront hnew
    (takeWhile_ne_nil hbehind) fun a' b' heq ha' hlt => ?_)
  obtain ⟨b₂, hcut, rfl⟩ := cut_line ha' heq
  have hshort : b₂.length < b.length := by simpa using hlt
  -- A later separator has a slash right behind it, as it would be the last one otherwise.
  have hslash : b₂.head? = some '/' := by
    by_contra hbehind'
    refine absurd (hlast a' b₂ ⟨hcut, ?_, hbehind'⟩) (Nat.not_le.mpr hshort)
    rintro rfl
    have hlength := congrArg List.length hcut
    simp only [List.length_append, List.length_nil] at hlength
    omega
  obtain ⟨b₃, rfl⟩ := List.head?_eq_some_iff.mp hslash
  simp [notSlash]

/-- A line without separator is passed over. -/
theorem findFrom_not_separated (hline : '\n' ∉ line) (h : ¬Separated line) (start : Bool) :
    sourceRegex.findFrom start (line ++ '\n' :: rest) = sourceRegex.findFrom false rest := by
  have happend : line ++ '\n' :: rest = (line ++ ['\n']) ++ rest := by simp
  rw [happend]
  refine Regex.findFrom_append (by simp) (fun y start hy hsuffix => ?_) start
  refine List.eq_nil_iff_forall_not_mem.mpr fun w hw => h ?_
  obtain ⟨a, v, hfront, ha, hv, hslash, heq, -⟩ := mem_run_source hw
  obtain ⟨x, hx⟩ := hsuffix
  obtain rfl | ⟨y', c, rfl⟩ := List.eq_nil_or_concat y
  · exact absurd rfl hy
  · rw [List.concat_eq_append, ← List.append_assoc] at hx
    obtain ⟨rfl, hc⟩ := List.append_inj' hx rfl
    obtain rfl : c = '\n' := by simpa using hc
    have heq' : y' ++ '\n' :: rest = a ++ ("@tcp:/".toList ++ (v ++ w.2)) := by simpa using heq
    obtain ⟨b, rfl, hb⟩ := cut_line ha heq'
    refine ⟨x ++ a, b, by simp, by simp [hfront], fun hhead => ?_⟩
    obtain ⟨b', rfl⟩ := List.head?_eq_some_iff.mp hhead
    obtain ⟨d, v', rfl⟩ := List.exists_cons_of_ne_nil hv
    obtain ⟨rfl, -⟩ := List.cons.inj hb
    exact hslash List.mem_cons_self

/-- Behind an empty line no text stands in front of the separator. -/
theorem findFrom_empty (hslash : '/' ∉ name) (start : Bool) :
    sourceRegex.findFrom start ("@tcp:/".toList ++ name) = none := by
  cases hfind : sourceRegex.findFrom start ("@tcp:/".toList ++ name) with
  | none => rfl
  | some caps =>
    obtain ⟨pre, suf, start', w, heq, hw, -⟩ := Regex.exists_way_of_findFrom hfind
    obtain ⟨a, v, hfront, -, -, -, rfl, -⟩ := mem_run_source hw
    have hcut : [] ++ ("@tcp:/".toList ++ name) = (pre ++ a) ++ ("@tcp:/".toList ++ (v ++ w.2)) := by
      simpa using heq
    have hle := length_le_of_cut hslash hcut
    have hlength := congrArg List.length hcut
    have hpos := List.length_pos_iff.mpr hfront
    simp only [List.length_append, List.length_nil] at hlength hle
    omega

/-- What stands in front of the next slash. -/
theorem takeWhile_eq_iff {t : List Char} (hslash : '/' ∉ name) (ht : '/' ∈ t) :
    t.takeWhile notSlash = name ↔ name ++ ['/'] <+: t := by
  constructor
  · rintro rfl
    have hcut : t.takeWhile notSlash ++ t.dropWhile notSlash = t := List.takeWhile_append_dropWhile
    cases hdrop : t.dropWhile notSlash with
    | nil =>
      rw [hdrop, List.append_nil] at hcut
      exact absurd ht (hcut ▸ hslash)
    | cons c u =>
      have hc : notSlash c = false := by
        simpa [hdrop] using List.head?_dropWhile_not notSlash t
      obtain rfl : c = '/' := by simpa [notSlash] using hc
      refine ⟨u, ?_⟩
      rw [List.append_assoc, List.singleton_append, ← hdrop, hcut]
  · rintro ⟨u, rfl⟩
    rw [List.append_assoc, List.takeWhile_append_of_pos (notSlash_iff.mpr hslash)]
    simp [notSlash]

/-- What the pattern finds in a source is the name exactly for the addresses that leave it readable.
The induction is over the lines of the address. -/
theorem findFrom_iff (hname : name ≠ []) (hslash : '/' ∉ name) (hlines : ∀ l ∈ lines, '\n' ∉ l)
    (hne : lines ≠ []) (start : Bool) :
    sourceRegex.findFrom start (sourceText lines name) = some [name] ↔ ReadableIn name lines := by
  induction lines generalizing start with
  | nil => exact absurd rfl hne
  | cons line lines ih =>
    obtain ⟨hline, hrest⟩ := List.forall_mem_cons.mp hlines
    by_cases hlast : lines = []
    · subst hlast
      have htext : sourceText [line] name = line ++ ("@tcp:/".toList ++ name) := by
        simp [sourceText, List.intercalate]
      rw [htext]
      by_cases hempty : line = []
      · rw [hempty, List.nil_append, findFrom_empty hslash]
        refine iff_of_false (by simp) fun hread => ?_
        cases hread with
        | last h => exact h rfl
        | skip _ h => cases h
        | here _ h => exact h rfl
      · exact iff_of_true (findFrom_source hempty hline hname hslash start) (.last hempty)
    · rw [sourceText_cons hlast]
      by_cases hsep : Separated line
      · obtain ⟨a, b, hcut⟩ := exists_lastCut hsep
        have hmem : '/' ∈ b ++ '\n' :: sourceText lines name := by simp [sourceText]
        rw [findFrom_separated hline hcut, Option.some.injEq, List.cons.injEq, and_iff_left rfl,
          takeWhile_eq_iff hslash hmem]
        refine ⟨.here hcut hlast, fun hread => ?_⟩
        cases hread with
        | last => exact absurd rfl hlast
        | skip h => exact absurd hsep h
        | here hcut' _ hpre =>
          obtain rfl := lastCut_unique hcut hcut'
          exact hpre
      · rw [findFrom_not_separated hline hsep, ih hrest hlast]
        refine ⟨.skip hsep, fun hread => ?_⟩
        cases hread with
        | last => exact absurd rfl hlast
        | skip _ h => exact h
        | here hcut => exact absurd ⟨_, _, hcut.1⟩ hsep

end Pattern

/-- A name is read if the pattern finds it; it has no slash then. -/
theorem extractFSName_eq_iff {source fsname : String} (hfs : fsname ≠ "") :
    extractFSName source = fsname ↔
      '/' ∉ fsname.toList ∧ sourceRegex.findFrom true source.toList = some [fsname.toList] := by
  rw [extractFSName_eq, Regex.find]
  cases hfind : sourceRegex.findFrom true source.toList with
  | none => exact iff_of_false (fun h => hfs h.symm) (by simp)
  | some caps =>
    obtain ⟨pre, suf, start, w, -, hw, rfl⟩ := Regex.exists_way_of_findFrom hfind
    obtain ⟨a, v, -, -, -, hslash, -, hcaps⟩ := mem_run_source hw
    rw [hcaps, Option.map_some, List.map_singleton, Option.some.injEq, List.cons.injEq,
      and_iff_left rfl]
    constructor
    · rintro rfl
      rw [String.toList_ofList]
      exact ⟨hslash, rfl⟩
    · rintro ⟨-, rfl⟩
      exact String.ofList_toList

/-- The pattern reads the name of a source exactly if it is readable. -/
theorem extractFSName_iff {ip fsname : String} (hfs : fsname ≠ "") :
    extractFSName (lustreSource ip fsname) = fsname ↔ Readable ip fsname := by
  have htext : (lustreSource ip fsname).toList =
      sourceText (ip.toList.splitOn '\n') fsname.toList := by
    rw [sourceText, List.intercalate_splitOn, lustreSource_toList]
  rw [extractFSName_eq_iff hfs, htext]
  refine and_congr_right fun hslash => findFrom_iff (by simpa using hfs) hslash ?_ ?_ true
  · exact fun l hl => not_mem_of_mem_splitOn hl
  · exact List.splitOn_ne_nil _ _

/-- **The names of mount points are readable.** Their pattern allows neither a slash in the name nor a
newline in the address.

SOURCE: pkg/csi_driver/node.go:58, 647-654 -/
theorem readable_of_mountPoint {mountPoint ip fsname : String}
    (h : parseMountPoint mountPoint = .ok (ip, fsname)) : Readable ip fsname := by
  obtain ⟨-, hip, hline, -, hslash⟩ := parseMountPoint_eq_ok.mp h
  refine ⟨hslash, ?_⟩
  rw [List.splitOn_eq_singleton hline]
  exact .last (by simpa using hip)

/-! ## Staging twice -/

section Stage

variable {s : NodeServer} {req : NodeStageVolumeRequest} {ip fsname : String}
  {volCap : VolumeCapability}

/-- The error of a request for a name that is mounted already. -/
def duplicate (s : NodeServer) (fsname : String) : Status :=
  ⟨.alreadyExists, "A mountpoint with the same lustre filesystem " ++
    s!"name {quote fsname} already exists on node {s.nodeID}. Please mount different lustre " ++
    "filesystems"⟩

/-- A request to stage the name on a path that is not mounted is refused: it ends in an error and leaves
the mount table as it is, and the error is that of a duplicate if the table could be read. -/
def RefusesSecond (s : NodeServer) (fsname : String) (σ : NodeState) : Prop :=
  ∀ (req : NodeStageVolumeRequest) (ip : String) (volCap : VolumeCapability),
    validateStage s req = .ok (some (ip, fsname, volCap)) →
    σ.mounted (.outside req.stagingTargetPath) = false →
    ∀ (tr : List (Event nodeSig)) (a : Option Status) (σ' : NodeState),
      Exec (nodeStep True) (nodeStageVolume s req) σ tr a σ' →
      a ≠ none ∧ σ'.mounts = σ.mounts ∧
        ∀ table, (⟨.list, .ok table⟩ : Event nodeSig) ∈ tr → a = some (duplicate s fsname)

/-- The mount that a request asks for is in the mount table once the request has succeeded, its name is
read from the table, and a second request for the name is refused as long as the mount is there. -/
structure Seen (s : NodeServer) (req : NodeStageVolumeRequest) (ip fsname : String)
    (volCap : VolumeCapability) : Prop where
  mounted : ∀ (σ σ' : NodeState) (tr : List (Event nodeSig)),
    Exec (nodeStep True) (nodeStageVolume s req) σ tr none σ' →
    σ.mounted (.outside req.stagingTargetPath) = false → "bind" ∉ volCap.mountFlags →
    ∃ m ∈ σ'.mounts, m.path = .outside req.stagingTargetPath ∧ m.device = lustreSource ip fsname
  name : extractFSName (lustreSource ip fsname) = fsname
  refused : ∀ σ : NodeState, (∃ m ∈ σ.mounts, m.device = lustreSource ip fsname) →
    RefusesSecond s fsname σ

/-- What is left to do once the name has not been found. -/
def mountNew (s : NodeServer) (req : NodeStageVolumeRequest) (ip fsname : String)
    (volCap : VolumeCapability) : NodeM (Option Status) := do
  if let some err ← setUpMultiNIC s req.volumeID ip then return some err
  mountStaged s req.stagingTargetPath ip fsname volCap

/-- The runs on a path that is not mounted: the table could not be read, or has the name, or has
not. -/
theorem exec_stageLocked {σ σ' : NodeState} {tr : List (Event nodeSig)} {a : Option Status}
    (h : Exec (nodeStep True) (stageLocked s req ip fsname volCap) σ tr a σ')
    (hfree : σ.mounted (.outside req.stagingTargetPath) = false) :
    (a ≠ none ∧ σ' = σ ∧ ∀ table, (⟨.list, .ok table⟩ : Event nodeSig) ∉ tr) ∨
      (a = some (duplicate s fsname) ∧ σ' = σ) ∨
      ((∀ m ∈ σ.mounts, extractFSName m.device ≠ fsname) ∧
        ∃ tr', Exec (nodeStep True) (mountNew s req ip fsname volCap) σ tr' a σ') := by
  obtain ⟨tr₁, probe, σ₁, tr₂, hprobe, hrest, rfl⟩ := exec_bind.mp h
  obtain ⟨rfl, hmounted, -⟩ := exec_isMounted hprobe
  have hscan : ∀ table, (⟨.list, .ok table⟩ : Event nodeSig) ∉ tr₁ := by
    have hall : (isMounted (.outside req.stagingTargetPath)).All fun o : Op => o ≠ .list := by
      apply all_isMounted <;> simp
    exact fun table hmem => hprobe.mem_all hall _ hmem rfl
  cases probe with
  | error err =>
    obtain ⟨rfl, rfl, rfl⟩ := exec_pure.mp hrest
    exact .inl ⟨by simp, rfl, by simpa using hscan⟩
  | ok mounted =>
    cases mounted with
    | true => exact absurd (hmounted rfl) (by simp [hfree])
    | false =>
      obtain ⟨tr₃, found, σ₂, tr₄, hlist, hafter, rfl⟩ := exec_bind.mp hrest
      obtain ⟨answer, σ₃, tr₅, hstep, rfl, hret⟩ := exec_perform_bind.mp hlist
      cases answer with
      | error err =>
        obtain rfl : σ₃ = σ₁ := outcome_of_nodeStep hstep
        obtain ⟨rfl, rfl, rfl⟩ := exec_pure.mp hret
        obtain ⟨rfl, rfl, rfl⟩ := exec_pure.mp hafter
        refine .inl ⟨by simp, rfl, fun table hmem => ?_⟩
        rcases List.mem_append.mp hmem with hmem | hmem
        · exact hscan table hmem
        · simp at hmem
      | ok table =>
        obtain ⟨rfl, rfl⟩ := StagedNames.list_eq hstep.1
        obtain ⟨rfl, rfl, rfl⟩ := exec_pure.mp hret
        cases hany : σ₂.mounts.reverse.any fun m => extractFSName m.device = fsname with
        | true =>
          rw [hany] at hafter
          obtain ⟨rfl, rfl, rfl⟩ := exec_pure.mp hafter
          exact .inr (.inl ⟨rfl, rfl⟩)
        | false =>
          rw [hany] at hafter
          refine .inr (.inr ⟨fun m hm => ?_, tr₄, hafter⟩)
          simpa using List.any_eq_false.mp hany m (List.mem_reverse.mpr hm)

/-- A request whose name is read from the mount table. -/
theorem refusesSecond_of_name {σ : NodeState} {m : MountPoint} (hm : m ∈ σ.mounts)
    (hname : extractFSName m.device = fsname) : RefusesSecond s fsname σ := by
  intro req ip volCap hvalid hfree tr a σ' hrun
  rw [nodeStageVolume, hvalid] at hrun
  rcases exec_withLock And.left hrun with ⟨-, rfl, rfl, rfl⟩ | ⟨-, tr₁, σ₁, hbody, rfl, rfl⟩
  · exact ⟨by simp, rfl, by simp⟩
  rcases exec_stageLocked hbody hfree with ⟨ha, rfl, hscan⟩ | ⟨rfl, rfl⟩ | ⟨hnone, -⟩
  · refine ⟨ha, rfl, fun table hmem => absurd ?_ (hscan table)⟩
    simpa using hmem
  · exact ⟨by simp, rfl, fun _ _ => rfl⟩
  · exact absurd hname (hnone m hm)

/-- A successful request has mounted its source. -/
theorem mounted_of_stage (hvalid : validateStage s req = .ok (some (ip, fsname, volCap)))
    {σ σ' : NodeState} {tr : List (Event nodeSig)}
    (hrun : Exec (nodeStep True) (nodeStageVolume s req) σ tr none σ')
    (hfree : σ.mounted (.outside req.stagingTargetPath) = false)
    (hbind : "bind" ∉ volCap.mountFlags) :
    ∃ m ∈ σ'.mounts, m.path = .outside req.stagingTargetPath ∧ m.device = lustreSource ip fsname := by
  rw [nodeStageVolume, hvalid] at hrun
  rcases exec_withLock And.left hrun with ⟨-, ha, -⟩ | ⟨-, tr₁, σ₁, hbody, rfl, -⟩
  · cases ha
  rcases exec_stageLocked hbody hfree with ⟨ha, -⟩ | ⟨ha, -⟩ | ⟨-, tr₂, hnew⟩
  · exact absurd rfl ha
  · cases ha
  obtain ⟨tr₃, nic, σ₂, tr₄, -, hmount, rfl⟩ := exec_bind.mp hnew
  cases nic with
  | some err =>
    obtain ⟨-, ha, -⟩ := exec_pure.mp hmount
    cases ha
  | none =>
    obtain ⟨tr₅, made, σ₃, tr₆, -, hmounting, -⟩ := exec_bind.mp hmount
    cases made with
    | some err =>
      obtain ⟨-, ha, -⟩ := exec_pure.mp hmounting
      cases ha
    | none =>
      obtain ⟨answer, σ₄, tr₇, hstep, -, hend⟩ := exec_perform_bind.mp hmounting
      cases answer with
      | some err =>
        obtain ⟨tr₈, r, σ₅, tr₉, -, hret, -⟩ := exec_bind.mp hend
        obtain ⟨-, ha, -⟩ := exec_pure.mp hret
        cases ha
      | none =>
        obtain ⟨-, -, rfl⟩ := exec_pure.mp hend
        have hoptions : "bind" ∉ addMountFlags [] volCap := fun hmem =>
          (StagedNames.mem_addMountFlags hmem).elim (by simp) hbind
        rcases outcome_of_nodeStep hstep with ⟨-, rfl⟩ | ⟨hcontra, -⟩
        · exact ⟨_, List.mem_cons_self, rfl, if_neg hoptions⟩
        · exact absurd rfl hcontra

/-- **Duplicate detection sees what staging mounts exactly if the name is readable.** For every request
that `NodeStageVolume` accepts for a volume without IAM, the name is read from the mounted source, and
so a second request for it is refused, if and only if the name has no slash and no line of the address
before its last one makes another source of it.

SOURCE: pkg/csi_driver/node.go:96-208, 613-654 -/
theorem seen_iff (hvalid : validateStage s req = .ok (some (ip, fsname, volCap))) :
    Seen s req ip fsname volCap ↔ Readable ip fsname := by
  obtain ⟨-, vc, -, hend⟩ := validateStage_eq_some hvalid
  obtain ⟨-, hfs, -⟩ := lustreEndpoint_eq_ok.mp hend
  rw [← extractFSName_iff hfs]
  refine ⟨Seen.name, fun hname => ⟨fun σ σ' tr => mounted_of_stage hvalid, hname, ?_⟩⟩
  rintro σ ⟨m, hm, hdevice⟩
  exact refusesSecond_of_name hm (hdevice ▸ hname)

end Stage

/-! ## Two requests for one name -/

section Sample

open Interface.Sample

/-- A request to stage a volume by its attributes. -/
def stageRequest (path fsname : String) : NodeStageVolumeRequest where
  volumeID := "vol"
  stagingTargetPath := path
  volumeCapability := some (mountCapability "")
  volumeContext := ((∅ : StrMap).insert keyInstanceIP "10.0.0.2").insert keyFilesystem fsname

/-- One call after the other. -/
def both (p q : NodeM (Option Status)) : NodeM (Option Status × Option Status) := do
  let first ← p
  let second ← q
  return (first, second)

/-- The results of two calls and the mount table after them. -/
def playBoth (p q : NodeM (Option Status)) (choices : List Choice) (σ : NodeState) :
    Option ((Option Status × Option Status) × List (String × Path)) :=
  (play (S := nodeSig) execAccurate (both p q) choices σ).map fun rs =>
    (rs.1, rs.2.mounts.map fun m => (m.device, m.path))

/-- What is played are runs of the two calls. -/
theorem exec_of_playBoth {p q : NodeM (Option Status)} (choices : List Choice) {σ : NodeState}
    {first second : Option Status} {table : List (String × Path)}
    (h : playBoth p q choices σ = some ((first, second), table)) :
    ∃ tr₁ σ₁ tr₂ σ₂, Exec (nodeStep True) p σ tr₁ first σ₁ ∧ Exec (nodeStep True) q σ₁ tr₂ second σ₂ ∧
      σ₂.mounts.map (fun m => (m.device, m.path)) = table := by
  obtain ⟨⟨r, σ₂⟩, hplay, hobs⟩ := Option.map_eq_some_iff.mp h
  obtain ⟨rfl, rfl⟩ := Prod.mk.inj hobs
  obtain ⟨tr, hexec⟩ := play_exec _ hplay
  have hrun : Exec (nodeStep True) (both p q) σ tr (first, second) σ₂ :=
    hexec.mono fun _ _ _ _ hs => nodeStep_of_execAccurate hs
  obtain ⟨tr₁, first', σ₁, tr₂, hfirst, hrest, -⟩ := exec_bind.mp hrun
  obtain ⟨tr₃, second', σ₃, tr₄, hsecond, hret, -⟩ := exec_bind.mp hrest
  obtain ⟨-, heq, rfl⟩ := exec_pure.mp hret
  obtain ⟨rfl, rfl⟩ := Prod.mk.inj heq
  exact ⟨tr₁, σ₁, tr₃, _, hfirst, hsecond, rfl⟩

/-- The choices for a call that mounts. -/
def mounting : List Choice := [.ok, .probe (.ok true), .ok, .ok, .ok, .ok]

/-- The name `lfs/data` is read as `lfs`, and the file system is staged twice. -/
theorem not_always_seen :
    validateStage sampleServer (stageRequest "/a" "lfs/data") =
        .ok (some ("10.0.0.2", "lfs/data", mountCapability "")) ∧
      ¬Seen sampleServer (stageRequest "/a" "lfs/data") "10.0.0.2" "lfs/data" (mountCapability "") ∧
      ∃ tr₁ σ₁ tr₂ σ₂,
        Exec (nodeStep True) (nodeStageVolume sampleServer (stageRequest "/a" "lfs/data")) freshNode
          tr₁ none σ₁ ∧
        Exec (nodeStep True) (nodeStageVolume sampleServer (stageRequest "/b" "lfs/data")) σ₁
          tr₂ none σ₂ ∧
        σ₂.mounts.map (fun m => (m.device, m.path)) =
          [("10.0.0.2@tcp:/lfs/data", .outside "/b"), ("10.0.0.2@tcp:/lfs/data", .outside "/a")] := by
  have hname : extractFSName (lustreSource "10.0.0.2" "lfs/data") ≠ "lfs/data" := by decide +kernel
  exact ⟨by decide +kernel, fun h => hname h.name,
    exec_of_playBoth (mounting ++ mounting) (by decide +kernel)⟩

/-- The second request for `lustrefs` is refused. -/
theorem seen_lustrefs :
    validateStage sampleServer (stageRequest "/a" "lustrefs") =
        .ok (some ("10.0.0.2", "lustrefs", mountCapability "")) ∧
      Seen sampleServer (stageRequest "/a" "lustrefs") "10.0.0.2" "lustrefs" (mountCapability "") ∧
      ∃ tr₁ σ₁ tr₂ σ₂,
        Exec (nodeStep True) (nodeStageVolume sampleServer (stageRequest "/a" "lustrefs")) freshNode
          tr₁ none σ₁ ∧
        Exec (nodeStep True) (nodeStageVolume sampleServer (stageRequest "/b" "lustrefs")) σ₁
          tr₂ (some (duplicate sampleServer "lustrefs")) σ₂ ∧
        σ₂.mounts.map (fun m => (m.device, m.path)) =
          [("10.0.0.2@tcp:/lustrefs", .outside "/a")] := by
  have hvalid : validateStage sampleServer (stageRequest "/a" "lustrefs") =
      .ok (some ("10.0.0.2", "lustrefs", mountCapability "")) := by decide +kernel
  have hreadable : Readable "10.0.0.2" "lustrefs" := by
    have hsplit : "10.0.0.2".toList.splitOn '\n' = ["10.0.0.2".toList] := by decide
    refine ⟨by decide, ?_⟩
    rw [hsplit]
    exact .last (by decide)
  exact ⟨hvalid, (seen_iff hvalid).mpr hreadable,
    exec_of_playBoth (mounting ++ [.ok, .probe (.ok true), .ok, .ok]) (by decide +kernel)⟩

end Sample

end LustreCsi.Analysis.DuplicateDetection
