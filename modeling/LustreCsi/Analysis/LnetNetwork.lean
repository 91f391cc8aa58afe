import LustreCsi.Computation.CheckedFold
import LustreCsi.Interface.ResourceNames
import LustreCsi.Model.KmodInstaller

/-!
# The interfaces that the installer sets and the driver reads

The installer writes the interfaces into the parameter `networks` of the module `lnet`
(`buildLnetNetworkString`); the driver reads them back and leaves out its own default interface
(`getLnetNetwork`, `additionalNics`).
-/

set_option autoImplicit false

namespace LustreCsi.Analysis.LnetNetwork

open LustreCsi.Computation Model Model.Kmod Interface

/-! ## Texts -/

/-- A text of white space. -/
def Blank (s : String) : Prop := ∀ c ∈ s.toList, isSpace c = true

/-- Trimming takes white space off on both sides, up to the first other characters. -/
theorem trimSpace_append {pre s post : String} {c d : Char} {l m : List Char} (hpre : Blank pre)
    (hpost : Blank post) (hfirst : s.toList = c :: l) (hc : isSpace c = false)
    (hlast : s.toList = m ++ [d]) (hd : isSpace d = false) : trimSpace (pre ++ s ++ post) = s := by
  have hleft : (pre.toList ++ (s.toList ++ post.toList)).dropWhile isSpace =
      s.toList ++ post.toList := by
    rw [List.dropWhile_append_of_pos hpre, hfirst]
    simp [hc]
  have hright : (post.toList.reverse ++ s.toList.reverse).dropWhile isSpace = s.toList.reverse := by
    rw [List.dropWhile_append_of_pos (fun c hc => hpost c (List.mem_reverse.mp hc)),
      hlast]
    simp [hd]
  simp only [trimSpace, String.toList_append, List.append_assoc, hleft, List.reverse_append, hright,
    List.reverse_reverse, String.ofList_toList]

/-- Nothing is left of white space. -/
theorem trimSpace_blank {s : String} (h : Blank s) : trimSpace s = "" := by
  have hdrop : s.toList.dropWhile isSpace = [] := List.dropWhile_eq_nil_iff.mpr h
  simp [trimSpace, hdrop]

/-- The characters of the parameter. -/
theorem tcp0_toList (nics : String) :
    (tcp0 nics).toList = "tcp0(".toList ++ (nics.toList ++ [')']) := by
  have h : tcp0 nics = "tcp0(" ++ nics ++ ")" := rfl
  simp [h]

/-- What is written in parentheses is trimmed to itself. -/
theorem trimSpace_tcp0 {pre post : String} (nics : String) (hpre : Blank pre) (hpost : Blank post) :
    trimSpace (pre ++ tcp0 nics ++ post) = tcp0 nics :=
  trimSpace_append (c := 't') (d := ')') (l := "cp0(".toList ++ (nics.toList ++ [')']))
    (m := "tcp0(".toList ++ nics.toList) hpre hpost (tcp0_toList nics) (by decide)
    (by rw [tcp0_toList, List.append_assoc]) (by decide)

/-- The parameter is not empty. -/
theorem tcp0_ne_empty (nics : String) : tcp0 nics ≠ "" := by
  intro h
  have hlist := congrArg String.toList h
  simp [tcp0_toList] at hlist

/-! ## Lists of interfaces -/

/-- The parentheses are taken off again. -/
theorem trim_tcp0 (nics : String) : trimSuffix (trimPrefix (tcp0 nics) "tcp0(") ")" = nics := by
  have hpre : trimPrefix (tcp0 nics) "tcp0(" = nics ++ ")" := by
    apply String.toList_injective
    have hp : hasPrefix (tcp0 nics) "tcp0(" = true := by
      rw [hasPrefix, tcp0_toList, List.isPrefixOf_iff_prefix]
      exact List.prefix_append _ _
    rw [trimPrefix, if_pos hp, tcp0_toList, String.toList_ofList, List.drop_left]
    simp
  have hs : hasSuffix (nics ++ ")") ")" = true := by
    rw [hasSuffix, List.isSuffixOf_iff_suffix, String.toList_append]
    exact List.suffix_append _ _
  apply String.toList_injective
  rw [hpre, trimSuffix, if_pos hs, String.toList_ofList, String.toList_append, List.length_append,
    Nat.add_sub_cancel, List.take_left]

/-- A joined list of names without comma is split into its names. -/
theorem parse_tcp0_intercalate (names : List String) (hne : ",".intercalate names ≠ "")
    (hcomma : ∀ name ∈ names, ',' ∉ name.toList) :
    parseLnetNetwork (tcp0 (",".intercalate names)) = names := by
  have hnames : names ≠ [] := by
    rintro rfl
    exact hne rfl
  rw [parseLnetNetwork]
  simp only [trim_tcp0, if_neg hne]
  exact split_eq_iff.mpr ⟨hnames, hcomma, by simp⟩

/-- The interfaces that are used besides the primary one. -/
def otherNics (nics : List String) (primaryNic : String) (disableMultiNIC : Bool) : List String :=
  if disableMultiNIC then [] else nics.filter (· ≠ primaryNic)

/-- The installer writes the primary interface and then the others. -/
theorem build_eq (nics : List String) (primaryNic : String) (disableMultiNIC : Bool) :
    buildLnetNetworkString nics primaryNic disableMultiNIC =
      tcp0 (",".intercalate (primaryNic :: otherNics nics primaryNic disableMultiNIC)) := by
  cases disableMultiNIC with
  | true => simp [buildLnetNetworkString, otherNics]
  | false =>
    have hloop := foldl_collect (p := fun nic => nic ≠ primaryNic) (f := id) nics [primaryNic]
    simp only [id_eq, List.map_id, List.singleton_append] at hloop
    rw [buildLnetNetworkString, if_neg (by decide), hloop]
    rfl

/-- What the driver reads from the text of the installer. -/
theorem parse_build {nics : List String} {primaryNic : String} {disableMultiNIC : Bool}
    (hprimary : primaryNic ≠ "") (hcomma : ∀ nic ∈ primaryNic :: nics, ',' ∉ nic.toList) :
    parseLnetNetwork (buildLnetNetworkString nics primaryNic disableMultiNIC) =
      primaryNic :: otherNics nics primaryNic disableMultiNIC := by
  rw [build_eq]
  refine parse_tcp0_intercalate _ (fun hempty => hprimary ?_) fun name hname => ?_
  · apply String.toList_injective
    have hlist := congrArg String.toList hempty
    cases hothers : otherNics nics primaryNic disableMultiNIC with
    | nil => simpa [hothers] using hlist
    | cons nic rest => simp [hothers] at hlist
  · rcases List.mem_cons.mp hname with rfl | hname
    · exact hcomma name (by simp)
    · unfold otherNics at hname
      split at hname
      · cases hname
      · exact hcomma name (List.mem_cons_of_mem _ (List.mem_of_mem_filter hname))

/-! ## The driver's start -/

section Start

variable {σ σ' : KmodState}

/-- What a program that returns reaches. -/
theorem reaches_pure {α : Type} {a r : α} :
    Reaches KmodState.step (pure a : KmodM α) σ r σ' ↔ r = a ∧ σ' = σ := by
  constructor
  · rintro ⟨tr, -, rfl, rfl⟩
    exact ⟨rfl, rfl⟩
  · rintro ⟨rfl, rfl⟩
    exact .ret _ _

/-- What a sequence reaches. -/
theorem reaches_bind {α β : Type} {p : KmodM α} {f : α → KmodM β} {r : β} :
    Reaches KmodState.step (p >>= f) σ r σ' ↔
      ∃ a σ₁, Reaches KmodState.step p σ a σ₁ ∧ Reaches KmodState.step (f a) σ₁ r σ' := by
  constructor
  · rintro ⟨tr, h⟩
    obtain ⟨tr₁, a, σ₁, tr₂, hp, hf, -⟩ := exec_bind.mp h
    exact ⟨a, σ₁, ⟨tr₁, hp⟩, ⟨tr₂, hf⟩⟩
  · rintro ⟨a, σ₁, hp, hf⟩
    exact hp.bind hf

/-- Reading a file answers what the file holds. -/
theorem reaches_readFile {α : Type} {path : String} {k : Except OsError String → KmodM α} {r : α} :
    Reaches KmodState.step (perform (.readFile path) >>= k) σ r σ' ↔
      Reaches KmodState.step (k (σ.file path)) σ r σ' := by
  constructor
  · rintro ⟨tr, answer, σ₁, tr₁, ⟨rfl, rfl⟩, rfl, h⟩
    exact ⟨tr₁, h⟩
  · intro h
    exact .call (S := kmodSig) (o := .readFile path) ⟨rfl, rfl⟩ h

/-- The interfaces that the driver takes from what the parameter file holds. -/
def readNics (defaultNic : String) : Except OsError String → Except OsError (List String)
  | .error err => if err.kind = .notExist then .ok (parseLnetNetwork (tcp0 defaultNic)) else .error err
  | .ok file =>
    .ok (parseLnetNetwork (if trimSpace file = "" then tcp0 defaultNic else trimSpace file))

/-- `getLnetNetwork` answers what the file says, and changes nothing. -/
theorem reaches_getLnetNetwork {expected path nic : String} {r : Except OsError (List String)} :
    Reaches KmodState.step (getLnetNetwork expected path nic) σ r σ' ↔
      r = readNics nic (σ.file path) ∧ σ' = σ := by
  rw [getLnetNetwork, readLnetConfig, Program.bind_assoc, reaches_readFile]
  cases hfile : σ.file path with
  | error err =>
    simp only [readNics, Program.pure_eq, Program.ret_bind]
    split <;> exact reaches_pure
  | ok file =>
    simp only [readNics]
    split <;> exact reaches_pure

/-- The driver leaves its default interface out. -/
theorem reaches_additionalNics {nic : String} {r : Except OsError (List String)} :
    Reaches KmodState.step (additionalNics nic) σ r σ' ↔
      r = (readNics nic (σ.file lnetNetworkParameterFile)).map (List.filter (· ≠ nic)) ∧ σ' = σ := by
  have hbind : Reaches KmodState.step (additionalNics nic) σ r σ' ↔
      ∃ nics σ₁, Reaches KmodState.step (getLnetNetwork "" lnetNetworkParameterFile nic) σ nics σ₁ ∧
        r = nics.map (List.filter (· ≠ nic)) ∧ σ' = σ₁ := by
    rw [additionalNics, reaches_bind]
    refine exists_congr fun nics => exists_congr fun σ₁ => and_congr_right fun _ => ?_
    cases nics with
    | error err => exact reaches_pure
    | ok nics =>
      have hloop := foldl_collect (p := fun n => n ≠ nic) (f := id) nics []
      simp only [id_eq, List.map_id, List.nil_append] at hloop
      rw [Except.map, ← hloop]
      exact reaches_pure
  simp only [hbind, reaches_getLnetNetwork]
  constructor
  · rintro ⟨nics, σ₁, ⟨rfl, rfl⟩, hr, hσ⟩
    exact ⟨hr, hσ⟩
  · rintro ⟨hr, hσ⟩
    exact ⟨_, _, ⟨rfl, rfl⟩, hr, hσ⟩

/-- A file without the parameter, or one that is not there, stands for the default interface. -/
theorem readNics_default {nic : String} {content : Except OsError String} (hcomma : ',' ∉ nic.toList)
    (h : (∃ err, content = .error err ∧ err.kind = .notExist) ∨ ∃ s, content = .ok s ∧ Blank s) :
    (readNics nic content).map (List.filter (· ≠ nic)) = .ok [] := by
  have hparse : ∀ n ∈ parseLnetNetwork (tcp0 nic), n = nic := by
    intro n hn
    by_cases hempty : nic = ""
    · have hnil : parseLnetNetwork (tcp0 "") = [] := by decide
      rw [hempty, hnil] at hn
      cases hn
    have h := parse_tcp0_intercalate [nic] (by simpa using hempty) (by simpa using hcomma)
    simp only [String.intercalate_singleton] at h
    rw [h] at hn
    exact List.mem_singleton.mp hn
  have hfilter : (parseLnetNetwork (tcp0 nic)).filter (· ≠ nic) = [] := by
    rw [List.filter_eq_nil_iff]
    intro n hn
    simp [hparse n hn]
  rcases h with ⟨err, rfl, hkind⟩ | ⟨s, rfl, hblank⟩
  · simp only [readNics, if_pos hkind, Except.map, hfilter]
  · simp only [readNics, trimSpace_blank hblank, if_true, Except.map, hfilter]

/-- What the driver reads where the installer has written. -/
theorem readNics_build {nics : List String} {primaryNic : String} (disableMultiNIC : Bool)
    {pre post : String} (hprimary : primaryNic ≠ "")
    (hcomma : ∀ nic ∈ primaryNic :: nics, ',' ∉ nic.toList) (hpre : Blank pre) (hpost : Blank post) :
    readNics primaryNic (.ok (pre ++ buildLnetNetworkString nics primaryNic disableMultiNIC ++ post)) =
      .ok (primaryNic :: otherNics nics primaryNic disableMultiNIC) := by
  have htrim : trimSpace (pre ++ buildLnetNetworkString nics primaryNic disableMultiNIC ++ post) =
      buildLnetNetworkString nics primaryNic disableMultiNIC := by
    rw [build_eq]
    exact trimSpace_tcp0 _ hpre hpost
  have hne : buildLnetNetworkString nics primaryNic disableMultiNIC ≠ "" := by
    rw [build_eq]
    exact tcp0_ne_empty _
  simp only [readNics, htrim, if_neg hne, parse_build hprimary hcomma]

/-- **The installer and the driver agree on the network interfaces.** Whatever white space the
parameter is read back with, the driver reads the primary interface first, and its additional
interfaces are the other interfaces that the installer was given, in the same order and number; there
is none if more than one interface is not wanted, or if the parameter is missing or blank. Reading
changes nothing.

SOURCE: pkg/kmod_installer/kmod_installer.go:111-145, 301-310, 325-336; cmd/csi_driver/main.go:117-133
-/
theorem driver_reads_nics (nics : List String) (primaryNic : String) (disableMultiNIC : Bool)
    (σ : KmodState) (hprimary : primaryNic ≠ "")
    (hcomma : ∀ nic ∈ primaryNic :: nics, ',' ∉ nic.toList) :
    (∀ pre post, Blank pre → Blank post →
      σ.file lnetNetworkParameterFile =
        .ok (pre ++ buildLnetNetworkString nics primaryNic disableMultiNIC ++ post) →
      (∀ r σ', Reaches KmodState.step (getLnetNetwork "" lnetNetworkParameterFile primaryNic) σ r σ' ↔
        r = .ok (primaryNic :: otherNics nics primaryNic disableMultiNIC) ∧ σ' = σ) ∧
      ∀ r σ', Reaches KmodState.step (additionalNics primaryNic) σ r σ' ↔
        r = .ok (otherNics nics primaryNic disableMultiNIC) ∧ σ' = σ) ∧
    ((∃ err, σ.file lnetNetworkParameterFile = .error err ∧ err.kind = .notExist) ∨
        (∃ s, σ.file lnetNetworkParameterFile = .ok s ∧ Blank s) →
      ∀ r σ', Reaches KmodState.step (additionalNics primaryNic) σ r σ' ↔ r = .ok [] ∧ σ' = σ) := by
  refine ⟨fun pre post hpre hpost hfile => ?_, fun hfile r σ' => ?_⟩
  · have hread := readNics_build disableMultiNIC hprimary hcomma hpre hpost
    refine ⟨fun r σ' => ?_, fun r σ' => ?_⟩
    · rw [reaches_getLnetNetwork, hfile, hread]
    · have hothers : (primaryNic :: otherNics nics primaryNic disableMultiNIC).filter (· ≠ primaryNic) =
          otherNics nics primaryNic disableMultiNIC := by
        rw [List.filter_cons_of_neg (by simp), List.filter_eq_self]
        intro nic hnic
        unfold otherNics at hnic
        split at hnic
        · cases hnic
        · exact (List.mem_filter.mp hnic).2
      rw [reaches_additionalNics, hfile, hread, Except.map, hothers]
  · rw [reaches_additionalNics, readNics_default (hcomma primaryNic (by simp)) hfile]

/-- The primary interface is left out, and the other one counts twice. -/
theorem driver_reads_nics_twice :
    ∃ σ : KmodState, σ.file lnetNetworkParameterFile = .ok "tcp0(eth0,eth1,eth1)\n" ∧
      ∀ r σ', Reaches KmodState.step (additionalNics "eth0") σ r σ' ↔
        r = .ok ["eth1", "eth1"] ∧ σ' = σ := by
  refine ⟨⟨fun _ => .ok "tcp0(eth0,eth1,eth1)\n"⟩, rfl, ?_⟩
  have h := driver_reads_nics ["eth1", "eth0", "eth1"] "eth0" false
    ⟨fun _ => .ok "tcp0(eth0,eth1,eth1)\n"⟩ (by decide)
    (fun nic hnic => by
      have hall : ["eth0", "eth1", "eth0", "eth1"].all (fun nic => !nic.toList.contains ',') = true := by
        decide
      simpa using List.all_eq_true.mp hall nic hnic)
  exact (h.1 "" "\n" (fun c hc => by cases hc) (List.all_eq_true.mp (by decide))
    (by decide +kernel)).2

end Start

end LustreCsi.Analysis.LnetNetwork
