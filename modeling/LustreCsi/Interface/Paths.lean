import LustreCsi.Computation.Separator
import LustreCsi.Model.Node

/-!
# Paths as strings

The model names the paths below `globalMountRoot` by constructors; the code joins and cuts strings.
Paths of different keys are different strings (`Path.key_eq_of_render_eq`), the key that
`cleanUpIAMReference` extracts from a reference path is that of the reference (`extractKey_ref`),
and what `getPodUIDFromTargetPath` finds is one path component (`getPodUIDFromTargetPath_spec`).
-/

set_option autoImplicit false

namespace LustreCsi.Interface

open LustreCsi.Computation Model

/-- A hexadecimal digit is no separator. -/
theorem notSeparator_of_mem_key (k : Key) (c : Char) (hc : c ∈ k.name.toList) :
    notSeparator c = true := by
  have hdigit : ∀ d ∈ "0123456789abcdef".toList, notSeparator d = true :=
    List.all_eq_true.mp (by decide)
  exact hdigit c (k.hex c hc)

/-- There is no slash in the name of a key. -/
theorem ne_slash_of_mem_key (k : Key) (c : Char) (hc : c ∈ k.name.toList) : ¬c = '/' := by
  rintro rfl
  exact absurd (notSeparator_of_mem_key k _ hc) (by decide)

/-- A string with a slash is not the name of a key. -/
theorem ne_name_of_slash (k : Key) {x : String} (h : '/' ∈ x.toList) : x ≠ k.name := by
  rintro rfl
  exact ne_slash_of_mem_key k '/' h rfl

/-- Keys with the same name are the same. -/
theorem Key.eq_of_name {k k' : Key} (h : k.name = k'.name) : k = k' := by
  cases k
  cases k'
  simp only at h
  subst h
  rfl

/-! ## Paths below the root -/

/-- A path of a key is the root, the name of the key, and nothing or a further part. -/
theorem Path.render_toList {p : Path} {k : Key} (h : p.key? = some k) :
    ∃ rest, (p.render ++ "/").toList =
      (globalMountRoot ++ "/").toList ++ (k.name.toList ++ '/' :: rest) := by
  cases p with
  | outside q => simp [Path.key?] at h
  | keyDir k' =>
    obtain rfl : k' = k := by simpa [Path.key?] using h
    exact ⟨[], by simp [Path.render]⟩
  | mount k' =>
    obtain rfl : k' = k := by simpa [Path.key?] using h
    exact ⟨"mount/".toList, by simp [Path.render]⟩
  | refs k' =>
    obtain rfl : k' = k := by simpa [Path.key?] using h
    exact ⟨"refs/".toList, by simp [Path.render]⟩
  | ref k' u =>
    obtain rfl : k' = k := by simpa [Path.key?] using h
    exact ⟨"refs/".toList ++ u.toList ++ "/".toList, by simp [Path.render]⟩
  | token k' =>
    obtain rfl : k' = k := by simpa [Path.key?] using h
    exact ⟨"token/".toList, by simp [Path.render]⟩
  | tokenTmp k' =>
    obtain rfl : k' = k := by simpa [Path.key?] using h
    exact ⟨"token.tmp/".toList, by simp [Path.render]⟩

/-- Different keys have no path in common. -/
theorem Path.key_eq_of_render_eq {p q : Path} {k k' : Key} (hp : p.key? = some k)
    (hq : q.key? = some k') (h : p.render = q.render) : k = k' := by
  obtain ⟨rest, hrest⟩ := Path.render_toList hp
  obtain ⟨rest', hrest'⟩ := Path.render_toList hq
  rw [h, hrest', List.append_cancel_left_eq] at hrest
  obtain ⟨hname, -, -⟩ := cut_first (p := (· = '/')) (ne_slash_of_mem_key k')
    (ne_slash_of_mem_key k) rfl rfl hrest
  exact (Key.eq_of_name (String.toList_injective hname)).symm

/-! ## Reference paths -/

/-- The ways in which `iamKeyExtractRegex` matches. -/
theorem iamKeyExtractRegex_way {start : Bool} {inp : List Char} {w : Regex.Way} :
    w ∈ iamKeyExtractRegex.run start inp ↔ ∃ x y z key uid, w = ([key], []) ∧
      inp = x :: key ++ y :: "refs".toList ++ z :: uid ∧ isSeparator x = true ∧
      isSeparator y = true ∧ isSeparator z = true ∧ (∀ c ∈ key, notSeparator c = true) ∧
      key ≠ [] ∧ (∀ c ∈ uid, notSeparator c = true) ∧ uid ≠ [] := by
  obtain ⟨caps, rest⟩ := w
  simp only [iamKeyExtractRegex, Regex.cat, Regex.mem_run_seq, Regex.mem_run_cls,
    Regex.mem_run_lit, Regex.mem_run_grp_rep, Regex.mem_run_rep, Regex.mem_run_eot,
    Regex.mem_run_eps, Prod.mk.injEq]
  constructor
  · rintro ⟨_, m₁, _, ⟨rfl, x, hx, rfl⟩, ⟨_, m₂, _, ⟨key, rfl, rfl, hkey, hne, -⟩, ⟨_, m₃, _,
      ⟨rfl, y, hy, rfl⟩, ⟨_, m₄, _, ⟨rfl, rfl⟩, ⟨_, m₅, _, ⟨rfl, z, hz, rfl⟩, ⟨_, m₆, _,
      ⟨rfl, uid, rfl, huid, hne', -⟩, ⟨_, m₇, _, ⟨rfl, rfl, rfl⟩, ⟨rfl, rfl⟩, rfl⟩, rfl⟩, rfl⟩,
      rfl⟩, rfl⟩, rfl⟩, rfl⟩
    refine ⟨x, y, z, key, uid, ⟨rfl, rfl⟩, by simp, hx, hy, hz, hkey, ?_, huid, ?_⟩
    · exact List.length_pos_iff.mp hne
    · exact List.length_pos_iff.mp hne'
  · rintro ⟨x, y, z, key, uid, ⟨rfl, rfl⟩, rfl, hx, hy, hz, hkey, hne, huid, hne'⟩
    refine ⟨_, _, _, ⟨rfl, x, hx, rfl⟩, ⟨_, _, _, ⟨key, rfl, List.append_assoc _ _ _, hkey, ?_, by simp⟩,
      ⟨_, _, _, ⟨rfl, y, hy, rfl⟩, ⟨_, _, _, ⟨rfl, rfl⟩, ⟨_, _, _, ⟨rfl, z, hz, rfl⟩, ⟨_, _, _,
      ⟨rfl, uid, (List.append_nil _).symm, huid, ?_, by simp⟩, ⟨_, _, _, ⟨rfl, rfl, rfl⟩,
      ⟨rfl, rfl⟩, rfl⟩, rfl⟩, rfl⟩, rfl⟩, rfl⟩, rfl⟩, rfl⟩
    · exact List.length_pos_iff.mpr hne
    · exact List.length_pos_iff.mpr hne'

/-- A reference path is cut into root, key and pod UID in one way only. -/
theorem refPath_cut {pre key uid : List Char} {x y z : Char} {k : Key} {u : String}
    (hu : ∀ c ∈ u.toList, notSeparator c = true) (hx : isSeparator x = true)
    (hy : isSeparator y = true) (hz : isSeparator z = true)
    (hkey : ∀ c ∈ key, notSeparator c = true) (huid : ∀ c ∈ uid, notSeparator c = true)
    (h : (Path.ref k u).render.toList = pre ++ (x :: key ++ y :: "refs".toList ++ z :: uid)) :
    key = k.name.toList := by
  have hnot : ∀ {l : List Char}, (∀ c ∈ l, notSeparator c = true) →
      ∀ c ∈ l, ¬isSeparator c = true := fun hl c hc => by simpa [notSeparator] using hl c hc
  have hslash : isSeparator '/' = true := by decide
  have hrefs : ∀ c ∈ "refs".toList, ¬isSeparator c = true := hnot (List.all_eq_true.mp (by decide))
  have h₁ : globalMountRoot.toList ++ '/' :: k.name.toList ++ '/' :: "refs".toList ++ '/' :: u.toList
      = pre ++ x :: key ++ y :: "refs".toList ++ z :: uid := by
    simpa [Path.render] using h
  obtain ⟨h₂, -, -⟩ := cut_last (hnot hu) (hnot huid) hslash hz h₁
  obtain ⟨h₃, -, -⟩ := cut_last hrefs hrefs hslash hy h₂
  obtain ⟨-, -, h₄⟩ := cut_last (hnot (notSeparator_of_mem_key k)) (hnot hkey) hslash hx h₃
  exact h₄.symm

/-- The name of a key names it. -/
theorem keyNamed_name (k : Key) : keyNamed k.name = some k := by
  rw [keyNamed, dif_pos ⟨k.nonempty, List.all_eq_true.mpr fun c hc => by simpa using k.hex c hc⟩]

/-- From the reference path of a key the code extracts that key. -/
theorem extractKey_ref (k : Key) {u : String} (hne : u ≠ "")
    (hu : ∀ c ∈ u.toList, notSeparator c = true) : extractKey (.ref k u) = some k := by
  have hfind : iamKeyExtractRegex.find (Path.ref k u).render = some [k.name] := by
    have hs : (Path.ref k u).render.toList = globalMountRoot.toList ++
        ('/' :: k.name.toList ++ '/' :: "refs".toList ++ '/' :: u.toList) := by
      simp [Path.render]
    have hway : ∀ start, (([k.name.toList], []) : Regex.Way) ∈ iamKeyExtractRegex.run start
        ('/' :: k.name.toList ++ '/' :: "refs".toList ++ '/' :: u.toList) := fun start =>
      iamKeyExtractRegex_way.mpr ⟨'/', '/', '/', k.name.toList, u.toList, rfl, rfl, by decide,
        by decide, by decide, notSeparator_of_mem_key k, k.nonempty, hu, by simpa using hne⟩
    rw [Regex.find_of_unique hs hway]
    · simp
    · intro pre suf start w hs' hw
      obtain ⟨x, y, z, key, uid, rfl, rfl, hx, hy, hz, hkey, -, huid, -⟩ :=
        iamKeyExtractRegex_way.mp hw
      simp only [refPath_cut hu hx hy hz hkey huid hs']
  rw [extractKey, hfind]
  exact keyNamed_name k

/-! ## Target paths -/

/-- What is taken for the pod UID of a target path is one path component of it. -/
theorem getPodUIDFromTargetPath_spec {path uid : String}
    (h : getPodUIDFromTargetPath path = some uid) :
    '/' ∈ path.toList ∧ uid ≠ "" ∧ ∀ c ∈ uid.toList, c ≠ '/' := by
  simp only [getPodUIDFromTargetPath, Option.bind_eq_some_iff] at h
  obtain ⟨caps, hfind, hhead⟩ := h
  obtain ⟨pre, suf, start, ⟨wcaps, rest⟩, hs, hw, rfl⟩ := Regex.exists_way_of_find hfind
  simp only [podUIDRegex, Regex.cat, Regex.mem_run_seq, Regex.mem_run_lit, Regex.mem_run_grp_rep,
    Regex.mem_run_eps, Prod.mk.injEq] at hw
  obtain ⟨_, m₁, _, ⟨rfl, rfl⟩, ⟨_, m₂, _, ⟨v, rfl, rfl, hv, hne, -⟩, ⟨_, m₃, _, ⟨rfl, rfl⟩,
    ⟨rfl, rfl⟩, rfl⟩, rfl⟩, rfl⟩ := hw
  obtain rfl : uid = String.ofList v := by simpa using hhead.symm
  refine ⟨by simp [hs], ?_, fun c hc => ?_⟩
  · intro hempty
    have : v = [] := by simpa using congrArg String.toList hempty
    simp [this] at hne
  · simpa [notSlash] using hv c (by simpa using hc)

/-- A pod UID without backslashes has no separator, once it is found in a target path. -/
theorem notSeparator_of_uid {path uid : String} (h : getPodUIDFromTargetPath path = some uid)
    (hback : '\\' ∉ uid.toList) : ∀ c ∈ uid.toList, notSeparator c = true := by
  intro c hc
  have hslash := (getPodUIDFromTargetPath_spec h).2.2 c hc
  have hne : c ≠ '\\' := fun heq => hback (heq ▸ hc)
  simp [notSeparator, isSeparator, hslash, hne]

end LustreCsi.Interface
