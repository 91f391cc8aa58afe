import LustreCsi.Analysis.SingleCreation
import LustreCsi.Interface.ControllerSample

/-!
# The network of a new instance

A storage class names the network of its volumes, by its full name or by its name in the
controller's project. The pattern for full names is not anchored, and a value that matches neither
pattern leaves the preset network in place. `network_honoured_iff` says which values are honoured.
-/

set_option autoImplicit false

namespace LustreCsi.Analysis.NetworkParameter

open LustreCsi.Computation Model Interface SingleCreation

variable {v : String}

/-- The full name of a network.
SOURCE: docs/dynamic-prov-guide.md:31-33 -/
def FullName (v : String) : Prop := ∃ p n, Component p ∧ Component n ∧ v = networkFullName p n

/-- The name of a network in its project: a small letter, then small letters, digits and hyphens, with no
hyphen at the end. -/
structure ShortName (v : String) : Prop where
  first : ∃ c ∈ v.toList.head?, c.isLower = true
  chars : ∀ c ∈ v.toList, c = '-' ∨ isAlnumLower c = true
  last : v.toList.getLast? ≠ some '-'

/-- The network is the one that the parameter names. -/
def Honoured (project v network : String) : Prop :=
  (network = v ∧ FullName v) ∨ (network = networkFullName project v ∧ ShortName v)

/-! ## The two patterns -/

/-- The characters of a full network name. -/
theorem networkFullName_toList (p n : String) : (networkFullName p n).toList =
    "projects/".toList ++ (p.toList ++ ("/global/networks/".toList ++ n.toList)) := by
  have h : networkFullName p n = "projects/" ++ p ++ "/global/networks/" ++ n := rfl
  simp [h]

/-- The pattern of short names, read off the text. -/
theorem matchString_networkNamePattern :
    matchString networkNamePattern v = true ↔ ∃ c : Char, c.isLower = true ∧ (v.toList = [c] ∨
      ∃ w d, v.toList = c :: (w ++ [d]) ∧ (∀ x ∈ w, (x == '-' || isAlnumLower x) = true) ∧
        isAlnumLower d = true) := by
  rw [matchString, networkNamePattern, Regex.isSome_find_anchored]
  simp only [Regex.cat, Regex.mem_run_seq, Regex.mem_run_cls, Regex.mem_run_opt, Regex.mem_run_grp,
    Regex.mem_run_rep, Regex.mem_run_eot, Regex.mem_run_eps, Prod.mk.injEq]
  constructor
  · rintro ⟨⟨caps, rest⟩, _, m₁, _, ⟨-, c, hc, hv⟩, ⟨_, m₂, _, hopt, ⟨_, m₃, _, ⟨rfl, -, -⟩, -, -⟩, -⟩, -⟩
    refine ⟨c, hc, ?_⟩
    rcases hopt with ⟨_, ⟨_, m, _, ⟨-, w, rfl, hw, -, -⟩, ⟨-, d, hd, rfl⟩, -⟩, -⟩ | ⟨-, rfl⟩
    · exact .inr ⟨w, d, hv, hw, hd⟩
    · exact .inl hv
  · rintro ⟨c, hc, hv | ⟨w, d, hv, hw, hd⟩⟩
    · exact ⟨([], []), [], [], [], ⟨rfl, c, hc, hv⟩,
        ⟨[], [], [], .inr ⟨rfl, rfl⟩, ⟨[], [], [], ⟨rfl, rfl, rfl⟩, ⟨rfl, rfl⟩, rfl⟩, rfl⟩, rfl⟩
    · exact ⟨([_], []), [], w ++ [d], [_], ⟨rfl, c, hc, hv⟩,
        ⟨[_], [], [], .inl ⟨[], ⟨[], [d], [], ⟨rfl, w, rfl, hw, Nat.zero_le _, by simp⟩,
          ⟨rfl, d, hd, rfl⟩, rfl⟩, rfl⟩, ⟨[], [], [], ⟨rfl, rfl, rfl⟩, ⟨rfl, rfl⟩, rfl⟩, rfl⟩, rfl⟩

/-- The pattern of short names says what a short name is. -/
theorem matchString_shortName : matchString networkNamePattern v = true ↔ ShortName v := by
  have hlower : ∀ c : Char, c.isLower = true → isAlnumLower c = true := fun c hc => by
    simp [isAlnumLower, hc]
  have halnum : ∀ c : Char, isAlnumLower c = true → c ≠ '-' := by
    rintro c hc rfl
    exact absurd hc (by decide)
  rw [matchString_networkNamePattern]
  constructor
  · rintro ⟨c, hc, hv | ⟨w, d, hv, hw, hd⟩⟩
    · refine ⟨⟨c, by rw [hv]; rfl, hc⟩, fun x hx => ?_, ?_⟩
      · rw [hv, List.mem_singleton] at hx
        exact .inr (hx ▸ hlower c hc)
      · rw [hv]
        simpa using halnum c (hlower c hc)
    · refine ⟨⟨c, by rw [hv]; rfl, hc⟩, fun x hx => ?_, ?_⟩
      · rw [hv, List.mem_cons, List.mem_append, List.mem_singleton] at hx
        rcases hx with rfl | hx | rfl
        · exact .inr (hlower _ hc)
        · simpa using hw x hx
        · exact .inr hd
      · rw [hv, ← List.cons_append, List.getLast?_concat]
        simpa using halnum d hd
  · rintro ⟨⟨c, hfirst, hc⟩, hchars, hlast⟩
    refine ⟨c, hc, ?_⟩
    obtain ⟨rest, hv⟩ : ∃ rest, v.toList = c :: rest := by
      cases hlist : v.toList with
      | nil => simp [hlist] at hfirst
      | cons d rest =>
        rw [hlist] at hfirst
        exact ⟨rest, by rw [Option.some.inj hfirst]⟩
    rcases List.eq_nil_or_concat' rest with rfl | ⟨w, d, rfl⟩
    · exact .inl hv
    rw [hv] at hchars hlast
    rw [← List.cons_append, List.getLast?_concat] at hlast
    refine .inr ⟨w, d, hv, fun x hx => ?_, ?_⟩
    · simpa using hchars x (by simp [hx])
    · exact (hchars d (by simp)).resolve_left fun hd => hlast (congrArg some hd)

/-- A full name matches its pattern. -/
theorem matchString_of_fullName (h : FullName v) :
    matchString networkFullNamePattern v = true := by
  obtain ⟨p, n, hp, hn, rfl⟩ := h
  have hclass : ∀ {x : String}, Component x → ∀ c ∈ x.toList, notSlash c = true := by
    intro x hx c hc
    simpa [notSlash] using fun heq : c = '/' => hx.slash (heq ▸ hc)
  have hway : ∀ start, (([p.toList, n.toList], []) : Regex.Way) ∈
      Regex.run networkFullNamePattern start (networkFullName p n).toList := by
    intro start
    simp only [networkFullNamePattern, networkFullName_toList, Regex.cat, Regex.mem_run_seq,
      Regex.mem_run_lit, Regex.mem_run_grp_rep, Regex.mem_run_eps]
    refine ⟨[], _, [p.toList, n.toList], ⟨rfl, rfl⟩, ⟨[p.toList], _, [n.toList], ⟨p.toList, rfl, rfl,
      hclass hp, ?_, by simp⟩, ⟨[], n.toList, [n.toList], ⟨rfl, rfl⟩, ⟨[n.toList], [], [],
      ⟨n.toList, rfl, by simp, hclass hn, ?_, by simp⟩, rfl, rfl⟩, rfl⟩, rfl⟩, rfl⟩
    · exact List.length_pos_iff.mpr (by simpa using hp.nonempty)
    · exact List.length_pos_iff.mpr (by simpa using hn.nonempty)
  rw [matchString, Regex.find, Option.isSome_map, Option.isSome_iff_ne_none]
  exact Regex.findFrom_ne_none (u := []) hway true

/-- What matches the pattern of full names has a slash. -/
theorem slash_of_matchString (h : matchString networkFullNamePattern v = true) :
    '/' ∈ v.toList := by
  obtain ⟨caps, hcaps⟩ := Option.isSome_iff_exists.mp h
  obtain ⟨u, suf, start, w, hv, hw, -⟩ := Regex.exists_way_of_find hcaps
  simp only [networkFullNamePattern, Regex.cat, Regex.mem_run_seq, Regex.mem_run_lit] at hw
  obtain ⟨_, m, _, ⟨-, rfl⟩, -⟩ := hw
  rw [hv]
  simp

/-! ## The network that is asked for -/

/-- The network of a new instance is the one that the parameter names, if it names one. -/
theorem honoured_networkOf {s : ControllerServer} {params : StrMap}
    (hv : params.lookup keyNetwork = some v) :
    Honoured s.project v (networkOf s params) ↔ FullName v ∨ ShortName v := by
  refine ⟨Or.imp And.right And.right, fun hname => ?_⟩
  rw [networkOf, hv]
  dsimp only
  rcases hname with hfull | hshort
  · rw [if_pos (matchString_of_fullName hfull)]
    exact .inl ⟨rfl, hfull⟩
  have hslash : ¬matchString networkFullNamePattern v = true := fun hmatch => by
    rcases hshort.chars _ (slash_of_matchString hmatch) with h | h
    · exact absurd h (by decide)
    · exact absurd h (by decide)
  rw [if_neg hslash, if_pos (matchString_shortName.mpr hshort)]
  exact .inr ⟨rfl, hshort⟩

/-- **The network parameter is honoured exactly if it names a network.** An instance that `CreateVolume`
asks the backend for is on the network that the parameter names, in full or in the controller's project, if
and only if the value is a full name or a short name. The backend may do what it likes.

SOURCE: pkg/csi_driver/controller.go:343-366 -/
theorem network_honoured_iff {σ : Type} {step : σ → (o : CloudOp) → ctrlSig.Res o → σ → Prop} {a b : σ}
    {s : ControllerServer} {req : CreateVolumeRequest} {params : StrMap} {v : String}
    {tr : List (Event ctrlSig)} {r : Except Status (Option Volume)}
    (hparams : normalizeParams s.unicode req.parameters = .ok params)
    (hv : params.lookup keyNetwork = some v) (hrun : Exec step (createVolume s req) a tr r b)
    {parent id : String} {spec : InstanceSpec} {e : Event ctrlSig} (he : e ∈ tr)
    (hcreate : e.1 = .createInstance parent id spec) :
    Honoured s.project v spec.network ↔ FullName v ∨ ShortName v := by
  obtain ⟨ni, params', hval, -, -, -, hnetwork⟩ :=
    Exec.mem_all (all_createVolume_asksFor s req) hrun e he parent id spec hcreate
  obtain ⟨capBytes, -, hparams', hprepare⟩ := validateCreate_inv hval
  obtain rfl : params = params' := Except.ok.inj (hparams.symm.trans hparams')
  obtain ⟨location, throughput, -, -, rfl⟩ := prepareNewInstance_eq_ok hprepare
  rw [hnetwork]
  exact honoured_networkOf hv

/-! ## Three values -/

section Sample

open Interface.ControllerSample

/-- A request with the given network. -/
def networked (v : String) : CreateVolumeRequest :=
  { createRequest "vol" with parameters := parameters.insert "network" v }

/-- The networks of the instances that are asked for. -/
def networksOf (ops : List CloudOp) : List String :=
  ops.filterMap fun o => match o with
    | .createInstance _ _ spec => some spec.network
    | _ => none

/-- A call with the value `v` asks for an instance on `network`. -/
def Asked (v network : String) : Prop :=
  ∃ params tr r b e parent id spec,
    normalizeParams server.unicode (networked v).parameters = .ok params ∧
    params.lookup keyNetwork = some v ∧
    Exec CloudState.step (createVolume server (networked v)) empty tr r b ∧ e ∈ tr ∧
    e.1 = .createInstance parent id spec ∧ spec.network = network

/-- The value as the driver reads it, and the networks that a call with it asks for. -/
def played (v : String) : Option String × Option (List String) :=
  ((normalizeParams server.unicode (networked v).parameters).toOption.bind (·.lookup keyNetwork),
    (playTrace (S := ctrlSig) CloudState.exec (createVolume server (networked v)) creating empty).map
      fun x => networksOf (x.1.map Sigma.fst))

/-- What the driver makes of three values. -/
theorem played_values :
    ["Prod_Net", "x/projects/p/global/networks/n/y", "prod"].map played =
      [(some "Prod_Net", some ["projects/proj/global/networks/default"]),
        (some "x/projects/p/global/networks/n/y", some ["x/projects/p/global/networks/n/y"]),
        (some "prod", some ["projects/proj/global/networks/prod"])] := by
  decide +kernel

/-- A played call is a call that asks for an instance. -/
theorem asked_of_played {network : String} (h : played v = (some v, some [network])) :
    Asked v network := by
  obtain ⟨hparams, hplay⟩ := Prod.ext_iff.mp h
  obtain ⟨params, hok, hlookup⟩ := Option.bind_eq_some_iff.mp hparams
  obtain ⟨⟨tr, r, b⟩, htrace, hnetworks⟩ := Option.map_eq_some_iff.mp hplay
  have hrun := playTrace_exec _ htrace
  have hmem : network ∈ networksOf (tr.map Sigma.fst) := hnetworks ▸ List.mem_singleton_self _
  obtain ⟨o, ho, hspec⟩ := List.mem_filterMap.mp hmem
  obtain ⟨e, he, rfl⟩ := List.mem_map.mp ho
  split at hspec
  · rename_i parent id spec hcreate
    have hparams' : normalizeParams server.unicode (networked v).parameters = .ok params := by
      cases hnorm : normalizeParams server.unicode (networked v).parameters with
      | error err => simp [hnorm, Except.toOption] at hok
      | ok params' =>
        rw [hnorm] at hok
        exact congrArg Except.ok (Option.some.inj hok)
    exact ⟨params, tr, r, b, e, parent, id, spec, hparams', hlookup, hrun, he, hcreate,
      Option.some.inj hspec⟩
  · cases hspec

/-- How a full name begins. -/
theorem FullName.head (h : FullName v) :
    v.toList.head? = some 'p' ∧ '/' ∈ v.toList := by
  obtain ⟨p, n, -, -, rfl⟩ := h
  rw [networkFullName_toList]
  exact ⟨rfl, by simp⟩

/-- A name with other characters puts the instance on the default network, and a text that only contains a
full name is sent as it is. -/
theorem network_not_honoured :
    (Asked "Prod_Net" "projects/proj/global/networks/default" ∧
      ¬Honoured server.project "Prod_Net" "projects/proj/global/networks/default") ∧
    Asked "x/projects/p/global/networks/n/y" "x/projects/p/global/networks/n/y" ∧
      ¬Honoured server.project "x/projects/p/global/networks/n/y" "x/projects/p/global/networks/n/y" := by
  have hplayed := played_values
  simp only [List.map_cons, List.map_nil, List.cons.injEq] at hplayed
  refine ⟨⟨asked_of_played hplayed.1, ?_⟩, asked_of_played hplayed.2.1, ?_⟩
  · rintro (⟨-, hfull⟩ | ⟨-, hshort⟩)
    · exact absurd hfull.head.2 (by decide)
    · exact absurd (matchString_shortName.mpr hshort) (by decide)
  · rintro (⟨-, hfull⟩ | ⟨-, hshort⟩)
    · exact absurd hfull.head.1 (by decide)
    · exact absurd (matchString_shortName.mpr hshort) (by decide)

/-- A short name puts the instance on that network of the controller's project. -/
theorem network_honoured_prod :
    Asked "prod" "projects/proj/global/networks/prod" ∧
      Honoured server.project "prod" "projects/proj/global/networks/prod" := by
  have hplayed := played_values
  simp only [List.map_cons, List.map_nil, List.cons.injEq] at hplayed
  have hasked := asked_of_played hplayed.2.2.1
  refine ⟨hasked, ?_⟩
  obtain ⟨params, tr, r, b, e, parent, id, spec, hparams, hv, hrun, he, hcreate, hspec⟩ := hasked
  have hiff := network_honoured_iff hparams hv hrun he hcreate
  rw [hspec] at hiff
  exact hiff.mpr (.inr (matchString_shortName.mp (by decide)))

end Sample

end LustreCsi.Analysis.NetworkParameter
