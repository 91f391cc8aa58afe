import LustreCsi.Computation.Separator
import LustreCsi.Model.Controller
import Mathlib.Data.List.TakeWhile

/-!
# Resource names and volume IDs

An instance has a resource name for the API and a volume ID for the driver.
`parseInstanceFullName_eq_ok` and `parseVolumeID_eq_ok` say exactly what the two parsers accept:
only the volume ID is cut at a colon.
-/

set_option autoImplicit false

namespace LustreCsi.Interface

open LustreCsi.Computation Model

variable {p l n id : String} {i : CloudInstance}

/-- A component of a resource name: a non-empty text without slash. -/
structure Component (x : String) : Prop where
  nonempty : x ≠ ""
  slash : '/' ∉ x.toList

instance (x : String) : Decidable (Component x) :=
  decidable_of_iff (x ≠ "" ∧ '/' ∉ x.toList) ⟨fun h => ⟨h.1, h.2⟩, fun h => ⟨h.1, h.2⟩⟩

/-- The resource name of an instance. -/
def resourceName (project location name : String) : String :=
  s!"projects/{project}/locations/{location}/instances/{name}"

/-- The full name of an instance is its resource name. -/
theorem instanceFullName_eq (i : ServiceInstance) :
    instanceFullName i = resourceName i.project i.location i.name := rfl

/-- The characters of a resource name. -/
theorem resourceName_toList (project location name : String) :
    (resourceName project location name).toList = "projects/".toList ++ (project.toList ++
      ("/locations/".toList ++ (location.toList ++ ("/instances/".toList ++ name.toList)))) := by
  have h : resourceName project location name =
    "projects/" ++ project ++ "/locations/" ++ location ++ "/instances/" ++ name := rfl
  simp only [h, String.toList_append, List.append_assoc]

/-- The characters of the name of an instance below its location. -/
theorem nameBelow_toList (parent name : String) :
    (nameBelow parent name).toList = parent.toList ++ ("/instances/".toList ++ name.toList) := by
  have h : nameBelow parent name = parent ++ "/instances/" ++ name := rfl
  simp only [h, String.toList_append, List.append_assoc]

/-- The characters of the name of a location. -/
theorem locationName_toList (project location : String) :
    (locationName project location).toList =
      "projects/".toList ++ (project.toList ++ ("/locations/".toList ++ location.toList)) := by
  have h : locationName project location = "projects/" ++ project ++ "/locations/" ++ location := rfl
  simp only [h, String.toList_append, List.append_assoc]

/-- The name of an instance below its location is its resource name. -/
theorem nameBelow_eq (project location name : String) :
    nameBelow (locationName project location) name = resourceName project location name := by
  apply String.toList_injective
  simp only [nameBelow_toList, locationName_toList, resourceName_toList, List.append_assoc]

/-- There is no slash in a component. -/
theorem Component.ne_slash {x : String} (h : Component x) : ∀ c ∈ x.toList, ¬c = '/' := by
  rintro c hc rfl
  exact h.slash hc

/-- `strings.Split` gives the pieces without separator that the text is joined from. -/
theorem split_eq_iff {s : String} {sep : Char} {ls : List String} :
    split s sep = ls ↔ ls ≠ [] ∧ (∀ l ∈ ls, sep ∉ l.toList) ∧
      s.toList = [sep].intercalate (ls.map String.toList) := by
  have hmap : split s sep = ls ↔ s.toList.splitOn sep = ls.map String.toList := by
    constructor
    · rintro rfl
      simp [split]
    · intro h
      simp [split, h]
  rw [hmap, splitOn_eq_iff]
  simp

/-! ## Resource names -/

/-- The ways in which the pattern of a resource name matches. -/
theorem instanceFullName_way {start : Bool} {inp : List Char} {w : Regex.Way} :
    w ∈ (Regex.cat [.lit "projects/", .grp (.rep notSlash 1 none), .lit "/locations/",
      .grp (.rep notSlash 1 none), .lit "/instances/", .grp (.rep notSlash 1 none), .eot]).run
        start inp ↔
      ∃ p l n : String, Component p ∧ Component l ∧ Component n ∧
        w = ([p.toList, l.toList, n.toList], []) ∧ inp = (resourceName p l n).toList := by
  have hcomp : ∀ v : List Char, (∀ c ∈ v, notSlash c = true) → 1 ≤ v.length →
      Component (String.ofList v) := fun v hv hlen =>
    ⟨by simpa using List.length_pos_iff.mp hlen, fun hmem => by
      simpa [notSlash] using hv '/' (by simpa using hmem)⟩
  have hchars : ∀ {x : String}, Component x → (∀ c ∈ x.toList, notSlash c = true) ∧
      1 ≤ x.toList.length := fun {x} hx =>
    ⟨fun c hc => by simpa [notSlash] using hx.ne_slash c hc,
      List.length_pos_iff.mpr (by simpa using hx.nonempty)⟩
  obtain ⟨caps, rest⟩ := w
  simp only [Regex.cat, Regex.mem_run_seq, Regex.mem_run_lit, Regex.mem_run_grp_rep,
    Regex.mem_run_eot, Regex.mem_run_eps, Prod.mk.injEq]
  constructor
  · rintro ⟨_, m₁, _, ⟨rfl, rfl⟩, ⟨_, m₂, _, ⟨p, rfl, rfl, hp, hplen, -⟩, ⟨_, m₃, _, ⟨rfl, rfl⟩,
      ⟨_, m₄, _, ⟨l, rfl, rfl, hl, hllen, -⟩, ⟨_, m₅, _, ⟨rfl, rfl⟩, ⟨_, m₆, _,
      ⟨n, rfl, rfl, hn, hnlen, -⟩, ⟨_, m₇, _, ⟨rfl, rfl, rfl⟩, ⟨rfl, rfl⟩, rfl⟩, rfl⟩, rfl⟩, rfl⟩,
      rfl⟩, rfl⟩, rfl⟩
    exact ⟨String.ofList p, String.ofList l, String.ofList n, hcomp p hp hplen, hcomp l hl hllen,
      hcomp n hn hnlen, ⟨by simp, rfl⟩, by
        simp only [resourceName_toList, String.toList_ofList, List.append_nil]⟩
  · rintro ⟨p, l, n, hp, hl, hn, ⟨rfl, rfl⟩, rfl⟩
    refine ⟨_, _, _, ⟨rfl, resourceName_toList p l n⟩, ⟨_, _, _, ⟨p.toList, rfl, rfl, (hchars hp).1, (hchars hp).2, by simp⟩,
      ⟨_, _, _, ⟨rfl, rfl⟩, ⟨_, _, _, ⟨l.toList, rfl, rfl, (hchars hl).1, (hchars hl).2, by simp⟩,
      ⟨_, _, _, ⟨rfl, rfl⟩, ⟨_, _, _, ⟨n.toList, rfl, (List.append_nil _).symm, (hchars hn).1,
      (hchars hn).2, by simp⟩, ⟨_, _, _, ⟨rfl, rfl, rfl⟩, ⟨rfl, rfl⟩, rfl⟩, rfl⟩, rfl⟩, rfl⟩, rfl⟩,
      rfl⟩, rfl⟩

/-- A resource name has one set of components. -/
theorem resourceName_inj {p' l' n' : String} (hp : Component p) (hl : Component l)
    (hp' : Component p') (hl' : Component l') (h : resourceName p l n = resourceName p' l' n') :
    p = p' ∧ l = l' ∧ n = n' := by
  have h₁ : p.toList ++ '/' :: ("locations/".toList ++ (l.toList ++ '/' :: ("instances/".toList ++
      n.toList))) = p'.toList ++ '/' :: ("locations/".toList ++ (l'.toList ++ '/' ::
      ("instances/".toList ++ n'.toList))) := by
    have hlist := congrArg String.toList h
    rw [resourceName_toList, resourceName_toList, List.append_cancel_left_eq] at hlist
    exact hlist
  obtain ⟨h₂, -, h₃⟩ := cut_first hp.ne_slash hp'.ne_slash rfl rfl h₁
  rw [List.append_cancel_left_eq] at h₃
  obtain ⟨h₄, -, h₅⟩ := cut_first hl.ne_slash hl'.ne_slash rfl rfl h₃
  rw [List.append_cancel_left_eq] at h₅
  exact ⟨String.toList_injective h₂, String.toList_injective h₄, String.toList_injective h₅⟩

/-- A location has one project and one zone: slashes within them would show as further
components. -/
theorem locationName_inj {p' l' : String} (hp' : Component p') (hl' : Component l')
    (h : locationName p l = locationName p' l') : p = p' ∧ l = l' := by
  have hlist : p.toList ++ '/' :: ("locations/".toList ++ l.toList) =
      p'.toList ++ '/' :: ("locations/".toList ++ l'.toList) := by
    have := congrArg String.toList h
    rw [locationName_toList, locationName_toList, List.append_cancel_left_eq] at this
    exact this
  have hslash : '/' ∉ p.toList := by
    have hcount := congrArg (List.count '/') hlist
    simp only [List.count_append, List.count_cons_self, List.count_eq_zero_of_not_mem hp'.slash,
      List.count_eq_zero_of_not_mem hl'.slash] at hcount
    exact List.count_eq_zero.mp (by omega)
  have hne : ∀ c ∈ p.toList, ¬c = '/' := by
    rintro c hc rfl
    exact hslash hc
  obtain ⟨h₁, -, h₂⟩ := cut_first hne hp'.ne_slash rfl rfl hlist
  rw [List.append_cancel_left_eq] at h₂
  exact ⟨String.toList_injective h₁, String.toList_injective h₂⟩

/-- What `parseInstanceFullName` accepts. -/
theorem parseInstanceFullName_eq_ok {s : String} :
    parseInstanceFullName s = .ok (p, l, n) ↔
      Component p ∧ Component l ∧ Component n ∧ s = resourceName p l n := by
  constructor
  · intro h
    simp only [parseInstanceFullName] at h
    split at h
    · rename_i project location name hfind
      simp only [Except.ok.injEq, Prod.mk.injEq] at h
      obtain ⟨rfl, rfl, rfl⟩ := h
      rw [Regex.find, instanceFullNameRegex, Regex.findFrom_anchored, Option.map_map,
        Option.map_eq_some_iff] at hfind
      obtain ⟨w, hw, hcaps⟩ := hfind
      obtain ⟨p, l, n, hp, hl, hn, rfl, hs⟩ := instanceFullName_way.mp (List.mem_of_mem_head? hw)
      simp only [Function.comp_apply, List.map_cons, List.map_nil, String.ofList_toList,
        List.cons.injEq, and_true] at hcaps
      obtain ⟨rfl, rfl, rfl⟩ := hcaps
      exact ⟨hp, hl, hn, String.toList_injective hs⟩
    · simp at h
  · rintro ⟨hp, hl, hn, rfl⟩
    have hway : (([p.toList, l.toList, n.toList], []) : Regex.Way) ∈
        Regex.run _ true (resourceName p l n).toList :=
      instanceFullName_way.mpr ⟨p, l, n, hp, hl, hn, rfl, rfl⟩
    have hfind := Regex.find_anchored_of_unique hway fun w' hw' => by
      obtain ⟨p', l', n', hp', hl', hn', rfl, hs⟩ := instanceFullName_way.mp hw'
      obtain ⟨rfl, rfl, rfl⟩ := resourceName_inj hp hl hp' hl' (String.toList_injective hs)
      rfl
    simp only [parseInstanceFullName, instanceFullNameRegex, hfind, List.map_cons, List.map_nil,
      String.ofList_toList]

/-! ## Names that the API accepts -/

/-- A valid parent is the name of a location. -/
theorem exists_of_validParent {parent : String} (h : validParent parent = true) :
    ∃ p l, Component p ∧ Component l ∧ parent = locationName p l := by
  simp only [validParent] at h
  split at h
  · rename_i a p b l hsplit
    simp only [Bool.and_eq_true, beq_iff_eq, bne_iff_ne, ne_eq] at h
    obtain ⟨⟨⟨rfl, hp⟩, rfl⟩, hl⟩ := h
    obtain ⟨-, hfree, hs⟩ := split_eq_iff.mp hsplit
    refine ⟨p, l, ⟨hp, hfree p (by simp)⟩, ⟨hl, hfree l (by simp)⟩, String.toList_injective ?_⟩
    rw [hs, locationName_toList]
    simp [List.intercalate]
  · simp at h

/-- A valid instance ID is a component. -/
theorem component_of_validInstanceID (h : validInstanceID id = true) :
    Component id := by
  simp only [validInstanceID, Bool.and_eq_true, List.all_eq_true] at h
  obtain ⟨⟨⟨hchars, -⟩, hhead⟩, -⟩ := h
  constructor
  · rintro rfl
    simp at hhead
  · intro hmem
    exact absurd (hchars '/' hmem) (by decide)

/-- A resource name below a location has one location and one ID. -/
theorem nameBelow_inj {parent parent' id' : String} (hid : Component id) (hid' : Component id')
    (h : nameBelow parent id = nameBelow parent' id') :
    parent = parent' ∧ id = id' := by
  have hlist : (parent.toList ++ "/instances".toList) ++ '/' :: id.toList =
      (parent'.toList ++ "/instances".toList) ++ '/' :: id'.toList := by
    have := congrArg String.toList h
    simp only [nameBelow_toList] at this
    simpa using this
  obtain ⟨hparent, -, hids⟩ := cut_last hid.ne_slash hid'.ne_slash rfl rfl hlist
  exact ⟨String.toList_injective (List.append_cancel_right hparent), String.toList_injective hids⟩

/-! ## Reported instances -/

/-- A mount point that is empty or has an `@` has an address. -/
theorem exists_parseInstanceIP {mountPoint : String}
    (h : mountPoint = "" ∨ '@' ∈ mountPoint.toList) :
    ∃ ip, parseInstanceIP mountPoint = .ok ip := by
  by_cases hempty : mountPoint = ""
  · exact ⟨"", by simp [parseInstanceIP, hempty]⟩
  have hat := h.resolve_left hempty
  obtain ⟨hne, hfree, hs⟩ := split_eq_iff.mp (rfl : split mountPoint '@' = split mountPoint '@')
  cases hsplit : split mountPoint '@' with
  | nil => exact absurd hsplit hne
  | cons ip ls =>
    cases ls with
    | nil =>
      rw [hsplit] at hs hfree
      have hip : mountPoint.toList = ip.toList := by simpa [List.intercalate] using hs
      exact absurd (hip ▸ hat) (hfree ip (by simp))
    | cons rest ls => exact ⟨ip, by simp [parseInstanceIP, hempty, hsplit]⟩

/-- What the driver makes of a reported instance. -/
theorem cloudInstanceToServiceInstance_eq_ok {si : ServiceInstance} :
    cloudInstanceToServiceInstance i = .ok si ↔ ∃ p l n ip, Component p ∧ Component l ∧
      Component n ∧ i.name = resourceName p l n ∧ parseInstanceIP i.mountPoint = .ok ip ∧
      si = { name := n, location := l, project := p, network := i.network
             description := i.description, state := some i.state, labels := i.labels
             capacityGib := i.capacityGib, filesystem := i.filesystem, ip := ip
             perUnitStorageThroughput := i.perUnitStorageThroughput
             mountPoint := i.mountPoint } := by
  constructor
  · intro h
    cases hname : parseInstanceFullName i.name with
    | error err => simp [cloudInstanceToServiceInstance, hname, bind, Except.bind] at h
    | ok pln =>
      obtain ⟨p, l, n⟩ := pln
      cases hip : parseInstanceIP i.mountPoint with
      | error err => simp [cloudInstanceToServiceInstance, hname, hip, bind, Except.bind] at h
      | ok ip =>
        obtain ⟨hp, hl, hn, heq⟩ := parseInstanceFullName_eq_ok.mp hname
        refine ⟨p, l, n, ip, hp, hl, hn, heq, rfl, ?_⟩
        simpa [cloudInstanceToServiceInstance, hname, hip, bind, Except.bind, pure, Except.pure]
          using h.symm
  · rintro ⟨p, l, n, ip, hp, hl, hn, hname, hip, rfl⟩
    have hparse := parseInstanceFullName_eq_ok.mpr ⟨hp, hl, hn, hname⟩
    simp [cloudInstanceToServiceInstance, hparse, hip, bind, Except.bind, pure, Except.pure]

/-- What the driver makes of a reported instance has its name and its labels. -/
theorem fullName_of_conversion {si : ServiceInstance}
    (h : cloudInstanceToServiceInstance i = .ok si) :
    instanceFullName si = i.name ∧ si.labels = i.labels := by
  obtain ⟨p, l, n, ip, -, -, -, hname, -, rfl⟩ := cloudInstanceToServiceInstance_eq_ok.mp h
  exact ⟨by rw [hname]; rfl, rfl⟩

/-- An instance that cannot be converted is not one that is missing. -/
theorem isNotFoundErr_of_conversion {err : ApiError}
    (h : cloudInstanceToServiceInstance i = .error err) : isNotFoundErr err = false := by
  cases hname : parseInstanceFullName i.name with
  | error e =>
    obtain rfl : e = err := by
      simpa [cloudInstanceToServiceInstance, hname, bind, Except.bind] using h
    simp only [parseInstanceFullName] at hname
    split at hname <;> cases hname
    rfl
  | ok pln =>
    cases hip : parseInstanceIP i.mountPoint with
    | error e =>
      obtain rfl : e = err := by
        simpa [cloudInstanceToServiceInstance, hname, hip, bind, Except.bind] using h
      simp only [parseInstanceIP] at hip
      split at hip
      · cases hip
      split at hip <;> cases hip
      rfl
    | ok ip =>
      simp [cloudInstanceToServiceInstance, hname, hip, bind, Except.bind, pure, Except.pure] at h

/-! ## Volume IDs -/

/-- The characters of a volume ID. -/
theorem instanceToVolumeID_toList (i : ServiceInstance) :
    (instanceToVolumeID i).toList =
      i.project.toList ++ '/' :: (i.location.toList ++ '/' :: i.name.toList) := by
  have h : instanceToVolumeID i = i.project ++ "/" ++ i.location ++ "/" ++ i.name := rfl
  simp [h]

/-- A printed volume ID has one set of components. -/
theorem instanceToVolumeID_inj {i i' : ServiceInstance} (hp : Component i.project)
    (hl : Component i.location) (hp' : Component i'.project) (hl' : Component i'.location)
    (h : instanceToVolumeID i = instanceToVolumeID i') :
    i.project = i'.project ∧ i.location = i'.location ∧ i.name = i'.name := by
  have hlist := congrArg String.toList h
  rw [instanceToVolumeID_toList, instanceToVolumeID_toList] at hlist
  obtain ⟨h₁, -, h₂⟩ := cut_first hp.ne_slash hp'.ne_slash rfl rfl hlist
  obtain ⟨h₃, -, h₄⟩ := cut_first hl.ne_slash hl'.ne_slash rfl rfl h₂
  exact ⟨String.toList_injective h₁, String.toList_injective h₃, String.toList_injective h₄⟩

/-- What `ParseVolumeID` accepts: up to the first colon, three components. -/
theorem parseVolumeID_eq_ok :
    parseVolumeID id = .ok (p, l, n) ↔ Component p ∧ Component l ∧ Component n ∧
      id.toList.takeWhile (· ≠ ':') = p.toList ++ '/' :: (l.toList ++ '/' :: n.toList) := by
  have hsplit : ∀ p l n : String, split (String.ofList (id.toList.takeWhile (· ≠ ':'))) '/' =
      [p, l, n] ↔ ('/' ∉ p.toList ∧ '/' ∉ l.toList ∧ '/' ∉ n.toList) ∧
        id.toList.takeWhile (· ≠ ':') = p.toList ++ '/' :: (l.toList ++ '/' :: n.toList) := by
    intro p l n
    rw [split_eq_iff]
    simp [List.intercalate]
  constructor
  · intro h
    simp only [parseVolumeID] at h
    split at h
    · rename_i project location name heq
      split at h
      · simp at h
      rename_i hne
      simp only [Except.ok.injEq, Prod.mk.injEq] at h
      obtain ⟨rfl, rfl, rfl⟩ := h
      obtain ⟨⟨hp, hl, hn⟩, hid⟩ := (hsplit _ _ _).mp heq
      simp only [not_or] at hne
      exact ⟨⟨hne.1, hp⟩, ⟨hne.2.1, hl⟩, ⟨hne.2.2, hn⟩, hid⟩
    · simp at h
  · rintro ⟨hp, hl, hn, hid⟩
    have heq := (hsplit p l n).mpr ⟨⟨hp.slash, hl.slash, hn.slash⟩, hid⟩
    simp only [parseVolumeID, heq, hp.nonempty, hl.nonempty, hn.nonempty, or_self, if_false]

/-- The components of a volume ID have no colon. -/
theorem colon_of_parseVolumeID (h : parseVolumeID id = .ok (p, l, n)) :
    ':' ∉ p.toList ∧ ':' ∉ l.toList ∧ ':' ∉ n.toList := by
  obtain ⟨-, -, -, hid⟩ := parseVolumeID_eq_ok.mp h
  have hcolon : ':' ∉ id.toList.takeWhile (· ≠ ':') := fun hmem => by
    simpa using List.mem_takeWhile_imp hmem
  rw [hid] at hcolon
  simp only [List.mem_append, List.mem_cons, not_or] at hcolon
  exact ⟨hcolon.1, hcolon.2.2.1, hcolon.2.2.2.2⟩

/-- The printed volume ID of an instance is parsed back exactly if it has no colon. -/
theorem parseVolumeID_instanceToVolumeID {i : ServiceInstance} (hp : Component i.project)
    (hl : Component i.location) (hn : Component i.name) :
    parseVolumeID (instanceToVolumeID i) = .ok (i.project, i.location, i.name) ↔
      ':' ∉ i.project.toList ∧ ':' ∉ i.location.toList ∧ ':' ∉ i.name.toList := by
  refine ⟨colon_of_parseVolumeID, fun ⟨hcp, hcl, hcn⟩ => ?_⟩
  refine parseVolumeID_eq_ok.mpr ⟨hp, hl, hn, ?_⟩
  rw [instanceToVolumeID_toList, List.takeWhile_eq_self_iff]
  intro c hc
  have hne : c ≠ ':' := by
    rintro rfl
    simp [hcp, hcl, hcn] at hc
  simpa using hne

end LustreCsi.Interface
