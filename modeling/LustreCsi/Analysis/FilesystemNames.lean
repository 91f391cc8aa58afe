import LustreCsi.Computation.CheckThenAct
import LustreCsi.Interface.ControllerRuns
import LustreCsi.Interface.ControllerSample
import LustreCsi.Interface.Text

/-!
# Generated file-system names

`generateUniqueFilesystemName` lists the instances of the region and draws names until one is not
among them; the instance is created afterwards, under the lock of the volume name only.
`names_unique`: the names in a region are unique in every run in which no handler asks for a
creation while another one of the region is between its listing and its creation (`Alone`).
`not_alwaysUnique` is a run in which two handlers draw the same name.
-/

set_option autoImplicit false

namespace LustreCsi.Analysis.FilesystemNames

open LustreCsi.Computation Model Interface

variable {s' a : CloudState} {z zone id : String} {w : World ctrlSig CloudState}
  {i : ServiceInstance}

/-! ## The API and its zones -/

section Api

variable (project : String) (zones : List String)

/-- A listing of the locations that ends without an error contains the zones. -/
def listsZones : (o : CloudOp) → o.Res → Bool
  | .listLocations _, r => r.2.isSome || zones.all fun z => r.1.contains z
  | _, _ => true

/-- No instance disappears or gets another file-system name. -/
def persists (s s' : CloudState) : Bool :=
  s.instances.all fun i => (s'.find i.name).map (·.filesystem) == (s.find i.name).map (·.filesystem)

/-- A step of an API that lists the given zones and does not remove instances. -/
def listedStep (s : CloudState) (o : ctrlSig.Op) (r : ctrlSig.Res o) (s' : CloudState) : Prop :=
  s.step o r s' ∧ listsZones zones o r = true ∧ persists s s' = true

/-- A step of the backend on its own that does not remove instances. -/
def Progresses (s s' : CloudState) : Prop := s.Progresses s' ∧ persists s s' = true

/-- The resource name is that of an instance in a zone of the region. -/
def InRegion (region n : String) : Prop :=
  ∃ z ∈ zones, getRegionFromZone z = .ok region ∧
    ∃ x, Component x ∧ n = nameBelow (locationName project z) x

/-- Of two instances of one region with the same file-system name, both were there at first. -/
def UniqueNames (s₀ s : CloudState) : Prop :=
  ∀ region n n' i i', n ≠ n' → InRegion project zones region n → InRegion project zones region n' →
    s.find n = some i → s.find n' = some i' → i.filesystem = i'.filesystem →
    s₀.find n ≠ none ∧ s₀.find n' ≠ none

end Api

/-- A handler names its instance from the listing of the locations to the creation; one that fails
before ends with the release of its lock. -/
def naming : Window ctrlSig where
  opens o := ∃ project, o = .listLocations project
  acts o := ∃ parent id spec, o = .createInstance parent id spec
  ends o := ∃ x, o = .release x

instance : DecidablePred naming.opens := fun o =>
  decidable_of_iff ((match o with | .listLocations _ => true | _ => false) = true)
    (by cases o <;> simp [naming])

instance : DecidablePred naming.acts := fun o =>
  decidable_of_iff ((match o with | .createInstance _ _ _ => true | _ => false) = true)
    (by cases o <;> simp [naming])

instance : DecidablePred naming.ends := fun o =>
  decidable_of_iff ((match o with | .release _ => true | _ => false) = true)
    (by cases o <;> simp [naming])

/-- The region in which a request asks for an instance. -/
def regionOf (s : ControllerServer) (req : CreateVolumeRequest) : Option String :=
  match validateCreate s req with
  | .ok (i, _) => (getRegionFromZone i.location).toOption
  | .error _ => none

/-- No creation has just been asked for while another handler of the region was naming. -/
abbrev Alone (s : ControllerServer) (reqs : ℕ → CreateVolumeRequest)
    (w : World ctrlSig CloudState) : Prop :=
  naming.Alone (fun t => regionOf s (reqs t)) w

/-! ## Facts about names -/

section Facts

variable {project : String} {zones : List String}
  {s : CloudState}

/-- The test as a statement about all instances. -/
theorem persists_iff : persists s s' = true ↔
    ∀ n i, s.find n = some i → ∃ i', s'.find n = some i' ∧ i'.filesystem = i.filesystem := by
  simp only [persists, List.all_eq_true, beq_iff_eq]
  constructor
  · intro h n i hi
    have hsame := h i (List.mem_of_find?_eq_some hi)
    rw [name_of_find hi, hi] at hsame
    simpa using hsame
  · intro h i hmem
    cases hfind : s.find i.name with
    | none => exact absurd rfl (find_eq_none.mp hfind i hmem)
    | some j =>
      obtain ⟨j', hj', hfs⟩ := h i.name j hfind
      simp [hj', hfs]

/-- What two steps keep, both together keep. -/
theorem persists_trans {s₁ s₂ s₃ : CloudState} (h : persists s₁ s₂ = true)
    (h' : persists s₂ s₃ = true) : persists s₁ s₃ = true := by
  rw [persists_iff] at *
  intro n i hi
  obtain ⟨i', hi', hfs⟩ := h n i hi
  obtain ⟨i'', hi'', hfs'⟩ := h' n i' hi'
  exact ⟨i'', hi'', hfs'.trans hfs⟩

/-- Nothing is lost where nothing happens. -/
theorem persists_refl (s : CloudState) : persists s s = true :=
  persists_iff.mpr fun _ i hi => ⟨i, hi, rfl⟩

/-- No instance has appeared. -/
def NoneNew (s s' : CloudState) : Prop := ∀ n, s'.find n ≠ none → s.find n ≠ none

/-- No instance has appeared in the region. -/
def NoneNewIn (project : String) (zones : List String) (region : String) (s s' : CloudState) : Prop :=
  ∀ n, InRegion project zones region n → s'.find n ≠ none → s.find n ≠ none

/-- Without new instances in the region, the file-system names there are those from before. -/
theorem NoneNewIn.filesystem {region n : String} {i' : CloudInstance}
    (h : NoneNewIn project zones region s s') (hp : persists s s' = true)
    (hn : InRegion project zones region n) (hi' : s'.find n = some i') :
    ∃ i, s.find n = some i ∧ i.filesystem = i'.filesystem := by
  obtain ⟨i, hi⟩ := Option.ne_none_iff_exists'.mp (h n hn (by simp [hi']))
  obtain ⟨j, hj, hfs⟩ := persists_iff.mp hp n i hi
  obtain rfl : i' = j := by simpa [hi'] using hj
  exact ⟨i, hi, hfs.symm⟩

/-- Without new instances the names stay unique. -/
theorem UniqueNames.of_noneNew {s₀ : CloudState} (h : UniqueNames project zones s₀ s)
    (hnew : NoneNew s s') (hp : persists s s' = true) : UniqueNames project zones s₀ s' := by
  intro region n n' i i' hne hn hn' hi hi' hfs
  have hnewIn : NoneNewIn project zones region s s' := fun n _ => hnew n
  obtain ⟨j, hj, hfsj⟩ := hnewIn.filesystem hp hn hi
  obtain ⟨j', hj', hfsj'⟩ := hnewIn.filesystem hp hn' hi'
  exact h region n n' j j' hne hn hn' hj hj' (by rw [hfsj, hfsj', hfs])

/-- Zones of one project with the same resource name are equal. -/
theorem zone_inj {z' : String} (h : locationName project z = locationName project z') : z = z' := by
  have hlist := congrArg String.toList h
  simp only [locationName_toList, List.append_cancel_left_eq] at hlist
  exact String.toList_injective hlist

/-- Changing an instance makes none. -/
theorem noneNew_modify (s : CloudState) (n : String) {f : CloudInstance → CloudInstance}
    (hf : ∀ i, (f i).name = i.name) : NoneNew s (s.modify n f) := by
  intro m hm hnone
  refine hm ?_
  rw [find_modify s n m hf, hnone]
  simp

/-- Removing an instance makes none. -/
theorem noneNew_remove (s : CloudState) (n : String) : NoneNew s (s.remove n) := by
  intro m hm hnone
  refine hm ?_
  rw [find_remove, hnone]
  simp

/-- The end of an operation brings no instance. -/
theorem noneNew_complete {k : ℕ} {ending : Ending} (h : s.complete k ending = some s') :
    NoneNew s s' := by
  have hsame : NoneNew s s := fun n hn => hn
  obtain ⟨o, -, -, ⟨ip, -, rfl⟩ | ⟨code, message, -, rfl⟩⟩ := complete_eq_some h
  · change NoneNew s (o.work.elim s (s.finish o.target ip))
    rcases o.work with _ | _ | _ | capacityGib
    · exact hsame
    · exact noneNew_modify s _ fun _ => rfl
    · exact noneNew_remove s _
    · exact noneNew_modify s _ fun _ => rfl
  · change NoneNew s (o.work.elim s (s.abandon o.target))
    rcases o.work with _ | _ | _ | capacityGib
    · exact hsame
    · exact noneNew_remove s _
    · exact hsame
    · exact hsame

/-- The operations of `CreateVolume` other than the creation. -/
def Quiet (o : CloudOp) : Prop :=
  Reads o ∨ (∃ x, o = .tryAcquire x ∨ o = .release x) ∨ ∃ k, o = .waitInstance k

/-- They bring no instance. -/
theorem noneNew_of_quiet {o : CloudOp} {r : o.Res} (ho : Quiet o) (h : CloudOutcome s o r s') :
    NoneNew s s' := by
  have hsame : NoneNew s s := fun n hn => hn
  obtain hreads | ⟨x, rfl | rfl⟩ | ⟨k, rfl⟩ := ho
  · exact state_of_reads hreads h ▸ hsame
  · obtain ⟨-, -, rfl⟩ | ⟨-, -, rfl⟩ := h
    · exact hsame
    · exact hsame
  · obtain rfl : s' = _ := h
    exact hsame
  · obtain ⟨rfl | ⟨ending, hc⟩, -⟩ := h
    · exact hsame
    · exact noneNew_complete hc

/-- An instance belongs to the region of its zone only. -/
theorem InRegion.eq {region x : String} (h : InRegion project zones region
    (nameBelow (locationName project z) x)) (hx : Component x) : getRegionFromZone z = .ok region := by
  obtain ⟨z', -, hregion, x', hx', hname⟩ := h
  obtain ⟨hparent, -⟩ := nameBelow_inj hx hx' hname
  rw [zone_inj hparent]
  exact hregion

end Facts

/-! ## The contract of the handlers -/

/-- What the names of the zones are checked for: no instance disappears, and a region is left alone
when no instance appears in it. -/
def names (project : String) (zones : List String) (s₀ : CloudState) : Checked CloudState String where
  inv := UniqueNames project zones s₀
  mono s s' := persists s s' = true
  calm region := NoneNewIn project zones region
  mono_refl := persists_refl
  mono_trans _ _ _ := persists_trans
  calm_refl _ _ _ _ h := h
  calm_trans _ _ _ _ h h' n hn hfind := h n hn (h' n hn hfind)

section Contract

variable {s : ControllerServer} {reqs : ℕ → CreateVolumeRequest} {zones : List String}
  {s₀ : CloudState} {t : ℕ} {project region : String} {φ : CloudState → Prop}

variable (s reqs zones s₀) in
/-- The contract of the handlers. -/
abbrev contract : Contract ctrlSig CloudState :=
  checkContract naming (fun t => regionOf s (reqs t)) (names s.project zones s₀)

/-- Without new instances nothing happens to the names. -/
theorem inert_of_noneNew {b : CloudState} (h : NoneNew a b) (hp : persists a b = true) :
    (names s.project zones s₀).Inert a b :=
  ⟨fun hi => UniqueNames.of_noneNew hi h hp, hp, fun _ n _ => h n⟩

/-- All calls but the creation leave the names of every region. -/
theorem inert_of_quiet (o : CloudOp) (a : CloudState) (r : o.Res) (b : CloudState) (ho : Quiet o)
    (hs : listedStep zones a o r b) : (names s.project zones s₀).Inert a b :=
  inert_of_noneNew (noneNew_of_quiet ho (cloudOutcome_of_step hs.1)) hs.2.2

/-- A program of quiet operations is safe. -/
theorem safe_of_quiet {α : Type} {p : CtrlM α} (hp : p.All Quiet) (w : World ctrlSig CloudState) :
    Safe (listedStep zones) t (contract s reqs zones s₀) (fun _ _ => True) p w :=
  safe_of_inert hp inert_of_quiet w

/-- The rule for a listing or the draw while the handler is naming. -/
theorem safe_lists {α : Type} {o : CloudOp} {f : o.Res → CtrlM α}
    {Q : α → World ctrlSig CloudState → Prop} (ho : Reads o)
    (hregion : regionOf s (reqs t) = some region) (hφ : (names s.project zones s₀).Lasting region φ)
    (hw : naming.Knows t φ w)
    (hf : ∀ (w : World ctrlSig CloudState) r, CloudOutcome w.state o r w.state → φ w.state →
      (∀ ψ : CloudState → Prop, ψ w.state → naming.Knows t ψ (w.after t ⟨o, r⟩ w.state)) →
      Safe (listedStep zones) t (contract s reqs zones s₀) Q (f r) (w.after t ⟨o, r⟩ w.state)) :
    Safe (listedStep zones) t (contract s reqs zones s₀) Q (invoke o >>= f) w := by
  refine safe_inert (Window.Knows.stable hregion hφ) hw (fun w hw => .inr ⟨?_, ?_, hw.1⟩)
    (fun a r b => inert_of_quiet o a r b (.inl ho)) fun w r s' hw _ hs hknow => ?_
  · rintro ⟨parent, id, spec, rfl⟩
    exact ho
  · rintro ⟨x, rfl⟩
    exact ho
  · have hout := cloudOutcome_of_step hs.1
    obtain rfl := state_of_reads ho hout
    exact hf w r hout hw.2 hknow

/-- The names contain that of each instance in the zones that are in the region. -/
def Covers (project : String) (zones : List String) (region : String) (listed : List String)
    (names : List String) (s : CloudState) : Prop :=
  ∀ z ∈ listed, z ∈ zones → getRegionFromZone z = .ok region → ∀ x, Component x → ∀ i,
    s.find (nameBelow (locationName project z) x) = some i → i.filesystem ∈ names

/-- What a listing covers it covers until an instance of the region is new. -/
theorem Covers.lasting (listed names : List String) :
    (FilesystemNames.names project zones s₀).Lasting region
      (Covers project zones region listed names) := by
  intro s s' hp hnone h z hz hmem hr x hx i' hi'
  obtain ⟨i, hi, hfs⟩ := hnone.filesystem hp ⟨z, hmem, hr, x, hx, rfl⟩ hi'
  rw [← hfs]
  exact h z hz hmem hr x hx i hi

/-- The file-system names of converted instances. -/
theorem filesystem_of_mapM {l : List CloudInstance} {converted : List ServiceInstance}
    (h : l.mapM cloudInstanceToServiceInstance = .ok converted) :
    converted.map (·.filesystem) = l.map (·.filesystem) := by
  induction l generalizing converted with
  | nil =>
    obtain rfl : [] = converted := by simpa [pure, Except.pure] using h
    rfl
  | cons i l ih =>
    cases hi : cloudInstanceToServiceInstance i with
    | error err => simp [List.mapM_cons, hi, bind, Except.bind] at h
    | ok si =>
      cases hl : l.mapM cloudInstanceToServiceInstance with
      | error err => simp [List.mapM_cons, hi, hl, bind, Except.bind] at h
      | ok rest =>
        obtain rfl : si :: rest = converted := by
          simpa [List.mapM_cons, hi, hl, bind, Except.bind, pure, Except.pure] using h
        obtain ⟨p, l', n, ip, -, -, -, -, -, rfl⟩ := cloudInstanceToServiceInstance_eq_ok.mp hi
        simp [ih hl]

/-- A complete listing of a zone covers it. -/
theorem covers_listing {listed : List CloudInstance} {converted : List ServiceInstance}
    {s : CloudState}
    (hlisting : listing (s.instancesOf (locationName project z)) listed none = true)
    (hconv : listed.mapM cloudInstanceToServiceInstance = .ok converted) :
    Covers project zones region [z] (converted.map (·.filesystem)) s := by
  intro z' hz' _ _ x _ i hi
  obtain rfl : z' = z := by simpa using hz'
  rw [filesystem_of_mapM hconv]
  have hperm : listed.Perm (s.instancesOf (locationName project z')) := by simpa [listing] using hlisting
  refine List.mem_map_of_mem (hperm.mem_iff.mpr ?_)
  refine List.mem_filter.mpr ⟨List.mem_of_find?_eq_some hi, ?_⟩
  rw [name_of_find hi]
  have hname : nameBelow (locationName project z') x = locationName project z' ++ "/instances/" ++ x := rfl
  simp [hasPrefix, hname]

/-- What is known when names were asked for: the fact from before and, if there was no error, that
the names cover the zones. -/
def Gathered (project : String) (zones : List String) (region : String) (φ : CloudState → Prop)
    (listed : List String) (r : Except ApiError (List String)) (s : CloudState) : Prop :=
  φ s ∧ ∀ names, r = .ok names → Covers project zones region listed names s

/-- What has been gathered stays right until an instance of the region is new. -/
theorem Gathered.lasting (hφ : (names project zones s₀).Lasting region φ) (listed : List String)
    (r : Except ApiError (List String)) :
    (names project zones s₀).Lasting region (Gathered project zones region φ listed r) :=
  fun a a' hp hn h => ⟨hφ a a' hp hn h.1, fun names hr =>
    Covers.lasting listed names a a' hp hn (h.2 names hr)⟩

/-- A listing that fails gathers nothing. -/
theorem gathered_error {s : CloudState} (h : φ s) (listed : List String) (err : ApiError) :
    Gathered project zones region φ listed (.error err) s :=
  ⟨h, fun names hr => by cases hr⟩

/-- What the listing of one zone yields. -/
theorem safe_listInstance (hregion : regionOf s (reqs t) = some region)
    (hφ : (names s.project zones s₀).Lasting region φ) (z : String) (hw : naming.Knows t φ w) :
    Safe (listedStep zones) t (contract s reqs zones s₀)
      (fun r => naming.Knows t (Gathered s.project zones region φ [z] (r.map (List.map (·.filesystem)))))
      (listInstance s.project z) w := by
  refine safe_lists trivial hregion hφ hw fun w r hout hφw hknow => ?_
  obtain ⟨found, err⟩ := r
  have hret : ∀ r : Except ApiError (List ServiceInstance),
      Gathered s.project zones region φ [z] (r.map (List.map (·.filesystem))) w.state →
      Safe (listedStep zones) t (contract s reqs zones s₀)
        (fun r => naming.Knows t (Gathered s.project zones region φ [z] (r.map (List.map (·.filesystem)))))
        (pure r : CtrlM (Except ApiError (List ServiceInstance)))
        (w.after t ⟨.listInstances (locationName s.project z), (found, err)⟩ w.state) :=
    fun r hr => Safe.ret (Window.Knows.stable hregion (Gathered.lasting hφ _ _)) (hknow _ hr)
      fun _ _ h => h
  dsimp only
  split
  · exact hret _ (gathered_error hφw _ _)
  · exact hret _ (gathered_error hφw _ _)
  · rename_i instances hconv
    refine hret _ ⟨hφw, fun names hr => ?_⟩
    cases hr
    exact covers_listing hout.2 hconv

/-- What the loop over the zones collects. -/
theorem safe_existingFSNames (hregion : regionOf s (reqs t) = some region)
    (hφ : (names s.project zones s₀).Lasting region φ) (listed : List String)
    (hw : naming.Knows t φ w) :
    Safe (listedStep zones) t (contract s reqs zones s₀)
      (fun r => naming.Knows t (Gathered s.project zones region φ listed r))
      (existingFSNames s.project listed) w := by
  have hret : ∀ {φ : CloudState → Prop} (listed : List String) (r : Except ApiError (List String))
      {w : World ctrlSig CloudState}, (names s.project zones s₀).Lasting region φ →
      naming.Knows t (Gathered s.project zones region φ listed r) w →
      Safe (listedStep zones) t (contract s reqs zones s₀)
        (fun r => naming.Knows t (Gathered s.project zones region φ listed r))
        (pure r : CtrlM (Except ApiError (List String))) w :=
    fun listed r w hφ hw => Safe.ret (Window.Knows.stable hregion (Gathered.lasting hφ listed r)) hw
      fun _ _ h => h
  induction listed generalizing w φ with
  | nil =>
    refine hret [] _ hφ ⟨hw.1, hw.2, fun names _ z hz => ?_⟩
    simp at hz
  | cons z listed ih =>
    refine Safe.bind (safe_listInstance hregion hφ z hw) fun r w _ hw => ?_
    cases r with
    | error err => exact hret _ _ hφ ⟨hw.1, gathered_error hw.2.1 _ err⟩
    | ok instances =>
      -- What was listed of the first zone lasts while the other zones are listed.
      refine Safe.bind (ih (Gathered.lasting hφ [z] _) hw) fun r w _ hw => ?_
      obtain ⟨hn, ⟨hφw, hfirst⟩, hrest⟩ := hw
      cases r with
      | error err => exact hret _ _ hφ ⟨hn, gathered_error hφw _ err⟩
      | ok names =>
        refine hret _ _ hφ ⟨hn, hφw, fun names' hr z' hz' hmem hzone x hx i hi => ?_⟩
        cases hr
        rcases List.mem_cons.mp hz' with rfl | hz'
        · exact List.mem_append_left _ (hfirst _ rfl z' (by simp) hmem hzone x hx i hi)
        · exact List.mem_append_right _ (hrest names rfl z' hz' hmem hzone x hx i hi)

/-- No instance of the region has the file-system name. -/
def Fresh (project : String) (zones : List String) (region fsname : String) (s : CloudState) : Prop :=
  ∀ n i, InRegion project zones region n → s.find n = some i → i.filesystem ≠ fsname

/-- A name that nobody in the region has stays so until an instance of the region is new. -/
theorem Fresh.lasting (fsname : String) :
    (names project zones s₀).Lasting region (Fresh project zones region fsname) := by
  intro s s' hp hnone h n i' hn hi'
  obtain ⟨i, hi, hfs⟩ := hnone.filesystem hp hn hi'
  rw [← hfs]
  exact h n i hn hi

/-- A name outside a complete listing of the region is fresh. -/
theorem fresh_of_covers {fsname : String} {listed names : List String} {s : CloudState}
    (hall : ∀ z ∈ zones, z ∈ listed)
    (h : Covers project zones region (filterZonesByRegion listed region) names s)
    (hname : fsname ∉ names) : Fresh project zones region fsname s := by
  rintro n i ⟨z, hz, hr, x, hx, rfl⟩ hi rfl
  refine hname (h z ?_ hz hr x hx i hi)
  simp [filterZonesByRegion, hr, hall z hz]

/-- The listing of the locations begins the naming, and yields all zones. -/
theorem safe_listLocations (project : String) (w : World ctrlSig CloudState) :
    Safe (listedStep zones) t (contract s reqs zones s₀)
      (fun r w => ∀ listed, r = .ok listed → naming.Between t w.trace ∧ ∀ z ∈ zones, z ∈ listed)
      (listLocations project) w := by
  have hquiet : Quiet (.listLocations s!"projects/{project}") := .inl trivial
  refine safe_inert .true trivial (fun _ _ => .inl ⟨_, rfl⟩)
    (fun a r b => inert_of_quiet _ a r b hquiet) fun w r s' _ _ hs hknow => ?_
  obtain ⟨listed, err⟩ := r
  cases err with
  | some err => exact fun w' _ _ listed' heq => by cases heq
  | none =>
    intro w' hr _ listed' heq
    cases heq
    exact ⟨hr.2.1.mpr (hknow (fun _ => True) trivial).1, by simpa [listsZones] using hs.2.1⟩

/-- What is known of a generated name: no instance of the region has it. -/
def Generated (s : ControllerServer) (reqs : ℕ → CreateVolumeRequest) (zones : List String) (t : ℕ)
    (r : Except ApiError String) (w : World ctrlSig CloudState) : Prop :=
  ∀ fsname, r = .ok fsname → ∃ region, regionOf s (reqs t) = some region ∧
    naming.Knows t (Fresh s.project zones region fsname) w

/-- A generated name is fresh. -/
theorem safe_generateUniqueFilesystemName (hproject : i.project = s.project)
    (hfs : i.filesystem = "")
    (hregion : (getRegionFromZone i.location).toOption = regionOf s (reqs t))
    (w : World ctrlSig CloudState) :
    Safe (listedStep zones) t (contract s reqs zones s₀) (Generated s reqs zones t)
      (generateUniqueFilesystemName i) w := by
  have hfail : ∀ (err : ApiError) (w : World ctrlSig CloudState),
      Safe (listedStep zones) t (contract s reqs zones s₀) (Generated s reqs zones t)
        (pure (.error err) : CtrlM (Except ApiError String)) w :=
    fun err w w' _ _ fsname heq => by cases heq
  unfold generateUniqueFilesystemName
  rw [if_neg (by simp [hfs])]
  cases hzone : getRegionFromZone i.location with
  | error err => exact hfail _ w
  | ok region =>
    have hregion' : regionOf s (reqs t) = some region := by
      rw [← hregion, hzone]
      rfl
    refine Safe.bind (safe_listLocations i.project w) fun r w _ hr => ?_
    cases r with
    | error err => exact hfail err w
    | ok listed =>
      obtain ⟨hn, hall⟩ := hr listed rfl
      have htrue : (names s.project zones s₀).Lasting region fun _ => True := fun _ _ _ _ _ => trivial
      rw [hproject]
      refine Safe.bind (safe_existingFSNames hregion' htrue _ ⟨hn, trivial⟩) fun r w _ hw => ?_
      cases r with
      | error err => exact hfail err w
      | ok taken =>
        refine safe_lists trivial hregion' (Gathered.lasting htrue _ _) hw fun w r hout hw hknow => ?_
        cases r with
        | error err => exact hfail _ _
        | ok id =>
          have hfresh := fresh_of_covers hall (hw.2 taken rfl) (hout.2 id rfl).2
          refine Safe.ret (Window.Knows.stable hregion' (Fresh.lasting id)) (hknow _ hfresh)
            fun w _ h fsname heq => ?_
          cases heq
          exact ⟨region, hregion', h⟩

/-! ## The creation -/

/-- With a fresh name, an accepted creation keeps the names unique. -/
theorem UniqueNames.accept {spec : InstanceSpec} (h : UniqueNames project zones s₀ a)
    (hid : Component id) (hregion : getRegionFromZone zone = .ok region)
    (hfresh : Fresh project zones region spec.filesystem a) :
    UniqueNames project zones s₀ (a.accept (locationName project zone) id spec) := by
  intro region' n n' i i' hne hn hn' hi hi' hfs
  rw [find_accept] at hi hi'
  -- The region of the pair is that of the new instance, if this is one of the two.
  have hsame : ∀ {m}, m = nameBelow (locationName project zone) id →
      InRegion project zones region' m → region' = region := by
    rintro m rfl hm
    exact (Except.ok.inj (hregion.symm.trans (hm.eq hid))).symm
  split at hi
  · rename_i hnew
    obtain rfl := hsame hnew hn
    rw [if_neg (fun heq => hne (hnew.trans heq.symm))] at hi'
    cases hi
    exact absurd hfs.symm (hfresh n' i' hn' hi')
  · split at hi'
    · rename_i hnew
      obtain rfl := hsame hnew hn'
      cases hi'
      exact absurd hfs (hfresh n i hn hi)
    · exact h region' n n' i i' hne hn hn' hi hi' hfs

/-- An accepted creation brings an instance in the region of its zone only. -/
theorem noneNewIn_accept {region' : String} {spec : InstanceSpec} (hid : Component id)
    (hregion : getRegionFromZone zone = .ok region) (hne : region' ≠ region) :
    NoneNewIn project zones region' a (a.accept (locationName project zone) id spec) := by
  intro n hn hfind
  rw [find_accept] at hfind
  split at hfind
  · rename_i hnew
    rw [hnew] at hn
    exact absurd (Except.ok.inj (hregion.symm.trans (hn.eq hid))).symm hne
  · exact hfind

/-- A creation with a fresh name keeps the names unique, and leaves the other regions alone. -/
theorem createInstance_keeps {spec : InstanceSpec} {b : CloudState} {r : Except ApiError ℕ}
    (hzone : getRegionFromZone zone = .ok region)
    (hs : listedStep zones a (.createInstance (locationName project zone) id spec) r b)
    (hfresh : Fresh project zones region spec.filesystem a) (hi : UniqueNames project zones s₀ a) :
    UniqueNames project zones s₀ b ∧ persists a b = true ∧
      ∀ region', region' ≠ region → NoneNewIn project zones region' a b := by
  obtain ⟨hstep, -, hp⟩ := hs
  have haccept : b = a ∨ a.creatable (locationName project zone) id = true ∧
      b = a.accept (locationName project zone) id spec := by
    obtain ⟨-, hcreatable, hb⟩ | ⟨err, -, hb⟩ := cloudOutcome_of_step hstep
    · exact .inr ⟨hcreatable, hb⟩
    · exact hb
  obtain rfl | ⟨hcreatable, rfl⟩ := haccept
  · exact ⟨hi, hp, fun _ _ n _ hn => hn⟩
  · have hid : Component id := by
      simp only [CloudState.creatable, Bool.and_eq_true] at hcreatable
      exact component_of_validInstanceID hcreatable.1.2
    exact ⟨hi.accept hid hzone hfresh, hp, fun _ hne => noneNewIn_accept hid hzone hne⟩

/-- The creation with a generated name is safe. -/
theorem safe_createInstance (hproject : i.project = s.project)
    (hregion : (getRegionFromZone i.location).toOption = regionOf s (reqs t))
    (hw : Generated s reqs zones t (.ok i.filesystem) w) :
    Safe (listedStep zones) t (contract s reqs zones s₀) (fun _ _ => True) (createInstance i) w := by
  obtain ⟨region, hregion', hknow⟩ := hw _ rfl
  have hzone : getRegionFromZone i.location = .ok region := by
    rw [hregion'] at hregion
    cases hr : getRegionFromZone i.location with
    | error err => simp [hr, Except.toOption] at hregion
    | ok region' => simpa [hr, Except.toOption] using hregion
  unfold createInstance
  rw [hproject]
  refine safe_act ⟨_, _, _, rfl⟩ hregion' (Fresh.lasting _) hknow
    (fun a r b => createInstance_keeps hzone) fun w r s' => safe_of_quiet ?_ _
  cases r with
  | error err => exact .pure
  | ok op =>
    have hquiet : Quiet (.waitInstance op) := .inr (.inr ⟨op, rfl⟩)
    refine .bind (all_invoke hquiet) fun r => ?_
    split <;> exact .pure

/-- The part of the handler that holds the lock is safe. -/
theorem safe_createLocked (hproject : i.project = s.project) (hfs : i.filesystem = "")
    (hregion : (getRegionFromZone i.location).toOption = regionOf s (reqs t)) (params : StrMap)
    (w : World ctrlSig CloudState) :
    Safe (listedStep zones) t (contract s reqs zones s₀) (fun _ _ => True)
      (createLocked s i params) w := by
  refine Safe.bind (safe_of_quiet (all_getInstance (.inl trivial)) w) fun r w _ _ => ?_
  split
  · exact safe_of_quiet .pure w
  split
  · exact safe_of_quiet .pure w
  refine Safe.bind (safe_of_quiet (all_searchOperations _ (.inl trivial)) w) fun r w _ _ => ?_
  split
  · exact safe_of_quiet .pure w
  split
  · exact safe_of_quiet .pure w
  unfold createNew
  split
  · exact safe_of_quiet .pure w
  rename_i labels _
  refine Safe.bind (safe_generateUniqueFilesystemName hproject hfs hregion w)
    fun r w _ hr => ?_
  split
  · exact safe_of_quiet .pure w
  rename_i fsname
  refine Safe.bind (safe_createInstance
    (i := { i with labels := labels, filesystem := fsname }) hproject hregion hr)
    fun r w _ _ => ?_
  split <;> exact safe_of_quiet .pure w

/-- The handler of a request without a file-system name is safe. -/
theorem safe_createVolume
    (hfs : ∀ i params, validateCreate s (reqs t) = .ok (i, params) → i.filesystem = "")
    (w : World ctrlSig CloudState) :
    Safe (listedStep zones) t (contract s reqs zones s₀) (fun _ _ => True)
      (createVolume s (reqs t)) w := by
  unfold createVolume
  cases hval : validateCreate s (reqs t) with
  | error err => exact fun _ _ _ => trivial
  | ok ip =>
    obtain ⟨i, params⟩ := ip
    have hregion : (getRegionFromZone i.location).toOption = regionOf s (reqs t) := by
      simp only [regionOf, hval]
    have hproject := (validateCreate_eq_ok hval).2
    refine Safe.bind (safe_of_quiet (all_invoke (.inr (.inl ⟨_, .inl rfl⟩))) w) fun acquired w _ _ => ?_
    split
    · refine Safe.bind (safe_createLocked hproject (hfs i params hval) hregion params w)
        fun result w _ _ => ?_
      exact safe_of_quiet (.bind (all_invoke (.inr (.inl ⟨_, .inr rfl⟩))) fun _ => .pure) w
    · exact safe_of_quiet .pure w

end Contract

/-! ## Runs -/

/-- The file-system names are unique in the state, and an instance that is new since the earlier
state has another name than the instances of the region had there. -/
def NamesUnique (project : String) (zones : List String) (s₀ earlier s : CloudState) : Prop :=
  UniqueNames project zones s₀ s ∧
    ∀ region n n' i i', InRegion project zones region n → InRegion project zones region n' →
      earlier.find n = none → s.find n = some i → earlier.find n' = some i' →
      i.filesystem ≠ i'.filesystem

/-- A run of `CreateVolume` handlers. -/
abbrev Creations (s : ControllerServer) (reqs : ℕ → CreateVolumeRequest) (zones : List String)
    (ok : World ctrlSig CloudState → Prop) :
    Config ctrlSig CloudState (Except Status (Option Volume)) →
      Config ctrlSig CloudState (Except Status (Option Volume)) → Prop :=
  RunWhile (listedStep zones) Progresses (fun t => createVolume s (reqs t)) fun c => ok c.world

/-- **Unique file-system names.** In every run of any number of handlers for requests without a
file-system name, in which a handler asks for a creation only while no other handler of its region
is naming, the generated names are unique in each region, and differ from those that the instances
of the region had at any earlier time.
SOURCE: pkg/csi_driver/controller.go:502-577, pkg/util/util.go:157-170 -/
theorem names_unique {s : ControllerServer} {reqs : ℕ → CreateVolumeRequest} {zones : List String}
    {s₀ : CloudState}
    (hfs : ∀ t i params, validateCreate s (reqs t) = .ok (i, params) → i.filesystem = "")
    {c c' : Config ctrlSig CloudState (Except Status (Option Volume))}
    (hrun : Creations s reqs zones (Alone s reqs) (.start s₀) c)
    (hrun' : Creations s reqs zones (Alone s reqs) c c') :
    NamesUnique s.project zones s₀ c.world.state c'.world.state := by
  have hstart : PoolSafe (listedStep zones) (contract s reqs zones s₀)
      (fun _ (_ : Except Status (Option Volume)) _ => True) (fun _ => True) (.start s₀) :=
    .start fun region n n' i i' _ _ _ hi hi' _ => ⟨by simp [hi], by simp [hi']⟩
  have henv : ∀ a b, Progresses a b → (names s.project zones s₀).Inert a b := by
    rintro a b ⟨⟨k, ending, hc⟩, hp⟩
    exact inert_of_noneNew (noneNew_complete hc) hp
  have hsafe := (PoolSafe.runWhile (checkContract_compatible henv) (fun _ h => h)
    (fun t w _ _ => safe_createVolume (hfs t) w) (fun _ _ _ _ _ _ _ _ => trivial) hstart
    (hrun.trans hrun')).1
  have hpersists : persists s₀ c.world.state = true :=
    hrun.state_rel (T := fun a b => persists a b = true) persists_refl
      (fun _ _ _ => persists_trans) (fun _ _ _ _ h => h.2.2) (fun _ _ h => h.2)
  have hpersists' : persists c.world.state c'.world.state = true :=
    hrun'.state_rel (T := fun a b => persists a b = true) persists_refl
      (fun _ _ _ => persists_trans) (fun _ _ _ _ h => h.2.2) (fun _ _ h => h.2)
  refine ⟨hsafe.inv, fun region n n' i i' hn hn' hnew hi hi' hsame => ?_⟩
  obtain ⟨j', hj', hfs'⟩ := persists_iff.mp hpersists' n' i' hi'
  have hne : n ≠ n' := by
    rintro rfl
    simp [hnew] at hi'
  -- Both would have been there at first, but the one is new.
  obtain ⟨hold, -⟩ := hsafe.inv region n n' i j' hne hn hn' hi hj' (by rw [hsame, hfs'])
  obtain ⟨i₀, hi₀⟩ := Option.ne_none_iff_exists'.mp hold
  obtain ⟨i₁, hi₁, -⟩ := persists_iff.mp hpersists n i₀ hi₀
  simp [hnew] at hi₁

/-! ## Two handlers that draw the same name -/

section Sample

open Interface.ControllerSample

/-- The name of a volume, another one for each number. -/
def volumeName (t : ℕ) : String := String.ofList ('v' :: List.replicate t 'a')

/-- A request that leaves the file-system name to the driver. -/
def unnamed (t : ℕ) : CreateVolumeRequest :=
  { createRequest (volumeName t) with
    parameters := (∅ : StrMap).insert "perUnitStorageThroughput" "1000" }

def sampleZones : List String := ["us-central1-a"]

/-- The steps of an API with the given zones, as a function of its choices. -/
def listedExec (zones : List String) (s : CloudState) (o : ctrlSig.Op) (x : CloudChoice) :
    Option (ctrlSig.Res o × CloudState) :=
  (s.exec o x).filter fun rs => listsZones zones o rs.1 && persists s rs.2

/-- A step of a schedule is one of the API. -/
theorem listedStep_of_exec {zones : List String} (s : CloudState) (o : ctrlSig.Op)
    (r : ctrlSig.Res o) (s' : CloudState) (h : stepOf (listedExec zones) s o r s') :
    listedStep zones s o r s' := by
  obtain ⟨x, hx⟩ := h
  obtain ⟨hexec, htest⟩ := Option.filter_eq_some_iff.mp hx
  simp only [Bool.and_eq_true] at htest
  exact ⟨⟨x, hexec⟩, htest⟩

/-- A handler lists the operations, the locations and the instances of the state. -/
def listsAll (t : ℕ) (s : CloudState) : List (Move CloudChoice) :=
  .spawn t :: [.ok, .ok, .operations s.operations none, .locations sampleZones none,
    .instances s.instances none].map (.call t)

/-- It draws a name and creates the instance. -/
def creates (t : ℕ) (id : String) : List (Move CloudChoice) :=
  [.drawn (.ok id), .ok].map (.call t)

/-- The names and file-system names of the instances. -/
def namesOf (s : CloudState) : List (String × String) :=
  s.instances.map fun i => (i.name, i.filesystem)

/-- The names after a schedule. -/
def playNames (ms : List (Move CloudChoice)) (s₀ : CloudState) : Option (List (String × String)) :=
  (playPool (listedExec sampleZones) (fun t => createVolume server (unnamed t)) ms (.start s₀)).map
    fun c => namesOf c.world.state

/-- Both handlers list before one of them creates. -/
def racing : List (Move CloudChoice) :=
  listsAll 0 ControllerSample.empty ++ listsAll 1 ControllerSample.empty ++ creates 0 "lfs00001" ++
    creates 1 "lfs00001"

/-- Both instances get the same name. -/
theorem racing_played : playNames racing ControllerSample.empty =
    some [(nameBelow (locationName "proj" "us-central1-a") "va", "lfs00001"),
      (nameBelow (locationName "proj" "us-central1-a") "v", "lfs00001")] := by
  decide +kernel

/-- The requests do not name the file system. -/
theorem filesystem_unnamed (t : ℕ) (i : ServiceInstance) (params : StrMap)
    (h : validateCreate server (unnamed t) = .ok (i, params)) : i.filesystem = "" := by
  obtain ⟨capBytes, -, hparams, hprepare⟩ := validateCreate_inv h
  obtain ⟨location, throughput, -, -, rfl⟩ := prepareNewInstance_eq_ok hprepare
  have hget : (normalizeParams Unicode.asciiOnly ((∅ : StrMap).insert "perUnitStorageThroughput"
      "1000")).toOption.map (·.get keyFilesystem) = some "" := by
    decide +kernel
  have hsame : normalizeParams Unicode.asciiOnly ((∅ : StrMap).insert "perUnitStorageThroughput"
      "1000") = .ok params := hparams
  rw [hsame] at hget
  simpa [Except.toOption] using hget

/-- The requests are for different volumes. -/
theorem volumeName_distinct {t u : ℕ} (h : t ≠ u) :
    toLower server.unicode (unnamed t).name ≠ toLower server.unicode (unnamed u).name := by
  have hlower : ∀ t, lowerAscii (volumeName t) = true := by
    intro t
    simp only [lowerAscii, volumeName, String.toList_ofList, List.all_cons, List.all_replicate]
    simp
  change toLower server.unicode (volumeName t) ≠ toLower server.unicode (volumeName u)
  rw [toLower_of_lowerAscii (hlower t), toLower_of_lowerAscii (hlower u)]
  intro heq
  have hlen := congrArg (fun s => s.toList.length) heq
  simp [volumeName] at hlen
  exact h hlen

/-- The zone is one of the region. -/
theorem inRegion_sample {x : String} (hx : Component x) :
    InRegion server.project sampleZones "us-central1" (nameBelow (locationName "proj" "us-central1-a") x) :=
  ⟨"us-central1-a", by simp [sampleZones], by decide +kernel, x, hx, rfl⟩

/-- The names are unique in every run, whatever the handlers do meanwhile. -/
def AlwaysUnique : Prop :=
  ∀ (s : ControllerServer) (reqs : ℕ → CreateVolumeRequest) (zones : List String) (s₀ : CloudState)
    (c c' : Config ctrlSig CloudState (Except Status (Option Volume))),
    (∀ t i params, validateCreate s (reqs t) = .ok (i, params) → i.filesystem = "") →
    (∀ t u, t ≠ u → toLower s.unicode (reqs t).name ≠ toLower s.unicode (reqs u).name) →
    Creations s reqs zones (fun _ => True) (.start s₀) c →
    Creations s reqs zones (fun _ => True) c c' →
    NamesUnique s.project zones s₀ c.world.state c'.world.state

/-- Two handlers list the instances, both draw "lfs00001", and both create. -/
theorem not_alwaysUnique : ¬AlwaysUnique := by
  intro h
  obtain ⟨c, hplay, hnames⟩ := Option.map_eq_some_iff.mp racing_played
  have hrun : Creations server unnamed sampleZones (fun _ => True) (.start ControllerSample.empty) c :=
    RunWhile.mono listedStep_of_exec (playPool_run (fun _ => trivial) hplay)
  have hunique := (h server unnamed sampleZones ControllerSample.empty c c filesystem_unnamed
    (fun _ _ => volumeName_distinct) hrun (.refl c trivial)).1
  obtain ⟨i, rest, hinstances, hi, hrest⟩ := List.map_eq_cons_iff.mp hnames
  obtain ⟨i', rest', rfl, hi', -⟩ := List.map_eq_cons_iff.mp hrest
  simp only [Prod.mk.injEq] at hi hi'
  have hva : Component "va" := ⟨by decide, by decide⟩
  have hv : Component "v" := ⟨by decide, by decide⟩
  have hne : nameBelow (locationName "proj" "us-central1-a") "va" ≠
      nameBelow (locationName "proj" "us-central1-a") "v" := by decide +kernel
  have hfind : c.world.state.find (nameBelow (locationName "proj" "us-central1-a") "va") = some i := by
    simp [CloudState.find, hinstances, hi.1]
  have hfind' : c.world.state.find (nameBelow (locationName "proj" "us-central1-a") "v") = some i' := by
    simp [CloudState.find, hinstances, hi.1, hi'.1, hne]
  have hold := (hunique "us-central1" _ _ i i' hne (inRegion_sample hva) (inRegion_sample hv) hfind
    hfind' (by rw [hi.2, hi'.2])).1
  exact hold rfl

/-- The instance of a volume "old". -/
def oldInstance : CloudInstance where
  network := "projects/proj/global/networks/default"
  description := []
  labels := ∅
  capacityGib := 9000
  filesystem := "lfs00001"
  gkeSupportEnabled := false
  perUnitStorageThroughput := 1000
  name := nameBelow (locationName "proj" "us-central1-a") "old"
  mountPoint := "10.0.0.2@tcp:/lfs00001"
  state := .active

/-- A backend with that instance. -/
def oldCloud : CloudState := ⟨∅, [oldInstance], []⟩

/-- A schedule in which nobody creates while another handler is naming. -/
def playAlone (ms : List (Move CloudChoice))
    (c : Config ctrlSig CloudState (Except Status (Option Volume))) :
    Option (Config ctrlSig CloudState (Except Status (Option Volume))) :=
  playPoolWhile (listedExec sampleZones) (fun t => createVolume server (unnamed t))
    (fun c => naming.undisturbed c.world) ms c

/-- Such a schedule is a run of handlers that are alone. -/
theorem creations_of_playAlone {ms : List (Move CloudChoice)}
    {c c' : Config ctrlSig CloudState (Except Status (Option Volume))}
    (h : playAlone ms c = some c') : Creations server unnamed sampleZones (Alone server unnamed) c c' :=
  have hcheck : ∀ c : Config ctrlSig CloudState (Except Status (Option Volume)),
      naming.undisturbed c.world = true → Alone server unnamed c.world :=
    fun _ => Window.alone_of_undisturbed
  RunWhile.mono listedStep_of_exec (playPoolWhile_run hcheck h).2

/-- The first handler creates "v"; the second one, which lists "v" too, creates "va". -/
theorem turns_played :
    ((playAlone (listsAll 0 oldCloud ++ creates 0 "lfs00002") (.start oldCloud)).bind
      fun c => (playAlone (listsAll 1 c.world.state ++ creates 1 "lfs00003") c).map
        fun c' => (namesOf c.world.state, namesOf c'.world.state)) =
    some ([(nameBelow (locationName "proj" "us-central1-a") "v", "lfs00002"),
        (nameBelow (locationName "proj" "us-central1-a") "old", "lfs00001")],
      [(nameBelow (locationName "proj" "us-central1-a") "va", "lfs00003"),
        (nameBelow (locationName "proj" "us-central1-a") "v", "lfs00002"),
        (nameBelow (locationName "proj" "us-central1-a") "old", "lfs00001")]) := by
  decide +kernel

/-- Two handlers take turns: the first one creates "v" beside an old instance, and then the second
one creates "va", with a name that neither of the others has. -/
theorem names_unique_turns :
    ∃ c c', Creations server unnamed sampleZones (Alone server unnamed)
        (.start oldCloud) c ∧
      Creations server unnamed sampleZones (Alone server unnamed) c c' ∧
      namesOf c.world.state = [(nameBelow (locationName "proj" "us-central1-a") "v", "lfs00002"),
        (nameBelow (locationName "proj" "us-central1-a") "old", "lfs00001")] ∧
      namesOf c'.world.state = [(nameBelow (locationName "proj" "us-central1-a") "va", "lfs00003"),
        (nameBelow (locationName "proj" "us-central1-a") "v", "lfs00002"),
        (nameBelow (locationName "proj" "us-central1-a") "old", "lfs00001")] ∧
      NamesUnique server.project sampleZones oldCloud c.world.state
        c'.world.state := by
  obtain ⟨c, hfirst, hrest⟩ := Option.bind_eq_some_iff.mp turns_played
  obtain ⟨c', hsecond, hnames⟩ := Option.map_eq_some_iff.mp hrest
  obtain ⟨hold, hnew⟩ := Prod.mk.inj hnames
  have hrun := creations_of_playAlone hfirst
  have hrun' := creations_of_playAlone hsecond
  exact ⟨c, c', hrun, hrun', hold, hnew, names_unique filesystem_unnamed hrun hrun'⟩

end Sample

end LustreCsi.Analysis.FilesystemNames
