import LustreCsi.Interface.ControllerRuns
import LustreCsi.Interface.ControllerSample

/-!
# The capacity of a volume against the range that was asked for

A range is given in bytes; the API takes whole GiB, and both handlers round down. `capacity_iff`
says when the capacity that is answered is in the range, for every backend that provisions what it
is asked for.
-/

set_option autoImplicit false

namespace LustreCsi.Analysis.CapacityContract

open LustreCsi.Computation Model Interface

/-- The range of a request; the fields of a missing range read as zero. -/
def rangeOf (r : Option CapacityRange) : CapacityRange := r.getD ⟨0, 0⟩

/-- The value is one of type `int64`. -/
def IsInt64 (x : Int) : Prop := -9223372036854775808 ≤ x ∧ x ≤ 9223372036854775807

/-- The capacity is in the range. -/
def Within (range : CapacityRange) (capacityBytes : Int) : Prop :=
  (0 < range.requiredBytes → range.requiredBytes ≤ capacityBytes) ∧
    (0 < range.limitBytes → capacityBytes ≤ range.limitBytes)

/-- The required bytes, if there are any, are a whole number of GiB. -/
def WholeGib (range : CapacityRange) : Prop := 0 < range.requiredBytes → gib ∣ range.requiredBytes

/-- What is asked for: the required bytes or, without these, the minimum. -/
def requested (range : CapacityRange) : Int :=
  if 0 < range.requiredBytes then range.requiredBytes else minVolumeSizeBytes

/-- The condition for the expansion of an instance of the given size: one that is large enough
already does not exceed the limit, and otherwise the required bytes are a whole number of GiB. -/
def Expandable (range : CapacityRange) (currentBytes : Int) : Prop :=
  if requested range ≤ currentBytes then 0 < range.limitBytes → currentBytes ≤ range.limitBytes
  else WholeGib range

/-- A backend that provisions exactly the GiB that it is asked for, and reports the capacity of
its instances. -/
structure ProvisionsExactly {σ : Type}
    (backend : σ → (o : ctrlSig.Op) → ctrlSig.Res o → σ → Prop) (capacity : σ → String → Option Int) :
    Prop where
  reported : ∀ a n i b, backend a (.getInstance n) (.ok i) b → capacity a n = some i.capacityGib
  locked : ∀ a x r b, backend a (.tryAcquire x) r b → capacity b = capacity a
  created : ∀ a parent id spec k a₁ i b, backend a (.createInstance parent id spec) (.ok k) a₁ →
    backend a₁ (.waitInstance k) (.ok i) b → i.capacityGib = spec.capacityGib
  resized : ∀ a n capacityGib k a₁ i b, backend a (.updateInstance n capacityGib) (.ok k) a₁ →
    backend a₁ (.waitInstance k) (.ok i) b → i.capacityGib = capacityGib

/-! ## Rounding -/

/-- The accepted ranges, and the capacity that is taken from them. -/
theorem getRequestCapacity_eq_ok {r : Option CapacityRange} {capBytes : Int}
    (h : getRequestCapacity r = .ok capBytes) :
    capBytes = requested (rangeOf r) ∧
      (0 < (rangeOf r).limitBytes → capBytes ≤ (rangeOf r).limitBytes) := by
  cases r with
  | none =>
    simp only [getRequestCapacity, Except.ok.injEq] at h
    subst h
    exact ⟨rfl, fun hlimit => absurd hlimit (by decide)⟩
  | some range =>
    simp only [getRequestCapacity] at h
    split at h
    · simp at h
    rename_i hless
    split at h
    · simp at h
    rename_i hmin
    change capBytes = requested range ∧ (0 < range.limitBytes → capBytes ≤ range.limitBytes)
    split at h
    · rename_i hset
      have hreq : requested range = range.requiredBytes := if_pos hset
      simp only [Except.ok.injEq] at h
      refine ⟨by rw [hreq, h], fun hlimit => ?_⟩
      by_contra hlt
      exact hless ⟨hlimit, hset, by omega⟩
    · rename_i hset
      have hreq : requested range = minVolumeSizeBytes := if_neg hset
      simp only [Except.ok.injEq] at h
      refine ⟨by rw [hreq, h], fun hlimit => ?_⟩
      by_contra hlt
      exact hmin ⟨hlimit, by omega⟩

/-- A number of GiB that fits is converted without overflow. -/
theorem gibToBytes_of_fits {n : Int} (h : IsInt64 (n * gib)) : gibToBytes n = n * gib := by
  obtain ⟨hlow, hhigh⟩ := h
  rw [gibToBytes]
  generalize n * gib = x at *
  have hpow : ((Nat.pow 2 64 : ℕ) : Int) = 18446744073709551616 := by decide
  rw [Int.bmod_def, hpow]
  split <;> omega

/-- What is provisioned for a positive number of bytes is at most that number, with equality for
whole GiB. -/
theorem gibToBytes_bytesToGib {bytes : Int} (hpos : 0 < bytes) (h : IsInt64 bytes) :
    gibToBytes (bytesToGib bytes) ≤ bytes ∧
      (bytes ≤ gibToBytes (bytesToGib bytes) ↔ gib ∣ bytes) := by
  have hdiv : bytesToGib bytes = bytes / gib :=
    Int.tdiv_eq_ediv_of_nonneg (by omega)
  have hsplit : bytes / gib * gib + bytes % gib = bytes := Int.ediv_mul_add_emod bytes gib
  have hrem : 0 ≤ bytes % gib := Int.emod_nonneg bytes (by decide)
  have hquot : 0 ≤ bytes / gib := Int.ediv_nonneg (by omega) (by decide)
  have hprod : 0 ≤ bytes / gib * gib := Int.mul_nonneg hquot (by decide)
  obtain ⟨-, hhigh⟩ := h
  have hfits : IsInt64 (bytes / gib * gib) := by
    constructor
    · omega
    · omega
  rw [hdiv, gibToBytes_of_fits hfits, Int.dvd_iff_emod_eq_zero]
  constructor
  · omega
  · constructor
    · intro hle
      omega
    · intro hzero
      omega

/-- A positive capacity is asked for in any case. -/
theorem requested_pos (range : CapacityRange) : 0 < requested range := by
  unfold requested
  split
  · assumption
  · decide

/-- What is asked for is a 64-bit number. -/
theorem isInt64_requested {range : CapacityRange} (h : IsInt64 range.requiredBytes) :
    IsInt64 (requested range) := by
  unfold requested
  split
  · exact h
  · constructor <;> decide

/-- The requested capacity, rounded down, is in the range exactly if the required bytes are whole
GiB. -/
theorem within_rounded_iff {range : CapacityRange} (h : IsInt64 range.requiredBytes)
    (hlimit : 0 < range.limitBytes → requested range ≤ range.limitBytes) :
    Within range (gibToBytes (bytesToGib (requested range))) ↔ WholeGib range := by
  obtain ⟨hle, hiff⟩ := gibToBytes_bytesToGib (requested_pos range) (isInt64_requested h)
  constructor
  · intro hwithin hpos
    have hreq : requested range = range.requiredBytes := if_pos hpos
    rw [hreq] at hiff hwithin
    exact hiff.mp (hwithin.1 hpos)
  · intro hwhole
    refine ⟨fun hpos => ?_, fun hpos => hle.trans (hlimit hpos)⟩
    have hreq : requested range = range.requiredBytes := if_pos hpos
    rw [hreq] at hiff ⊢
    exact hiff.mpr (hwhole hpos)

/-! ## The two calls -/

section Calls

variable {σ : Type} {backend : σ → (o : ctrlSig.Op) → ctrlSig.Res o → σ → Prop}
  {capacity : σ → String → Option Int}

/-- The call has created an instance. -/
def Creates (tr : List (Event ctrlSig)) : Prop :=
  ∃ parent id spec k, (⟨.createInstance parent id spec, .ok k⟩ : Event ctrlSig) ∈ tr

/-- The capacity of an instance as the driver sees it is the reported one. -/
theorem capacityGib_of_conversion {i : CloudInstance} {si : ServiceInstance}
    (h : cloudInstanceToServiceInstance i = .ok si) : si.capacityGib = i.capacityGib := by
  obtain ⟨p, l, n, ip, -, -, -, -, -, rfl⟩ := cloudInstanceToServiceInstance_eq_ok.mp h
  rfl

/-- A created volume has the requested capacity, rounded down to whole GiB. -/
theorem capacityBytes_of_create (hb : ProvisionsExactly backend capacity) {s : ControllerServer}
    {req : CreateVolumeRequest} {a b : σ} {tr : List (Event ctrlSig)} {v : Volume}
    (h : Exec backend (createVolume s req) a tr (.ok (some v)) b) (hcreates : Creates tr) :
    v.capacityBytes = gibToBytes (bytesToGib (requested (rangeOf req.capacityRange))) ∧
      (0 < (rangeOf req.capacityRange).limitBytes →
        requested (rangeOf req.capacityRange) ≤ (rangeOf req.capacityRange).limitBytes) := by
  obtain ⟨ni, params, reported, si, hval, rfl, hfound | ⟨labels, fsname, hcreated⟩⟩ :=
    exec_createVolume_ok h
  · -- A call that has found the instance has not created it.
    obtain ⟨parent, id, spec, k, hmem⟩ := hcreates
    rw [hfound.trace] at hmem
    simp at hmem
  · obtain ⟨before, k, rfl, -⟩ := hcreated.trace
    obtain ⟨p₁, a₁, h₁⟩ := h.drop before
    obtain ⟨a₂, p₂, hcreate, h₂⟩ := h₁.cons
    obtain ⟨a₃, p₃, hwait, -⟩ := h₂.cons
    have hexact := hb.created _ _ _ _ _ _ _ _ hcreate hwait
    obtain ⟨capBytes, hcap, -, hprepare⟩ := validateCreate_inv hval
    obtain ⟨location, throughput, -, -, rfl⟩ := prepareNewInstance_eq_ok hprepare
    obtain ⟨rfl, hlimit⟩ := getRequestCapacity_eq_ok hcap
    refine ⟨?_, hlimit⟩
    change gibToBytes si.capacityGib = _
    rw [capacityGib_of_conversion hcreated.converted, hexact]
    rfl

/-- An expansion answers the current capacity, if sufficient, and else the requested one, rounded
down. -/
theorem capacityBytes_of_expand (hb : ProvisionsExactly backend capacity)
    {req : ControllerExpandVolumeRequest} {a b : σ} {tr : List (Event ctrlSig)}
    {resp : ControllerExpandVolumeResponse}
    (h : Exec backend (controllerExpandVolume req) a tr (.ok resp) b) :
    ∃ p l n current, parseVolumeID req.volumeID = .ok (p, l, n) ∧
      capacity a (resourceName p l n) = some current ∧
      (0 < (rangeOf req.capacityRange).limitBytes →
        requested (rangeOf req.capacityRange) ≤ (rangeOf req.capacityRange).limitBytes) ∧
      resp.capacityBytes = if requested (rangeOf req.capacityRange) ≤ gibToBytes current then
        gibToBytes current else gibToBytes (bytesToGib (requested (rangeOf req.capacityRange))) := by
  obtain ⟨p, l, n, a₁, a₂, a₃, reported, found, tr₁, hparse, hacquire, hget, hconv, hfound⟩ :=
    exec_controllerExpandVolume_ok h
  have hcurrent : capacity a (resourceName p l n) = some found.capacityGib := by
    rw [← hb.locked _ _ _ _ hacquire, hb.reported _ _ _ _ hget, capacityGib_of_conversion hconv]
  obtain ⟨capBytes, hcap, hcase⟩ := exec_expandFound_ok hfound
  obtain ⟨rfl, hlimit⟩ := getRequestCapacity_eq_ok hcap
  refine ⟨p, l, n, found.capacityGib, hparse, hcurrent, hlimit, ?_⟩
  rcases hcase with ⟨henough, rfl⟩ | ⟨hmore, k, a₄, a₅, a₆, reported', updated, hupdate, hwait, hconv',
    rfl⟩
  · rw [if_pos henough]
  rw [if_neg (by omega), capacityGib_of_conversion hconv',
    hb.resized _ _ _ _ _ _ _ hupdate hwait]

end Calls

/-- **The capacity contract.** For every backend that provisions what it is asked for: the
capacity that a successful `CreateVolume` answers for an instance that it created is in the range
if and only if the required bytes, if any, are a whole number of GiB; the capacity that a
successful `ControllerExpandVolume` answers is in the range if and only if the current capacity is
sufficient and not above the limit, or is not sufficient and the required bytes are a whole number
of GiB.
SOURCE: pkg/csi_driver/controller.go:315-366, 579-646, pkg/util/util.go:172-174 -/
theorem capacity_iff {σ : Type} {backend : σ → (o : ctrlSig.Op) → ctrlSig.Res o → σ → Prop}
    {capacity : σ → String → Option Int} (hb : ProvisionsExactly backend capacity) :
    (∀ s req a tr v b, Exec backend (createVolume s req) a tr (.ok (some v)) b → Creates tr →
      IsInt64 (rangeOf req.capacityRange).requiredBytes →
      (Within (rangeOf req.capacityRange) v.capacityBytes ↔ WholeGib (rangeOf req.capacityRange))) ∧
    (∀ req a tr resp b, Exec backend (controllerExpandVolume req) a tr (.ok resp) b →
      IsInt64 (rangeOf req.capacityRange).requiredBytes →
      ∃ p l n current, parseVolumeID req.volumeID = .ok (p, l, n) ∧
        capacity a (resourceName p l n) = some current ∧
        (Within (rangeOf req.capacityRange) resp.capacityBytes ↔
          Expandable (rangeOf req.capacityRange) (gibToBytes current))) := by
  constructor
  · intro s req a tr v b h hcreates hint
    obtain ⟨hv, hlimit⟩ := capacityBytes_of_create hb h hcreates
    rw [hv]
    exact within_rounded_iff hint hlimit
  · intro req a tr resp b h hint
    obtain ⟨p, l, n, current, hparse, hcurrent, hlimit, hresp⟩ := capacityBytes_of_expand hb h
    refine ⟨p, l, n, current, hparse, hcurrent, ?_⟩
    rw [hresp]
    unfold Expandable
    split
    · rename_i henough
      constructor
      · intro hwithin
        exact hwithin.2
      · intro hle
        refine ⟨fun hpos => ?_, hle⟩
        have hreq : requested (rangeOf req.capacityRange) =
          (rangeOf req.capacityRange).requiredBytes := if_pos hpos
        omega
    · exact within_rounded_iff hint hlimit

/-! ## The API as a backend -/

/-- The capacity of an instance that the API keeps. -/
def cloudCapacity (s : CloudState) (n : String) : Option Int := (s.find n).map (·.capacityGib)

/-- The answer of a wait for an operation that was pending. -/
theorem created_of_wait {a b : CloudState} {k : ℕ} {o : Operation} {i : CloudInstance}
    (ho : a.operations[k]? = some o) (hpending : o.progress = .pending)
    (h : a.step (.waitInstance k) (.ok i) b) :
    ∃ ip, (o.work.elim a (a.finish o.target ip)).find o.target = some i := by
  obtain ⟨hawaited, ⟨i', hi', hcreated⟩ | ⟨err, herr⟩⟩ := cloudOutcome_of_step h
  · cases hi'
    obtain rfl | ⟨ending, hc⟩ := hawaited
    · simp [CloudState.created, ho, hpending] at hcreated
    · exact created_of_complete ho hc hcreated
  · cases herr

/-- The API provisions exactly what it is asked for. -/
theorem provisionsExactly_cloud : ProvisionsExactly CloudState.step cloudCapacity where
  reported a n i b h := by
    obtain ⟨-, ⟨i', hi', hfind⟩ | ⟨err, herr, -⟩⟩ := cloudOutcome_of_step h
    · cases hi'
      simp [cloudCapacity, hfind]
    · cases herr
  locked a x r b h := by
    obtain ⟨-, -, rfl⟩ | ⟨-, -, rfl⟩ := cloudOutcome_of_step h
    · rfl
    · rfl
  created a parent id spec k a₁ i b hcreate hwait := by
    obtain ⟨hk, -, rfl⟩ | ⟨err, herr, -⟩ := cloudOutcome_of_step hcreate
    · cases hk
      obtain ⟨ip, hfind⟩ := created_of_wait (o := ⟨parent, nameBelow parent id, some .create, .pending⟩)
        (by simp [CloudState.accept, CloudState.addOperation]) rfl hwait
      have hmodify := find_modify (a.accept parent id spec) (nameBelow parent id)
        (nameBelow parent id) (f := fun i => { i with
          state := .active, mountPoint := s!"{ip}@tcp:/{i.filesystem}" }) (fun _ => rfl)
      rw [if_pos rfl, find_accept, if_pos rfl] at hmodify
      obtain rfl := Option.some.inj (hmodify.symm.trans hfind)
      rfl
    · cases herr
  resized a n capacityGib k a₁ i b hupdate hwait := by
    obtain ⟨hk, -, rfl⟩ | ⟨err, herr, -⟩ := cloudOutcome_of_step hupdate
    · cases hk
      obtain ⟨ip, hfind⟩ := created_of_wait
        (o := ⟨CloudState.locationOf n, n, some (.update capacityGib), .pending⟩)
        (by simp [CloudState.acceptUpdate, CloudState.addOperation]) rfl hwait
      have hmodify := find_modify (a.acceptUpdate n capacityGib) n n
        (f := fun i => { i with capacityGib := capacityGib }) (fun _ => rfl)
      rw [if_pos rfl] at hmodify
      obtain ⟨i', -, rfl⟩ := Option.map_eq_some_iff.mp (hmodify.symm.trans hfind)
      rfl
    · cases herr

/-! ## Whole numbers of GiB, and one byte more -/

section Sample

open Interface.ControllerSample

/-- A request for the volume "vol" of the given size. -/
def createSized (requiredBytes : Int) : CreateVolumeRequest :=
  { createRequest "vol" with capacityRange := some ⟨requiredBytes, 0⟩ }

/-- A request to expand the volume "vol" to the given size. -/
def expandSized (requiredBytes : Int) : ControllerExpandVolumeRequest :=
  ⟨"proj/us-central1-a/vol", some ⟨requiredBytes, 0⟩⟩

/-- The expansion is accepted and succeeds. -/
def expanding : List CloudChoice := [.ok, .ok, .operations [] none, .ok, .ends (.succeed ""), .ok]

/-- A backend with the volume "vol" of 9000 GiB. -/
def provisioned : CloudState where
  locks := ∅
  instances := [{
    network := "projects/proj/global/networks/default", description := [], labels := ∅
    capacityGib := 9000, filesystem := "lustrefs", gkeSupportEnabled := false
    perUnitStorageThroughput := 1000, name := resourceName "proj" "us-central1-a" "vol"
    mountPoint := "10.0.0.2@tcp:/lustrefs", state := .active }]
  operations := []

/-- The size of the volume that is created for a given number of bytes. -/
theorem create_played :
    ([9000 * gib, 9000 * gib + 1].map fun bytes =>
      ((play (S := ctrlSig) CloudState.exec (createVolume server (createSized bytes)) creating
        ControllerSample.empty).map fun rs => rs.1.toOption.bind (Option.map (·.capacityBytes)))) =
      [some (some (9000 * gib)), some (some (9000 * gib))] := by
  decide +kernel

/-- The expansion, replayed. -/
theorem expand_played :
    ((play (S := ctrlSig) CloudState.exec (controllerExpandVolume (expandSized (9001 * gib))) expanding
      provisioned).map fun rs => rs.1.toOption.map (·.capacityBytes)) = some (some (9001 * gib)) := by
  decide +kernel

/-- Where there is no instance, a call that succeeds has created one. -/
theorem creates_of_empty {s : ControllerServer} {req : CreateVolumeRequest} {b : CloudState}
    {tr : List (Event ctrlSig)} {v : Volume}
    (h : Exec CloudState.step (createVolume s req) ControllerSample.empty tr (.ok (some v)) b) :
    Creates tr := by
  obtain ⟨ni, params, reported, si, -, -, hfound | ⟨labels, fsname, hcreated⟩⟩ := exec_createVolume_ok h
  · rw [hfound.trace] at h
    obtain ⟨a₁, p₁, hacquire, h₁⟩ := h.cons
    obtain ⟨a₂, p₂, hget, -⟩ := h₁.cons
    have hcapacity := provisionsExactly_cloud.reported _ _ _ _ hget
    rw [provisionsExactly_cloud.locked _ _ _ _ hacquire] at hcapacity
    simp [cloudCapacity, CloudState.find, ControllerSample.empty] at hcapacity
  · obtain ⟨before, k, rfl, -⟩ := hcreated.trace
    exact ⟨_, _, _, k, List.mem_append_right _ List.mem_cons_self⟩

/-- The calls that create a volume of 9000 GiB, for a whole number of GiB and for one byte more. -/
theorem exec_create {bytes : Int} (hbytes : bytes ∈ [9000 * gib, 9000 * gib + 1]) :
    ∃ tr v b, Exec CloudState.step (createVolume server (createSized bytes)) ControllerSample.empty tr
      (.ok (some v)) b ∧ Creates tr ∧ v.capacityBytes = 9000 * gib := by
  have hplayed : (play (S := ctrlSig) CloudState.exec (createVolume server (createSized bytes)) creating
      ControllerSample.empty).map (fun rs => rs.1.toOption.bind (Option.map (·.capacityBytes))) =
      some (some (9000 * gib)) := by
    have hboth := create_played
    simp only [List.map_cons, List.map_nil, List.cons.injEq, and_true] at hboth
    simp only [List.mem_cons, List.not_mem_nil, or_false] at hbytes
    rcases hbytes with rfl | rfl
    · exact hboth.1
    · exact hboth.2
  obtain ⟨⟨r, b⟩, hplay, hobs⟩ := Option.map_eq_some_iff.mp hplayed
  obtain ⟨tr, hexec⟩ := play_exec _ hplay
  cases r with
  | error st => simp [Except.toOption] at hobs
  | ok ov =>
    cases ov with
    | none => simp [Except.toOption] at hobs
    | some v => exact ⟨tr, v, b, hexec, creates_of_empty hexec, by simpa [Except.toOption] using hobs⟩

/-- The expansion, as one of the runs of the call. -/
theorem exec_expand :
    ∃ tr resp b, Exec CloudState.step (controllerExpandVolume (expandSized (9001 * gib))) provisioned tr
      (.ok resp) b ∧ resp.capacityBytes = 9001 * gib := by
  obtain ⟨⟨r, b⟩, hplay, hobs⟩ := Option.map_eq_some_iff.mp expand_played
  obtain ⟨tr, hexec⟩ := play_exec _ hplay
  cases r with
  | error st => simp [Except.toOption] at hobs
  | ok resp => exact ⟨tr, resp, b, hexec, by simpa [Except.toOption] using hobs⟩

/-- A volume of 9000 GiB is created, and one of 9000 GiB expanded to 9001 GiB, as asked for. -/
theorem capacity_whole :
    (∃ tr v b, Exec CloudState.step (createVolume server (createSized (9000 * gib)))
      ControllerSample.empty tr (.ok (some v)) b ∧ Within ⟨9000 * gib, 0⟩ v.capacityBytes) ∧
    ∃ tr resp b, Exec CloudState.step (controllerExpandVolume (expandSized (9001 * gib))) provisioned
      tr (.ok resp) b ∧ (Within ⟨9001 * gib, 0⟩ resp.capacityBytes ↔
        Expandable ⟨9001 * gib, 0⟩ (9000 * gib)) := by
  have hwhole : 9000 * gib ∈ [9000 * gib, 9000 * gib + 1] := by decide
  obtain ⟨tr, v, b, hexec, hcreates, -⟩ := exec_create hwhole
  obtain ⟨tr', resp, b', hexec', -⟩ := exec_expand
  refine ⟨⟨tr, v, b, hexec, ?_⟩, ⟨tr', resp, b', hexec', ?_⟩⟩
  · refine ((capacity_iff provisionsExactly_cloud).1 _ _ _ _ _ _ hexec hcreates ?_).mpr ?_
    · constructor <;> decide
    · exact fun _ => by decide
  · obtain ⟨p, l, n, current, hparse, hcurrent, hiff⟩ :=
      (capacity_iff provisionsExactly_cloud).2 _ _ _ _ _ hexec' (by constructor <;> decide)
    have hparse' : parseVolumeID "proj/us-central1-a/vol" = .ok ("proj", "us-central1-a", "vol") := by
      decide +kernel
    obtain ⟨rfl, rfl, rfl⟩ : "proj" = p ∧ "us-central1-a" = l ∧ "vol" = n := by
      simpa [expandSized, hparse'] using hparse
    obtain rfl : 9000 = current := by
      simpa [cloudCapacity, CloudState.find, provisioned] using hcurrent
    have hbytes : gibToBytes 9000 = 9000 * gib := by decide
    rwa [hbytes] at hiff

/-- The capacity is in the range for every successful call, whatever the range. -/
def AlwaysWithin : Prop :=
  ∀ (σ : Type) (backend : σ → (o : ctrlSig.Op) → ctrlSig.Res o → σ → Prop)
    (capacity : σ → String → Option Int), ProvisionsExactly backend capacity →
    (∀ s req a tr v b, Exec backend (createVolume s req) a tr (.ok (some v)) b → Creates tr →
      IsInt64 (rangeOf req.capacityRange).requiredBytes →
      IsInt64 (rangeOf req.capacityRange).limitBytes →
      Within (rangeOf req.capacityRange) v.capacityBytes) ∧
    (∀ req a tr resp b, Exec backend (controllerExpandVolume req) a tr (.ok resp) b →
      IsInt64 (rangeOf req.capacityRange).requiredBytes →
      IsInt64 (rangeOf req.capacityRange).limitBytes →
      Within (rangeOf req.capacityRange) resp.capacityBytes)

/-- A volume for which 9000 GiB and one byte are required gets 9000 GiB. -/
theorem not_alwaysWithin : ¬AlwaysWithin := by
  intro h
  have hmore : 9000 * gib + 1 ∈ [9000 * gib, 9000 * gib + 1] := by decide
  obtain ⟨tr, v, b, hexec, hcreates, hv⟩ := exec_create hmore
  have hwithin := (h _ _ _ provisionsExactly_cloud).1 _ _ _ _ _ _ hexec hcreates
    (by constructor <;> decide) (by constructor <;> decide)
  have hle := hwithin.1 (by decide)
  rw [hv] at hle
  exact absurd hle (by decide)

end Sample

end LustreCsi.Analysis.CapacityContract
