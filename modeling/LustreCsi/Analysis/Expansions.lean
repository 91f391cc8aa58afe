import Mathlib.Algebra.Ring.Int.Defs
import LustreCsi.Analysis.CapacityContract

/-!
# Expanding a volume again and again

`ControllerExpandVolume` compares capacities in bytes and asks the API for whole GiB, rounded down.
`expansions_safe`: no sequence of expansions shrinks an instance or lets a product overflow, for
every backend that does what it is asked for or nothing (`ResizesExactly`).
-/

set_option autoImplicit false

namespace LustreCsi.Analysis.Expansions

open LustreCsi.Computation Model Interface CapacityContract

variable {req : ControllerExpandVolumeRequest} {r : Except Status ControllerExpandVolumeResponse}
  {c : Int}

/-! ## The backend -/

/-- The operations that leave the backend alone: reading, and the locks of the driver. -/
def Quiet (o : CloudOp) : Prop := Reads o ∨ (∃ x, o = .tryAcquire x) ∨ ∃ x, o = .release x

/-- What a backend knows of its instances: the instances themselves, and which ones are being updated. -/
structure View (σ : Type) where
  find : σ → String → Option CloudInstance
  updating : σ → String → Prop

/-- An operation that is not done and updates the instance of the given name. -/
def Updates (op : Operation) (name : String) : Prop :=
  ∃ verb, op.metadata = some (verb, name) ∧ equalFoldUpdate verb = true ∧ op.done = false

/-- A backend that answers truly, and answers a resize with an error and no change or by setting exactly the
GiB that it is asked for. -/
structure ResizesExactly {σ : Type} (backend : σ → (o : ctrlSig.Op) → ctrlSig.Res o → σ → Prop)
    (V : View σ) : Prop where
  quiet : ∀ a o r b, Quiet o → backend a o r b → V.find b = V.find a ∧ V.updating b = V.updating a
  reported : ∀ a n i b, backend a (.getInstance n) (.ok i) b → V.find a n = some i ∧ i.name = n
  listed : ∀ a p l n ops b, Component p → Component l → Component n →
    backend a (.listOperations (locationName p l)) (ops, none) b →
    V.updating a (resourceName p l n) → ∃ op ∈ ops, Updates op (resourceName p l n)
  refused : ∀ a n c err b, backend a (.updateInstance n c) (.error err) b → V.find b = V.find a
  failed : ∀ a n c k a₁ err b, backend a (.updateInstance n c) (.ok k) a₁ →
    backend a₁ (.waitInstance k) (.error err) b → V.find b = V.find a
  resized : ∀ a n c k a₁ i b, backend a (.updateInstance n c) (.ok k) a₁ →
    backend a₁ (.waitInstance k) (.ok i) b →
    i.capacityGib = c ∧ V.find b = Function.update (V.find a) n (some i)

/-! ## What a call does -/

/-- The changes of capacity that a call asks for. -/
def resizes (tr : List (Event ctrlSig)) : List (String × Int) :=
  tr.filterMap fun e => match e.1 with
    | .updateInstance n c => some (n, c)
    | _ => none

/-- The resizes in two parts of a run. -/
theorem resizes_append (tr₁ tr₂ : List (Event ctrlSig)) :
    resizes (tr₁ ++ tr₂) = resizes tr₁ ++ resizes tr₂ := List.filterMap_append

/-- Quiet operations ask for no change. -/
theorem resizes_of_quiet {tr : List (Event ctrlSig)} (h : ∀ e ∈ tr, Quiet e.1) : resizes tr = [] := by
  refine List.filterMap_eq_nil_iff.mpr fun e he => ?_
  split
  · rename_i n c ho
    rcases h e he with hread | ⟨x, hx⟩ | ⟨x, hx⟩
    · rw [ho] at hread
      exact hread.elim
    · rw [ho] at hx
      cases hx
    · rw [ho] at hx
      cases hx
  · rfl

section Calls

variable {σ : Type} {backend : σ → (o : ctrlSig.Op) → ctrlSig.Res o → σ → Prop} {a b : σ}
  {tr : List (Event ctrlSig)}

/-- The search for an update in progress. -/
theorem exec_isUpdateInProgress {i : ServiceInstance} {x : Except ApiError Bool}
    (h : Exec backend (isUpdateInProgress i) a tr x b) :
    ∃ ops err, backend a (.listOperations (locationName i.project i.location)) (ops, err) b ∧
      tr = [⟨.listOperations (locationName i.project i.location), (ops, err)⟩] ∧
      (x = .ok false → err = none ∧ ∀ op ∈ ops, ¬Updates op (instanceFullName i)) := by
  unfold isUpdateInProgress searchOperations at h
  obtain ⟨tr₁, y, a₁, tr₂, hsearch, hret, rfl⟩ := exec_bind.mp h
  obtain ⟨rfl, rfl, rfl⟩ := exec_return.mp hret
  obtain ⟨⟨ops, err⟩, a₂, tr₃, hlist, rfl, hrest⟩ := exec_invoke_bind.mp hsearch
  have hend : tr₃ = [] ∧ b = a₂ ∧
      (y = .ok none → err = none ∧ ∀ op ∈ ops, ¬Updates op (instanceFullName i)) := by
    dsimp only at hrest
    split at hrest
    · obtain ⟨rfl, rfl, rfl⟩ := exec_return.mp hrest
      exact ⟨rfl, rfl, fun hy => by cases hy⟩
    · obtain ⟨rfl, rfl, rfl⟩ := exec_return.mp hrest
      exact ⟨rfl, rfl, fun hy => by cases hy⟩
    · rename_i hfind
      obtain ⟨rfl, rfl, rfl⟩ := exec_return.mp hrest
      refine ⟨rfl, rfl, fun _ => ⟨rfl, fun op hop hupdates => ?_⟩⟩
      obtain ⟨verb, hmeta, hverb, hdone⟩ := hupdates
      have hno := List.find?_eq_none.mp hfind op hop
      simp [hmeta, hverb, hdone] at hno
  obtain ⟨rfl, rfl, hnone⟩ := hend
  refine ⟨ops, err, hlist, rfl, fun hx => hnone ?_⟩
  cases y with
  | error err => cases hx
  | ok found =>
    cases found with
    | none => rfl
    | some op => cases hx

/-- A resize is refused, or accepted and waited for. -/
theorem exec_resizeInstance {i : ServiceInstance} {x : Except ApiError ServiceInstance}
    (h : Exec backend (resizeInstance i) a tr x b) :
    resizes tr = [(instanceFullName i, i.capacityGib)] ∧
      ((∃ err, backend a (.updateInstance (instanceFullName i) i.capacityGib) (.error err) b) ∨
        ∃ k a₁ r, backend a (.updateInstance (instanceFullName i) i.capacityGib) (.ok k) a₁ ∧
          backend a₁ (.waitInstance k) r b) := by
  obtain ⟨r, a₁, tr₁, hupdate, rfl, hrest⟩ := exec_invoke_bind.mp h
  cases r with
  | error err =>
    obtain ⟨rfl, -, rfl⟩ := exec_return.mp hrest
    exact ⟨rfl, .inl ⟨err, hupdate⟩⟩
  | ok k =>
    obtain ⟨r', a₂, tr₂, hwait, rfl, hret⟩ := exec_invoke_bind.mp hrest
    have hend : tr₂ = [] ∧ b = a₂ := by
      cases r' with
      | error err => exact ⟨(exec_return.mp hret).1, (exec_return.mp hret).2.2⟩
      | ok reported => exact ⟨(exec_return.mp hret).1, (exec_return.mp hret).2.2⟩
    obtain ⟨rfl, rfl⟩ := hend
    exact ⟨rfl, .inr ⟨k, a₁, r', hupdate, hwait⟩⟩

/-- An instance that was found is only read, or it is active, not updated, too small, and resized.
-/
theorem exec_expandFound {found : ServiceInstance}
    (h : Exec backend (expandFound req found) a tr r b) :
    (∀ e ∈ tr, Quiet e.1) ∨ ∃ capBytes ops a₁ trR x, found.state = some .active ∧
      getRequestCapacity req.capacityRange = .ok capBytes ∧ gibToBytes found.capacityGib < capBytes ∧
      backend a (.listOperations (locationName found.project found.location)) (ops, none) a₁ ∧
      (∀ op ∈ ops, ¬Updates op (instanceFullName found)) ∧
      Exec backend (resizeInstance { found with capacityGib := bytesToGib capBytes }) a₁ trR x b ∧
      resizes tr = resizes trR := by
  have hstop : ∀ {tr₀ : List (Event ctrlSig)} {a₀ : σ} {y : Except Status ControllerExpandVolumeResponse},
      Exec backend (pure y : CtrlM _) a₀ tr₀ r b → tr₀ = [] ∧ b = a₀ := fun h =>
    ⟨(exec_return.mp h).1, (exec_return.mp h).2.2⟩
  unfold expandFound at h
  split at h
  · obtain ⟨rfl, -⟩ := hstop h
    exact .inl (by simp)
  rename_i hactive
  split at h
  · obtain ⟨rfl, -⟩ := hstop h
    exact .inl (by simp)
  rename_i capBytes hcap
  split at h
  · obtain ⟨rfl, -⟩ := hstop h
    exact .inl (by simp)
  rename_i hmore
  obtain ⟨tr₁, inProgress, a₁, tr₂, hsearch, hrest, rfl⟩ := exec_bind.mp h
  obtain ⟨ops, err, hlist, rfl, hnone⟩ := exec_isUpdateInProgress hsearch
  have hquiet : ∀ e ∈ [(⟨.listOperations (locationName found.project found.location), (ops, err)⟩ :
      Event ctrlSig)], Quiet e.1 := fun e he => by
    obtain rfl := List.mem_singleton.mp he
    exact .inl trivial
  split at hrest
  · obtain ⟨rfl, -⟩ := hstop hrest
    exact .inl hquiet
  · obtain ⟨rfl, -⟩ := hstop hrest
    exact .inl hquiet
  · obtain ⟨rfl, hno⟩ := hnone rfl
    obtain ⟨trR, x, a₂, tr₄, hresize, hret, rfl⟩ := exec_bind.mp hrest
    have hend : tr₄ = [] ∧ b = a₂ := by
      cases x with
      | error err => exact hstop hret
      | ok updated => exact hstop hret
    obtain ⟨rfl, rfl⟩ := hend
    refine .inr ⟨capBytes, ops, a₁, trR, x, not_not.mp hactive, hcap, by omega, hlist, hno, hresize, ?_⟩
    rw [resizes_append, resizes_of_quiet hquiet, List.append_nil, List.nil_append]

/-- All that a call can do. -/
theorem exec_controllerExpandVolume (h : Exec backend (controllerExpandVolume req) a tr r b) :
    (∀ e ∈ tr, Quiet e.1) ∨ ∃ a₁ a₂ a₃ name reported found tr₁,
      backend a (.tryAcquire req.volumeID) true a₁ ∧ backend a₁ (.getInstance name) (.ok reported) a₂ ∧
      cloudInstanceToServiceInstance reported = .ok found ∧
      Exec backend (expandFound req found) a₂ tr₁ r a₃ ∧ backend a₃ (.release req.volumeID) () b ∧
      resizes tr = resizes tr₁ ∧ ((∀ e ∈ tr₁, Quiet e.1) → ∀ e ∈ tr, Quiet e.1) := by
  unfold controllerExpandVolume at h
  split at h
  · obtain ⟨rfl, -⟩ := exec_return.mp h
    exact .inl (by simp)
  obtain ⟨rfl, -⟩ | ⟨a₁, tr₁, a₂, hacquire, hbody, hrelease, rfl⟩ := exec_withVolumeLock h
  · exact .inl (by simp [Quiet])
  have hlocks : ∀ {tr₀ : List (Event ctrlSig)}, (∀ e ∈ tr₀, Quiet e.1) →
      ∀ e ∈ (⟨.tryAcquire req.volumeID, true⟩ : Event ctrlSig) :: tr₀ ++ [⟨.release req.volumeID, ()⟩],
        Quiet e.1 := fun h₀ e he => by
    simp only [List.cons_append, List.mem_cons, List.mem_append, List.not_mem_nil, or_false] at he
    rcases he with rfl | he | rfl
    · exact .inr (.inl ⟨_, rfl⟩)
    · exact h₀ e he
    · exact .inr (.inr ⟨_, rfl⟩)
  unfold expandLocked at hbody
  split at hbody
  · obtain ⟨rfl, -⟩ := exec_return.mp hbody
    exact .inl (hlocks (by simp))
  rename_i i _
  obtain ⟨tr₂, x, a₃, tr₃, hget, hrest, rfl⟩ := exec_bind.mp hbody
  obtain ⟨ans, hstep, rfl, rfl⟩ := exec_getInstance hget
  have hquiet : ∀ e ∈ [(⟨.getInstance (instanceFullName i), ans⟩ : Event ctrlSig)], Quiet e.1 :=
    fun e he => by
      obtain rfl := List.mem_singleton.mp he
      exact .inl trivial
  cases ans with
  | error err =>
    obtain ⟨rfl, -⟩ := exec_return.mp hrest
    exact .inl (hlocks hquiet)
  | ok reported =>
    cases hconv : cloudInstanceToServiceInstance reported with
    | error err =>
      simp only [Except.bind, hconv] at hrest
      obtain ⟨rfl, -⟩ := exec_return.mp hrest
      exact .inl (hlocks hquiet)
    | ok found =>
      simp only [Except.bind, hconv] at hrest
      refine .inr ⟨a₁, a₃, a₂, _, reported, found, tr₃, hacquire, hstep, hconv, hrest, hrelease, ?_,
        fun h₃ => hlocks fun e he => ?_⟩
      · rw [List.cons_append, ← List.singleton_append, resizes_append, resizes_append, resizes_append,
          resizes_of_quiet hquiet]
        simp [resizes]
      · exact (List.mem_append.mp he).elim (hquiet e) (h₃ e)

end Calls

/-! ## Capacities -/

section Capacities

variable {σ : Type} {backend : σ → (o : ctrlSig.Op) → ctrlSig.Res o → σ → Prop} {V : View σ} {a b : σ}
  {tr : List (Event ctrlSig)}

/-- Every instance has less than 2^33 GiB. -/
def Bounded (V : View σ) (a : σ) : Prop :=
  ∀ n i, V.find a n = some i → 0 ≤ i.capacityGib ∧ i.capacityGib < 2 ^ 33

/-- No instance is gone or has become smaller. -/
def Grown (V : View σ) (a b : σ) : Prop :=
  ∀ n i, V.find a n = some i → ∃ i', V.find b n = some i' ∧ i.capacityGib ≤ i'.capacityGib

/-- Where no instance has changed, none has shrunk. -/
theorem Grown.of_eq (h : V.find b = V.find a) : Grown V a b := fun n i hi =>
  ⟨i, by rw [h, hi], le_rfl⟩

/-- What has not shrunk twice has not shrunk. -/
theorem Grown.trans {c : σ} (h : Grown V a b) (h' : Grown V b c) : Grown V a c := fun n i hi => by
  obtain ⟨i₁, hi₁, hle₁⟩ := h n i hi
  obtain ⟨i₂, hi₂, hle₂⟩ := h' n i₁ hi₁
  exact ⟨i₂, hi₂, hle₁.trans hle₂⟩

/-- Fewer than 2^33 GiB fit. -/
theorem isInt64_of_lt (h : 0 ≤ c ∧ c < 2 ^ 33) : IsInt64 (c * gib) := by
  obtain ⟨hlow, hhigh⟩ := h
  rw [show gib = 1073741824 from rfl]
  constructor
  · omega
  · omega

/-- Requested bytes are more than those of an instance only if they are at least as many whole GiB. -/
theorem le_bytesToGib {capBytes : Int} (hc : 0 ≤ c ∧ c < 2 ^ 33) (hcap : IsInt64 capBytes)
    (hlt : gibToBytes c < capBytes) :
    c * gib < capBytes ∧ c ≤ bytesToGib capBytes ∧ bytesToGib capBytes < 2 ^ 33 := by
  rw [gibToBytes_of_fits (isInt64_of_lt hc)] at hlt
  refine ⟨hlt, ?_⟩
  obtain ⟨hlow, -⟩ := hc
  obtain ⟨-, hhigh⟩ := hcap
  rw [show gib = 1073741824 from rfl] at hlt
  have hdiv : bytesToGib capBytes = capBytes / 1073741824 :=
    Int.tdiv_eq_ediv_of_nonneg (by omega)
  rw [hdiv]
  constructor
  · omega
  · omega

/-- What holds for a call: it asks for one change at most, of an active instance that is not updated and has
fewer bytes than requested, to at least the GiB it has; without it the backend is unchanged; no instance
shrinks; and all capacities in bytes are of type `int64`. -/
structure SafeExpansion (V : View σ) (req : ControllerExpandVolumeRequest) (a : σ)
    (tr : List (Event ctrlSig)) (b : σ) : Prop where
  single : (resizes tr).length ≤ 1
  justified : ∀ n c, (n, c) ∈ resizes tr → ∃ i capBytes, V.find a n = some i ∧ i.state = .active ∧
    ¬V.updating a n ∧ getRequestCapacity req.capacityRange = .ok capBytes ∧
    i.capacityGib * gib < capBytes ∧ i.capacityGib ≤ c
  unchanged : resizes tr = [] → V.find b = V.find a ∧ V.updating b = V.updating a
  grown : Grown V a b
  fits : ∀ n i, V.find a n = some i ∨ V.find b n = some i → IsInt64 (i.capacityGib * gib)

/-- Quiet operations leave the backend alone. -/
theorem unchanged_of_quiet {α : Type} (hb : ResizesExactly backend V) {p : CtrlM α} {r : α}
    (h : Exec backend p a tr r b) (hquiet : ∀ e ∈ tr, Quiet e.1) :
    V.find b = V.find a ∧ V.updating b = V.updating a :=
  Exec.rel_of_mem (R := fun a b => V.find b = V.find a ∧ V.updating b = V.updating a)
    (fun _ => ⟨rfl, rfl⟩) (fun _ _ _ h₁ h₂ => ⟨h₂.1.trans h₁.1, h₂.2.trans h₁.2⟩) h
    fun e he s s' hs => hb.quiet s e.1 e.2 s' (hquiet e he) hs

/-- A call that leaves the backend alone. -/
theorem safe_of_unchanged (ha : Bounded V a) (hresizes : resizes tr = [])
    (h : V.find b = V.find a ∧ V.updating b = V.updating a) :
    SafeExpansion V req a tr b ∧ Bounded V b := by
  refine ⟨⟨by simp [hresizes], by simp [hresizes], fun _ => h, .of_eq h.1, fun n i hi => ?_⟩, ?_⟩
  · rw [h.1, or_self] at hi
    exact isInt64_of_lt (ha n i hi)
  · unfold Bounded
    rw [h.1]
    exact ha

/-- One call from a state with bounded capacities. -/
theorem safeExpansion (hb : ResizesExactly backend V) (ha : Bounded V a)
    (hreq : IsInt64 (rangeOf req.capacityRange).requiredBytes)
    (h : Exec backend (controllerExpandVolume req) a tr r b) :
    SafeExpansion V req a tr b ∧ Bounded V b := by
  rcases exec_controllerExpandVolume h with hquiet | ⟨a₁, a₂, a₃, name, reported, found, tr₁, hacquire, hget,
    hconv, hfound, hrelease, hresizes, hall⟩
  · exact safe_of_unchanged ha (resizes_of_quiet hquiet) (unchanged_of_quiet hb h hquiet)
  rcases exec_expandFound hfound with hquiet | ⟨capBytes, ops, a₄, trR, x, hactive, hcap, hmore, hlist, hno,
    hresize, heq⟩
  · have hquiet' := hall hquiet
    exact safe_of_unchanged ha (resizes_of_quiet hquiet') (unchanged_of_quiet hb h hquiet')
  -- The instance that is resized is the one that was reported, and nothing has happened since.
  obtain ⟨hreported, hname⟩ := hb.reported _ _ _ _ hget
  obtain ⟨p, l, n, ip, hp, hl, hn, hresource, -, rfl⟩ := cloudInstanceToServiceInstance_eq_ok.mp hconv
  have hlock := hb.quiet _ _ _ _ (.inr (.inl ⟨_, rfl⟩)) hacquire
  have hread := hb.quiet _ (.getInstance name) _ _ (.inl trivial) hget
  have hsearch := hb.quiet _ (.listOperations _) _ _ (.inl trivial) hlist
  have hfree := hb.quiet _ _ _ _ (.inr (.inr ⟨_, rfl⟩)) hrelease
  have hfind₄ : V.find a₄ = V.find a := by rw [hsearch.1, hread.1, hlock.1]
  have hfind : V.find a (resourceName p l n) = some reported := by
    rw [← hlock.1, ← hresource, hname, hreported]
  have hcapacity := ha _ _ hfind
  obtain ⟨rfl, -⟩ := getRequestCapacity_eq_ok hcap
  obtain ⟨hbytes, hle, hlt⟩ := le_bytesToGib hcapacity (isInt64_requested hreq) hmore
  have hnot : ¬V.updating a (resourceName p l n) := fun hupdating => by
    rw [← hlock.2, ← hread.2] at hupdating
    obtain ⟨op, hop, hupdates⟩ := hb.listed _ _ _ _ _ _ hp hl hn hlist hupdating
    exact hno op hop hupdates
  obtain ⟨hsingle, hcase⟩ := exec_resizeInstance hresize
  have hresizes' : resizes tr = [(resourceName p l n, bytesToGib (requested (rangeOf req.capacityRange)))] :=
    (hresizes.trans heq).trans hsingle
  -- The backend is as before, or has set the capacity.
  have hend : V.find b = V.find a ∨ ∃ i, i.capacityGib = bytesToGib (requested (rangeOf req.capacityRange)) ∧
      V.find b = Function.update (V.find a) (resourceName p l n) (some i) := by
    rw [hfree.1, ← hfind₄]
    rcases hcase with ⟨err, hrefused⟩ | ⟨k, a₅, ans, haccepted, hwait⟩
    · exact .inl (hb.refused _ _ _ _ _ hrefused)
    cases ans with
    | error err => exact .inl (hb.failed _ _ _ _ _ _ _ haccepted hwait)
    | ok i => exact .inr ⟨i, hb.resized _ _ _ _ _ _ _ haccepted hwait⟩
  have hbounded : Bounded V b := by
    rcases hend with hsame | ⟨i, hi, hupdate⟩
    · unfold Bounded
      rw [hsame]
      exact ha
    intro m j hj
    rw [hupdate, Function.update_apply] at hj
    split at hj
    · cases hj
      rw [hi]
      exact ⟨hcapacity.1.trans hle, hlt⟩
    · exact ha m j hj
  refine ⟨⟨by simp [hresizes'], fun m c hmc => ?_, by simp [hresizes'], ?_, fun m i hi => ?_⟩, hbounded⟩
  · rw [hresizes', List.mem_singleton] at hmc
    cases hmc
    exact ⟨reported, _, hfind, by simpa using hactive, hnot, hcap, hbytes, hle⟩
  · rcases hend with hsame | ⟨i, hi, hupdate⟩
    · exact .of_eq hsame
    · intro m j hj
      rw [hupdate]
      by_cases hm : m = resourceName p l n
      · subst hm
        obtain rfl : reported = j := Option.some.inj (hfind.symm.trans hj)
        exact ⟨i, Function.update_self .., hi ▸ hle⟩
      · exact ⟨j, (Function.update_of_ne hm ..).trans hj, le_rfl⟩
  · rcases hi with hi | hi
    · exact isInt64_of_lt (ha m i hi)
    · exact isInt64_of_lt (hbounded m i hi)

/-! ## Sequences of calls -/

/-- Calls one after the other, each with its request. -/
inductive Calls (backend : σ → (o : ctrlSig.Op) → ctrlSig.Res o → σ → Prop) :
    σ → List ControllerExpandVolumeRequest → σ → Prop where
  | nil (a : σ) : Calls backend a [] a
  | snoc {a b c : σ} {reqs : List ControllerExpandVolumeRequest} {req : ControllerExpandVolumeRequest}
      {tr : List (Event ctrlSig)} {r : Except Status ControllerExpandVolumeResponse}
      (h : Calls backend a reqs b) (hcall : Exec backend (controllerExpandVolume req) b tr r c) :
      Calls backend a (reqs ++ [req]) c

/-- The bytes of the range are of type `int64`. -/
def Typed (req : ControllerExpandVolumeRequest) : Prop :=
  IsInt64 (rangeOf req.capacityRange).requiredBytes ∧ IsInt64 (rangeOf req.capacityRange).limitBytes

/-- **Expansion never shrinks and never overflows.** Let the backend resize exactly or not at all, and let
every instance have less than 2^33 GiB. After any sequence of calls no instance has become smaller, every
instance still has less than 2^33 GiB, and whatever call comes next is safe: it asks for at most one change,
of an active instance that is not being updated and has fewer bytes than requested, to at least the GiB that
the instance has; without it the backend is unchanged; and no capacity exceeds `int64` in bytes.

SOURCE: pkg/csi_driver/controller.go:315-341, 579-646, pkg/util/util.go:172-174 -/
theorem expansions_safe (hb : ResizesExactly backend V) (ha : Bounded V a)
    {reqs : List ControllerExpandVolumeRequest} (hreqs : ∀ req ∈ reqs, Typed req)
    (h : Calls backend a reqs b) :
    Grown V a b ∧ Bounded V b ∧ ∀ req tr r c, Typed req →
      Exec backend (controllerExpandVolume req) b tr r c → SafeExpansion V req b tr c := by
  have hrun : Grown V a b ∧ Bounded V b := by
    induction h with
    | nil => exact ⟨.of_eq rfl, ha⟩
    | snoc h hcall ih =>
      rename_i req _ _
      obtain ⟨hgrown, hbounded⟩ := ih fun req' hreq' => hreqs req' (by simp [hreq'])
      obtain ⟨hsafe, hbounded'⟩ := safeExpansion hb hbounded (hreqs req (by simp)).1 hcall
      exact ⟨hgrown.trans hsafe.grown, hbounded'⟩
  exact ⟨hrun.1, hrun.2, fun req tr r c hreq hcall => (safeExpansion hb hrun.2 hreq.1 hcall).1⟩

end Capacities

/-! ## The API, when it decides at once -/

/-- The operations of the API in which a refused change has no effect and a wait lasts until the end. -/
def exactExec (s : CloudState) (o : CloudOp) (c : CloudChoice) : Option (o.Res × CloudState) :=
  match o, c with
  | _, .fail _ true => none
  | .waitInstance _, .fail _ false => none
  | o, c => s.exec o c

/-- Instances and updates as the API keeps them. -/
def cloudView : View CloudState where
  find := CloudState.find
  updating s name := ∃ p l n, Component p ∧ Component l ∧ Component n ∧ name = resourceName p l n ∧
    ∃ op ∈ s.operationsOf (locationName p l), Updates op name

/-- These are operations of the API. -/
theorem step_of_exactExec {s s' : CloudState} {o : CloudOp} {r : o.Res}
    (h : stepOf (S := ctrlSig) exactExec s o r s') : s.step o r s' := by
  obtain ⟨c, h⟩ := h
  unfold exactExec at h
  split at h
  · cases h
  · cases h
  · exact ⟨c, h⟩

/-- A change of capacity that succeeds sets the capacity and nothing else. -/
theorem find_finish_update (s : CloudState) (n ip : String) (c : Int) :
    (s.finish n ip (.update c)).find =
      Function.update s.find n ((s.find n).map fun i => { i with capacityGib := c }) := by
  funext m
  rw [Function.update_apply]
  refine (find_modify s n m (f := fun i => { i with capacityGib := c }) fun _ => rfl).trans ?_
  split
  · subst m
    rfl
  · rfl

/-- A change of capacity that is waited for has failed without an effect, or has set the capacity. -/
theorem wait_update {s s' : CloudState} {n : String} {r : Except ApiError CloudInstance}
    (h : stepOf (S := ctrlSig) exactExec (s.acceptUpdate n c) (.waitInstance s.operations.length) r s') :
    (∃ err, r = .error err ∧ s'.find = s.find) ∨
      ∃ i, r = .ok i ∧ i.capacityGib = c ∧ s'.find = Function.update s.find n (some i) := by
  obtain ⟨choice, h⟩ := h
  have hpending : (s.acceptUpdate n c).operations[s.operations.length]? =
      some ⟨CloudState.locationOf n, n, some (.update c), .pending⟩ := by
    simp [CloudState.acceptUpdate, CloudState.addOperation]
  cases choice with
  | ok => simp [exactExec, CloudState.exec, CloudState.created, hpending] at h
  | ends ending =>
    cases ending with
    | fail code message =>
      simp only [exactExec, CloudState.exec, CloudState.complete, hpending] at h
      cases h
      exact .inl ⟨_, rfl, rfl⟩
    | succeed ip =>
      have hfinished := find_finish_update (s.acceptUpdate n c) n ip c
      simp only [exactExec, CloudState.exec] at h
      split at h
      · rename_i done ending ip' hcomplete hending
        obtain ⟨i, hcreated, hi⟩ := Option.map_eq_some_iff.mp h
        cases hi
        obtain ⟨ip'', hfind⟩ := created_of_complete hpending hcomplete hcreated
        simp only [Option.elim_some] at hfind
        rw [find_finish_update, Function.update_self] at hfind
        obtain ⟨i₀, hi₀, rfl⟩ := Option.map_eq_some_iff.mp hfind
        refine .inr ⟨_, rfl, rfl, ?_⟩
        simp only [CloudState.complete, hpending] at hcomplete
        cases hcomplete
        rw [hi₀] at hfinished
        exact hfinished
      · rename_i hending
        cases hending
      · cases h
  | fail err applied => cases applied <;> cases h
  | _ => cases h

/-- The API resizes exactly what it is asked for. -/
theorem resizesExactly_cloud : ResizesExactly (stepOf (S := ctrlSig) exactExec) cloudView where
  quiet a o r b ho h := by
    have hout := cloudOutcome_of_step (step_of_exactExec h)
    rcases ho with hread | ⟨x, rfl⟩ | ⟨x, rfl⟩
    · rw [state_of_reads hread hout]
      exact ⟨rfl, rfl⟩
    · obtain ⟨-, -, rfl⟩ | ⟨-, -, rfl⟩ := hout
      · exact ⟨rfl, rfl⟩
      · exact ⟨rfl, rfl⟩
    · rw [show b = _ from hout]
      exact ⟨rfl, rfl⟩
  reported a n i b h := by
    obtain ⟨-, ⟨i', hi', hfind⟩ | ⟨err, herr, -⟩⟩ := cloudOutcome_of_step (step_of_exactExec h)
    · cases hi'
      exact ⟨hfind, name_of_find hfind⟩
    · cases herr
  listed a p l n ops b hp hl hn h hupdating := by
    obtain ⟨-, hlisting⟩ := cloudOutcome_of_step (step_of_exactExec h)
    obtain ⟨p', l', n', hp', hl', hn', hname, op, hop, hupdates⟩ := hupdating
    obtain ⟨rfl, rfl, rfl⟩ := resourceName_inj hp hl hp' hl' hname
    have hperm : ops.Perm (a.operationsOf (locationName p l)) := by simpa [listing] using hlisting
    exact ⟨op, hperm.mem_iff.mpr hop, hupdates⟩
  refused a n c err b h := by
    obtain ⟨choice, h⟩ := h
    cases choice with
    | ok =>
      simp only [exactExec, CloudState.exec] at h
      split at h <;> cases h
      rfl
    | fail err' applied =>
      cases applied with
      | true => cases h
      | false =>
        simp only [exactExec, CloudState.exec] at h
        cases h
        rfl
    | _ => cases h
  failed a n c k a₁ err b hupdate hwait := by
    obtain ⟨hk, -, rfl⟩ | ⟨err', herr, -⟩ := cloudOutcome_of_step (step_of_exactExec hupdate)
    · cases hk
      obtain ⟨-, -, hfind⟩ | ⟨i, hr, -⟩ := wait_update hwait
      · exact hfind
      · cases hr
    · cases herr
  resized a n c k a₁ i b hupdate hwait := by
    obtain ⟨hk, -, rfl⟩ | ⟨err', herr, -⟩ := cloudOutcome_of_step (step_of_exactExec hupdate)
    · cases hk
      obtain ⟨err, hr, -⟩ | ⟨i', hr, hi, hfind⟩ := wait_update hwait
      · cases hr
      · cases hr
        exact ⟨hi, hfind⟩
    · cases herr

/-! ## Two expansions -/

/-- The volume of 9000 GiB is expanded to 9001 GiB. -/
theorem expandExact_played :
    ((play (S := ctrlSig) exactExec (controllerExpandVolume (expandSized (9001 * gib))) expanding
      provisioned).map fun rs => (rs.2.instances.map (·.capacityGib))) = some [9001] := by
  decide +kernel

/-- Every instance of the sample has few GiB. -/
theorem bounded_provisioned : Bounded cloudView provisioned := by
  intro n i hi
  obtain rfl : i = _ := by simpa [provisioned] using List.mem_of_find?_eq_some hi
  decide

/-- The volume of 9000 GiB is expanded to 9001 GiB, and whatever comes next is safe. -/
theorem expansions_safe_next :
    ∃ b, Calls (stepOf (S := ctrlSig) exactExec) provisioned [expandSized (9001 * gib)] b ∧
      b.instances.map (·.capacityGib) = [9001] ∧ Grown cloudView provisioned b ∧ Bounded cloudView b ∧
      ∀ req tr r c, Typed req → Exec (stepOf (S := ctrlSig) exactExec) (controllerExpandVolume req) b tr r c →
        SafeExpansion cloudView req b tr c := by
  obtain ⟨⟨r, b⟩, hplay, hobs⟩ := Option.map_eq_some_iff.mp expandExact_played
  obtain ⟨tr, hexec⟩ := play_exec _ hplay
  have hcalls : Calls (stepOf (S := ctrlSig) exactExec) provisioned ([] ++ [expandSized (9001 * gib)]) b :=
    .snoc (.nil _) hexec
  refine ⟨b, hcalls, hobs, expansions_safe resizesExactly_cloud bounded_provisioned ?_ hcalls⟩
  intro req hreq
  obtain rfl : req = expandSized (9001 * gib) := by simpa using hreq
  constructor <;> constructor <;> decide

end LustreCsi.Analysis.Expansions
