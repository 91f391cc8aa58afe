import LustreCsi.Interface.Routing

/-!
# Attempts to set up an interface that fail

The route is written before the rule that makes the table the interface's own, and the search for a
table passes over tables that have routes and no rule. An attempt that fails between the two may use
up a table (`not_keepsTables`); `failed_attempts` says when it cannot.
-/

set_option autoImplicit false

namespace LustreCsi.Analysis.RouteFailures

open LustreCsi.Computation Model Model.Network Interface.Routing

variable {parseIP : String → Option IP} {nic ip : String} {s s' : NetState} {addr : IPv4} {T : ℕ}

/-! ## Runs without failures -/

/-- A call that answers as the state says. -/
theorem okStep_of_exec {o : NetOp} {r : o.Res} (h : s.exec o .ok = some (r, s')) :
    s.okStep o r s' := ⟨.ok, fun _ _ => by simp, h⟩

/-- An operation can end as its step allows. -/
theorem reaches_perform {α : Type} {step : NetState → (o : netSig.Op) → netSig.Res o → NetState → Prop}
    {o : NetOp} {f : o.Res → NetM α} {r : o.Res} {s₁ : NetState} {a : α} (hs : step s o r s₁)
    (h : Reaches step (f r) s₁ a s') : Reaches step (perform o >>= f) s a s' := .call hs h

/-- The primary address of a NIC can be read. -/
theorem reaches_getNICIPAddr (h : primary s nic = some addr) :
    Reaches NetState.okStep (getNICIPAddr nic) s (.ok addr) s := by
  obtain ⟨l, hl, haddr⟩ := Option.bind_eq_some_iff.mp h
  have hlink : s.okStep (.linkByName nic) (.ok l) s := okStep_of_exec (by
    simp only [NetState.exec, show s.links.find? (fun l => l.name = nic) = some l from hl])
  have haddrs : s.okStep (.addrList l) (.ok l.addrs) s := okStep_of_exec rfl
  refine reaches_perform hlink (reaches_perform haddrs ?_)
  cases hl' : l.addrs with
  | nil => simp [hl'] at haddr
  | cons x xs =>
    obtain rfl : x = addr := by simpa [hl'] using haddr
    exact .ret _ _

/-- Whether a table is usable can be read. -/
theorem reaches_isTableFree (s : NetState) (T : ℕ) (addr : IPv4) :
    Reaches NetState.okStep (isTableFree T addr) s (.ok ((tenancy s T).usable addr)) s := by
  have hrules : s.okStep .ruleList (.ok s.rules) s := okStep_of_exec rfl
  have hroutes : s.okStep (.routeListFiltered T) (.ok (s.routes.filter fun r => r.table = T)) s :=
    okStep_of_exec rfl
  refine reaches_perform hrules ?_
  dsimp only
  cases hfirst : firstRule s T with
  | some rule =>
    rw [show s.rules.find? (fun r => decide (r.table = T)) = some rule from hfirst]
    have hanswer : (tenancy s T).usable addr = rule.src.any fun src => src.ip = addr := by
      cases hsrc : rule.src <;> simp [tenancy, hfirst, hsrc, Tenancy.usable]
    rw [hanswer]
    exact .ret _ _
  | none =>
    rw [show s.rules.find? (fun r => decide (r.table = T)) = none from hfirst]
    have hanswer : (tenancy s T).usable addr = noRoutes s T := by
      cases hno : noRoutes s T <;> simp [tenancy, hfirst, hno, Tenancy.usable]
    rw [hanswer]
    exact reaches_perform hroutes (.ret _ _)

/-- The table that the search picks can be found. -/
theorem reaches_findFreeTable {startID : ℕ} {ids : List ℕ}
    (h : pick ids (tenancy s) addr = some T) :
    Reaches NetState.okStep (findFreeTable startID addr ids) s (.ok T) s := by
  induction ids with
  | nil => cases h
  | cons id ids ih =>
    refine .bind (reaches_isTableFree s id addr) ?_
    rw [pick, List.find?_cons] at h
    cases husable : (tenancy s id).usable addr with
    | true =>
      rw [husable] at h
      obtain rfl := Option.some.inj h
      exact .ret _ _
    | false =>
      rw [husable] at h
      exact ih h

/-- The search for a table ends with the given one, if no call fails. -/
def Selects (s : NetState) (nic : String) (T : ℕ) : Prop :=
  ∃ addr s', primary s nic = some addr ∧
    Reaches NetState.okStep (findNextFreeTableID initialRouteTableID addr) s (.ok T) s'

/-- The table that is selected is the one chosen for the primary address of the NIC. -/
theorem selects_iff : Selects s nic T ↔ ∃ addr, primary s nic = some addr ∧ chosen s addr = some T := by
  constructor
  · rintro ⟨addr, s', haddr, tr, h⟩
    have h' := h.mono fun _ _ _ _ hs => step_of_okStep hs
    exact ⟨addr, haddr, (exec_findNextFreeTableID h').2.2 T rfl⟩
  · rintro ⟨addr, haddr, hchosen⟩
    exact ⟨addr, s, haddr, reaches_findFreeTable hchosen⟩

/-! ## Failed attempts -/

/-- Any number of consecutive attempts to set up the interface, all of which have failed. -/
inductive FailedAttempts (parseIP : String → Option IP) (nic : String) :
    NetState → NetState → Prop where
  | refl (s : NetState) : FailedAttempts parseIP nic s s
  | tail {s s₁ s₂ : NetState} {ip : String} {tr : List (Event netSig)} {err : Status}
      (h : FailedAttempts parseIP nic s s₁)
      (hfail : Exec NetState.step (setUpMultiNIC parseIP ip [nic]) s₁ tr (some err) s₂) :
      FailedAttempts parseIP nic s s₂

/-- The table holds a route that it did not hold before. -/
def Consumed (s s' : NetState) (T : ℕ) : Prop :=
  T ∈ tables ∧ ∃ route ∈ s'.routes, route.table = T ∧ route ∉ s.routes

/-- Failed attempts leave routes in one table at most, and the next attempt selects this table. -/
def KeepsTables (parseIP : String → Option IP) (nic : String) (s : NetState) : Prop :=
  ∀ s', FailedAttempts parseIP nic s s' →
    (∀ T T', Consumed s s' T → Consumed s s' T' → T = T') ∧
    ∀ T, Consumed s s' T → Selects s' nic T

/-- If the interface has an address and a gateway, the first table that it may use has a rule. -/
def TableReady (nic : String) (s : NetState) : Prop :=
  ∀ l addr gw T, link s nic = some l → primary s nic = some addr → gateway s l = some gw →
    chosen s addr = some T → firstRule s T ≠ none

/-- An attempt for one interface is that of the loop. -/
theorem exec_setUpNIC_of_single {tr : List (Event netSig)} {r : Option Status}
    (h : Exec NetState.step (setUpMultiNIC parseIP ip [nic]) s tr r s') :
    ∃ tr', Exec NetState.step (setUpNIC parseIP ip nic) s tr' r s' := by
  obtain ⟨tr₁, r₁, s₁, tr₂, hfirst, hk, rfl⟩ := exec_bind.mp h
  cases r₁ with
  | some err | none =>
    obtain ⟨-, rfl, rfl⟩ := exec_pure.mp hk
    exact ⟨tr₁, hfirst⟩

/-- What the attempts keep when the table has a rule: only routes of this table are new, and
everybody's tables are as before. -/
structure OnlyRoutes (s : NetState) (T : ℕ) (s' : NetState) : Prop where
  links : s'.links = s.links
  tenancy_eq : tenancy s' = tenancy s
  routes : ∀ route ∈ s'.routes, route ∈ s.routes ∨ route.table = T

/-- Failed attempts of a NIC whose table is its own only change routes of the table. -/
theorem onlyRoutes_of_attempts (haddr : primary s nic = some addr) (hchosen : chosen s addr = some T)
    (hheld : tenancy s T = .held addr) (h : FailedAttempts parseIP nic s s') :
    OnlyRoutes s T s' := by
  induction h with
  | refl => exact ⟨rfl, rfl, fun _ h => .inl h⟩
  | @tail s₁ s₂ ip tr err _ hfail ih =>
    have ih := ih
    obtain ⟨tr', hexec⟩ := exec_setUpNIC_of_single hfail
    rcases exec_setUpNIC hexec with ⟨rfl, -⟩ | ⟨addr', T', route, haddr', hchosen', hw, -⟩
    · exact ih
    obtain rfl : addr = addr' := by
      rw [primary, link, ih.links] at haddr'
      exact Option.some.inj (haddr.symm.trans haddr')
    obtain rfl : T = T' := by
      rw [chosen, ih.tenancy_eq] at hchosen'
      exact Option.some.inj (hchosen.symm.trans hchosen')
    refine ⟨hw.links.trans ih.links, ?_, fun route' hmem => ?_⟩
    · rw [← ih.tenancy_eq]
      funext T''
      by_cases hT : T'' = T
      · subst hT
        have hheld₁ : tenancy s₁ T'' = .held addr := by rw [ih.tenancy_eq, hheld]
        rw [hw.tenancy_of_held hheld₁, hheld₁]
      · exact hw.tenancy_of_ne hT
    · rw [hw.routes] at hmem
      rcases mem_of_mem_replaceRoute hmem with rfl | hold
      · exact .inr hw.table
      · exact ih.routes route' hold

/-- Without address, gateway or table nothing is written. -/
theorem unchanged_of_attempts
    (hno : ∀ l addr gw T, link s nic = some l → primary s nic = some addr →
      gateway s l = some gw → chosen s addr ≠ some T)
    (h : FailedAttempts parseIP nic s s') : s' = s := by
  induction h with
  | refl => rfl
  | tail _ hfail ih =>
    obtain rfl := ih
    obtain ⟨tr', hexec⟩ := exec_setUpNIC_of_single hfail
    rcases exec_setUpNIC hexec with ⟨rfl, -⟩ | ⟨addr, T, route, haddr, hchosen, hw, -⟩
    · rfl
    obtain ⟨l, gw, a, hl, hgw, -⟩ := hw.named
    exact absurd hchosen (hno l addr gw T hl haddr hgw)

/-- An attempt that fails at the last step has written its route. -/
theorem exists_failed {l : Link} {gw : IPv4} {a : IP} (hl : link s nic = some l)
    (haddr : primary s nic = some addr) (hgw : gateway s l = some gw) (hparse : parseIP ip = some a)
    (hchosen : chosen s addr = some T) (hrule : firstRule s T = none) :
    FailedAttempts parseIP nic s (s.putRoute (instanceRoute l a gw T)) := by
  have hok : ∀ {α : Type} {p : NetM α} {s₁ s₂ : NetState} {x : α},
      Reaches NetState.okStep p s₁ x s₂ → Reaches NetState.step p s₁ x s₂ := fun ⟨tr, h⟩ =>
    ⟨tr, h.mono fun _ _ _ _ hs => step_of_okStep hs⟩
  have hread : ∀ {o : NetOp} {r : o.Res} {s₁ : NetState}, s₁.exec o .ok = some (r, s₁) →
      s₁.step o r s₁ := fun h => ⟨.ok, h⟩
  have hlink : s.step (.linkByName nic) (.ok l) s := hread (by
    simp only [NetState.exec, show s.links.find? (fun l => l.name = nic) = some l from hl])
  have hput : s.step (.routeReplace (instanceRoute l a gw T)) none
      (s.putRoute (instanceRoute l a gw T)) := ⟨.ok, rfl⟩
  have hlist : (s.putRoute (instanceRoute l a gw T)).step .ruleList (.ok s.rules)
      (s.putRoute (instanceRoute l a gw T)) := hread rfl
  have hadd : ∀ text, (s.putRoute (instanceRoute l a gw T)).step (.ruleAdd (nicRule addr T))
      (some ⟨false, text⟩) (s.putRoute (instanceRoute l a gw T)) := fun text => ⟨.fail text false, rfl⟩
  have hnot : nicRule addr T ∉ s.rules := notMem_of_firstRule hrule rfl
  have hensure : ∀ text, Reaches NetState.step (ensureRule nic addr T)
      (s.putRoute (instanceRoute l a gw T)) (some s!"failed to add rule for {nic}: {text}")
      (s.putRoute (instanceRoute l a gw T)) := fun text => by
    refine reaches_perform hlist ?_
    dsimp only
    rw [if_neg fun hhas => hnot ((hasRule_iff _).mp hhas)]
    exact reaches_perform (hadd text) ⟨[], rfl, rfl, rfl⟩
  have hroutes : ∀ text, Reaches NetState.step (configureRoutesForNIC parseIP nic addr ip T) s
      (some s!"failed to add rule for {nic}: {text}")
      (s.putRoute (instanceRoute l a gw T)) := fun text => by
    refine reaches_perform hlink (reaches_perform (hread rfl) ?_)
    have hgw' : List.findSome? (·.gw) (s.routes.filter fun r =>
        decide (r.table = mainTable ∧ r.linkIndex = l.index)) = some gw := hgw
    dsimp only
    rw [hgw', hparse]
    exact reaches_perform hput (hensure text)
  have hsetUp : ∃ err, Reaches NetState.step (setUpMultiNIC parseIP ip [nic]) s (some err)
      (s.putRoute (instanceRoute l a gw T)) :=
    ⟨_, .bind (.bind (hok (reaches_getNICIPAddr haddr)) (.bind (hok (reaches_findFreeTable hchosen))
      (.bind (.bind (hok (reaches_getNICIPAddr haddr)) (.bind (hroutes "busy") (.ret _ _))) (.ret _ _))))
      (.ret _ _)⟩
  obtain ⟨err, tr, hexec⟩ := hsetUp
  exact .tail (.refl s) hexec

/-- **Failed attempts.** For every state of the kernel and every interface: failed attempts leave
routes in one table at most, and the next attempt selects that table, if and only if the first table
that the interface may use has a rule already, or there is none, or the interface has no address or no
gateway.
SOURCE: pkg/network/network.go:269-349, 426-478, pkg/csi_driver/node.go:502-527 -/
theorem failed_attempts (hparse : ∃ ip, parseIP ip ≠ none) :
    KeepsTables parseIP nic s ↔ TableReady nic s := by
  constructor
  · intro hkeeps l addr gw T hl haddr hgw hchosen hrule
    obtain ⟨ip, hip⟩ := hparse
    obtain ⟨a, ha⟩ := Option.ne_none_iff_exists'.mp hip
    obtain ⟨-, hselects⟩ := hkeeps _ (exists_failed hl haddr hgw ha hchosen hrule)
    -- The table was free, so the route is new there.
    have hfree : tenancy s T = .free :=
      (Tenancy.usable_iff.mp (usable_of_pick hchosen)).resolve_right fun hheld => by
        obtain ⟨r, -, hr, -⟩ := tenancy_eq_held.mp hheld
        simp [hrule] at hr
    have hnew : instanceRoute l a gw T ∉ s.routes := fun hmem => by
      have hempty := (tenancy_eq_free.mp hfree).2
      rw [noRoutes, List.isEmpty_iff, List.filter_eq_nil_iff] at hempty
      exact hempty _ hmem (by simp [instanceRoute])
    obtain ⟨addr', haddr', hchosen'⟩ := selects_iff.mp (hselects T
      ⟨mem_of_pick hchosen, _, mem_replaceRoute _ _, rfl, hnew⟩)
    have hrule' : firstRule s (instanceRoute l a gw T).table = none := hrule
    have hblocked : tenancy (s.putRoute (instanceRoute l a gw T)) T = .blocked :=
      tenancy_putRoute_of_none hrule'
    have husable := usable_of_pick hchosen'
    rw [hblocked] at husable
    cases husable
  · intro hready s' hattempts
    by_cases hsome : ∃ l addr gw T, link s nic = some l ∧ primary s nic = some addr ∧
        gateway s l = some gw ∧ chosen s addr = some T
    · obtain ⟨l, addr, gw, T, hl, haddr, hgw, hchosen⟩ := hsome
      have hheld : tenancy s T = .held addr :=
        (Tenancy.usable_iff.mp (usable_of_pick hchosen)).resolve_left fun hfree =>
          hready l addr gw T hl haddr hgw hchosen (tenancy_eq_free.mp hfree).1
      have honly := onlyRoutes_of_attempts haddr hchosen hheld hattempts
      have htable : ∀ T', Consumed s s' T' → T' = T := by
        rintro T' ⟨-, route, hmem, rfl, hnew⟩
        exact (honly.routes route hmem).resolve_left hnew
      refine ⟨fun T₁ T₂ h₁ h₂ => (htable T₁ h₁).trans (htable T₂ h₂).symm, fun T' hT' => ?_⟩
      rw [htable T' hT', selects_iff]
      refine ⟨addr, ?_, ?_⟩
      · rw [primary, link, honly.links]
        exact haddr
      · rw [chosen, honly.tenancy_eq]
        exact hchosen
    · have hsame : s' = s := unchanged_of_attempts
        (fun l addr gw T hl haddr hgw hchosen => hsome ⟨l, addr, gw, T, hl, haddr, hgw, hchosen⟩)
        hattempts
      have hnone : ∀ T, ¬Consumed s s' T := by
        rintro T ⟨-, route, hmem, -, hnew⟩
        exact hnew (hsame ▸ hmem)
      exact ⟨fun T _ h => absurd h (hnone T), fun T h => absurd h (hnone T)⟩

/-! ## A failure that uses up a table -/

section Sample

/-- The state after an attempt for `eth1` whose last call fails. -/
def playFailure (reads : ℕ) (s : NetState) : Option (Bool × NetState) :=
  (play (S := netSig) NetState.exec (setUpMultiNIC sampleParse "10.0.0.2" ["eth1"])
    (List.replicate reads .ok ++ [.fail "busy" false]) s).map fun rs => (rs.1.isSome, rs.2)

/-- A table with the route of `eth1` to the instance. -/
def leftRoute (T : ℕ) : Route :=
  instanceRoute ⟨"eth1", 3, [⟨10, 1, 0, 2⟩]⟩ (.v4 ⟨10, 0, 0, 2⟩) ⟨10, 1, 0, 1⟩ T

/-- An attempt that the interpreter ends with a failure is a failed attempt. -/
theorem failedAttempts_of_play {reads : ℕ} {s s₁ s₂ : NetState}
    (h : FailedAttempts sampleParse "eth1" s s₁) (hplay : playFailure reads s₁ = some (true, s₂)) :
    FailedAttempts sampleParse "eth1" s s₂ := by
  obtain ⟨⟨r, s₃⟩, hrun, hobs⟩ := Option.map_eq_some_iff.mp hplay
  obtain ⟨hsome, rfl⟩ := Prod.mk.inj hobs
  obtain ⟨err, rfl⟩ := Option.isSome_iff_exists.mp hsome
  obtain ⟨tr, hexec⟩ := play_exec _ hrun
  exact .tail h hexec

/-- Two attempts whose rule cannot be added leave a route in each of two tables. -/
theorem not_keepsTables : ¬KeepsTables sampleParse "eth1" sampleNet := by
  intro h
  have hfirst : playFailure 11 sampleNet = some (true, sampleNet.putRoute (leftRoute 101)) := by
    decide +kernel
  have hsecond : playFailure 13 (sampleNet.putRoute (leftRoute 101)) =
      some (true, (sampleNet.putRoute (leftRoute 101)).putRoute (leftRoute 102)) := by
    decide +kernel
  have hattempts := failedAttempts_of_play (failedAttempts_of_play (.refl sampleNet) hfirst) hsecond
  have hone := (h _ hattempts).1 101 102 ⟨by decide, leftRoute 101, by decide, rfl, by decide⟩
    ⟨by decide, leftRoute 102, by decide, rfl, by decide⟩
  exact absurd hone (by decide)

/-- The interface has a table of its own. -/
def configuredNet : NetState :=
  (sampleNet.putRoute (leftRoute 101)).addRule 0 (nicRule ⟨10, 1, 0, 2⟩ 101)

/-- Attempts for an interface that has its table use up none. -/
theorem failed_attempts_configured : (∃ ip, sampleParse ip ≠ none) ∧
    KeepsTables sampleParse "eth1" configuredNet := by
  have hparse : ∃ ip, sampleParse ip ≠ none := ⟨"10.0.0.2", by decide⟩
  refine ⟨hparse, (failed_attempts hparse).mpr fun l addr gw T _ haddr _ hchosen => ?_⟩
  obtain rfl : ⟨10, 1, 0, 2⟩ = addr := Option.some.inj haddr
  obtain rfl : 101 = T := by
    have hpick : chosen configuredNet ⟨10, 1, 0, 2⟩ = some 101 := by decide +kernel
    exact Option.some.inj (hpick.symm.trans hchosen)
  decide

end Sample

end LustreCsi.Analysis.RouteFailures
