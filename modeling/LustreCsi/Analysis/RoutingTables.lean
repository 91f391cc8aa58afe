import LustreCsi.Interface.Routing

/-!
# Routing tables after a sequence of calls

`routing_allocation` says what a sequence of calls of `setUpMultiNIC` leaves, which may fail at any
point: the tables still have one source each, each interface that was configured has a rule to a
table with the routes of all its instances, and a repeated call adds no rule.
-/

set_option autoImplicit false

namespace LustreCsi.Analysis.RoutingTables

open LustreCsi.Computation Model Model.Network Interface.Routing

variable {a : IP} {T : ℕ} {route : Route} {nics' : List String} {s₀ : NetState}

/-! ## Sequences of calls -/

/-- A call that has ended: the address of the instance, what was performed and the answer. -/
structure Ended where
  ip : String
  trace : List (Event netSig)
  result : Option Status

/-- The calls of the list, newest first, have been made one after the other. -/
inductive Calls (parseIP : String → Option IP) (nics : List String) :
    NetState → List Ended → NetState → Prop where
  | nil (s : NetState) : Calls parseIP nics s [] s
  | cons {s s₁ s₂ : NetState} {cs : List Ended} {c : Ended} (h : Calls parseIP nics s cs s₁)
      (hc : Exec NetState.step (setUpMultiNIC parseIP c.ip nics) s₁ c.trace c.result s₂) :
      Calls parseIP nics s (c :: cs) s₂

section Calls

variable {parseIP : String → Option IP} {s s' : NetState} {tr : List (Event netSig)}
  {nic nic' ip : String} {nics : List String} {r : Option Status}

/-- What setting up each of the interfaces keeps, the loop keeps. -/
theorem keeps_setUpMultiNIC {P : NetState → Prop}
    (hnic : ∀ nic ∈ nics, ∀ s tr r s', Exec NetState.step (setUpNIC parseIP ip nic) s tr r s' →
      P s → P s')
    (h : Exec NetState.step (setUpMultiNIC parseIP ip nics) s tr r s') (hs : P s) : P s' := by
  induction nics generalizing s tr with
  | nil =>
    obtain ⟨-, -, rfl⟩ := exec_pure.mp h
    exact hs
  | cons nic nics ih =>
    obtain ⟨tr₁, r₁, s₁, tr₂, hfirst, hk, rfl⟩ := exec_bind.mp h
    have hs₁ := hnic nic (by simp) s tr₁ r₁ s₁ hfirst hs
    cases r₁ with
    | some err =>
      obtain ⟨-, -, rfl⟩ := exec_pure.mp hk
      exact hs₁
    | none => exact ih (fun nic' hmem => hnic nic' (List.mem_cons_of_mem _ hmem)) hk hs₁

/-- The interfaces are fixed. -/
theorem links_of_setUpNIC (h : Exec NetState.step (setUpNIC parseIP ip nic) s tr r s') :
    s'.links = s.links := by
  rcases exec_setUpNIC h with ⟨rfl, -⟩ | ⟨addr, T, route, -, -, hw, -⟩
  · rfl
  · exact hw.links

/-- Setting up a NIC keeps tables exclusive. -/
theorem exclusive_of_setUpNIC (h : Exec NetState.step (setUpNIC parseIP ip nic) s tr r s')
    (hs : Exclusive s) : Exclusive s' := by
  rcases exec_setUpNIC h with ⟨rfl, -⟩ | ⟨addr, T, route, -, hchosen, hw, -⟩
  · exact hs
  · exact exclusive_of_rules hs (usable_of_pick hchosen) fun rule => hw.mem_rules

/-! ## Interfaces that are configured -/

/-- The interface holds the table that it is given, its rule is there, and so is its route to the
instance. -/
def Uses (s : NetState) (a : IP) (nic : String) (route : Route) : Prop :=
  ∃ l addr gw T, link s nic = some l ∧ primary s nic = some addr ∧ gateway s l = some gw ∧
    Settled tables (tenancy s) addr T ∧ nicRule addr T ∈ s.rules ∧
    route = instanceRoute l a gw T ∧ route ∈ s.routes

/-- Two routes of an interface in its table are the same, or do not replace each other. -/
theorem instanceRoute_eq_of_sameKey {l : Link} {a' : IP} {gw : IPv4}
    (h : (instanceRoute l a gw T).SameKey (instanceRoute l a' gw T)) :
    instanceRoute l a gw T = instanceRoute l a' gw T := by
  have hnet : (a.network).getD ⟨⟨0, 0, 0, 0⟩, 0⟩ = (a'.network).getD ⟨⟨0, 0, 0, 0⟩, 0⟩ := h.2.1
  have hdst : a.network = a'.network := by
    cases a <;> cases a' <;> simp_all [IP.network]
  simp only [instanceRoute, hdst]

/-- A route to an instance stays when another is put into its table. -/
theorem mem_putRoute_instance {l : Link} {a' : IP} {gw : IPv4} {rs : List Route}
    (h : instanceRoute l a gw T ∈ rs) :
    instanceRoute l a gw T ∈ replaceRoute (instanceRoute l a' gw T) rs := by
  by_cases hkey : (instanceRoute l a gw T).SameKey (instanceRoute l a' gw T)
  · rw [instanceRoute_eq_of_sameKey hkey]
    exact mem_replaceRoute _ _
  · exact mem_replaceRoute_of_mem h hkey

/-- A table that another interface has written to is of no use to this one. -/
theorem settled_of_written {addr addr' : IPv4} {T' : ℕ} (hset : Settled tables (tenancy s) addr T)
    (hne : addr' ≠ addr) (hchosen : chosen s addr' = some T')
    (hw : Written parseIP s nic' ip addr' T' route s') :
    T ≠ T' ∧ Settled tables (tenancy s') addr T := by
  have husable := Tenancy.usable_iff.mp (usable_of_pick hchosen)
  have hTT : T ≠ T' := by
    rintro rfl
    rw [hset.holds] at husable
    simp only [reduceCtorEq, Tenancy.held.injEq, false_or] at husable
    exact hne husable.symm
  have hholds : tenancy s' T = .held addr := by rw [hw.tenancy_of_ne hTT, hset.holds]
  have hother : (tenancy s' T').usable addr = false := by
    rcases husable with hfree | hheld
    · rcases hw.tenancy_of_none (tenancy_eq_free.mp hfree).1 with ⟨-, h⟩ | ⟨-, h⟩
      · simp [h, Tenancy.usable, hne]
      · simp [h, Tenancy.usable]
    · simp [hw.tenancy_of_held hheld, Tenancy.usable, hne]
  refine ⟨hTT, hholds, pick_of_pick hset.picks (by simp [hholds, Tenancy.usable]) fun j _ hj => ?_⟩
  by_cases hjT : j = T'
  · rw [hjT, hother]
  · rwa [hw.tenancy_of_ne hjT]

/-- A configured interface that is set up once more finds its table, and only routes are written. -/
theorem Uses.again (hu : Uses s a nic route)
    (h : Exec NetState.step (setUpNIC parseIP ip nic) s tr r s') :
    (s' = s ∧ r ≠ none) ∨ ∃ l addr gw T a', link s nic = some l ∧ primary s nic = some addr ∧
      gateway s l = some gw ∧ Settled tables (tenancy s) addr T ∧ nicRule addr T ∈ s.rules ∧
      route = instanceRoute l a gw T ∧ route ∈ s.routes ∧ parseIP ip = some a' ∧
      s' = s.putRoute (instanceRoute l a' gw T) ∧ written tr = [instanceRoute l a' gw T] := by
  obtain ⟨l, addr, gw, T, hl, haddr, hgw, hset, hrule, hroute, hmem⟩ := hu
  rcases exec_setUpNIC h with hfail | ⟨addr', T', route', haddr', hchosen, hw, hwritten, -⟩
  · exact .inl hfail
  obtain rfl := Option.some.inj (haddr.symm.trans haddr')
  obtain rfl : T = T' := Option.some.inj (hset.picks.symm.trans hchosen)
  obtain ⟨l', gw', a', hl', hgw', hparse, rfl⟩ := hw.named
  obtain rfl := Option.some.inj (hl.symm.trans hl')
  obtain rfl := Option.some.inj (hgw.symm.trans hgw')
  have hstate := hw.state.resolve_right fun hadd => hadd.1 hrule
  exact .inr ⟨l, addr, gw, T, a', hl, haddr, hgw, hset, hrule, hroute, hmem, hparse, hstate,
    hwritten⟩

/-- What is configured stays configured. -/
theorem Uses.setUpNIC (hu : Uses s a nic route) (hne : nic' ≠ nic → primary s nic' ≠ primary s nic)
    (h : Exec NetState.step (setUpNIC parseIP ip nic') s tr r s') : Uses s' a nic route := by
  by_cases hnic : nic' = nic
  · subst hnic
    rcases hu.again h with ⟨rfl, -⟩ | ⟨l, addr, gw, T, a', hl, haddr, hgw, hset, hrule, rfl, hmem,
      -, rfl, -⟩
    · exact hu
    have hheld : tenancy s (instanceRoute l a' gw T).table = .held addr := hset.holds
    have hsame : tenancy (s.putRoute (instanceRoute l a' gw T)) = tenancy s :=
      funext (tenancy_putRoute_of_held hheld)
    have hmain : (instanceRoute l a' gw T).table ≠ mainTable := by
      rintro heq
      have hT : T ∈ tables := mem_of_pick hset.picks
      rw [show T = mainTable from heq] at hT
      exact absurd hT (by decide)
    exact ⟨l, addr, gw, T, hl, haddr, (gateway_putRoute hmain l).trans hgw, hsame ▸ hset, hrule,
      rfl, mem_putRoute_instance hmem⟩
  · rcases exec_setUpNIC h with ⟨rfl, -⟩ | ⟨addr', T', route', haddr', hchosen, hw, -⟩
    · exact hu
    · obtain ⟨l, addr, gw, T, hl, haddr, hgw, hset, hrule, rfl, hmem⟩ := hu
      have haddr_ne : addr' ≠ addr := by
        rintro rfl
        exact hne hnic (haddr'.trans haddr.symm)
      obtain ⟨hTT, hset'⟩ := settled_of_written hset haddr_ne hchosen hw
      have hlink : ∀ n, link s' n = link s n := fun n => by rw [link, hw.links, link]
      refine ⟨l, addr, gw, T, (hlink nic).trans hl, ?_, ?_, hset', hw.rules_subset hrule, rfl, ?_⟩
      · rw [primary, hlink]
        exact haddr
      · rw [hw.gateway_eq (mem_of_pick hchosen), hgw]
      · rw [hw.routes]
        exact mem_replaceRoute_of_mem hmem fun hkey => hTT (hkey.1.trans hw.table)

/-- An interface is configured when it has been set up. -/
theorem uses_of_setUpNIC (h : Exec NetState.step (setUpNIC parseIP ip nic) s tr none s') :
    ∃ a route, parseIP ip = some a ∧ Uses s' a nic route ∧ written tr = [route] := by
  rcases exec_setUpNIC h with ⟨-, hr⟩ | ⟨addr, T, route, haddr, hchosen, hw, hwritten, hrule⟩
  · exact absurd rfl hr
  obtain ⟨l, gw, a, hl, hgw, hparse, hroute⟩ := hw.named
  have hlink : ∀ n, link s' n = link s n := fun n => by rw [link, hw.links, link]
  refine ⟨a, route, hparse, ⟨l, addr, gw, T, (hlink nic).trans hl, ?_, ?_, ?_, hrule rfl, hroute,
    ?_⟩, hwritten⟩
  · rw [primary, hlink]
    exact haddr
  · rw [hw.gateway_eq (mem_of_pick hchosen), hgw]
  · rw [hw.tenancy_eq hchosen (hrule rfl)]
    exact Settled.of_claim hchosen
  · rw [hw.routes]
    exact mem_replaceRoute _ _

/-! ## Whole calls -/

/-- The interfaces have pairwise distinct primary addresses. -/
def DistinctNICs (s : NetState) (nics : List String) : Prop :=
  ∀ nic ∈ nics, ∀ nic' ∈ nics, nic' ≠ nic → primary s nic' ≠ primary s nic

/-- Whether NICs are distinct depends on the links only. -/
theorem DistinctNICs.of_links (h : DistinctNICs s nics) (hlinks : s'.links = s.links) :
    DistinctNICs s' nics := by
  have hprimary : ∀ n, primary s' n = primary s n := fun n => by
    rw [primary, link, hlinks, primary, link]
  intro nic hnic nic' hnic' hne
  rw [hprimary, hprimary]
  exact h nic hnic nic' hnic' hne

/-- Pairs of two lists, with what is known of the first component. -/
theorem forall₂_imp_of_mem {α β : Type} {R R' : α → β → Prop} {as : List α} {bs : List β}
    (h : List.Forall₂ R as bs) (himp : ∀ a ∈ as, ∀ b, R a b → R' a b) : List.Forall₂ R' as bs := by
  induction h with
  | nil => exact .nil
  | @cons a b as bs hab _ ih =>
    exact .cons (himp a (by simp) b hab) (ih fun a' ha' => himp a' (by simp [ha']))

/-- What is configured stays configured through a whole call. -/
theorem Uses.setUpMultiNIC (hd : DistinctNICs s nics) (hnic : nic ∈ nics) (hsub : nics' ⊆ nics)
    (hu : Uses s a nic route) (h : Exec NetState.step (setUpMultiNIC parseIP ip nics') s tr r s') :
    Uses s' a nic route := by
  have hkeep := keeps_setUpMultiNIC (P := fun s₁ => s₁.links = s.links ∧ Uses s₁ a nic route)
    (fun nic' hnic' s₁ tr₁ r₁ s₂ hexec hs₁ => ?_) h ⟨rfl, hu⟩
  · exact hkeep.2
  · refine ⟨(links_of_setUpNIC hexec).trans hs₁.1, hs₁.2.setUpNIC (fun hne => ?_) hexec⟩
    exact hd.of_links hs₁.1 nic hnic nic' (hsub hnic') hne

/-- A call leaves the links alone. -/
theorem links_of_setUpMultiNIC (h : Exec NetState.step (setUpMultiNIC parseIP ip nics) s tr r s') :
    s'.links = s.links :=
  keeps_setUpMultiNIC (P := fun s₁ => s₁.links = s.links)
    (fun _ _ _ _ _ _ hexec hs₁ => (links_of_setUpNIC hexec).trans hs₁) h rfl

/-- A call that succeeds configures all interfaces. -/
theorem uses_of_setUpMultiNIC (hd : DistinctNICs s nics') (hsub : nics ⊆ nics')
    (h : Exec NetState.step (setUpMultiNIC parseIP ip nics) s tr none s') :
    ∃ a, (nics ≠ [] → parseIP ip = some a) ∧ List.Forall₂ (Uses s' a) nics (written tr) := by
  induction nics generalizing s tr with
  | nil =>
    obtain ⟨rfl, -, -⟩ := exec_pure.mp h
    exact ⟨.v6 [], fun hne => absurd rfl hne, .nil⟩
  | cons nic nics ih =>
    obtain ⟨tr₁, r₁, s₁, tr₂, hfirst, hk, rfl⟩ := exec_bind.mp h
    cases r₁ with
    | some err =>
      obtain ⟨-, hr, -⟩ := exec_pure.mp hk
      cases hr
    | none =>
      obtain ⟨a, route, hparse, hu, hw⟩ := uses_of_setUpNIC hfirst
      have hd₁ := hd.of_links (links_of_setUpNIC hfirst)
      have hrest : nics ⊆ nics' := fun n hn => hsub (by simp [hn])
      have hu' := hu.setUpMultiNIC hd₁ (hsub (by simp)) hrest hk
      obtain ⟨a', hparse', hall⟩ := ih hd₁ hrest hk
      refine ⟨a, fun _ => hparse, ?_⟩
      rw [written_append, hw]
      refine .cons hu' (forall₂_imp_of_mem hall fun n hn route' hu'' => ?_)
      obtain rfl := Option.some.inj (hparse.symm.trans (hparse' (List.ne_nil_of_mem hn)))
      exact hu''

/-- A repeated call writes the same routes and no rule. -/
theorem repeat_of_uses {routes : List Route} (hd : DistinctNICs s nics') (hsub : nics ⊆ nics')
    (hparse : nics ≠ [] → parseIP ip = some a) (hall : List.Forall₂ (Uses s a) nics routes)
    (h : Exec NetState.step (setUpMultiNIC parseIP ip nics) s tr r s') :
    s'.rules = s.rules ∧ (r = none → written tr = routes) := by
  induction nics generalizing s tr routes with
  | nil =>
    obtain ⟨rfl, -, rfl⟩ := exec_pure.mp h
    cases hall
    exact ⟨rfl, fun _ => rfl⟩
  | cons nic nics ih =>
    obtain ⟨route, routes, hu, hrestall, rfl⟩ := List.forall₂_cons_left_iff.mp hall
    obtain ⟨tr₁, r₁, s₁, tr₂, hfirst, hk, rfl⟩ := exec_bind.mp h
    have hrules : s₁.rules = s.rules ∧ (r₁ = none → written tr₁ = [route]) := by
      rcases hu.again hfirst with ⟨rfl, hr⟩ | ⟨l, addr, gw, T, a', -, -, -, -, -, rfl, -, hparse',
        rfl, hw⟩
      · exact ⟨rfl, fun hr' => absurd hr' hr⟩
      obtain rfl := Option.some.inj ((hparse (by simp)).symm.trans hparse')
      exact ⟨rfl, fun _ => hw⟩
    cases r₁ with
    | some err =>
      obtain ⟨-, rfl, rfl⟩ := exec_pure.mp hk
      exact ⟨hrules.1, fun hr => nomatch hr⟩
    | none =>
      have hrest : nics ⊆ nics' := fun n hn => hsub (by simp [hn])
      have hall₁ : List.Forall₂ (Uses s₁ a) nics routes :=
        forall₂_imp_of_mem hrestall fun n hn route' hu' =>
          hu'.setUpNIC (hd n (hrest hn) nic (hsub (by simp))) hfirst
      obtain ⟨hrules₂, hw₂⟩ := ih (hd.of_links (links_of_setUpNIC hfirst)) hrest
        (fun _ => hparse (by simp)) hall₁ hk
      refine ⟨hrules₂.trans hrules.1, fun hr => ?_⟩
      rw [written_append, hrules.2 rfl, hw₂ hr, List.singleton_append]

/-- What holds after a sequence of calls. -/
theorem uses_of_calls {cs : List Ended} (hd : DistinctNICs s₀ nics) (h : Calls parseIP nics s₀ cs s) :
    s.links = s₀.links ∧ ∀ c ∈ cs, c.result = none →
      ∃ a, (nics ≠ [] → parseIP c.ip = some a) ∧
        List.Forall₂ (Uses s a) nics (written c.trace) := by
  induction h with
  | nil => exact ⟨rfl, fun c hc => nomatch hc⟩
  | @cons s₁ s₂ cs c h hc ih =>
    obtain ⟨hlinks, hold⟩ := ih
    have hd₁ := hd.of_links hlinks
    refine ⟨(links_of_setUpMultiNIC hc).trans hlinks, fun c' hmem hr => ?_⟩
    rcases List.mem_cons.mp hmem with rfl | hmem
    · rw [hr] at hc
      exact uses_of_setUpMultiNIC hd₁ (fun _ hn => hn) hc
    obtain ⟨a, hparse, hall⟩ := hold c' hmem hr
    exact ⟨a, hparse, forall₂_imp_of_mem hall fun n hn route hu =>
      hu.setUpMultiNIC hd₁ hn (fun _ hn' => hn') hc⟩

/-- Calls keep tables exclusive. -/
theorem exclusive_of_calls {cs : List Ended} (hs₀ : Exclusive s₀) (h : Calls parseIP nics s₀ cs s) :
    Exclusive s := by
  induction h with
  | nil => exact hs₀
  | cons _ hc ih =>
    exact keeps_setUpMultiNIC (fun _ _ _ _ _ _ hexec => exclusive_of_setUpNIC hexec) hc ih

/-- No table of the driver has rules for two different source networks. -/
def ExclusiveNetworks (s : NetState) : Prop :=
  ∀ r ∈ s.rules, ∀ r' ∈ s.rules, r.table ∈ tables → r.table = r'.table → r.src = r'.src

/-- In the tables of the driver, rules with the address of an interface are for this address only. -/
def HostRules (s : NetState) (nics : List String) : Prop :=
  ∀ r ∈ s.rules, r.table ∈ tables → ∀ src, r.src = some src →
    (∃ nic ∈ nics, primary s nic = some src.ip) → src.ones = 32

/-- The interfaces are as they were, and the rules that were added are theirs. -/
def GrownFrom (s₀ : NetState) (nics : List String) (s : NetState) : Prop :=
  s.links = s₀.links ∧ ∀ rule ∈ s.rules, rule ∈ s₀.rules ∨
    ∃ nic ∈ nics, ∃ addr T, primary s₀ nic = some addr ∧ rule = nicRule addr T

/-- Calls leave the interfaces alone and add only rules of theirs. -/
theorem grownFrom_of_calls {cs : List Ended} (h : Calls parseIP nics s₀ cs s) :
    GrownFrom s₀ nics s := by
  induction h with
  | nil => exact ⟨rfl, fun rule hmem => .inl hmem⟩
  | cons _ hc ih =>
    refine keeps_setUpMultiNIC (P := GrownFrom _ nics) (fun nic hnic s₁ tr₁ r₁ s₂ hexec hs₁ => ?_)
      hc ih
    refine ⟨(links_of_setUpNIC hexec).trans hs₁.1, fun rule hmem => ?_⟩
    rcases exec_setUpNIC hexec with ⟨rfl, -⟩ | ⟨addr, T, route, haddr, -, hw, -⟩
    · exact hs₁.2 rule hmem
    rcases hw.mem_rules hmem with rfl | hold
    · refine .inr ⟨nic, hnic, addr, T, ?_, rfl⟩
      rw [← haddr, primary, primary, link, link, hs₁.1]
    · exact hs₁.2 rule hold

/-- Rules for the same address in the same table are the same. -/
theorem exclusiveNetworks_of_calls {cs : List Ended} (hs : Exclusive s)
    (hnets : ExclusiveNetworks s₀) (hhost : HostRules s₀ nics) (h : Calls parseIP nics s₀ cs s) :
    ExclusiveNetworks s := by
  -- A rule of an interface and another rule for the same address.
  have hnic : ∀ nic ∈ nics, ∀ addr T, primary s₀ nic = some addr → ∀ r' ∈ s.rules, r'.table ∈ tables →
      source r' = some addr → r'.src = (nicRule addr T).src := by
    intro nic hn addr T haddr r' hr' hT hsrc
    rcases (grownFrom_of_calls h).2 r' hr' with hold | ⟨nic', -, addr', T', -, rfl⟩
    · obtain ⟨src, hsrc', rfl⟩ := Option.map_eq_some_iff.mp hsrc
      have hones := hhost r' hold hT src hsrc' ⟨nic, hn, haddr⟩
      rw [hsrc', nicRule, ← hones]
    obtain rfl : addr' = addr := Option.some.inj hsrc
    rfl
  intro r hr r' hr' hT heq
  have hsource := hs r hr r' hr' hT heq
  rcases (grownFrom_of_calls h).2 r hr with hold | ⟨nic, hn, addr, T, haddr, rfl⟩
  · rcases (grownFrom_of_calls h).2 r' hr' with hold' | ⟨nic, hn, addr, T, haddr, rfl⟩
    · exact hnets r hold r' hold' hT heq
    · exact hnic nic hn addr T haddr r hr hT hsource
  · exact (hnic nic hn addr T haddr r' hr' (heq ▸ hT) hsource.symm).symm

/-- **Routing tables after a sequence of calls.** From every state in which no table of the driver
has rules for two sources, whatever calls have been made one after the other: no table of the driver
has rules for two sources. If a call has succeeded, then each interface has a rule to one table of
the driver, in which there is a route through the interface to the network of each instance that a
call has succeeded for. A call for one of these instances adds no rule, and if it succeeds, it has
written the same routes to the same tables. The source of a rule is its address; the same holds of
the source network, unless there was a rule for a larger network with the address of an interface.
SOURCE: pkg/network/network.go:269-363, 426-478, pkg/csi_driver/node.go:502-527 -/
theorem routing_allocation {s₀ : NetState} {cs : List Ended} (hs₀ : Exclusive s₀)
    (hd : DistinctNICs s₀ nics) (h : Calls parseIP nics s₀ cs s) :
    Exclusive s ∧ (ExclusiveNetworks s₀ → HostRules s₀ nics → ExclusiveNetworks s) ∧
    (∀ nic ∈ nics, (∃ c ∈ cs, c.result = none) → ∃ l addr T, link s₀ nic = some l ∧
      primary s₀ nic = some addr ∧ T ∈ tables ∧ nicRule addr T ∈ s.rules ∧
      ∀ c ∈ cs, c.result = none → ∃ a, parseIP c.ip = some a ∧ ∃ route ∈ s.routes,
        route.table = T ∧ route.linkIndex = l.index ∧ route.dst = a.network) ∧
    ∀ c ∈ cs, c.result = none →
      ∀ tr r s', Exec NetState.step (setUpMultiNIC parseIP c.ip nics) s tr r s' →
        s'.rules = s.rules ∧ (r = none → written tr = written c.trace) := by
  have hs := exclusive_of_calls hs₀ h
  refine ⟨hs, fun hnets hhost => exclusiveNetworks_of_calls hs hnets hhost h,
    fun nic hnic hsome => ?_, fun c hc hr tr r s' hexec => ?_⟩
  · obtain ⟨hlinks, huses⟩ := uses_of_calls hd h
    have hroute : ∀ c ∈ cs, c.result = none →
        ∃ a route, parseIP c.ip = some a ∧ Uses s a nic route := fun c hc hr => by
      obtain ⟨a, hparse, hall⟩ := huses c hc hr
      obtain ⟨i, hi, rfl⟩ := List.mem_iff_getElem.mp hnic
      obtain ⟨hlen, hget⟩ := List.forall₂_iff_get.mp hall
      exact ⟨a, _, hparse (List.ne_nil_of_mem hnic), hget i hi (hlen ▸ hi)⟩
    obtain ⟨c₀, hc₀, hr₀⟩ := hsome
    obtain ⟨-, -, -, l, addr, gw, T, hl, haddr, hgw, hset, hrule, -, -⟩ := hroute c₀ hc₀ hr₀
    have hlink : ∀ n, link s n = link s₀ n := fun n => by rw [link, hlinks, link]
    refine ⟨l, addr, T, (hlink nic).symm.trans hl, ?_, mem_of_pick hset.picks, hrule,
      fun c hc hr => ?_⟩
    · rw [← haddr, primary, primary, hlink]
    · -- The table of an interface is the one that it is given, so it is the same for all instances.
      obtain ⟨a, route, hparse, l', addr', gw', T', hl', haddr', hgw', hset', -, rfl, hmem⟩ :=
        hroute c hc hr
      obtain rfl := Option.some.inj (hl.symm.trans hl')
      obtain rfl := Option.some.inj (haddr.symm.trans haddr')
      obtain rfl := Option.some.inj (hset.picks.symm.trans hset'.picks)
      exact ⟨a, hparse, _, hmem, rfl, rfl, rfl⟩
  · obtain ⟨hlinks, huses⟩ := uses_of_calls hd h
    obtain ⟨a, hparse, hall⟩ := huses c hc hr
    exact repeat_of_uses (hd.of_links hlinks) (fun _ hn => hn) hparse hall hexec

end Calls

/-! ## A node with two additional interfaces -/

section Sample

/-- A call without failures gives each interface a table of its own. -/
theorem sampleNet_played :
    ((play (S := netSig) NetState.exec (setUpMultiNIC sampleParse "10.0.0.2" ["eth1", "eth2"])
      (List.replicate 11 .ok ++ [.insertAt 0] ++ List.replicate 12 .ok ++ [.insertAt 1])
      sampleNet).map fun rs => (rs.1, rs.2.rules)) =
      some (none, [nicRule ⟨10, 1, 0, 2⟩ 101, nicRule ⟨10, 2, 0, 2⟩ 102,
        ⟨100, some ⟨⟨10, 9, 0, 0⟩, 16⟩⟩]) := by
  decide +kernel

/-- The tables of the sample are exclusive. -/
theorem exclusive_sampleNet : Exclusive sampleNet := by
  unfold Exclusive
  decide

/-- The NICs of the sample are distinct. -/
theorem distinctNICs_sampleNet : DistinctNICs sampleNet ["eth1", "eth2"] := by
  unfold DistinctNICs
  decide

/-- Each of two interfaces is given a table, beside the one with the foreign rule. -/
theorem routing_allocation_two : ∃ c s, Calls sampleParse ["eth1", "eth2"] sampleNet [c] s ∧
    c.result = none ∧ Exclusive s ∧ (∃ route ∈ s.routes, route.table = 101 ∧ route.linkIndex = 3 ∧
      route.dst = some ⟨⟨10, 0, 0, 0⟩, 16⟩) ∧
    ∀ tr r s', Exec NetState.step (setUpMultiNIC sampleParse c.ip ["eth1", "eth2"]) s tr r s' →
      s'.rules = s.rules := by
  obtain ⟨⟨r, s⟩, hplay, hobs⟩ := Option.map_eq_some_iff.mp sampleNet_played
  obtain ⟨rfl, hrules⟩ := Prod.mk.inj hobs
  obtain ⟨tr, hexec⟩ := play_exec _ hplay
  have hcalls : Calls sampleParse ["eth1", "eth2"] sampleNet [⟨"10.0.0.2", tr, none⟩] s :=
    .cons (.nil _) hexec
  obtain ⟨hexcl, -, hnics, hrepeat⟩ := routing_allocation exclusive_sampleNet
    distinctNICs_sampleNet hcalls
  obtain ⟨l, addr, T, hl, haddr, hT, hrule, hroutes⟩ := hnics "eth1" (by simp)
    ⟨_, List.mem_cons_self, rfl⟩
  obtain rfl : ⟨"eth1", 3, [⟨10, 1, 0, 2⟩]⟩ = l := Option.some.inj hl
  obtain rfl : ⟨10, 1, 0, 2⟩ = addr := Option.some.inj haddr
  obtain rfl : T = 101 := by
    have hrules' : s.rules = _ := hrules
    simpa [hrules', nicRule] using hrule
  obtain ⟨a, hparse, route, hmem, ht, hindex, hdst⟩ := hroutes _ List.mem_cons_self rfl
  obtain rfl : IP.v4 ⟨10, 0, 0, 2⟩ = a := Option.some.inj hparse
  exact ⟨_, s, hcalls, rfl, hexcl, ⟨route, hmem, ht, hindex, hdst⟩,
    fun tr r s' h => (hrepeat _ List.mem_cons_self rfl tr r s' h).1⟩

end Sample

end LustreCsi.Analysis.RoutingTables
