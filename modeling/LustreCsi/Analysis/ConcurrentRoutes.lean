import LustreCsi.Analysis.RoutingTables
import LustreCsi.Computation.SerialRuns

/-!
# Routing tables and calls at the same time

Finding a table and adding the rule that claims it are separate netlink calls, and calls of
`setUpMultiNIC` for different volumes run side by side. `apart_of_serial`: no table gets rules for
two interfaces as long as no call is interrupted by another one. `not_alwaysApart` is a run in which
two interfaces are given the same table.
-/

set_option autoImplicit false

namespace LustreCsi.Analysis.ConcurrentRoutes

open LustreCsi.Computation Model Model.Network Interface.Routing
  LustreCsi.Analysis.RoutingTables

variable {parseIP : String → Option IP} {nic ip : String} {nics : List String} {s : NetState}
  {addr : IPv4} {T : ℕ}

/-! ## One call -/

/-- Rules are added by one operation only. -/
def KeepsRules (o : NetOp) : Prop := ∀ rule, o ≠ .ruleAdd rule

/-- All other operations leave the rules as they are. -/
theorem rules_of_keepsRules {o : NetOp} (ho : KeepsRules o) {s s' : NetState} {r : o.Res}
    (h : s.step o r s') : s'.rules = s.rules := by
  have hout := outcome_of_step h
  cases o with
  | ruleAdd rule => exact absurd rfl (ho rule)
  | routeReplace route =>
    rcases hout with rfl | ⟨rfl, -⟩ <;> rfl
  | _ =>
    obtain ⟨rfl, -⟩ := hout
    rfl

/-- The interfaces are fixed. -/
theorem links_of_step {o : NetOp} {s s' : NetState} {r : o.Res} (h : s.step o r s') :
    s'.links = s.links := by
  have hout := outcome_of_step h
  cases o with
  | ruleAdd rule => rcases hout with ⟨n, -, rfl⟩ | ⟨rfl, -⟩ <;> rfl
  | routeReplace route => rcases hout with rfl | ⟨rfl, -⟩ <;> rfl
  | _ =>
    obtain ⟨rfl, -⟩ := hout
    rfl

/-- And so they leave the tables to their sources. -/
theorem exclusive_of_keepsRules (s : NetState) (o : netSig.Op) (r : netSig.Res o) (s' : NetState)
    (ho : KeepsRules o) (h : s.step o r s') (hs : Exclusive s) : Exclusive s' := by
  unfold Exclusive
  rw [rules_of_keepsRules ho h]
  exact hs

/-- Looking up an address adds no rule. -/
theorem keepsRules_getNICIPAddr (nic : String) : (getNICIPAddr nic).All KeepsRules := by
  refine .bind (.perform fun rule => by simp) fun r => ?_
  split
  · exact .pure
  refine .bind (.perform fun rule => by simp) fun r => ?_
  split <;> exact .pure

/-- Looking at a table adds no rule. -/
theorem keepsRules_isTableFree (T : ℕ) (addr : IPv4) : (isTableFree T addr).All KeepsRules := by
  refine .bind (.perform fun rule => by simp) fun r => ?_
  split
  · exact .pure
  split
  · exact .pure
  refine .bind (.perform fun rule => by simp) fun r => ?_
  split <;> exact .pure

/-- Looking for a table adds no rule. -/
theorem keepsRules_findFreeTable (startID : ℕ) (addr : IPv4) (ids : List ℕ) :
    (findFreeTable startID addr ids).All KeepsRules := by
  induction ids with
  | nil => exact .pure
  | cons id ids ih =>
    refine .bind (keepsRules_isTableFree id addr) fun r => ?_
    split
    · exact .pure
    · exact .pure
    · exact ih

/-- Run alone from the state, the program keeps the tables apart at every step. -/
abbrev KeepsExclusive {α : Type} (p : NetM α) (s : NetState) : Prop :=
  Throughout NetState.step Exclusive (fun _ s => Exclusive s) p s

/-- Adding the rule of the interface to a table that it may use. -/
theorem keepsExclusive_ensureRule (hs : Exclusive s) (husable : (tenancy s T).usable addr = true)
    {s₁ : NetState} (hrules : s₁.rules = s.rules) : KeepsExclusive (ensureRule nic addr T) s₁ := by
  have hs₁ : Exclusive s₁ := by
    unfold Exclusive
    rw [hrules]
    exact hs
  refine Throughout.perform (S := netSig) fun r s₂ hlist => ?_
  obtain ⟨rfl, -⟩ := outcome_of_step hlist
  refine ⟨hs₁, ?_⟩
  split
  · exact hs₁
  split
  · exact hs₁
  refine Throughout.perform (S := netSig) fun r s₃ hadd => ?_
  have hs₃ : Exclusive s₃ := by
    rcases outcome_of_step hadd with ⟨n, hn, rfl⟩ | ⟨rfl, -⟩
    · refine exclusive_of_rules hs husable fun rule hmem => ?_
      rw [← hrules]
      exact (List.mem_insertIdx hn).mp hmem
    · exact hs₁
  refine ⟨hs₃, ?_⟩
  split
  · exact hs₃
  · split <;> exact hs₃

/-- Writing the route and the rule of the interface to a table that it may use. -/
theorem keepsExclusive_configureRoutesForNIC (hs : Exclusive s)
    (husable : (tenancy s T).usable addr = true) :
    KeepsExclusive (configureRoutesForNIC parseIP nic addr ip T) s := by
  refine Throughout.perform (S := netSig) fun r s₁ hlink => ?_
  obtain ⟨rfl, -⟩ := outcome_of_step hlink
  refine ⟨hs, ?_⟩
  split
  · exact hs
  refine Throughout.perform (S := netSig) fun r s₂ hroutes => ?_
  obtain ⟨rfl, -⟩ := outcome_of_step hroutes
  refine ⟨hs, ?_⟩
  split
  · exact hs
  split
  · exact hs
  split
  · exact hs
  refine Throughout.perform (S := netSig) fun r s₃ hput => ?_
  have hrules : s₃.rules = s₂.rules := rules_of_keepsRules (fun _ => by simp) hput
  have hs₃ : Exclusive s₃ := exclusive_of_keepsRules _ _ _ _ (fun _ => by simp) hput hs
  refine ⟨hs₃, ?_⟩
  split
  · exact hs₃
  · exact keepsExclusive_ensureRule hs husable hrules

/-- Setting up an interface. -/
theorem keepsExclusive_setUpNIC (hs : Exclusive s) : KeepsExclusive (setUpNIC parseIP ip nic) s := by
  have haddr : Throughout NetState.step Exclusive
      (fun r s' => s' = s ∧ ∀ addr, r = .ok addr → primary s nic = some addr) (getNICIPAddr nic) s :=
    .of_exec (keepsRules_getNICIPAddr nic) exclusive_of_keepsRules hs fun _ _ _ h =>
      ⟨(exec_getNICIPAddr h).1, (exec_getNICIPAddr h).2.2⟩
  refine haddr.bind ?_
  rintro r s' ⟨rfl, hprimary⟩
  split
  · exact hs
  rename_i addr
  have hfind : Throughout NetState.step Exclusive
      (fun r s₁ => s₁ = s' ∧ ∀ T, r = .ok T → chosen s' addr = some T)
      (findNextFreeTableID initialRouteTableID addr) s' :=
    .of_exec (keepsRules_findFreeTable _ _ _) exclusive_of_keepsRules hs fun _ _ _ h =>
      ⟨(exec_findNextFreeTableID h).1, (exec_findNextFreeTableID h).2.2⟩
  refine hfind.bind ?_
  rintro r s₁ ⟨rfl, hchosen⟩
  split
  · exact hs
  rename_i T
  have husable := usable_of_pick (hchosen T rfl)
  refine Throughout.bind (Q := fun _ s => Exclusive s) ?_ fun r s₂ hs₂ => hs₂
  refine haddr.bind ?_
  rintro r s₂ ⟨rfl, hprimary'⟩
  split
  · exact hs
  rename_i addr'
  obtain rfl : addr' = addr :=
    Option.some.inj ((hprimary' addr' rfl).symm.trans (hprimary addr rfl))
  exact (keepsExclusive_configureRoutesForNIC hs husable).bind fun r s₃ hs₃ => hs₃

/-- Setting up all interfaces, by induction on their list. -/
theorem keepsExclusive_setUpMultiNIC (hs : Exclusive s) :
    KeepsExclusive (setUpMultiNIC parseIP ip nics) s := by
  induction nics generalizing s with
  | nil => exact hs
  | cons nic nics ih =>
    refine (keepsExclusive_setUpNIC hs).bind fun r s' hs' => ?_
    split
    · exact hs'
    · exact ih hs'

/-! ## Calls side by side -/

/-- Calls for instances with the given addresses, all on the interfaces of the node; nothing else
changes rules or routes. -/
abbrev Handlers (step : NetState → (o : netSig.Op) → netSig.Res o → NetState → Prop)
    (parseIP : String → Option IP) (ips : ℕ → String) (nics : List String) :
    Config netSig NetState (Option Status) → Config netSig NetState (Option Status) → Prop :=
  Run step (fun s s' => s' = s) fun t => setUpMultiNIC parseIP (ips t) nics

/-- No table of the driver has rules for two different interfaces. -/
def Apart (nics : List String) (s : NetState) : Prop :=
  ∀ r ∈ s.rules, ∀ r' ∈ s.rules, r.table ∈ tables → r.table = r'.table →
    ∀ nic ∈ nics, ∀ nic' ∈ nics, ∀ addr addr', primary s nic = some addr →
      primary s nic' = some addr' → source r = some addr → source r' = some addr' → addr = addr'

/-- Tables with one source each have one interface each. -/
theorem Exclusive.apart (h : Exclusive s) (nics : List String) : Apart nics s := by
  intro r hr r' hr' hT heq nic _ nic' _ addr addr' _ _ hsrc hsrc'
  have hsame := h r hr r' hr' hT heq
  rw [hsrc, hsrc'] at hsame
  exact Option.some.inj hsame

/-- **Routing tables and calls at the same time.** From every state in which no table of the driver
has rules for two sources, in every run of calls of `setUpMultiNIC` in which no call performs an
operation between two operations of another call, no table of the driver ever has rules for two
sources, and in particular none for two interfaces.
SOURCE: pkg/network/network.go:269-349, 426-478, pkg/csi_driver/node.go:502-527 -/
theorem apart_of_serial {ips : ℕ → String} {s₀ : NetState}
    {c : Config netSig NetState (Option Status)} (hs₀ : Exclusive s₀)
    (hrun : Handlers NetState.step parseIP ips nics (.start s₀) c) (hser : Serial c.world.trace) :
    Exclusive c.world.state ∧ Apart nics c.world.state := by
  have hs : Exclusive c.world.state := invariant_of_serial (fun _ _ h => h)
    (fun t s hs => keepsExclusive_setUpMultiNIC hs) hs₀ hrun hser
  exact ⟨hs, Exclusive.apart hs nics⟩

/-- The interfaces have tables of their own in every run, whatever the calls do meanwhile. -/
def AlwaysApart : Prop :=
  ∀ (parseIP : String → Option IP) (ips : ℕ → String) (nics : List String) (s₀ : NetState)
    (c : Config netSig NetState (Option Status)), DistinctNICs s₀ nics → Exclusive s₀ →
    Handlers NetState.okStep parseIP ips nics (.start s₀) c → Apart nics c.world.state

/-! ## Two handlers -/

section Sample

/-- The outcomes of calls that do not fail. -/
def okExec (s : NetState) (o : NetOp) : NetChoice → Option (o.Res × NetState)
  | .fail _ _ => none
  | c => s.exec o c

/-- A step of a schedule without faults. -/
theorem okStep_of_okExec (s : NetState) (o : netSig.Op) (r : netSig.Res o) (s' : NetState)
    (h : stepOf (S := netSig) okExec s o r s') : s.okStep o r s' := by
  obtain ⟨c, hc⟩ := h
  cases c with
  | fail text applied => cases hc
  | _ => exact ⟨_, fun _ _ => by simp, hc⟩

/-- The rules after a schedule of handlers for the same instance. -/
def playRules (ms : List (Move NetChoice)) : Option (List Rule) :=
  (playPool (S := netSig) okExec (fun _ => setUpMultiNIC sampleParse "10.0.0.2" ["eth1", "eth2"]) ms
    (.start sampleNet)).map (·.world.state.rules)

/-- A handler performs some calls that only read or write routes. -/
def calls (t n : ℕ) : List (Move NetChoice) := List.replicate n (.call t .ok)

/-- The first handler has written the route of `eth1` to table 101, and not yet its rule, when the
second one looks for a table of `eth1`: it passes over 101 and takes 102. Then the first handler adds
its rule, and takes 102 for `eth2`. -/
theorem not_alwaysApart : ¬AlwaysApart := by
  intro h
  have hplay : playRules (.spawn 0 :: .spawn 1 :: calls 0 10 ++ calls 1 7 ++ calls 0 1 ++
      [.call 0 (.insertAt 0)] ++ calls 0 12 ++ [.call 0 (.insertAt 0)] ++ calls 1 6 ++
      [.call 1 (.insertAt 0)]) =
      some [nicRule ⟨10, 1, 0, 2⟩ 102, nicRule ⟨10, 2, 0, 2⟩ 102, nicRule ⟨10, 1, 0, 2⟩ 101,
        ⟨100, some ⟨⟨10, 9, 0, 0⟩, 16⟩⟩] := by
    decide +kernel
  obtain ⟨c, hc, hrules⟩ := Option.map_eq_some_iff.mp hplay
  have hrun : Handlers (stepOf (S := netSig) okExec) sampleParse (fun _ => "10.0.0.2")
      ["eth1", "eth2"] (.start sampleNet) c := playPool_run (fun _ => trivial) hc
  have hok := hrun.mono okStep_of_okExec
  have htrans : ∀ s₁ s₂ s₃ : NetState, s₂.links = s₁.links → s₃.links = s₂.links →
      s₃.links = s₁.links := fun _ _ _ h₁ h₂ => h₂.trans h₁
  have hlinks : c.world.state.links = sampleNet.links :=
    RunWhile.state_rel (T := fun s s' => s'.links = s.links) (fun _ => rfl) htrans
      (fun s o r s' hs => links_of_step (step_of_okStep hs)) (fun s s' he => by rw [he]) hok
  have hprimary : ∀ nic, primary c.world.state nic = primary sampleNet nic := fun nic => by
    rw [primary, link, hlinks, primary, link]
  have hsame := h _ _ _ _ c distinctNICs_sampleNet exclusive_sampleNet hok
    (nicRule ⟨10, 1, 0, 2⟩ 102) (by simp [hrules]) (nicRule ⟨10, 2, 0, 2⟩ 102) (by simp [hrules])
    (by decide) rfl "eth1" (by simp) "eth2" (by simp) ⟨10, 1, 0, 2⟩ ⟨10, 2, 0, 2⟩
    (by rw [hprimary]; rfl) (by rw [hprimary]; rfl) rfl rfl
  exact absurd hsame (by decide)

/-- The threads that have returned without an error. -/
def succeeded (c : Config netSig NetState (Option Status)) (t : ℕ) : Bool :=
  match c.slot t with
  | .done none => true
  | _ => false

/-- A handler that is not interrupted gives each interface its table, and a second one after it
finds these tables again. -/
theorem apart_of_serial_turns : ∃ c, Handlers NetState.step sampleParse (fun _ => "10.0.0.2")
    ["eth1", "eth2"] (.start sampleNet) c ∧ Serial c.world.trace ∧ succeeded c 0 = true ∧
      succeeded c 1 = true ∧
      c.world.state.rules = [nicRule ⟨10, 2, 0, 2⟩ 102, nicRule ⟨10, 1, 0, 2⟩ 101,
        ⟨100, some ⟨⟨10, 9, 0, 0⟩, 16⟩⟩] ∧ Apart ["eth1", "eth2"] c.world.state := by
  have hplay : (playPool (S := netSig) okExec
      (fun _ => setUpMultiNIC sampleParse "10.0.0.2" ["eth1", "eth2"])
      (.spawn 0 :: calls 0 11 ++ [.call 0 (.insertAt 0)] ++ calls 0 12 ++
        [.call 0 (.insertAt 0), .finish 0, .spawn 1] ++ calls 1 21 ++ [.finish 1])
      (.start sampleNet)).map (fun c => (decide (Serial c.world.trace), succeeded c 0,
        succeeded c 1, c.world.state.rules)) =
      some (true, true, true, [nicRule ⟨10, 2, 0, 2⟩ 102, nicRule ⟨10, 1, 0, 2⟩ 101,
        ⟨100, some ⟨⟨10, 9, 0, 0⟩, 16⟩⟩]) := by
    decide +kernel
  obtain ⟨c, hc, hend⟩ := Option.map_eq_some_iff.mp hplay
  simp only [Prod.mk.injEq, decide_eq_true_eq] at hend
  obtain ⟨hser, hfirst, hsecond, hrules⟩ := hend
  have hok : Handlers (stepOf (S := netSig) okExec) sampleParse (fun _ => "10.0.0.2")
      ["eth1", "eth2"] (.start sampleNet) c := playPool_run (fun _ => trivial) hc
  have hrun : Handlers NetState.step sampleParse (fun _ => "10.0.0.2") ["eth1", "eth2"]
      (.start sampleNet) c :=
    hok.mono fun s o r s' hs => step_of_okStep (okStep_of_okExec s o r s' hs)
  exact ⟨c, hrun, hser, hfirst, hsecond, hrules, (apart_of_serial exclusive_sampleNet hrun hser).2⟩

end Sample

end LustreCsi.Analysis.ConcurrentRoutes
