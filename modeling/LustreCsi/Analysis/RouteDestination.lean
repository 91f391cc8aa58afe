import LustreCsi.Interface.Routing

/-!
# The destination of the route to an instance

The address of an instance is parsed, masked, printed and parsed again, and the error of the last
step is dropped (`network_eq_reparsed`): the route for an IPv6 address has no destination.
`destination_iff` says for which addresses the route leads to the network of the instance.
-/

set_option autoImplicit false

namespace LustreCsi.Analysis.RouteDestination

open LustreCsi.Computation Model Model.Network Interface.Routing

/-! ## From the address to the network -/

/-- The sixteen bytes in which `net.ParseIP` returns an address. -/
def ipBytes : IP → List UInt8
  | .v4 ip => List.replicate 10 0 ++ [0xff, 0xff, ip.a, ip.b, ip.c, ip.d]
  | .v6 groups => groups.flatMap fun g : UInt16 => [(g >>> 8).toUInt8, g.toUInt8]

/-- What an IPv4 address begins with in its long form. -/
def v4InV6 : List UInt8 := List.replicate 10 0 ++ [0xff, 0xff]

/-- `IP.Mask` with a mask of four bytes: nil if the address is not one of IPv4. -/
def maskIP (ip mask : List UInt8) : Option (List UInt8) :=
  let short := if ip.length = 16 ∧ ip.take 12 = v4InV6 then ip.drop 12 else ip
  if short.length = mask.length then some (List.zipWith (· &&& ·) short mask) else none

/-- `net.CIDRMask(16, 32)`. -/
def mask16 : List UInt8 := [0xff, 0xff, 0, 0]

/-- `IP.String` of four bytes, and of nil. -/
def printIP : Option (List UInt8) → String
  | none => "<nil>"
  | some octets => ".".intercalate (octets.map fun octet => toString octet.toNat)

/-- An address as it is parsed: what is an IPv4 address in its long form is not given as one of IPv6. -/
def Parsed : IP → Prop
  | .v4 _ => True
  | .v6 groups => groups.length = 8 ∧ (ipBytes (.v6 groups)).take 12 ≠ v4InV6

/-- What `net.ParseCIDR` is documented to do with the two kinds of text it gets. -/
structure ReadsCIDR (parseCIDR : String → Option IPNet) : Prop where
  network : ∀ a b, parseCIDR (IPNet.text ⟨⟨a, b, 0, 0⟩, 16⟩) = some ⟨⟨a, b, 0, 0⟩, 16⟩
  nil : parseCIDR "<nil>/16" = none

/-- **The network of an instance.** Masking the address, printing it and parsing the text again gives the
network that the model uses, and none for an IPv6 address.

SOURCE: pkg/network/network.go:294-304 -/
theorem network_eq_reparsed {parseCIDR : String → Option IPNet} (h : ReadsCIDR parseCIDR) {ip : IP}
    (hip : Parsed ip) : parseCIDR (printIP (maskIP (ipBytes ip) mask16) ++ "/16") = ip.network := by
  cases ip with
  | v4 ip =>
    have hones : ∀ x : UInt8, x &&& 255 = x := fun _ => UInt8.and_neg_one
    have hmask : maskIP (ipBytes (.v4 ip)) mask16 = some [ip.a, ip.b, 0, 0] := by
      simp [maskIP, ipBytes, v4InV6, mask16, hones]
    have htext : printIP (some [ip.a, ip.b, 0, 0]) ++ "/16" = IPNet.text ⟨⟨ip.a, ip.b, 0, 0⟩, 16⟩ := by
      have hsize : "/16" = "/" ++ toString 16 := by decide
      rw [hsize, ← String.append_assoc]
      rfl
    rw [hmask, htext]
    exact h.network ip.a ip.b
  | v6 groups =>
    obtain ⟨hlen, hmapped⟩ := hip
    have hbytes : (ipBytes (.v6 groups)).length = 16 := by
      simp [ipBytes, List.length_flatMap, hlen]
    have hmask : maskIP (ipBytes (.v6 groups)) mask16 = none := by
      simp [maskIP, hbytes, hmapped, mask16]
    rw [hmask]
    exact h.nil

/-! ## The route that is installed -/

/-- The calls that change routes or rules. -/
def Changes : NetOp → Prop
  | .routeReplace _ => True
  | .ruleAdd _ => True
  | _ => False

section Destination

variable {parseIP : String → Option IP} {nic ip : String} {addr : IPv4} {T : ℕ}

/-- Every route that a run installs leads to the IPv4 network of the address, and if the text is no IPv4
address the run fails and installs nothing. -/
def GoodDestination (parseIP : String → Option IP) (nic : String) (addr : IPv4) (ip : String) (T : ℕ) :
    Prop :=
  ∀ s tr r s', Exec NetState.step (configureRoutesForNIC parseIP nic addr ip T) s tr r s' →
    (∀ e ∈ tr, ∀ route, e.1 = .routeReplace route → ∃ x : IPv4, parseIP ip = some (.v4 x) ∧
      route.dst = some ⟨⟨x.a, x.b, 0, 0⟩, 16⟩) ∧
    ((∀ x, parseIP ip ≠ some (.v4 x)) → r ≠ none ∧ ∀ e ∈ tr, ¬Changes e.1)

/-- Every route that a run installs has as its destination what the code computes from the address: the
address masked, printed and parsed again. -/
def ComputedDestination (parseIP : String → Option IP) (parseCIDR : String → Option IPNet) (nic : String)
    (addr : IPv4) (ip : String) (T : ℕ) : Prop :=
  ∀ s tr r s', Exec NetState.step (configureRoutesForNIC parseIP nic addr ip T) s tr r s' →
    ∀ e ∈ tr, ∀ route, e.1 = .routeReplace route → ∃ a, parseIP ip = some a ∧
      route.dst = parseCIDR (printIP (maskIP (ipBytes a) mask16) ++ "/16")

/-- What is changed, is changed for an address, and a route leads to its network. -/
theorem all_configureRoutesForNIC :
    (configureRoutesForNIC parseIP nic addr ip T).All fun o : NetOp => Changes o →
      ∃ a, parseIP ip = some a ∧ ∀ route, o = .routeReplace route → route.dst = a.network := by
  unfold configureRoutesForNIC
  refine .bind (.perform False.elim) fun r => ?_
  split
  · exact .pure
  refine .bind (.perform False.elim) fun r => ?_
  split
  · exact .pure
  split
  · exact .pure
  split
  · exact .pure
  rename_i a ha
  refine .bind (.perform fun _ => ⟨a, ha, fun route he => by cases he; rfl⟩) fun r => ?_
  split
  · exact .pure
  refine .bind (.perform False.elim) fun r => ?_
  split
  · exact .pure
  split
  · exact .pure
  refine .bind (.perform fun _ => ⟨a, ha, fun route he => by cases he⟩) fun r => ?_
  split
  · exact .pure
  · split <;> exact .pure

/-- A node on which an interface has a gateway. -/
def gatewayNet (nic : String) (gw : IPv4) : NetState where
  links := [⟨nic, 3, []⟩]
  rules := []
  routes := [⟨3, none, some gw, mainTable, 0, 0⟩]

/-- An address of IPv6 gets a route without destination. -/
theorem exists_default_route {groups : List UInt16} (hip : parseIP ip = some (.v6 groups)) (nic : String)
    (addr : IPv4) (T : ℕ) (gw : IPv4) :
    ∃ tr s' route, Exec NetState.step (configureRoutesForNIC parseIP nic addr ip T) (gatewayNet nic gw) tr
      none s' ∧ ⟨.routeReplace route, none⟩ ∈ tr ∧ route ∈ s'.routes ∧ route.table = T ∧
      route.dst = none := by
  let s := gatewayNet nic gw
  let l : Link := ⟨nic, 3, []⟩
  let route := instanceRoute l (.v6 groups) gw T
  have hlink : s.step (.linkByName nic) (.ok l) s := ⟨.ok, by simp [NetState.exec, s, gatewayNet, l]⟩
  have hroutes : s.step (.routeList l) (.ok s.routes) s :=
    ⟨.ok, by simp [NetState.exec, s, gatewayNet, l]⟩
  have hput : s.step (.routeReplace route) none (s.putRoute route) := ⟨.ok, rfl⟩
  have hrules : (s.putRoute route).step .ruleList (.ok []) (s.putRoute route) := ⟨.ok, rfl⟩
  have hadd : (s.putRoute route).step (.ruleAdd (nicRule addr T)) none
      ((s.putRoute route).addRule 0 (nicRule addr T)) := ⟨.insertAt 0, by simp [NetState.exec]⟩
  refine ⟨[⟨.linkByName nic, .ok l⟩, ⟨.routeList l, .ok s.routes⟩, ⟨.routeReplace route, none⟩,
    ⟨.ruleList, .ok []⟩, ⟨.ruleAdd (nicRule addr T), none⟩],
    (s.putRoute route).addRule 0 (nicRule addr T), route, ?_, by simp, mem_replaceRoute route s.routes, rfl,
    rfl⟩
  refine exec_perform_bind.mpr ⟨_, _, _, hlink, rfl, ?_⟩
  refine exec_perform_bind.mpr ⟨_, _, _, hroutes, rfl, ?_⟩
  have hgw : s.routes.findSome? (·.gw) = some gw := rfl
  dsimp only
  rw [hgw, hip]
  refine exec_perform_bind.mpr ⟨_, _, _, hput, rfl, ?_⟩
  refine exec_perform_bind.mpr ⟨_, _, _, hrules, rfl, ?_⟩
  exact exec_perform_bind.mpr ⟨_, _, _, hadd, rfl, rfl, rfl, rfl⟩

/-- **The destination of the route is right unless the address is one of IPv6.** For every text that stands
for the address of the instance: every route that `configureRoutesForNIC` installs, in any state of the
kernel, leads to the IPv4 network of the address, and for a text that is no IPv4 address it fails and
installs nothing, if and only if the text is not an IPv6 address. (An address of IPv4 in the form of IPv6
counts as one of IPv4.) In any case the destination is what the steps of the code make of the address,
with `net.ParseIP` and `net.ParseCIDR` as they are documented.

SOURCE: pkg/network/network.go:269-349 -/
theorem destination_iff :
    (GoodDestination parseIP nic addr ip T ↔ ∀ groups, parseIP ip ≠ some (.v6 groups)) ∧
      ∀ parseCIDR, ReadsCIDR parseCIDR → (∀ a, parseIP ip = some a → Parsed a) →
        ComputedDestination parseIP parseCIDR nic addr ip T := by
  refine ⟨⟨?_, ?_⟩, ?_⟩
  · intro hgood groups hip
    obtain ⟨tr, s', route, hrun, hmem, -⟩ := exists_default_route hip nic addr T ⟨10, 0, 0, 1⟩
    obtain ⟨x, hx, -⟩ := (hgood _ tr _ s' hrun).1 _ hmem route rfl
    rw [hip] at hx
    cases hx
  · intro hip s tr r s' hrun
    have hall := Exec.mem_all all_configureRoutesForNIC hrun
    refine ⟨fun e he route heq => ?_, fun hno => ?_⟩
    · obtain ⟨a, ha, hdst⟩ := hall e he (heq ▸ trivial)
      cases a with
      | v4 x => exact ⟨x, ha, hdst route heq⟩
      | v6 groups => exact absurd ha (hip groups)
    · have hnone : ∀ a, parseIP ip ≠ some a := fun a => by
        cases a with
        | v4 x => exact hno x
        | v6 groups => exact hip groups
      constructor
      · rcases exec_configureRoutesForNIC hrun with ⟨-, hr⟩ | ⟨route, hwritten, -⟩
        · exact hr
        · obtain ⟨-, -, a, -, -, ha, -⟩ := hwritten.named
          exact absurd ha (hnone a)
      · intro e he hchanges
        obtain ⟨a, ha, -⟩ := hall e he hchanges
        exact hnone a ha
  · intro parseCIDR hreads hparsed s tr r s' hrun e he route heq
    obtain ⟨a, ha, hdst⟩ := Exec.mem_all all_configureRoutesForNIC hrun e he (heq ▸ trivial)
    exact ⟨a, ha, (hdst route heq).trans (network_eq_reparsed hreads (hparsed a ha)).symm⟩

end Destination

/-- A parser that knows one address of each kind. -/
def parseTwo (text : String) : Option IP :=
  if text = "10.0.0.2" then some (.v4 ⟨10, 0, 0, 2⟩)
  else if text = "fd00::1" then some (.v6 [0xfd00, 0, 0, 0, 0, 0, 0, 1])
  else none

/-- A call with an IPv6 address succeeds and leaves a default route in the table of the interface. -/
theorem default_route_of_v6 :
    ∃ tr s' route, Exec NetState.step (configureRoutesForNIC parseTwo "eth1" ⟨10, 1, 0, 2⟩ "fd00::1" 101)
      (gatewayNet "eth1" ⟨10, 1, 0, 1⟩) tr none s' ∧
      (⟨.routeReplace route, none⟩ : Event netSig) ∈ tr ∧ route ∈ s'.routes ∧ route.table = 101 ∧
      route.dst = none ∧ ∀ x, parseTwo "fd00::1" ≠ some (.v4 x) := by
  have hip : parseTwo "fd00::1" = some (.v6 [0xfd00, 0, 0, 0, 0, 0, 0, 1]) := by decide
  obtain ⟨tr, s', route, hrun, hmem, hroute, htable, hdst⟩ :=
    exists_default_route hip "eth1" ⟨10, 1, 0, 2⟩ 101 ⟨10, 1, 0, 1⟩
  refine ⟨tr, s', route, hrun, hmem, hroute, htable, hdst, fun x hx => ?_⟩
  rw [hip] at hx
  cases hx

/-- A function that reads the texts of networks. -/
theorem exists_readsCIDR : ∃ parseCIDR, ReadsCIDR parseCIDR := by
  have hinv : Function.IsPartialInv IPNet.text (Function.partialInv IPNet.text) :=
    Function.Injective.isPartialInv fun _ _ => IPNet.text_inj
  refine ⟨Function.partialInv IPNet.text, fun a b => (hinv _ _).mpr rfl, ?_⟩
  refine Option.eq_none_iff_forall_ne_some.mpr fun n hn => ?_
  have htext : n.text = "<nil>/16" := (hinv _ _).mp hn
  -- There are dots in the text of a network.
  have hdot : '.' ∈ n.text.toList := by
    rw [toList_text]
    simp [IPv4.text]
  rw [htext] at hdot
  exact absurd hdot (by decide)

/-- For an IPv4 address the route leads to its network, as the code computes it. -/
theorem destination_of_v4 : GoodDestination parseTwo "eth1" ⟨10, 1, 0, 2⟩ "10.0.0.2" 101 ∧
    ∃ parseCIDR, ReadsCIDR parseCIDR ∧
      ComputedDestination parseTwo parseCIDR "eth1" ⟨10, 1, 0, 2⟩ "10.0.0.2" 101 := by
  have hip : parseTwo "10.0.0.2" = some (.v4 ⟨10, 0, 0, 2⟩) := by decide
  obtain ⟨parseCIDR, hreads⟩ := exists_readsCIDR
  refine ⟨destination_iff.1.mpr fun groups h => ?_, parseCIDR, hreads, destination_iff.2 parseCIDR hreads ?_⟩
  · rw [hip] at h
    cases h
  · intro a ha
    rw [hip] at ha
    cases ha
    trivial

end LustreCsi.Analysis.RouteDestination
