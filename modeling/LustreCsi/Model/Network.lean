import LustreCsi.Computation.Program
import LustreCsi.Model.Status
import LustreCsi.Model.Text

/-!
# Routing for the additional network interfaces

Each additional interface needs a routing table of its own: a rule sends what comes from the address
of the interface to the table, and a route in the table leads to the network of the Lustre instance.
`setUpMultiNIC` looks for a table and fills it with several netlink calls (`NetOp`,
`NetState.exec`).

The parts of rules, routes and links that neither the driver nor the modelled effect of a call looks
at are left out. All lists are those of the IPv4 family.
-/

set_option autoImplicit false

namespace LustreCsi.Model.Network

open LustreCsi.Computation

/-! ## Addresses -/

/-- An IPv4 address. -/
structure IPv4 where
  a : UInt8
  b : UInt8
  c : UInt8
  d : UInt8
  deriving DecidableEq

/-- `IP.String`. -/
def IPv4.text (ip : IPv4) : String :=
  ".".intercalate ([ip.a, ip.b, ip.c, ip.d].map fun octet => toString octet.toNat)

/-- A network with a CIDR mask (`net.IPNet`). As in a rule of the kernel, the address may have bits
outside the mask. -/
structure IPNet where
  ip : IPv4
  ones : ℕ
  deriving DecidableEq

/-- `IPNet.String`. -/
def IPNet.text (n : IPNet) : String := s!"{n.ip.text}/{n.ones}"

/-- An address as `net.ParseIP` returns it; one of IPv4 is the same in both of its forms. -/
inductive IP where
  | v4 (ip : IPv4)
  | v6 (groups : List UInt16)
  deriving DecidableEq

/-- The network of an instance. The mask is one of IPv4, so that there is no network of an IPv6
address; the error of `net.ParseCIDR` on the text `<nil>/16` is dropped.
SOURCE: pkg/network/network.go:294-304 -/
def IP.network : IP → Option IPNet
  | .v4 ip => some ⟨⟨ip.a, ip.b, 0, 0⟩, 16⟩
  | .v6 _ => none

/-! ## The kernel -/

/-- A network interface with its addresses, the primary one first. -/
structure Link where
  name : String
  index : ℕ
  addrs : List IPv4
  deriving DecidableEq

/-- A policy rule. -/
structure Rule where
  table : ℕ
  src : Option IPNet
  deriving DecidableEq

structure Route where
  linkIndex : ℕ
  dst : Option IPNet
  gw : Option IPv4
  table : ℕ
  tos : ℕ
  priority : ℕ
  deriving DecidableEq

/-- The main routing table (`RT_TABLE_MAIN`). -/
def mainTable : ℕ := 254

/-- A route without destination is one to everywhere. -/
def Route.net (r : Route) : IPNet := r.dst.getD ⟨⟨0, 0, 0, 0⟩, 0⟩

/-- A route is replaced by one of the same table, destination, service and priority. -/
def Route.SameKey (r r' : Route) : Prop :=
  r.table = r'.table ∧ r.net = r'.net ∧ r.tos = r'.tos ∧ r.priority = r'.priority

instance (r r' : Route) : Decidable (r.SameKey r') :=
  inferInstanceAs (Decidable (_ ∧ _ ∧ _ ∧ _))

/-- Replace the first route of the same key, or add the route. -/
def replaceRoute (new : Route) : List Route → List Route
  | [] => [new]
  | r :: rs => if r.SameKey new then new :: rs else r :: replaceRoute new rs

/-- The error of a failed addition, and whether `os.IsExist` accepts it. -/
structure RuleError where
  isExist : Bool
  text : String
  deriving DecidableEq

/-- The calls of the interface `netlinker` that set up routes.
SOURCE: pkg/network/network.go:46-56 -/
inductive NetOp where
  | linkByName (name : String)
  | addrList (link : Link)
  | routeList (link : Link)
  | routeReplace (route : Route)
  | ruleAdd (rule : Rule)
  | ruleList
  | routeListFiltered (table : ℕ)
  deriving DecidableEq

/-- The answers; an error is given by its text. -/
abbrev NetOp.Res : NetOp → Type
  | .linkByName _ => Except String Link
  | .addrList _ => Except String (List IPv4)
  | .routeList _ => Except String (List Route)
  | .routeReplace _ => Option String
  | .ruleAdd _ => Option RuleError
  | .ruleList => Except String (List Rule)
  | .routeListFiltered _ => Except String (List Route)

abbrev netSig : Sig := ⟨NetOp, NetOp.Res⟩

abbrev NetM : Type → Type := Program netSig

def perform (o : NetOp) : NetM o.Res := Program.perform (S := netSig) o

/-- Interfaces, rules and routes of the node. -/
structure NetState where
  links : List Link
  rules : List Rule
  routes : List Route
  deriving DecidableEq

/-- How a call ends. -/
inductive NetChoice where
  /-- The call does its work. -/
  | ok
  /-- The call fails; `applied` says whether its effect took place nevertheless. -/
  | fail (text : String) (applied : Bool)
  /-- The new rule gets this place among the rules, which depends on the priorities. -/
  | insertAt (place : ℕ)
  /-- The rule is there already. -/
  | already (text : String)
  deriving DecidableEq

namespace NetState

def addRule (s : NetState) (place : ℕ) (rule : Rule) : NetState :=
  { s with rules := s.rules.insertIdx place rule }

def putRoute (s : NetState) (route : Route) : NetState :=
  { s with routes := replaceRoute route s.routes }

/-- What a call answers and does, depending on how it ends. -/
def exec (s : NetState) : (o : NetOp) → NetChoice → Option (o.Res × NetState)
  | .linkByName name, .ok =>
    some (match s.links.find? fun l => l.name = name with
      | some link => .ok link
      | none => .error "Link not found", s)
  | .linkByName _, .fail text _ => some (.error text, s)
  | .addrList link, .ok => some (.ok link.addrs, s)
  | .addrList _, .fail text _ => some (.error text, s)
  -- Without a filter for the table only the main table is listed.
  | .routeList link, .ok =>
    some (.ok (s.routes.filter fun r => r.table = mainTable ∧ r.linkIndex = link.index), s)
  | .routeList _, .fail text _ => some (.error text, s)
  | .routeReplace route, .ok => some (none, s.putRoute route)
  | .routeReplace route, .fail text applied =>
    some (some text, if applied then s.putRoute route else s)
  | .ruleAdd rule, .insertAt place =>
    if place ≤ s.rules.length then some (none, s.addRule place rule) else none
  | .ruleAdd rule, .already text => if rule ∈ s.rules then some (some ⟨true, text⟩, s) else none
  | .ruleAdd rule, .fail text applied =>
    some (some ⟨false, text⟩, if applied then s.addRule s.rules.length rule else s)
  | .ruleList, .ok => some (.ok s.rules, s)
  | .ruleList, .fail text _ => some (.error text, s)
  | .routeListFiltered table, .ok => some (.ok (s.routes.filter fun r => r.table = table), s)
  | .routeListFiltered _, .fail text _ => some (.error text, s)
  | _, _ => none

/-- Any outcome of a call. -/
def step (s : NetState) (o : netSig.Op) (r : netSig.Res o) (s' : NetState) : Prop :=
  stepOf (S := netSig) exec s o r s'

/-- An outcome of a call that does not fail. -/
def okStep (s : NetState) (o : netSig.Op) (r : netSig.Res o) (s' : NetState) : Prop :=
  ∃ c, (∀ text applied, c ≠ .fail text applied) ∧ s.exec o c = some (r, s')

end NetState

/-! ## Looking for a table -/

/-- SOURCE: pkg/csi_driver/node.go:45 -/
def initialRouteTableID : ℕ := 100

/-- SOURCE: pkg/network/network.go:41 -/
def maxTableID : ℕ := 252

/-- SOURCE: pkg/network/network.go:366-385 -/
def getNICIPAddr (nicName : String) : NetM (Except String IPv4) := do
  match ← perform (.linkByName nicName) with
  | .error err => return .error s!"could not get link {nicName}: {err}"
  | .ok link =>
    match ← perform (.addrList link) with
    | .error err => return .error s!"could not get address for {nicName}: {err}"
    | .ok [] => return .error s!"could not get address for {nicName}"
    | .ok (addr :: _) => return .ok addr

/-- The first rule of the table decides; a table without rules must have no routes.
SOURCE: pkg/network/network.go:426-461 -/
def isTableFree (tableID : ℕ) (targetIP : IPv4) : NetM (Except String Bool) := do
  match ← perform .ruleList with
  | .error err => return .error s!"failed to list rules: {err}"
  | .ok rules =>
    match rules.find? fun r => r.table = tableID with
    | some r => return .ok (r.src.any fun src => src.ip = targetIP)
    | none =>
      match ← perform (.routeListFiltered tableID) with
      | .error err => return .error s!"failed to list routes for table {tableID}: {err}"
      | .ok routes => return .ok routes.isEmpty

/-- The loop of `FindNextFreeTableID` over the remaining tables. -/
def findFreeTable (startID : ℕ) (nicIPAddr : IPv4) : List ℕ → NetM (Except String ℕ)
  | [] => return .error s!"no free routing tables found between {startID} and {maxTableID}"
  | id :: ids => do
    match ← isTableFree id nicIPAddr with
    | .error err => return .error err
    | .ok true => return .ok id
    | .ok false => findFreeTable startID nicIPAddr ids

/-- SOURCE: pkg/network/network.go:464-478 -/
def findNextFreeTableID (startID : ℕ) (nicIPAddr : IPv4) : NetM (Except String ℕ) :=
  findFreeTable startID nicIPAddr (List.range' startID (maxTableID + 1 - startID))

/-! ## Configuring an interface -/

/-- The rule that sends what comes from an address to a table.
SOURCE: pkg/network/network.go:318-320 -/
def nicRule (nicIPAddr : IPv4) (tableID : ℕ) : Rule := ⟨tableID, some ⟨nicIPAddr, 32⟩⟩

/-- SOURCE: pkg/network/network.go:305-310 -/
def instanceRoute (link : Link) (ip : IP) (gateway : IPv4) (tableID : ℕ) : Route where
  linkIndex := link.index
  dst := ip.network
  gw := some gateway
  table := tableID
  tos := 0
  priority := 0

/-- The rule is added unless one with the same table and the same printed source is there.
SOURCE: pkg/network/network.go:317-346 -/
def ensureRule (nicName : String) (nicIPAddr : IPv4) (tableID : ℕ) : NetM (Option String) := do
  let rule := nicRule nicIPAddr tableID
  match ← perform .ruleList with
  | .error err => return some s!"failed to list rules: {err}"
  | .ok existingRules =>
    if existingRules.any fun r =>
        r.table = rule.table && r.src.any fun src => rule.src.any fun src' => src.text = src'.text then
      return none
    match ← perform (.ruleAdd rule) with
    | none => return none
    | some err =>
      if err.isExist then return none
      return some s!"failed to add rule for {nicName}: {err.text}"

/-- `net.ParseIP` is a parameter.
SOURCE: pkg/network/network.go:269-349 -/
def configureRoutesForNIC (parseIP : String → Option IP) (nicName : String) (nicIPAddr : IPv4)
    (instanceIPAddr : String) (tableID : ℕ) : NetM (Option String) := do
  match ← perform (.linkByName nicName) with
  | .error err => return some s!"failed to get interface {nicName}: {err}"
  | .ok link =>
    match ← perform (.routeList link) with
    | .error err => return some s!"failed to list routes for {nicName}: {err}"
    | .ok routes =>
      match routes.findSome? (·.gw) with
      | none => return some s!"could not find gateway for {nicName}"
      | some gateway =>
        match parseIP instanceIPAddr with
        | none => return some s!"invalid ip address format: {instanceIPAddr}"
        | some ip =>
          if let some err ← perform (.routeReplace (instanceRoute link ip gateway tableID)) then
            return some s!"failed to replace/add route for {nicName}: {err}"
          ensureRule nicName nicIPAddr tableID

/-- SOURCE: pkg/network/network.go:352-363 -/
def configureRoute (parseIP : String → Option IP) (nicName instanceIP : String) (tableID : ℕ) :
    NetM (Option String) := do
  match ← getNICIPAddr nicName with
  | .error err => return some s!"failed to get IP address for {nicName}: {err}"
  | .ok nicIPAddr =>
    let err ← configureRoutesForNIC parseIP nicName nicIPAddr instanceIP tableID
    return err.map fun err => s!"failed to configure routes for {nicName}: {err}"

/-- The body of the loop of `setUpMultiNIC`.
SOURCE: pkg/csi_driver/node.go:513-524 -/
def setUpNIC (parseIP : String → Option IP) (ip nicName : String) : NetM (Option Status) := do
  match ← getNICIPAddr nicName with
  | .error err => return some ⟨.internal, s!"Could not get NIC IP address: {err}"⟩
  | .ok nicIPAddr =>
    match ← findNextFreeTableID initialRouteTableID nicIPAddr with
    | .error err => return some ⟨.internal, s!"Error trying to find a free Table ID: {err}"⟩
    | .ok tableID =>
      let err ← configureRoute parseIP nicName ip tableID
      return err.map fun err => ⟨.internal, s!"Route configuration for Multi-NIC failed: {err}"⟩

/-- The first interface that cannot be set up ends the loop.
SOURCE: pkg/csi_driver/node.go:502-527 -/
def setUpMultiNIC (parseIP : String → Option IP) (ip : String) : List String → NetM (Option Status)
  | [] => return none
  | nicName :: nics => do
    if let some err ← setUpNIC parseIP ip nicName then return some err
    setUpMultiNIC parseIP ip nics

end LustreCsi.Model.Network
