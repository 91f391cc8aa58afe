import LustreCsi.Computation.SlotClaims
import LustreCsi.Interface.ResourceNames
import LustreCsi.Model.Network

/-!
# What setting up an interface does to rules and routes

One lemma for each function of the routing code. The search for a table is that of `pick`: a table
is held by the source of its first rule, blocked if it has only routes, and free otherwise
(`NetState.tenancy`). `exec_setUpNIC` says all that setting up one interface can do, and `Written`
what it has done once the route is written.
-/

set_option autoImplicit false

namespace LustreCsi.Interface.Routing

open LustreCsi.Computation Model Model.Network

variable {s : NetState} {n T : ℕ} {α : Type} {new : Route} {rule : Rule}

/-! ## Printed networks -/

/-- Numbers are printed in digits. -/
theorem digit_of_mem_toString {c : Char} (h : c ∈ (toString n).toList) :
    c.isDigit = true := by
  rw [Nat.toString_eq_ofList_toDigits, String.toList_ofList] at h
  exact Nat.isDigit_of_mem_toDigits (by decide) (by decide) h

/-- Numbers that are printed alike are the same. -/
theorem toString_inj {m : ℕ} (h : toString n = toString m) : n = m := by
  have hdigits : Nat.toDigits 10 n = Nat.toDigits 10 m := by
    simpa [Nat.toString_eq_ofList_toDigits] using congrArg String.toList h
  rw [← Nat.ofDigitChars_ten_toDigits (n := n), hdigits, Nat.ofDigitChars_ten_toDigits]

/-- What is no digit is not in a printed number. -/
theorem notMem_toString {c : Char} (hc : c.isDigit = false) : c ∉ (toString n).toList :=
  fun h => by simp [digit_of_mem_toString h] at hc

/-- The characters of a printed network. -/
theorem toList_text (n : IPNet) : n.text.toList =
    n.ip.text.toList ++ '/' :: (toString n.ones).toList := by
  have hslash : (toString "/").toList = ['/'] := rfl
  have hip : toString n.ip.text = n.ip.text := rfl
  simp [IPNet.text, hslash, hip]

/-- Addresses that are printed alike are the same. -/
theorem IPv4.text_inj {ip ip' : IPv4} (h : ip.text = ip'.text) : ip = ip' := by
  have hsplit : ∀ ip : IPv4, split ip.text '.' =
      [ip.a, ip.b, ip.c, ip.d].map fun octet => toString octet.toNat := fun ip => by
    refine split_eq_iff.mpr ⟨by simp, fun l hl => ?_, ?_⟩
    · obtain ⟨octet, -, rfl⟩ := List.mem_map.mp hl
      exact notMem_toString (by decide)
    · simp [IPv4.text]
  have hparts := (hsplit ip).symm.trans ((congrArg (split · '.') h).trans (hsplit ip'))
  have hoctet : ∀ {x y : UInt8}, toString x.toNat = toString y.toNat → x = y :=
    fun hxy => UInt8.toNat_inj.mp (toString_inj hxy)
  obtain ⟨a, b, c, d⟩ := ip
  obtain ⟨a', b', c', d'⟩ := ip'
  simp only [List.map_cons, List.map_nil, List.cons.injEq, and_true] at hparts
  obtain ⟨ha, hb, hc, hd⟩ := hparts
  rw [hoctet ha, hoctet hb, hoctet hc, hoctet hd]

/-- Networks that are printed alike are the same. -/
theorem IPNet.text_inj {n n' : IPNet} (h : n.text = n'.text) : n = n' := by
  have hno : ∀ {m : ℕ}, ∀ c ∈ (toString m).toList, ¬c = '/' := fun c hc heq =>
    notMem_toString (by decide) (heq ▸ hc)
  have hlist := congrArg String.toList h
  rw [toList_text, toList_text] at hlist
  obtain ⟨hip, -, hones⟩ := cut_last (p := (· = '/')) hno hno rfl rfl hlist
  have hip' := IPv4.text_inj (String.toList_injective hip)
  have hones' := toString_inj (String.toList_injective hones)
  cases n
  cases n'
  simp only [IPNet.mk.injEq]
  exact ⟨hip', hones'⟩

/-! ## The state of a table -/

/-- The routing tables that the driver may use. -/
def tables : List ℕ := List.range' initialRouteTableID (maxTableID + 1 - initialRouteTableID)

section State

variable (s : NetState)

/-- The interface of the given name. -/
def link (name : String) : Option Link := s.links.find? fun l => l.name = name

/-- The primary address of an interface. -/
def primary (name : String) : Option IPv4 := (link s name).bind (·.addrs.head?)

/-- The gateway of an interface. -/
def gateway (l : Link) : Option IPv4 :=
  (s.routes.filter fun r => r.table = mainTable ∧ r.linkIndex = l.index).findSome? (·.gw)

/-- The first rule of a table. -/
def firstRule (T : ℕ) : Option Rule := s.rules.find? fun r => r.table = T

/-- The table has no routes. -/
def noRoutes (T : ℕ) : Bool := (s.routes.filter fun r => r.table = T).isEmpty

/-- Who uses a table. -/
def tenancy (T : ℕ) : Tenancy IPv4 :=
  match firstRule s T with
  | some r => r.src.elim .blocked fun src => .held src.ip
  | none => if noRoutes s T then .free else .blocked

end State

/-- A table is held by the source of its first rule. -/
theorem tenancy_eq_held {ip : IPv4} : tenancy s T = .held ip ↔
    ∃ r src, firstRule s T = some r ∧ r.src = some src ∧ src.ip = ip := by
  unfold tenancy
  cases firstRule s T with
  | none => cases noRoutes s T <;> simp
  | some r => cases hsrc : r.src <;> simp [hsrc]

/-- A table is free if it has neither rules nor routes. -/
theorem tenancy_eq_free :
    tenancy s T = .free ↔ firstRule s T = none ∧ noRoutes s T = true := by
  unfold tenancy
  cases firstRule s T with
  | none => cases noRoutes s T <;> simp
  | some r => cases hsrc : r.src <;> simp [hsrc]

/-- The first rule of a table is one for the table. -/
theorem firstRule_table {r : Rule} (h : firstRule s T = some r) :
    r.table = T := by
  simpa using List.find?_some h

/-- The table that an address is given. -/
def chosen (s : NetState) (ip : IPv4) : Option ℕ := pick tables (tenancy s) ip

/-! ## Outcomes of the calls -/

/-- What a call can do and answer. -/
def Outcome (s : NetState) : (o : NetOp) → o.Res → NetState → Prop
  | .linkByName name, r, s' => s' = s ∧ ∀ l, r = .ok l → link s name = some l
  | .addrList l, r, s' => s' = s ∧ ∀ addrs, r = .ok addrs → addrs = l.addrs
  | .routeList l, r, s' => s' = s ∧ ∀ rs : List Route, r = .ok rs →
      rs.findSome? (·.gw) = gateway s l
  | .routeReplace route, r, s' => s' = s.putRoute route ∨ (s' = s ∧ r ≠ none)
  | .ruleAdd rule, r, s' => (∃ n ≤ s.rules.length, s' = s.addRule n rule) ∨
      (s' = s ∧ ∃ err, r = some err ∧ (err.isExist = true → rule ∈ s.rules))
  | .ruleList, r, s' => s' = s ∧ ∀ rules, r = .ok rules → rules = s.rules
  | .routeListFiltered T, r, s' => s' = s ∧ ∀ rs : List Route, r = .ok rs →
      rs.isEmpty = noRoutes s T

/-- Everything that a netlink call can do. -/
theorem outcome_of_step {s' : NetState} {o : NetOp} {r : o.Res} (h : s.step o r s') :
    Outcome s o r s' := by
  obtain ⟨c, hc⟩ := h
  cases o <;> cases c <;> simp only [NetState.exec, reduceCtorEq, Option.some.injEq, Prod.mk.injEq]
    at hc
  case linkByName.ok name =>
    obtain ⟨rfl, rfl⟩ := hc
    refine ⟨rfl, fun l hl => ?_⟩
    cases hfind : link s name with
    | none => simp [show s.links.find? (fun l => l.name = name) = none from hfind] at hl
    | some l' =>
      simpa [show s.links.find? (fun l => l.name = name) = some l' from hfind] using hl
  case routeReplace.fail route text applied =>
    obtain ⟨rfl, rfl⟩ := hc
    cases applied
    · exact .inr ⟨rfl, by simp⟩
    · exact .inl rfl
  case routeReplace.ok route => exact .inl hc.2.symm
  case ruleAdd.insertAt rule place =>
    split at hc
    · rename_i hle
      obtain ⟨-, rfl⟩ := by simpa using hc
      exact .inl ⟨place, hle, rfl⟩
    · cases hc
  case ruleAdd.already rule text =>
    split at hc
    · rename_i hmem
      obtain ⟨rfl, rfl⟩ := by simpa using hc
      exact .inr ⟨rfl, _, rfl, fun _ => hmem⟩
    · cases hc
  case ruleAdd.fail rule text applied =>
    obtain ⟨rfl, rfl⟩ := hc
    cases applied
    · exact .inr ⟨rfl, _, rfl, by simp⟩
    · exact .inl ⟨_, le_refl _, rfl⟩
  case addrList.ok | routeList.ok | ruleList.ok | routeListFiltered.ok =>
    obtain ⟨rfl, rfl⟩ := hc
    exact ⟨rfl, fun x hx => by cases hx; rfl⟩
  all_goals
    obtain ⟨rfl, rfl⟩ := hc
    exact ⟨rfl, fun x hx => nomatch hx⟩

/-- A step without a fault is a step. -/
theorem step_of_okStep {s' : NetState} {o : netSig.Op} {r : netSig.Res o} (h : s.okStep o r s') :
    s.step o r s' := by
  obtain ⟨c, -, hc⟩ := h
  exact ⟨c, hc⟩

/-! ## How rules and routes change -/

/-- Inserting an element that is not looked for does not change what is found. -/
theorem find?_insertIdx_of_neg {p : α → Bool} {x : α} (hx : p x = false) (n : ℕ) (l : List α) :
    (l.insertIdx n x).find? p = l.find? p := by
  induction n generalizing l with
  | zero => simp [hx]
  | succ n ih =>
    cases l with
    | nil => rfl
    | cons y l => simp only [List.insertIdx_succ_cons, List.find?_cons, ih]

/-- The first of the elements with a property, after one has been inserted. -/
theorem find?_insertIdx {p : α → Bool} {x : α} {l : List α} (hn : n ≤ l.length) (hx : p x = true) :
    (l.insertIdx n x).find? p = some x ∨
      ∃ y, l.find? p = some y ∧ (l.insertIdx n x).find? p = some y := by
  induction n generalizing l with
  | zero => exact .inl (by simp [hx])
  | succ n ih =>
    cases l with
    | nil => simp at hn
    | cons y l =>
      simp only [List.insertIdx_succ_cons, List.find?_cons]
      cases hy : p y with
      | true => exact .inr ⟨y, rfl, rfl⟩
      | false => exact ih (by simpa using hn)

/-- Replacing a route leaves the routes with other keys. -/
theorem filter_replaceRoute (q : Route → Bool) (hq : ∀ r, r.SameKey new → q r = false)
    (hnew : q new = false) (rs : List Route) :
    (replaceRoute new rs).filter q = rs.filter q := by
  induction rs with
  | nil => simp [replaceRoute, hnew]
  | cons r rs ih =>
    simp only [replaceRoute]
    split
    · rename_i hkey
      simp [hnew, hq r hkey]
    · simp only [List.filter_cons, ih]

/-- The new route is there. -/
theorem mem_replaceRoute (new : Route) (rs : List Route) : new ∈ replaceRoute new rs := by
  induction rs with
  | nil => simp [replaceRoute]
  | cons r rs ih =>
    simp only [replaceRoute]
    split
    · simp
    · simp [ih]

/-- A route is kept, or it is replaced. -/
theorem mem_replaceRoute_of_mem {r : Route} {rs : List Route} (h : r ∈ rs) (hkey : ¬r.SameKey new) :
    r ∈ replaceRoute new rs := by
  induction rs with
  | nil => cases h
  | cons r' rs ih =>
    simp only [replaceRoute]
    rcases List.mem_cons.mp h with rfl | h
    · rw [if_neg hkey]
      exact List.mem_cons_self
    split
    · exact List.mem_cons_of_mem _ h
    · exact List.mem_cons_of_mem _ (ih h)

/-- What is there is the new route, or was there before. -/
theorem mem_of_mem_replaceRoute {r : Route} {rs : List Route} (h : r ∈ replaceRoute new rs) :
    r = new ∨ r ∈ rs := by
  induction rs with
  | nil => exact .inl (by simpa [replaceRoute] using h)
  | cons r' rs ih =>
    simp only [replaceRoute] at h
    split at h
    · rcases List.mem_cons.mp h with rfl | h
      · exact .inl rfl
      · exact .inr (List.mem_cons_of_mem _ h)
    rcases List.mem_cons.mp h with rfl | h
    · exact .inr List.mem_cons_self
    · exact (ih h).imp_right (List.mem_cons_of_mem _)

section Change

variable {s : NetState} {route : Route} {n T : ℕ} {ip : IPv4}

/-- A route in another table leaves a table without routes or not as it was. -/
theorem noRoutes_putRoute_of_ne (h : T ≠ route.table) :
    noRoutes (s.putRoute route) T = noRoutes s T := by
  have hkey : ∀ r : Route, r.SameKey route → decide (r.table = T) = false := fun r hkey => by
    simpa [hkey.1] using Ne.symm h
  have hfilter := filter_replaceRoute (fun r => decide (r.table = T)) hkey (by simpa using Ne.symm h)
    s.routes
  simp only [noRoutes, NetState.putRoute, hfilter]

/-- The table of a new route has a route. -/
theorem noRoutes_putRoute_self : noRoutes (s.putRoute route) route.table = false := by
  have hmem := mem_replaceRoute route s.routes
  simp only [noRoutes, NetState.putRoute, List.isEmpty_eq_false_iff_exists_mem]
  exact ⟨route, List.mem_filter.mpr ⟨hmem, by simp⟩⟩

/-- The gateways are looked up in the main table only. -/
theorem gateway_putRoute (h : route.table ≠ mainTable) (l : Link) :
    gateway (s.putRoute route) l = gateway s l := by
  have hkey : ∀ r : Route, r.SameKey route →
      decide (r.table = mainTable ∧ r.linkIndex = l.index) = false := fun r hkey => by
    simp [hkey.1, h]
  have hfilter := filter_replaceRoute _ hkey (by simp [h]) s.routes
  simp only [gateway, NetState.putRoute, hfilter]

/-- A route in another table does not change who holds a table. -/
theorem tenancy_putRoute_of_ne (h : T ≠ route.table) :
    tenancy (s.putRoute route) T = tenancy s T := by
  have hrule : firstRule (s.putRoute route) T = firstRule s T := rfl
  simp only [tenancy, hrule, noRoutes_putRoute_of_ne h]

/-- A route in a table that is held changes nothing. -/
theorem tenancy_putRoute_of_held (h : tenancy s route.table = .held ip) (T : ℕ) :
    tenancy (s.putRoute route) T = tenancy s T := by
  by_cases hT : T = route.table
  · obtain ⟨r, src, hr, hsrc, hip⟩ := tenancy_eq_held.mp h
    have hr' : firstRule (s.putRoute route) route.table = some r := hr
    rw [hT, h, tenancy_eq_held]
    exact ⟨r, src, hr', hsrc, hip⟩
  · exact tenancy_putRoute_of_ne hT

/-- A route in a table without rules blocks it. -/
theorem tenancy_putRoute_of_none (h : firstRule s route.table = none) :
    tenancy (s.putRoute route) route.table = .blocked := by
  have hrule : firstRule (s.putRoute route) route.table = none := h
  simp [tenancy, hrule, noRoutes_putRoute_self]

/-- A rule for another table does not change who holds a table. -/
theorem tenancy_addRule_of_ne (h : T ≠ rule.table) :
    tenancy (s.addRule n rule) T = tenancy s T := by
  have hrule : firstRule (s.addRule n rule) T = firstRule s T :=
    find?_insertIdx_of_neg (by simpa using Ne.symm h) n s.rules
  have hroutes : noRoutes (s.addRule n rule) T = noRoutes s T := rfl
  simp only [tenancy, hrule, hroutes]

/-- A rule gives the table to its source, unless another source holds it. -/
theorem tenancy_addRule_self (hn : n ≤ s.rules.length)
    (h : firstRule s T = none ∨ tenancy s T = .held ip) :
    tenancy (s.addRule n (nicRule ip T)) T = .held ip := by
  rw [tenancy_eq_held]
  rcases find?_insertIdx (p := fun r => decide (r.table = T)) (x := nicRule ip T) hn
    (by simp [nicRule]) with hfirst | ⟨y, hy, hfirst⟩
  · exact ⟨nicRule ip T, ⟨ip, 32⟩, hfirst, rfl, rfl⟩
  have hold : firstRule s T = some y := hy
  rcases h with h | h
  · rw [hold] at h
    cases h
  obtain ⟨r, src, hr, hsrc, hip⟩ := tenancy_eq_held.mp h
  obtain rfl := Option.some.inj (hold.symm.trans hr)
  exact ⟨y, src, hfirst, hsrc, hip⟩

end Change

/-! ## The functions -/

section Functions

variable {s s' : NetState} {tr : List (Event netSig)} {nic ip : String} {addr : IPv4} {T : ℕ}
  {parseIP : String → Option IP}

/-- A run that begins with a call. -/
theorem exec_perform_bind {o : NetOp} {f : o.Res → NetM α} {a : α} :
    Exec NetState.step (perform o >>= f) s tr a s' ↔
      ∃ r s₁ tr₁, s.step o r s₁ ∧ tr = ⟨o, r⟩ :: tr₁ ∧ Exec NetState.step (f r) s₁ tr₁ a s' :=
  Iff.rfl

/-- A run of a program that returns. -/
theorem exec_pure {a b : α} :
    Exec NetState.step (pure b : NetM α) s tr a s' ↔ tr = [] ∧ a = b ∧ s' = s := Iff.rfl

/-- The routes that were written, in the order of the calls. -/
def written (tr : List (Event netSig)) : List Route :=
  tr.filterMap fun
    | ⟨.routeReplace route, _⟩ => some route
    | _ => none

/-- The routes written in two parts of a run. -/
theorem written_append (tr₁ tr₂ : List (Event netSig)) :
    written (tr₁ ++ tr₂) = written tr₁ ++ written tr₂ := List.filterMap_append

/-- `getNICIPAddr` changes nothing, and answers the primary address of the interface. -/
theorem exec_getNICIPAddr {r : Except String IPv4}
    (h : Exec NetState.step (getNICIPAddr nic) s tr r s') :
    s' = s ∧ written tr = [] ∧ ∀ addr, r = .ok addr → primary s nic = some addr := by
  obtain ⟨r₁, s₁, tr₁, hlink, rfl, hk⟩ := exec_perform_bind.mp h
  obtain ⟨rfl, hl⟩ := outcome_of_step hlink
  cases r₁ with
  | error err =>
    obtain ⟨rfl, rfl, rfl⟩ := exec_pure.mp hk
    exact ⟨rfl, rfl, fun _ hr => nomatch hr⟩
  | ok l =>
    obtain ⟨r₂, s₂, tr₂, haddr, rfl, hk₂⟩ := exec_perform_bind.mp hk
    obtain ⟨rfl, ha⟩ := outcome_of_step haddr
    match r₂ with
    | .error err =>
      obtain ⟨rfl, rfl, rfl⟩ := exec_pure.mp hk₂
      exact ⟨rfl, rfl, fun _ hr => nomatch hr⟩
    | .ok [] =>
      obtain ⟨rfl, rfl, rfl⟩ := exec_pure.mp hk₂
      exact ⟨rfl, rfl, fun _ hr => nomatch hr⟩
    | .ok (x :: xs) =>
      obtain ⟨rfl, rfl, rfl⟩ := exec_pure.mp hk₂
      refine ⟨rfl, rfl, fun addr hr => ?_⟩
      cases hr
      simp [primary, hl l rfl, ← ha _ rfl]

/-- The test of a table is that of its tenancy. -/
theorem exec_isTableFree {r : Except String Bool}
    (h : Exec NetState.step (isTableFree T addr) s tr r s') :
    s' = s ∧ written tr = [] ∧ ∀ b, r = .ok b → b = (tenancy s T).usable addr := by
  obtain ⟨r₁, s₁, tr₁, hrules, rfl, hk⟩ := exec_perform_bind.mp h
  obtain ⟨rfl, hl⟩ := outcome_of_step hrules
  cases r₁ with
  | error err =>
    obtain ⟨rfl, rfl, rfl⟩ := exec_pure.mp hk
    exact ⟨rfl, rfl, fun _ hr => by cases hr⟩
  | ok rules =>
    obtain rfl := hl rules rfl
    dsimp only at hk
    cases hfirst : firstRule s₁ T with
    | some rule =>
      have hfind : s₁.rules.find? (fun r => decide (r.table = T)) = some rule := hfirst
      rw [hfind] at hk
      obtain ⟨rfl, rfl, rfl⟩ := exec_pure.mp hk
      refine ⟨rfl, rfl, fun b hb => ?_⟩
      cases hb
      cases hsrc : rule.src <;> simp [tenancy, hfirst, hsrc, Tenancy.usable]
    | none =>
      have hfind : s₁.rules.find? (fun r => decide (r.table = T)) = none := hfirst
      rw [hfind] at hk
      obtain ⟨r₂, s₂, tr₂, hroutes, rfl, hk₂⟩ := exec_perform_bind.mp hk
      obtain ⟨rfl, hr⟩ := outcome_of_step hroutes
      cases r₂ with
      | error err =>
        obtain ⟨rfl, rfl, rfl⟩ := exec_pure.mp hk₂
        exact ⟨rfl, rfl, fun _ hr => by cases hr⟩
      | ok routes =>
        obtain ⟨rfl, rfl, rfl⟩ := exec_pure.mp hk₂
        refine ⟨rfl, rfl, fun b hb => ?_⟩
        cases hb
        rw [hr routes rfl]
        cases hno : noRoutes s' T <;> simp [tenancy, hfirst, hno, Tenancy.usable]

/-- The search goes through the tables in order. -/
theorem exec_findFreeTable {startID : ℕ} {ids : List ℕ} {r : Except String ℕ}
    (h : Exec NetState.step (findFreeTable startID addr ids) s tr r s') :
    s' = s ∧ written tr = [] ∧ ∀ T, r = .ok T → pick ids (tenancy s) addr = some T := by
  induction ids generalizing tr s with
  | nil =>
    obtain ⟨rfl, rfl, rfl⟩ := exec_pure.mp h
    exact ⟨rfl, rfl, fun _ hr => nomatch hr⟩
  | cons id ids ih =>
    obtain ⟨tr₁, r₁, s₁, tr₂, htest, hk, rfl⟩ := exec_bind.mp h
    obtain ⟨rfl, hw, husable⟩ := exec_isTableFree htest
    match r₁ with
    | .error err =>
      obtain ⟨rfl, rfl, rfl⟩ := exec_pure.mp hk
      exact ⟨rfl, by simpa using hw, fun _ hr => nomatch hr⟩
    | .ok true =>
      obtain ⟨rfl, rfl, rfl⟩ := exec_pure.mp hk
      refine ⟨rfl, by simpa using hw, fun T hT => ?_⟩
      cases hT
      simp [pick, ← husable true rfl]
    | .ok false =>
      obtain ⟨rfl, hw', hpick⟩ := ih hk
      refine ⟨rfl, by rw [written_append, hw, hw', List.nil_append], fun T hT => ?_⟩
      simpa [pick, ← husable false rfl] using hpick T hT

/-- `findNextFreeTableID` changes nothing, and answers the table chosen for the address. -/
theorem exec_findNextFreeTableID {r : Except String ℕ}
    (h : Exec NetState.step (findNextFreeTableID initialRouteTableID addr) s tr r s') :
    s' = s ∧ written tr = [] ∧ ∀ T, r = .ok T → chosen s addr = some T := exec_findFreeTable h

/-- The check for an existing rule finds the rule itself. -/
theorem hasRule_iff (rules : List Rule) :
    (rules.any fun r => decide (r.table = (nicRule addr T).table) && r.src.any fun src =>
      (nicRule addr T).src.any fun src' => decide (src.text = src'.text)) = true ↔
      nicRule addr T ∈ rules := by
  rw [List.any_eq_true]
  constructor
  · rintro ⟨⟨table, src⟩, hmem, h⟩
    cases src with
    | none => simp at h
    | some src =>
      simp only [nicRule, Option.any_some, Bool.and_eq_true, decide_eq_true_eq] at h
      obtain ⟨htable, htext⟩ := h
      obtain rfl : table = T := of_decide_eq_true htable
      obtain rfl := IPNet.text_inj htext
      exact hmem
  · intro hmem
    exact ⟨_, hmem, by simp [nicRule]⟩

/-- The rule is there afterwards, if the call succeeds. -/
theorem exec_ensureRule {r : Option String}
    (h : Exec NetState.step (ensureRule nic addr T) s tr r s') :
    (s' = s ∨ (nicRule addr T ∉ s.rules ∧
      ∃ n ≤ s.rules.length, s' = s.addRule n (nicRule addr T))) ∧
      written tr = [] ∧ (r = none → nicRule addr T ∈ s'.rules) := by
  obtain ⟨r₁, s₁, tr₁, hrules, rfl, hk⟩ := exec_perform_bind.mp h
  obtain ⟨rfl, hl⟩ := outcome_of_step hrules
  cases r₁ with
  | error err =>
    obtain ⟨rfl, rfl, rfl⟩ := exec_pure.mp hk
    exact ⟨.inl rfl, rfl, fun hr => nomatch hr⟩
  | ok rules =>
    obtain rfl := hl rules rfl
    dsimp only at hk
    split at hk
    · rename_i hhas
      obtain ⟨rfl, rfl, rfl⟩ := exec_pure.mp hk
      exact ⟨.inl rfl, rfl, fun _ => (hasRule_iff _).mp hhas⟩
    rename_i hhas
    have hnot : nicRule addr T ∉ s₁.rules := fun hmem => hhas ((hasRule_iff _).mpr hmem)
    obtain ⟨r₂, s₂, tr₂, hadd, rfl, hk₂⟩ := exec_perform_bind.mp hk
    have hend : s' = s₂ ∧ tr₂ = [] ∧ (r = none → ∀ err, r₂ = some err → err.isExist = true) := by
      cases r₂ with
      | none =>
        obtain ⟨rfl, -, rfl⟩ := exec_pure.mp hk₂
        exact ⟨rfl, rfl, fun _ _ he => nomatch he⟩
      | some err =>
        dsimp only at hk₂
        split at hk₂
        · obtain ⟨rfl, -, rfl⟩ := exec_pure.mp hk₂
          rename_i hexist
          exact ⟨rfl, rfl, fun _ err' he => Option.some.inj he ▸ hexist⟩
        obtain ⟨rfl, rfl, rfl⟩ := exec_pure.mp hk₂
        exact ⟨rfl, rfl, fun hr => nomatch hr⟩
    obtain ⟨rfl, rfl, hexist⟩ := hend
    rcases outcome_of_step hadd with ⟨n, hn, rfl⟩ | ⟨rfl, err, rfl, hmem⟩
    · exact ⟨.inr ⟨hnot, n, hn, rfl⟩, rfl, fun _ => (List.mem_insertIdx hn).mpr (.inl rfl)⟩
    · exact ⟨.inl rfl, rfl, fun hr => hmem (hexist hr err rfl)⟩

/-- The route of an instance has been written to the table of the interface, and the rule of the
interface has been added unless it was there or the call has failed before. -/
structure Written (parseIP : String → Option IP) (s : NetState) (nic ip : String) (addr : IPv4)
    (T : ℕ) (route : Route) (s' : NetState) : Prop where
  named : ∃ l gw a, link s nic = some l ∧ gateway s l = some gw ∧ parseIP ip = some a ∧
    route = instanceRoute l a gw T
  state : s' = s.putRoute route ∨ (nicRule addr T ∉ s.rules ∧
    ∃ n ≤ s.rules.length, s' = (s.putRoute route).addRule n (nicRule addr T))

/-- The route is one of the table. -/
theorem Written.table {route : Route} (h : Written parseIP s nic ip addr T route s') :
    route.table = T := by
  obtain ⟨l, gw, a, -, -, -, rfl⟩ := h.named
  rfl

/-- `configureRoutesForNIC` fails and changes nothing, or has written one route; without an error
the rule of the interface is there. -/
theorem exec_configureRoutesForNIC {r : Option String}
    (h : Exec NetState.step (configureRoutesForNIC parseIP nic addr ip T) s tr r s') :
    (s' = s ∧ r ≠ none) ∨ ∃ route, Written parseIP s nic ip addr T route s' ∧
      written tr = [route] ∧ (r = none → nicRule addr T ∈ s'.rules) := by
  have hfails : ∀ {err : String} {tr₀ : List (Event netSig)} {s₀ : NetState},
      Exec NetState.step (pure (some err) : NetM (Option String)) s₀ tr₀ r s' →
        s' = s₀ ∧ r ≠ none ∧ tr₀ = [] := fun h => by
    obtain ⟨rfl, rfl, rfl⟩ := exec_pure.mp h
    exact ⟨rfl, by simp, rfl⟩
  obtain ⟨r₁, s₁, tr₁, hlink, rfl, hk₁⟩ := exec_perform_bind.mp h
  obtain ⟨rfl, hl⟩ := outcome_of_step hlink
  cases r₁ with
  | error err => exact .inl ⟨(hfails hk₁).1, (hfails hk₁).2.1⟩
  | ok l =>
    obtain ⟨r₂, s₂, tr₂, hroutes, rfl, hk₂⟩ := exec_perform_bind.mp hk₁
    obtain ⟨rfl, hgw⟩ := outcome_of_step hroutes
    cases r₂ with
    | error err => exact .inl ⟨(hfails hk₂).1, (hfails hk₂).2.1⟩
    | ok routes =>
      dsimp only at hk₂
      rw [hgw routes rfl] at hk₂
      cases hgate : gateway s₂ l with
      | none =>
        rw [hgate] at hk₂
        exact .inl ⟨(hfails hk₂).1, (hfails hk₂).2.1⟩
      | some gw =>
        rw [hgate] at hk₂
        dsimp only at hk₂
        cases hparse : parseIP ip with
        | none =>
          rw [hparse] at hk₂
          exact .inl ⟨(hfails hk₂).1, (hfails hk₂).2.1⟩
        | some a =>
          rw [hparse] at hk₂
          obtain ⟨r₃, s₃, tr₃, hput, rfl, hk₃⟩ := exec_perform_bind.mp hk₂
          have hnamed : ∃ l' gw' a', link s₂ nic = some l' ∧ gateway s₂ l' = some gw' ∧
              parseIP ip = some a' ∧ instanceRoute l a gw T = instanceRoute l' a' gw' T :=
            ⟨l, gw, a, hl l rfl, hgate, hparse, rfl⟩
          cases r₃ with
          | some err =>
            obtain ⟨rfl, hr, rfl⟩ := hfails hk₃
            rcases outcome_of_step hput with rfl | ⟨rfl, -⟩
            · exact .inr ⟨_, ⟨hnamed, .inl rfl⟩, rfl, fun hr' => absurd hr' hr⟩
            · exact .inl ⟨rfl, hr⟩
          | none =>
            obtain rfl := (outcome_of_step hput).resolve_right fun h => h.2 rfl
            obtain ⟨hstate, hw, hrule⟩ := exec_ensureRule hk₃
            refine .inr ⟨_, ⟨hnamed, hstate⟩, ?_, hrule⟩
            change instanceRoute l a gw T :: written tr₃ = _
            rw [hw]

/-- All that setting up an interface can do: nothing, or writing to the table that is chosen. -/
theorem exec_setUpNIC {r : Option Status}
    (h : Exec NetState.step (setUpNIC parseIP ip nic) s tr r s') :
    (s' = s ∧ r ≠ none) ∨ ∃ addr T route, primary s nic = some addr ∧ chosen s addr = some T ∧
      Written parseIP s nic ip addr T route s' ∧ written tr = [route] ∧
      (r = none → nicRule addr T ∈ s'.rules) := by
  obtain ⟨tr₁, r₁, s₁, tr₂, haddr, hk₁, rfl⟩ := exec_bind.mp h
  obtain ⟨rfl, hw₁, hprimary⟩ := exec_getNICIPAddr haddr
  cases r₁ with
  | error err =>
    obtain ⟨-, rfl, rfl⟩ := exec_pure.mp hk₁
    exact .inl ⟨rfl, by simp⟩
  | ok addr =>
    obtain ⟨tr₃, r₂, s₂, tr₄, hfind, hk₂, rfl⟩ := exec_bind.mp hk₁
    obtain ⟨rfl, hw₃, hchosen⟩ := exec_findNextFreeTableID hfind
    cases r₂ with
    | error err =>
      obtain ⟨-, rfl, rfl⟩ := exec_pure.mp hk₂
      exact .inl ⟨rfl, by simp⟩
    | ok T =>
      obtain ⟨tr₅, r₃, s₃, tr₆, hconf, hk₃, rfl⟩ := exec_bind.mp hk₂
      obtain ⟨rfl, rfl, rfl⟩ := exec_pure.mp hk₃
      obtain ⟨tr₇, r₄, s₄, tr₈, haddr', hk₄, rfl⟩ := exec_bind.mp hconf
      obtain ⟨rfl, hw₇, hprimary'⟩ := exec_getNICIPAddr haddr'
      cases r₄ with
      | error err =>
        obtain ⟨-, rfl, rfl⟩ := exec_pure.mp hk₄
        exact .inl ⟨rfl, by simp⟩
      | ok addr' =>
        -- The address is looked up a second time, in the same state.
        obtain rfl : addr' = addr :=
          Option.some.inj ((hprimary' addr' rfl).symm.trans (hprimary addr rfl))
        obtain ⟨tr₉, r₅, s₅, tr₀, hroutes, hk₅, rfl⟩ := exec_bind.mp hk₄
        obtain ⟨rfl, rfl, rfl⟩ := exec_pure.mp hk₅
        rcases exec_configureRoutesForNIC hroutes with ⟨rfl, hr⟩ | ⟨route, hwritten, hw₉, hrule⟩
        · exact .inl ⟨rfl, by simpa using hr⟩
        refine .inr ⟨addr', T, route, hprimary addr' rfl, hchosen T rfl, hwritten, ?_, ?_⟩
        · simp only [written_append, hw₁, hw₃, hw₇, hw₉, List.nil_append]
          rfl
        · intro hr
          exact hrule (by simpa using hr)

/-! ## What is written where -/

/-- A table without a first rule has none. -/
theorem notMem_of_firstRule (h : firstRule s T = none) (ht : rule.table = T) :
    rule ∉ s.rules := fun hmem => by
  have hnone := List.find?_eq_none.mp h rule hmem
  simp [ht] at hnone

namespace Written

variable {route : Route} (h : Written parseIP s nic ip addr T route s')

include h

/-- The interfaces are as before. -/
theorem links : s'.links = s.links := by
  rcases h.state with rfl | ⟨-, n, -, rfl⟩ <;> rfl

/-- One route was replaced. -/
theorem routes : s'.routes = replaceRoute route s.routes := by
  rcases h.state with rfl | ⟨-, n, -, rfl⟩ <;> rfl

/-- The rules stay, and at most that of the interface is added. -/
theorem mem_rules : rule ∈ s'.rules → rule = nicRule addr T ∨ rule ∈ s.rules := by
  rcases h.state with rfl | ⟨-, n, hn, rfl⟩
  · exact .inr
  · exact (List.mem_insertIdx hn).mp

/-- No rule was removed. -/
theorem rules_subset (hmem : rule ∈ s.rules) : rule ∈ s'.rules := by
  rcases h.state with rfl | ⟨-, n, hn, rfl⟩
  · exact hmem
  · exact (List.mem_insertIdx hn).mpr (.inr hmem)

/-- The gateway of an interface is as before. -/
theorem gateway_eq (hT : T ∈ tables) (l : Link) : gateway s' l = gateway s l := by
  have hmain : route.table ≠ mainTable := by
    rw [h.table]
    rintro rfl
    exact absurd hT (by decide)
  have hput := gateway_putRoute (s := s) hmain l
  rcases h.state with rfl | ⟨-, n, hn, rfl⟩ <;> exact hput

/-- Other tables are held as before. -/
theorem tenancy_of_ne {T' : ℕ} (hne : T' ≠ T) : tenancy s' T' = tenancy s T' := by
  have hput : tenancy (s.putRoute route) T' = tenancy s T' :=
    tenancy_putRoute_of_ne (by rwa [h.table])
  rcases h.state with rfl | ⟨-, n, hn, rfl⟩
  · exact hput
  have hne' : T' ≠ (nicRule addr T).table := hne
  exact (tenancy_addRule_of_ne hne').trans hput

/-- A table that the interface holds stays its own. -/
theorem tenancy_of_held (hheld : tenancy s T = .held addr) : tenancy s' T = .held addr := by
  have hheld' : tenancy s route.table = .held addr := by rw [h.table, hheld]
  have hput : tenancy (s.putRoute route) T = .held addr := by
    rw [tenancy_putRoute_of_held hheld', hheld]
  rcases h.state with rfl | ⟨-, n, hn, rfl⟩
  · exact hput
  · exact tenancy_addRule_self hn (.inr hput)

/-- A table without rules becomes the interface's own only with the rule. -/
theorem tenancy_of_none (hnone : firstRule s T = none) :
    (nicRule addr T ∈ s'.rules ∧ tenancy s' T = .held addr) ∨
      (nicRule addr T ∉ s'.rules ∧ tenancy s' T = .blocked) := by
  rcases h.state with rfl | ⟨-, n, hn, rfl⟩
  · refine .inr ⟨notMem_of_firstRule hnone rfl, ?_⟩
    have hnone' : firstRule s route.table = none := by rwa [h.table]
    have hblocked := tenancy_putRoute_of_none hnone'
    rwa [h.table] at hblocked
  · exact .inl ⟨(List.mem_insertIdx hn).mpr (.inl rfl), tenancy_addRule_self hn (.inl hnone)⟩

/-- When the rule is there, the interface has claimed its table. -/
theorem tenancy_eq (hchosen : chosen s addr = some T) (hrule : nicRule addr T ∈ s'.rules) :
    tenancy s' = Function.update (tenancy s) T (.held addr) := by
  funext T'
  by_cases hT : T' = T
  · subst hT
    rw [Function.update_self]
    rcases Tenancy.usable_iff.mp (usable_of_pick hchosen) with hfree | hheld
    · rcases h.tenancy_of_none (tenancy_eq_free.mp hfree).1 with ⟨-, hheld⟩ | ⟨hno, -⟩
      · exact hheld
      · exact absurd hrule hno
    · exact h.tenancy_of_held hheld
  · rw [Function.update_of_ne hT, h.tenancy_of_ne hT]

end Written

/-! ## One source for each table -/

/-- The source of a rule, if it has one. -/
def source (r : Rule) : Option IPv4 := r.src.map (·.ip)

/-- No table of the driver has rules for two different sources. -/
def Exclusive (s : NetState) : Prop :=
  ∀ r ∈ s.rules, ∀ r' ∈ s.rules, r.table ∈ tables → r.table = r'.table → source r = source r'

/-- The rules of a table that an interface may use are all its own. -/
theorem source_of_usable (hs : Exclusive s) (hT : T ∈ tables)
    (husable : (tenancy s T).usable addr = true) (hmem : rule ∈ s.rules) (ht : rule.table = T) :
    source rule = some addr := by
  rcases Tenancy.usable_iff.mp husable with hfree | hheld
  · exact absurd hmem (notMem_of_firstRule (tenancy_eq_free.mp hfree).1 ht)
  obtain ⟨r, src, hfirst, hsrc, rfl⟩ := tenancy_eq_held.mp hheld
  have hr : r ∈ s.rules := List.mem_of_find?_eq_some hfirst
  rw [hs rule hmem r hr (ht ▸ hT) (ht.trans (firstRule_table hfirst).symm)]
  simp [source, hsrc]

/-- Adding the rule of an interface to a table that it may use. -/
theorem exclusive_of_rules (hs : Exclusive s) (husable : (tenancy s T).usable addr = true)
    (hrules : ∀ rule ∈ s'.rules, rule = nicRule addr T ∨ rule ∈ s.rules) : Exclusive s' := by
  have hown : ∀ rule ∈ s'.rules, rule.table = T → T ∈ tables → source rule = some addr := by
    intro rule hmem ht hT
    rcases hrules rule hmem with rfl | hold
    · rfl
    · exact source_of_usable hs hT husable hold ht
  intro r hr r' hr' hT heq
  by_cases ht : r.table = T
  · rw [hown r hr ht (ht ▸ hT), hown r' hr' (heq ▸ ht) (ht ▸ hT)]
  have hold : ∀ rule ∈ s'.rules, rule.table = r.table → rule ∈ s.rules := by
    intro rule hmem htable
    refine (hrules rule hmem).resolve_left ?_
    rintro rfl
    exact ht htable.symm
  exact hs r (hold r hr rfl) r' (hold r' hr' heq.symm) hT heq

end Functions

/-! ## A node with two additional interfaces -/

/-- Two additional interfaces with their gateways; a foreign rule uses the first table. -/
def sampleNet : NetState where
  links := [⟨"eth1", 3, [⟨10, 1, 0, 2⟩]⟩, ⟨"eth2", 4, [⟨10, 2, 0, 2⟩]⟩]
  rules := [⟨100, some ⟨⟨10, 9, 0, 0⟩, 16⟩⟩]
  routes := [⟨3, none, some ⟨10, 1, 0, 1⟩, mainTable, 0, 0⟩,
    ⟨4, none, some ⟨10, 2, 0, 1⟩, mainTable, 0, 100⟩]

/-- The only address that is parsed there. -/
def sampleParse (text : String) : Option IP :=
  if text = "10.0.0.2" then some (.v4 ⟨10, 0, 0, 2⟩) else none

end LustreCsi.Interface.Routing
