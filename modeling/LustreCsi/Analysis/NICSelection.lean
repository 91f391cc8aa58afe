import LustreCsi.Analysis.LnetNetwork
import LustreCsi.Interface.Text
import LustreCsi.Model.NICs

/-!
# The choice of network interfaces does not depend on their order

The installer enumerates the interfaces twice, in whatever order the kernel has.
`lnetNetwork_of_any_order` says that the text for the kernel modules is the same for all orders, and
what it lists.
-/

set_option autoImplicit false

namespace LustreCsi.Analysis.NICSelection

open LustreCsi.Computation Model Model.NICs Model.Kmod Interface LnetNetwork

variable {a : HardwareAddr} {n p : String} {order : List String}

/-! ## Machines -/

/-- A machine: its standard interfaces with their addresses, the interfaces of its metadata, of which the
first is one of the standard ones, and the answer for the labels of its node. -/
structure Machine (U : Unicode) where
  nics : AList fun _ : String => HardwareAddr
  mac_inj : ∀ n n' addr, nics.lookup n = some addr → nics.lookup n' = some addr → n = n'
  first : NetworkInterface
  rest : List NetworkInterface
  macs_nodup : ((first :: rest).map fun m => toLower U m.mac).Nodup
  first_mem : ∃ n addr, nics.lookup n = some addr ∧ toLower U addr.text = toLower U first.mac
  node : Except String StrMap

variable {U : Unicode}

namespace Machine

def names (M : Machine U) : List String := M.nics.keys

def metaNICs (M : Machine U) : List NetworkInterface := M.first :: M.rest

/-- The answers, given the orders in which the interfaces are enumerated one after the other. Every lookup
of an interface succeeds. -/
def answer (M : Machine U) (orders : List (List String)) :
    (o : nicSig.Op) → Option (nicSig.Res o × List (List String))
  | .standardNICs => orders.head?.map fun order => (.ok order, orders.tail)
  | .linkByName n => (M.nics.lookup n).map fun addr => (.ok addr, orders)
  | .networkInterfaces => some (.ok M.metaNICs, orders)
  | .nodeLabels => some (M.node, orders)

/-- The interface that the metadata lists first. -/
def IsPrimary (M : Machine U) (n : String) : Prop :=
  ∃ addr, M.nics.lookup n = some addr ∧ toLower U addr.text = toLower U M.first.mac

/-- An interface that the metadata lists with the network of the first one. -/
def SameNetwork (M : Machine U) (n : String) : Prop :=
  ∃ addr, M.nics.lookup n = some addr ∧
    ∃ m ∈ M.metaNICs, toLower U m.mac = toLower U addr.text ∧ m.network = M.first.network

/-- More than one interface may be used. -/
def MultiNIC (M : Machine U) (disableMultiNIC : Bool) : Prop :=
  ∃ labels, M.node = .ok labels ∧ multiNICDisabled labels disableMultiNIC = .ok false

end Machine

/-! ## Addresses as text -/

/-- The two hexadecimal digits of a byte determine it. -/
theorem hexByte_inj {b b' : UInt8} (h : hexByte b = hexByte b') : b = b' := by
  have hdigit : ∀ i j : Fin 16, Nat.digitChar i = Nat.digitChar j → i = j := by decide
  have hb := b.toNat_lt
  have hb' := b'.toNat_lt
  simp only [hexByte, String.ofList_inj, List.cons.injEq, and_true] at h
  have hhigh := hdigit ⟨b.toNat / 16, by omega⟩ ⟨b'.toNat / 16, by omega⟩ h.1
  have hlow := hdigit ⟨b.toNat % 16, by omega⟩ ⟨b'.toNat % 16, by omega⟩ h.2
  simp only [Fin.mk.injEq] at hhigh hlow
  apply UInt8.toNat_inj.mp
  omega

/-- A concatenation is in lower case exactly when both parts are. -/
theorem lowerAscii_append (s t : String) : lowerAscii (s ++ t) = (lowerAscii s && lowerAscii t) := by
  simp [lowerAscii]

/-- The hexadecimal digits of a byte are in lower case. -/
theorem lowerAscii_hexByte (b : UInt8) : lowerAscii (hexByte b) = true := by
  have hdigit : ∀ i : Fin 16, ((Nat.digitChar i).toNat < 128 && (Nat.digitChar i).toLower == Nat.digitChar i) =
    true := by decide
  have hb := b.toNat_lt
  have hhigh := hdigit ⟨b.toNat / 16, by omega⟩
  have hlow := hdigit ⟨b.toNat % 16, by omega⟩
  simp only [lowerAscii, hexByte, String.toList_ofList, List.all_cons, List.all_nil, Bool.and_true, hhigh, hlow]

/-- The text of an address has no upper-case letters. -/
theorem lowerAscii_text (a : HardwareAddr) : lowerAscii a.text = true := by
  induction a with
  | nil => rfl
  | cons b bs ih =>
    cases bs with
    | nil => simpa [HardwareAddr.text] using lowerAscii_hexByte b
    | cons b' bs =>
      simp only [HardwareAddr.text, List.map_cons, String.intercalate_cons_cons, lowerAscii_append,
        Bool.and_eq_true] at ih ⊢
      exact ⟨⟨lowerAscii_hexByte b, by decide⟩, ih⟩

/-- The bytes of an address are the pieces between the colons. -/
theorem split_text (ha : a ≠ []) : split a.text ':' = a.map hexByte := by
  refine split_eq_iff.mpr ⟨by simpa using ha, fun piece hpiece => ?_, by simp [HardwareAddr.text]⟩
  obtain ⟨b, -, rfl⟩ := List.mem_map.mp hpiece
  have hdigit : ∀ i : Fin 16, ':' ≠ Nat.digitChar i := by decide
  have hb := b.toNat_lt
  simp only [hexByte, String.toList_ofList, List.mem_cons, List.not_mem_nil, or_false, not_or]
  exact ⟨hdigit ⟨b.toNat / 16, by omega⟩, hdigit ⟨b.toNat % 16, by omega⟩⟩

/-- Different addresses have different texts. -/
theorem text_inj {b : HardwareAddr} (h : a.text = b.text) : a = b := by
  have hempty : ∀ c : HardwareAddr, c.text = "" → c = [] := by
    intro c hc
    by_contra hne
    have hsplit := split_text hne
    rw [hc] at hsplit
    cases c with
    | nil => exact hne rfl
    | cons d ds =>
      have hlen : (hexByte d).toList.length = 2 := by simp [hexByte]
      simp only [List.map_cons] at hsplit
      rw [← (List.cons.inj hsplit).1] at hlen
      cases hlen
  by_cases ha : a = []
  · subst ha
    exact (hempty b h.symm).symm
  have hb : b ≠ [] := by
    rintro rfl
    exact ha (hempty a h)
  have hpieces := split_text ha
  rw [h, split_text hb] at hpieces
  exact (List.map_injective_iff.mpr fun _ _ => hexByte_inj) hpieces.symm

/-- Addresses can be compared by their lowered texts. -/
theorem lower_text_inj {b : HardwareAddr} (h : toLower U a.text = toLower U b.text) : a = b := by
  rw [toLower_of_lowerAscii (lowerAscii_text a), toLower_of_lowerAscii (lowerAscii_text b)] at h
  exact text_inj h

/-! ## The metadata -/

/-- The map holds the last interface of each address. -/
theorem lookup_metaNICMap (l : List NetworkInterface) (k : String) :
    (metaNICMap U l).lookup k = l.reverse.find? fun m => toLower U m.mac = k := by
  have hloop : ∀ acc : AList fun _ : String => NetworkInterface,
      (l.foldl (fun acc m => acc.insert (toLower U m.mac) m) acc).lookup k =
        (l.reverse.find? fun m => toLower U m.mac = k).or (acc.lookup k) := by
    induction l with
    | nil => simp
    | cons m l ih =>
      intro acc
      rw [List.foldl_cons, ih, List.reverse_cons, List.find?_append, Option.or_assoc]
      congr 1
      by_cases hm : toLower U m.mac = k
      · subst hm
        simp
      · simp [AList.lookup_insert_ne (Ne.symm hm), hm]
  simpa [metaNICMap] using hloop ∅

namespace Machine

/-- An interface of the metadata is found by its address. -/
theorem lookup_eq_some (M : Machine U) {k : String} {m : NetworkInterface} :
    (metaNICMap U M.metaNICs).lookup k = some m ↔ m ∈ M.metaNICs ∧ toLower U m.mac = k := by
  rw [lookup_metaNICMap]
  constructor
  · intro h
    exact ⟨by simpa using List.mem_of_find?_eq_some h, by simpa using List.find?_some h⟩
  · rintro ⟨hm, hk⟩
    obtain ⟨m', hm'⟩ : ∃ m', (M.metaNICs.reverse.find? fun m => toLower U m.mac = k) = some m' :=
      Option.isSome_iff_exists.mp (List.find?_isSome.mpr ⟨m, by simpa using hm, by simpa using hk⟩)
    have hmem : m' ∈ M.metaNICs := by simpa using List.mem_of_find?_eq_some hm'
    have hk' : toLower U m'.mac = k := by simpa using List.find?_some hm'
    rw [hm', List.inj_on_of_nodup_map M.macs_nodup hmem hm (hk'.trans hk.symm)]

/-- The test of `validateNICs`. -/
def valid (M : Machine U) (n : String) : Bool :=
  ((M.nics.lookup n).bind fun addr => (metaNICMap U M.metaNICs).lookup (toLower U addr.text)).any
    fun m => m.network = M.first.network

/-- The test of an interface decides whether it is in the network of the first one. -/
theorem valid_iff (M : Machine U) (n : String) : M.valid n = true ↔ M.SameNetwork n := by
  simp only [valid, Option.any_eq_true, Option.bind_eq_some_iff, lookup_eq_some, SameNetwork,
    decide_eq_true_eq]
  constructor
  · rintro ⟨m, ⟨addr, haddr, hm, hmac⟩, hnet⟩
    exact ⟨addr, haddr, m, hm, hmac, hnet⟩
  · rintro ⟨addr, haddr, m, hm, hmac, hnet⟩
    exact ⟨m, ⟨addr, haddr, hm, hmac⟩, hnet⟩

/-- There is one primary interface. -/
theorem primary_unique (M : Machine U) {n' : String} (h : M.IsPrimary n) (h' : M.IsPrimary n') :
    n = n' := by
  obtain ⟨addr, haddr, hmac⟩ := h
  obtain ⟨addr', haddr', hmac'⟩ := h'
  obtain rfl := lower_text_inj (hmac.trans hmac'.symm)
  exact M.mac_inj n n' addr haddr haddr'

/-- The primary interface is in its own network. -/
theorem sameNetwork_of_primary (M : Machine U) (h : M.IsPrimary n) : M.SameNetwork n := by
  obtain ⟨addr, haddr, hmac⟩ := h
  exact ⟨addr, haddr, M.first, List.mem_cons_self, hmac.symm, rfl⟩

/-- The names of a machine are those of its NICs. -/
theorem mem_names (M : Machine U) : n ∈ M.names ↔ ∃ addr, M.nics.lookup n = some addr := by
  rw [names, ← Option.isSome_iff_exists, AList.lookup_isSome]
  rfl

/-! ## The three functions -/

/-- The program goes on with the answer. -/
theorem eval_perform {α : Type} (M : Machine U) {orders orders' : List (List String)} {o : NICOp} {r : o.Res}
    (h : M.answer orders o = some (r, orders')) (f : o.Res → NICM α) :
    (NICs.perform o >>= f).eval M.answer orders = (f r).eval M.answer orders' := by
  rw [NICs.perform, Program.perform_bind, Program.eval_call, h]
  rfl

/-- The machine answers a lookup of one of its NICs with the NIC's address. -/
theorem answer_link (M : Machine U) {addr : HardwareAddr} (h : M.nics.lookup n = some addr)
    (orders : List (List String)) : M.answer orders (.linkByName n) = some (.ok addr, orders) := by
  simp [answer, h]

/-- The loop of `validateNICs` keeps the interfaces that pass the test. -/
theorem eval_collectValid (M : Machine U) (orders : List (List String)) (nics : List String)
    (h : ∀ n ∈ nics, n ∈ M.names) (acc : List String) :
    (collectValid U (metaNICMap U M.metaNICs) M.first.network acc nics).eval M.answer orders =
      some (acc ++ nics.filter M.valid, orders) := by
  induction nics generalizing acc with
  | nil => simp [collectValid]
  | cons n nics ih =>
    obtain ⟨addr, haddr⟩ := M.mem_names.mp (h n List.mem_cons_self)
    have ih' := ih fun n' hn' => h n' (List.mem_cons_of_mem _ hn')
    refine (M.eval_perform (M.answer_link haddr orders) _).trans ?_
    cases hlookup : (metaNICMap U M.metaNICs).lookup (toLower U addr.text) with
    | none => simp [ih', valid, haddr, hlookup]
    | some m =>
      by_cases hnet : m.network = M.first.network
      · simp [hnet, ih', valid, haddr, hlookup]
      · simp [hnet, ih', valid, haddr, hlookup]

/-- The loop of `getPrimaryNIC` finds the primary interface. -/
theorem eval_findPrimary (M : Machine U) (hp : M.IsPrimary p) (orders : List (List String))
    (nics : List String) (h : ∀ n ∈ nics, n ∈ M.names) (hmem : p ∈ nics) :
    (findPrimary U (toLower U M.first.mac) nics).eval M.answer orders = some (some p, orders) := by
  induction nics with
  | nil => cases hmem
  | cons n nics ih =>
    obtain ⟨addr, haddr⟩ := M.mem_names.mp (h n List.mem_cons_self)
    refine (M.eval_perform (M.answer_link haddr orders) _).trans ?_
    dsimp only
    split
    · rename_i hmac
      rw [M.primary_unique ⟨addr, haddr, hmac⟩ hp]
      rfl
    rename_i hmac
    refine ih (fun n' hn' => h n' (List.mem_cons_of_mem _ hn')) ?_
    rcases List.mem_cons.mp hmem with rfl | hmem
    · obtain ⟨addr', haddr', hmac'⟩ := hp
      rw [haddr] at haddr'
      cases haddr'
      exact absurd hmac' hmac
    · exact hmem

/-- The interfaces that are chosen: the only one, or those that pass the test, in sorted order. -/
def chosen (M : Machine U) : List String :=
  if M.names.length ≤ 1 then sortStrings M.names else (sortStrings M.names).filter M.valid

/-- Sorting forgets the order. -/
theorem sortStrings_of_perm {l l' : List String} (h : l.Perm l') : sortStrings l = sortStrings l' :=
  List.Perm.eq_of_pairwise (fun _ _ _ _ hle hge => le_antisymm hle hge) (List.pairwise_insertionSort _ l)
    (List.pairwise_insertionSort _ l')
    ((List.perm_insertionSort _ l).trans (h.trans (List.perm_insertionSort _ l').symm))

/-- Sorting keeps the members of a list. -/
theorem mem_sortStrings {l : List String} : n ∈ sortStrings l ↔ n ∈ l :=
  (List.perm_insertionSort _ l).mem_iff

/-- Whatever the order in which the machine lists its NICs, the selection returns the chosen ones. -/
theorem eval_getStandardNICs (M : Machine U) (h : order.Perm M.names) (orders : List (List String)) :
    (getStandardNICs U true).eval M.answer (order :: orders) = some (.ok M.chosen, orders) := by
  have hlen : (sortStrings M.names).length = M.names.length := (List.perm_insertionSort _ _).length_eq
  refine (M.eval_perform (o := .standardNICs) rfl _).trans ?_
  simp only [sortStrings_of_perm h, hlen, chosen]
  split
  · rfl
  refine (M.eval_perform (o := .networkInterfaces) rfl _).trans ?_
  have hloop := M.eval_collectValid orders (sortStrings M.names) (fun n hn => mem_sortStrings.mp hn) []
  simp only [metaNICs, List.tail_cons] at hloop ⊢
  rw [Program.eval_bind, hloop]
  rfl

/-- Whatever the order in which the machine lists its NICs, the primary NIC is found. -/
theorem eval_getPrimaryNIC (M : Machine U) (hp : M.IsPrimary p) (h : order.Perm M.names)
    (orders : List (List String)) :
    (getPrimaryNIC U true).eval M.answer (order :: orders) = some (.ok p, orders) := by
  have hfind := M.eval_findPrimary hp orders order (fun n hn => h.mem_iff.mp hn)
    (h.mem_iff.mpr (M.mem_names.mpr ⟨_, hp.choose_spec.1⟩))
  refine (M.eval_perform (o := .networkInterfaces) rfl _).trans ?_
  refine (M.eval_perform (o := .standardNICs) rfl _).trans ?_
  simp only [List.tail_cons]
  rw [Program.eval_bind, hfind]
  rfl

/-- The setting that counts, when these interfaces are chosen. -/
def disabled (M : Machine U) (disableMultiNIC : Bool) : Except String Bool :=
  if M.chosen.length ≤ 1 then .ok true else M.node.bind (multiNICDisabled · disableMultiNIC)

/-- The outcome, given the primary interface. -/
def outcome (M : Machine U) (primaryNic : String) (disableMultiNIC : Bool) : Except String String :=
  match M.disabled disableMultiNIC with
  | .error err => .error s!"Failed to check multi-NIC status: {err}"
  | .ok effective => .ok (buildLnetNetworkString M.chosen primaryNic effective)

/-- The check of the chosen interfaces ends with the setting that counts. -/
theorem eval_checkDisableMultiNIC (M : Machine U) (disableMultiNIC : Bool) (orders : List (List String)) :
    (checkDisableMultiNIC M.chosen disableMultiNIC).eval M.answer orders =
      some (M.disabled disableMultiNIC, orders) := by
  unfold checkDisableMultiNIC disabled
  split
  · rfl
  refine (M.eval_perform (o := .nodeLabels) rfl _).trans ?_
  cases M.node <;> rfl

/-- The primary interface is chosen. -/
theorem primary_mem_chosen (M : Machine U) (hp : M.IsPrimary p) : p ∈ M.chosen := by
  have hmem : p ∈ sortStrings M.names := mem_sortStrings.mpr (M.mem_names.mpr ⟨_, hp.choose_spec.1⟩)
  unfold chosen
  split
  · exact hmem
  · exact List.mem_filter.mpr ⟨hmem, (M.valid_iff p).mpr (M.sameNetwork_of_primary hp)⟩

/-- The network is the outcome of the machine, whatever the two orders in which it lists its NICs. -/
theorem eval_lnetNetwork (M : Machine U) (hp : M.IsPrimary p) (disableMultiNIC : Bool)
    {order' : List String} (h : order.Perm M.names) (h' : order'.Perm M.names) :
    (lnetNetwork U true disableMultiNIC).eval M.answer [order, order'] =
      some (M.outcome p disableMultiNIC, []) := by
  have hne : ¬M.chosen.length = 0 := (List.length_pos_of_mem (M.primary_mem_chosen hp)).ne'
  rw [lnetNetwork, Program.eval_bind, M.eval_getStandardNICs h]
  simp only [Option.bind_some, if_neg hne]
  rw [Program.eval_bind, M.eval_getPrimaryNIC hp h']
  simp only [Option.bind_some]
  rw [Program.eval_bind, M.eval_checkDisableMultiNIC, outcome]
  cases M.disabled disableMultiNIC <;> rfl

/-- The other interfaces that are chosen from several. -/
theorem mem_others (M : Machine U) (hmany : 2 ≤ M.names.length) :
    n ∈ M.chosen.filter (· ≠ p) ↔ n ≠ p ∧ M.SameNetwork n := by
  have hname : M.SameNetwork n → n ∈ M.names := fun ⟨addr, haddr, _⟩ => M.mem_names.mpr ⟨addr, haddr⟩
  rw [chosen, if_neg (by omega)]
  simp only [List.mem_filter, mem_sortStrings, valid_iff, decide_eq_true_eq]
  tauto

/-- The chosen interfaces are sorted and different. -/
theorem chosen_sorted (M : Machine U) : M.chosen.Pairwise (· < ·) := by
  have hsorted : (sortStrings M.names).Pairwise (· < ·) := by
    have hnodup : (sortStrings M.names).Nodup := (List.perm_insertionSort _ _).nodup_iff.mpr M.nics.nodupKeys
    exact (List.pairwise_insertionSort _ M.names).imp₂ (fun _ _ hle hne => lt_of_le_of_ne hle hne) hnodup
  unfold chosen
  split
  · exact hsorted
  · exact hsorted.filter _

/-- The text when more than one interface may be used. -/
theorem outcome_of_multiNIC (M : Machine U) (hp : M.IsPrimary p) {labels : StrMap}
    {disableMultiNIC : Bool} (hnode : M.node = .ok labels)
    (hlabels : multiNICDisabled labels disableMultiNIC = .ok false) :
    M.outcome p disableMultiNIC = .ok (tcp0 (",".intercalate (p :: M.chosen.filter (· ≠ p)))) := by
  have hmem := M.primary_mem_chosen hp
  unfold outcome disabled
  by_cases hfew : M.chosen.length ≤ 1
  · obtain ⟨n, hn⟩ := List.length_eq_one_iff.mp (le_antisymm hfew (List.length_pos_of_mem hmem))
    obtain rfl : p = n := by simpa [hn] using hmem
    simp [hn, build_eq, otherNics]
  · simp [hfew, hnode, Except.bind, hlabels, build_eq, otherNics]

end Machine

/-! ## Any order -/

/-- **The choice of network interfaces does not depend on their order.** On a machine whose interfaces have
different names and addresses, whose metadata lists no address twice and one of the interfaces first, the
installer comes to one outcome, whatever the orders in which the kernel enumerates the interfaces; it is a
text for the kernel modules unless the labels of the node cannot be read. When there are two interfaces or
more and more than one may be used, the text lists the primary interface first, and then, in sorted order
and each of them once, the other interfaces that the metadata lists with the network of the primary one.

SOURCE: pkg/network/network.go:154-267, pkg/kmod_installer/kmod_installer.go:324-336,
cmd/kmod_installer/main.go:74-112 -/
theorem lnetNetwork_of_any_order (M : Machine U) (disableMultiNIC : Bool) :
    ∃ outcome : Except String String,
      (∀ order order' : List String, order.Perm M.names → order'.Perm M.names →
        (lnetNetwork U true disableMultiNIC).eval M.answer [order, order'] = some (outcome, [])) ∧
      (∀ labels disabled, M.node = .ok labels → multiNICDisabled labels disableMultiNIC = .ok disabled →
        ∃ text, outcome = .ok text) ∧
      (2 ≤ M.names.length → M.MultiNIC disableMultiNIC → ∃ primaryNic others,
        outcome = .ok (tcp0 (",".intercalate (primaryNic :: others))) ∧ M.IsPrimary primaryNic ∧
        primaryNic ∉ others ∧ others.Pairwise (· < ·) ∧
        ∀ n, n ∈ others ↔ n ≠ primaryNic ∧ M.SameNetwork n) := by
  obtain ⟨p, hp⟩ : ∃ p, M.IsPrimary p := M.first_mem
  refine ⟨M.outcome p disableMultiNIC, fun order order' h h' => M.eval_lnetNetwork hp _ h h', ?_, ?_⟩
  · intro labels disabled hnode hlabels
    unfold Machine.outcome Machine.disabled
    split
    · rename_i err herr
      split at herr
      · cases herr
      · simp [hnode, Except.bind, hlabels] at herr
    · exact ⟨_, rfl⟩
  · rintro hmany ⟨labels, hnode, hlabels⟩
    refine ⟨p, M.chosen.filter (· ≠ p), ?_, hp, by simp, M.chosen_sorted.filter _, fun n =>
      M.mem_others hmany⟩
    exact M.outcome_of_multiNIC hp hnode hlabels

/-- A machine with three interfaces; the second is the primary one, the third in another network. -/
def threeNICs : Machine Unicode.asciiOnly where
  nics := ⟨[⟨"eth0", [0x42, 0x01, 0x0a, 0x80, 0, 2]⟩, ⟨"eth1", [0x42, 0x01, 0x0a, 0x80, 0, 3]⟩,
    ⟨"eth2", [0x42, 0x01, 0x0a, 0x81, 0, 2]⟩], by simp [List.NodupKeys, List.keys]⟩
  mac_inj n n' addr h h' := by
    rw [← Option.mem_def, AList.mem_lookup_iff] at h h'
    simp only [List.mem_cons, Sigma.mk.injEq, heq_eq_eq, List.not_mem_nil, or_false] at h h'
    rcases h with ⟨rfl, rfl⟩ | ⟨rfl, rfl⟩ | ⟨rfl, rfl⟩ <;> simp_all
  first := ⟨"projects/1/networks/default", "42:01:0A:80:00:03"⟩
  rest := [⟨"projects/1/networks/default", "42:01:0A:80:00:02"⟩, ⟨"projects/1/networks/other", "42:01:0a:81:00:02"⟩]
  macs_nodup := by decide +kernel
  first_mem := ⟨"eth1", [0x42, 0x01, 0x0a, 0x80, 0, 3], by decide, by decide +kernel⟩
  node := .ok ∅

/-- Whatever the orders, its installer takes the primary interface and the other one of its network. -/
theorem lnetNetwork_of_threeNICs :
    2 ≤ threeNICs.names.length ∧ threeNICs.MultiNIC false ∧
      ∀ order order' : List String, order.Perm threeNICs.names → order'.Perm threeNICs.names →
        (lnetNetwork Unicode.asciiOnly true false).eval threeNICs.answer [order, order'] =
          some (.ok "tcp0(eth1,eth0)", []) := by
  obtain ⟨outcome, hany, -, -⟩ := lnetNetwork_of_any_order threeNICs false
  have hone := hany threeNICs.names threeNICs.names (.refl _) (.refl _)
  have hplayed : (lnetNetwork Unicode.asciiOnly true false).eval threeNICs.answer
      [threeNICs.names, threeNICs.names] = some (.ok "tcp0(eth1,eth0)", []) := by decide +kernel
  rw [hplayed, Option.some.injEq, Prod.mk.injEq] at hone
  refine ⟨by decide, ⟨∅, rfl, by decide⟩, ?_⟩
  rw [hone.1]
  exact hany

end LustreCsi.Analysis.NICSelection
