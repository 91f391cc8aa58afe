import LustreCsi.Computation.Interleaving
import LustreCsi.Interface.UpcallMessages

/-!
# The upcall protocol

Any number of proxies on the host talk to any number of handlers in the container, each over a
connection of its own that may break at any character.

* `messages_framed`: however the stream is cut, the server decodes the whole request or nothing, and
  likewise the proxy the answer.
* `upcall_safe`: for every proxy at most one command is run, the one that `executeCommand` makes of
  its request; a proxy that ends reports a failure or has the outcome of this command.
* `upcall_transparent`: every outcome of the command can reach the proxy.

A handler knows its connection by having accepted it (`Handles`). Each thread leaves alone what the
others send and run (`Rely`).
-/

set_option autoImplicit false

namespace LustreCsi.Analysis.UpcallProtocol

open LustreCsi.Computation Model Model.Upcall Interface

variable {e : Event protocolSig} {s' : ProtocolState} {u c c₀ peer n : ℕ} {conn : Connection}
  {r : Option String} {resp : Response} {runs tr : List (Event upcallSig)} {res : RunResult}

/-! ## Messages on a stream -/

/-- **Messages are framed.** However a stream is cut, the server decodes of a request the request itself
or nothing: it does so exactly when all of the message has arrived and is within the limit. Of a
response, the proxy decodes the response or nothing: it does so exactly when its last brace has arrived.
SOURCE: pkg/upcall/server.go:95-117, cmd/lustre-host-proxy/main.go:67-119 -/
theorem messages_framed (errors : JsonErrors) :
    (∀ (req : Request) (text : List Char), text <+: req.marshal →
      (decode errors Request.ofJson (limitReader requestLimit text)).toOption =
        if text = req.marshal ∧ byteLength text ≤ requestLimit then some req else none) ∧
    ∀ (resp : Response) (text : List Char), IsGoInt resp.exitCode → text <+: resp.encode →
      (decode errors Response.ofJson text).toOption =
        if resp.toJson.print <+: text then some resp else none := by
  constructor
  · intro req text htext
    by_cases hall : text = req.marshal ∧ byteLength text ≤ requestLimit
    · rw [if_pos hall, limitReader_eq_self hall.2, hall.1, decode_marshal]
      rfl
    rw [if_neg hall]
    have hne : limitReader requestLimit text ≠ req.marshal := by
      intro heq
      have hsame : limitReader requestLimit text = text :=
        (limitReader_isPrefix _ _).eq_of_length_le (by rw [heq]; exact htext.length_le)
      refine hall ⟨hsame.symm.trans heq, ?_⟩
      by_contra hlimit
      exact limitReader_ne_self (by omega) hsame
    obtain ⟨err, herr⟩ := decode_request_cut errors ((limitReader_isPrefix _ _).trans htext) hne
    rw [herr]
    rfl
  · intro resp text hcode htext
    by_cases hall : resp.toJson.print <+: text
    · obtain ⟨rest, rfl⟩ := hall
      rw [if_pos (List.prefix_append _ _), decode_print errors (fits_response resp)
        (fun _ h => by cases h) (ofJson_toJson_response hcode)]
      rfl
    · rw [if_neg hall]
      cases hdecode : decode errors Response.ofJson text with
      | error err => rfl
      | ok resp' => exact absurd (decode_response_complete errors htext hdecode) hall

/-- The errors of a decoder. -/
def sampleErrors : JsonErrors := ⟨fun _ => "invalid character", fun _ => "cannot unmarshal"⟩

/-- A request that is cut short is an error, and a response without its newline is read. -/
theorem messages_framed_cut :
    (decode sampleErrors Request.ofJson (limitReader requestLimit
      (Request.marshal ⟨["lctl"], []⟩).dropLast)).toOption = none ∧
    (decode sampleErrors Response.ofJson (Response.encode ⟨-1, "", "killed", ""⟩).dropLast).toOption =
      some ⟨-1, "", "killed", ""⟩ := by
  constructor
  · rw [(messages_framed _).1 ⟨["lctl"], []⟩ _ (List.dropLast_prefix _)]
    decide
  · rw [(messages_framed _).2 ⟨-1, "", "killed", ""⟩ _ (by unfold IsGoInt; decide)
      (List.dropLast_prefix _)]
    exact if_pos (by unfold Response.encode; rw [List.dropLast_concat])

/-! ## The threads -/

/-- The threads: proxies with their invocations, and handlers. -/
def threadBody (server : Server) (errors : JsonErrors) (role : ℕ → Option Invocation) (t : ℕ) :
    ProtocolM (Option Exit) :=
  match role t with
  | some inv => do
    let exit ← proxyMain errors t inv
    return some exit
  | none => do
    acceptConnection server
    return none

/-- What a process that has failed can have as exit code: -1 stands for a signal. -/
def Sensible (res : RunResult) : Prop :=
  ∀ code, res.err = some (.exit code) → code = -1 ∨ 1 ≤ code ∧ code ≤ 255

/-- The steps of the protocol, where commands end as processes do. -/
def protocolStep (s : ProtocolState) (o : protocolSig.Op) (r : protocolSig.Res o) (s' : ProtocolState) : Prop :=
  s.step o r s' ∧ ∀ c command res, (⟨o, r⟩ : Event protocolSig) = ⟨.run c command, res⟩ → Sensible res

/-- The request that a proxy sends. -/
def requestOf (inv : Invocation) : Request := ⟨inv.args.getD [], inv.environ⟩

/-- A command that was run for the connection. -/
def runOf (conn : ℕ) : ℕ × Event protocolSig → Option (Event upcallSig)
  | (_, ⟨.run conn' command, res⟩) => if conn' = conn then some ⟨command, res⟩ else none
  | _ => none

/-- The commands that were run for the connection. -/
def runsFor (w : World protocolSig ProtocolState) (conn : ℕ) : List (Event upcallSig) :=
  w.trace.filterMap (runOf conn)

/-- The connection with the given number. -/
def connAt (w : World protocolSig ProtocolState) (conn : ℕ) : Option Connection :=
  w.state.connections[conn]?

/-- The thread has accepted the connection. -/
def Handles (w : World protocolSig ProtocolState) (t conn : ℕ) : Prop :=
  ((t, ⟨.accept, some conn⟩) : ℕ × Event protocolSig) ∈ w.trace

/-- A response that reports a failure, without output. -/
def Failure (resp : Response) : Prop := resp.exitCode = 1 ∧ resp.stdout = ""

section Contract

variable (server : Server) (role : ℕ → Option Invocation)

/-- The response is a failure, or what `executeCommand` answers to the request of the process. -/
def Answers (peer : ℕ) (runs : List (Event upcallSig)) (resp : Response) : Prop :=
  Failure resp ∨ ∃ inv, role peer = some inv ∧
    Yields (executeCommand server.unicode server.environ (requestOf inv)) runs resp

/-- What holds of a connection with the commands that were run for it. -/
structure Sound (conn : Connection) (runs : List (Event upcallSig)) : Prop where
  request : ∃ inv, role conn.peer = some inv ∧ inv.args.isSome = true ∧
    conn.toServer <+: (requestOf inv).marshal
  response : conn.toClient ≠ [] → ∃ resp, IsGoInt resp.exitCode ∧ conn.toClient <+: resp.encode ∧
    Answers server role conn.peer runs resp
  idle : conn.accepted = false → conn.toClient = [] ∧ runs = []
  ran : runs = [] ∨ ∃ inv resp, role conn.peer = some inv ∧
    Yields (executeCommand server.unicode server.environ (requestOf inv)) runs resp
  sensible : ∀ e ∈ runs, Sensible e.2

/-- What holds of all connections. -/
structure Invariant (w : World protocolSig ProtocolState) : Prop where
  peers : (w.state.connections.map (·.peer)).Nodup
  dialled : ∀ c conn, connAt w c = some conn → ∃ e, (conn.peer, e) ∈ w.trace
  sound : ∀ c conn, connAt w c = some conn → Sound server role conn (runsFor w c)
  absent : ∀ c, connAt w c = none → runsFor w c = []
  accepted : ∀ t c, Handles w t c → ∃ conn, connAt w c = some conn ∧ conn.accepted = true
  handler : ∀ t u c, Handles w t c → Handles w u c → t = u

/-- What a thread relies on: connections stay, and when an answer is under way no more commands are run;
nobody else dials or writes in its name; and on the connection that it has accepted nobody else answers
or runs commands. -/
structure Rely (t : ℕ) (w w' : World protocolSig ProtocolState) : Prop where
  grows : ∀ c conn, connAt w c = some conn → ∃ conn',
    connAt w' c = some conn' ∧ conn'.peer = conn.peer ∧
      (conn.toClient ≠ [] → conn'.toClient ≠ [] ∧ runsFor w' c = runsFor w c)
  own : ∀ c conn', connAt w' c = some conn' → conn'.peer = t →
    ∃ conn, connAt w c = some conn ∧ conn.peer = t ∧
      conn'.toServer = conn.toServer
  handled : ∀ c, Handles w t c → Handles w' t c ∧ runsFor w' c = runsFor w c ∧
    ∀ conn conn', connAt w c = some conn →
      connAt w' c = some conn' → conn'.toClient = conn.toClient

/-- A thread can rely on what does not change. -/
theorem Rely.refl (t : ℕ) (w : World protocolSig ProtocolState) : Rely t w w := by
  refine ⟨fun c conn h => ⟨conn, h, rfl, fun hne => ⟨hne, rfl⟩⟩, fun c conn h hpeer => ⟨conn, h, hpeer, rfl⟩,
    fun c hc => ⟨hc, rfl, fun conn conn' h h' => ?_⟩⟩
  rw [Option.some.inj (h.symm.trans h')]

/-- What a thread relies on is transitive. -/
theorem Rely.trans {t : ℕ} {w₁ w₂ w₃ : World protocolSig ProtocolState} (h : Rely t w₁ w₂)
    (h' : Rely t w₂ w₃) : Rely t w₁ w₃ where
  grows c conn hc := by
    obtain ⟨conn₂, hc₂, hpeer, hanswer⟩ := h.grows c conn hc
    obtain ⟨conn₃, hc₃, hpeer₃, hanswer₃⟩ := h'.grows c conn₂ hc₂
    refine ⟨conn₃, hc₃, hpeer₃.trans hpeer, fun hne => ?_⟩
    obtain ⟨hne₂, hruns₂⟩ := hanswer hne
    obtain ⟨hne₃, hruns₃⟩ := hanswer₃ hne₂
    exact ⟨hne₃, hruns₃.trans hruns₂⟩
  own c conn hc hpeer := by
    obtain ⟨conn₂, hc₂, hpeer₂, htext⟩ := h'.own c conn hc hpeer
    obtain ⟨conn₁, hc₁, hpeer₁, htext₁⟩ := h.own c conn₂ hc₂ hpeer₂
    exact ⟨conn₁, hc₁, hpeer₁, htext.trans htext₁⟩
  handled c hc := by
    obtain ⟨hc₂, hruns₂, htext₂⟩ := h.handled c hc
    obtain ⟨hc₃, hruns₃, htext₃⟩ := h'.handled c hc₂
    refine ⟨hc₃, hruns₃.trans hruns₂, fun conn conn' hconn hconn' => ?_⟩
    obtain ⟨conn₂, hconn₂, -⟩ := h.grows c conn hconn
    exact (htext₃ conn₂ conn' hconn₂ hconn').trans (htext₂ conn conn₂ hconn hconn₂)

/-- The contract: a thread guarantees what the others rely on. -/
def contract : Contract protocolSig ProtocolState where
  inv := Invariant server role
  rely := Rely
  guar t w _ w' := ∀ u, u ≠ t → Rely u w w'
  rely_refl := Rely.refl
  rely_trans _ _ _ _ := Rely.trans

/-- What each thread guarantees is what the others rely on. -/
theorem contract_compatible : (contract server role).Compatible (fun _ _ => False) (fun _ => True) where
  guar_rely _ _ _ _ hne _ _ _ _ _ _ h := h _ hne.symm
  env_inv _ _ _ h := h.elim
  env_rely _ _ _ _ _ h := h.elim

/-! ## What a step changes -/

variable {server role} {t : ℕ} {w w' : World protocolSig ProtocolState}

/-- The runs for a connection after an event. -/
theorem runsFor_after (w : World protocolSig ProtocolState) (t : ℕ) (e : Event protocolSig)
    (s' : ProtocolState) (c : ℕ) :
    runsFor (w.after t e s') c = (runOf c (t, e)).toList ++ runsFor w c := by
  simp only [runsFor, World.after_trace, List.filterMap_cons]
  cases runOf c (t, e) <;> rfl

/-- Who handles a connection after an event. -/
theorem handles_after :
    Handles (w.after t e s') u c ↔ (u = t ∧ e = ⟨.accept, some c⟩) ∨ Handles w u c := by
  simp only [Handles, World.after_trace, List.mem_cons, Prod.mk.injEq, eq_comm]

/-- One connection is changed. -/
structure Update (t : ℕ) (w w' : World protocolSig ProtocolState) (c₀ : ℕ) (conn conn' : Connection) :
    Prop where
  old : connAt w c₀ = some conn
  conns : ∀ c, connAt w' c = if c = c₀ then some conn' else connAt w c
  peer : conn'.peer = conn.peer
  runs : ∀ c, c ≠ c₀ → runsFor w' c = runsFor w c
  accepted : conn.accepted = true → conn'.accepted = true
  trace : w.trace ⊆ w'.trace
  handles : ∀ u c, Handles w' u c → Handles w u c ∨
    (u = t ∧ c = c₀ ∧ conn.accepted = false ∧ conn'.accepted = true)

/-- An update of one connection keeps the invariant when the connection stays sound. -/
theorem Update.invariant {conn' : Connection} (h : Update t w w' c₀ conn conn')
    (hinv : Invariant server role w) (hsound : Sound server role conn' (runsFor w' c₀)) :
    Invariant server role w' where
  peers := by
    have hsame : w'.state.connections.map (·.peer) = w.state.connections.map (·.peer) := by
      refine List.ext_getElem? fun c => ?_
      have hc := h.conns c
      simp only [connAt] at hc
      rw [List.getElem?_map, List.getElem?_map, hc]
      split
      · rename_i heq
        rw [heq, show w.state.connections[c₀]? = some conn from h.old]
        exact congrArg some h.peer
      · rfl
    rw [hsame]
    exact hinv.peers
  dialled c conn₁ hc := by
    rw [h.conns] at hc
    split at hc
    · obtain rfl := Option.some.inj hc
      obtain ⟨e, he⟩ := hinv.dialled c₀ conn h.old
      exact ⟨e, h.peer ▸ h.trace he⟩
    obtain ⟨e, he⟩ := hinv.dialled c conn₁ hc
    exact ⟨e, h.trace he⟩
  sound c conn₁ hc := by
    rw [h.conns] at hc
    split at hc
    · rename_i heq
      obtain rfl := Option.some.inj hc
      exact heq ▸ hsound
    rename_i hne
    rw [h.runs c hne]
    exact hinv.sound c conn₁ hc
  absent c hc := by
    rw [h.conns] at hc
    split at hc
    · cases hc
    rename_i hne
    rw [h.runs c hne]
    exact hinv.absent c hc
  accepted u c hc := by
    rw [h.conns]
    split
    · rename_i heq
      refine ⟨conn', rfl, ?_⟩
      rcases h.handles u c hc with hold | ⟨-, -, -, hnew⟩
      · obtain ⟨conn₁, hconn₁, hacc⟩ := hinv.accepted u c hold
        rw [heq, h.old] at hconn₁
        exact h.accepted (Option.some.inj hconn₁ ▸ hacc)
      · exact hnew
    · rename_i hne
      rcases h.handles u c hc with hold | ⟨-, heq, -⟩
      · exact hinv.accepted u c hold
      · exact absurd heq hne
  handler u u' c hu hu' := by
    -- A connection that has just been accepted had no handler before.
    have hfirst : ∀ v, Handles w v c → c = c₀ → conn.accepted = true := fun v hv heq => by
      obtain ⟨conn₁, hconn₁, hacc⟩ := hinv.accepted v c hv
      rw [heq, h.old] at hconn₁
      exact Option.some.inj hconn₁ ▸ hacc
    rcases h.handles u c hu with hold | ⟨rfl, heq, hfree, -⟩
    · rcases h.handles u' c hu' with hold' | ⟨rfl, heq, hfree, -⟩
      · exact hinv.handler u u' c hold hold'
      · simp [hfirst u hold heq] at hfree
    rcases h.handles u' c hu' with hold' | ⟨rfl, -⟩
    · simp [hfirst u' hold' heq] at hfree
    · rfl

/-- An update of one's own side of a connection is one the others can rely on. -/
theorem Update.rely {conn' : Connection} (h : Update t w w' c₀ conn conn')
    (hinv : Invariant server role w) (hserver : conn'.toServer = conn.toServer ∨ conn.peer = t)
    (hclient : (conn'.toClient = conn.toClient ∧ runsFor w' c₀ = runsFor w c₀) ∨ Handles w t c₀)
    (hset : conn.toClient ≠ [] → conn'.toClient ≠ [] ∧ runsFor w' c₀ = runsFor w c₀) (hu : u ≠ t) :
    Rely u w w' where
  grows c conn₁ hc := by
    rw [h.conns]
    split
    · rename_i heq
      rw [heq, h.old] at hc
      obtain rfl := Option.some.inj hc
      exact ⟨conn', rfl, h.peer, heq ▸ hset⟩
    · rename_i hne
      exact ⟨conn₁, hc, rfl, fun hanswer => ⟨hanswer, h.runs c hne⟩⟩
  own c conn₁ hc hpeer := by
    rw [h.conns] at hc
    split at hc
    · rename_i heq
      obtain rfl := Option.some.inj hc
      have hpeer' : conn.peer = u := h.peer ▸ hpeer
      refine ⟨conn, heq ▸ h.old, hpeer', hserver.resolve_right fun ht => hu (hpeer'.symm.trans ht)⟩
    · exact ⟨conn₁, hc, hpeer, rfl⟩
  handled c hc := by
    refine ⟨h.trace hc, ?_⟩
    by_cases heq : c = c₀
    · subst heq
      obtain ⟨hsame, hruns⟩ := hclient.resolve_right fun ht => hu (hinv.handler u t c hc ht)
      refine ⟨hruns, fun conn₁ conn₂ hc₁ hc₂ => ?_⟩
      rw [h.conns, if_pos rfl] at hc₂
      rw [h.old] at hc₁
      rw [← Option.some.inj hc₁, ← Option.some.inj hc₂, hsame]
    · refine ⟨h.runs c heq, fun conn₁ conn₂ hc₁ hc₂ => ?_⟩
      rw [h.conns, if_neg heq] at hc₂
      rw [Option.some.inj (hc₁.symm.trans hc₂)]

/-- The connections after one of them has been changed. -/
theorem connAt_modify (hc : connAt w c₀ = some conn) (f : Connection → Connection)
    (e : Event protocolSig) (c : ℕ) :
    connAt (w.after t e (w.state.modify c₀ f)) c = if c = c₀ then some (f conn) else connAt w c := by
  simp only [connAt, World.after_state, ProtocolState.modify] at hc ⊢
  rw [List.getElem?_modify]
  by_cases heq : c = c₀
  · subst heq
    simp [hc]
  · simp [heq, Ne.symm heq]

/-- An event that is neither a command nor the acceptance of a connection. -/
def Quiet (e : Event protocolSig) : Prop :=
  (∀ t c, runOf c (t, e) = none) ∧ ∀ c, e ≠ ⟨.accept, some c⟩

/-- A quiet event that changes no connection. -/
theorem quiet_step (he : Quiet e) (hinv : Invariant server role w) :
    (∀ u, u ≠ t → Rely u w (w.after t e w.state)) ∧ Invariant server role (w.after t e w.state) := by
  have hruns : ∀ c, runsFor (w.after t e w.state) c = runsFor w c := fun c => by
    rw [runsFor_after, he.1]
    rfl
  have hhandles : ∀ u c, Handles (w.after t e w.state) u c ↔ Handles w u c := fun u c => by
    rw [handles_after]
    exact ⟨fun h => h.resolve_left fun hnew => he.2 c hnew.2, .inr⟩
  refine ⟨fun u _ => ⟨fun c conn hc => ⟨conn, hc, rfl, fun hne => ⟨hne, hruns c⟩⟩,
    fun c conn hc hpeer => ⟨conn, hc, hpeer, rfl⟩, fun c hc => ⟨(hhandles u c).mpr hc, hruns c, ?_⟩⟩, ?_⟩
  · intro conn conn' hconn hconn'
    rw [Option.some.inj (hconn.symm.trans hconn')]
  · refine ⟨hinv.peers, fun c conn hc => ?_, fun c conn hc => ?_, fun c hc => ?_, fun u c hc => ?_,
      fun u u' c hu hu' => ?_⟩
    · obtain ⟨e', he'⟩ := hinv.dialled c conn hc
      exact ⟨e', List.mem_cons_of_mem _ he'⟩
    · rw [hruns]
      exact hinv.sound c conn hc
    · rw [hruns]
      exact hinv.absent c hc
    · exact hinv.accepted u c ((hhandles u c).mp hc)
    · exact hinv.handler u u' c ((hhandles u c).mp hu) ((hhandles u' c).mp hu')

/-- A quiet event that changes a connection. -/
theorem update_of_quiet (he : Quiet e) (hc : connAt w c₀ = some conn) {f : Connection → Connection}
    (hpeer : (f conn).peer = conn.peer) (haccepted : (f conn).accepted = conn.accepted) :
    Update t w (w.after t e (w.state.modify c₀ f)) c₀ conn (f conn) ∧
      ∀ c, runsFor (w.after t e (w.state.modify c₀ f)) c = runsFor w c := by
  have hruns : ∀ c, runsFor (w.after t e (w.state.modify c₀ f)) c = runsFor w c := fun c => by
    rw [runsFor_after, he.1]
    rfl
  exact ⟨⟨hc, connAt_modify hc f e, hpeer, fun c _ => hruns c, fun h => haccepted.trans h,
    List.subset_cons_self _ _, fun u c h => .inl ((handles_after.mp h).resolve_left
      fun hnew => he.2 c hnew.2)⟩, hruns⟩

/-- The connections after a new one has been made. -/
theorem connAt_append (e : Event protocolSig) (conn : Connection) (c : ℕ) :
    connAt (w.after t e ⟨w.state.connections ++ [conn]⟩) c =
      if c = w.state.connections.length then some conn else connAt w c := by
  simp only [connAt, World.after_state]
  rw [List.getElem?_append]
  split
  · rename_i hlt
    rw [if_neg (by omega)]
  rename_i hle
  by_cases heq : c = w.state.connections.length
  · simp [heq]
  rw [if_neg heq, List.getElem?_eq_none (l := w.state.connections) (by omega)]
  exact List.getElem?_eq_none (by rw [List.length_singleton]; omega)

/-! ## The proxy -/

/-- The process has no connection yet. -/
def Free (t : ℕ) (w : World protocolSig ProtocolState) : Prop :=
  ∀ c conn, connAt w c = some conn → conn.peer ≠ t

/-- The process has a connection over which it has sent the text. -/
def Dialled (t c : ℕ) (text : List Char) (w : World protocolSig ProtocolState) : Prop :=
  ∃ conn, connAt w c = some conn ∧ conn.peer = t ∧ conn.toServer = text

/-- That a proxy has no connection is stable. -/
theorem stable_free : Stable t (contract server role) (Free t) := by
  intro w w' h hrely _ c conn hc hpeer
  obtain ⟨conn₀, hc₀, hpeer₀, -⟩ := Rely.own hrely c conn hc hpeer
  exact h c conn₀ hc₀ hpeer₀

/-- That a proxy has dialled is stable. -/
theorem stable_dialled (c : ℕ) (text : List Char) :
    Stable t (contract server role) (Dialled t c text) := by
  rintro w w' ⟨conn, hc, hpeer, htext⟩ hrely _
  obtain ⟨conn', hc', hpeer', -⟩ := Rely.grows hrely c conn hc
  obtain ⟨conn₀, hc₀, -, htext₀⟩ := Rely.own hrely c conn' hc' (hpeer'.trans hpeer)
  rw [hc] at hc₀
  obtain rfl := Option.some.inj hc₀
  exact ⟨conn', hc', hpeer'.trans hpeer, htext₀.trans htext⟩

/-- A dial keeps the invariant, and gives the proxy a connection when it succeeds. -/
theorem dial_step {inv : Invocation} (hrole : role t = some inv) (hargs : inv.args.isSome = true)
    {path : String} {r : Except String ℕ} (hfree : Free t w) (hinv : Invariant server role w)
    (hs : protocolStep w.state (.dial t path) r s') :
    (∀ u, u ≠ t → Rely u w (w.after t ⟨.dial t path, r⟩ s')) ∧
      Invariant server role (w.after t ⟨.dial t path, r⟩ s') ∧
      ((∃ c, r = .ok c ∧ Dialled t c [] (w.after t ⟨.dial t path, r⟩ s')) ∨
        (∃ err, r = .error err) ∧ Free t (w.after t ⟨.dial t path, r⟩ s')) := by
  obtain ⟨⟨choice, hexec⟩, -⟩ := hs
  have hquiet : Quiet ⟨.dial t path, r⟩ := ⟨fun _ _ => rfl, fun c h => by cases h⟩
  cases choice with
  | ok =>
    obtain ⟨rfl, rfl⟩ : r = .ok w.state.connections.length ∧
        s' = ⟨w.state.connections ++ [⟨t, [], [], false⟩]⟩ := by
      simpa [ProtocolState.exec, eq_comm] using hexec
    have hruns : ∀ s' c, runsFor (w.after t ⟨.dial t path, .ok w.state.connections.length⟩ s') c =
        runsFor w c := fun s' c => by
      rw [runsFor_after, hquiet.1]
      rfl
    have hhandles : ∀ s' u c, Handles (w.after t ⟨.dial t path, .ok w.state.connections.length⟩ s') u c ↔
        Handles w u c := fun s' u c => by
      rw [handles_after]
      exact ⟨fun h => h.resolve_left fun hnew => hquiet.2 c hnew.2, .inr⟩
    have hnone : connAt w w.state.connections.length = none := List.getElem?_eq_none (le_refl _)
    have hkeeps : ∀ {c conn}, connAt w c = some conn → c ≠ w.state.connections.length := by
      rintro c conn hc rfl
      rw [hnone] at hc
      cases hc
    refine ⟨fun u hu => ⟨fun c conn hc => ?_, fun c conn hc hpeer => ?_, fun c hc => ?_⟩,
      ⟨?_, fun c conn hc => ?_, fun c conn hc => ?_, fun c hc => ?_, fun u c hc => ?_, fun u u' c h h' => ?_⟩,
      .inl ⟨_, rfl, _, (connAt_append _ _ _).trans (if_pos rfl), rfl, rfl⟩⟩
    · exact ⟨conn, by rw [connAt_append, if_neg (hkeeps hc), hc], rfl, fun hne => ⟨hne, hruns _ c⟩⟩
    · rw [connAt_append] at hc
      split at hc
      · obtain rfl := Option.some.inj hc
        exact absurd hpeer.symm hu
      · exact ⟨conn, hc, hpeer, rfl⟩
    · refine ⟨(hhandles _ u c).mpr hc, hruns _ c, fun conn conn' hconn hconn' => ?_⟩
      rw [connAt_append, if_neg (hkeeps hconn), hconn] at hconn'
      rw [Option.some.inj hconn']
    · simp only [World.after_state, List.map_append, List.map_cons, List.map_nil]
      refine List.nodup_append.mpr ⟨hinv.peers, List.nodup_singleton _, ?_⟩
      intro p hp q hq heq
      obtain ⟨conn, hconn, rfl⟩ := List.mem_map.mp hp
      obtain ⟨c, hc⟩ := List.mem_iff_getElem?.mp hconn
      exact hfree c conn hc (heq.trans (List.mem_singleton.mp hq))
    · rw [connAt_append] at hc
      split at hc
      · obtain rfl := Option.some.inj hc
        exact ⟨_, List.mem_cons_self⟩
      obtain ⟨e, he⟩ := hinv.dialled c conn hc
      exact ⟨e, List.mem_cons_of_mem _ he⟩
    · rw [hruns]
      rw [connAt_append] at hc
      split at hc
      · rename_i heq
        obtain rfl := Option.some.inj hc
        have hnil : runsFor w c = [] := hinv.absent c (heq ▸ hnone)
        exact ⟨⟨inv, hrole, hargs, List.nil_prefix⟩, fun h => absurd rfl h, fun _ => ⟨rfl, hnil⟩, .inl hnil,
          fun e he => by simp [hnil] at he⟩
      · exact hinv.sound c conn hc
    · rw [hruns]
      rw [connAt_append] at hc
      split at hc
      · cases hc
      · exact hinv.absent c hc
    · obtain ⟨conn, hconn, haccepted⟩ := hinv.accepted u c ((hhandles _ u c).mp hc)
      exact ⟨conn, by rw [connAt_append, if_neg (hkeeps hconn), hconn], haccepted⟩
    · exact hinv.handler u u' c ((hhandles _ u c).mp h) ((hhandles _ u' c).mp h')
  | fail err =>
    obtain ⟨rfl, rfl⟩ : r = .error err ∧ s' = w.state := by
      simpa [ProtocolState.exec, eq_comm] using hexec
    obtain ⟨hrely, hinv'⟩ := quiet_step (t := t) hquiet hinv
    exact ⟨hrely, hinv', .inr ⟨⟨err, rfl⟩, hfree⟩⟩
  | _ => cases hexec

/-- What a write does: it succeeds, or some part of the text goes through. -/
theorem send_cases {s : ProtocolState} {text : List Char} (h : s.step (.sendRequest c text) r s') :
    ∃ part, part <+: text ∧ (r = none → part = text) ∧
      s' = s.modify c fun conn => { conn with toServer := conn.toServer ++ part } := by
  obtain ⟨choice, hexec⟩ := h
  cases choice with
  | ok =>
    obtain ⟨rfl, rfl⟩ : r = none ∧
        s' = s.modify c fun conn => { conn with toServer := conn.toServer ++ text } := by
      simpa [ProtocolState.exec, eq_comm] using hexec
    exact ⟨text, List.prefix_rfl, fun _ => rfl, rfl⟩
  | sent n err =>
    obtain ⟨rfl, rfl⟩ : r = some err ∧
        s' = s.modify c fun conn => { conn with toServer := conn.toServer ++ text.take n } := by
      simpa [ProtocolState.exec, eq_comm] using hexec
    exact ⟨text.take n, List.take_prefix n text, fun h => by (cases h), rfl⟩
  | _ => cases hexec

/-- Sending the request keeps the invariant, and some of it is on the connection. -/
theorem sendRequest_step {inv : Invocation} (hrole : role t = some inv)
    (hdialled : Dialled t c [] w) (hinv : Invariant server role w)
    (hs : protocolStep w.state (.sendRequest c (requestOf inv).marshal) r s') :
    (∀ u, u ≠ t → Rely u w (w.after t ⟨.sendRequest c (requestOf inv).marshal, r⟩ s')) ∧
      Invariant server role (w.after t ⟨.sendRequest c (requestOf inv).marshal, r⟩ s') ∧
      ∃ text, Dialled t c text (w.after t ⟨.sendRequest c (requestOf inv).marshal, r⟩ s') := by
  obtain ⟨conn, hc, hpeer, hempty⟩ := hdialled
  obtain ⟨part, hpart, -, rfl⟩ := send_cases hs.1
  have hquiet : Quiet ⟨.sendRequest c (requestOf inv).marshal, r⟩ := ⟨fun _ _ => rfl, fun c h => by cases h⟩
  obtain ⟨hupdate, hruns⟩ := update_of_quiet (t := t) hquiet hc
    (f := fun conn => { conn with toServer := conn.toServer ++ part }) rfl rfl
  obtain ⟨hrequest, hresponse, hidle, hcommands, hsensible⟩ := hinv.sound c conn hc
  refine ⟨fun u hu => hupdate.rely hinv (.inr hpeer) (.inl ⟨rfl, hruns c⟩) (fun hne => ⟨hne, hruns c⟩) hu,
    hupdate.invariant hinv ?_, _, _, (connAt_modify hc _ _ c).trans (if_pos rfl), hpeer, rfl⟩
  rw [hruns]
  obtain ⟨inv', hrole', hargs, -⟩ := hrequest
  rw [hpeer, hrole] at hrole'
  obtain rfl := Option.some.inj hrole'
  refine ⟨⟨inv, hpeer ▸ hrole, hargs, ?_⟩, hresponse, hidle, hcommands, hsensible⟩
  simpa [hempty] using hpart

/-- What the proxy reads is a part of an answer. -/
theorem readResponse_step {text : List Char} {sent : List Char} (hdialled : Dialled t c sent w)
    (hinv : Invariant server role w) (hs : protocolStep w.state (.readResponse c) text s') :
    (∀ u, u ≠ t → Rely u w (w.after t ⟨.readResponse c, text⟩ s')) ∧
      Invariant server role (w.after t ⟨.readResponse c, text⟩ s') ∧
      ∃ conn, connAt (w.after t ⟨.readResponse c, text⟩ s') c = some conn ∧ conn.peer = t ∧
        text <+: conn.toClient := by
  obtain ⟨conn, hc, hpeer, -⟩ := hdialled
  obtain ⟨⟨choice, hexec⟩, -⟩ := hs
  cases choice with
  | arrived n =>
    have hconn : w.state.connections[c]? = some conn := hc
    simp only [ProtocolState.exec, hconn, Option.map_some, Option.some.injEq, Prod.mk.injEq] at hexec
    obtain ⟨rfl, rfl⟩ := hexec
    have hquiet : Quiet ⟨.readResponse c, conn.toClient.take n⟩ := ⟨fun _ _ => rfl, fun c h => by cases h⟩
    obtain ⟨hrely, hinv'⟩ := quiet_step (t := t) hquiet hinv
    exact ⟨hrely, hinv', conn, hc, hpeer, List.take_prefix n _⟩
  | _ => cases hexec

/-- How a proxy may have ended: it reports a failure, or it has the answer to its request. -/
def Ended (server : Server) (role : ℕ → Option Invocation) (t : ℕ) (exit : Exit)
    (w : World protocolSig ProtocolState) : Prop :=
  (exit.status = 1 ∧ exit.stdout = "") ∨ ∃ c conn inv resp written, connAt w c = some conn ∧
    conn.peer = t ∧ conn.toClient ≠ [] ∧ role t = some inv ∧
    Yields (executeCommand server.unicode server.environ (requestOf inv)) (runsFor w c) resp ∧
    exit = resp.exit written

/-- How a proxy has ended is stable. -/
theorem stable_ended (exit : Exit) : Stable t (contract server role) (Ended server role t exit) := by
  rintro w w' (hfailure | ⟨c, conn, inv, resp, written, hc, hpeer, hne, hrole, hyields, hexit⟩) hrely _
  · exact .inl hfailure
  · obtain ⟨conn', hc', hpeer', hanswer⟩ := Rely.grows hrely c conn hc
    obtain ⟨hne', hruns⟩ := hanswer hne
    exact .inr ⟨c, conn', inv, resp, written, hc', hpeer'.trans hpeer, hne', hrole, hruns ▸ hyields, hexit⟩

/-- What the proxy makes of what it has read. -/
theorem ended_of_decode (errors : JsonErrors) {text : List Char} (hinv : Invariant server role w)
    (hc : connAt w c = some conn) (hpeer : conn.peer = t) (htext : text <+: conn.toClient)
    (hdecode : decode errors Response.ofJson text = .ok resp) (written : String) :
    Ended server role t (resp.exit written) w := by
  have hne : conn.toClient ≠ [] := by
    intro hnil
    rw [hnil, List.prefix_nil] at htext
    rw [htext] at hdecode
    cases hdecode
  obtain ⟨resp', hcode, hencode, hanswers⟩ := (hinv.sound c conn hc).response hne
  obtain rfl := decode_response_part errors hcode (htext.trans hencode) hdecode
  rcases hanswers with ⟨hone, hout⟩ | ⟨inv, hrole, hyields⟩
  · exact .inl ⟨by simp [Response.exit, hone, exitStatus], hout⟩
  · exact .inr ⟨c, conn, inv, resp, written, hc, hpeer, hne, hpeer ▸ hrole, hyields, rfl⟩

/-- The attempts to dial are safe, and give a connection when one succeeds. -/
theorem safe_dialAttempts {inv : Invocation} (hrole : role t = some inv) (hargs : inv.args.isSome = true)
    (path : String) (left : ℕ) (err : String) (hfree : Free t w) :
    Safe protocolStep t (contract server role)
      (fun res w => ∀ c, res.2 = .ok c → Dialled t c [] w) (dialAttempts t path left err) w := by
  -- Every attempt but the last one finds the process without a connection.
  induction left generalizing err w with
  | zero => exact .ret stable_free hfree fun _ _ _ c h => by cases h
  | succ left ih =>
    refine .perform stable_free hfree fun w₁ r s' hfree₁ hinv hs => ?_
    obtain ⟨hguar, hinv', hpost⟩ := dial_step hrole hargs hfree₁ hinv hs
    refine ⟨hguar, hinv', ?_⟩
    rcases hpost with ⟨c, rfl, hdialled⟩ | ⟨⟨err', rfl⟩, hfree₂⟩
    · refine .ret (stable_dialled c []) hdialled fun w₂ _ h c' heq => ?_
      cases heq
      exact h
    refine .bind (ih err' hfree₂) fun res w₂ _ hres => ?_
    refine .ret (P := fun w => ∀ c, res.2 = .ok c → Dialled t c [] w) ?_ hres fun _ _ h => h
    exact fun w w' h hrely hinv c heq => stable_dialled c [] w w' (h c heq) hrely hinv

/-- The exchange of a request for a response is safe. -/
theorem safe_exchange (errors : JsonErrors) {inv : Invocation} (hrole : role t = some inv) (c : ℕ)
    (written : String) (hdialled : Dialled t c [] w) :
    Safe protocolStep t (contract server role) (Ended server role t)
      (exchange errors c (requestOf inv) written) w := by
  have hfailure : ∀ (text : String) w, Safe protocolStep t (contract server role) (Ended server role t)
      (.ret ⟨1, "", text⟩) w := fun text w =>
    .ret (stable_ended _) (.inl ⟨rfl, rfl⟩) fun _ _ h => h
  refine .perform (stable_dialled c []) hdialled fun w₁ r s' hdialled₁ hinv hs => ?_
  obtain ⟨hguar, hinv', text, hdialled₂⟩ := sendRequest_step hrole hdialled₁ hinv hs
  refine ⟨hguar, hinv', ?_⟩
  cases r with
  | some err => exact hfailure _ _
  | none =>
    refine .perform (stable_dialled c text) hdialled₂ fun w₂ r s' hdialled₃ hinv hs => ?_
    obtain ⟨⟨choice, hexec⟩, -⟩ := hs
    obtain rfl : s' = w₂.state := by
      cases choice <;> simp_all [ProtocolState.exec]
    obtain ⟨hrely, hinv'⟩ := quiet_step (t := t) (e := ⟨.closeWrite c, r⟩)
      ⟨fun _ _ => rfl, fun c h => by cases h⟩ hinv
    refine ⟨hrely, hinv', ?_⟩
    refine .perform (stable_dialled c text) hdialled₃ fun w₃ answer s' hdialled₄ hinv hs => ?_
    obtain ⟨hguar, hinv', conn, hc, hpeer, hanswer⟩ := readResponse_step hdialled₄ hinv hs
    refine ⟨hguar, hinv', ?_⟩
    split
    · exact hfailure _ _
    rename_i resp hdecode
    exact .ret (stable_ended _) (ended_of_decode errors hinv' hc hpeer hanswer hdecode written)
      fun _ _ h => h

/-- A proxy is safe. -/
theorem safe_proxyMain (errors : JsonErrors) {inv : Invocation} (hrole : role t = some inv)
    (hfree : Free t w) :
    Safe protocolStep t (contract server role) (Ended server role t) (proxyMain errors t inv) w := by
  unfold proxyMain
  cases hargs : inv.args with
  | none => exact .ret (stable_ended _) (.inl ⟨rfl, rfl⟩) fun _ _ h => h
  | some args =>
    refine .bind (safe_dialAttempts hrole (by rw [hargs]; rfl) _ _ _ hfree) ?_
    rintro ⟨written, res⟩ w₁ _ hres
    cases res with
    | error err => exact .ret (stable_ended _) (.inl ⟨rfl, rfl⟩) fun _ _ h => h
    | ok c =>
      have hreq : requestOf inv = ⟨args, inv.environ⟩ := by simp [requestOf, hargs]
      exact hreq ▸ safe_exchange errors hrole c written (hres c rfl)

/-! ## The handler -/

/-- The thread has accepted the connection of the process and run the commands, and has not answered. -/
def Working (t c peer : ℕ) (runs : List (Event upcallSig)) (w : World protocolSig ProtocolState) : Prop :=
  Handles w t c ∧ runsFor w c = runs ∧ ∃ conn, connAt w c = some conn ∧ conn.peer = peer ∧ conn.toClient = []

/-- What a handler works on is stable. -/
theorem stable_working (c peer : ℕ) (runs : List (Event upcallSig)) :
    Stable t (contract server role) (Working t c peer runs) := by
  rintro w w' ⟨hhandles, hruns, conn, hc, hpeer, hempty⟩ hrely _
  obtain ⟨hhandles', hruns', htext⟩ := Rely.handled hrely c hhandles
  obtain ⟨conn', hc', hpeer', -⟩ := Rely.grows hrely c conn hc
  exact ⟨hhandles', hruns'.trans hruns, conn', hc', hpeer'.trans hpeer, (htext conn conn' hc hc').trans hempty⟩

/-- Accepting a connection keeps the invariant, and gives the handler work. -/
theorem accept_step {r : Option ℕ} (hinv : Invariant server role w)
    (hs : protocolStep w.state .accept r s') :
    (∀ u, u ≠ t → Rely u w (w.after t ⟨.accept, r⟩ s')) ∧
      Invariant server role (w.after t ⟨.accept, r⟩ s') ∧
      ∀ c, r = some c → ∃ peer, Working t c peer [] (w.after t ⟨.accept, r⟩ s') := by
  obtain ⟨⟨choice, hexec⟩, -⟩ := hs
  cases choice with
  | taken c =>
    cases hconn : w.state.connections[c]? with
    | none => simp [ProtocolState.exec, hconn] at hexec
    | some conn =>
      simp only [ProtocolState.exec, hconn, Option.ite_none_left_eq_some, Option.some.injEq,
        Prod.mk.injEq, Bool.not_eq_true] at hexec
      obtain ⟨hfree, rfl, rfl⟩ := hexec
      have hc : connAt w c = some conn := hconn
      have hruns : ∀ s' c', runsFor (w.after t ⟨.accept, some c⟩ s') c' = runsFor w c' := fun s' c' =>
        runsFor_after w t _ s' c'
      have hupdate : Update t w (w.after t ⟨.accept, some c⟩
          (w.state.modify c fun conn => { conn with accepted := true })) c conn
          { conn with accepted := true } := by
        refine ⟨hc, connAt_modify hc _ _, rfl, fun c' _ => hruns _ c', fun _ => rfl,
          List.subset_cons_self _ _, fun u c' h => ?_⟩
        rcases handles_after.mp h with ⟨hu, heq⟩ | hold
        · cases heq
          exact .inr ⟨hu, rfl, hfree, rfl⟩
        · exact .inl hold
      obtain ⟨hrequest, -, hidle, hcommands, hsensible⟩ := hinv.sound c conn hc
      obtain ⟨hempty, hnil⟩ := hidle hfree
      refine ⟨fun u hu => hupdate.rely hinv (.inl rfl) (.inl ⟨rfl, hruns _ c⟩)
        (fun hne => ⟨hne, hruns _ c⟩) hu, hupdate.invariant hinv ?_, ?_⟩
      · rw [hruns]
        exact ⟨hrequest, fun h => absurd hempty h, fun h => by (cases h), hcommands, hsensible⟩
      · rintro c' heq
        obtain rfl := Option.some.inj heq
        exact ⟨conn.peer, handles_after.mpr (.inl ⟨rfl, rfl⟩), (hruns _ c).trans hnil, _,
          (connAt_modify hc _ _ c).trans (if_pos rfl), rfl, hempty⟩
  | fail err =>
    obtain ⟨rfl, rfl⟩ : r = none ∧ s' = w.state := by
      simpa [ProtocolState.exec, eq_comm] using hexec
    obtain ⟨hrely, hinv'⟩ := quiet_step (t := t) (e := ⟨.accept, none⟩)
      ⟨fun _ _ => rfl, fun c h => by cases h⟩ hinv
    exact ⟨hrely, hinv', fun c h => by cases h⟩
  | _ => cases hexec

/-- What the handler reads is a part of the request of the process. -/
theorem readRequest_step {text : List Char} (hworking : Working t c peer runs w)
    (hinv : Invariant server role w) (hs : protocolStep w.state (.readRequest c) text s') :
    (∀ u, u ≠ t → Rely u w (w.after t ⟨.readRequest c, text⟩ s')) ∧
      Invariant server role (w.after t ⟨.readRequest c, text⟩ s') ∧
      Working t c peer runs (w.after t ⟨.readRequest c, text⟩ s') ∧
      ∃ inv, role peer = some inv ∧ text <+: (requestOf inv).marshal := by
  obtain ⟨hhandles, hruns, conn, hc, hpeer, hempty⟩ := hworking
  obtain ⟨⟨choice, hexec⟩, -⟩ := hs
  cases choice with
  | arrived n =>
    have hconn : w.state.connections[c]? = some conn := hc
    simp only [ProtocolState.exec, hconn, Option.map_some, Option.some.injEq, Prod.mk.injEq] at hexec
    obtain ⟨rfl, rfl⟩ := hexec
    obtain ⟨hrely, hinv'⟩ := quiet_step (t := t) (e := ⟨.readRequest c, conn.toServer.take n⟩)
      ⟨fun _ _ => rfl, fun c h => by cases h⟩ hinv
    obtain ⟨inv, hrole, -, hsent⟩ := (hinv.sound c conn hc).request
    exact ⟨hrely, hinv', ⟨handles_after.mpr (.inr hhandles), (runsFor_after w t _ _ c).trans hruns,
      conn, hc, hpeer, hempty⟩, inv, hpeer ▸ hrole, (List.take_prefix n _).trans hsent⟩
  | _ => cases hexec

/-- A connection with a handler has been accepted. -/
theorem accepted_of_handles (hinv : Invariant server role w) (hhandles : Handles w t c)
    (hc : connAt w c = some conn) : conn.accepted = true := by
  obtain ⟨conn', hc', h⟩ := hinv.accepted t c hhandles
  rw [hc] at hc'
  exact Option.some.inj hc' ▸ h

/-- A handler may run the command that the request calls for, once. -/
theorem run_step {command : Command} {inv : Invocation} (hrole : role peer = some inv)
    (hyields : Yields (executeCommand server.unicode server.environ (requestOf inv)) [⟨command, res⟩] resp)
    (hworking : Working t c peer [] w) (hinv : Invariant server role w)
    (hs : protocolStep w.state (.run c command) res s') :
    (∀ u, u ≠ t → Rely u w (w.after t ⟨.run c command, res⟩ s')) ∧
      Invariant server role (w.after t ⟨.run c command, res⟩ s') ∧
      Working t c peer [⟨command, res⟩] (w.after t ⟨.run c command, res⟩ s') := by
  obtain ⟨hhandles, hruns, conn, hc, hpeer, hempty⟩ := hworking
  obtain ⟨⟨choice, hexec⟩, hsensible⟩ := hs
  obtain rfl : s' = w.state := by
    cases choice <;> simp_all [ProtocolState.exec]
  have hnew : runsFor (w.after t ⟨.run c command, res⟩ w.state) c = [⟨command, res⟩] := by
    rw [runsFor_after, hruns]
    simp [runOf]
  have hupdate : Update t w (w.after t ⟨.run c command, res⟩ w.state) c conn conn := by
    refine ⟨hc, fun c' => ?_, rfl, fun c' hne => ?_, fun h => h, List.subset_cons_self _ _, fun u c' h => ?_⟩
    · split
      · rename_i heq
        exact heq ▸ hc
      · rfl
    · rw [runsFor_after]
      simp [runOf, Ne.symm hne]
    · exact .inl ((handles_after.mp h).resolve_left fun hev => by cases hev.2)
  obtain ⟨hrequest, -, hidle, -, -⟩ := hinv.sound c conn hc
  have haccepted : conn.accepted = true := accepted_of_handles hinv hhandles hc
  refine ⟨fun u hu => hupdate.rely hinv (.inl rfl) (.inr hhandles) (fun hne => absurd hempty hne) hu,
    hupdate.invariant hinv ?_, handles_after.mpr (.inr hhandles), hnew, conn, hc, hpeer, hempty⟩
  rw [hnew]
  refine ⟨hrequest, fun hne => absurd hempty hne, fun h => ?_, .inr ⟨inv, resp, hpeer ▸ hrole, hyields⟩, ?_⟩
  · rw [haccepted] at h
    cases h
  · intro e he
    obtain rfl := List.mem_singleton.mp he
    exact hsensible c command res rfl

/-- A handler may send the answer. -/
theorem sendResponse_step (hcode : IsGoInt resp.exitCode)
    (hanswers : Answers server role peer runs resp) (hworking : Working t c peer runs w)
    (hinv : Invariant server role w) (hs : protocolStep w.state (.sendResponse c resp.encode) r s') :
    (∀ u, u ≠ t → Rely u w (w.after t ⟨.sendResponse c resp.encode, r⟩ s')) ∧
      Invariant server role (w.after t ⟨.sendResponse c resp.encode, r⟩ s') := by
  obtain ⟨hhandles, hcommands, conn, hc, hpeer, hempty⟩ := hworking
  obtain ⟨part, hpart, rfl⟩ : ∃ part, part <+: resp.encode ∧
      s' = w.state.modify c fun conn => { conn with toClient := conn.toClient ++ part } := by
    obtain ⟨⟨choice, hexec⟩, -⟩ := hs
    cases choice with
    | ok =>
      refine ⟨resp.encode, List.prefix_rfl, ?_⟩
      simpa [ProtocolState.exec, eq_comm] using (congrArg (Option.map Prod.snd) hexec)
    | sent n err =>
      refine ⟨resp.encode.take n, List.take_prefix n _, ?_⟩
      simpa [ProtocolState.exec, eq_comm] using (congrArg (Option.map Prod.snd) hexec)
    | _ => cases hexec
  obtain ⟨hupdate, hruns⟩ := update_of_quiet (t := t) (e := ⟨.sendResponse c resp.encode, r⟩)
    ⟨fun _ _ => rfl, fun c h => by cases h⟩ hc
    (f := fun conn => { conn with toClient := conn.toClient ++ part }) rfl rfl
  obtain ⟨hrequest, -, hidle, hran, hsensible⟩ := hinv.sound c conn hc
  have haccepted : conn.accepted = true := accepted_of_handles hinv hhandles hc
  refine ⟨fun u hu => hupdate.rely hinv (.inl rfl) (.inr hhandles) (fun hne => absurd hempty hne) hu,
    hupdate.invariant hinv ?_⟩
  rw [hruns]
  refine ⟨hrequest, fun _ => ⟨resp, hcode, ?_, ?_⟩, fun h => ?_, hran, hsensible⟩
  · simpa [hempty] using hpart
  · rw [hcommands]
    exact hpeer ▸ hanswers
  · rw [show conn.accepted = false from h] at haccepted
    cases haccepted

/-- What `executeCommand` answers once its command has ended. -/
def answerOf (res : RunResult) : Response :=
  match res.err with
  | some (.exit code) => { exitCode := code, stdout := res.stdout, stderr := res.stderr }
  | some (.other text) => { exitCode := 1, error := text, stdout := res.stdout, stderr := res.stderr }
  | none => { exitCode := 0, stdout := res.stdout, stderr := res.stderr }

/-- A request is rejected, or one command is run and answered with what comes out of it. -/
theorem executeCommand_cases (U : Unicode) (environ : List String) (req : Request) :
    (∃ resp, executeCommand U environ req = .ret resp ∧ Failure resp) ∨
      ∃ command : Command, executeCommand U environ req = .call command fun res => .ret (answerOf res) := by
  unfold executeCommand
  cases req.args with
  | nil => exact .inl ⟨_, rfl, rfl, rfl⟩
  | cons binary args =>
    simp only
    split
    · exact .inl ⟨_, rfl, rfl, rfl⟩
    refine .inr ⟨_, congrArg _ (funext fun res => ?_)⟩
    rcases herr : res.err with _ | (code | text) <;> simp [answerOf, herr]

/-- The outcomes of `executeCommand`. -/
theorem yields_executeCommand {U : Unicode} {environ : List String} {req : Request}
    (h : Yields (executeCommand U environ req) tr resp) :
    (tr = [] ∧ Failure resp) ∨ ∃ command res, tr = [⟨command, res⟩] ∧ resp = answerOf res := by
  rcases executeCommand_cases U environ req with ⟨resp', heq, hfailure⟩ | ⟨command, heq⟩
  · rw [heq] at h
    obtain ⟨rfl, rfl, -⟩ := h
    exact .inl ⟨rfl, hfailure⟩
  rw [heq] at h
  obtain ⟨res, _, tr', -, rfl, rfl, rfl, -⟩ := h
  exact .inr ⟨command, res, rfl, rfl⟩

/-- The exit code of an answer is a machine integer. -/
theorem isGoInt_answerOf (h : Sensible res) : IsGoInt (answerOf res).exitCode := by
  unfold answerOf IsGoInt
  split
  · rename_i code herr
    rcases h code herr with hcode | hcode <;> simp only <;> omega
  · simp only
    omega
  · simp only
    omega

/-- The proxy reports success only for a command that has succeeded, and with its output. -/
theorem exit_answerOf {written : String} (h : Sensible res)
    (hstatus : ((answerOf res).exit written).status = 0) :
    res.err = none ∧ ((answerOf res).exit written).stdout = res.stdout ∧
      ((answerOf res).exit written).stderr = written ++ res.stderr := by
  unfold answerOf at hstatus ⊢
  split at hstatus
  · rename_i code herr
    simp only [Response.exit, exitStatus] at hstatus
    rcases h code herr with hcode | hcode <;> omega
  · cases hstatus
  · rename_i herr
    simp [Response.exit, herr]

/-- A handler that answers within the contract is safe. -/
theorem safe_sendResponse (hcode : IsGoInt resp.exitCode)
    (hanswers : Answers server role peer runs resp) (hworking : Working t c peer runs w) :
    Safe protocolStep t (contract server role) (fun _ _ => True) (sendResponse c resp) w := by
  refine .perform (stable_working c peer runs) hworking fun w₁ r s' hworking₁ hinv hs => ?_
  obtain ⟨hguar, hinv'⟩ := sendResponse_step hcode hanswers hworking₁ hinv hs
  exact ⟨hguar, hinv', fun _ _ _ => trivial⟩

/-- The handler of a connection is safe. -/
theorem safe_handleConnection (hworking : Working t c peer [] w) :
    Safe protocolStep t (contract server role) (fun _ _ => True) (handleConnection server c) w := by
  have hone : IsGoInt 1 := by unfold IsGoInt; omega
  refine .perform (stable_working c peer []) hworking fun w₁ text s' hworking₁ hinv hs => ?_
  obtain ⟨hguar, hinv', hworking₂, inv, hrole, htext⟩ := readRequest_step hworking₁ hinv hs
  refine ⟨hguar, hinv', ?_⟩
  split
  · exact safe_sendResponse hone (.inl ⟨rfl, rfl⟩) hworking₂
  rename_i req hdecode
  obtain rfl : req = requestOf inv := by
    by_cases hall : limitReader requestLimit text = (requestOf inv).marshal
    · rw [hall, decode_marshal] at hdecode
      exact (Except.ok.inj hdecode).symm
    obtain ⟨err, herr⟩ := decode_request_cut server.errors ((limitReader_isPrefix _ _).trans htext) hall
    rw [herr] at hdecode
    cases hdecode
  rcases executeCommand_cases server.unicode server.environ (requestOf inv) with
    ⟨resp, heq, hfailure⟩ | ⟨command, heq⟩
  · rw [heq]
    exact safe_sendResponse (hfailure.1 ▸ hone) (.inl hfailure) hworking₂
  rw [heq]
  refine .perform (stable_working c peer []) hworking₂ fun w₃ res s' hworking₃ hinv hs => ?_
  have hyields : Yields (executeCommand server.unicode server.environ (requestOf inv))
      [⟨command, res⟩] (answerOf res) := by
    rw [heq]
    exact ⟨res, (), [], trivial, rfl, rfl, rfl, rfl⟩
  obtain ⟨hguar, hinv', hworking₄⟩ := run_step hrole hyields hworking₃ hinv hs
  exact ⟨hguar, hinv', safe_sendResponse (isGoInt_answerOf (hs.2 c command res rfl))
    (.inr ⟨inv, hrole, hyields⟩) hworking₄⟩

/-- Accepting and handling a connection is safe. -/
theorem safe_acceptConnection :
    Safe protocolStep t (contract server role) (fun _ _ => True) (acceptConnection server) w := by
  refine .perform .true trivial fun w₁ r s' _ hinv hs => ?_
  obtain ⟨hguar, hinv', hworking⟩ := accept_step hinv hs
  refine ⟨hguar, hinv', ?_⟩
  cases r with
  | none => exact fun _ _ _ => trivial
  | some c =>
    obtain ⟨peer, hworking⟩ := hworking c rfl
    exact safe_handleConnection hworking

/-- Every thread is safe. -/
theorem safe_threadBody (errors : JsonErrors) (hfree : Free t w) :
    Safe protocolStep t (contract server role) (fun a w => ∀ exit, a = some exit → Ended server role t exit w)
      (threadBody server errors role t) w := by
  unfold threadBody
  cases hrole : role t with
  | none => exact .bind safe_acceptConnection fun _ w₁ _ _ => fun w' _ _ exit h => by cases h
  | some inv =>
    refine .bind (safe_proxyMain errors hrole hfree) fun exit w₁ _ hended => ?_
    refine .ret (stable_ended exit) hended fun w₂ _ h exit' heq => ?_
    exact Option.some.inj heq ▸ h

/-- The contract holds along every run. -/
theorem poolSafe_of_run {errors : JsonErrors} {c : Config protocolSig ProtocolState (Option Exit)}
    (hrun : Run protocolStep (fun _ _ => False) (threadBody server errors role) (.start ⟨[]⟩) c) :
    PoolSafe protocolStep (contract server role)
      (fun t a w => ∀ exit, a = some exit → Ended server role t exit w) (fun _ => True) c := by
  refine PoolSafe.run_from_start (contract_compatible server role) (fun t w _ hinv hnew => ?_)
    (fun _ => trivial) ?_ hrun
  · refine safe_threadBody errors fun c conn hc hpeer => ?_
    obtain ⟨e, he⟩ := Invariant.dialled hinv c conn hc
    exact hnew e (hpeer ▸ he)
  · have habsent : ∀ c, connAt ⟨⟨[]⟩, []⟩ c = none := fun _ => rfl
    refine ⟨List.nodup_nil, fun c conn hc => ?_, fun c conn hc => ?_, fun _ _ => rfl, fun t c h => ?_,
      fun t u c h => ?_⟩
    · rw [habsent] at hc
      cases hc
    · rw [habsent] at hc
      cases hc
    · cases h
    · cases h

end Contract

/-! ## A process and its commands -/

/-- A command that was run for a connection of the process. -/
def runBy (w : World protocolSig ProtocolState) (t : ℕ) : ℕ × Event protocolSig → Option (Event upcallSig)
  | (_, ⟨.run conn command, res⟩) =>
    if (connAt w conn).map (·.peer) = some t then some ⟨command, res⟩ else none
  | _ => none

/-- The commands that were run for the process, over whatever connection. -/
def runsBy (w : World protocolSig ProtocolState) (t : ℕ) : List (Event upcallSig) :=
  w.trace.filterMap (runBy w t)

section Runs

variable {server : Server} {role : ℕ → Option Invocation} {w : World protocolSig ProtocolState}

/-- A process has one connection, over which all its commands are run. -/
theorem runsBy_eq_runsFor (hinv : Invariant server role w) (hn : connAt w n = some conn) :
    runsBy w conn.peer = runsFor w n := by
  have hpeer : ∀ n', (connAt w n').map (·.peer) = some conn.peer ↔ n' = n := by
    intro n'
    constructor
    · intro h
      have hmap : ∀ i, (w.state.connections.map (·.peer))[i]? = (connAt w i).map (·.peer) :=
        fun i => List.getElem?_map
      refine ((List.getElem?_inj ?_ hinv.peers).mp ?_).symm
      · rw [List.length_map]
        exact (List.getElem?_eq_some_iff.mp hn).1
      · rw [hmap, hmap, hn, h]
        rfl
    · rintro rfl
      rw [hn]
      rfl
  refine List.filterMap_congr fun te _ => ?_
  rcases te with ⟨u, o, r⟩
  cases o with
  | run n' command => simp only [runBy, runOf, hpeer]
  | _ => rfl

/-- No command is run for a process without connection. -/
theorem runsBy_eq_nil {t : ℕ} (hfree : Free t w) : runsBy w t = [] := by
  refine List.filterMap_eq_nil_iff.mpr fun te _ => ?_
  rcases te with ⟨u, o, r⟩
  cases o with
  | run n command =>
    refine if_neg fun h => ?_
    obtain ⟨conn, hn, hpeer⟩ := Option.map_eq_some_iff.mp h
    exact hfree n conn hn hpeer
  | _ => rfl

/-- A process has a connection or none. -/
theorem free_or_dialled (t : ℕ) (w : World protocolSig ProtocolState) :
    Free t w ∨ ∃ n conn, connAt w n = some conn ∧ conn.peer = t := by
  by_cases h : ∃ n conn, connAt w n = some conn ∧ conn.peer = t
  · exact .inr h
  · exact .inl fun n conn hn hpeer => h ⟨n, conn, hn, hpeer⟩

/-! ## An exchange that goes through -/

/-- What a proxy does once it is connected, as long as all goes well. -/
theorem exchange_eq (errors : JsonErrors) (n : ℕ) (req : Request) (written : String) :
    ∃ k₁ k, exchange errors n req written = .call (.sendRequest n req.marshal) k₁ ∧
      k₁ none = .call (.closeWrite n) (fun _ => .call (.readResponse n) k) ∧
      ∀ resp : Response, IsGoInt resp.exitCode → k resp.encode = .ret (resp.exit written) := by
  refine ⟨_, _, rfl, rfl, fun resp hcode => ?_⟩
  simp only [Program.bind, decode_encode errors hcode, Program.pure_eq]

/-- A proxy gets to where it waits for its answer. -/
theorem advance_proxyMain (errors : JsonErrors) {t : ℕ} {inv : Invocation} (hargs : inv.args.isSome = true)
    (w : World protocolSig ProtocolState) :
    ∃ w' k, Advance protocolStep t w (proxyMain errors t inv) w'
        (.call (.readResponse w.state.connections.length) k) ∧
      (∀ resp : Response, IsGoInt resp.exitCode → k resp.encode = .ret (resp.exit "")) ∧
      connAt w' w.state.connections.length = some ⟨t, (requestOf inv).marshal, [], false⟩ ∧
      ∀ n, runsFor w' n = runsFor w n := by
  obtain ⟨args, hargs⟩ := Option.isSome_iff_exists.mp hargs
  have hreq : requestOf inv = ⟨args, inv.environ⟩ := by simp [requestOf, hargs]
  -- The first attempt to connect succeeds, and all of the request goes through.
  obtain ⟨n, hn⟩ : ∃ n, n = w.state.connections.length := ⟨_, rfl⟩
  obtain ⟨w₁, hw₁⟩ : ∃ w₁, w₁ = w.after t ⟨.dial t inv.socketPath, .ok n⟩
      ⟨w.state.connections ++ [⟨t, [], [], false⟩]⟩ := ⟨_, rfl⟩
  obtain ⟨w₂, hw₂⟩ : ∃ w₂, w₂ = w₁.after t ⟨.sendRequest n (requestOf inv).marshal, none⟩
      (w₁.state.modify n fun c => { c with toServer := c.toServer ++ (requestOf inv).marshal }) := ⟨_, rfl⟩
  have hc₁ : connAt w₁ n = some ⟨t, [], [], false⟩ := by
    rw [hw₁, connAt_append, if_pos hn]
  have hc₂ : connAt w₂ n = some ⟨t, (requestOf inv).marshal, [], false⟩ := by
    rw [hw₂, connAt_modify hc₁, if_pos rfl]
    rfl
  have hdial : protocolStep w.state (.dial t inv.socketPath) (.ok n)
      ⟨w.state.connections ++ [⟨t, [], [], false⟩]⟩ :=
    ⟨⟨.ok, by rw [hn]; rfl⟩, fun _ _ _ h => by cases h⟩
  have hsend : protocolStep w₁.state (.sendRequest n (requestOf inv).marshal) none
      (w₁.state.modify n fun c => { c with toServer := c.toServer ++ (requestOf inv).marshal }) :=
    ⟨⟨.ok, rfl⟩, fun _ _ _ h => by cases h⟩
  have hclose : protocolStep w₂.state (.closeWrite n) () w₂.state :=
    ⟨⟨.ok, rfl⟩, fun _ _ _ h => by cases h⟩
  have hruns : ∀ n', runsFor (w₂.after t ⟨.closeWrite n, ()⟩ w₂.state) n' = runsFor w n' := fun n' => by
    rw [runsFor_after, hw₂, runsFor_after, hw₁, runsFor_after]
    rfl
  obtain ⟨k₁, k, hexchange, hk₁, hk⟩ := exchange_eq errors n (requestOf inv) ""
  rw [← hn]
  refine ⟨w₂.after t ⟨.closeWrite n, ()⟩ w₂.state, k, ?_, hk, hc₂, hruns⟩
  unfold proxyMain
  rw [hargs]
  refine .call hdial ?_
  show Advance protocolStep t _ (exchange errors n ⟨args, inv.environ⟩ "") _ _
  rw [← hw₁, ← hreq, hexchange]
  refine .call hsend ?_
  rw [← hw₂, hk₁]
  exact .call hclose (.refl _ _)

/-- A handler sends all of its answer. -/
theorem advance_sendResponse (resp : Response) (hn : connAt w n = some conn) :
    ∃ w', Advance protocolStep u w (sendResponse n resp) w' (.ret ()) ∧
      connAt w' n = some { conn with toClient := conn.toClient ++ resp.encode } ∧
      runsFor w' n = runsFor w n :=
  ⟨w.after u ⟨.sendResponse n resp.encode, none⟩
      (w.state.modify n fun c => { c with toClient := c.toClient ++ resp.encode }),
    .call ⟨⟨.ok, rfl⟩, fun _ _ _ h => by cases h⟩ (.refl _ _),
    (connAt_modify hn _ _ n).trans (if_pos rfl), runsFor_after w u _ _ n⟩

/-- A handler that gets the whole request answers it. -/
theorem advance_acceptConnection {t : ℕ} {req : Request}
    (hlimit : byteLength req.marshal ≤ requestLimit)
    (hyields : Yields (executeCommand server.unicode server.environ req) tr resp)
    (hsensible : ∀ e ∈ tr, Sensible e.2) (hn : connAt w n = some ⟨t, req.marshal, [], false⟩)
    (hnil : runsFor w n = []) :
    ∃ w' conn, Advance protocolStep u w (acceptConnection server) w' (.ret ()) ∧
      connAt w' n = some conn ∧ conn.peer = t ∧ conn.toClient = resp.encode ∧ runsFor w' n = tr := by
  have hstate : w.state.connections[n]? = some ⟨t, req.marshal, [], false⟩ := hn
  obtain ⟨w₁, hw₁⟩ : ∃ w₁, w₁ = w.after u ⟨.accept, some n⟩
      (w.state.modify n fun c => { c with accepted := true }) := ⟨_, rfl⟩
  have hc₁ : connAt w₁ n = some ⟨t, req.marshal, [], true⟩ := by
    rw [hw₁, connAt_modify hn, if_pos rfl]
  have hstate₁ : w₁.state.connections[n]? = some ⟨t, req.marshal, [], true⟩ := hc₁
  obtain ⟨w₂, hw₂⟩ : ∃ w₂, w₂ = w₁.after u ⟨.readRequest n, req.marshal⟩ w₁.state := ⟨_, rfl⟩
  have hc₂ : connAt w₂ n = some ⟨t, req.marshal, [], true⟩ := by
    rw [hw₂]
    exact hc₁
  have hruns₂ : runsFor w₂ n = [] := by
    rw [hw₂, runsFor_after, hw₁, runsFor_after, hnil]
    rfl
  have haccept : protocolStep w.state .accept (some n)
      (w.state.modify n fun c => { c with accepted := true }) := by
    refine ⟨⟨.taken n, ?_⟩, fun _ _ _ h => by cases h⟩
    simp [ProtocolState.exec, hstate]
  have hread : protocolStep w₁.state (.readRequest n) req.marshal w₁.state := by
    refine ⟨⟨.arrived req.marshal.length, ?_⟩, fun _ _ _ h => by cases h⟩
    simp [ProtocolState.exec, hstate₁]
  -- What is left is to run the command, if there is one, and to answer.
  have hrest : Advance protocolStep u w (acceptConnection server) w₂
      ((executeCommand server.unicode server.environ req).translate
        (fun command => perform (.run n command)) >>= fun resp => sendResponse n resp) := by
    refine .call haccept ?_
    rw [← hw₁]
    refine .call hread ?_
    rw [← hw₂]
    simp only [Program.bind, limitReader_eq_self hlimit, decode_marshal]
    exact .refl _ _
  rcases executeCommand_cases server.unicode server.environ req with ⟨resp', heq, -⟩ | ⟨command, heq⟩
  · rw [heq] at hyields hrest
    obtain ⟨rfl, rfl, -⟩ := hyields
    obtain ⟨w₃, hsend, hc₃, hruns₃⟩ := advance_sendResponse (u := u) resp hc₂
    exact ⟨w₃, _, hrest.trans hsend, hc₃, rfl, rfl, hruns₃.trans hruns₂⟩
  · rw [heq] at hyields hrest
    obtain ⟨res, _, tr', -, rfl, rfl, rfl, -⟩ := hyields
    have hrun : protocolStep w₂.state (.run n command) res w₂.state := by
      refine ⟨⟨.ended res, rfl⟩, fun _ _ _ h => ?_⟩
      cases h
      exact hsensible _ (List.mem_singleton_self _)
    have hc₃ : connAt (w₂.after u ⟨.run n command, res⟩ w₂.state) n = _ := hc₂
    obtain ⟨w₄, hsend, hc₄, hruns₄⟩ := advance_sendResponse (u := u) (answerOf res) hc₃
    refine ⟨w₄, _, hrest.trans (.call hrun hsend), hc₄, rfl, rfl, hruns₄.trans ?_⟩
    rw [runsFor_after, hruns₂]
    simp [runOf]

/-- A proxy and a handler that start now can complete the exchange. -/
theorem exchange_run {errors : JsonErrors} {c : Config protocolSig ProtocolState (Option Exit)} {t u n : ℕ}
    {inv : Invocation} (ht : c.slot t = .idle) (hu : c.slot u = .idle) (hrole : role t = some inv)
    (hhandler : role u = none) (hargs : inv.args.isSome = true)
    (hlimit : byteLength (requestOf inv).marshal ≤ requestLimit) {tr : List (Event upcallSig)}
    {resp : Response}
    (hyields : Yields (executeCommand server.unicode server.environ (requestOf inv)) tr resp)
    (hsensible : ∀ e ∈ tr, Sensible e.2) (hn : n = c.world.state.connections.length)
    (hnil : runsFor c.world n = []) :
    ∃ c' conn, Run protocolStep (fun _ _ => False) (threadBody server errors role) c c' ∧
      c'.slot t = .done (some (resp.exit "")) ∧ connAt c'.world n = some conn ∧ conn.peer = t ∧
      runsFor c'.world n = tr := by
  subst hn
  have hne : u ≠ t := by
    rintro rfl
    rw [hrole] at hhandler
    cases hhandler
  have hcode : IsGoInt resp.exitCode := by
    rcases yields_executeCommand hyields with ⟨-, hone, -⟩ | ⟨command, res, rfl, rfl⟩
    · rw [hone]
      unfold IsGoInt
      omega
    · exact isGoInt_answerOf (hsensible _ (List.mem_singleton_self _))
  -- The proxy connects and sends its request.
  obtain ⟨w₁, k, hsend, hanswer, hc₁, hruns₁⟩ := advance_proxyMain (t := t) errors hargs c.world
  have hproxy : threadBody server errors role t = (proxyMain errors t inv >>= fun exit => .ret (some exit)) := by
    unfold threadBody
    rw [hrole]
    rfl
  have hrun₁ : Run protocolStep (fun _ _ => False) (threadBody server errors role) c _ :=
    (hproxy ▸ hsend.bind fun exit => .ret (some exit)).run_spawn ht
  -- A handler takes the connection and answers.
  obtain ⟨w₂, conn, hhandle, hc₂, hpeer, hclient, hruns₂⟩ :=
    advance_acceptConnection (u := u) hlimit hyields hsensible hc₁ ((hruns₁ _).trans hnil)
  have hserver : threadBody server errors role u = (acceptConnection server >>= fun _ => .ret none) := by
    unfold threadBody
    rw [hhandler]
    rfl
  have hrun₂ := hrun₁.trans ((hserver ▸ hhandle.bind fun _ => .ret none).run_spawn
    ((Function.update_of_ne hne _ _).trans hu))
  -- The answer arrives.
  have hread : protocolStep w₂.state (.readResponse c.world.state.connections.length) resp.encode w₂.state := by
    have hstate : w₂.state.connections[c.world.state.connections.length]? = some conn := hc₂
    refine ⟨⟨.arrived resp.encode.length, ?_⟩, fun _ _ _ h => by cases h⟩
    simp [ProtocolState.exec, hstate, hclient]
  have hlast : Advance protocolStep t w₂ (.call (.readResponse c.world.state.connections.length)
      fun text => (k text).bind fun exit => .ret (some exit))
      (w₂.after t ⟨.readResponse c.world.state.connections.length, resp.encode⟩ w₂.state)
      (.ret (some (resp.exit ""))) := by
    refine .call hread ?_
    rw [hanswer resp hcode]
    exact .refl _ _
  have hrun₃ := hrun₂.trans (hlast.run_finish ((Function.update_of_ne hne.symm _ _).trans
    (Function.update_self ..)))
  exact ⟨_, conn, hrun₃, Function.update_self .., hc₂, hpeer, hruns₂⟩

end Runs

/-! ## An upcall of the kernel -/

def sampleServer : Server := ⟨.asciiOnly, [], sampleErrors⟩

/-- The kernel asks for a security context. -/
def sampleUpcall : Invocation := ⟨"/usr/sbin/l_gssiam_upcall", ["17"], ["PATH=/bin"]⟩

/-- Two proxies; all others are handlers. -/
def sampleRole (t : ℕ) : Option Invocation := if t = 0 ∨ t = 2 then some sampleUpcall else none

/-- What the command makes of it. -/
def sampleRuns : List (Event upcallSig) :=
  [⟨⟨iamUpcallPath, ["17"], ["PATH=/bin"]⟩, ⟨"key", "", none⟩⟩]

/-- The runs of the sample end with its key. -/
theorem yields_sample : Yields (executeCommand .asciiOnly [] (requestOf sampleUpcall)) sampleRuns
    ⟨0, "key", "", ""⟩ :=
  ⟨_, (), [], trivial, rfl, rfl, rfl, rfl⟩

/-- The runs of the sample have sensible results. -/
theorem sensible_sample : ∀ e ∈ sampleRuns, Sensible e.2 := by
  intro e he code hcode
  obtain rfl := List.mem_singleton.mp he
  cases hcode

/-- The request of the sample is within the limit. -/
theorem sample_limit : byteLength (requestOf sampleUpcall).marshal ≤ requestLimit := by decide +kernel

/-! ## Every run -/

variable {server : Server} {role : ℕ → Option Invocation}

/-- **The upcall is safe.** In every run, with any number of proxies and handlers and connections that
break anywhere: every command is run for some proxy, and for each proxy at most one, the one that
`executeCommand` makes of its arguments and its environment. A proxy that has ended reports a failure
without output, or the answer of `executeCommand` to its own request; and it reports success only if its
command was run and has succeeded, with the output of this command.
SOURCE: pkg/upcall/server.go:81-183, cmd/lustre-host-proxy/main.go:47-133 -/
theorem upcall_safe {errors : JsonErrors} {c : Config protocolSig ProtocolState (Option Exit)}
    (hrun : Run protocolStep (fun _ _ => False) (threadBody server errors role) (.start ⟨[]⟩) c) :
    (∀ u n command res, (u, (⟨.run n command, res⟩ : Event protocolSig)) ∈ c.world.trace →
      ∃ t inv, role t = some inv ∧ runsBy c.world t = [⟨command, res⟩]) ∧
    ∀ t inv, role t = some inv →
      (runsBy c.world t = [] ∨ ∃ resp, Yields
        (executeCommand server.unicode server.environ (requestOf inv)) (runsBy c.world t) resp) ∧
      ∀ exit, c.slot t = .done (some exit) →
        ((exit.status = 1 ∧ exit.stdout = "") ∨ ∃ resp written, Yields
          (executeCommand server.unicode server.environ (requestOf inv)) (runsBy c.world t) resp ∧
            exit = resp.exit written) ∧
        (exit.status = 0 → ∃ command res written, runsBy c.world t = [⟨command, res⟩] ∧
          res.err = none ∧ exit.stdout = res.stdout ∧ exit.stderr = written ++ res.stderr) := by
  have hsafe := poolSafe_of_run hrun
  have hinv : Invariant server role c.world := hsafe.inv
  refine ⟨fun u n command res hmem => ?_, fun t inv hrole => ⟨?_, fun exit hdone => ?_⟩⟩
  · have hran : ⟨command, res⟩ ∈ runsFor c.world n :=
      List.mem_filterMap.mpr ⟨_, hmem, if_pos rfl⟩
    cases hn : connAt c.world n with
    | none =>
      rw [hinv.absent n hn] at hran
      cases hran
    | some conn =>
      obtain ⟨inv, hrole, -⟩ := (hinv.sound n conn hn).request
      refine ⟨conn.peer, inv, hrole, ?_⟩
      rw [runsBy_eq_runsFor hinv hn]
      rcases (hinv.sound n conn hn).ran with hnil | ⟨inv', resp, -, hyields⟩
      · rw [hnil] at hran
        cases hran
      rcases yields_executeCommand hyields with ⟨hnil, -⟩ | ⟨command', res', hone, -⟩
      · rw [hnil] at hran
        cases hran
      rw [hone] at hran ⊢
      rw [List.mem_singleton.mp hran]
  · rcases free_or_dialled t c.world with hfree | ⟨n, conn, hn, rfl⟩
    · exact .inl (runsBy_eq_nil hfree)
    · rw [runsBy_eq_runsFor hinv hn]
      rcases (hinv.sound n conn hn).ran with hnil | ⟨inv', resp, hrole', hyields⟩
      · exact .inl hnil
      rw [hrole] at hrole'
      obtain rfl := Option.some.inj hrole'
      exact .inr ⟨resp, hyields⟩
  · rcases hsafe.post trivial hdone exit rfl with
      hfailure | ⟨n, conn, inv', resp, written, hn, rfl, -, hrole', hyields, rfl⟩
    · refine ⟨.inl hfailure, fun hzero => ?_⟩
      rw [hfailure.1] at hzero
      cases hzero
    · rw [hrole] at hrole'
      obtain rfl := Option.some.inj hrole'
      rw [runsBy_eq_runsFor hinv hn]
      refine ⟨.inr ⟨resp, written, hyields, rfl⟩, fun hzero => ?_⟩
      rcases yields_executeCommand hyields with ⟨-, hcode, -⟩ | ⟨command, res, hone, rfl⟩
      · simp [Response.exit, hcode, exitStatus] at hzero
      have hsensible : Sensible res :=
        (hinv.sound n conn hn).sensible ⟨command, res⟩ (by rw [hone]; exact List.mem_singleton_self _)
      obtain ⟨herr, hout, hmessages⟩ := exit_answerOf hsensible hzero
      exact ⟨command, res, written, hone, herr, hout, hmessages⟩

/-- A proxy that ends with the output of the one run for it. -/
theorem upcall_safe_sample : ∃ c command res,
    Run protocolStep (fun _ _ => False) (threadBody sampleServer sampleErrors sampleRole) (.start ⟨[]⟩) c ∧
      c.slot 0 = .done (some ⟨0, "key", ""⟩) ∧ runsBy c.world 0 = [⟨command, res⟩] ∧ res.stdout = "key" := by
  have hexchange : ∃ c conn, Run protocolStep (fun _ _ => False)
      (threadBody sampleServer sampleErrors sampleRole) (.start ⟨[]⟩) c ∧
        c.slot 0 = .done (some (Response.exit ⟨0, "key", "", ""⟩ "")) ∧ connAt c.world 0 = some conn ∧
        conn.peer = 0 ∧ runsFor c.world 0 = sampleRuns :=
    exchange_run (n := 0) (u := 1) rfl rfl rfl rfl rfl sample_limit yields_sample sensible_sample rfl rfl
  obtain ⟨c, conn, hrun, hdone, -⟩ := hexchange
  obtain ⟨command, res, written, hruns, -, hout, -⟩ := (((upcall_safe hrun).2 0 _ rfl).2 _ hdone).2 rfl
  exact ⟨c, command, res, hrun, hdone, hruns, hout.symm⟩

/-- **The upcall is transparent.** Wherever the system has got to, a proxy that starts then and a handler
that is free can complete the exchange whatever the others are about: if the request is within the limit
of the server, every outcome that `executeCommand` has for it can be the exit of the proxy, with status,
output and messages as they were.
SOURCE: pkg/upcall/server.go:81-183, cmd/lustre-host-proxy/main.go:47-133 -/
theorem upcall_transparent {errors : JsonErrors} {c : Config protocolSig ProtocolState (Option Exit)}
    (hrun : Run protocolStep (fun _ _ => False) (threadBody server errors role) (.start ⟨[]⟩) c)
    {t u : ℕ} {inv : Invocation} (ht : c.slot t = .idle) (hu : c.slot u = .idle) (hrole : role t = some inv)
    (hhandler : role u = none) (hargs : inv.args.isSome = true)
    (hlimit : byteLength (requestOf inv).marshal ≤ requestLimit) {tr : List (Event upcallSig)}
    {resp : Response}
    (hyields : Yields (executeCommand server.unicode server.environ (requestOf inv)) tr resp)
    (hsensible : ∀ e ∈ tr, Sensible e.2) :
    ∃ c', Run protocolStep (fun _ _ => False) (threadBody server errors role) c c' ∧
      c'.slot t = .done (some (resp.exit "")) ∧ runsBy c'.world t = tr := by
  have hinv : Invariant server role c.world := (poolSafe_of_run hrun).inv
  have hnil := hinv.absent c.world.state.connections.length (List.getElem?_eq_none (le_refl _))
  obtain ⟨c', conn, hrun', hdone, hc, hpeer, hruns⟩ :=
    exchange_run ht hu hrole hhandler hargs hlimit hyields hsensible rfl hnil
  have hinv' : Invariant server role c'.world := (poolSafe_of_run (hrun.trans hrun')).inv
  refine ⟨c', hrun', hdone, ?_⟩
  rw [← hpeer]
  exact (runsBy_eq_runsFor hinv' hc).trans hruns

/-- The second proxy has sent its request and waits for the answer. -/
theorem waiting_sample : ∃ c conn,
    Run protocolStep (fun _ _ => False) (threadBody sampleServer sampleErrors sampleRole) (.start ⟨[]⟩) c ∧
      connAt c.world 0 = some conn ∧ conn.peer = 2 ∧ c.slot 0 = .idle ∧ c.slot 1 = .idle := by
  have hargs : sampleUpcall.args.isSome = true := rfl
  obtain ⟨w, k, hsend, -, hconn, -⟩ := advance_proxyMain (t := 2) sampleErrors hargs
    (⟨⟨[]⟩, []⟩ : World protocolSig ProtocolState)
  have hproxy : threadBody sampleServer sampleErrors sampleRole 2 =
      (proxyMain sampleErrors 2 sampleUpcall >>= fun exit => .ret (some exit)) := rfl
  have hrun : Run protocolStep (fun _ _ => False) (threadBody sampleServer sampleErrors sampleRole)
      (.start ⟨[]⟩) _ := (hproxy ▸ hsend.bind fun exit => .ret (some exit)).run_spawn rfl
  exact ⟨_, _, hrun, hconn, rfl, rfl, rfl⟩

/-- While another proxy waits for its answer, the first one completes its exchange. -/
theorem upcall_transparent_sample : ∃ c conn,
    Run protocolStep (fun _ _ => False) (threadBody sampleServer sampleErrors sampleRole) (.start ⟨[]⟩) c ∧
      connAt c.world 0 = some conn ∧ conn.peer = 2 ∧
      ∃ c', Run protocolStep (fun _ _ => False) (threadBody sampleServer sampleErrors sampleRole) c c' ∧
        c'.slot 0 = .done (some ⟨0, "key", ""⟩) ∧ runsBy c'.world 0 = sampleRuns := by
  obtain ⟨c, conn, hrun, hconn, hpeer, hproxy, hhandler⟩ := waiting_sample
  exact ⟨c, conn, hrun, hconn, hpeer, upcall_transparent hrun hproxy hhandler rfl rfl rfl sample_limit
    yields_sample sensible_sample⟩

end LustreCsi.Analysis.UpcallProtocol
