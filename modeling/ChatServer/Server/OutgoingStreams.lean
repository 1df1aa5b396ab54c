import ChatServer.Reactor.SendBuffers
import ChatServer.Server.Transmission

/-!
# The streams to the clients

The server with a record of what it sends: the commands that handlers append to the send buffer of
each connection, and the calls of `tls_session::write` that callbacks make for it. In every state
reached, what TLS has accepted for a connection is the front of its appended commands, and the rest
waits in its send buffer; a write that wanted I/O is repeated with the same bytes; and nothing is
sent or received before the handshake is done (`streams_kept`). The descriptor of a connection may
have belonged to others before, and its stream has nothing of theirs.
-/

set_option autoImplicit false
set_option relaxedAutoImplicit false

namespace ChatServer

/-! ### The record -/

/-- The commands appended and the calls of `write`, each with its connection, oldest first. -/
structure Outgoing where
  appended : List (Nat × Command) := []
  writes : List (Nat × TlsWrite) := []

namespace Outgoing

/-- The commands appended to a connection. -/
def commandsOf (record : Outgoing) (conn : Nat) : List Command :=
  valuesOf conn record.appended

/-- The calls of `write` made for a connection. -/
def writesOf (record : Outgoing) (conn : Nat) : List TlsWrite :=
  valuesOf conn record.writes

/-- The bytes of a connection that TLS has accepted. -/
def acceptedOf (record : Outgoing) (conn : Nat) : Bytes :=
  acceptedBytes (record.writesOf conn)

/-- The bytes appended to a connection. -/
def streamOf (record : Outgoing) (conn : Nat) : Bytes :=
  (record.commandsOf conn).flatMap encode

end Outgoing

/-- The command that an effect appends, with the connection that has the descriptor. -/
def Effect.outgoing (kernel : Kernel) : Effect → Option (Nat × Command)
  | .appended fd _ cmd => (kernel.conn fd).map fun conn ↦ (conn, cmd)
  | _ => none

/-- The record after an action. -/
def outgoingAfter (state : ServerState) (label : ServerLabel) (_next : ServerState)
    (record : Outgoing) : Outgoing :=
  match label, state.phase with
  | .handle env, .working (queued :: _) _ =>
    { record with
      appended := record.appended ++ (state.registry.handleCommand env queued.command).2.filterMap
        (Effect.outgoing state.kernel) }
  | .dispatch env, .dispatching stage (event :: _) =>
    match state.registry.infos.lookup event.fd with
    | none => record
    | some si =>
      { record with
        writes := record.writes ++ (dispatchWrites env stage event.mask si).map fun write ↦
          (state.kernel.connOf event.fd, write) }
  | _, _ => record

/-- The server with what it sends. -/
def outgoingServer [LinearOrder Bytes] : TransitionSystem (ServerState × Outgoing) ServerLabel :=
  chatServer.withRecord {} outgoingAfter

/-! ### What is recorded for one connection -/

theorem valuesOf_map_same {Value : Type} (conn : Nat) (values : List Value) :
    valuesOf conn (values.map fun value ↦ (conn, value)) = values := by
  simp [valuesOf, List.filter_map, Function.comp_def]

theorem valuesOf_map_other {Value : Type} {conn other : Nat} (hne : other ≠ conn)
    (values : List Value) : valuesOf conn (values.map fun value ↦ (other, value)) = [] := by
  simp [valuesOf, List.filter_map, Function.comp_def, hne]

/-- What effects append to a descriptor goes to the connection that has it. -/
theorem valuesOf_outgoing {kernel : Kernel} {fd : Int} {conn : Nat}
    (hinjective : ∀ other, kernel.conn other = some conn → other = fd)
    (hconn : kernel.conn fd = some conn) (effects : List Effect) :
    valuesOf conn (effects.filterMap (Effect.outgoing kernel)) = appendedTo fd effects := by
  induction effects with
  | nil => rfl
  | cons effect rest ih =>
    rw [← List.singleton_append, List.filterMap_append, valuesOf_append, ih, appendedTo_append]
    congr 1
    cases effect with
    | appended target userId cmd =>
      by_cases hsame : target = fd
      · simp [Effect.outgoing, appendedTo, Effect.appendedTo, hsame, hconn, valuesOf]
      · have hnone : appendedTo fd [.appended target userId cmd] = [] := by
          simp [appendedTo, Effect.appendedTo, hsame]
        rw [hnone]
        cases hother : kernel.conn target with
        | none => simp [Effect.outgoing, hother, valuesOf]
        | some other =>
          have hne : other ≠ conn := fun heq ↦ hsame (hinjective target (heq ▸ hother))
          simp [Effect.outgoing, hother, valuesOf, hne]
    | _ => rfl

/-- Only registered connections are appended to. -/
theorem Pipeline.Owned.held_of_outgoing {pipeline : Pipeline} (howned : pipeline.Owned)
    (env : HandlerEnv) {command : RegistryCommand} {entry : Nat × Command}
    (hentry : entry ∈ (pipeline.registry.handleCommand env command).2.filterMap
      (Effect.outgoing pipeline.kernel)) : ∃ fd, pipeline.Held entry.1 fd := by
  obtain ⟨effect, heffect, hout⟩ := List.mem_filterMap.mp hentry
  cases effect with
  | appended fd userId cmd =>
    obtain ⟨conn, hconn, rfl⟩ := Option.map_eq_some_iff.mp hout
    have hmem : fd ∈ pipeline.registry.infos := by
      by_contra hgone
      have hnothing := (EpollRegistry.grows_handleCommand env command pipeline.registry).present fd
        (Finmap.lookup_eq_none.mpr hgone)
      refine absurd hnothing (@List.ne_nil_of_mem _ cmd _ ?_)
      exact List.mem_filterMap.mpr ⟨_, heffect, if_pos rfl⟩
    exact ⟨fd, howned.held (Pipeline.registeredAt_eq_some.mpr ⟨hmem, hconn⟩)⟩
  | _ => cases hout

/-! ### What holds in every state -/

/-- What is recorded for a connection is what its entry says. -/
structure Outgoing.Serves (record : Outgoing) (conn : Nat) (si : SocketInfo) (received : Bytes) :
    Prop where
  follows : Sending.Follows ⟨si, record.writesOf conn⟩ (record.streamOf conn)
  hasSsl : si.tls.hasSsl = true
  handshaking : si.tls.handshakeDone = false → record.writesOf conn = [] ∧ received = []

/-- Every registered connection is served, what was accepted was appended, and the record is about
connections that were registered. -/
structure ServerState.Streams (state : ServerState) (record : Outgoing) : Prop where
  registered : ∀ fd si conn, state.registry.infos.lookup fd = some si →
    state.kernel.conn fd = some conn → record.Serves conn si (state.ledger.receivedOf conn)
  accepted : ∀ conn, record.acceptedOf conn <+: record.streamOf conn
  commands : ∀ entry ∈ record.appended, ∃ fd, state.pipeline.Held entry.1 fd
  writes : ∀ entry ∈ record.writes, ∃ fd, state.pipeline.Held entry.1 fd

namespace ServerState

variable {state next : ServerState} {record : Outgoing}

theorem streams_start : ServerState.start.Streams {} where
  registered fd si conn hinfo := by cases hinfo
  accepted conn := List.prefix_refl _
  commands entry hentry := by cases hentry
  writes entry hentry := by cases hentry

/-- A connection that is registered stays the one that was there. -/
theorem held_of_transition [LinearOrder Bytes] {label : ServerLabel}
    (howned : state.pipeline.Owned) (htransition : Transition state label next) {conn : Nat}
    (hheld : ∃ fd, state.pipeline.Held conn fd) : ∃ fd, next.pipeline.Held conn fd := by
  obtain ⟨fd, hheld⟩ := hheld
  rcases pipeline_step htransition with hsame | hstep
  · exact ⟨fd, hsame ▸ hheld⟩
  · exact ⟨fd, hheld.step howned hstep⟩

/-- An action that sends and receives nothing. -/
theorem Streams.mono (hstreams : state.Streams record) (hregistry : next.registry = state.registry)
    (hconn : ∀ fd ∈ state.registry.infos, next.kernel.conn fd = state.kernel.conn fd)
    (hreceived : next.ledger.received = state.ledger.received)
    (hheld : ∀ {conn : Nat}, (∃ fd, state.pipeline.Held conn fd) →
      ∃ fd, next.pipeline.Held conn fd) : next.Streams record where
  registered fd si conn hinfo hopen := by
    rw [hregistry] at hinfo
    rw [hconn fd (Finmap.mem_of_lookup_eq_some hinfo)] at hopen
    unfold Ledger.receivedOf
    rw [hreceived]
    exact hstreams.registered fd si conn hinfo hopen
  accepted := hstreams.accepted
  commands entry hentry := hheld (hstreams.commands entry hentry)
  writes entry hentry := hheld (hstreams.writes entry hentry)

/-- Nothing is recorded for a connection that is not registered yet. -/
theorem Streams.nothing (hstreams : state.Streams record) {owner : Int × Nat}
    (howner : owner ∈ state.pipeline.owners) :
    record.commandsOf owner.2 = [] ∧ record.writesOf owner.2 = [] := by
  have hnone : ∀ {Value : Type} (entries : List (Nat × Value)),
      (∀ entry ∈ entries, ∃ fd, state.pipeline.Held entry.1 fd) →
        valuesOf owner.2 entries = [] := by
    intro Value entries hentries
    rw [valuesOf, List.map_eq_nil_iff, List.filter_eq_nil_iff]
    intro entry hentry hsame
    obtain ⟨fd, hheld⟩ := hentries entry hentry
    exact hheld.notOwner owner howner (of_decide_eq_true hsame).symm
  exact ⟨hnone _ hstreams.commands, hnone _ hstreams.writes⟩

/-! ### Handling a command -/

/-- The send buffer has grown by these commands. -/
theorem serves_grown {conn : Nat} {si si' : SocketInfo} {received : Bytes} {cmds : List Command}
    {after : Outgoing} (hserves : record.Serves conn si received)
    (hcommands : after.commandsOf conn = record.commandsOf conn ++ cmds)
    (hwrites : after.writesOf conn = record.writesOf conn)
    (hsend : si'.send = si.send.append (cmds.flatMap encode)) (htls : si'.tls = si.tls) :
    after.Serves conn si' received := by
  refine ⟨?_, htls ▸ hserves.hasSsl, ?_⟩
  · have hgrown := hserves.follows.append (cmds.flatMap encode)
    have hdata : si'.send.currentData =
        (si.send.appendSending (cmds.flatMap encode)).1.currentData := by
      rw [hsend]
      rfl
    rw [Outgoing.streamOf, hcommands, List.flatMap_append, hwrites]
    exact ⟨hdata ▸ hgrown.split, hgrown.chain, hdata ▸ hgrown.waiting⟩
  · rw [htls, hwrites]
    exact hserves.handshaking

theorem Streams.handled (hstreams : state.Streams record) (howned : state.pipeline.Owned)
    (hheard : state.pipeline.Heard) (env : HandlerEnv) {queued : Queued} {pending : List Queued}
    {events : List Event} (hphase : state.phase = .working (queued :: pending) events)
    (hheld : ∀ {conn : Nat}, (∃ fd, state.pipeline.Held conn fd) →
      ∃ fd, (state.handled env queued pending events).pipeline.Held conn fd) :
    (state.handled env queued pending events).Streams
      { record with
        appended := record.appended ++ (state.registry.handleCommand env queued.command).2.filterMap
          (Effect.outgoing state.kernel) } := by
  have hqueued : state.pipeline.queued = queued :: (pending ++ state.cmdQ) := by
    simp [ServerState.pipeline, ServerState.queued, ServerState.pending, hphase]
  have hhandles := howned.handles env hqueued
  have hgrows := EpollRegistry.grows_handleCommand env queued.command state.registry
  generalize heffects : (state.registry.handleCommand env queued.command).2 = effects at *
  have hcommands : ∀ conn, Outgoing.commandsOf { record with
      appended := record.appended ++ effects.filterMap (Effect.outgoing state.kernel) } conn =
        record.commandsOf conn ++
          valuesOf conn (effects.filterMap (Effect.outgoing state.kernel)) :=
    fun conn ↦ valuesOf_append conn _ _
  have honly : ∀ fd conn, state.kernel.conn fd = some conn →
      ∀ other, state.kernel.conn other = some conn → other = fd :=
    fun fd conn hconn other hother ↦ howned.injective other fd conn hother hconn
  refine ⟨fun fd si' conn hinfo hconn ↦ ?_, fun conn ↦ ?_, fun entry hentry ↦ ?_,
    fun entry hentry ↦ hheld (hstreams.writes entry hentry)⟩
  · have hconn' : state.kernel.conn fd = some conn := hhandles.closed fd conn hconn
    have hvalues := valuesOf_outgoing (honly fd conn hconn') hconn' effects
    cases hbefore : state.registry.infos.lookup fd with
    | some si =>
      obtain ⟨hsend, htls⟩ := hgrows.kept fd si si' hbefore hinfo
      refine serves_grown (hstreams.registered fd si conn hbefore hconn') ?_ rfl hsend htls
      rw [hcommands, hvalues]
    | none =>
      -- the connection is registered by this command, and nothing is recorded for it
      obtain ⟨hsend, htls⟩ := hgrows.fresh fd si' hbefore hinfo
      have hregisters : queued.command.registers = some fd := by
        refine (hhandles.mem (Finmap.mem_of_lookup_eq_some hinfo)).resolve_left fun hmem ↦ ?_
        exact Finmap.lookup_eq_none.mp hbefore hmem
      have hmem : queued ∈ state.pipeline.queued := hqueued ▸ List.mem_cons_self
      have hown := (howned.register_fresh hmem hregisters).1.symm.trans hconn'
      have howner : (fd, conn) ∈ state.pipeline.owners := by
        rw [Pipeline.owners_handled env hqueued, hregisters, ← Option.some.inj hown]
        exact List.mem_append_left _ (List.mem_singleton.mpr rfl)
      obtain ⟨hnone, hsilent⟩ := hstreams.nothing howner
      have hsilent' : Outgoing.writesOf { record with
          appended := record.appended ++ effects.filterMap (Effect.outgoing state.kernel) } conn =
            [] := hsilent
      refine ⟨?_, by rw [htls], fun _ ↦ ⟨hsilent, (hheard.nothing howner).1⟩⟩
      rw [Outgoing.streamOf, hcommands, hvalues, hgrows.present fd hbefore, hsilent',
        show record.commandsOf conn = [] from hnone]
      refine ⟨?_, List.isChain_nil, fun write hwrite ↦ by cases hwrite⟩
      show acceptedBytes [] ++ si'.send.currentData = []
      rw [hsend]
      rfl
  · refine (hstreams.accepted conn).trans ?_
    rw [Outgoing.streamOf, Outgoing.streamOf, hcommands, List.flatMap_append]
    exact List.prefix_append _ _
  · rcases List.mem_append.mp hentry with hold | hnew
    · exact hheld (hstreams.commands entry hold)
    · rw [← heffects] at hnew
      exact hheld (howned.held_of_outgoing env hnew)

/-! ### Callbacks -/

theorem Streams.dispatched (hstreams : state.Streams record) (howned : state.pipeline.Owned)
    (env : IoEnv) (stage : Stage) (event : Event) (rest : List Event) {si : SocketInfo}
    (hinfo : state.registry.infos.lookup event.fd = some si)
    (hheld : ∀ {conn : Nat}, (∃ fd, state.pipeline.Held conn fd) → ∃ fd,
      (state.dispatched event rest si (dispatchStage env stage event.mask si)).pipeline.Held
        conn fd) :
    (state.dispatched event rest si (dispatchStage env stage event.mask si)).Streams
      { record with
        writes := record.writes ++ (dispatchWrites env stage event.mask si).map fun write ↦
          (state.kernel.connOf event.fd, write) } := by
  have hregistered : state.pipeline.registeredAt event.fd = some (state.kernel.connOf event.fd) :=
    howned.registeredAt_connOf hinfo
  have hconn : state.kernel.conn event.fd = some (state.kernel.connOf event.fd) :=
    (Pipeline.registeredAt_eq_some.mp hregistered).2
  have hserves := hstreams.registered event.fd si _ hinfo hconn
  have htransmits := @transmits_dispatchStage env stage event.mask si hserves.hasSsl
  have hwrites : ∀ conn, Outgoing.writesOf { record with
      writes := record.writes ++ (dispatchWrites env stage event.mask si).map fun write ↦
        (state.kernel.connOf event.fd, write) } conn = record.writesOf conn ++
          valuesOf conn ((dispatchWrites env stage event.mask si).map fun write ↦
            (state.kernel.connOf event.fd, write)) :=
    fun conn ↦ valuesOf_append conn _ _
  -- the connection at hand
  have hself : Outgoing.Serves { record with
      writes := record.writes ++ (dispatchWrites env stage event.mask si).map fun write ↦
        (state.kernel.connOf event.fd, write) } (state.kernel.connOf event.fd)
      (dispatchStage env stage event.mask si).info
      ((state.dispatched event rest si (dispatchStage env stage event.mask si)).ledger.receivedOf
        (state.kernel.connOf event.fd)) := by
    refine ⟨?_, htransmits.hasSsl hserves.hasSsl, fun hundone ↦ ?_⟩
    · rw [hwrites, valuesOf_map_same]
      exact htransmits.follows _ _ hserves.follows
    · have hbefore : si.tls.handshakeDone = false := by
        by_contra hdone
        rw [htransmits.done (Bool.not_eq_false _ ▸ hdone)] at hundone
        cases hundone
      have hsilent : dispatchWrites env stage event.mask si = [] := by
        by_contra hwritten
        rw [htransmits.written hwritten] at hundone
        cases hundone
      obtain ⟨hnone, hnothing⟩ := hserves.handshaking hbefore
      rw [hwrites, hsilent, receivedOf_dispatched, if_pos rfl, receives_dispatchStage hundone]
      exact ⟨List.append_eq_nil_iff.mpr ⟨hnone, rfl⟩, List.append_eq_nil_iff.mpr ⟨hnothing, rfl⟩⟩
  -- the record of the other connections stays
  have hother : ∀ conn, state.kernel.connOf event.fd ≠ conn →
      Outgoing.writesOf { record with
        writes := record.writes ++ (dispatchWrites env stage event.mask si).map fun write ↦
          (state.kernel.connOf event.fd, write) } conn = record.writesOf conn := by
    intro conn hne
    rw [hwrites, valuesOf_map_other hne, List.append_nil]
  refine ⟨fun fd si' conn hafter hopen ↦ ?_, fun conn ↦ ?_,
    fun entry hentry ↦ hheld (hstreams.commands entry hentry), fun entry hentry ↦ ?_⟩
  · rcases EpollRegistry.lookup_insert_eq_some.mp hafter with ⟨rfl, rfl⟩ | ⟨hne, hold⟩
    · obtain rfl : state.kernel.connOf event.fd = conn :=
        Option.some.inj (hconn.symm.trans hopen)
      exact hself
    · have hnotSame : state.kernel.connOf event.fd ≠ conn := by
        rintro rfl
        exact hne (howned.injective fd event.fd _ hopen hconn)
      have hold' := hstreams.registered fd si' conn hold hopen
      have hsame := hother conn hnotSame
      rw [receivedOf_dispatched, if_neg hnotSame, List.append_nil]
      exact ⟨hsame ▸ hold'.follows, hold'.hasSsl, hsame ▸ hold'.handshaking⟩
  · by_cases hsame : state.kernel.connOf event.fd = conn
    · rw [← hsame]
      exact ⟨_, hself.follows.split⟩
    · rw [Outgoing.acceptedOf, hother conn hsame]
      exact hstreams.accepted conn
  · rcases List.mem_append.mp hentry with hold | hnew
    · exact hheld (hstreams.writes entry hold)
    · obtain ⟨write, -, rfl⟩ := List.mem_map.mp hnew
      exact hheld ⟨event.fd, howned.held hregistered⟩

/-- Every action keeps the streams. -/
theorem Streams.step [LinearOrder Bytes] {label : ServerLabel} (hstreams : state.Streams record)
    (howned : state.pipeline.Owned) (hheard : state.pipeline.Heard)
    (htransition : Transition state label next) :
    next.Streams (outgoingAfter state label next record) := by
  have hheld : ∀ {conn : Nat}, (∃ fd, state.pipeline.Held conn fd) →
      ∃ fd, next.pipeline.Held conn fd := fun hheld ↦ held_of_transition howned htransition hheld
  cases htransition with
  | accept fd hfd hclosed hidle =>
    refine hstreams.mono rfl (fun other hother ↦ ?_) rfl hheld
    obtain ⟨conn, hconn⟩ := howned.registered other hother
    have hne : other ≠ fd := by
      rintro rfl
      cases (Pipeline.conn_eq_none.mpr hclosed).symm.trans hconn
    exact (@Pipeline.conn_accepted state.pipeline fd other).trans (if_neg hne)
  | handle env queued pending events hphase =>
    unfold outgoingAfter
    simp only [hphase]
    exact hstreams.handled howned hheard env hphase hheld
  | skip env stage event rest hphase hinfo =>
    unfold outgoingAfter
    simp only [hphase, hinfo]
    exact hstreams.mono rfl (fun _ _ ↦ rfl) rfl hheld
  | dispatch env stage event rest si hphase hinfo =>
    unfold outgoingAfter
    simp only [hphase, hinfo]
    exact hstreams.dispatched howned env stage event rest hinfo hheld
  | _ => exact hstreams.mono rfl (fun _ _ ↦ rfl) rfl hheld

end ServerState

/-- In every state reached the record is that of the streams. -/
theorem streams_of_reachable [LinearOrder Bytes]
    {condition : ServerState × Outgoing → ServerLabel → Prop} {state : ServerState × Outgoing}
    (hreach : outgoingServer.ReachableUnder condition state) : state.1.Streams state.2 := by
  refine @TransitionSystem.ReachableUnder.induction _ _ outgoingServer _
    (fun state ↦ state.1.Streams state.2) ServerState.streams_start ?_ _ hreach
  intro before label next hbefore hstreams _ hstep
  obtain ⟨hmoves, hrecord⟩ := TransitionSystem.withRecord_step_eq_some.mp hstep
  have hreached := hbefore.reachable.of_withRecord
  rw [hrecord]
  exact hstreams.step (owned_of_reachable hreached) (heard_of_reachable hreached)
    (transition_of_step hmoves)

/-- The streams to the clients. In every state reached, what TLS has accepted for a connection is
the front of what was appended to it. While the connection is registered the rest is in its send
buffer, a write that wanted I/O is repeated with the same bytes, and perhaps more behind them, and
nothing has been written or received before the handshake is done. -/
theorem streams_kept [LinearOrder Bytes] {state : ServerState} {record : Outgoing}
    (hreach : outgoingServer.Reachable (state, record)) (conn : Nat) :
    record.acceptedOf conn <+: record.streamOf conn ∧
    ∀ fd si, state.registry.infos.lookup fd = some si → state.kernel.conn fd = some conn →
      record.acceptedOf conn ++ si.send.currentData = record.streamOf conn ∧
      (record.writesOf conn).IsChain TlsWrite.Retries ∧
      (si.tls.handshakeDone = false →
        record.writesOf conn = [] ∧ state.ledger.receivedOf conn = []) := by
  have hstreams := streams_of_reachable hreach
  refine ⟨hstreams.accepted conn, fun fd si hinfo hconn ↦ ?_⟩
  have hserves := hstreams.registered fd si conn hinfo hconn
  exact ⟨hserves.follows.split, hserves.follows.chain, hserves.handshaking⟩

/-- A callback in which TLS takes so many bytes of what is to be sent, and then wants I/O. -/
def IoEnv.sending (count : Nat) : IoEnv :=
  { IoEnv.receiving [] with writes := ⟨[count], .wantWrite⟩ }

/-- A client registers an account, and TLS takes the first half of the reply. -/
def halfSent : List ServerLabel :=
  connecting 5 ++ round [] 1 [] ++ sending 5 [.cmdRegister (text "a") (text "p")] ++
    executing 1 ++ working [(5, epollOut)] 1 ++
    [.workDone, .dispatch (.receiving []), .dispatch (.sending 10), .dispatch (.receiving []),
      .dispatchDone]

theorem streams_kept_halfSent :
    ∃ state record, (@outgoingServer bytewise).run (@outgoingServer bytewise).start halfSent =
        some (state, record) ∧ record.acceptedOf 0 = text "response\rr" ∧
      ∃ si, state.registry.infos.lookup 5 = some si ∧
        record.acceptedOf 0 ++ si.send.currentData = record.streamOf 0 := by
  let order := bytewise
  have hrun : ((outgoingServer.run outgoingServer.start halfSent).map fun state ↦
      decide (state.2.acceptedOf 0 = text "response\rr" ∧ state.1.kernel.conn 5 = some 0 ∧
        (state.1.registry.infos.lookup 5).isSome)) = some true := by decide +kernel
  obtain ⟨⟨state, record⟩, hstate, hfacts⟩ := Option.map_eq_some_iff.mp hrun
  obtain ⟨haccepted, hconn, hregistered⟩ := of_decide_eq_true hfacts
  obtain ⟨si, hinfo⟩ := Option.isSome_iff_exists.mp hregistered
  exact ⟨state, record, hstate, haccepted, si, hinfo,
    ((streams_kept (.of_run hstate) 0).2 5 si hinfo hconn).1⟩

end ChatServer
