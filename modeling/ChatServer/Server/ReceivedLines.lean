import ChatServer.Server.Addressing

/-!
# The lines received from a connection

The bytes of a connection arrive in pieces, and the event loop takes the complete lines out of what
has arrived before it goes on to the next event. It does not do so when `handle_recv` ends the
event: when the peer has closed, `handle_recv` returns `false` after the bytes have been drained,
and the lines in them are never handed to `decode`. In the run `closingClient` a client sends a
command and closes, both are reported by one event, and the command is lost.

In every run in which no read event that brings the end of a line also reports that the peer has
closed, the lines handed to `decode` are the lines received, each once and in order
(`linesKept_of_open`).
-/

set_option autoImplicit false
set_option relaxedAutoImplicit false

namespace ChatServer

/-- The event whose callbacks begin next. -/
def Phase.beginning : Phase → Option Event
  | .dispatching .recv (event :: _) => some event
  | _ => none

/-- The event whose callbacks have begun. -/
def Phase.begun : Phase → Option Event
  | .dispatching .send (event :: _) | .dispatching .execute (event :: _) => some event
  | _ => none

/-- The lines of every connection were handed to `decode`, each once and in order; all of them, when
no event of the connection is being handled. -/
def ServerState.LinesKept (state : ServerState) : Prop :=
  ∀ conn,
    state.ledger.linesOf conn <+:
        DelimitedStream.records newline (state.ledger.receivedOf conn) ∧
      ((∀ event ∈ state.phase.begun, state.kernel.conn event.fd ≠ some conn) →
        state.ledger.linesOf conn =
          DelimitedStream.records newline (state.ledger.receivedOf conn))

/-- The callback gets to the transfer of bytes: the handshake is done, or is done in it. -/
def Transfers (env : IoEnv) (si : SocketInfo) : Prop :=
  si.tls.hasSsl = true ∧ (si.tls.handshakeDone = true ∨ env.handshake = none)

/-- A read event does not report that the peer has closed, in its mask or at the end of the
transfer, and no call fails in it. -/
def StaysOpen (env : IoEnv) (event : UInt32) : Prop :=
  event &&& epollRdhup = 0 ∧ (env.reads.failure = .wantRead ∨ env.reads.failure = .wantWrite) ∧
    env.handshakeSyncOk = true ∧ env.syncOk = true

/-- A read event in which the end of a line arrives does not report that the peer has closed. -/
def LinesArriveOpen (state : ServerState) (label : ServerLabel) : Prop :=
  match label with
  | .dispatch env => ∀ event ∈ state.phase.beginning,
      ∀ si ∈ state.registry.infos.lookup event.fd,
        isErrorEvent event.mask = false → isReadEvent event.mask = true → Transfers env si →
          newline ∈ env.reads.reports.flatten → StaysOpen env event.mask
  | _ => True

instance (env : IoEnv) (si : SocketInfo) : Decidable (Transfers env si) :=
  inferInstanceAs (Decidable (_ ∧ _))

instance (env : IoEnv) (event : UInt32) : Decidable (StaysOpen env event) :=
  inferInstanceAs (Decidable (_ ∧ _))

instance (state : ServerState) (label : ServerLabel) : Decidable (LinesArriveOpen state label) :=
  match label with
  | .dispatch env => inferInstanceAs (Decidable (∀ event ∈ state.phase.beginning,
      ∀ si ∈ state.registry.infos.lookup event.fd,
        isErrorEvent event.mask = false → isReadEvent event.mask = true → Transfers env si →
          newline ∈ env.reads.reports.flatten → StaysOpen env event.mask))
  | .accept _ | .requestRegister | .epollWait _ | .swap | .handle _ | .workDone | .dispatchDone
  | .take _ | .push | .finish => isTrue trivial

/-! ### A client that closes -/

/-- A client sends a command and closes; one event reports both. -/
def closingClient : List ServerLabel :=
  connecting 5 ++ round [] 1 [] ++
    round [(5, epollIn ||| epollRdhup)] 0 [encode (.cmdRegister (text "a") (text "p"))]

/-- The line was received and not handed to `decode`, and no event is being handled. -/
theorem closingClient_dropped :
    ∃ state, (@chatServer bytewise).run ServerState.start closingClient = some state ∧
      DelimitedStream.records newline (state.ledger.receivedOf 0) = [text "register\ra\rp"] ∧
      ¬ state.LinesKept := by
  let order := bytewise
  have hrun : ((chatServer.run ServerState.start closingClient).map fun state ↦
      (DelimitedStream.records newline (state.ledger.receivedOf 0), state.ledger.linesOf 0,
        state.phase.begun)) = some ([text "register\ra\rp"], [], none) := by decide +kernel
  obtain ⟨state, hstate, hfacts⟩ := Option.map_eq_some_iff.mp hrun
  obtain ⟨hrecords, hlines, hbegun⟩ : _ ∧ _ ∧ _ := by simpa only [Prod.mk.injEq] using hfacts
  refine ⟨state, hstate, hrecords, fun hkept ↦ ?_⟩
  have hall := (hkept 0).2 (by simp [hbegun])
  rw [hlines, hrecords] at hall
  cases hall

/-! ### Read events that go on -/

section Recv

variable {env : IoEnv} {si : SocketInfo}

theorem drainLoop_open {failure : SslError}
    (hfailure : failure = .wantRead ∨ failure = .wantWrite) (reports : List Bytes)
    (hssl : si.tls.hasSsl = true) (info : RecvInfo) :
    ∃ info', (drainLoop failure reports si info).2 = some info' ∧ info'.closed = info.closed := by
  induction reports generalizing si info with
  | nil =>
    refine ⟨info, ?_, rfl⟩
    unfold drainLoop
    rw [TlsSession.transfer_error hssl (by decide)]
    rcases hfailure with rfl | rfl
    · rfl
    · rfl
  | cons data later ih =>
    have hread : si.tls.transfer bufSize (.ok data.length) =
        (si.tls.applyState { byte := min data.length bufSize },
          some { byte := min data.length bufSize }) :=
      TlsSession.transfer_ok hssl (by decide) data.length
    unfold drainLoop
    rw [hread]
    dsimp only
    split_ifs
    · obtain ⟨info', hresult, hclosed⟩ :=
        @ih { si with
              tls := si.tls.applyState { byte := min data.length bufSize }
              recv := si.recv.append (data.take (min data.length bufSize)) } hssl
          { info with byte := info.byte + min data.length bufSize }
      exact ⟨info', hresult, hclosed⟩
    · exact ⟨info, rfl, rfl⟩

theorem tls_syncTlsInterest (ok : Bool) (si : SocketInfo) :
    (EpollServer.syncTlsInterest ok si).1.tls = si.tls := by
  unfold EpollServer.syncTlsInterest
  dsimp only
  split_ifs <;> rfl

theorem syncTlsInterest_ok (si : SocketInfo) : (EpollServer.syncTlsInterest true si).2 = true := by
  unfold EpollServer.syncTlsInterest
  dsimp only
  split_ifs <;> rfl

/-- A handshake that goes on without being done is not done after the callback. -/
theorem progressTlsHandshake_waits {error : SslError} (hssl : si.tls.hasSsl = true)
    (hundone : ¬ si.tls.handshakeDone = true) (herror : env.handshake = some error)
    (hgoes : (EpollServer.progressTlsHandshake env si).2 = true) :
    (EpollServer.progressTlsHandshake env si).1.1.tls.hasSsl = true ∧
      ¬ (EpollServer.progressTlsHandshake env si).1.1.tls.handshakeDone = true := by
  have hhandshake : si.tls.handshake env.handshake = si.tls.finish (fromSslError error 0) := by
    unfold TlsSession.handshake
    rw [if_neg (not_not.mpr hssl), if_neg hundone, herror]
  unfold EpollServer.progressTlsHandshake at hgoes ⊢
  rw [if_neg (not_not.mpr hssl), if_neg hundone, hhandshake] at hgoes ⊢
  cases hresult : fromSslError error 0 with
  | none =>
    rw [hresult] at hgoes
    cases hgoes
  | some io =>
    rw [hresult] at hgoes
    unfold TlsSession.finish at hgoes ⊢
    dsimp only at hgoes ⊢
    split_ifs at hgoes ⊢ with hclosed hsync
    rw [tls_syncTlsInterest]
    exact ⟨hssl, hundone⟩

/-- When the callback gets to the transfer and nothing fails, its handshake is done and goes on. -/
theorem progressTlsHandshake_transfers (htransfers : Transfers env si)
    (hsync : env.handshakeSyncOk = true) :
    (EpollServer.progressTlsHandshake env si).2 = true ∧
      (EpollServer.progressTlsHandshake env si).1.1.tls.hasSsl = true ∧
      (EpollServer.progressTlsHandshake env si).1.1.tls.handshakeDone = true := by
  obtain ⟨hssl, hready⟩ := htransfers
  unfold EpollServer.progressTlsHandshake
  rw [if_neg (not_not.mpr hssl)]
  by_cases hdone : si.tls.handshakeDone = true
  · rw [if_pos hdone]
    exact ⟨rfl, hssl, hdone⟩
  · have hhandshake : si.tls.handshake env.handshake =
        ({ si.tls with handshakeDone := true }.applyState {}, some {}) := by
      unfold TlsSession.handshake
      rw [if_neg (not_not.mpr hssl), if_neg hdone, hready.resolve_left hdone]
      rfl
    rw [if_neg hdone, hhandshake, hsync]
    dsimp only
    rw [if_neg Bool.false_ne_true, if_neg (not_not.mpr (syncTlsInterest_ok _)), tls_syncTlsInterest]
    exact ⟨rfl, hssl, rfl⟩

/-- An event whose peer stays open goes on after the transfer. -/
theorem handleRecv_goes_on {event : UInt32} (htransfers : Transfers env si)
    (hopen : StaysOpen env event) : (EpollServer.handleRecv env event si).2 = true := by
  obtain ⟨hmask, hfailure, hhandshake, hsync⟩ := hopen
  obtain ⟨hgoes, hssl, hdone⟩ := progressTlsHandshake_transfers htransfers hhandshake
  obtain ⟨info, hinfo, hclosed⟩ := drainLoop_open hfailure env.reads.reports hssl {}
  unfold EpollServer.handleRecv
  dsimp only
  rw [if_neg (not_not.mpr hgoes), if_neg (fun hwaits ↦ hwaits.2 hdone)]
  have hdrained : (drainRecv env.reads (EpollServer.progressTlsHandshake env si).1.1).2 =
      some info := by
    unfold drainRecv
    rw [if_neg (not_not.mpr hssl)]
    exact hinfo
  rw [hdrained]
  have hfinished : (EpollServer.finishTransfer env
      (drainRecv env.reads (EpollServer.progressTlsHandshake env si).1.1).1).2 = true := by
    unfold EpollServer.finishTransfer
    rw [hsync, if_neg (not_not.mpr (syncTlsInterest_ok _))]
  dsimp only
  rw [if_neg (not_not.mpr hfinished), if_neg]
  rintro (hshut | hshut)
  · rw [hclosed] at hshut
    cases hshut
  · exact hshut hmask

/-- A callback that does not get to the transfer receives nothing. -/
theorem handleRecv_of_not_transfers (hwaits : ¬ Transfers env si) (event : UInt32) :
    (EpollServer.handleRecv env event si).1.1.recv.currentData = si.recv.currentData := by
  have hnothing : ∀ {called : EpollServer.Called}, EpollServer.Calls si called [] →
      called.1.recv.currentData = si.recv.currentData := by
    intro called hcalls
    rw [hcalls.receives.currentData, List.append_nil]
  unfold EpollServer.handleRecv
  dsimp only
  by_cases hssl : si.tls.hasSsl = true
  · -- the handshake goes on after the callback, or fails in it
    rcases EpollServer.progressTlsHandshake_cases env si with
      ⟨hgoes, hquiet, hshake⟩ | ⟨hstops, hcalls⟩
    · have hundone : ¬ si.tls.handshakeDone = true := fun hdone ↦ hwaits ⟨hssl, Or.inl hdone⟩
      obtain ⟨error, herror⟩ := Option.ne_none_iff_exists'.mp
        fun hnone ↦ hwaits ⟨hssl, Or.inr hnone⟩
      have hstill := progressTlsHandshake_waits hssl hundone herror hgoes
      rw [if_neg (not_not.mpr hgoes), if_pos hstill]
      exact hnothing ⟨hshake, Or.inl hquiet⟩
    · rw [if_pos (by simp [hstops])]
      exact hnothing hcalls
  · have hprogress : EpollServer.progressTlsHandshake env si = ((si, []), true) := by
      unfold EpollServer.progressTlsHandshake
      rw [if_pos hssl]
    rw [hprogress, if_neg (not_not.mpr rfl), if_neg fun hopen ↦ hssl hopen.1]
    unfold drainRecv
    rw [if_pos hssl]
    exact hnothing (EpollServer.calls_handleDisconnect si)

end Recv

/-! ### Connections that were heard -/

namespace Pipeline

variable {pipeline : Pipeline}

/-- Bytes and lines are those of connections that were registered, and no line has an end in it. -/
structure Heard (pipeline : Pipeline) : Prop where
  received : ∀ record ∈ pipeline.ledger.received, ∃ fd, pipeline.Held record.1 fd
  lines : ∀ record ∈ pipeline.ledger.lines, ∃ fd, pipeline.Held record.1 fd
  whole : ∀ record ∈ pipeline.ledger.lines, newline ∉ record.2

theorem Heard.step [LinearOrder Bytes] {next : Pipeline} {label : ServerLabel}
    (hheard : pipeline.Heard) (howned : pipeline.Owned) (hstep : pipeline.Step label next) :
    next.Heard := by
  have hreceived : ∀ record ∈ pipeline.ledger.received, ∃ fd, next.Held record.1 fd := by
    intro record hrecord
    obtain ⟨fd, hheld⟩ := hheard.received record hrecord
    exact ⟨fd, hheld.step howned hstep⟩
  have hlines : ∀ record ∈ pipeline.ledger.lines, ∃ fd, next.Held record.1 fd := by
    intro record hrecord
    obtain ⟨fd, hheld⟩ := hheard.lines record hrecord
    exact ⟨fd, hheld.step howned hstep⟩
  cases hstep with
  | dispatch env fd si result hinfo hresult =>
    have hheld := (howned.held (howned.registeredAt_connOf hinfo)).step howned
      (.dispatch env fd si result hinfo hresult)
    refine ⟨fun record hrecord ↦ ?_, fun record hrecord ↦ ?_, fun record hrecord ↦ ?_⟩
    · rcases List.mem_append.mp hrecord with hold | hnew
      · exact hreceived record hold
      · rw [List.mem_singleton.mp hnew]
        exact ⟨fd, hheld⟩
    · rcases List.mem_append.mp hrecord with hold | hnew
      · exact hlines record hold
      · obtain ⟨line, -, rfl⟩ := Option.map_eq_some_iff.mp (Option.mem_toList.mp hnew)
        exact ⟨fd, hheld⟩
    · rcases List.mem_append.mp hrecord with hold | hnew
      · exact hheard.whole record hold
      · obtain ⟨line, hline, rfl⟩ := Option.map_eq_some_iff.mp (Option.mem_toList.mp hnew)
        have hparsed := hresult.line
        simp only [hline] at hparsed
        exact hparsed.1
  | _ => exact ⟨hreceived, hlines, hheard.whole⟩

/-- Nothing was received from a connection that is not registered yet. -/
theorem Heard.nothing (hheard : pipeline.Heard) {owner : Int × Nat}
    (howner : owner ∈ pipeline.owners) :
    pipeline.ledger.receivedOf owner.2 = [] ∧ pipeline.ledger.linesOf owner.2 = [] := by
  have hnone : ∀ {Value : Type} (records : List (Nat × Value)),
      (∀ record ∈ records, ∃ fd, pipeline.Held record.1 fd) → valuesOf owner.2 records = [] := by
    intro Value records hrecords
    rw [valuesOf, List.map_eq_nil_iff, List.filter_eq_nil_iff]
    intro record hrecord hsame
    obtain ⟨fd, hheld⟩ := hrecords record hrecord
    exact hheld.notOwner owner howner (of_decide_eq_true hsame).symm
  refine ⟨?_, hnone _ hheard.lines⟩
  rw [Ledger.receivedOf, hnone _ hheard.received]
  rfl

end Pipeline

theorem heard_of_reachable [LinearOrder Bytes] {condition : ServerState → ServerLabel → Prop}
    {state : ServerState} (hreach : chatServer.ReachableUnder condition state) :
    state.pipeline.Heard := by
  have hstart : ServerState.start.pipeline.Heard := by
    constructor <;> simp [ServerState.pipeline, ServerState.start]
  exact pipeline_induction hstart
    (fun _ _ _ hreach hheard _ hstep ↦ hheard.step (owned_of_reachable hreach) hstep) hreach

/-! ### Lines taken and bytes left -/

namespace ServerState

/-- The bytes received from a connection are the lines taken, with their ends, and these bytes,
which are left in the receive buffer while the connection is registered. -/
structure Left (state : ServerState) (conn : Nat) (left : Bytes) : Prop where
  received : state.ledger.receivedOf conn =
    DelimitedStream.joined newline (state.ledger.linesOf conn) ++ left
  buffer : ∀ fd si, state.registry.infos.lookup fd = some si → state.kernel.conn fd = some conn →
    si.recv.currentData = left

/-- What is left has no complete line, except while a read event of the connection is handled. -/
def LinesTaken (state : ServerState) : Prop :=
  ∀ conn, ∃ left, state.Left conn left ∧
    (newline ∈ left → ∃ event ∈ state.phase.begun, isReadEvent event.mask = true ∧
      event.fd ∈ state.registry.infos ∧ state.kernel.conn event.fd = some conn)

variable {state next : ServerState}

/-- A step that leaves the record, the connections and their receive buffers, and does not leave
the event that is handled. -/
theorem LinesTaken.mono (htaken : state.LinesTaken)
    (hreceived : next.ledger.received = state.ledger.received)
    (hlines : next.ledger.lines = state.ledger.lines) (hregistry : next.registry = state.registry)
    (hkernel : ∀ fd, fd ∈ state.registry.infos → next.kernel.conn fd = state.kernel.conn fd)
    (hbegun : ∀ event ∈ state.phase.begun, event.fd ∈ state.registry.infos →
      event ∈ next.phase.begun) : next.LinesTaken := by
  intro conn
  obtain ⟨left, hleft, hevent⟩ := htaken conn
  refine ⟨left, ⟨?_, fun fd si hinfo hconn ↦ ?_⟩, fun hnewline ↦ ?_⟩
  · unfold Ledger.receivedOf Ledger.linesOf
    rw [hreceived, hlines]
    exact hleft.received
  · rw [hregistry] at hinfo
    rw [hkernel fd (Finmap.mem_of_lookup_eq_some hinfo)] at hconn
    exact hleft.buffer fd si hinfo hconn
  · obtain ⟨event, hmem, hread, hregistered, hconn⟩ := hevent hnewline
    refine ⟨event, hbegun event hmem hregistered, hread, hregistry ▸ hregistered, ?_⟩
    rw [hkernel event.fd hregistered]
    exact hconn

theorem LinesTaken.handled (htaken : state.LinesTaken) (howned : state.pipeline.Owned)
    (hheard : state.pipeline.Heard) (env : HandlerEnv) {queued : Queued} {pending : List Queued}
    {events : List Event} (hphase : state.phase = .working (queued :: pending) events) :
    (state.handled env queued pending events).LinesTaken := by
  have hqueued : state.pipeline.queued = queued :: (pending ++ state.cmdQ) := by
    simp [ServerState.pipeline, ServerState.queued, ServerState.pending, hphase]
  have hhandles := howned.handles env hqueued
  intro conn
  obtain ⟨left, hleft, hevent⟩ := htaken conn
  have hnone : newline ∉ left := by
    intro hnewline
    obtain ⟨event, hmem, -⟩ := hevent hnewline
    rw [hphase] at hmem
    cases hmem
  refine ⟨left, ⟨hleft.received, fun fd si' hinfo hconn ↦ ?_⟩, fun hnewline ↦ absurd hnewline hnone⟩
  have hconn' := hhandles.closed fd conn hconn
  rcases hhandles.kept fd si' hinfo with ⟨si, hsi, hrecv⟩ | ⟨hregisters, hempty⟩
  · rw [hrecv]
    exact hleft.buffer fd si hsi hconn'
  · -- a connection registered by this command has sent nothing
    have hmem : queued ∈ state.pipeline.queued := hqueued ▸ List.mem_cons_self
    have hown : state.kernel.conn fd = some queued.conn :=
      (howned.register_fresh hmem hregisters).1
    have howner : (fd, conn) ∈ state.pipeline.owners := by
      have hsame : conn = queued.conn := Option.some.inj (hconn'.symm.trans hown)
      rw [Pipeline.owners_handled env hqueued, hregisters, hsame]
      exact List.mem_append_left _ (List.mem_singleton.mpr rfl)
    obtain ⟨hreceived, hlines⟩ := hheard.nothing howner
    have hnothing := hleft.received
    rw [show state.ledger.receivedOf conn = [] from hreceived,
      show state.ledger.linesOf conn = [] from hlines] at hnothing
    rw [hempty, ← hnothing.symm]
    rfl

/-- A callback after which a complete line is left is one of a read event, and the event goes on. -/
theorem dispatchStage_goes_on {env : IoEnv} {stage : Stage} {event : Event} {si : SocketInfo}
    (hgoes : stage = .recv → isErrorEvent event.mask = false → isReadEvent event.mask = true →
      Transfers env si → newline ∈ env.reads.reports.flatten → StaysOpen env event.mask)
    (hbefore : newline ∈ si.recv.currentData → stage ≠ .recv ∧ isReadEvent event.mask = true)
    (hafter : newline ∈ (dispatchStage env stage event.mask si).info.recv.currentData) :
    isReadEvent event.mask = true ∧ ((dispatchStage env stage event.mask si).next = some .send ∨
      (dispatchStage env stage event.mask si).next = some .execute) := by
  have hold : stage = .recv → newline ∉ si.recv.currentData := by
    intro hstage hmem
    exact (hbefore hmem).1 hstage
  cases stage with
  | recv =>
    unfold dispatchStage at hafter ⊢
    dsimp only at hafter ⊢
    by_cases herror : isErrorEvent event.mask = true
    · rw [if_pos herror] at hafter
      rw [(EpollServer.calls_handleClientError si).receives.currentData, List.append_nil] at hafter
      exact absurd hafter (hold rfl)
    rw [if_neg herror] at hafter ⊢
    by_cases hread : isReadEvent event.mask = true
    · rw [if_pos hread] at hafter ⊢
      have htransfers : Transfers env si := by
        by_contra hwaits
        rw [handleRecv_of_not_transfers hwaits] at hafter
        exact hold rfl hafter
      obtain ⟨data, harrived, hcalls⟩ := EpollServer.calls_handleRecv env event.mask si
      rw [hcalls.receives.currentData] at hafter
      have hnew := (List.mem_append.mp hafter).resolve_left (hold rfl)
      have hopen := hgoes rfl (Bool.eq_false_iff.mpr herror) hread htransfers (harrived hnew)
      rw [handleRecv_goes_on htransfers hopen, if_pos rfl]
      exact ⟨hread, Or.inl rfl⟩
    · rw [if_neg hread] at hafter
      exact absurd hafter (hold rfl)
  | send =>
    have hdata : (dispatchStage env .send event.mask si).info.recv.currentData =
        si.recv.currentData := by
      unfold dispatchStage
      dsimp only
      split_ifs
      · rw [(EpollServer.calls_handleSend env si).receives.currentData, List.append_nil]
      · rfl
    rw [hdata] at hafter
    refine ⟨(hbefore hafter).2, Or.inr ?_⟩
    unfold dispatchStage
    dsimp only
    split_ifs <;> rfl
  | execute =>
    unfold dispatchStage at hafter ⊢
    dsimp only at hafter ⊢
    by_cases hread : isReadEvent event.mask = true
    · rw [if_pos hread] at hafter ⊢
      by_cases hline : newline ∈ si.recv.currentData
      · obtain ⟨line, -, hagain, -⟩ := EpollServer.handleExecute_of_mem hline
        rw [hagain, if_pos rfl]
        exact ⟨hread, Or.inr rfl⟩
      · rw [EpollServer.handleExecute_of_notMem hline] at hafter
        exact absurd hafter hline
    · rw [if_neg hread] at hafter
      exact absurd (hbefore hafter).2 hread

theorem receivedOf_dispatched (state : ServerState) (event : Event) (rest : List Event)
    (si : SocketInfo) (result : Dispatched) (conn : Nat) :
    (state.dispatched event rest si result).ledger.receivedOf conn =
      state.ledger.receivedOf conn ++
        if state.kernel.connOf event.fd = conn then
          result.info.recv.currentData.drop si.recv.currentData.length
        else [] := by
  have hreceived : (state.dispatched event rest si result).ledger.received =
      state.ledger.received ++ [(state.kernel.connOf event.fd,
        result.info.recv.currentData.drop si.recv.currentData.length)] := rfl
  rw [Ledger.receivedOf, hreceived, valuesOf_append, List.flatten_append, ← Ledger.receivedOf,
    valuesOf_singleton]
  split_ifs <;> simp

/-- What a callback receives and takes out: the record grows by it, and what is left of the
connection at hand is left in its buffer. -/
theorem Left.dispatched {conn : Nat} {left : Bytes} (hleft : state.Left conn left)
    (howned : state.pipeline.Owned) {event : Event} (rest : List Event) {si : SocketInfo}
    {result : Dispatched} (hinfo : state.registry.infos.lookup event.fd = some si)
    (hresult : Dispatches si result) :
    (state.dispatched event rest si result).Left conn
      (if state.kernel.connOf event.fd = conn then result.info.recv.currentData else left) := by
  have hopen : state.kernel.conn event.fd = some (state.kernel.connOf event.fd) :=
    (Pipeline.registeredAt_eq_some.mp (howned.registeredAt_connOf hinfo)).2
  have hlinesOf : (state.dispatched event rest si result).ledger.linesOf conn =
      state.ledger.linesOf conn ++
        if state.kernel.connOf event.fd = conn then result.line.toList else [] :=
    @Pipeline.linesOf_dispatched state.pipeline event.fd si result conn
  constructor
  · rw [receivedOf_dispatched, hlinesOf]
    by_cases hsame : state.kernel.connOf event.fd = conn
    · have hbuffer : si.recv.currentData = left :=
        hleft.buffer event.fd si hinfo (hsame ▸ hopen)
      rw [if_pos hsame, if_pos hsame, if_pos hsame, hleft.received]
      have hline := hresult.line
      cases hparsed : result.line with
      | none =>
        simp only [hparsed] at hline
        obtain ⟨⟨data, hdata⟩, -⟩ := hline
        rw [hdata, List.drop_left, hbuffer, Option.toList_none, List.append_nil, List.append_assoc]
      | some line =>
        simp only [hparsed] at hline
        obtain ⟨-, hdata, -⟩ := hline
        have hshorter : result.info.recv.currentData.length ≤ si.recv.currentData.length := by
          rw [hdata, List.length_append, List.length_cons]
          omega
        rw [List.drop_eq_nil_of_le hshorter, List.append_nil, ← hbuffer, hdata, Option.toList_some,
          DelimitedStream.joined_concat, List.append_assoc, List.append_assoc,
          List.singleton_append]
    · rw [if_neg hsame, if_neg hsame, if_neg hsame, List.append_nil, List.append_nil]
      exact hleft.received
  · intro other si' hother hconn
    have hother' : (state.registry.infos.insert event.fd result.info).lookup other = some si' :=
      hother
    rcases EpollRegistry.lookup_insert_eq_some.mp hother' with ⟨rfl, rfl⟩ | ⟨hne, hold⟩
    · rw [if_pos (Option.some.inj (hopen.symm.trans hconn))]
    · rw [if_neg]
      · exact hleft.buffer other si' hold hconn
      · rintro rfl
        exact hne (howned.injective other event.fd _ hconn hopen)

theorem LinesTaken.dispatched (htaken : state.LinesTaken) (howned : state.pipeline.Owned)
    {env : IoEnv} {stage : Stage} {event : Event} {rest : List Event} {si : SocketInfo}
    (hphase : state.phase = .dispatching stage (event :: rest))
    (hinfo : state.registry.infos.lookup event.fd = some si)
    (harrive : LinesArriveOpen state (.dispatch env)) :
    (state.dispatched event rest si (dispatchStage env stage event.mask si)).LinesTaken := by
  have hresult := dispatches_dispatchStage env stage event.mask si
  have hopen : state.kernel.conn event.fd = some (state.kernel.connOf event.fd) :=
    (Pipeline.registeredAt_eq_some.mp (howned.registeredAt_connOf hinfo)).2
  -- only the event at hand can have a line that is not taken yet
  have hbegun : ∀ other ∈ state.phase.begun, other = event ∧ stage ≠ .recv := by
    intro other hother
    rw [hphase] at hother
    cases stage with
    | recv => cases hother
    | send => exact ⟨(Option.some.inj hother).symm, by simp⟩
    | execute => exact ⟨(Option.some.inj hother).symm, by simp⟩
  intro conn
  obtain ⟨left, hleft, hevent⟩ := htaken conn
  refine ⟨_, hleft.dispatched howned rest hinfo hresult, fun hnewline ↦ ?_⟩
  split_ifs at hnewline with hsame
  · have hbuffer : si.recv.currentData = left := hleft.buffer event.fd si hinfo (hsame ▸ hopen)
    have hstage : stage = .recv → isErrorEvent event.mask = false →
        isReadEvent event.mask = true → Transfers env si → newline ∈ env.reads.reports.flatten →
          StaysOpen env event.mask := by
      rintro rfl
      exact harrive event (by rw [hphase]; rfl) si hinfo
    have hbefore : newline ∈ si.recv.currentData →
        stage ≠ .recv ∧ isReadEvent event.mask = true := by
      intro hmem
      rw [hbuffer] at hmem
      obtain ⟨other, hother, hread, -⟩ := hevent hmem
      obtain ⟨rfl, hne⟩ := hbegun other hother
      exact ⟨hne, hread⟩
    obtain ⟨hread, hnext⟩ := dispatchStage_goes_on hstage hbefore hnewline
    refine ⟨event, ?_, hread, ?_, hsame ▸ hopen⟩
    · unfold ServerState.dispatched
      rcases hnext with hnext | hnext <;> rw [hnext] <;> rfl
    · exact (@Pipeline.mem_infos_dispatched state.pipeline event.fd si hinfo _ event.fd).mpr
        (Finmap.mem_of_lookup_eq_some hinfo)
  · obtain ⟨other, hother, -, -, hconn⟩ := hevent hnewline
    obtain ⟨rfl, -⟩ := hbegun other hother
    exact absurd (Option.some.inj (hopen.symm.trans hconn)) hsame

theorem LinesTaken.step [LinearOrder Bytes] {label : ServerLabel} (htaken : state.LinesTaken)
    (howned : state.pipeline.Owned) (hheard : state.pipeline.Heard)
    (harrive : LinesArriveOpen state label) (hstep : chatServer.step state label = some next) :
    next.LinesTaken := by
  have hsame : ∀ fd, fd ∈ state.registry.infos → state.kernel.conn fd = state.kernel.conn fd :=
    fun _ _ ↦ rfl
  cases transition_of_step hstep with
  | accept fd hfd hclosed hidle =>
    refine htaken.mono rfl rfl rfl (fun other hother ↦ ?_) fun event hevent _ ↦ hevent
    obtain ⟨conn, hconn⟩ := howned.registered other hother
    have hne : other ≠ fd := by
      rintro rfl
      rw [show state.pipeline.kernel.conn other = none from Pipeline.conn_eq_none.mpr hclosed]
        at hconn
      cases hconn
    exact (@Pipeline.conn_accepted state.pipeline fd other).trans (if_neg hne)
  | requestRegister fd conn hacceptor =>
    exact htaken.mono rfl rfl rfl hsame fun event hevent _ ↦ hevent
  | epollWait events hphase hinterest hnodup =>
    exact htaken.mono rfl rfl rfl hsame fun event hevent _ ↦ by rw [hphase] at hevent; cases hevent
  | swap events hphase =>
    exact htaken.mono rfl rfl rfl hsame fun event hevent _ ↦ by rw [hphase] at hevent; cases hevent
  | handle env queued pending events hphase => exact htaken.handled howned hheard env hphase
  | workDone events hphase =>
    exact htaken.mono rfl rfl rfl hsame fun event hevent _ ↦ by rw [hphase] at hevent; cases hevent
  | skip env stage event rest hphase hinfo =>
    refine htaken.mono rfl rfl rfl hsame fun other hother hregistered ↦ ?_
    -- the event that ends has no connection
    have hevent : other = event := by
      rw [hphase] at hother
      cases stage with
      | recv => cases hother
      | send => exact (Option.some.inj hother).symm
      | execute => exact (Option.some.inj hother).symm
    rw [hevent, Finmap.mem_iff] at hregistered
    obtain ⟨si, hsi⟩ := hregistered
    rw [hinfo] at hsi
    cases hsi
  | dispatch env stage event rest si hphase hinfo =>
    exact htaken.dispatched howned hphase hinfo harrive
  | dispatchDone stage hphase =>
    refine htaken.mono rfl rfl rfl hsame fun event hevent _ ↦ ?_
    rw [hphase] at hevent
    cases stage <;> cases hevent
  | take env entry rest hworker htasks =>
    exact htaken.mono rfl rfl rfl hsame fun event hevent _ ↦ hevent
  | push entry queued todo hworker =>
    exact htaken.mono rfl rfl rfl hsame fun event hevent _ ↦ hevent
  | finish entry hworker => exact htaken.mono rfl rfl rfl hsame fun event hevent _ ↦ hevent

end ServerState

theorem linesTaken_of_open [LinearOrder Bytes] {state : ServerState}
    (hreach : chatServer.ReachableUnder LinesArriveOpen state) : state.LinesTaken := by
  have hstart : ServerState.start.LinesTaken := by
    refine fun conn ↦ ⟨[], ⟨rfl, fun fd si hinfo ↦ ?_⟩, fun hnewline ↦ ?_⟩
    · cases hinfo
    · cases hnewline
  exact TransitionSystem.ReachableUnder.induction hstart
    (fun state label next hreach htaken harrive hstep ↦
      htaken.step (owned_of_reachable hreach) (heard_of_reachable hreach) harrive hstep) hreach

/-! ### Runs in which lines arrive before the peer closes -/

/-- When no read event in which the end of a line arrives reports that the peer has closed, every
line received is handed to `decode`, once and in order. -/
theorem linesKept_of_open [LinearOrder Bytes] {state : ServerState}
    (hreach : chatServer.ReachableUnder LinesArriveOpen state) : state.LinesKept := by
  intro conn
  obtain ⟨left, hleft, hevent⟩ := linesTaken_of_open hreach conn
  have hwhole : ∀ line ∈ state.ledger.linesOf conn, newline ∉ line := by
    intro line hline
    obtain ⟨record, hrecord, rfl⟩ := List.mem_map.mp hline
    exact (heard_of_reachable hreach).whole record (List.mem_of_mem_filter hrecord)
  rw [hleft.received, DelimitedStream.records_joined_append hwhole]
  refine ⟨List.prefix_append _ _, fun hidle ↦ ?_⟩
  have hnone : newline ∉ left := by
    intro hnewline
    obtain ⟨event, hmem, -, -, hconn⟩ := hevent hnewline
    exact hidle event hmem hconn
  rw [DelimitedStream.records_eq_nil_iff.mpr hnone, List.append_nil]

/-- A client sends a command, and closes when it has been taken. -/
def waitingClient : List ServerLabel :=
  connecting 5 ++ round [] 1 [] ++ sending 5 [.cmdRegister (text "a") (text "p")] ++
    round [(5, epollIn ||| epollRdhup)] 0 [[]]

theorem linesKept_of_open_waiting :
    ∃ state, (@chatServer bytewise).run ServerState.start waitingClient = some state ∧
      state.ledger.linesOf 0 = [text "register\ra\rp"] ∧ state.LinesKept := by
  let order := bytewise
  have hmeets : (@chatServer bytewise).Meets LinesArriveOpen ServerState.start waitingClient := by
    decide +kernel
  have hrun : (((@chatServer bytewise).run ServerState.start waitingClient).map fun state ↦
      state.ledger.linesOf 0) = some [text "register\ra\rp"] := by decide +kernel
  obtain ⟨state, hstate, hlines⟩ := Option.map_eq_some_iff.mp hrun
  exact ⟨state, hstate, hlines, linesKept_of_open ⟨waitingClient, hmeets, hstate⟩⟩

end ChatServer
