import ChatServer.Net.SentStream
import ChatServer.Server.ReceivedLines
import ChatServer.Server.WriteInterest

/-!
# What a callback transmits

A callback sends the front of the send buffer, or leaves it. `dispatchWrites` are the calls of
`tls_session::write` that it makes, and `SocketInfo.Transmits` is what they have to do with the
connection it leaves: a stream that the earlier calls followed is followed by these too, the TLS
session does not go back to its handshake, and there are calls only when the handshake is done
(`transmits_dispatchStage`). Nor is anything received before (`receives_dispatchStage`).
-/

set_option autoImplicit false
set_option relaxedAutoImplicit false

namespace ChatServer

/-! ### Connections under transmission -/

/-- What these calls of `write` have to do with the connection before and after them. -/
structure SocketInfo.Transmits (before after : SocketInfo) (writes : List TlsWrite) : Prop where
  follows : ∀ made stream, Sending.Follows ⟨before, made⟩ stream →
    Sending.Follows ⟨after, made ++ writes⟩ stream
  hasSsl : before.tls.hasSsl = true → after.tls.hasSsl = true
  done : before.tls.handshakeDone = true → after.tls.handshakeDone = true
  written : writes ≠ [] → after.tls.handshakeDone = true

namespace SocketInfo.Transmits

variable {before middle after : SocketInfo}

/-- The send buffer is left alone. -/
theorem of_send_eq (hsend : after.send = before.send)
    (hssl : before.tls.hasSsl = true → after.tls.hasSsl = true)
    (hdone : before.tls.handshakeDone = true → after.tls.handshakeDone = true) :
    before.Transmits after [] := by
  refine ⟨fun made stream hfollows ↦ ?_, hssl, hdone, fun hwrites ↦ absurd rfl hwrites⟩
  rw [List.append_nil]
  exact ⟨hsend ▸ hfollows.split, hfollows.chain, hsend ▸ hfollows.waiting⟩

/-- The send buffer and the TLS session are left alone. -/
theorem of_same (hsend : after.send = before.send) (htls : after.tls = before.tls) :
    before.Transmits after [] :=
  of_send_eq hsend (fun hssl ↦ htls ▸ hssl) fun hdone ↦ htls ▸ hdone

theorem trans {first second : List TlsWrite} (hfirst : before.Transmits middle first)
    (hsecond : middle.Transmits after second) : before.Transmits after (first ++ second) where
  follows made stream hfollows := by
    rw [← List.append_assoc]
    exact hsecond.follows _ _ (hfirst.follows _ _ hfollows)
  hasSsl hssl := hsecond.hasSsl (hfirst.hasSsl hssl)
  done hdone := hsecond.done (hfirst.done hdone)
  written hwrites := by
    by_cases hnone : first = []
    · refine hsecond.written fun hsecond ↦ hwrites ?_
      rw [hnone, hsecond, List.append_nil]
    · exact hsecond.done (hfirst.written hnone)

/-- A quiet step after the calls. -/
theorem quiet {writes : List TlsWrite} (hfirst : before.Transmits middle writes)
    (hsecond : middle.Transmits after []) : before.Transmits after writes := by
  rw [← List.append_nil writes]
  exact hfirst.trans hsecond

end SocketInfo.Transmits

/-! ### TLS sessions keep going -/

theorem TlsSession.hasSsl_transfer (tls : TlsSession) (len : Nat)
    (outcome : Except SslError Nat) : (tls.transfer len outcome).1.hasSsl = tls.hasSsl := by
  unfold TlsSession.transfer
  split_ifs
  · rfl
  · cases outcome with
    | ok count => rfl
    | error error => exact tls.hasSsl_finish _
  · rfl

theorem TlsSession.hasSsl_handshake (tls : TlsSession) (outcome : Option SslError) :
    (tls.handshake outcome).1.hasSsl = tls.hasSsl := by
  unfold TlsSession.handshake
  split_ifs
  · rfl
  · cases outcome with
    | none => rfl
    | some error => exact tls.hasSsl_finish _
  · rfl

/-- A handshake that has not succeeded before may now. -/
theorem TlsSession.handshakeDone_handshake {tls : TlsSession}
    (hdone : tls.handshakeDone = true) (outcome : Option SslError) :
    (tls.handshake outcome).1.handshakeDone = true := by
  unfold TlsSession.handshake
  split_ifs <;> exact hdone

theorem hasSsl_drainLoop (failure : SslError) (reports : List Bytes) (si : SocketInfo)
    (info : RecvInfo) : (drainLoop failure reports si info).1.tls.hasSsl = si.tls.hasSsl := by
  induction reports generalizing si info with
  | nil =>
    unfold drainLoop
    rw [drainStop_fst]
    exact si.tls.hasSsl_transfer _ _
  | cons data later ih =>
    have hssl := si.tls.hasSsl_transfer bufSize (.ok data.length)
    unfold drainLoop
    dsimp only
    split
    · rw [drainStop_fst]
      exact hssl
    · split_ifs
      · exact (ih _ _).trans hssl
      · rw [drainStop_fst]
        exact hssl

theorem hasSsl_flushLoop (failure : SslError) (reports : List Nat) (si : SocketInfo)
    (sent : Nat) : (flushLoop failure reports si sent).1.tls.hasSsl = si.tls.hasSsl := by
  have hstop : ∀ (left : SocketInfo) (io : Option TlsIoResult),
      (flushStop left sent io).1.tls = left.tls := by
    intro left io
    obtain ⟨send, hstop⟩ := flushStop_fst left sent io
    rw [hstop]
  induction reports generalizing si sent with
  | nil =>
    unfold flushLoop
    dsimp only
    split_ifs
    · rw [hstop]
      exact si.tls.hasSsl_transfer _ _
    · rfl
  | cons count later ih =>
    have hssl := si.tls.hasSsl_transfer si.send.remaining (.ok count)
    unfold flushLoop
    dsimp only
    split_ifs
    · rw [hstop]
      exact hssl
    · refine (ih _ _ fun left io ↦ ?_).trans hssl
      obtain ⟨send, hlast⟩ := flushStop_fst left _ io
      rw [hlast]
    · rfl

namespace EpollServer

/-- The calls of `write` that `handle_send` makes. -/
def sendWrites (env : IoEnv) (si : SocketInfo) : List TlsWrite :=
  let handshake := progressTlsHandshake env si
  if ¬ handshake.2 then []
  else
    let si := handshake.1.1
    if si.tls.hasSsl ∧ ¬ si.tls.handshakeDone then [] else flushWrites env.writes si

variable {env : IoEnv} {si : SocketInfo}

theorem transmits_handleDisconnect (si : SocketInfo) :
    si.Transmits (handleDisconnect si).1 [] := by
  unfold handleDisconnect
  split_ifs <;> exact .of_same rfl rfl

theorem transmits_handleClose (si : SocketInfo) : si.Transmits (handleClose si).1 [] := by
  unfold handleClose
  split_ifs
  · exact .of_same rfl rfl
  · exact transmits_handleDisconnect si

theorem transmits_syncTlsInterest (ok : Bool) (si : SocketInfo) :
    si.Transmits (syncTlsInterest ok si).1 [] := by
  rw [syncTlsInterest_fst]
  exact .of_same rfl rfl

theorem transmits_finishTransfer (env : IoEnv) (si : SocketInfo) :
    si.Transmits (finishTransfer env si).1.1 [] := by
  have hsync := transmits_syncTlsInterest env.syncOk si
  unfold finishTransfer
  dsimp only
  split_ifs
  · exact hsync
  · exact hsync.quiet (transmits_handleDisconnect _)

theorem transmits_progressTlsHandshake (env : IoEnv) (si : SocketInfo) :
    si.Transmits (progressTlsHandshake env si).1.1 [] := by
  unfold progressTlsHandshake
  by_cases hssl : ¬ si.tls.hasSsl
  · rw [if_pos hssl]
    exact .of_same rfl rfl
  by_cases hdone : si.tls.handshakeDone
  · rw [if_neg hssl, if_pos hdone]
    exact .of_same rfl rfl
  rw [if_neg hssl, if_neg hdone]
  have hshake : si.Transmits { si with tls := (si.tls.handshake env.handshake).1 } [] :=
    .of_send_eq rfl (fun hssl ↦ (si.tls.hasSsl_handshake _).trans hssl)
      fun hdone ↦ TlsSession.handshakeDone_handshake hdone _
  dsimp only
  cases (si.tls.handshake env.handshake).2 with
  | none => exact hshake.quiet (transmits_handleDisconnect _)
  | some io =>
    dsimp only
    split_ifs
    · exact hshake.quiet (transmits_handleClose _)
    · exact hshake.quiet (transmits_syncTlsInterest _ _)
    · exact (hshake.quiet (transmits_syncTlsInterest _ _)).quiet (transmits_handleDisconnect _)

/-! ### Sending -/

theorem transmits_flushSend (hdone : si.tls.handshakeDone = true) (writes : SslTransfer Nat) :
    si.Transmits (flushSend writes si).1 (flushWrites writes si) where
  follows made stream hfollows := hfollows.flush writes
  hasSsl hssl := by
    unfold flushSend
    rw [if_neg (not_not.mpr hssl)]
    exact (hasSsl_flushLoop _ _ _ _).trans hssl
  done hdone := (handshakeDone_flushSend writes si).trans hdone
  written _ := (handshakeDone_flushSend writes si).trans hdone

/-- `handle_send` sends the front of the send buffer, once the handshake is done. -/
theorem transmits_handleSend (hssl : si.tls.hasSsl = true) :
    si.Transmits (handleSend env si).1 (sendWrites env si) := by
  have hshake := transmits_progressTlsHandshake env si
  unfold handleSend sendWrites
  dsimp only
  by_cases hstops : ¬ (progressTlsHandshake env si).2
  · rw [if_pos hstops, if_pos hstops]
    exact hshake
  rw [if_neg hstops, if_neg hstops]
  by_cases hopen : (progressTlsHandshake env si).1.1.tls.hasSsl ∧
      ¬ (progressTlsHandshake env si).1.1.tls.handshakeDone
  · rw [if_pos hopen, if_pos hopen]
    exact hshake
  rw [if_neg hopen, if_neg hopen]
  have hdone : (progressTlsHandshake env si).1.1.tls.handshakeDone = true := by
    by_contra hundone
    exact hopen ⟨hshake.hasSsl hssl, hundone⟩
  have hflush := hshake.trans (transmits_flushSend hdone env.writes)
  cases (flushSend env.writes (progressTlsHandshake env si).1.1).2 with
  | none => exact hflush.quiet (transmits_handleDisconnect _)
  | some sent => exact hflush.quiet (transmits_finishTransfer env _)

/-! ### Receiving -/

theorem transmits_drainRecv (reads : SslTransfer Bytes) (si : SocketInfo) :
    si.Transmits (drainRecv reads si).1 [] := by
  have hdone := handshakeDone_drainRecv reads si
  obtain ⟨tls, data, -, -, hdrain⟩ := drainRecv_fst reads si
  refine .of_send_eq (by rw [hdrain]) (fun hssl ↦ ?_) fun hbefore ↦ hdone.trans hbefore
  unfold drainRecv
  rw [if_neg (not_not.mpr hssl)]
  exact (hasSsl_drainLoop _ _ _ _).trans hssl

/-- What `handle_recv` does after the handshake. -/
theorem transmits_handleRecv_rest (env : IoEnv) (event : UInt32) (si : SocketInfo) :
    (progressTlsHandshake env si).1.1.Transmits (handleRecv env event si).1.1 [] := by
  have hdrain := transmits_drainRecv env.reads (progressTlsHandshake env si).1.1
  unfold handleRecv
  dsimp only
  by_cases hstops : ¬ (progressTlsHandshake env si).2
  · rw [if_pos hstops]
    exact .of_same rfl rfl
  rw [if_neg hstops]
  by_cases hopen : (progressTlsHandshake env si).1.1.tls.hasSsl ∧
      ¬ (progressTlsHandshake env si).1.1.tls.handshakeDone
  · rw [if_pos hopen]
    exact .of_same rfl rfl
  rw [if_neg hopen]
  cases (drainRecv env.reads (progressTlsHandshake env si).1.1).2 with
  | none => exact hdrain.quiet (transmits_handleDisconnect _)
  | some info =>
    have hfinish := hdrain.quiet (transmits_finishTransfer env
      (drainRecv env.reads (progressTlsHandshake env si).1.1).1)
    dsimp only
    split_ifs
    · exact hfinish.quiet (transmits_handleClose _)
    · exact hfinish
    · exact hfinish

theorem handshakeDone_of_transfers (htransfers : Transfers env si) :
    (progressTlsHandshake env si).1.1.tls.handshakeDone = true := by
  obtain ⟨hssl, hready⟩ := htransfers
  unfold progressTlsHandshake
  rw [if_neg (not_not.mpr hssl)]
  by_cases hdone : si.tls.handshakeDone = true
  · rw [if_pos hdone]
    exact hdone
  · have hhandshake : si.tls.handshake env.handshake =
        ({ si.tls with handshakeDone := true }.applyState {}, some {}) := by
      unfold TlsSession.handshake
      rw [if_neg (not_not.mpr hssl), if_neg hdone, hready.resolve_left hdone]
      rfl
    rw [if_neg hdone, hhandshake]
    dsimp only
    rw [if_neg Bool.false_ne_true]
    have hsync := (transmits_syncTlsInterest env.handshakeSyncOk
      { si with tls := { si.tls with handshakeDone := true }.applyState {} }).done rfl
    split_ifs
    · exact hsync
    · exact (transmits_handleDisconnect _).done hsync

/-- `handle_recv` receives nothing as long as the handshake is not done. -/
theorem recv_of_handshaking {event : UInt32}
    (hundone : (handleRecv env event si).1.1.tls.handshakeDone = false) :
    (handleRecv env event si).1.1.recv.currentData = si.recv.currentData := by
  refine handleRecv_of_not_transfers (fun htransfers ↦ ?_) event
  have hdone := (transmits_handleRecv_rest env event si).done
    (handshakeDone_of_transfers htransfers)
  rw [hundone] at hdone
  cases hdone

end EpollServer

/-! ### Every callback -/

/-- The calls of `write` that a callback makes. -/
def dispatchWrites (env : IoEnv) (stage : Stage) (event : UInt32) (si : SocketInfo) :
    List TlsWrite :=
  match stage with
  | .send => if isWriteEvent event then EpollServer.sendWrites env si else []
  | .recv | .execute => []

/-- A callback sends the front of the send buffer, or leaves it alone. -/
theorem transmits_dispatchStage {env : IoEnv} {stage : Stage} {event : UInt32} {si : SocketInfo}
    (hssl : si.tls.hasSsl = true) :
    si.Transmits (dispatchStage env stage event si).info (dispatchWrites env stage event si) := by
  unfold dispatchStage dispatchWrites
  cases stage with
  | recv =>
    dsimp only
    by_cases herror : isErrorEvent event = true
    · rw [if_pos herror]
      unfold EpollServer.handleClientError
      by_cases hclosed : si.isClosed = true
      · rw [if_pos hclosed]
        exact .of_same rfl rfl
      · rw [if_neg hclosed]
        exact EpollServer.transmits_handleDisconnect si
    rw [if_neg herror]
    by_cases hread : isReadEvent event = true
    · rw [if_pos hread]
      exact (EpollServer.transmits_progressTlsHandshake env si).quiet
        (EpollServer.transmits_handleRecv_rest env event si)
    · rw [if_neg hread]
      exact .of_same rfl rfl
  | send =>
    dsimp only
    by_cases hwrite : isWriteEvent event = true
    · rw [if_pos hwrite, if_pos hwrite]
      exact EpollServer.transmits_handleSend hssl
    · rw [if_neg hwrite, if_neg hwrite]
      exact .of_same rfl rfl
  | execute =>
    dsimp only
    by_cases hread : isReadEvent event = true
    · obtain ⟨recv, hinfo⟩ := EpollServer.handleExecute_info si
      rw [if_pos hread]
      dsimp only
      rw [hinfo]
      exact .of_same rfl rfl
    · rw [if_neg hread]
      exact .of_same rfl rfl

/-- A callback that leaves the handshake unfinished has received nothing. -/
theorem receives_dispatchStage {env : IoEnv} {stage : Stage} {event : UInt32} {si : SocketInfo}
    (hundone : (dispatchStage env stage event si).info.tls.handshakeDone = false) :
    (dispatchStage env stage event si).info.recv.currentData.drop si.recv.currentData.length =
      [] := by
  have hnothing : ∀ {after : SocketInfo} {data : Bytes}, si.Receives after data → data = [] →
      after.recv.currentData.drop si.recv.currentData.length = [] := by
    intro after data hreceives hdata
    rw [hreceives.currentData, hdata, List.append_nil, List.drop_length]
  have hsame : (si.recv.currentData).drop si.recv.currentData.length = [] := List.drop_length
  unfold dispatchStage at hundone ⊢
  cases stage with
  | recv =>
    dsimp only at hundone ⊢
    by_cases herror : isErrorEvent event = true
    · rw [if_pos herror]
      exact hnothing (EpollServer.calls_handleClientError si).receives rfl
    rw [if_neg herror] at hundone ⊢
    by_cases hread : isReadEvent event = true
    · rw [if_pos hread] at hundone ⊢
      dsimp only at hundone ⊢
      rw [EpollServer.recv_of_handshaking hundone]
      exact hsame
    · rw [if_neg hread]
      exact hsame
  | send =>
    dsimp only
    by_cases hwrite : isWriteEvent event = true
    · rw [if_pos hwrite]
      exact hnothing (EpollServer.calls_handleSend env si).receives rfl
    · rw [if_neg hwrite]
      exact hsame
  | execute =>
    dsimp only
    by_cases hread : isReadEvent event = true
    · -- a line is taken out of the receive buffer
      rw [if_pos hread]
      refine List.drop_eq_nil_of_le ?_
      by_cases hline : newline ∈ si.recv.currentData
      · obtain ⟨line, -, -, -, hdata, -⟩ := EpollServer.handleExecute_of_mem hline
        dsimp only
        rw [hdata, List.length_append, List.length_cons]
        omega
      · rw [EpollServer.handleExecute_of_notMem hline]
    · rw [if_neg hread]
      exact hsame

end ChatServer
