import ChatServer.Database.DbExecutor

/-!
# The callbacks of the event loop

`epoll_server` hands four callbacks to the event loop. Each works on one connection. A callback
returns the connection it leaves and the commands it queues to the registry, of which there is at
most one; `handleExecute` also returns the line it took out of the receive buffer and the task it
queued for the database.

`IoEnv` is what OpenSSL and `epoll_ctl` answer during one callback.

Not modelled here: logging, `SSL_shutdown` and `getsockopt`, whose results are only logged, the
thread pool, to which no command is ever given because `is_pool_command` is constantly false, and
the case that the executor has been stopped, which happens after the event loop has ended.
-/

set_option autoImplicit false
set_option relaxedAutoImplicit false

namespace ChatServer

/-- What a callback takes from outside: the error of `SSL_do_handshake`, the answers of
`epoll_ctl` after the handshake and after the transfer, and the calls of the transfer loop. -/
structure IoEnv where
  handshake : Option SslError
  handshakeSyncOk : Bool
  reads : SslTransfer Bytes
  writes : SslTransfer Nat
  syncOk : Bool

namespace EpollServer

/-- A connection and the commands queued for it. -/
abbrev Called := SocketInfo × List RegistryCommand

/-- `sync_tls_interest`, with the answer of `epoll_ctl`; the flag is whether it succeeds. -/
def syncTlsInterest (ok : Bool) (si : SocketInfo) : SocketInfo × Bool :=
  let nextInterest :=
    if si.send.hasPending || si.tls.wantWrite then si.interest ||| epollOut
    else si.interest &&& ~~~epollOut
  if nextInterest = si.interest then (si, true) else ({ si with interest := nextInterest }, ok)

/-- `handle_disconnect`. -/
def handleDisconnect (si : SocketInfo) : Called :=
  if si.isClosed then (si, []) else ({ si with isClosed := true }, [.unregister si.ufd])

/-- `handle_close`. -/
def handleClose (si : SocketInfo) : Called :=
  if si.isClosed then (si, []) else handleDisconnect si

/-- `progress_tls_handshake`; the flag is whether it succeeds. -/
def progressTlsHandshake (env : IoEnv) (si : SocketInfo) : Called × Bool :=
  if ¬ si.tls.hasSsl then ((si, []), true)
  else if si.tls.handshakeDone then ((si, []), true)
  else
    let handshake := si.tls.handshake env.handshake
    let si := { si with tls := handshake.1 }
    match handshake.2 with
    | none => (handleDisconnect si, false)
    | some io =>
      if io.closed then (handleClose si, false)
      else
        let sync := syncTlsInterest env.handshakeSyncOk si
        if ¬ sync.2 then (handleDisconnect sync.1, false) else ((sync.1, []), true)

/-- The end of `handle_send` and, for an open connection, of `handle_recv`. -/
def finishTransfer (env : IoEnv) (si : SocketInfo) : Called × Bool :=
  let sync := syncTlsInterest env.syncOk si
  if ¬ sync.2 then (handleDisconnect sync.1, false) else ((sync.1, []), true)

/-- `handle_send`. -/
def handleSend (env : IoEnv) (si : SocketInfo) : Called :=
  let handshake := progressTlsHandshake env si
  if ¬ handshake.2 then handshake.1
  else
    let si := handshake.1.1
    if si.tls.hasSsl ∧ ¬ si.tls.handshakeDone then handshake.1
    else
      let flushed := flushSend env.writes si
      match flushed.2 with
      | none => handleDisconnect flushed.1
      | some _ => (finishTransfer env flushed.1).1

/-- `handle_recv`; the flag is whether the event goes on. -/
def handleRecv (env : IoEnv) (event : UInt32) (si : SocketInfo) : Called × Bool :=
  let handshake := progressTlsHandshake env si
  if ¬ handshake.2 then (handshake.1, false)
  else
    let si := handshake.1.1
    if si.tls.hasSsl ∧ ¬ si.tls.handshakeDone then (handshake.1, true)
    else
      let drained := drainRecv env.reads si
      match drained.2 with
      | none => (handleDisconnect drained.1, false)
      | some info =>
        let finished := finishTransfer env drained.1
        if ¬ finished.2 then finished
        else if info.closed ∨ event &&& epollRdhup ≠ 0 then (handleClose finished.1.1, false)
        else (finished.1, true)

/-- `handle_client_error` on the connection it finds. -/
def handleClientError (si : SocketInfo) : Called :=
  if si.isClosed then (si, []) else handleDisconnect si

/-- What one call of `handle_execute` did. -/
structure Execute where
  info : SocketInfo
  line : Option Bytes := none
  task : Option Task := none
  requests : List RegistryCommand := []
  again : Bool

/-- `handle_execute`. -/
def handleExecute (si : SocketInfo) : Execute :=
  match si.recv.parseLine with
  | none => { info := si, again := false }
  | some (line, recv) =>
    let si := { si with recv := recv }
    match decode line with
    | .error _ => { info := si, line := some line, again := true }
    | .ok cmd =>
      if isDbCommand cmd then
        { info := si, line := some line, again := true
          task := some { cmd := cmd, fd := si.ufd, userId := si.userId } }
      else
        -- `is_pool_command` holds of no command, so that the other pool gets none
        match cmd with
        | .cmdSay _ message =>
          { info := si, line := some line, again := true
            requests := [.broadcast si.ufd (.cmdResponse message)] }
        | .cmdNick nick =>
          { info := si, line := some line, again := true
            requests := [.changeNickname si.ufd nick] }
        | .cmdResponse message =>
          { info := si, line := some line, again := true
            requests := [.sendOne si.ufd (.cmdResponse message)] }
        | _ => { info := si, line := some line, again := true }

/-! ### What a callback changes -/

/-- A callback adds these bytes to the receive buffer, keeps the identity, and queues at most the
request to unregister the connection. -/
structure Calls (before : SocketInfo) (after : Called) (data : Bytes) : Prop where
  receives : before.Receives after.1 data
  requests : after.2 = [] ∨ after.2 = [.unregister before.ufd]

variable {env : IoEnv} {si : SocketInfo}

theorem Calls.refl (si : SocketInfo) : Calls si (si, []) [] :=
  ⟨SocketInfo.Receives.of_recv_eq rfl (SocketInfo.SameIdentity.refl si), Or.inl rfl⟩

/-- Bytes received first, then a callback that queues. -/
theorem Calls.after {before middle : SocketInfo} {after : Called} {data more : Bytes}
    (hcalls : Calls middle after more) (hfirst : before.Receives middle data) :
    Calls before after (data ++ more) :=
  ⟨hfirst.trans hcalls.receives, by rw [← hfirst.identity.ufd]; exact hcalls.requests⟩

theorem calls_handleDisconnect (si : SocketInfo) : Calls si (handleDisconnect si) [] := by
  unfold handleDisconnect
  split_ifs
  · exact Calls.refl si
  · exact ⟨SocketInfo.Receives.of_recv_eq rfl ⟨rfl, rfl, rfl, rfl⟩, Or.inr rfl⟩

theorem calls_handleClose (si : SocketInfo) : Calls si (handleClose si) [] := by
  unfold handleClose
  split_ifs
  · exact Calls.refl si
  · exact calls_handleDisconnect si

theorem receives_syncTlsInterest (ok : Bool) (si : SocketInfo) :
    si.Receives (syncTlsInterest ok si).1 [] := by
  unfold syncTlsInterest
  dsimp only
  split_ifs <;> exact SocketInfo.Receives.of_recv_eq rfl ⟨rfl, rfl, rfl, rfl⟩

theorem calls_finishTransfer (env : IoEnv) (si : SocketInfo) :
    Calls si (finishTransfer env si).1 [] := by
  unfold finishTransfer
  dsimp only
  split_ifs
  · exact (Calls.refl _).after (receives_syncTlsInterest env.syncOk si)
  · exact (calls_handleDisconnect _).after (receives_syncTlsInterest env.syncOk si)

/-- A handshake that goes on queues nothing; one that does not ends the callback. -/
theorem progressTlsHandshake_cases (env : IoEnv) (si : SocketInfo) :
    ((progressTlsHandshake env si).2 = true ∧ (progressTlsHandshake env si).1.2 = [] ∧
      si.Receives (progressTlsHandshake env si).1.1 []) ∨
    ((progressTlsHandshake env si).2 = false ∧ Calls si (progressTlsHandshake env si).1 []) := by
  have hsame : si.Receives si [] :=
    SocketInfo.Receives.of_recv_eq rfl (SocketInfo.SameIdentity.refl si)
  have htls : si.Receives { si with tls := (si.tls.handshake env.handshake).1 } [] :=
    SocketInfo.Receives.of_recv_eq rfl ⟨rfl, rfl, rfl, rfl⟩
  unfold progressTlsHandshake
  by_cases hssl : ¬ si.tls.hasSsl
  · rw [if_pos hssl]
    exact Or.inl ⟨rfl, rfl, hsame⟩
  by_cases hdone : si.tls.handshakeDone
  · rw [if_neg hssl, if_pos hdone]
    exact Or.inl ⟨rfl, rfl, hsame⟩
  rw [if_neg hssl, if_neg hdone]
  dsimp only
  cases (si.tls.handshake env.handshake).2 with
  | none => exact Or.inr ⟨rfl, (calls_handleDisconnect _).after htls⟩
  | some io =>
    dsimp only
    split_ifs
    · exact Or.inr ⟨rfl, (calls_handleClose _).after htls⟩
    · exact Or.inl ⟨rfl, rfl, htls.trans (receives_syncTlsInterest _ _)⟩
    · exact Or.inr ⟨rfl, (calls_handleDisconnect _).after
        (htls.trans (receives_syncTlsInterest _ _))⟩

/-- `handle_send` leaves the receive buffer alone. -/
theorem calls_handleSend (env : IoEnv) (si : SocketInfo) : Calls si (handleSend env si) [] := by
  unfold handleSend
  rcases progressTlsHandshake_cases env si with ⟨hgoes, hquiet, hshake⟩ | ⟨hstops, hcalls⟩
  · have hdone : Calls si (progressTlsHandshake env si).1 [] := ⟨hshake, Or.inl hquiet⟩
    dsimp only
    rw [if_neg (by simp [hgoes])]
    by_cases hopen : (progressTlsHandshake env si).1.1.tls.hasSsl ∧
        ¬ (progressTlsHandshake env si).1.1.tls.handshakeDone
    · rw [if_pos hopen]
      exact hdone
    · rw [if_neg hopen]
      have hflush := hshake.trans (flushSend_receives env.writes _)
      cases (flushSend env.writes (progressTlsHandshake env si).1.1).2 with
      | none => exact (calls_handleDisconnect _).after hflush
      | some sent => exact (calls_finishTransfer env _).after hflush
  · dsimp only
    rw [if_pos (by simp [hstops])]
    exact hcalls

/-- `handle_recv` only adds bytes to the receive buffer, of those that arrive. -/
theorem calls_handleRecv (env : IoEnv) (event : UInt32) (si : SocketInfo) :
    ∃ data, data ⊆ env.reads.reports.flatten ∧ Calls si (handleRecv env event si).1 data := by
  unfold handleRecv
  rcases progressTlsHandshake_cases env si with ⟨hgoes, hquiet, hshake⟩ | ⟨hstops, hcalls⟩
  · have hdone : Calls si (progressTlsHandshake env si).1 [] := ⟨hshake, Or.inl hquiet⟩
    dsimp only
    rw [if_neg (by simp [hgoes])]
    by_cases hopen : (progressTlsHandshake env si).1.1.tls.hasSsl ∧
        ¬ (progressTlsHandshake env si).1.1.tls.handshakeDone
    · rw [if_pos hopen]
      exact ⟨[], List.nil_subset _, hdone⟩
    · rw [if_neg hopen]
      obtain ⟨data, harrived, hdata⟩ :=
        drainRecv_receives env.reads (progressTlsHandshake env si).1.1
      have hdrain := hshake.trans hdata
      refine ⟨data, harrived, ?_⟩
      rw [List.nil_append] at hdrain
      rw [← List.append_nil data]
      cases (drainRecv env.reads (progressTlsHandshake env si).1.1).2 with
      | none => exact (calls_handleDisconnect _).after hdrain
      | some info =>
        have hfinish := calls_finishTransfer env
          (drainRecv env.reads (progressTlsHandshake env si).1.1).1
        dsimp only
        split_ifs
        · have hfinished := hdrain.trans hfinish.receives
          rw [List.append_nil] at hfinished
          exact (calls_handleClose _).after hfinished
        · exact hfinish.after hdrain
        · exact hfinish.after hdrain
  · dsimp only
    rw [if_pos (by simp [hstops])]
    exact ⟨[], List.nil_subset _, hcalls⟩

/-- `handle_client_error` leaves the receive buffer alone. -/
theorem calls_handleClientError (si : SocketInfo) : Calls si (handleClientError si) [] := by
  unfold handleClientError
  split_ifs
  · exact Calls.refl si
  · exact calls_handleDisconnect si

/-! ### What `handle_execute` takes -/

/-- Without a complete line `handle_execute` does nothing. -/
theorem handleExecute_of_notMem (hline : newline ∉ si.recv.currentData) :
    handleExecute si = { info := si, again := false } := by
  unfold handleExecute
  rw [OffsetBuffer.parseLine_eq_none.mpr hline]

/-- The command a line gives to the database executor, if it decodes to one. -/
def dbCommandOf (line : Bytes) : Option Command :=
  match decode line with
  | .error _ => none
  | .ok cmd => if isDbCommand cmd then some cmd else none

theorem decode_of_dbCommandOf {line : Bytes} {cmd : Command} (hcmd : dbCommandOf line = some cmd) :
    decode line = .ok cmd := by
  unfold dbCommandOf at hcmd
  split at hcmd
  · cases hcmd
  · next decoded hdecode =>
    split_ifs at hcmd
    rw [hdecode, Option.some.inj hcmd]

/-- With a complete line `handle_execute` hands it to `decode` and goes on. What it queues is a
task with the descriptor and the user of the connection, or a request for its descriptor. -/
theorem handleExecute_of_mem (hline : newline ∈ si.recv.currentData) :
    ∃ line, (handleExecute si).line = some line ∧ (handleExecute si).again = true ∧
      newline ∉ line ∧
      si.recv.currentData = line ++ newline :: (handleExecute si).info.recv.currentData ∧
      si.SameIdentity (handleExecute si).info ∧
      (handleExecute si).task = (dbCommandOf line).map (fun cmd ↦
        { cmd := cmd, fd := si.ufd, userId := si.userId }) ∧
      ((handleExecute si).requests = [] ∨
        ∃ message, (handleExecute si).requests = [.sendOne si.ufd (.cmdResponse message)]) := by
  cases hparse : si.recv.parseLine with
  | none => exact absurd hline (OffsetBuffer.parseLine_eq_none.mp hparse)
  | some parsed =>
    obtain ⟨line, recv⟩ := parsed
    obtain ⟨hdata, hnewline⟩ := OffsetBuffer.parseLine_eq_some hparse
    have hidentity : si.SameIdentity { si with recv := recv } := ⟨rfl, rfl, rfl, rfl⟩
    unfold handleExecute dbCommandOf
    rw [hparse]
    dsimp only
    cases hdecode : decode line with
    | error error =>
      refine ⟨line, rfl, rfl, hnewline, hdata, hidentity, ?_, Or.inl rfl⟩
      rw [hdecode, Option.map_none]
    | ok cmd =>
      dsimp only
      by_cases hdb : isDbCommand cmd = true
      · rw [if_pos hdb]
        refine ⟨line, rfl, rfl, hnewline, hdata, hidentity, ?_, Or.inl rfl⟩
        simp only [hdecode, hdb, if_true, Option.map_some]
      · rw [if_neg hdb]
        cases cmd with
        | cmdResponse message =>
          refine ⟨line, rfl, rfl, hnewline, hdata, hidentity, ?_, Or.inr ⟨message, rfl⟩⟩
          simp only [hdecode, hdb, Bool.false_eq_true, if_false, Option.map_none]
        | _ => exact absurd rfl hdb

end EpollServer

end ChatServer
