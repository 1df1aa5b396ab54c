import ChatServer.Client.ChatClient

/-!
# The loop of the io thread

`chat_io_worker::run` continues the handshake once and then waits for standard input and the socket
in turn. A round of its loop is six branches that stand one after the other: standard input, an
error of the socket, the handshake, sending, receiving, and the end of standard input. Three of them
transfer application data, among them standard input, whose commands are sent at once when the
handshake is done. All three ask for `handshake_done` and none for `peer_verified`.

`IoWorker` is the client with the local variable of the loop and a record of the calls made on the
session. What the operating system, OpenSSL and the other thread answer is given from outside,
round by round, and may be anything.

`Safe` links the two flags between the branches. `transfers_verified` is the result: application
data moves only after the peer was verified, and a run that fails to verify it returns an error and
has moved none.

Not modelled here: the error codes of a failed run, and `socket_events`, which is what `poll` is
asked for.
-/

set_option autoImplicit false
set_option relaxedAutoImplicit false

namespace ChatServer

/-- A call on the session; a transfer carries `handshake_done` at the time of the call. -/
inductive SessionCall
  | handshake (outcome : Option SslError)
  | verifyPeer (verified : Bool)
  | flushSend (handshakeDone : Bool)
  | drainRecv (handshakeDone : Bool)
  | shutdown
  deriving DecidableEq

/-- `handshake_done` at a call that transfers application data. -/
def SessionCall.transfer : SessionCall → Option Bool
  | .flushSend handshakeDone => some handshakeDone
  | .drainRecv handshakeDone => some handshakeDone
  | _ => none

/-- The client as its io thread sees it, `stdin_eof`, and the calls on the session so far. -/
structure IoWorker where
  client : ChatClient
  stdinEof : Bool := false
  calls : List SessionCall := []

/-- Whether the loop goes on, was left, or returns an error. -/
inductive IoFlow
  | goOn
  | left
  | failed
  deriving DecidableEq

/-- What `read` of standard input answers. -/
inductive StdinRead
  | data (bytes : Bytes)
  | eof
  | error (errno : Nat)

/-- What a typed line meets: `logged_in`, which the other thread sets, and the calls of `write`. -/
structure LineEnv where
  loggedIn : Bool
  writes : SslTransfer Nat

/-- What a round of the loop meets. `poll` answers `errno` or the two `revents`. -/
structure PollRound where
  stopRequested : Bool := false
  poll : Except Nat (UInt16 × UInt16)
  stdin : StdinRead
  lines : Nat → LineEnv
  handshake : Option SslError
  verified : Bool
  writes : SslTransfer Nat
  reads : SslTransfer Bytes

/-- `POLLIN`, `POLLOUT`, `POLLERR` and `POLLHUP`. -/
def pollIn : UInt16 := 0x001
@[inherit_doc pollIn] def pollOut : UInt16 := 0x004
@[inherit_doc pollIn] def pollErr : UInt16 := 0x008
@[inherit_doc pollIn] def pollHup : UInt16 := 0x010

/-- `EINTR`. -/
def eintr : Nat := 4

namespace IoWorker

/-- A worker that has just been constructed for a connection. -/
def create (si : SocketInfo) (loggedIn : Bool) : IoWorker where
  client := { si := si, loggedIn := loggedIn }

/-- A call on the session enters the record. -/
def record (worker : IoWorker) (call : SessionCall) : IoWorker :=
  { worker with calls := worker.calls ++ [call] }

/-- The session after a call. -/
def setTls (worker : IoWorker) (tls : TlsSession) : IoWorker :=
  { worker with client := { worker.client with si := { worker.client.si with tls := tls } } }

/-- `parse_line` has taken a line from standard input, and `logged_in` is read for it. -/
def takeLine (worker : IoWorker) (rest : OffsetBuffer) (loggedIn : Bool) : IoWorker :=
  { worker with client := { worker.client with stdinBuf := rest, loggedIn := loggedIn } }

/-! ### The session -/

/-- `verify_peer()`, and `peer_verified` when it succeeds. -/
def verifyPeer (worker : IoWorker) (verified : Bool) : IoWorker × Bool :=
  let called := worker.record (.verifyPeer verified)
  if ¬ verified then (called, false)
  else ({ called with client := { called.client with peerVerified := true } }, true)

/-- `progress_tls_handshake`. -/
def progressTlsHandshake (worker : IoWorker) (outcome : Option SslError) (verified : Bool) :
    IoWorker × Bool :=
  if worker.client.si.tls.handshakeDone then
    if worker.client.peerVerified then (worker, true) else worker.verifyPeer verified
  else
    let handshake := worker.client.si.tls.handshake outcome
    let called := (worker.record (.handshake outcome)).setTls handshake.1
    match handshake.2 with
    | none => (called, false)
    | some io =>
      if io.closed then (called, false)
      else if ¬ called.client.si.tls.handshakeDone then (called, true)
      else called.verifyPeer verified

/-- `flush_send(si)`. -/
def flush (worker : IoWorker) (writes : SslTransfer Nat) : IoWorker × Bool :=
  let called := worker.record (.flushSend worker.client.si.tls.handshakeDone)
  ({ called with client := (worker.client.flush writes).1 }, (worker.client.flush writes).2)

/-- `flush_pending_send`. -/
def flushPendingSend (worker : IoWorker) (writes : SslTransfer Nat) : IoWorker × Bool :=
  if ¬ worker.client.si.send.hasPending then (worker, true) else worker.flush writes

/-- `recv_socket`: `none` is an error, otherwise whether the peer closed the connection. -/
def recvSocket (worker : IoWorker) (reads : SslTransfer Bytes) : IoWorker × Option Bool :=
  let called := worker.record (.drainRecv worker.client.si.tls.handshakeDone)
  ({ called with client := (worker.client.recvSocket reads).1 },
    (drainRecv reads worker.client.si).2.map RecvInfo.closed)

/-! ### Lines -/

/-- What a round of the loop of `send_stdin` does with a line that `parse_line` has taken. -/
def sendLine (worker : IoWorker) (writes : SslTransfer Nat) (line : Bytes) : IoWorker × Bool :=
  if line = [] then (worker, true)
  else
    let executed := { worker with client := worker.client.execute line }
    if ¬ worker.client.si.send.hasPending ∧ ¬ executed.client.si.send.hasPending then
      (executed, true)
    else if ¬ executed.client.si.tls.handshakeDone then (executed, true)
    else executed.flush writes

/-- The loop of `send_stdin`; every round takes a byte or more out of `stdin_buf`. -/
def sendLines : Nat → (Nat → LineEnv) → IoWorker → IoWorker × Bool
  | 0, _, worker => (worker, true)
  | fuel + 1, lines, worker =>
    match worker.client.stdinBuf.parseLine with
    | none => (worker, true)
    | some (line, rest) =>
      let sent := (worker.takeLine rest (lines 0).loggedIn).sendLine (lines 0).writes line
      if ¬ sent.2 then (sent.1, false)
      else sendLines fuel (fun round ↦ lines (round + 1)) sent.1

/-- `send_stdin`: `none` is an error, otherwise whether standard input has ended. -/
def sendStdin (worker : IoWorker) (read : StdinRead) (lines : Nat → LineEnv) :
    IoWorker × Option Bool :=
  match read with
  | .eof => (worker, some true)
  | .error errno => (worker, if errno = eintr then some false else none)
  | .data bytes =>
    let appended := { worker with client := worker.client.readStdin bytes }
    let sent := sendLines appended.client.stdinBuf.currentData.length lines appended
    (sent.1, if sent.2 then some false else none)

/-- The loop over the lines from the server. -/
def receiveLines : Nat → IoWorker → IoWorker
  | 0, worker => worker
  | fuel + 1, worker =>
    match worker.client.receiveRound with
    | none => worker
    | some client => receiveLines fuel { worker with client := client }

/-! ### The branches of the loop -/

/-- Standard input. -/
def stdinBranch (env : PollRound) (revents : UInt16) (worker : IoWorker) : IoWorker × IoFlow :=
  if ¬ worker.stdinEof ∧ revents &&& (pollIn ||| pollHup) ≠ 0 then
    let sent := worker.sendStdin env.stdin env.lines
    match sent.2 with
    | none => (sent.1, .failed)
    | some eof => (if eof then { sent.1 with stdinEof := true } else sent.1, .goOn)
  else (worker, .goOn)

/-- An error of the socket. -/
def errorBranch (revents : UInt16) (worker : IoWorker) : IoWorker × IoFlow :=
  (worker, if revents &&& pollErr ≠ 0 then .failed else .goOn)

/-- The handshake. -/
def handshakeBranch (env : PollRound) (revents : UInt16) (worker : IoWorker) :
    IoWorker × IoFlow :=
  if revents &&& (pollIn ||| pollOut ||| pollHup) ≠ 0 then
    let progressed := worker.progressTlsHandshake env.handshake env.verified
    if ¬ progressed.2 then (progressed.1, .failed)
    else if revents &&& pollHup ≠ 0 ∧ ¬ progressed.1.client.si.tls.handshakeDone then
      (progressed.1, .failed)
    else (progressed.1, .goOn)
  else (worker, .goOn)

/-- Sending. -/
def sendBranch (env : PollRound) (revents : UInt16) (worker : IoWorker) : IoWorker × IoFlow :=
  if worker.client.si.tls.handshakeDone ∧ revents &&& pollOut ≠ 0 then
    let flushed := worker.flushPendingSend env.writes
    (flushed.1, if flushed.2 then .goOn else .failed)
  else (worker, .goOn)

/-- Receiving. -/
def receiveBranch (env : PollRound) (revents : UInt16) (worker : IoWorker) : IoWorker × IoFlow :=
  if worker.client.si.tls.handshakeDone ∧ revents &&& (pollIn ||| pollHup) ≠ 0 then
    let received := worker.recvSocket env.reads
    match received.2 with
    | none => (received.1, .failed)
    | some closed =>
      (receiveLines received.1.client.si.recv.currentData.length received.1,
        if closed then .left else .goOn)
  else (worker, .goOn)

/-- The end of standard input, when everything is sent. -/
def doneBranch (worker : IoWorker) : IoWorker × IoFlow :=
  (worker,
    if worker.stdinEof ∧ worker.client.si.tls.handshakeDone ∧ ¬ worker.client.si.send.hasPending
    then .left else .goOn)

/-- The next part of the loop, unless the loop was left or returns. -/
def andThen (result : IoWorker × IoFlow) (next : IoWorker → IoWorker × IoFlow) :
    IoWorker × IoFlow :=
  match result.2 with
  | .goOn => next result.1
  | _ => result

/-- A round of the loop of `run`. -/
def runRound (env : PollRound) (worker : IoWorker) : IoWorker × IoFlow :=
  match env.poll with
  | .error errno => (worker, if errno = eintr then .goOn else .failed)
  | .ok (stdinRevents, revents) =>
    andThen (worker.stdinBranch env stdinRevents) fun worker ↦
      andThen (worker.errorBranch revents) fun worker ↦
        andThen (worker.handshakeBranch env revents) fun worker ↦
          andThen (worker.sendBranch env revents) fun worker ↦
            andThen (worker.receiveBranch env revents) doneBranch

/-- The loop of `run`; it goes on after the last of these rounds. -/
def runLoop : List PollRound → IoWorker → IoWorker × IoFlow
  | [], worker => (worker, .goOn)
  | env :: later, worker =>
    if env.stopRequested then (worker, .left) else andThen (worker.runRound env) (runLoop later)

/-- The shutdown of TLS behind the loop. -/
def shutdownTls (worker : IoWorker) : IoWorker :=
  if worker.client.si.tls.handshakeDone ∧ ¬ worker.client.si.tls.peerClosed then
    worker.record .shutdown
  else worker

/-- `chat_io_worker::run`: `outcome` and `verified` answer the first call of
`progress_tls_handshake`. -/
def run (outcome : Option SslError) (verified : Bool) (rounds : List PollRound)
    (worker : IoWorker) : IoWorker × IoFlow :=
  let progressed := worker.progressTlsHandshake outcome verified
  if ¬ progressed.2 then (progressed.1, .failed)
  else
    let looped := runLoop rounds progressed.1
    match looped.2 with
    | .left => (looped.1.shutdownTls, .left)
    | _ => looped

end IoWorker

/-! ### The functions of the client -/

section Client

variable {worker : IoWorker}

theorem client_flush (writes : SslTransfer Nat) :
    ((worker.flush writes).1.client, (worker.flush writes).2) = worker.client.flush writes :=
  rfl

theorem client_flushPendingSend (writes : SslTransfer Nat) :
    ((worker.flushPendingSend writes).1.client, (worker.flushPendingSend writes).2) =
      worker.client.flushPendingSend writes := by
  unfold IoWorker.flushPendingSend ChatClient.flushPendingSend
  by_cases hpending : worker.client.si.send.hasPending = true
  · rw [if_neg (not_not.mpr hpending), if_neg (not_not.mpr hpending)]
    exact client_flush writes
  · rw [if_pos hpending, if_pos hpending]

theorem client_sendLine (writes : SslTransfer Nat) (line : Bytes) :
    ((worker.sendLine writes line).1.client, (worker.sendLine writes line).2) =
      worker.client.sendLine writes line := by
  unfold IoWorker.sendLine ChatClient.sendLine
  dsimp only
  split_ifs <;> rfl

theorem client_progressTlsHandshake (outcome : Option SslError) (verified : Bool) :
    ((worker.progressTlsHandshake outcome verified).1.client,
      (worker.progressTlsHandshake outcome verified).2) =
      worker.client.progressTlsHandshake outcome verified := by
  unfold IoWorker.progressTlsHandshake ChatClient.progressTlsHandshake IoWorker.verifyPeer
    IoWorker.setTls IoWorker.record
  dsimp only
  cases (worker.client.si.tls.handshake outcome).2 with
  | none => split_ifs <;> rfl
  | some io =>
    dsimp only
    split_ifs <;> rfl

theorem client_recvSocket (reads : SslTransfer Bytes) :
    ((worker.recvSocket reads).1.client, (worker.recvSocket reads).2.isSome) =
      worker.client.recvSocket reads := by
  unfold IoWorker.recvSocket ChatClient.recvSocket
  rw [Option.isSome_map]

end Client

/-! ### The loops over lines end -/

section Lines

variable {worker : IoWorker}

theorem stdinBuf_sendLine (writes : SslTransfer Nat) (line : Bytes) :
    (worker.sendLine writes line).1.client.stdinBuf = worker.client.stdinBuf := by
  obtain ⟨cmds, htyped⟩ := typed_execute worker.client line
  unfold IoWorker.sendLine
  dsimp only
  split_ifs
  · rfl
  · exact htyped.stdinBuf
  · exact htyped.stdinBuf
  · exact htyped.stdinBuf

/-- The fuel of the loop of `send_stdin` is enough: it ends when no line is left, or on an error. -/
theorem parseLine_sendLines {fuel : Nat} {lines : Nat → LineEnv}
    (hfuel : worker.client.stdinBuf.currentData.length ≤ fuel)
    (hok : (worker.sendLines fuel lines).2 = true) :
    (worker.sendLines fuel lines).1.client.stdinBuf.parseLine = none := by
  induction fuel generalizing worker lines with
  | zero => exact OffsetBuffer.parseLine_of_length_le_zero hfuel
  | succ fuel ih =>
    unfold IoWorker.sendLines at hok ⊢
    split at hok
    · assumption
    · next line rest hparse =>
      have hshorter := OffsetBuffer.length_parseLine_lt hparse
      have hrest : ((worker.takeLine rest (lines 0).loggedIn).sendLine (lines 0).writes
          line).1.client.stdinBuf = rest := stdinBuf_sendLine _ _
      dsimp only at hok ⊢
      by_cases hsent : ((worker.takeLine rest (lines 0).loggedIn).sendLine (lines 0).writes
          line).2 = true
      · rw [if_neg (not_not.mpr hsent)] at hok ⊢
        refine ih ?_ hok
        rw [hrest]
        omega
      · rw [if_pos hsent] at hok
        cases hok

/-- The fuel of the loop over the lines from the server is enough. -/
theorem parseLine_receiveLines {fuel : Nat}
    (hfuel : worker.client.si.recv.currentData.length ≤ fuel) :
    (worker.receiveLines fuel).client.si.recv.parseLine = none := by
  induction fuel generalizing worker with
  | zero => exact OffsetBuffer.parseLine_of_length_le_zero hfuel
  | succ fuel ih =>
    unfold IoWorker.receiveLines
    cases hparse : worker.client.si.recv.parseLine with
    | none =>
      rw [receiveRound_of_none hparse]
      exact hparse
    | some taken =>
      have hshorter := OffsetBuffer.length_parseLine_lt hparse
      obtain ⟨queue, hround⟩ := receiveRound_of_some hparse
      rw [hround]
      refine ih ?_
      show taken.2.currentData.length ≤ fuel
      omega

end Lines

/-! ### The record of calls -/

/-- Each transfer of application data comes after the handshake and after a successful
verification, and none comes after a failed one. -/
def TransfersVerified (calls : List SessionCall) : Prop :=
  ∀ before call later handshakeDone, calls = before ++ call :: later →
    call.transfer = some handshakeDone →
      handshakeDone = true ∧ .verifyPeer true ∈ before ∧ .verifyPeer false ∉ before

theorem transfersVerified_nil : TransfersVerified [] :=
  fun _ _ _ _ hsplit _ ↦ absurd hsplit.symm (List.append_ne_nil_of_right_ne_nil _ (by simp))

/-- A call behind verified transfers. -/
theorem TransfersVerified.concat {calls : List SessionCall} (hcalls : TransfersVerified calls)
    {call : SessionCall}
    (hcall : ∀ handshakeDone, call.transfer = some handshakeDone →
      handshakeDone = true ∧ .verifyPeer true ∈ calls ∧ .verifyPeer false ∉ calls) :
    TransfersVerified (calls ++ [call]) := by
  intro before other later handshakeDone hsplit htransfer
  rcases List.eq_nil_or_concat later with rfl | ⟨later, last, rfl⟩
  · obtain ⟨rfl, hlast⟩ := List.append_inj' hsplit rfl
    rw [← (List.cons.inj hlast).1] at htransfer
    exact hcall handshakeDone htransfer
  · rw [List.concat_eq_append, ← List.cons_append, ← List.append_assoc] at hsplit
    exact hcalls before other later handshakeDone (List.append_inj' hsplit rfl).1 htransfer

/-- A call that transfers nothing. -/
theorem TransfersVerified.silent {calls : List SessionCall} (hcalls : TransfersVerified calls)
    {call : SessionCall} (hcall : call.transfer = none) : TransfersVerified (calls ++ [call]) := by
  refine hcalls.concat fun handshakeDone htransfer ↦ ?_
  rw [hcall] at htransfer
  cases htransfer

theorem silent_concat {calls : List SessionCall} (hcalls : ∀ call ∈ calls, call.transfer = none)
    {last : SessionCall} (hlast : last.transfer = none) :
    ∀ call ∈ calls ++ [last], call.transfer = none := by
  intro call hcall
  rcases List.mem_append.mp hcall with hold | hnew
  · exact hcalls call hold
  · rw [List.mem_singleton.mp hnew]
    exact hlast

theorem unrejected_concat {calls : List SessionCall} (hcalls : .verifyPeer false ∉ calls)
    {last : SessionCall} (hlast : .verifyPeer false ≠ last) :
    .verifyPeer false ∉ calls ++ [last] := by
  rw [List.mem_append, not_or]
  exact ⟨hcalls, fun hmem ↦ hlast (List.mem_singleton.mp hmem)⟩

/-! ### What holds between the branches -/

namespace IoWorker

/-- No application data was transferred: the record has no such call, TLS has taken no byte, and the
receive buffer is as it was. -/
structure Untouched (si : SocketInfo) (worker : IoWorker) : Prop where
  calls : ∀ call ∈ worker.calls, call.transfer = none
  accepted : worker.client.accepted = []
  recv : worker.client.si.recv = si.recv

/-- What `peer_verified` says about the record. -/
structure Recorded (si : SocketInfo) (worker : IoWorker) : Prop where
  sound : TransfersVerified worker.calls
  passed : worker.client.peerVerified = true → .verifyPeer true ∈ worker.calls
  unrejected : .verifyPeer false ∉ worker.calls
  untouched : worker.client.peerVerified = false → worker.Untouched si
  shaken : worker.client.peerVerified = true → worker.client.si.tls.handshakeDone = true

/-- Between the branches of the loop the handshake is only done when the peer is verified. -/
structure Safe (si : SocketInfo) (worker : IoWorker) : Prop extends Recorded si worker where
  linked : worker.client.si.tls.handshakeDone = true → worker.client.peerVerified = true

/-- When `run` returns: a peer that was not accepted has seen no application data. -/
structure Ended (si : SocketInfo) (worker : IoWorker) : Prop where
  sound : TransfersVerified worker.calls
  rejected : .verifyPeer false ∈ worker.calls → worker.Untouched si

/-- A part of the loop goes on or leaves it with a safe worker, or ends it with an error. -/
def Guarded (si : SocketInfo) (result : IoWorker × IoFlow) : Prop :=
  result.1.Safe si ∨ result.2 = .failed ∧ result.1.Ended si

variable {si : SocketInfo} {worker next : IoWorker}

theorem Recorded.ended (hrecorded : worker.Recorded si) : worker.Ended si :=
  ⟨hrecorded.sound, fun hrejected ↦ absurd hrejected hrecorded.unrejected⟩

/-- The worker of a verified peer, with the same record. -/
theorem Safe.of_verified (hsafe : worker.Safe si) (hcalls : next.calls = worker.calls)
    (hpeer : worker.client.peerVerified = true)
    (hnext : next.client.peerVerified = worker.client.peerVerified)
    (hdone : next.client.si.tls.handshakeDone = worker.client.si.tls.handshakeDone) :
    next.Safe si where
  sound := hcalls ▸ hsafe.sound
  passed _ := hcalls ▸ hsafe.passed hpeer
  unrejected := hcalls ▸ hsafe.unrejected
  untouched hunverified := by
    rw [hnext, hpeer] at hunverified
    cases hunverified
  shaken _ := hdone.trans (hsafe.shaken hpeer)
  linked _ := hnext.trans hpeer

/-- A transfer of application data for a verified peer. -/
theorem Safe.transfer (hsafe : worker.Safe si) {call : SessionCall}
    (hcalls : next.calls = worker.calls ++ [call]) (hcall : call.transfer = some true)
    (hpeer : worker.client.peerVerified = true)
    (hnext : next.client.peerVerified = worker.client.peerVerified)
    (hdone : next.client.si.tls.handshakeDone = worker.client.si.tls.handshakeDone) :
    next.Safe si where
  sound := by
    rw [hcalls]
    refine hsafe.sound.concat fun handshakeDone htransfer ↦ ?_
    rw [hcall, Option.some.injEq] at htransfer
    exact ⟨htransfer.symm, hsafe.passed hpeer, hsafe.unrejected⟩
  passed _ := by
    rw [hcalls]
    exact List.mem_append_left _ (hsafe.passed hpeer)
  unrejected := by
    rw [hcalls]
    refine unrejected_concat hsafe.unrejected fun hsame ↦ ?_
    rw [← hsame] at hcall
    cases hcall
  untouched hunverified := by
    rw [hnext, hpeer] at hunverified
    cases hunverified
  shaken _ := hdone.trans (hsafe.shaken hpeer)
  linked _ := hnext.trans hpeer

/-- A change of the client that moves no application data. -/
theorem Safe.quiet (hsafe : worker.Safe si) (hcalls : next.calls = worker.calls)
    (hpeer : next.client.peerVerified = worker.client.peerVerified)
    (htls : next.client.si.tls = worker.client.si.tls)
    (haccepted : next.client.accepted = worker.client.accepted)
    (hrecv : next.client.si.recv = worker.client.si.recv) : next.Safe si where
  sound := hcalls ▸ hsafe.sound
  passed hverified := hcalls ▸ hsafe.passed (hpeer ▸ hverified)
  unrejected := hcalls ▸ hsafe.unrejected
  untouched hunverified := by
    have huntouched := hsafe.untouched (hpeer ▸ hunverified)
    exact ⟨hcalls ▸ huntouched.calls, haccepted.trans huntouched.accepted,
      hrecv.trans huntouched.recv⟩
  shaken hverified := by
    rw [htls]
    exact hsafe.shaken (hpeer ▸ hverified)
  linked hdone := by
    rw [hpeer]
    exact hsafe.linked (htls ▸ hdone)

/-! ### Each function -/

theorem Safe.flush (hsafe : worker.Safe si)
    (hdone : worker.client.si.tls.handshakeDone = true) (writes : SslTransfer Nat) :
    (worker.flush writes).1.Safe si := by
  refine hsafe.transfer rfl ?_ (hsafe.linked hdone) rfl (handshakeDone_flushSend _ _)
  rw [hdone]
  rfl

theorem Safe.flushPendingSend (hsafe : worker.Safe si)
    (hdone : worker.client.si.tls.handshakeDone = true) (writes : SslTransfer Nat) :
    (worker.flushPendingSend writes).1.Safe si := by
  unfold IoWorker.flushPendingSend
  by_cases hpending : worker.client.si.send.hasPending = true
  · rw [if_neg (not_not.mpr hpending)]
    exact hsafe.flush hdone writes
  · rw [if_pos hpending]
    exact hsafe

theorem Safe.recvSocket (hsafe : worker.Safe si)
    (hdone : worker.client.si.tls.handshakeDone = true) (reads : SslTransfer Bytes) :
    (worker.recvSocket reads).1.Safe si := by
  refine hsafe.transfer rfl ?_ (hsafe.linked hdone) rfl (handshakeDone_drainRecv _ _)
  rw [hdone]
  rfl

/-- A typed line is sent at once only when the handshake is done. -/
theorem Safe.sendLine (hsafe : worker.Safe si) (writes : SslTransfer Nat) (line : Bytes) :
    (worker.sendLine writes line).1.Safe si := by
  have hexecuted : ({ worker with client := worker.client.execute line } : IoWorker).Safe si := by
    obtain ⟨cmds, htyped⟩ := typed_execute worker.client line
    have hpeer := (effect_execute worker.client line).peerVerified
    exact hsafe.quiet rfl hpeer htyped.tls htyped.accepted htyped.recv
  unfold IoWorker.sendLine
  dsimp only
  split_ifs with hline hquiet hdone
  · exact hsafe
  · exact hexecuted
  · exact hexecuted.flush hdone writes
  · exact hexecuted

theorem Safe.sendLines (hsafe : worker.Safe si) (fuel : Nat) (lines : Nat → LineEnv) :
    (sendLines fuel lines worker).1.Safe si := by
  induction fuel generalizing worker lines with
  | zero => exact hsafe
  | succ fuel ih =>
    unfold IoWorker.sendLines
    split
    · exact hsafe
    · next line rest _ =>
      have htaken : (worker.takeLine rest (lines 0).loggedIn).Safe si :=
        hsafe.quiet rfl rfl rfl rfl rfl
      have hsent := htaken.sendLine (lines 0).writes line
      dsimp only
      split_ifs
      · exact ih hsent _
      · exact hsent

theorem Safe.sendStdin (hsafe : worker.Safe si) (read : StdinRead) (lines : Nat → LineEnv) :
    (worker.sendStdin read lines).1.Safe si := by
  cases read with
  | eof => exact hsafe
  | error errno => exact hsafe
  | data bytes =>
    have happended : ({ worker with client := worker.client.readStdin bytes } : IoWorker).Safe si :=
      hsafe.quiet rfl rfl rfl rfl rfl
    exact happended.sendLines _ lines

theorem Safe.receiveLines (hsafe : worker.Safe si)
    (hpeer : worker.client.peerVerified = true) (fuel : Nat) :
    (receiveLines fuel worker).Safe si := by
  induction fuel generalizing worker with
  | zero => exact hsafe
  | succ fuel ih =>
    unfold IoWorker.receiveLines
    cases hparse : worker.client.si.recv.parseLine with
    | none =>
      rw [receiveRound_of_none hparse]
      exact hsafe
    | some taken =>
      obtain ⟨queue, hround⟩ := receiveRound_of_some hparse
      rw [hround]
      exact ih (hsafe.of_verified rfl hpeer rfl rfl) hpeer

/-- A verification that is due decides between a safe worker and an untouched one. -/
theorem Recorded.verifyPeer (hrecorded : worker.Recorded si)
    (hpeer : worker.client.peerVerified = false)
    (hdone : worker.client.si.tls.handshakeDone = true) (verified : Bool) :
    ((worker.verifyPeer verified).2 = true → (worker.verifyPeer verified).1.Safe si) ∧
      (worker.verifyPeer verified).1.Ended si := by
  have huntouched := hrecorded.untouched hpeer
  cases verified with
  | false =>
    refine ⟨fun hgoes ↦ absurd hgoes Bool.false_ne_true, hrecorded.sound.silent rfl, fun _ ↦ ?_⟩
    exact ⟨silent_concat huntouched.calls rfl, huntouched.accepted, huntouched.recv⟩
  | true =>
    have hsafe : (worker.verifyPeer true).1.Safe si :=
      { sound := hrecorded.sound.silent rfl
        passed := fun _ ↦ List.mem_append_right _ (List.mem_singleton_self _)
        unrejected := unrejected_concat hrecorded.unrejected (by decide)
        untouched := fun hunverified ↦ absurd hunverified.symm Bool.false_ne_true
        shaken := fun _ ↦ hdone
        linked := fun _ ↦ rfl }
    exact ⟨fun _ ↦ hsafe, hsafe.ended⟩

/-- The state of the handshake after a call for a peer that is not verified. -/
theorem Recorded.handshake (hrecorded : worker.Recorded si)
    (hpeer : worker.client.peerVerified = false) (outcome : Option SslError) (tls : TlsSession) :
    ((worker.record (.handshake outcome)).setTls tls).Recorded si := by
  have huntouched := hrecorded.untouched hpeer
  exact
    { sound := hrecorded.sound.silent rfl
      passed := fun hverified ↦ List.mem_append_left _ (hrecorded.passed hverified)
      unrejected := unrejected_concat hrecorded.unrejected fun hsame ↦ SessionCall.noConfusion hsame
      untouched := fun _ ↦
        ⟨silent_concat huntouched.calls rfl, huntouched.accepted, huntouched.recv⟩
      shaken := fun hverified ↦ absurd (hpeer.symm.trans hverified) Bool.false_ne_true }

/-- The handshake is done only together with a verification, whatever was the case before. -/
theorem Recorded.progressTlsHandshake (hrecorded : worker.Recorded si)
    (outcome : Option SslError) (verified : Bool) :
    ((worker.progressTlsHandshake outcome verified).2 = true →
      (worker.progressTlsHandshake outcome verified).1.Safe si) ∧
    (worker.progressTlsHandshake outcome verified).1.Ended si := by
  unfold IoWorker.progressTlsHandshake
  by_cases hdone : worker.client.si.tls.handshakeDone = true
  · rw [if_pos hdone]
    by_cases hpeer : worker.client.peerVerified = true
    · rw [if_pos hpeer]
      exact ⟨fun _ ↦ { hrecorded with linked := fun _ ↦ hpeer }, hrecorded.ended⟩
    · rw [if_neg hpeer]
      exact hrecorded.verifyPeer (Bool.eq_false_iff.mpr hpeer) hdone verified
  · rw [if_neg hdone]
    have hpeer : worker.client.peerVerified = false :=
      Bool.eq_false_iff.mpr fun hverified ↦ hdone (hrecorded.shaken hverified)
    have hcalled :=
      hrecorded.handshake hpeer outcome (worker.client.si.tls.handshake outcome).1
    dsimp only
    split
    · exact ⟨fun hgoes ↦ absurd hgoes Bool.false_ne_true, hcalled.ended⟩
    · split_ifs with hclosed hshaken
      · exact ⟨False.elim, hcalled.ended⟩
      · exact hcalled.verifyPeer hpeer hshaken verified
      · exact ⟨fun _ ↦ { hcalled with linked := fun hlater ↦ absurd hlater hshaken }, hcalled.ended⟩

/-! ### Each branch -/

theorem Guarded.andThen {result : IoWorker × IoFlow} (hresult : Guarded si result)
    {later : IoWorker → IoWorker × IoFlow}
    (hlater : ∀ worker : IoWorker, worker.Safe si → Guarded si (later worker)) :
    Guarded si (andThen result later) := by
  obtain ⟨worker, flow⟩ := result
  cases flow with
  | goOn =>
    rcases hresult with hsafe | ⟨hfailed, -⟩
    · exact hlater worker hsafe
    · cases hfailed
  | left => exact hresult
  | failed => exact hresult

theorem Safe.stdinBranch (hsafe : worker.Safe si) (env : PollRound) (revents : UInt16) :
    Guarded si (worker.stdinBranch env revents) := by
  have hsent := hsafe.sendStdin env.stdin env.lines
  unfold IoWorker.stdinBranch
  by_cases hready : ¬ worker.stdinEof ∧ revents &&& (pollIn ||| pollHup) ≠ 0
  · rw [if_pos hready]
    dsimp only
    split
    · exact Or.inl hsent
    · next eof _ =>
      cases eof with
      | false => exact Or.inl hsent
      | true => exact Or.inl (hsent.quiet rfl rfl rfl rfl rfl)
  · rw [if_neg hready]
    exact Or.inl hsafe

theorem Safe.handshakeBranch (hsafe : worker.Safe si) (env : PollRound) (revents : UInt16) :
    Guarded si (worker.handshakeBranch env revents) := by
  obtain ⟨hgoes, hended⟩ := hsafe.toRecorded.progressTlsHandshake env.handshake env.verified
  unfold IoWorker.handshakeBranch
  dsimp only
  split_ifs with hready hprogressed hhup
  · exact Or.inr ⟨rfl, hended⟩
  · exact Or.inl (hgoes hprogressed)
  · exact Or.inr ⟨rfl, hended⟩
  · exact Or.inl hsafe

theorem Safe.sendBranch (hsafe : worker.Safe si) (env : PollRound) (revents : UInt16) :
    Guarded si (worker.sendBranch env revents) := by
  unfold IoWorker.sendBranch
  by_cases hready : worker.client.si.tls.handshakeDone ∧ revents &&& pollOut ≠ 0
  · rw [if_pos hready]
    exact Or.inl (hsafe.flushPendingSend hready.1 env.writes)
  · rw [if_neg hready]
    exact Or.inl hsafe

theorem Safe.receiveBranch (hsafe : worker.Safe si) (env : PollRound) (revents : UInt16) :
    Guarded si (worker.receiveBranch env revents) := by
  unfold IoWorker.receiveBranch
  by_cases hready : worker.client.si.tls.handshakeDone ∧
      revents &&& (pollIn ||| pollHup) ≠ 0
  · have hreceived := hsafe.recvSocket hready.1 env.reads
    rw [if_pos hready]
    dsimp only
    split
    · exact Or.inl hreceived
    · exact Or.inl (hreceived.receiveLines (hsafe.linked hready.1) _)
  · rw [if_neg hready]
    exact Or.inl hsafe

/-- What a round preserves. -/
theorem Safe.runRound (hsafe : worker.Safe si) (env : PollRound) :
    Guarded si (worker.runRound env) := by
  unfold IoWorker.runRound
  split
  · exact Or.inl hsafe
  · refine (hsafe.stdinBranch env _).andThen fun worker hsafe ↦ ?_
    refine Guarded.andThen (Or.inl hsafe) fun worker hsafe ↦ ?_
    refine (hsafe.handshakeBranch env _).andThen fun worker hsafe ↦ ?_
    refine (hsafe.sendBranch env _).andThen fun worker hsafe ↦ ?_
    exact (hsafe.receiveBranch env _).andThen fun worker hsafe ↦ Or.inl hsafe

/-- What the loop preserves, after any number of rounds. -/
theorem Safe.runLoop (hsafe : worker.Safe si) (rounds : List PollRound) :
    Guarded si (worker.runLoop rounds) := by
  induction rounds generalizing worker with
  | nil => exact Or.inl hsafe
  | cons env later ih =>
    unfold IoWorker.runLoop
    split_ifs
    · exact Or.inl hsafe
    · exact (hsafe.runRound env).andThen fun worker hsafe ↦ ih hsafe

theorem Safe.shutdownTls (hsafe : worker.Safe si) : worker.shutdownTls.Safe si := by
  unfold IoWorker.shutdownTls
  by_cases hopen : worker.client.si.tls.handshakeDone ∧ ¬ worker.client.si.tls.peerClosed
  · rw [if_pos hopen]
    exact
      { sound := hsafe.sound.silent rfl
        passed := fun hpeer ↦ List.mem_append_left _ (hsafe.passed hpeer)
        unrejected := unrejected_concat hsafe.unrejected (by decide)
        untouched := fun hunverified ↦
          absurd (hsafe.linked hopen.1) (Bool.eq_false_iff.mp hunverified)
        shaken := hsafe.shaken
        linked := hsafe.linked }
  · rw [if_neg hopen]
    exact hsafe

theorem recorded_create (si : SocketInfo) (loggedIn : Bool) :
    (create si loggedIn).Recorded si where
  sound := transfersVerified_nil
  passed hpeer := absurd hpeer Bool.false_ne_true
  unrejected := List.not_mem_nil
  untouched _ := ⟨fun _ hcall ↦ absurd hcall List.not_mem_nil, rfl, rfl⟩
  shaken hpeer := absurd hpeer Bool.false_ne_true

theorem guarded_run (si : SocketInfo) (loggedIn : Bool) (outcome : Option SslError)
    (verified : Bool) (rounds : List PollRound) :
    Guarded si (run outcome verified rounds (create si loggedIn)) := by
  obtain ⟨hgoes, hended⟩ :=
    (recorded_create si loggedIn).progressTlsHandshake outcome verified
  unfold run
  by_cases hfirst : ((create si loggedIn).progressTlsHandshake outcome verified).2 = true
  · rw [if_neg (not_not.mpr hfirst)]
    have hlooped := (hgoes hfirst).runLoop rounds
    dsimp only
    split
    · next hleft =>
      rcases hlooped with hsafe | ⟨hfailed, -⟩
      · exact Or.inl hsafe.shutdownTls
      · rw [hleft] at hfailed
        cases hfailed
    · exact hlooped
  · rw [if_pos hfirst]
    exact Or.inr ⟨rfl, hended⟩

end IoWorker

/-- No application data before the peer is verified. In every run of the io thread, whatever `poll`,
the handshake, the verification, standard input and TLS answer, each call that sends or receives is
made when the handshake is done and `verify_peer` has succeeded and never failed. Where it fails,
`run` returns an error, no such call is made at all, TLS has taken no byte of what was typed, and
the receive buffer is as it was. -/
theorem transfers_verified (si : SocketInfo) (loggedIn : Bool) (outcome : Option SslError)
    (verified : Bool) (rounds : List PollRound) :
    TransfersVerified
      (IoWorker.run outcome verified rounds (IoWorker.create si loggedIn)).1.calls ∧
    (.verifyPeer false ∈
        (IoWorker.run outcome verified rounds (IoWorker.create si loggedIn)).1.calls →
      (IoWorker.run outcome verified rounds (IoWorker.create si loggedIn)).2 = .failed ∧
      (IoWorker.run outcome verified rounds (IoWorker.create si loggedIn)).1.Untouched si) := by
  rcases IoWorker.guarded_run si loggedIn outcome verified rounds with hsafe | ⟨hfailed, hended⟩
  · exact ⟨hsafe.sound, fun hrejected ↦ absurd hrejected hsafe.unrejected⟩
  · exact ⟨hended.sound, fun hrejected ↦ ⟨hfailed, hended.rejected hrejected⟩⟩

/-- A login is typed before the handshake is done, and the peer is rejected. -/
def queuedLogin : List PollRound :=
  let round : PollRound :=
    { poll := .ok (pollIn, 0), stdin := .data (text "/login a p" ++ [newline]),
      lines := fun _ ↦ ⟨false, ⟨[64], .wantWrite⟩⟩, handshake := none, verified := false,
      writes := ⟨[64], .wantWrite⟩, reads := ⟨[], .wantRead⟩ }
  [round, { round with poll := .ok (0, pollOut) }]

theorem transfers_verified_queuedLogin :
    (IoWorker.run (some .wantRead) true queuedLogin
      (IoWorker.create { ufd := 3 } false)).1.client.appended =
        [.cmdLogin (text "a") (text "p")] ∧
    (IoWorker.run (some .wantRead) true queuedLogin
      (IoWorker.create { ufd := 3 } false)).1.client.accepted = [] := by
  obtain ⟨-, hrejected⟩ :=
    transfers_verified { ufd := 3 } false (some .wantRead) true queuedLogin
  exact ⟨by decide +kernel, (hrejected (by decide +kernel)).2.accepted⟩

end ChatServer
