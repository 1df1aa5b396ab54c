import ChatServer.Client.ChatClient
import ChatServer.General.TransitionSystem
import ChatServer.Protocol.CodecGrammar
import ChatServer.Server.EpollServer

/-!
# From the keyboard to the server's decoder

The two threads of a client and the server's end of its connection, as one transition system. The
client reads standard input in pieces of at most 1024 bytes and may type a line, continue the
handshake, flush or receive whenever its loop could; what the server reads are the bytes that TLS
has accepted from the client, in order, in any pieces and at any time.

The record is the bytes of standard input, the lines typed with what each of them put into the send
buffer, the bytes that the server has received, and what it has decoded.

`Carries` is what holds in every state: at both ends the lines taken and the buffer make up the
stream, and between them the send buffer holds what TLS has not accepted yet. `commands_arrive` is
the result: what the server decodes are the commands that the typed lines appended, one by one.
-/

set_option autoImplicit false
set_option relaxedAutoImplicit false

namespace ChatServer

/-- Where the loop of `chat_io_worker::run` is: at `poll` or between its branches, in the loop of
`send_stdin`, in the loop over the lines received, or left. -/
inductive ClientPhase
  | polling
  | typing
  | receiving
  | left
  deriving DecidableEq

/-- A typed line that is not empty, with the selected room and what it put into the send buffer. -/
structure TypedLine where
  line : Bytes
  selectedRoomId : Option Int
  appended : List Command

/-- The client, the server's end of the connection, and the record. -/
structure CommandLink where
  client : ChatClient
  phase : ClientPhase := .polling
  stdinEof : Bool := false
  server : SocketInfo
  stdin : Bytes := []
  typed : List TypedLine := []
  received : Bytes := []
  decoded : List (Except DecodeError Command) := []

/-- The steps of the io thread, of the executor thread, and of the server. `serverOther` is whatever
the server does to the connection besides receiving and executing lines. -/
inductive LinkLabel
  | readStdin (data : Bytes)
  | stdinEnd
  | typedLine (writes : SslTransfer Nat)
  | handshake (outcome : Option SslError) (verified : Bool)
  | flush (writes : SslTransfer Nat)
  | recvSocket (reads : SslTransfer Bytes)
  | replyLine
  | leave
  | acquire
  | executeNext
  | serverRecv (env : IoEnv) (event : UInt32)
  | serverExecute
  | serverOther (change : SocketInfo → SocketInfo)

namespace CommandLink

/-- The client goes on, or its loop returns an error. -/
def proceed (state : CommandLink) (next : ChatClient × Bool) (phase : ClientPhase) : CommandLink :=
  { state with client := next.1, phase := if next.2 then phase else .left }

/-- The state after a line was taken from standard input. -/
def typing (state : CommandLink) (line : Bytes) (next : ChatClient × Bool) : CommandLink :=
  { state.proceed next .typing with
    typed := state.typed ++
      if line = [] then []
      else [⟨line, state.client.selectedRoomId,
        next.1.appended.drop state.client.appended.length⟩] }

/-- The state after the server received. -/
def serverReceived (state : CommandLink) (server : SocketInfo) : CommandLink :=
  { state with
    server := server
    received := state.received ++ server.recv.buf.drop state.server.recv.buf.length }

/-- One step of one thread. -/
def step (state : CommandLink) : LinkLabel → Option CommandLink
  | .readStdin data =>
    if state.phase = .polling ∧ state.stdinEof = false ∧ data ≠ [] ∧ data.length ≤ 1024 then
      some
        { state with
          client := state.client.readStdin data
          phase := .typing
          stdin := state.stdin ++ data }
    else none
  | .stdinEnd => if state.phase = .polling then some { state with stdinEof := true } else none
  | .typedLine writes =>
    if state.phase = .typing then
      match state.client.sendStdinRound writes with
      | none => some { state with phase := .polling }
      | some (line, next) => some (state.typing line next)
    else none
  | .handshake outcome verified =>
    if state.phase = .polling then
      some (state.proceed (state.client.progressTlsHandshake outcome verified) .polling)
    else none
  | .flush writes =>
    if state.phase = .polling ∧ state.client.si.tls.handshakeDone then
      some (state.proceed (state.client.flushPendingSend writes) .polling)
    else none
  | .recvSocket reads =>
    if state.phase = .polling ∧ state.client.si.tls.handshakeDone then
      some (state.proceed (state.client.recvSocket reads) .receiving)
    else none
  | .replyLine =>
    if state.phase = .receiving then
      match state.client.receiveRound with
      | none => some { state with phase := .polling }
      | some client => some { state with client := client }
    else none
  | .leave => some { state with phase := .left }
  | .acquire => state.client.acquire.map fun client ↦ { state with client := client }
  | .executeNext => state.client.executeNext.map fun client ↦ { state with client := client }
  | .serverRecv env event =>
    let server := (EpollServer.handleRecv env event state.server).1.1
    -- TLS delivers the accepted bytes in order
    if (state.serverReceived server).received <+: state.client.accepted then
      some (state.serverReceived server)
    else none
  | .serverExecute =>
    let executed := EpollServer.handleExecute state.server
    some
      { state with
        server := executed.info
        decoded := state.decoded ++ (executed.line.map decode).toList }
  | .serverOther change =>
    some { state with server := { change state.server with recv := state.server.recv } }

end CommandLink

/-- A client that has just connected and the descriptor it has at the server, as a transition
system. -/
def commandLink (fd : Int) : TransitionSystem CommandLink LinkLabel where
  start :=
    { client := { si := { ufd := -1 } }
      server := { ufd := fd, interest := epollIn ||| epollRdhup } }
  step := CommandLink.step

/-! ### What holds in every state -/

/-- What a typed line puts into the send buffer: at most one command, of words of the line, and for
a message the selected room and the line itself. -/
structure TypedLine.Sound (entry : TypedLine) : Prop where
  single : entry.appended.length ≤ 1
  fields : ∀ cmd ∈ entry.appended, ∀ field ∈ cmd.fields,
    IsWordOf entry.line field ∨ ∃ roomId, field = toText roomId
  say : ∀ roomId message, .cmdSay roomId message ∈ entry.appended → message = entry.line ∧
    ∃ selected, entry.selectedRoomId = some selected ∧ roomId = toText selected

/-- A step of the client between two typed lines: TLS may accept some of what is to be sent. -/
structure ChatClient.Advances (before after : ChatClient) : Prop where
  stdinBuf : after.stdinBuf = before.stdinBuf
  appended : after.appended = before.appended
  stream : after.accepted ++ after.si.send.currentData =
    before.accepted ++ before.si.send.currentData
  accepted : before.accepted <+: after.accepted

namespace ChatClient

variable {client : ChatClient}

/-- A step that does not touch the streams. -/
theorem Advances.of_same {after : ChatClient} (hstdin : after.stdinBuf = client.stdinBuf)
    (happended : after.appended = client.appended) (haccepted : after.accepted = client.accepted)
    (hsend : after.si.send = client.si.send) : client.Advances after :=
  ⟨hstdin, happended, by rw [haccepted, hsend], by rw [haccepted]⟩

theorem advances_flush (client : ChatClient) (writes : SslTransfer Nat) :
    client.Advances (client.flush writes).1 := by
  refine ⟨rfl, rfl, ?_, List.prefix_append _ _⟩
  show client.accepted ++ (if client.si.tls.hasSsl = true then _ else _) ++
    (flushSend writes client.si).1.send.currentData = _
  by_cases hssl : client.si.tls.hasSsl = true
  · rw [if_pos hssl, List.append_assoc, ← flushSend_currentData hssl]
  · rw [if_neg hssl, List.append_nil, flushSend, if_pos hssl]

theorem advances_flushPendingSend (client : ChatClient) (writes : SslTransfer Nat) :
    client.Advances (client.flushPendingSend writes).1 := by
  unfold flushPendingSend
  by_cases hpending : client.si.send.hasPending = true
  · rw [if_neg (not_not.mpr hpending)]
    exact advances_flush client writes
  · rw [if_pos hpending]
    exact .of_same rfl rfl rfl rfl

theorem advances_progressTlsHandshake (client : ChatClient) (outcome : Option SslError)
    (verified : Bool) : client.Advances (client.progressTlsHandshake outcome verified).1 := by
  unfold progressTlsHandshake
  dsimp only
  split
  · split_ifs <;> exact .of_same rfl rfl rfl rfl
  · split
    · exact .of_same rfl rfl rfl rfl
    · split_ifs <;> exact .of_same rfl rfl rfl rfl

theorem advances_recvSocket (client : ChatClient) (reads : SslTransfer Bytes) :
    client.Advances (client.recvSocket reads).1 := by
  refine .of_same rfl rfl rfl ?_
  obtain ⟨tls, data, -, -, hdrain⟩ := drainRecv_fst reads client.si
  show (drainRecv reads client.si).1.send = client.si.send
  rw [hdrain]

theorem advances_receiveRound {after : ChatClient} (hround : client.receiveRound = some after) :
    client.Advances after := by
  cases hparse : client.si.recv.parseLine with
  | none =>
    rw [receiveRound_of_none hparse] at hround
    cases hround
  | some taken =>
    obtain ⟨queue, htaken⟩ := receiveRound_of_some hparse
    rw [← Option.some.inj (htaken.symm.trans hround)]
    exact .of_same rfl rfl rfl rfl

theorem advances_acquire {after : ChatClient} (hacquire : client.acquire = some after) :
    client.Advances after := by
  unfold acquire at hacquire
  split at hacquire
  · rw [← Option.some.inj hacquire]
    exact .of_same rfl rfl rfl rfl
  · cases hacquire

theorem advances_executeNext {after : ChatClient} (hexecute : client.executeNext = some after) :
    client.Advances after := by
  unfold executeNext at hexecute
  split at hexecute
  · cases hexecute
  · rw [← Option.some.inj hexecute]
    unfold executeReply
    split <;> exact .of_same rfl rfl rfl rfl

/-- A typed line is executed, and what is in the send buffer may then be flushed. -/
theorem typed_sendLine (writes : SslTransfer Nat) {line : Bytes} (hline : line ≠ []) :
    ∃ executed cmds, Typed line client executed cmds ∧
      executed.Advances (client.sendLine writes line).1 := by
  obtain ⟨cmds, hcmds⟩ := typed_execute client line
  refine ⟨_, cmds, hcmds, ?_⟩
  unfold sendLine
  rw [if_neg hline]
  dsimp only
  split_ifs
  · exact .of_same rfl rfl rfl rfl
  · exact advances_flush _ writes
  · exact .of_same rfl rfl rfl rfl

end ChatClient

namespace CommandLink

/-- The typed lines and the rest of the input make up standard input, the accepted bytes and the
send buffer make up the commands appended, and the decoded lines and the receive buffer make up what
the server has received. -/
structure Carries (state : CommandLink) : Prop where
  stdin : ∃ taken, (∀ record ∈ taken, newline ∉ record) ∧
    state.stdin = DelimitedStream.joined newline taken ++ state.client.stdinBuf.currentData ∧
    state.typed.map TypedLine.line = taken.filter fun line ↦ decide (line ≠ [])
  polling : state.phase = .polling ∨ state.phase = .receiving →
    newline ∉ state.client.stdinBuf.currentData
  typed : ∀ entry ∈ state.typed, entry.Sound
  appended : state.client.appended = state.typed.flatMap TypedLine.appended
  sent : state.client.appended.flatMap encode =
    state.client.accepted ++ state.client.si.send.currentData
  received : state.received <+: state.client.accepted
  decoded : ∃ taken, (∀ record ∈ taken, newline ∉ record) ∧
    state.received = DelimitedStream.joined newline taken ++ state.server.recv.currentData ∧
    state.decoded = taken.map decode

theorem carries_start (fd : Int) : (commandLink fd).start.Carries where
  stdin := ⟨[], fun _ hrecord ↦ absurd hrecord List.not_mem_nil, rfl, rfl⟩
  polling _ := List.not_mem_nil
  typed _ hentry := absurd hentry List.not_mem_nil
  appended := rfl
  sent := rfl
  received := List.nil_prefix
  decoded := ⟨[], fun _ hrecord ↦ absurd hrecord List.not_mem_nil, rfl, rfl⟩

section Steps

variable {state : CommandLink}

/-- A step of the client between two typed lines. -/
theorem Carries.advance (hcarries : state.Carries) {client : ChatClient}
    (hadvances : state.client.Advances client) {phase : ClientPhase}
    (hpolling : phase = .polling ∨ phase = .receiving →
      newline ∉ state.client.stdinBuf.currentData) :
    ({ state with client := client, phase := phase } : CommandLink).Carries where
  stdin := by
    show ∃ taken, _ ∧ _ = _ ++ client.stdinBuf.currentData ∧ _
    rw [hadvances.stdinBuf]
    exact hcarries.stdin
  polling hphase := by
    show newline ∉ client.stdinBuf.currentData
    rw [hadvances.stdinBuf]
    exact hpolling hphase
  typed := hcarries.typed
  appended := hadvances.appended.trans hcarries.appended
  sent := by
    show client.appended.flatMap encode = client.accepted ++ client.si.send.currentData
    rw [hadvances.appended, hadvances.stream, hcarries.sent]
  received := hcarries.received.trans hadvances.accepted
  decoded := hcarries.decoded

theorem Carries.proceed (hcarries : state.Carries) {next : ChatClient × Bool}
    (hadvances : state.client.Advances next.1) {phase : ClientPhase}
    (hpolling : newline ∉ state.client.stdinBuf.currentData) :
    (state.proceed next phase).Carries :=
  hcarries.advance hadvances fun _ ↦ hpolling

/-- Bytes of standard input arrive. -/
theorem Carries.readStdin (hcarries : state.Carries) (data : Bytes) :
    ({ state with
        client := state.client.readStdin data
        phase := .typing
        stdin := state.stdin ++ data } : CommandLink).Carries where
  stdin := by
    obtain ⟨taken, htaken, hstdin, htyped⟩ := hcarries.stdin
    refine ⟨taken, htaken, ?_, htyped⟩
    show state.stdin ++ data = _ ++ (state.client.stdinBuf.append data).currentData
    rw [OffsetBuffer.currentData_append, ← List.append_assoc, hstdin]
  polling hphase := by rcases hphase with hphase | hphase <;> cases hphase
  typed := hcarries.typed
  appended := hcarries.appended
  sent := hcarries.sent
  received := hcarries.received
  decoded := hcarries.decoded

/-- The loop of `send_stdin` ends when no line is left. -/
theorem Carries.typedAll (hcarries : state.Carries)
    (hnone : state.client.stdinBuf.parseLine = none) :
    ({ state with phase := .polling } : CommandLink).Carries :=
  ⟨hcarries.stdin, fun _ ↦ OffsetBuffer.parseLine_eq_none.mp hnone, hcarries.typed,
    hcarries.appended, hcarries.sent, hcarries.received, hcarries.decoded⟩

/-- A line is taken from standard input. -/
theorem Carries.take (hcarries : state.Carries) {line : Bytes} {rest : OffsetBuffer}
    (hdata : state.client.stdinBuf.currentData = line ++ newline :: rest.currentData)
    (hnewline : newline ∉ line) : ∃ taken, (∀ record ∈ taken, newline ∉ record) ∧
      state.stdin = DelimitedStream.joined newline taken ++ rest.currentData ∧
      taken.filter (fun line ↦ decide (line ≠ [])) =
        state.typed.map TypedLine.line ++ if line = [] then [] else [line] := by
  obtain ⟨taken, htaken, hstdin, htyped⟩ := hcarries.stdin
  refine ⟨taken ++ [line], fun record hrecord ↦ ?_, ?_, ?_⟩
  · rcases List.mem_append.mp hrecord with hold | hnew
    · exact htaken record hold
    · rw [List.mem_singleton.mp hnew]
      exact hnewline
  · rw [hstdin, hdata, DelimitedStream.joined_concat, List.append_assoc, List.append_assoc]
    rfl
  · rw [List.filter_append, List.filter_singleton, htyped]
    by_cases hline : line = []
    · rw [if_pos hline, hline]
      rfl
    · rw [if_neg hline, decide_eq_true hline]
      rfl

theorem not_polling_of_typing (done : Bool) :
    ¬ ((if done = true then ClientPhase.typing else .left) = .polling ∨
      (if done = true then ClientPhase.typing else .left) = .receiving) := by
  cases done <;> decide

/-- The line taken is executed, and then the send buffer may be flushed. -/
theorem Carries.typedLine (hcarries : state.Carries) {line : Bytes} {rest : OffsetBuffer}
    {executed : ChatClient} {cmds : List Command} {next : ChatClient × Bool} (hline : line ≠ [])
    (hdata : state.client.stdinBuf.currentData = line ++ newline :: rest.currentData)
    (hnewline : newline ∉ line)
    (hexecuted : Typed line { state.client with stdinBuf := rest } executed cmds)
    (hadvances : executed.Advances next.1) : (state.typing line next).Carries := by
  obtain ⟨taken, htaken, hstdin, hfilter⟩ := hcarries.take hdata hnewline
  have happended : next.1.appended = state.client.appended ++ cmds :=
    hadvances.appended.trans hexecuted.appended
  have hdrop : next.1.appended.drop state.client.appended.length = cmds := by
    rw [happended, List.drop_left]
  rw [CommandLink.typing, if_neg hline, hdrop]
  refine ⟨⟨taken, htaken, ?_, ?_⟩, fun hphase ↦ absurd hphase (not_polling_of_typing next.2), ?_,
    ?_, ?_, ?_, hcarries.decoded⟩
  · show state.stdin = _ ++ next.1.stdinBuf.currentData
    rw [hadvances.stdinBuf, hexecuted.stdinBuf]
    exact hstdin
  · rw [hfilter, if_neg hline, List.map_append]
    rfl
  · intro entry hentry
    rcases List.mem_append.mp hentry with hold | hnew
    · exact hcarries.typed entry hold
    · rw [List.mem_singleton.mp hnew]
      exact ⟨hexecuted.single, hexecuted.fields, hexecuted.say⟩
  · rw [List.flatMap_append, List.flatMap_singleton, ← hcarries.appended]
    exact happended
  · show next.1.appended.flatMap encode = next.1.accepted ++ next.1.si.send.currentData
    rw [hadvances.stream, happended, List.flatMap_append, hcarries.sent, hexecuted.send,
      hexecuted.accepted, List.append_assoc]
  · exact hcarries.received.trans (hexecuted.accepted ▸ hadvances.accepted)

/-- An empty line is skipped. -/
theorem Carries.emptyLine (hcarries : state.Carries) {rest : OffsetBuffer}
    (hdata : state.client.stdinBuf.currentData = newline :: rest.currentData) :
    (state.typing [] ({ state.client with stdinBuf := rest }, true)).Carries := by
  obtain ⟨taken, htaken, hstdin, hfilter⟩ := @Carries.take _ hcarries [] rest hdata List.not_mem_nil
  rw [if_pos rfl, List.append_nil] at hfilter
  rw [CommandLink.typing, if_pos rfl, List.append_nil]
  exact ⟨⟨taken, htaken, hstdin, hfilter.symm⟩,
    fun hphase ↦ absurd hphase (not_polling_of_typing true), hcarries.typed, hcarries.appended,
    hcarries.sent, hcarries.received, hcarries.decoded⟩

/-- A round of the loop of `send_stdin`. -/
theorem Carries.typing (hcarries : state.Carries) {writes : SslTransfer Nat} {line : Bytes}
    {next : ChatClient × Bool}
    (hround : state.client.sendStdinRound writes = some (line, next)) :
    (state.typing line next).Carries := by
  unfold ChatClient.sendStdinRound at hround
  cases hparse : state.client.stdinBuf.parseLine with
  | none =>
    rw [hparse] at hround
    cases hround
  | some parsed =>
    obtain ⟨first, rest⟩ := parsed
    rw [hparse] at hround
    obtain ⟨rfl, rfl⟩ := Prod.mk.inj (Option.some.inj hround)
    obtain ⟨hdata, hnewline⟩ := OffsetBuffer.parseLine_eq_some hparse
    by_cases hline : first = []
    · rw [hline] at hdata ⊢
      exact hcarries.emptyLine hdata
    · obtain ⟨executed, cmds, hexecuted, hadvances⟩ :=
        @ChatClient.typed_sendLine { state.client with stdinBuf := rest } writes first hline
      exact hcarries.typedLine hline hdata hnewline hexecuted hadvances

/-- The server receives bytes that TLS has accepted. -/
theorem Carries.serverReceived (hcarries : state.Carries) (env : IoEnv) (event : UInt32)
    (horder : (state.serverReceived
      (EpollServer.handleRecv env event state.server).1.1).received <+: state.client.accepted) :
    (state.serverReceived (EpollServer.handleRecv env event state.server).1.1).Carries := by
  obtain ⟨data, -, hcalls⟩ := EpollServer.calls_handleRecv env event state.server
  obtain ⟨taken, htaken, hreceived, hdecoded⟩ := hcarries.decoded
  refine ⟨hcarries.stdin, hcarries.polling, hcarries.typed, hcarries.appended, hcarries.sent,
    horder, taken, htaken, ?_, hdecoded⟩
  show state.received ++ _ = _ ++ _
  rw [hcalls.receives.buf, List.drop_left, hreceived, List.append_assoc,
    ← hcalls.receives.currentData]
  rfl

/-- The server executes a line, if there is one. -/
theorem Carries.serverExecute (hcarries : state.Carries) :
    ({ state with
        server := (EpollServer.handleExecute state.server).info
        decoded := state.decoded ++
          ((EpollServer.handleExecute state.server).line.map decode).toList } :
      CommandLink).Carries := by
  obtain ⟨taken, htaken, hreceived, hdecoded⟩ := hcarries.decoded
  refine ⟨hcarries.stdin, hcarries.polling, hcarries.typed, hcarries.appended, hcarries.sent,
    hcarries.received, ?_⟩
  by_cases hline : newline ∈ state.server.recv.currentData
  · obtain ⟨line, hparsed, -, hnewline, hdata, -⟩ :=
      @EpollServer.handleExecute_of_mem state.server hline
    refine ⟨taken ++ [line], fun record hrecord ↦ ?_, ?_, ?_⟩
    · rcases List.mem_append.mp hrecord with hold | hnew
      · exact htaken record hold
      · rw [List.mem_singleton.mp hnew]
        exact hnewline
    · show state.received = _ ++ (EpollServer.handleExecute state.server).info.recv.currentData
      rw [hreceived, hdata, DelimitedStream.joined_concat, List.append_assoc, List.append_assoc]
      rfl
    · rw [hparsed, hdecoded, List.map_append]
      rfl
  · rw [EpollServer.handleExecute_of_notMem hline]
    exact ⟨taken, htaken, hreceived, hdecoded.symm ▸ List.append_nil _⟩

/-- Every step keeps the streams. -/
theorem Carries.step (hcarries : state.Carries) {label : LinkLabel} {next : CommandLink}
    (hstep : state.step label = some next) : next.Carries := by
  cases label with
  | readStdin data =>
    simp only [CommandLink.step] at hstep
    split_ifs at hstep
    rw [← Option.some.inj hstep]
    exact hcarries.readStdin data
  | stdinEnd =>
    simp only [CommandLink.step] at hstep
    split_ifs at hstep
    rw [← Option.some.inj hstep]
    exact ⟨hcarries.stdin, hcarries.polling, hcarries.typed, hcarries.appended, hcarries.sent,
      hcarries.received, hcarries.decoded⟩
  | typedLine writes =>
    simp only [CommandLink.step] at hstep
    split_ifs at hstep
    split at hstep
    · next hround =>
      rw [← Option.some.inj hstep]
      refine hcarries.typedAll ?_
      unfold ChatClient.sendStdinRound at hround
      split at hround
      · assumption
      · cases hround
    · next line after hround =>
      rw [← Option.some.inj hstep]
      exact hcarries.typing hround
  | handshake outcome verified =>
    simp only [CommandLink.step] at hstep
    split_ifs at hstep with hphase
    rw [← Option.some.inj hstep]
    exact hcarries.proceed (ChatClient.advances_progressTlsHandshake _ _ _)
      (hcarries.polling (.inl hphase))
  | flush writes =>
    simp only [CommandLink.step] at hstep
    split_ifs at hstep with hphase
    rw [← Option.some.inj hstep]
    exact hcarries.proceed (ChatClient.advances_flushPendingSend _ _)
      (hcarries.polling (.inl hphase.1))
  | recvSocket reads =>
    simp only [CommandLink.step] at hstep
    split_ifs at hstep with hphase
    rw [← Option.some.inj hstep]
    exact hcarries.proceed (ChatClient.advances_recvSocket _ _) (hcarries.polling (.inl hphase.1))
  | replyLine =>
    simp only [CommandLink.step] at hstep
    split_ifs at hstep with hphase
    split at hstep
    · rw [← Option.some.inj hstep]
      exact hcarries.advance (.of_same rfl rfl rfl rfl) fun _ ↦ hcarries.polling (.inr hphase)
    · next client hround =>
      rw [← Option.some.inj hstep]
      exact hcarries.advance (ChatClient.advances_receiveRound hround) hcarries.polling
  | leave =>
    rw [← Option.some.inj hstep]
    exact hcarries.advance (.of_same rfl rfl rfl rfl) fun hphase ↦ by
      rcases hphase with hphase | hphase <;> cases hphase
  | acquire =>
    obtain ⟨client, hacquire, hnext⟩ := Option.map_eq_some_iff.mp hstep
    rw [← hnext]
    exact hcarries.advance (ChatClient.advances_acquire hacquire) hcarries.polling
  | executeNext =>
    obtain ⟨client, hexecute, hnext⟩ := Option.map_eq_some_iff.mp hstep
    rw [← hnext]
    exact hcarries.advance (ChatClient.advances_executeNext hexecute) hcarries.polling
  | serverRecv env event =>
    simp only [CommandLink.step] at hstep
    split_ifs at hstep with horder
    rw [← Option.some.inj hstep]
    exact hcarries.serverReceived env event horder
  | serverExecute =>
    rw [← Option.some.inj hstep]
    exact hcarries.serverExecute
  | serverOther change =>
    rw [← Option.some.inj hstep]
    exact ⟨hcarries.stdin, hcarries.polling, hcarries.typed, hcarries.appended, hcarries.sent,
      hcarries.received, hcarries.decoded⟩

end Steps

theorem carries_of_reachable {fd : Int} {state : CommandLink}
    (hreach : (commandLink fd).Reachable state) : state.Carries :=
  hreach.induction (carries_start fd) fun _ _ _ _ ih _ hstep ↦ ih.step hstep

/-! ### What arrives -/

/-- What the lines typed appended can be read back, when no `'\r'` is typed. -/
theorem Carries.fieldsAreTokens {state : CommandLink} (hcarries : state.Carries)
    (hstdin : carriageReturn ∉ state.stdin) :
    ∀ cmd ∈ state.client.appended, cmd.FieldsAreTokens := by
  intro cmd hcmd field hfield
  obtain ⟨taken, htaken, hinput, htyped⟩ := hcarries.stdin
  rw [hcarries.appended] at hcmd
  obtain ⟨entry, hentry, hcmd⟩ := List.mem_flatMap.mp hcmd
  rcases (hcarries.typed entry hentry).fields cmd hcmd field hfield with
    ⟨hnonempty, hsubset⟩ | ⟨roomId, hroom⟩
  · have hline : entry.line ∈ taken := by
      have hmem : entry.line ∈ state.typed.map TypedLine.line := List.mem_map_of_mem hentry
      rw [htyped] at hmem
      exact List.mem_of_mem_filter hmem
    have hstream : entry.line ⊆ state.stdin := by
      rw [hinput]
      exact List.subset_append_of_subset_left _ (DelimitedStream.subset_joined hline)
    exact ⟨hnonempty, fun hmem ↦ hstdin (hstream (hsubset hmem)),
      fun hmem ↦ htaken entry.line hline (hsubset hmem)⟩
  · rw [hroom]
    exact isToken_toText roomId

/-- The lines of the commands appended are those that the server has taken, followed by those it has
still to take. -/
theorem Carries.lines {state : CommandLink} (hcarries : state.Carries)
    (hstdin : carriageReturn ∉ state.stdin) : ∃ taken inFlight,
      state.client.appended.map Command.line =
        taken ++ DelimitedStream.records newline
          (state.server.recv.currentData ++ (inFlight ++ state.client.si.send.currentData)) ∧
      state.client.accepted = state.received ++ inFlight ∧ state.decoded = taken.map decode := by
  obtain ⟨taken, htaken, hreceived, hdecoded⟩ := hcarries.decoded
  obtain ⟨inFlight, haccepted⟩ := hcarries.received
  have htokens := hcarries.fieldsAreTokens hstdin
  refine ⟨taken, inFlight, DelimitedStream.eq_append_records (fun record hrecord ↦ ?_) htaken ?_,
    haccepted.symm, hdecoded⟩
  · obtain ⟨cmd, hcmd, rfl⟩ := List.mem_map.mp hrecord
    exact newline_notMem_line (htokens cmd hcmd)
  · have hencode : DelimitedStream.joined newline (state.client.appended.map Command.line) =
        state.client.appended.flatMap encode := by
      rw [DelimitedStream.joined, List.flatMap_map]
      exact List.flatMap_congr fun cmd _ ↦ (encode_eq_line cmd).symm
    rw [hencode, hcarries.sent, ← haccepted, hreceived, List.append_assoc, List.append_assoc]

/-- The commands appended come back from their lines. -/
theorem Carries.decode_lines {state : CommandLink} (hcarries : state.Carries)
    (hstdin : carriageReturn ∉ state.stdin) :
    (state.client.appended.map Command.line).map decode = state.client.appended.map .ok := by
  rw [List.map_map]
  exact List.map_congr_left fun cmd hcmd ↦ decode_line (hcarries.fieldsAreTokens hstdin cmd hcmd)

end CommandLink

/-- The command stream of a client. The lines typed are the complete lines of standard input that
are not empty; each puts at most one command into the send buffer, and a message carries the whole
line and the selected room. What the server decodes is a prefix of these commands, and all of them
when nothing is left to send, to receive or to take. -/
theorem commands_arrive (fd : Int) (state : CommandLink)
    (hreach : (commandLink fd).Reachable state) (hstdin : carriageReturn ∉ state.stdin) :
    let complete := (DelimitedStream.records newline state.stdin).filter fun line ↦
      decide (line ≠ [])
    let appended := state.typed.flatMap TypedLine.appended
    state.typed.map TypedLine.line <+: complete ∧
      (state.phase = .polling → state.typed.map TypedLine.line = complete) ∧
      (∀ entry ∈ state.typed, entry.appended.length ≤ 1 ∧
        ∀ roomId message, .cmdSay roomId message ∈ entry.appended → message = entry.line ∧
          ∃ selected, entry.selectedRoomId = some selected ∧ roomId = toText selected) ∧
      state.decoded <+: appended.map Except.ok ∧
      (state.client.si.send.hasPending = false → state.received = state.client.accepted →
        newline ∉ state.server.recv.currentData → state.decoded = appended.map Except.ok) := by
  have hcarries := CommandLink.carries_of_reachable hreach
  obtain ⟨input, hinput, hstream, htyped⟩ := hcarries.stdin
  obtain ⟨taken, inFlight, hlines, haccepted, hdecoded⟩ := hcarries.lines hstdin
  have hall := hcarries.decode_lines hstdin
  rw [hlines, List.map_append, ← hdecoded, hcarries.appended] at hall
  have hrecords : DelimitedStream.records newline state.stdin =
      input ++ DelimitedStream.records newline state.client.stdinBuf.currentData := by
    rw [hstream, DelimitedStream.records_joined_append hinput]
  dsimp only
  rw [hrecords, List.filter_append, ← htyped, ← hall]
  refine ⟨List.prefix_append _ _, fun hphase ↦ ?_, fun entry hentry ↦ ?_, List.prefix_append _ _,
    fun hsent hreceived htaken ↦ ?_⟩
  · rw [DelimitedStream.records_eq_nil_iff.mpr (hcarries.polling (.inl hphase)), List.filter_nil,
      List.append_nil]
  · have hsound := hcarries.typed entry hentry
    exact ⟨hsound.single, hsound.say⟩
  · rw [← hreceived, List.self_eq_append_right] at haccepted
    rw [OffsetBuffer.hasPending_eq_false.mp hsent, haccepted, List.append_nil, List.append_nil,
      DelimitedStream.records_eq_nil_iff.mpr htaken, List.map_nil, List.append_nil]

/-- A login typed in two pieces and sent in two pieces, received by the server in one. -/
theorem commands_arrive_login : ∃ state : CommandLink, (commandLink 5).Reachable state ∧
    state.decoded = [.ok (.cmdLogin (text "a") (text "p"))] ∧
      state.decoded = (state.typed.flatMap TypedLine.appended).map Except.ok := by
  let env : IoEnv :=
    { handshake := none, handshakeSyncOk := true
      reads := ⟨[text "login\ra\rp\n"], .wantRead⟩
      writes := ⟨[], .wantWrite⟩, syncOk := true }
  let labels : List LinkLabel :=
    [.handshake none true, .readStdin (text "/login "), .typedLine ⟨[], .wantWrite⟩,
      .readStdin (text "a p\n"), .typedLine ⟨[4], .wantWrite⟩, .typedLine ⟨[], .wantWrite⟩,
      .flush ⟨[6], .wantWrite⟩, .serverRecv env epollIn,
      .serverExecute]
  have hrun : (((commandLink 5).run (commandLink 5).start labels).map fun state ↦
      decide (carriageReturn ∉ state.stdin ∧ state.client.si.send.hasPending = false ∧
        state.received = state.client.accepted ∧ newline ∉ state.server.recv.currentData ∧
        state.typed.flatMap TypedLine.appended = [.cmdLogin (text "a") (text "p")])) =
          some true := by
    decide +kernel
  obtain ⟨state, hstate, hfacts⟩ := Option.map_eq_some_iff.mp hrun
  obtain ⟨hstdin, hsent, hreceived, htaken, happended⟩ := of_decide_eq_true hfacts
  have hreach : (commandLink 5).Reachable state := .of_run hstate
  obtain ⟨-, -, -, -, hall⟩ := commands_arrive 5 state hreach hstdin
  have hdecoded := hall hsent hreceived htaken
  refine ⟨state, hreach, ?_, hdecoded⟩
  rw [hdecoded, happended]
  rfl

end ChatServer
