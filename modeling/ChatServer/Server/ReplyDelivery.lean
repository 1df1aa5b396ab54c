import ChatServer.Client.CommandStream
import ChatServer.Server.OutgoingStreams
import ChatServer.Server.ReplyFrames

/-!
# From the send buffers to the console of a client

The server and the client at the other end of one of its connections, as one transition system. The
server takes any of its steps; the client receives the bytes that TLS has accepted for its
connection, in order, in any pieces and at any time, and its two threads take their steps in any
order. What the client types is not looked at here, and what the server receives from it is
anything.

`ReplyLink.Delivers` is what holds in every state: the lines that the io thread has taken and its
receive buffer make up what was received, and the commands of these lines were executed, are being
executed, or wait in the queue of the executor. Whatever the server appends is a response in one
line (`responses_of_reachable`), so the client executes the commands appended to its connection, one
by one and in order, and takes itself for logged in when the last text of a login said so
(`replies_arrive`).
-/

set_option autoImplicit false
set_option relaxedAutoImplicit false

namespace ChatServer

/-! ### What the server appends -/

section Server

variable [LinearOrder Bytes]

/-- Every command appended is a response that is one token. -/
def Outgoing.Responses (record : Outgoing) : Prop :=
  ∀ entry ∈ record.appended, ∃ message, entry.2 = .cmdResponse message ∧ IsToken message

/-- What is appended for a clean command is a response. -/
theorem Outgoing.Responses.step {state next : ServerState} {label : ServerLabel} {record : Outgoing}
    (hresponses : record.Responses) (hclean : state.pipeline.Clean)
    (htransition : Transition state label next) :
    (outgoingAfter state label next record).Responses := by
  cases htransition with
  | handle env queued pending events hphase =>
    unfold outgoingAfter
    simp only [hphase]
    intro entry hentry
    rcases List.mem_append.mp hentry with hold | hnew
    · exact hresponses entry hold
    · obtain ⟨effect, heffect, hout⟩ := List.mem_filterMap.mp hnew
      cases effect with
      | appended fd userId cmd =>
        obtain ⟨conn, -, rfl⟩ := Option.map_eq_some_iff.mp hout
        have hcarries : queued.command.Carries IsToken := by
          refine hclean.underWay queued (List.mem_append_left _ ?_)
          simp [ServerState.pipeline, ServerState.queued, ServerState.pending, hphase]
        obtain ⟨message, hcmd, hmessage, -⟩ := EpollRegistry.reply_of_writes hclean.registry
          hcarries (EpollRegistry.writes_handleCommand heffect)
        exact ⟨message, hcmd, hmessage⟩
      | _ => cases hout
  | skip env stage event rest hphase hinfo =>
    unfold outgoingAfter
    simp only [hphase, hinfo]
    exact hresponses
  | dispatch env stage event rest si hphase hinfo =>
    unfold outgoingAfter
    simp only [hphase, hinfo]
    exact hresponses
  | _ => exact hresponses

/-- With plain timestamps, whatever is appended is a response that is one token. -/
theorem responses_of_reachable {state : ServerState × Outgoing}
    (hreach : outgoingServer.ReachableUnder (fun _ label ↦ TimestampsPlain label) state) :
    state.2.Responses := by
  refine @TransitionSystem.ReachableUnder.induction _ _ outgoingServer _
    (fun state ↦ state.2.Responses) (fun entry hentry ↦ by cases hentry) ?_ _ hreach
  intro before label next hbefore hresponses _ hstep
  obtain ⟨hmoves, hrecord⟩ := TransitionSystem.withRecord_step_eq_some.mp hstep
  have hreached : chatServer.ReachableUnder (fun _ label ↦ TimestampsPlain label) before.1 :=
    @TransitionSystem.ReachableUnder.of_withRecord _ _ _ _ _ _
      (fun _ label ↦ TimestampsPlain label) _ hbefore
  obtain ⟨authored, hauthored⟩ : ∃ authored,
      authoredServer.ReachableUnder (fun _ label ↦ TimestampsPlain label) (before.1, authored) :=
    @TransitionSystem.ReachableUnder.exists_record _ _ _ _ _ _
      (fun _ label ↦ TimestampsPlain label) _ hreached
  rw [hrecord]
  exact hresponses.step (clean_of_reachable hauthored) (transition_of_step hmoves)

end Server

/-! ### The server and a client -/

/-- The server, the client of one of its connections, and the record: the bytes that the client has
received and the commands that its executor has executed. -/
structure ReplyLink where
  server : ServerState × Outgoing
  client : ChatClient
  received : Bytes := []
  executed : List Command := []

/-- The steps of the server and of the two threads of the client. -/
inductive ReplyLabel
  | server (label : ServerLabel)
  | recvSocket (reads : SslTransfer Bytes)
  | replyLine
  | acquire
  | executeNext
  | handshake (outcome : Option SslError) (verified : Bool)
  | readStdin (data : Bytes)
  | typedLine (writes : SslTransfer Nat)
  | flush (writes : SslTransfer Nat)

namespace ReplyLink

/-- The state after the client received. -/
def receiving (state : ReplyLink) (client : ChatClient) : ReplyLink :=
  { state with
    client := client
    received := state.received ++ client.si.recv.buf.drop state.client.si.recv.buf.length }

/-- One step of one thread. -/
def step [LinearOrder Bytes] (conn : Nat) (state : ReplyLink) : ReplyLabel → Option ReplyLink
  | .server label =>
    (outgoingServer.step state.server label).map fun server ↦ { state with server := server }
  | .recvSocket reads =>
    let client := (state.client.recvSocket reads).1
    -- TLS delivers the accepted bytes in order
    if state.client.si.tls.handshakeDone ∧
        (state.receiving client).received <+: state.server.2.acceptedOf conn then
      some (state.receiving client)
    else none
  | .replyLine => state.client.receiveRound.map fun client ↦ { state with client := client }
  | .acquire => state.client.acquire.map fun client ↦ { state with client := client }
  | .executeNext =>
    state.client.executeNext.map fun client ↦
      { state with
        client := client
        executed := state.executed ++ state.client.executing.toList }
  | .handshake outcome verified =>
    some { state with client := (state.client.progressTlsHandshake outcome verified).1 }
  | .readStdin data => some { state with client := state.client.readStdin data }
  | .typedLine writes =>
    (state.client.sendStdinRound writes).map fun result ↦ { state with client := result.2.1 }
  | .flush writes => some { state with client := (state.client.flushPendingSend writes).1 }

end ReplyLink

/-- The server as it is constructed, and a client that will have this connection. -/
def replyLink [LinearOrder Bytes] (conn : Nat) : TransitionSystem ReplyLink ReplyLabel where
  start := { server := outgoingServer.start, client := { si := { ufd := -1 } } }
  step := ReplyLink.step conn

/-- PostgreSQL writes the timestamps of a task of the server without delimiters. -/
def ReplyLabel.TimestampsPlain (label : ReplyLabel) : Prop :=
  match label with
  | .server label => ChatServer.TimestampsPlain label
  | _ => True

/-! ### The client -/

/-- The command that a line from the server gives to the executor, if it decodes to one. -/
def commandOf (line : Bytes) : Option Command :=
  (decode line).toOption

/-- What the text of a response says about the login of the client. -/
def loginOutcome : Command → Option Bool
  | .cmdResponse message =>
    if message = text "login success" then some true
    else if message = text "login failed" then some false
    else none
  | _ => none

/-- What the last text of a login among executed commands said; at first nobody is logged in. -/
def lastLogin (executed : List Command) : Bool :=
  (executed.filterMap loginOutcome).getLast?.getD false

/-- The text that the executor prints for a command. -/
def printedOf : Command → Option Bytes
  | .cmdResponse message => some message
  | _ => none

theorem lastLogin_concat (executed : List Command) (cmd : Command) :
    lastLogin (executed ++ [cmd]) = (loginOutcome cmd).getD (lastLogin executed) := by
  unfold lastLogin
  rw [List.filterMap_append]
  cases hlogin : loginOutcome cmd <;> simp [hlogin]

namespace ChatClient

/-- A step that leaves what arrived and what the executor does with it; it may print something. -/
structure KeepsReplies (before after : ChatClient) : Prop where
  recv : after.si.recv = before.si.recv
  executeQ : after.executeQ = before.executeQ
  executing : after.executing = before.executing
  loggedIn : after.loggedIn = before.loggedIn
  console : before.console <+: after.console

theorem KeepsReplies.refl (client : ChatClient) : client.KeepsReplies client :=
  ⟨rfl, rfl, rfl, rfl, List.prefix_refl _⟩

theorem KeepsReplies.trans {before middle after : ChatClient} (hfirst : before.KeepsReplies middle)
    (hsecond : middle.KeepsReplies after) : before.KeepsReplies after :=
  ⟨hsecond.recv.trans hfirst.recv, hsecond.executeQ.trans hfirst.executeQ,
    hsecond.executing.trans hfirst.executing, hsecond.loggedIn.trans hfirst.loggedIn,
    hfirst.console.trans hsecond.console⟩

variable {client : ChatClient}

theorem keepsReplies_printLine (client : ChatClient) (line : Bytes) :
    client.KeepsReplies (client.printLine line) :=
  ⟨rfl, rfl, rfl, rfl, List.prefix_append _ _⟩

theorem keepsReplies_append (client : ChatClient) (cmd : Command) :
    client.KeepsReplies (client.append cmd) :=
  ⟨rfl, rfl, rfl, rfl, List.prefix_refl _⟩

theorem keepsReplies_say (client : ChatClient) (line : Bytes) :
    client.KeepsReplies (client.say line) := by
  unfold say
  split
  · exact keepsReplies_printLine client _
  · exact keepsReplies_append client _

theorem keepsReplies_selectRoom (client : ChatClient) (roomId : Bytes) :
    client.KeepsReplies (client.selectRoom roomId) := by
  unfold selectRoom
  split
  · exact keepsReplies_printLine client _
  · split_ifs
    · exact keepsReplies_printLine client _
    · exact ⟨rfl, rfl, rfl, rfl, List.prefix_append _ _⟩

theorem keepsReplies_withNone {usage : String} {args : List Bytes} {action : ChatClient}
    (haction : client.KeepsReplies action) :
    client.KeepsReplies (client.withNone usage args action) := by
  unfold withNone
  split_ifs
  · exact haction
  · exact keepsReplies_printLine client _

theorem keepsReplies_withOne {usage : String} {args : List Bytes} {action : Bytes → ChatClient}
    (haction : ∀ first, client.KeepsReplies (action first)) :
    client.KeepsReplies (client.withOne usage args action) := by
  unfold withOne
  split
  · exact haction _
  · exact keepsReplies_printLine client _

theorem keepsReplies_withTwo {usage : String} {args : List Bytes}
    {action : Bytes → Bytes → ChatClient}
    (haction : ∀ first second, client.KeepsReplies (action first second)) :
    client.KeepsReplies (client.withTwo usage args action) := by
  unfold withTwo
  split
  · exact haction _ _
  · exact keepsReplies_printLine client _

/-- One comparison of the chain. -/
theorem keepsReplies_ite {condition : Prop} [Decidable condition] {first second : ChatClient}
    (hfirst : client.KeepsReplies first) (hsecond : client.KeepsReplies second) :
    client.KeepsReplies (if condition then first else second) := by
  split_ifs
  · exact hfirst
  · exact hsecond

theorem keepsReplies_executeSlash (client : ChatClient) (parsed : ParsedCommand) :
    client.KeepsReplies (client.executeSlash parsed) := by
  have hhelp : client.KeepsReplies client.help := ⟨rfl, rfl, rfl, rfl, List.prefix_append _ _⟩
  unfold executeSlash
  iterate 17
    refine keepsReplies_ite ?_ ?_
    · first
      | exact keepsReplies_withNone (keepsReplies_append client _)
      | exact keepsReplies_withNone hhelp
      | exact keepsReplies_withOne fun _ ↦ keepsReplies_append client _
      | exact keepsReplies_withOne fun first ↦ keepsReplies_selectRoom client first
      | exact keepsReplies_withTwo fun _ _ ↦ keepsReplies_append client _
  exact keepsReplies_printLine client _

/-- A typed line. -/
theorem keepsReplies_execute (client : ChatClient) (line : Bytes) :
    client.KeepsReplies (client.execute line) := by
  unfold execute
  dsimp only
  split_ifs
  · exact .refl client
  · exact .refl client
  · exact keepsReplies_printLine client _
  · exact keepsReplies_printLine client _
  · exact keepsReplies_say client line
  · exact keepsReplies_executeSlash client _

theorem keepsReplies_flush (client : ChatClient) (writes : SslTransfer Nat) :
    client.KeepsReplies (client.flush writes).1 := by
  obtain ⟨tls, send, -, hflush⟩ := flushSend_fst writes client.si
  refine ⟨?_, rfl, rfl, rfl, List.prefix_refl _⟩
  show (flushSend writes client.si).1.recv = client.si.recv
  rw [hflush]

theorem keepsReplies_flushPendingSend (client : ChatClient) (writes : SslTransfer Nat) :
    client.KeepsReplies (client.flushPendingSend writes).1 := by
  unfold flushPendingSend
  by_cases hpending : client.si.send.hasPending = true
  · rw [if_neg (not_not.mpr hpending)]
    exact keepsReplies_flush client writes
  · rw [if_pos hpending]
    exact .refl client

theorem keepsReplies_progressTlsHandshake (client : ChatClient) (outcome : Option SslError)
    (verified : Bool) : client.KeepsReplies (client.progressTlsHandshake outcome verified).1 := by
  unfold progressTlsHandshake
  dsimp only
  split
  · split_ifs <;> exact ⟨rfl, rfl, rfl, rfl, List.prefix_refl _⟩
  · split
    · exact ⟨rfl, rfl, rfl, rfl, List.prefix_refl _⟩
    · split_ifs <;> exact ⟨rfl, rfl, rfl, rfl, List.prefix_refl _⟩

theorem keepsReplies_sendLine (client : ChatClient) (writes : SslTransfer Nat) (line : Bytes) :
    client.KeepsReplies (client.sendLine writes line).1 := by
  have hexecuted := keepsReplies_execute client line
  unfold sendLine
  dsimp only
  split_ifs
  · exact .refl client
  · exact hexecuted
  · exact hexecuted.trans (keepsReplies_flush _ writes)
  · exact hexecuted

theorem keepsReplies_sendStdinRound {writes : SslTransfer Nat} {result : Bytes × ChatClient × Bool}
    (hround : client.sendStdinRound writes = some result) : client.KeepsReplies result.2.1 := by
  unfold sendStdinRound at hround
  split at hround
  · cases hround
  · next line rest hparse =>
    rw [← Option.some.inj hround]
    have hsent := keepsReplies_sendLine { client with stdinBuf := rest } writes line
    exact ⟨hsent.recv, hsent.executeQ, hsent.executing, hsent.loggedIn, hsent.console⟩

theorem loggedIn_executeReply_eq (client : ChatClient) (cmd : Command) :
    (client.executeReply cmd).loggedIn = (loginOutcome cmd).getD client.loggedIn := by
  cases cmd with
  | cmdResponse message =>
    unfold executeReply printLine loginOutcome
    dsimp only
    split_ifs <;> rfl
  | _ => rfl

theorem console_executeReply (client : ChatClient) (cmd : Command) :
    (client.executeReply cmd).console = client.console ++ (printedOf cmd).toList := by
  cases cmd with
  | cmdResponse message => rfl
  | _ => exact (List.append_nil _).symm

end ChatClient

/-! ### What holds in every state -/

namespace ReplyLink

/-- The commands of the lines taken were executed, are being executed, or wait. -/
def taken (state : ReplyLink) : List Command :=
  state.executed ++ state.client.executing.toList ++ state.client.executeQ

/-- What was received was accepted by TLS for the connection; the lines taken and the receive buffer
make it up; the client takes itself for logged in as the last text of a login said; and what was
executed is on the console. -/
structure Delivers (conn : Nat) (state : ReplyLink) : Prop where
  received : state.received <+: state.server.2.acceptedOf conn
  lines : ∃ lines, (∀ line ∈ lines, newline ∉ line) ∧
    state.received = DelimitedStream.joined newline lines ++ state.client.si.recv.currentData ∧
    state.taken = lines.filterMap commandOf
  loggedIn : state.client.loggedIn = lastLogin state.executed
  console : (state.executed.filterMap printedOf).Sublist state.client.console

variable [LinearOrder Bytes] {conn : Nat} {state : ReplyLink}

theorem delivers_start : (replyLink conn).start.Delivers conn where
  received := List.prefix_refl _
  lines := ⟨[], fun _ hline ↦ absurd hline List.not_mem_nil, rfl, rfl⟩
  loggedIn := rfl
  console := List.Sublist.refl _

omit [LinearOrder Bytes] in
/-- A step of the client that has nothing to do with replies. -/
theorem Delivers.keep (hdelivers : state.Delivers conn) {client : ChatClient}
    (hkeeps : state.client.KeepsReplies client) :
    ({ state with client := client } : ReplyLink).Delivers conn := by
  refine ⟨hdelivers.received, ?_, hkeeps.loggedIn.trans hdelivers.loggedIn,
    hdelivers.console.trans hkeeps.console.sublist⟩
  unfold taken
  rw [hkeeps.recv, hkeeps.executing, hkeeps.executeQ]
  exact hdelivers.lines

omit [LinearOrder Bytes] in
/-- The client receives. -/
theorem Delivers.receive (hdelivers : state.Delivers conn) (reads : SslTransfer Bytes)
    (horder : (state.receiving (state.client.recvSocket reads).1).received <+:
      state.server.2.acceptedOf conn) :
    (state.receiving (state.client.recvSocket reads).1).Delivers conn := by
  obtain ⟨lines, hwhole, hreceived, htaken⟩ := hdelivers.lines
  obtain ⟨data, -, hreceives⟩ := drainRecv_receives reads state.client.si
  refine ⟨horder, ⟨lines, hwhole, ?_, htaken⟩, hdelivers.loggedIn, hdelivers.console⟩
  show state.received ++ (drainRecv reads state.client.si).1.recv.buf.drop _ =
    _ ++ (drainRecv reads state.client.si).1.recv.currentData
  rw [hreceives.buf, List.drop_left, hreceived, List.append_assoc, ← hreceives.currentData]

omit [LinearOrder Bytes] in
/-- The io thread takes a line. -/
theorem Delivers.replyLine (hdelivers : state.Delivers conn) {client : ChatClient}
    (hround : state.client.receiveRound = some client) :
    ({ state with client := client } : ReplyLink).Delivers conn := by
  obtain ⟨lines, hwhole, hreceived, htaken⟩ := hdelivers.lines
  unfold ChatClient.receiveRound at hround
  cases hparse : state.client.si.recv.parseLine with
  | none =>
    rw [hparse] at hround
    cases hround
  | some parsed =>
    obtain ⟨line, rest⟩ := parsed
    obtain ⟨hdata, hnewline⟩ := OffsetBuffer.parseLine_eq_some hparse
    rw [hparse] at hround
    dsimp only at hround
    have hlines : ∀ record ∈ lines ++ [line], newline ∉ record := by
      intro record hrecord
      rcases List.mem_append.mp hrecord with hold | hnew
      · exact hwhole record hold
      · rw [List.mem_singleton.mp hnew]
        exact hnewline
    have hrest : state.received = DelimitedStream.joined newline (lines ++ [line]) ++
        rest.currentData := by
      rw [hreceived, hdata, DelimitedStream.joined_concat, List.append_assoc, List.append_assoc]
      rfl
    cases hdecode : decode line with
    | error error =>
      rw [hdecode] at hround
      rw [← Option.some.inj hround]
      refine ⟨hdelivers.received, ⟨lines ++ [line], hlines, hrest, ?_⟩, hdelivers.loggedIn,
        hdelivers.console⟩
      have hnone : commandOf line = none := by
        rw [commandOf, hdecode]
        rfl
      rw [List.filterMap_append, List.filterMap_cons_none hnone, List.filterMap_nil,
        List.append_nil]
      exact htaken
    | ok cmd =>
      rw [hdecode] at hround
      rw [← Option.some.inj hround]
      refine ⟨hdelivers.received, ⟨lines ++ [line], hlines, hrest, ?_⟩, hdelivers.loggedIn,
        hdelivers.console⟩
      have hsome : commandOf line = some cmd := by
        rw [commandOf, hdecode]
        rfl
      rw [List.filterMap_append, List.filterMap_cons_some hsome, List.filterMap_nil, ← htaken]
      exact (List.append_assoc _ _ _).symm

omit [LinearOrder Bytes] in
/-- The executor takes a command out of its queue. -/
theorem Delivers.acquire (hdelivers : state.Delivers conn) {client : ChatClient}
    (hacquire : state.client.acquire = some client) :
    ({ state with client := client } : ReplyLink).Delivers conn := by
  obtain ⟨lines, hwhole, hreceived, htaken⟩ := hdelivers.lines
  unfold ChatClient.acquire at hacquire
  split at hacquire
  · next cmd rest hidle hqueue =>
    rw [← Option.some.inj hacquire]
    refine ⟨hdelivers.received, ⟨lines, hwhole, hreceived, ?_⟩, hdelivers.loggedIn,
      hdelivers.console⟩
    rw [← htaken, taken, taken, hidle, hqueue]
    simp
  · cases hacquire

omit [LinearOrder Bytes] in
/-- The executor executes its command. -/
theorem Delivers.executeNext (hdelivers : state.Delivers conn) {client : ChatClient}
    (hexecute : state.client.executeNext = some client) :
    ({ state with
        client := client
        executed := state.executed ++ state.client.executing.toList } : ReplyLink).Delivers
      conn := by
  obtain ⟨lines, hwhole, hreceived, htaken⟩ := hdelivers.lines
  unfold ChatClient.executeNext at hexecute
  cases hexecuting : state.client.executing with
  | none =>
    rw [hexecuting] at hexecute
    cases hexecute
  | some cmd =>
    rw [hexecuting] at hexecute
    rw [← Option.some.inj hexecute]
    have hkept : (state.client.executeReply cmd).si = state.client.si ∧
        (state.client.executeReply cmd).executeQ = state.client.executeQ := by
      unfold ChatClient.executeReply
      split <;> exact ⟨rfl, rfl⟩
    refine ⟨hdelivers.received, ⟨lines, hwhole, ?_, ?_⟩, ?_, ?_⟩
    · show state.received = _ ++ (state.client.executeReply cmd).si.recv.currentData
      rw [hkept.1]
      exact hreceived
    · rw [← htaken]
      show state.executed ++ [cmd] ++ [] ++ (state.client.executeReply cmd).executeQ = _
      rw [hkept.2, List.append_nil, taken, hexecuting]
      rfl
    · show (state.client.executeReply cmd).loggedIn = lastLogin (state.executed ++ [cmd])
      rw [ChatClient.loggedIn_executeReply_eq, lastLogin_concat, hdelivers.loggedIn]
    · show ((state.executed ++ [cmd]).filterMap printedOf).Sublist
        (state.client.executeReply cmd).console
      rw [ChatClient.console_executeReply, List.filterMap_append]
      refine hdelivers.console.append ?_
      cases hprinted : printedOf cmd <;> simp [hprinted]

omit [LinearOrder Bytes] in
/-- What TLS has accepted only grows. -/
theorem acceptedOf_outgoingAfter (before : ServerState) (label : ServerLabel)
    (next : ServerState) (record : Outgoing) (conn : Nat) :
    record.acceptedOf conn <+: (outgoingAfter before label next record).acceptedOf conn := by
  unfold outgoingAfter
  split
  · exact List.prefix_refl _
  · split
    · exact List.prefix_refl _
    · rw [Outgoing.acceptedOf, Outgoing.acceptedOf, Outgoing.writesOf, Outgoing.writesOf,
        valuesOf_append, acceptedBytes, acceptedBytes, List.flatMap_append]
      exact List.prefix_append _ _
  · exact List.prefix_refl _

/-- Every step keeps the streams. -/
theorem Delivers.step (hdelivers : state.Delivers conn) {label : ReplyLabel} {next : ReplyLink}
    (hstep : state.step conn label = some next) : next.Delivers conn := by
  cases label with
  | server label =>
    obtain ⟨server, hserver, rfl⟩ := Option.map_eq_some_iff.mp hstep
    obtain ⟨-, hrecord⟩ := TransitionSystem.withRecord_step_eq_some.mp hserver
    refine ⟨hdelivers.received.trans ?_, hdelivers.lines, hdelivers.loggedIn, hdelivers.console⟩
    show _ <+: server.2.acceptedOf conn
    rw [hrecord]
    exact acceptedOf_outgoingAfter _ _ _ _ _
  | recvSocket reads =>
    simp only [ReplyLink.step] at hstep
    split_ifs at hstep with hguard
    rw [← Option.some.inj hstep]
    exact hdelivers.receive reads hguard.2
  | replyLine =>
    obtain ⟨client, hround, rfl⟩ := Option.map_eq_some_iff.mp hstep
    exact hdelivers.replyLine hround
  | acquire =>
    obtain ⟨client, hacquire, rfl⟩ := Option.map_eq_some_iff.mp hstep
    exact hdelivers.acquire hacquire
  | executeNext =>
    obtain ⟨client, hexecute, rfl⟩ := Option.map_eq_some_iff.mp hstep
    exact hdelivers.executeNext hexecute
  | handshake outcome verified =>
    rw [← Option.some.inj hstep]
    exact hdelivers.keep (ChatClient.keepsReplies_progressTlsHandshake _ _ _)
  | readStdin data =>
    rw [← Option.some.inj hstep]
    exact hdelivers.keep ⟨rfl, rfl, rfl, rfl, List.prefix_refl _⟩
  | typedLine writes =>
    obtain ⟨result, hround, rfl⟩ := Option.map_eq_some_iff.mp hstep
    exact hdelivers.keep (ChatClient.keepsReplies_sendStdinRound hround)
  | flush writes =>
    rw [← Option.some.inj hstep]
    exact hdelivers.keep (ChatClient.keepsReplies_flushPendingSend _ _)

/-- With plain timestamps, what the server does is what it does on its own. -/
theorem server_of_reachable
    (hreach : (replyLink conn).ReachableUnder (fun _ label ↦ label.TimestampsPlain) state) :
    outgoingServer.ReachableUnder (fun _ label ↦ TimestampsPlain label) state.server := by
  refine @TransitionSystem.ReachableUnder.induction _ _ (replyLink conn) _
    (fun state ↦ outgoingServer.ReachableUnder (fun _ label ↦ TimestampsPlain label) state.server)
    .start ?_ _ hreach
  intro before label next _ hserver hplain hstep
  have hstep' : before.step conn label = some next := hstep
  cases label with
  | server label =>
    obtain ⟨server, hserver', rfl⟩ := Option.map_eq_some_iff.mp hstep'
    exact hserver.step hplain hserver'
  | recvSocket reads =>
    simp only [ReplyLink.step] at hstep'
    split_ifs at hstep'
    rw [← Option.some.inj hstep']
    exact hserver
  | replyLine | acquire | executeNext | typedLine writes =>
    obtain ⟨client, -, rfl⟩ := Option.map_eq_some_iff.mp hstep'
    exact hserver
  | handshake outcome verified | readStdin data | flush writes =>
    rw [← Option.some.inj hstep']
    exact hserver

theorem delivers_of_reachable
    (hreach : (replyLink conn).ReachableUnder (fun _ label ↦ label.TimestampsPlain) state) :
    state.Delivers conn :=
  @TransitionSystem.ReachableUnder.induction _ _ (replyLink conn) _
    (fun state ↦ state.Delivers conn) delivers_start
    (fun _ _ _ _ hdelivers _ hstep ↦ hdelivers.step hstep) _ hreach

end ReplyLink

/-- The stream of replies. The commands that the executor of a client has executed, executes, or has
in its queue are the first of those that the server has appended to its connection, in their order,
and all of them when everything has arrived and no complete line is left. Each is a response. The
texts of those executed are on the console in this order, and the client takes itself for logged in
as the last text of a login among them said. -/
theorem replies_arrive [LinearOrder Bytes] {conn : Nat} {state : ReplyLink}
    (hreach : (replyLink conn).ReachableUnder (fun _ label ↦ label.TimestampsPlain) state) :
    state.taken <+: state.server.2.commandsOf conn ∧
    (state.received = state.server.2.streamOf conn →
      newline ∉ state.client.si.recv.currentData →
        state.taken = state.server.2.commandsOf conn) ∧
    (∀ cmd ∈ state.taken, ∃ message, cmd = .cmdResponse message) ∧
    (state.executed.filterMap printedOf).Sublist state.client.console ∧
    state.client.loggedIn = lastLogin state.executed := by
  have hdelivers := ReplyLink.delivers_of_reachable hreach
  have hserver := ReplyLink.server_of_reachable hreach
  obtain ⟨lines, hwhole, hreceived, htaken⟩ := hdelivers.lines
  obtain ⟨rest, hrest⟩ := hdelivers.received.trans
    ((streams_of_reachable hserver).accepted conn)
  have hresponses : ∀ cmd ∈ state.server.2.commandsOf conn, ∃ message,
      cmd = .cmdResponse message ∧ IsToken message := by
    intro cmd hcmd
    obtain ⟨entry, hentry, rfl⟩ := List.mem_map.mp hcmd
    exact responses_of_reachable hserver entry (List.mem_of_mem_filter hentry)
  have htokens : ∀ cmd ∈ state.server.2.commandsOf conn, cmd.FieldsAreTokens := by
    intro cmd hcmd field hfield
    obtain ⟨message, rfl, hmessage⟩ := hresponses cmd hcmd
    exact List.mem_singleton.mp hfield ▸ hmessage
  -- the lines of the commands appended are those taken and those still to be taken
  have hlines : (state.server.2.commandsOf conn).map Command.line =
      lines ++ DelimitedStream.records newline (state.client.si.recv.currentData ++ rest) := by
    refine DelimitedStream.eq_append_records (fun record hrecord ↦ ?_) hwhole ?_
    · obtain ⟨cmd, hcmd, rfl⟩ := List.mem_map.mp hrecord
      exact newline_notMem_line (htokens cmd hcmd)
    · rw [DelimitedStream.joined, List.flatMap_map, ← List.append_assoc, ← hreceived, hrest]
      exact List.flatMap_congr fun cmd _ ↦ (encode_eq_line cmd).symm
  have hcommands : ((state.server.2.commandsOf conn).map Command.line).filterMap commandOf =
      state.server.2.commandsOf conn := by
    rw [List.filterMap_map]
    refine (List.filterMap_congr fun cmd hcmd ↦ ?_).trans List.filterMap_some
    show (decode cmd.line).toOption = some cmd
    rw [decode_line (htokens cmd hcmd)]
    rfl
  rw [hlines, List.filterMap_append, ← htaken] at hcommands
  have hinitial : state.taken <+: state.server.2.commandsOf conn := ⟨_, hcommands⟩
  refine ⟨hinitial, fun hall hnone ↦ ?_, fun cmd hcmd ↦ ?_, hdelivers.console,
    hdelivers.loggedIn⟩
  · obtain rfl : rest = [] := by
      rw [hall] at hrest
      exact List.append_right_eq_self.mp hrest
    rw [List.append_nil, DelimitedStream.records_eq_nil_iff.mpr hnone, List.filterMap_nil,
      List.append_nil] at hcommands
    exact hcommands
  · obtain ⟨message, hmessage, -⟩ := hresponses cmd (hinitial.subset hcmd)
    exact ⟨message, hmessage⟩

/-- A round of the event loop in which TLS takes all that is to be sent. -/
def restSent : List ServerLabel :=
  working [(5, epollOut)] 0 ++
    [.workDone, .dispatch (.receiving []), .dispatch (.sending 100), .dispatch (.receiving []),
      .dispatchDone]

/-- A client registers an account, and receives the reply in two pieces. -/
def replyInPieces : List ReplyLabel :=
  halfSent.map .server ++
    [.handshake none true, .recvSocket ⟨[text "response\rr"], .wantRead⟩] ++
    restSent.map .server ++
    [.recvSocket ⟨[text "egister success\n"], .wantRead⟩, .replyLine, .acquire, .executeNext]

theorem timestampsPlain_replyInPieces : ∀ label ∈ replyInPieces, label.TimestampsPlain := by
  have hsteady : DbEnv.steady.TimestampsUndelimited := fun _ ↦ undelimited_nil
  simp [replyInPieces, halfSent, restSent, connecting, round, working, sending, executing,
    ReplyLabel.TimestampsPlain, TimestampsPlain, hsteady]

theorem replies_arrive_inPieces : ∃ state,
    (@replyLink bytewise 0).run (@replyLink bytewise 0).start replyInPieces = some state ∧
    state.taken = state.server.2.commandsOf 0 ∧
    state.executed = [.cmdResponse (text "register success")] ∧
    (state.executed.filterMap printedOf).Sublist state.client.console := by
  let order := bytewise
  have hmeets := (replyLink 0).meets_of_labels
    (fun label hlabel _ ↦ timestampsPlain_replyInPieces label hlabel) (replyLink 0).start
  have hrun : (((replyLink 0).run (replyLink 0).start replyInPieces).map fun state ↦
      decide (state.received = state.server.2.streamOf 0 ∧
        newline ∉ state.client.si.recv.currentData ∧
        state.executed = [.cmdResponse (text "register success")])) = some true := by
    decide +kernel
  obtain ⟨state, hstate, hfacts⟩ := Option.map_eq_some_iff.mp hrun
  obtain ⟨hreceived, hnone, hexecuted⟩ := of_decide_eq_true hfacts
  obtain ⟨-, hall, -, hconsole, -⟩ := replies_arrive ⟨replyInPieces, hmeets, hstate⟩
  exact ⟨state, hstate, hall hreceived hnone, hexecuted, hconsole⟩

end ChatServer
