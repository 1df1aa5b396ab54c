import ChatServer.Net.IoHelper

/-!
# The chat client

The client has two threads. `chat_io_worker` reads standard input and the socket: it turns every
typed line into at most one command in the send buffer, and every line from the server into a
command for the other thread. `chat_executor` prints the replies and keeps the flag `logged_in`,
which the io thread reads before it executes a typed line.

`ChatClient` is the state of both. `parse` splits a typed line into words, `execute` is what a typed
line does, and `sendStdinRound` and `receiveRound` are the rounds of the two loops over lines. The
record is the commands put into the send buffer and the bytes that TLS has taken out of it.

Not modelled here: `socket_events` and `poll`, which only decide when the functions run, and the
texts of errors.
-/

set_option autoImplicit false
set_option relaxedAutoImplicit false

namespace ChatServer

/-- `chat_client`, `chat_io_worker` and `chat_executor`; `executing` is the command that the
executor has taken out of its queue. -/
structure ChatClient where
  si : SocketInfo
  loggedIn : Bool := false
  executeQ : List Command := []
  executing : Option Command := none
  stdinBuf : OffsetBuffer := .empty
  peerVerified : Bool := false
  selectedRoomId : Option Int := none
  console : List Bytes := []
  appended : List Command := []
  accepted : Bytes := []

/-- `chat_io_worker::parsed_command`. -/
structure ParsedCommand where
  cmd : Bytes := []
  args : List Bytes := []
  deriving DecidableEq

/-! ### Words -/

/-- `' '`. -/
def space : UInt8 := 32

/-- `while(idx < n && line[idx] == ' ') ++idx`. -/
def skipSpaces (line : Bytes) : Bytes :=
  line.dropWhile fun byte ↦ decide (byte = space)

/-- The first word is the command, the later ones are its arguments. -/
def ParsedCommand.take (parsed : ParsedCommand) (token : Bytes) : ParsedCommand :=
  if parsed.cmd = [] then { parsed with cmd := token }
  else { parsed with args := parsed.args ++ [token] }

/-- The loop of `parse` on what is left of the line. -/
def parseLoop : Nat → Bytes → ParsedCommand → ParsedCommand
  | 0, _, parsed => parsed
  | fuel + 1, rest, parsed =>
    if rest = [] then parsed
    else
      parseLoop fuel (skipSpaces (rest.dropWhile fun byte ↦ decide (byte ≠ space)))
        (parsed.take (rest.takeWhile fun byte ↦ decide (byte ≠ space)))

/-- `chat_io_worker::parse`. -/
def parse (line : Bytes) : ParsedCommand :=
  parseLoop line.length (skipSpaces line) {}

example :
    parse (text "  /login  a p ") = { cmd := text "/login", args := [text "a", text "p"] } := by
  decide

namespace ChatClient

/-- `client_console::print_line`. -/
def printLine (client : ChatClient) (line : Bytes) : ChatClient :=
  { client with console := client.console ++ [line] }

/-- `si.send.append(cmd)`. -/
def append (client : ChatClient) (cmd : Command) : ChatClient :=
  { client with
    si := { client.si with send := (client.si.send.appendSending (encode cmd)).1 }
    appended := client.appended ++ [cmd] }

/-! ### Typed lines -/

/-- `say`. -/
def say (client : ChatClient) (line : Bytes) : ChatClient :=
  match client.selectedRoomId with
  | none => client.printLine (text "select room first: /select_room <room_id>")
  | some roomId => client.append (.cmdSay (toText roomId) line)

/-- `select_room`. -/
def selectRoom (client : ChatClient) (roomId : Bytes) : ChatClient :=
  match stoll roomId with
  | none => client.printLine (text "invalid room id: /select_room <room_id>")
  | some (parsedRoomId, pos) =>
    if pos ≠ roomId.length ∨ parsedRoomId ≤ 0 then
      client.printLine (text "invalid room id: /select_room <room_id>")
    else
      { client with selectedRoomId := some parsedRoomId }.printLine
        (text "selected room: " ++ toText parsedRoomId)

/-- What `help` prints. -/
def helpLines : List Bytes :=
  ["commands:", "  /register <id> <pw>", "  /login <id> <pw>", "  /friend_request <user_id>",
    "  /friend_accept <user_id>", "  /friend_reject <user_id>", "  /friend_remove <user_id>",
    "  /list_friend", "  /list_friend_request", "  /create_room <room_name>",
    "  /delete_room <room_id>", "  /invite_room <room_id> <friend_user_id>",
    "  /leave_room <room_id>", "  /select_room <room_id>", "  /list_room",
    "  /history <room_id> <limit>", "  /nick <nickname>", "  /help",
    "  <text> (send chat message, room must be selected)"].map text

/-- `help`. -/
def help (client : ChatClient) : ChatClient :=
  { client with console := client.console ++ helpLines }

/-- A command without arguments: its usage is printed when there are any. -/
def withNone (client : ChatClient) (usage : String) (args : List Bytes) (action : ChatClient) :
    ChatClient :=
  if args = [] then action else client.printLine (text usage)

/-- A command with one argument: its usage is printed when there is not exactly one. -/
def withOne (client : ChatClient) (usage : String) (args : List Bytes)
    (action : Bytes → ChatClient) : ChatClient :=
  match args with
  | [first] => action first
  | _ => client.printLine (text usage)

/-- A command with two arguments: its usage is printed when there are not exactly two. -/
def withTwo (client : ChatClient) (usage : String) (args : List Bytes)
    (action : Bytes → Bytes → ChatClient) : ChatClient :=
  match args with
  | [first, second] => action first second
  | _ => client.printLine (text usage)

/-- The chain of comparisons of `execute` on a word that begins with `'/'`. -/
def executeSlash (client : ChatClient) (parsed : ParsedCommand) : ChatClient :=
  if parsed.cmd = text "/nick" then
    client.withOne "/nick <nickname>" parsed.args fun nick ↦ client.append (.cmdNick nick)
  else if parsed.cmd = text "/login" then
    client.withTwo "/login <id> <pw>" parsed.args fun id pw ↦ client.append (.cmdLogin id pw)
  else if parsed.cmd = text "/register" then
    client.withTwo "/register <id> <pw>" parsed.args fun id pw ↦ client.append (.cmdRegister id pw)
  else if parsed.cmd = text "/friend_request" then
    client.withOne "/friend_request <user_id>" parsed.args fun toUserId ↦
      client.append (.cmdFriendRequest toUserId)
  else if parsed.cmd = text "/friend_accept" then
    client.withOne "/friend_accept <user_id>" parsed.args fun fromUserId ↦
      client.append (.cmdFriendAccept fromUserId)
  else if parsed.cmd = text "/friend_reject" then
    client.withOne "/friend_reject <user_id>" parsed.args fun fromUserId ↦
      client.append (.cmdFriendReject fromUserId)
  else if parsed.cmd = text "/friend_remove" then
    client.withOne "/friend_remove <user_id>" parsed.args fun friendUserId ↦
      client.append (.cmdFriendRemove friendUserId)
  else if parsed.cmd = text "/list_friend" then
    client.withNone "/list_friend" parsed.args (client.append .cmdListFriend)
  else if parsed.cmd = text "/list_friend_request" then
    client.withNone "/list_friend_request" parsed.args (client.append .cmdListFriendRequest)
  else if parsed.cmd = text "/create_room" then
    client.withOne "/create_room <room_name>" parsed.args fun roomName ↦
      client.append (.cmdCreateRoom roomName)
  else if parsed.cmd = text "/delete_room" then
    client.withOne "/delete_room <room_id>" parsed.args fun roomId ↦
      client.append (.cmdDeleteRoom roomId)
  else if parsed.cmd = text "/invite_room" then
    client.withTwo "/invite_room <room_id> <friend_user_id>" parsed.args fun roomId friendUserId ↦
      client.append (.cmdInviteRoom roomId friendUserId)
  else if parsed.cmd = text "/leave_room" then
    client.withOne "/leave_room <room_id>" parsed.args fun roomId ↦
      client.append (.cmdLeaveRoom roomId)
  else if parsed.cmd = text "/select_room" then
    client.withOne "/select_room <room_id>" parsed.args client.selectRoom
  else if parsed.cmd = text "/list_room" then
    client.withNone "/list_room" parsed.args (client.append .cmdListRoom)
  else if parsed.cmd = text "/history" then
    client.withTwo "/history <room_id> <limit>" parsed.args fun roomId limit ↦
      client.append (.cmdHistory roomId limit)
  else if parsed.cmd = text "/help" then client.withNone "/help" parsed.args client.help
  else client.printLine (text "unknown command")

/-- `chat_io_worker::execute`. -/
def execute (client : ChatClient) (line : Bytes) : ChatClient :=
  if line = [] then client
  else
    let parsed := parse line
    if parsed.cmd = [] then client
    else if ¬ client.loggedIn ∧ parsed.cmd ≠ text "/login" ∧ parsed.cmd ≠ text "/register" ∧
        parsed.cmd ≠ text "/help" then
      client.printLine (text "login first: /login <id> <pw> or /register <id> <pw>")
    else if parsed.cmd.head? ≠ some 47 then
      if client.selectedRoomId = none then
        client.printLine (text "select room first: /select_room <room_id>")
      else client.say line
    else client.executeSlash parsed

/-! ### Standard input and the send buffer -/

/-- `flush_send(si)`, with the bytes it sent in the record; the flag is whether it succeeded. -/
def flush (client : ChatClient) (writes : SslTransfer Nat) : ChatClient × Bool :=
  ({ client with
      si := (flushSend writes client.si).1
      accepted := client.accepted ++
        if client.si.tls.hasSsl then flushedBytes writes.reports client.si.send else [] },
    (flushSend writes client.si).2.isSome)

/-- `flush_pending_send`. -/
def flushPendingSend (client : ChatClient) (writes : SslTransfer Nat) : ChatClient × Bool :=
  if ¬ client.si.send.hasPending then (client, true) else client.flush writes

/-- `stdin_buf.append(tmp, recv_byte)`. -/
def readStdin (client : ChatClient) (data : Bytes) : ChatClient :=
  { client with stdinBuf := client.stdinBuf.append data }

/-- What a round of the loop of `send_stdin` does with a line that `parse_line` has taken. -/
def sendLine (client : ChatClient) (writes : SslTransfer Nat) (line : Bytes) : ChatClient × Bool :=
  if line = [] then (client, true)
  else
    let executed := client.execute line
    if ¬ client.si.send.hasPending ∧ ¬ executed.si.send.hasPending then (executed, true)
    else if ¬ executed.si.tls.handshakeDone then (executed, true)
    else executed.flush writes

/-- A round of the loop of `send_stdin`, with the line it took; `none` ends the loop. -/
def sendStdinRound (client : ChatClient) (writes : SslTransfer Nat) :
    Option (Bytes × ChatClient × Bool) :=
  match client.stdinBuf.parseLine with
  | none => none
  | some (line, rest) => some (line, { client with stdinBuf := rest }.sendLine writes line)

/-! ### The socket -/

/-- `progress_tls_handshake`; `verified` is what `verify_peer` answers. -/
def progressTlsHandshake (client : ChatClient) (outcome : Option SslError) (verified : Bool) :
    ChatClient × Bool :=
  if client.si.tls.handshakeDone then
    if client.peerVerified then (client, true)
    else if ¬ verified then (client, false)
    else ({ client with peerVerified := true }, true)
  else
    let handshake := client.si.tls.handshake outcome
    let client := { client with si := { client.si with tls := handshake.1 } }
    match handshake.2 with
    | none => (client, false)
    | some io =>
      if io.closed then (client, false)
      else if ¬ client.si.tls.handshakeDone then (client, true)
      else if ¬ verified then (client, false)
      else ({ client with peerVerified := true }, true)

/-- `recv_socket`; the flag is whether it succeeded. -/
def recvSocket (client : ChatClient) (reads : SslTransfer Bytes) : ChatClient × Bool :=
  ({ client with si := (drainRecv reads client.si).1 }, (drainRecv reads client.si).2.isSome)

/-- A round of the loop over the lines from the server; `none` ends the loop. -/
def receiveRound (client : ChatClient) : Option ChatClient :=
  match client.si.recv.parseLine with
  | none => none
  | some (line, rest) =>
    let client := { client with si := { client.si with recv := rest } }
    match decode line with
    | .error _ => some client
    | .ok cmd => some { client with executeQ := client.executeQ ++ [cmd] }

/-! ### The executor -/

/-- The lock region of `chat_executor::run`. -/
def acquire (client : ChatClient) : Option ChatClient :=
  match client.executing, client.executeQ with
  | none, cmd :: rest => some { client with executeQ := rest, executing := some cmd }
  | _, _ => none

/-- `chat_executor::execute`. -/
def executeReply (client : ChatClient) (cmd : Command) : ChatClient :=
  match cmd with
  | .cmdResponse message =>
    { client with
      loggedIn :=
        if message = text "login success" then true
        else if message = text "login failed" then false
        else client.loggedIn }.printLine message
  | _ => client

/-- The call of `execute` in `chat_executor::run`. -/
def executeNext (client : ChatClient) : Option ChatClient :=
  match client.executing with
  | none => none
  | some cmd => some { client.executeReply cmd with executing := none }

end ChatClient

/-! ### What a line from the server does -/

theorem receiveRound_of_none {client : ChatClient} (hparse : client.si.recv.parseLine = none) :
    client.receiveRound = none := by
  rw [ChatClient.receiveRound, hparse]

/-- A line is taken out of the receive buffer, and its command may enter the queue. -/
theorem receiveRound_of_some {client : ChatClient} {line : Bytes} {rest : OffsetBuffer}
    (hparse : client.si.recv.parseLine = some (line, rest)) : ∃ queue, client.receiveRound =
      some { client with si := { client.si with recv := rest }, executeQ := queue } := by
  rw [ChatClient.receiveRound, hparse]
  dsimp only
  cases decode line with
  | error error => exact ⟨client.executeQ, rfl⟩
  | ok cmd => exact ⟨_, rfl⟩

/-! ### What a typed line is split into -/

theorem head?_skipSpaces (line : Bytes) : (skipSpaces line).head? ≠ some space := by
  intro hhead
  have hnot := List.head?_dropWhile_not (fun byte ↦ decide (byte = space)) line
  rw [show line.dropWhile (fun byte ↦ decide (byte = space)) = skipSpaces line from rfl,
    hhead] at hnot
  exact absurd hnot (by decide)

theorem skipSpaces_subset (line : Bytes) : skipSpaces line ⊆ line :=
  (List.dropWhile_suffix _).subset

/-- What is left of the line after a word and the spaces behind it is shorter than before. -/
theorem length_skipSpaces_lt {rest : Bytes} (hrest : rest ≠ []) (hhead : rest.head? ≠ some space) :
    (skipSpaces (rest.dropWhile fun byte ↦ decide (byte ≠ space))).length < rest.length := by
  obtain ⟨first, later, rfl⟩ := List.exists_cons_of_ne_nil hrest
  have hfirst : decide (first ≠ space) = true :=
    decide_eq_true fun hsame ↦ hhead (congrArg some hsame)
  have hword := (List.dropWhile_suffix (l := later) fun byte ↦ decide (byte ≠ space)).length_le
  have hskip : (skipSpaces (later.dropWhile fun byte ↦ decide (byte ≠ space))).length ≤
      (later.dropWhile fun byte ↦ decide (byte ≠ space)).length :=
    (List.dropWhile_suffix _).length_le
  rw [List.dropWhile_cons, if_pos hfirst, List.length_cons]
  omega

/-- More fuel than bytes changes nothing: the loop has left by then. -/
theorem parseLoop_eq_of_le {fuel more : Nat} {rest : Bytes} (hhead : rest.head? ≠ some space)
    (hfuel : rest.length ≤ fuel) (hmore : rest.length ≤ more) (parsed : ParsedCommand) :
    parseLoop fuel rest parsed = parseLoop more rest parsed := by
  induction fuel generalizing more rest parsed with
  | zero =>
    have hrest : rest = [] := List.length_eq_zero_iff.mp (by omega)
    cases more with
    | zero => rfl
    | succ more => rw [parseLoop, parseLoop, if_pos hrest]
  | succ fuel ih =>
    by_cases hrest : rest = []
    · cases more with
      | zero => rw [parseLoop, parseLoop, if_pos hrest]
      | succ more => rw [parseLoop, parseLoop, if_pos hrest, if_pos hrest]
    · have hshorter := length_skipSpaces_lt hrest hhead
      cases more with
      | zero => exact absurd (List.length_eq_zero_iff.mp (by omega)) hrest
      | succ more =>
        rw [parseLoop, parseLoop, if_neg hrest, if_neg hrest]
        exact ih (head?_skipSpaces _) (by omega) (by omega) _

/-- A word of the line: it is not empty. -/
def IsWordOf (line word : Bytes) : Prop :=
  word ≠ [] ∧ word ⊆ line

theorem ParsedCommand.args_take {line : Bytes} {parsed : ParsedCommand} {token : Bytes}
    (hargs : ∀ arg ∈ parsed.args, IsWordOf line arg) (htoken : IsWordOf line token) :
    ∀ arg ∈ (parsed.take token).args, IsWordOf line arg := by
  unfold ParsedCommand.take
  split_ifs
  · exact hargs
  · intro arg harg
    rcases List.mem_append.mp harg with hold | hnew
    · exact hargs arg hold
    · rw [List.mem_singleton.mp hnew]
      exact htoken

theorem args_parseLoop {line rest : Bytes} {parsed : ParsedCommand} (fuel : Nat)
    (hargs : ∀ arg ∈ parsed.args, IsWordOf line arg) (hrest : rest ⊆ line)
    (hhead : rest.head? ≠ some space) :
    ∀ arg ∈ (parseLoop fuel rest parsed).args, IsWordOf line arg := by
  induction fuel generalizing rest parsed with
  | zero => exact hargs
  | succ fuel ih =>
    unfold parseLoop
    split_ifs with hnil
    · exact hargs
    · refine ih (ParsedCommand.args_take hargs ⟨?_, ?_⟩) ?_ (head?_skipSpaces _)
      · obtain ⟨first, later, rfl⟩ := List.exists_cons_of_ne_nil hnil
        have hfirst : decide (first ≠ space) = true :=
          decide_eq_true fun hsame ↦ hhead (congrArg some hsame)
        rw [List.takeWhile_cons, if_pos hfirst]
        exact List.cons_ne_nil _ _
      · exact List.Subset.trans (List.takeWhile_prefix _).subset hrest
      · refine List.Subset.trans (skipSpaces_subset _) ?_
        exact List.Subset.trans (List.dropWhile_suffix _).subset hrest

/-- The arguments of a typed line are words of it. -/
theorem args_parse (line : Bytes) : ∀ arg ∈ (parse line).args, IsWordOf line arg :=
  args_parseLoop _ (fun _ harg ↦ absurd harg List.not_mem_nil) (skipSpaces_subset line)
    (head?_skipSpaces line)

/-! ### What a typed line does -/

/-- What a typed line may do: it puts these commands into the send buffer, at most one, whose fields
are words of the line, or the line and the selected room. -/
structure Typed (line : Bytes) (before after : ChatClient) (cmds : List Command) : Prop where
  appended : after.appended = before.appended ++ cmds
  send : after.si.send.currentData = before.si.send.currentData ++ cmds.flatMap encode
  recv : after.si.recv = before.si.recv
  tls : after.si.tls = before.si.tls
  stdinBuf : after.stdinBuf = before.stdinBuf
  accepted : after.accepted = before.accepted
  single : cmds.length ≤ 1
  fields : ∀ cmd ∈ cmds, ∀ field ∈ cmd.fields,
    IsWordOf line field ∨ ∃ roomId, field = toText roomId
  say : ∀ roomId message, .cmdSay roomId message ∈ cmds →
    message = line ∧ ∃ selected, before.selectedRoomId = some selected ∧ roomId = toText selected

/-- What executing a typed line leaves: the client with other lines on the console and perhaps
another room, or with one command more in the send buffer, whose fields come from the line. -/
inductive LineEffect (line : Bytes) (client : ChatClient) : ChatClient → Prop
  | quiet (console : List Bytes) (selectedRoomId : Option Int) :
    LineEffect line client
      { client with console := console, selectedRoomId := selectedRoomId }
  | append (cmd : Command)
    (hfields : ∀ field ∈ cmd.fields, IsWordOf line field ∨ ∃ roomId, field = toText roomId)
    (hsay : ∀ roomId message, cmd = .cmdSay roomId message → message = line ∧
      ∃ selected, client.selectedRoomId = some selected ∧ roomId = toText selected) :
    LineEffect line client (client.append cmd)

section LineEffect

variable {line : Bytes} {client : ChatClient}

theorem effect_printLine (message : Bytes) : LineEffect line client (client.printLine message) :=
  .quiet _ client.selectedRoomId

/-- A command that carries words of the line. -/
theorem effect_words {cmd : Command} (hfields : ∀ field ∈ cmd.fields, IsWordOf line field)
    (hsay : ∀ roomId message, cmd ≠ .cmdSay roomId message) :
    LineEffect line client (client.append cmd) :=
  .append cmd (fun field hfield ↦ Or.inl (hfields field hfield))
    fun roomId message hsame ↦ absurd hsame (hsay roomId message)

theorem effect_selectRoom (roomId : Bytes) :
    LineEffect line client (client.selectRoom roomId) := by
  unfold ChatClient.selectRoom
  split
  · exact effect_printLine _
  · split_ifs
    · exact effect_printLine _
    · exact .quiet _ _

theorem effect_withNone {usage : String} {args : List Bytes} {action : ChatClient}
    (haction : LineEffect line client action) :
    LineEffect line client (client.withNone usage args action) := by
  unfold ChatClient.withNone
  split_ifs
  · exact haction
  · exact effect_printLine _

theorem effect_withOne {usage : String} {args : List Bytes} {action : Bytes → ChatClient}
    (hargs : ∀ arg ∈ args, IsWordOf line arg)
    (haction : ∀ first, IsWordOf line first → LineEffect line client (action first)) :
    LineEffect line client (client.withOne usage args action) := by
  unfold ChatClient.withOne
  split
  · next first => exact haction first (hargs first List.mem_cons_self)
  · exact effect_printLine _

theorem effect_withTwo {usage : String} {args : List Bytes}
    {action : Bytes → Bytes → ChatClient} (hargs : ∀ arg ∈ args, IsWordOf line arg)
    (haction : ∀ first second, IsWordOf line first → IsWordOf line second →
      LineEffect line client (action first second)) :
    LineEffect line client (client.withTwo usage args action) := by
  unfold ChatClient.withTwo
  split
  · next first second =>
    exact haction first second (hargs first List.mem_cons_self)
      (hargs second (List.mem_cons_of_mem _ List.mem_cons_self))
  · exact effect_printLine _

/-- A command with one word. -/
theorem effect_oneWord {usage : String} {args : List Bytes} {command : Bytes → Command}
    (hargs : ∀ arg ∈ args, IsWordOf line arg) (hcommand : ∀ field, (command field).fields = [field])
    (hsay : ∀ field roomId message, command field ≠ .cmdSay roomId message) :
    LineEffect line client
      (client.withOne usage args fun first ↦ client.append (command first)) := by
  refine effect_withOne hargs fun first hfirst ↦ effect_words (fun field hfield ↦ ?_) (hsay first)
  rw [hcommand, List.mem_singleton] at hfield
  rw [hfield]
  exact hfirst

/-- A command with two words. -/
theorem effect_twoWords {usage : String} {args : List Bytes} {command : Bytes → Bytes → Command}
    (hargs : ∀ arg ∈ args, IsWordOf line arg)
    (hcommand : ∀ first second, (command first second).fields = [first, second])
    (hsay : ∀ first second roomId message, command first second ≠ .cmdSay roomId message) :
    LineEffect line client
      (client.withTwo usage args fun first second ↦ client.append (command first second)) := by
  refine effect_withTwo hargs fun first second hfirst hsecond ↦
    effect_words (fun field hfield ↦ ?_) (hsay first second)
  rw [hcommand, List.mem_pair] at hfield
  rcases hfield with rfl | rfl
  · exact hfirst
  · exact hsecond

/-- A command without words. -/
theorem effect_noWord {usage : String} {args : List Bytes} {cmd : Command}
    (hcmd : cmd.fields = []) :
    LineEffect line client (client.withNone usage args (client.append cmd)) := by
  refine effect_withNone (effect_words (fun field hfield ↦ ?_) fun roomId message hsame ↦ ?_)
  · rw [hcmd] at hfield
    exact absurd hfield List.not_mem_nil
  · rw [hsame] at hcmd
    cases hcmd

/-- One comparison of the chain. -/
theorem effect_ite {condition : Prop} [Decidable condition] {first second : ChatClient}
    (hfirst : LineEffect line client first) (hsecond : LineEffect line client second) :
    LineEffect line client (if condition then first else second) := by
  split_ifs
  · exact hfirst
  · exact hsecond

theorem effect_executeSlash {parsed : ParsedCommand}
    (hargs : ∀ arg ∈ parsed.args, IsWordOf line arg) :
    LineEffect line client (client.executeSlash parsed) := by
  unfold ChatClient.executeSlash
  iterate 17
    refine effect_ite ?_ ?_
    · first
      | exact effect_noWord rfl
      | exact effect_withNone (.quiet _ client.selectedRoomId)
      | exact effect_withOne hargs fun first _ ↦ effect_selectRoom first
      | exact effect_oneWord hargs (fun _ ↦ rfl) fun _ _ _ hsame ↦ by cases hsame
      | exact effect_twoWords hargs (fun _ _ ↦ rfl) fun _ _ _ _ hsame ↦ by cases hsame
  exact effect_printLine _

/-- Every typed line leaves the client in one of the two ways. -/
theorem effect_execute (client : ChatClient) (line : Bytes) :
    LineEffect line client (client.execute line) := by
  have hnothing : LineEffect line client client := .quiet client.console client.selectedRoomId
  unfold ChatClient.execute
  dsimp only
  split_ifs with hline hcmd hlogin hslash hselected
  · exact hnothing
  · exact hnothing
  · exact effect_printLine _
  · exact effect_printLine _
  · unfold ChatClient.say
    obtain ⟨selected, hselected⟩ := Option.ne_none_iff_exists'.mp hselected
    rw [hselected]
    refine .append _ (fun field hfield ↦ ?_) fun roomId message hsame ↦ ?_
    · rcases List.mem_pair.mp hfield with hroom | hmessage
      · exact Or.inr ⟨selected, hroom⟩
      · rw [hmessage]
        exact Or.inl ⟨hline, List.Subset.refl line⟩
    · obtain ⟨rfl, rfl⟩ := Command.cmdSay.inj hsame
      exact ⟨rfl, selected, hselected, rfl⟩
  · exact effect_executeSlash (args_parse line)

theorem LineEffect.typed {after : ChatClient} (heffect : LineEffect line client after) :
    ∃ cmds, Typed line client after cmds := by
  cases heffect with
  | quiet console selectedRoomId =>
    exact ⟨[],
      { appended := (List.append_nil _).symm
        send := (List.append_nil _).symm
        recv := rfl
        tls := rfl
        stdinBuf := rfl
        accepted := rfl
        single := Nat.zero_le 1
        fields := fun cmd hcmd ↦ absurd hcmd List.not_mem_nil
        say := fun roomId message hcmd ↦ absurd hcmd List.not_mem_nil }⟩
  | append cmd hfields hsay =>
    refine ⟨[cmd],
      { appended := rfl
        send := ?_
        recv := rfl
        tls := rfl
        stdinBuf := rfl
        accepted := rfl
        single := le_refl 1
        fields := fun other hother ↦ ?_
        say := fun roomId message hmem ↦
          hsay roomId message (List.mem_singleton.mp hmem).symm }⟩
    · rw [List.flatMap_singleton]
      exact OffsetBuffer.currentData_append _ _
    · rw [List.mem_singleton.mp hother]
      exact hfields

/-- Every typed line puts at most one command into the send buffer. -/
theorem typed_execute (client : ChatClient) (line : Bytes) :
    ∃ cmds, Typed line client (client.execute line) cmds :=
  (effect_execute client line).typed

/-- No typed line touches `peer_verified`. -/
theorem LineEffect.peerVerified {after : ChatClient} (heffect : LineEffect line client after) :
    after.peerVerified = client.peerVerified := by
  cases heffect <;> rfl

end LineEffect

end ChatServer
