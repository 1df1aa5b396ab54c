import Mathlib.Data.List.TakeWhile
import ChatServer.Core.Bytes

/-!
# The command codec

One command is one line of the stream: its name and its arguments separated by `'\r'`, ended by
`'\n'`. `Command` is the variant `command_codec::command`, `encode` writes a command, and `decode`
reads a line that the line parser has already taken its `'\n'` from.

`decodeLoop` is the loop of `decode_line` on what is left of the line. A round takes at least one
byte (`length_tail_lt`), so the length of the line is fuel enough. The encoder escapes nothing: the
line of a command is its name and its fields with a `'\r'` in front of each (`encode_eq_line`), and
a field that is a token, not empty and without the two delimiters, is one word of it.
-/

set_option autoImplicit false
set_option relaxedAutoImplicit false

namespace ChatServer

/-- `command_codec::command`. -/
inductive Command
  | cmdSay (roomId text : Bytes)
  | cmdNick (nick : Bytes)
  | cmdResponse (text : Bytes)
  | cmdLogin (id pw : Bytes)
  | cmdRegister (id pw : Bytes)
  | cmdFriendRequest (toUserId : Bytes)
  | cmdFriendAccept (fromUserId : Bytes)
  | cmdFriendReject (fromUserId : Bytes)
  | cmdFriendRemove (friendUserId : Bytes)
  | cmdListFriend
  | cmdListFriendRequest
  | cmdCreateRoom (roomName : Bytes)
  | cmdDeleteRoom (roomId : Bytes)
  | cmdInviteRoom (roomId friendUserId : Bytes)
  | cmdLeaveRoom (roomId : Bytes)
  | cmdListRoom
  | cmdHistory (roomId limit : Bytes)
  deriving DecidableEq

/-- `command_codec::decode_error`. -/
inductive DecodeError
  | emptyLine
  | invalidCommand
  | unexpectedArgument
  deriving DecidableEq

/-- `command_codec::decode_info`. -/
structure DecodeInfo where
  cmd : Bytes := []
  args : List Bytes := []
  deriving DecidableEq

/-! ### Decoding -/

/-- `command_codec::erase_delimeter`. -/
def eraseDelimeter (line : Bytes) : Bytes :=
  if line.getLast? = some newline then line.dropLast else line

/-- The first token is the command, the later ones its arguments; an empty token is skipped. -/
def DecodeInfo.take (info : DecodeInfo) (token : Bytes) : DecodeInfo :=
  if token = [] then info
  else if info.cmd = [] then { info with cmd := token }
  else { info with args := info.args ++ [token] }

/-- The loop of `decode_line` from `start` on. -/
def decodeLoop : Nat → Bytes → DecodeInfo → DecodeInfo
  | 0, _, info => info
  | fuel + 1, rest, info =>
    match rest.dropWhile (fun byte ↦ decide (byte ≠ carriageReturn)) with
    | [] => info.take rest
    | _ :: later =>
      decodeLoop fuel (if later.head? = some newline then later.tail else later)
        (info.take (rest.takeWhile fun byte ↦ decide (byte ≠ carriageReturn)))

/-- `command_codec::decode_line`. -/
def decodeLine (line : Bytes) : DecodeInfo :=
  decodeLoop line.length line {}

/-- A command without arguments. -/
def decodeNone (command : Command) (args : List Bytes) : Except DecodeError Command :=
  if args = [] then .ok command else .error .unexpectedArgument

/-- A command with one argument. -/
def decodeOne (command : Bytes → Command) (args : List Bytes) : Except DecodeError Command :=
  match args with
  | [first] => .ok (command first)
  | _ => .error .unexpectedArgument

/-- A command with two arguments. -/
def decodeTwo (command : Bytes → Bytes → Command) (args : List Bytes) :
    Except DecodeError Command :=
  match args with
  | [first, second] => .ok (command first second)
  | _ => .error .unexpectedArgument

/-- The chain of comparisons of `decode`. -/
def DecodeInfo.toCommand (info : DecodeInfo) : Except DecodeError Command :=
  if info.cmd = text "say" then decodeTwo .cmdSay info.args
  else if info.cmd = text "nick" then decodeOne .cmdNick info.args
  else if info.cmd = text "response" then decodeOne .cmdResponse info.args
  else if info.cmd = text "login" then decodeTwo .cmdLogin info.args
  else if info.cmd = text "register" then decodeTwo .cmdRegister info.args
  else if info.cmd = text "friend_request" then decodeOne .cmdFriendRequest info.args
  else if info.cmd = text "friend_accept" then decodeOne .cmdFriendAccept info.args
  else if info.cmd = text "friend_reject" then decodeOne .cmdFriendReject info.args
  else if info.cmd = text "friend_remove" then decodeOne .cmdFriendRemove info.args
  else if info.cmd = text "list_friend" then decodeNone .cmdListFriend info.args
  else if info.cmd = text "list_friend_request" then decodeNone .cmdListFriendRequest info.args
  else if info.cmd = text "create_room" then decodeOne .cmdCreateRoom info.args
  else if info.cmd = text "delete_room" then decodeOne .cmdDeleteRoom info.args
  else if info.cmd = text "invite_room" then decodeTwo .cmdInviteRoom info.args
  else if info.cmd = text "leave_room" then decodeOne .cmdLeaveRoom info.args
  else if info.cmd = text "list_room" then decodeNone .cmdListRoom info.args
  else if info.cmd = text "history" then decodeTwo .cmdHistory info.args
  else .error .invalidCommand

/-- `command_codec::decode`. -/
def decode (line : Bytes) : Except DecodeError Command :=
  let line := eraseDelimeter line
  if line = [] then .error .emptyLine
  else
    let info := decodeLine line
    if info.cmd = [] then .error .emptyLine else info.toCommand

/-! ### Encoding -/

/-- The command name, the arguments after a `'\r'` each, and the final `'\n'`. -/
def encodeWords (name : Bytes) (args : List Bytes) : Bytes :=
  name ++ args.flatMap (fun arg ↦ carriageReturn :: arg) ++ [newline]

/-- `command_codec::encode`. -/
def encode : Command → Bytes
  | .cmdNick nick => encodeWords (text "nick") [nick]
  | .cmdSay roomId message => encodeWords (text "say") [roomId, message]
  | .cmdResponse message => encodeWords (text "response") [message]
  | .cmdLogin id pw => encodeWords (text "login") [id, pw]
  | .cmdRegister id pw => encodeWords (text "register") [id, pw]
  | .cmdFriendRequest toUserId => encodeWords (text "friend_request") [toUserId]
  | .cmdFriendAccept fromUserId => encodeWords (text "friend_accept") [fromUserId]
  | .cmdFriendReject fromUserId => encodeWords (text "friend_reject") [fromUserId]
  | .cmdFriendRemove friendUserId => encodeWords (text "friend_remove") [friendUserId]
  | .cmdListFriend => encodeWords (text "list_friend") []
  | .cmdListFriendRequest => encodeWords (text "list_friend_request") []
  | .cmdCreateRoom roomName => encodeWords (text "create_room") [roomName]
  | .cmdDeleteRoom roomId => encodeWords (text "delete_room") [roomId]
  | .cmdInviteRoom roomId friendUserId => encodeWords (text "invite_room") [roomId, friendUserId]
  | .cmdLeaveRoom roomId => encodeWords (text "leave_room") [roomId]
  | .cmdListRoom => encodeWords (text "list_room") []
  | .cmdHistory roomId limit => encodeWords (text "history") [roomId, limit]

theorem encode_ne_nil (cmd : Command) : encode cmd ≠ [] := by
  cases cmd <;> exact List.append_ne_nil_of_right_ne_nil _ (List.cons_ne_nil _ _)

/-- What is left of the line after a round is shorter than before it. -/
theorem length_tail_lt {rest later : Bytes} {head : UInt8}
    (hdrop : rest.dropWhile (fun byte ↦ decide (byte ≠ carriageReturn)) = head :: later) :
    (if later.head? = some newline then later.tail else later).length < rest.length := by
  have hsuffix : (head :: later).length ≤ rest.length :=
    hdrop ▸ (List.dropWhile_suffix _).length_le
  rw [List.length_cons] at hsuffix
  split_ifs
  · rw [List.length_tail]
    omega
  · omega

/-! ### Names and fields -/

/-- The name that the encoder writes in front of a command. -/
def Command.name : Command → Bytes
  | .cmdNick _ => text "nick"
  | .cmdSay _ _ => text "say"
  | .cmdResponse _ => text "response"
  | .cmdLogin _ _ => text "login"
  | .cmdRegister _ _ => text "register"
  | .cmdFriendRequest _ => text "friend_request"
  | .cmdFriendAccept _ => text "friend_accept"
  | .cmdFriendReject _ => text "friend_reject"
  | .cmdFriendRemove _ => text "friend_remove"
  | .cmdListFriend => text "list_friend"
  | .cmdListFriendRequest => text "list_friend_request"
  | .cmdCreateRoom _ => text "create_room"
  | .cmdDeleteRoom _ => text "delete_room"
  | .cmdInviteRoom _ _ => text "invite_room"
  | .cmdLeaveRoom _ => text "leave_room"
  | .cmdListRoom => text "list_room"
  | .cmdHistory _ _ => text "history"

/-- The fields that the line of a command carries. -/
def Command.fields : Command → List Bytes
  | .cmdSay first second | .cmdLogin first second | .cmdRegister first second
  | .cmdInviteRoom first second | .cmdHistory first second => [first, second]
  | .cmdNick field | .cmdResponse field | .cmdFriendRequest field | .cmdFriendAccept field
  | .cmdFriendReject field | .cmdFriendRemove field | .cmdCreateRoom field
  | .cmdDeleteRoom field | .cmdLeaveRoom field => [field]
  | .cmdListFriend | .cmdListFriendRequest | .cmdListRoom => []

/-- No field of the command is empty. -/
def Command.FieldsNonempty (command : Command) : Prop :=
  ∀ field ∈ command.fields, field ≠ []

/-- A piece of a line between two `'\r'`. -/
structure IsPieceOf (line piece : Bytes) : Prop where
  nonempty : piece ≠ []
  noReturn : carriageReturn ∉ piece
  subset : piece ⊆ line

/-! ### Tokens -/

/-- A field that the encoder writes as one token: it is not empty, and no delimiter is in it. -/
structure IsToken (field : Bytes) : Prop where
  nonempty : field ≠ []
  noReturn : carriageReturn ∉ field
  noNewline : newline ∉ field

instance (field : Bytes) : Decidable (IsToken field) :=
  decidable_of_iff (field ≠ [] ∧ carriageReturn ∉ field ∧ newline ∉ field)
    ⟨fun ⟨hnonempty, hreturn, hnewline⟩ ↦ ⟨hnonempty, hreturn, hnewline⟩,
      fun htoken ↦ ⟨htoken.nonempty, htoken.noReturn, htoken.noNewline⟩⟩

/-- A string without the two delimiters, empty or not. -/
structure Undelimited (value : Bytes) : Prop where
  noReturn : carriageReturn ∉ value
  noNewline : newline ∉ value

instance (value : Bytes) : Decidable (Undelimited value) :=
  decidable_of_iff (carriageReturn ∉ value ∧ newline ∉ value)
    ⟨fun ⟨hreturn, hnewline⟩ ↦ ⟨hreturn, hnewline⟩,
      fun hvalue ↦ ⟨hvalue.noReturn, hvalue.noNewline⟩⟩

theorem undelimited_nil : Undelimited [] :=
  ⟨List.not_mem_nil, List.not_mem_nil⟩

theorem IsToken.undelimited {field : Bytes} (htoken : IsToken field) : Undelimited field :=
  ⟨htoken.noReturn, htoken.noNewline⟩

theorem Undelimited.append {first second : Bytes} (hfirst : Undelimited first)
    (hsecond : Undelimited second) : Undelimited (first ++ second) := by
  constructor <;> rw [List.mem_append, not_or]
  · exact ⟨hfirst.noReturn, hsecond.noReturn⟩
  · exact ⟨hfirst.noNewline, hsecond.noNewline⟩

/-- A number is a token. -/
theorem isToken_toText (number : Int) : IsToken (toText number) where
  nonempty := toText_ne_nil number
  noReturn hreturn := by
    rcases mem_toText hreturn with hminus | hdigit
    · exact absurd hminus (by decide)
    · exact absurd hdigit (by decide)
  noNewline hnewline := by
    rcases mem_toText hnewline with hminus | hdigit
    · exact absurd hminus (by decide)
    · exact absurd hdigit (by decide)

/-- The line of a command, without its `'\n'`. -/
def Command.line (cmd : Command) : Bytes :=
  cmd.name ++ cmd.fields.flatMap fun field ↦ carriageReturn :: field

theorem encode_eq_line (cmd : Command) : encode cmd = cmd.line ++ [newline] := by
  cases cmd <;> rfl

theorem isToken_name (cmd : Command) : IsToken cmd.name := by
  cases cmd <;> (rw [Command.name]; decide)

theorem toCommand_name (cmd : Command) :
    ({ cmd := cmd.name, args := cmd.fields } : DecodeInfo).toCommand = .ok cmd := by
  cases cmd <;> rfl

/-- The fields of a command can be read back. -/
def Command.FieldsAreTokens (cmd : Command) : Prop :=
  ∀ field ∈ cmd.fields, IsToken field

theorem newline_notMem_line {cmd : Command} (hcmd : cmd.FieldsAreTokens) : newline ∉ cmd.line := by
  unfold Command.line
  rw [List.mem_append, List.mem_flatMap, not_or, not_exists]
  refine ⟨(isToken_name cmd).noNewline, fun field ⟨hfield, hmem⟩ ↦ ?_⟩
  rcases List.mem_cons.mp hmem with hreturn | hmem
  · exact absurd hreturn (by decide)
  · exact (hcmd field hfield).noNewline hmem

end ChatServer
