import Mathlib.Data.Finmap
import ChatServer.General.InvertedIndex
import ChatServer.General.IterationOrder
import ChatServer.Net.IoHelper

/-!
# The epoll registry

`epoll_registry` owns the registered connections and two indices over them, from rooms to the
connections that joined them and from users to the connections logged in as them. Other threads
queue commands; the event loop takes them out and calls `handle_command` on each.

A handler returns the registry it leaves together with its effects on the world: a descriptor added
to the epoll set, a descriptor closed with the object that owned it, a command appended to the send
buffer of a connection. `append_send` may unregister the connection it writes to, when `epoll_ctl`
fails, and its caller still holds the reference. Where the source then reads through the reference
the effect is `dangling`; the model reads nothing there and goes on.

What the handlers take from outside is `HandlerEnv`: the order in which each loop over a hash set
goes, whether `EPOLL_CTL_MOD` succeeds for a descriptor, and the call that fails when a connection
is registered. One handler calls `EPOLL_CTL_MOD` at most once for a descriptor, because the send
buffer is pending from then on.

Not modelled here: logging, the wake-up descriptor, and `EPOLL_CTL_DEL`, whose failure is only
logged before the descriptor is closed anyway.
-/

set_option autoImplicit false
set_option relaxedAutoImplicit false

namespace ChatServer

/-- `epoll_registry::command`. -/
inductive RegistryCommand
  | register (fd : Int) (interest : UInt32)
  | unregister (fd : Int)
  | sendOne (fd : Int) (cmd : Command)
  | broadcast (fd : Int) (cmd : Command)
  | changeNickname (fd : Int) (nick : Bytes)
  | setUserId (fd : Int) (userId : Bytes)
  | setJoinedRooms (fd : Int) (roomIds : List Int)
  | setJoinedRoomsForUser (userId : Bytes) (roomIds : List Int)
  | sendFriendList (fd : Int) (friendIds : List Bytes)
  | roomBroadcast (senderFd roomId : Int) (cmd : Command)
  deriving DecidableEq

/-- The state of `epoll_registry`, without its queue. -/
structure EpollRegistry where
  infos : Finmap fun _ : Int ↦ SocketInfo
  roomOnlineFds : InvertedIndex Int Int
  userOnlineFds : InvertedIndex Bytes Int
  connectedClientCount : Nat

/-- The registry as it is constructed. -/
def EpollRegistry.empty : EpollRegistry where
  infos := ∅
  roomOnlineFds := ∅
  userOnlineFds := ∅
  connectedClientCount := 0

/-- The call of `register_fd` that fails. -/
inductive RegisterFault
  | setNonblocking
  | makePeerEndpoint
  | initString
  | addFd
  | createTlsSession
  deriving DecidableEq

/-- What a handler takes from outside. -/
structure HandlerEnv where
  order : IterationOrder Int
  modOk : Int → Bool
  registerFault : Option RegisterFault

/-- What a handler does outside the registry. -/
inductive Effect
  | watched (fd : Int)
  | closed (fd : Int)
  | appended (fd : Int) (userId : Bytes) (cmd : Command)
  | dangling (fd : Int)
  deriving DecidableEq

/-- `EPOLLIN`, `EPOLLOUT`, `EPOLLERR`, `EPOLLHUP` and `EPOLLRDHUP`. -/
def epollIn : UInt32 := 0x001
@[inherit_doc epollIn] def epollOut : UInt32 := 0x004
@[inherit_doc epollIn] def epollErr : UInt32 := 0x008
@[inherit_doc epollIn] def epollHup : UInt32 := 0x010
@[inherit_doc epollIn] def epollRdhup : UInt32 := 0x2000

/-! ### The indices -/

/-- `remove_fd_from_room_index`. -/
def removeFdFromRoomIndex (order : IterationOrder Int) (si : SocketInfo)
    (roomOnlineFds : InvertedIndex Int Int) : SocketInfo × InvertedIndex Int Int :=
  ({ si with joinedRoomIds := ∅ },
    (order.visit si.joinedRoomIds).foldl (fun index roomId ↦ index.remove roomId si.ufd)
      roomOnlineFds)

/-- `remove_fd_from_user_index`. -/
def removeFdFromUserIndex (si : SocketInfo) (userOnlineFds : InvertedIndex Bytes Int) :
    InvertedIndex Bytes Int :=
  if si.userId = [] then userOnlineFds else userOnlineFds.remove si.userId si.ufd

/-- `set_fd_joined_rooms`. -/
def setFdJoinedRooms (order : IterationOrder Int) (si : SocketInfo) (roomIds : List Int)
    (roomOnlineFds : InvertedIndex Int Int) : SocketInfo × InvertedIndex Int Int :=
  roomIds.foldl
    (fun state roomId ↦
      if roomId ≤ 0 then state
      else
        ({ state.1 with joinedRoomIds := insert roomId state.1.joinedRoomIds },
          state.2.add roomId si.ufd))
    (removeFdFromRoomIndex order si roomOnlineFds)

namespace EpollRegistry

/-- Runs the body of a loop on each item in turn and collects the effects. -/
def forEach {Item : Type} (body : Item → EpollRegistry → EpollRegistry × List Effect) :
    List Item → EpollRegistry → EpollRegistry × List Effect
  | [], registry => (registry, [])
  | item :: rest, registry =>
    let first := body item registry
    let later := forEach body rest first.1
    (later.1, first.2 ++ later.2)

/-- Writes through a reference into `infos`. -/
def setInfo (registry : EpollRegistry) (fd : Int) (si : SocketInfo) : EpollRegistry :=
  { registry with infos := registry.infos.insert fd si }

/-! ### Registering and sending -/

/-- `register_fd`. The descriptor is closed with the argument wherever it is not moved into
`infos`. -/
def registerFd (env : HandlerEnv) (fd : Int) (interest : UInt32) (registry : EpollRegistry) :
    EpollRegistry × List Effect :=
  if fd = -1 then (registry, [])
  else if fd ∈ registry.infos then (registry, [.closed fd])
  else
    match env.registerFault with
    | some .setNonblocking | some .makePeerEndpoint | some .initString | some .addFd =>
      (registry, [.closed fd])
    | some .createTlsSession => (registry, [.watched fd, .closed fd])
    | none =>
      let infos := registry.infos.insert fd { interest := interest, ufd := fd }
      ({ registry with infos := infos, connectedClientCount := infos.keys.card }, [.watched fd])

/-- `unregister_fd`. -/
def unregisterFd (env : HandlerEnv) (fd : Int) (registry : EpollRegistry) :
    EpollRegistry × List Effect :=
  if fd = -1 then (registry, [])
  else
    match registry.infos.lookup fd with
    | none => (registry, [])
    | some si =>
      let roomOnlineFds := (removeFdFromRoomIndex env.order si registry.roomOnlineFds).2
      let userOnlineFds := removeFdFromUserIndex si registry.userOnlineFds
      let infos := registry.infos.erase fd
      (⟨infos, roomOnlineFds, userOnlineFds, infos.keys.card⟩, [.closed si.ufd])

/-- `append_send` through the reference to the entry of `fd`, with `sync_interest`. The flag is
whether it succeeds. -/
def appendSend (env : HandlerEnv) (fd : Int) (cmd : Command) (registry : EpollRegistry) :
    (EpollRegistry × List Effect) × Bool :=
  match registry.infos.lookup fd with
  | none => ((registry, [.dangling fd]), false)
  | some si =>
    let appended := si.send.appendSending (encode cmd)
    let sent := Effect.appended fd si.userId cmd
    if ¬ appended.2 then
      ((registry.setInfo fd { si with send := appended.1 }, [sent]), true)
    else
      let registry := registry.setInfo fd
        { si with send := appended.1, interest := si.interest ||| epollOut }
      if env.modOk si.ufd then ((registry, [sent]), true)
      else
        -- the warning that follows names a connection that is gone
        let removed := unregisterFd env si.ufd registry
        ((removed.1, sent :: removed.2 ++ [.dangling fd]), false)

/-! ### Handlers -/

/-- `handle_command(send_one_command)`. -/
def handleSendOne (env : HandlerEnv) (fd : Int) (cmd : Command) (registry : EpollRegistry) :
    EpollRegistry × List Effect :=
  match registry.infos.lookup fd with
  | none => (registry, [])
  | some _ => (appendSend env fd cmd registry).1

/-- The command with the sender's nickname in front of the text of a response. -/
def namedPayload (registry : EpollRegistry) (senderFd : Int) (cmd : Command) : Command :=
  match cmd with
  | .cmdResponse message =>
    let nickname :=
      match registry.infos.lookup senderFd with
      | none => text "guest"
      | some sender => if sender.nickname = [] then text "guest" else sender.nickname
    .cmdResponse (nickname ++ text ": " ++ message)
  | _ => cmd

/-- `handle_command(broadcast_command)`. The loop goes over `infos` itself: after a connection is
unregistered in its body it advances from an erased entry. -/
def handleBroadcast (env : HandlerEnv) (fd : Int) (cmd : Command) (registry : EpollRegistry) :
    EpollRegistry × List Effect :=
  let payload := namedPayload registry fd cmd
  forEach
    (fun target registry ↦
      let sent := appendSend env target payload registry
      (sent.1.1, if sent.2 then sent.1.2 else sent.1.2 ++ [.dangling target]))
    (env.order.visit registry.infos.keys) registry

/-- `handle_command(change_nickname_command)`. -/
def handleChangeNickname (fd : Int) (nick : Bytes) (registry : EpollRegistry) :
    EpollRegistry × List Effect :=
  match registry.infos.lookup fd with
  | none => (registry, [])
  | some si => (registry.setInfo fd { si with nickname := nick }, [])

/-- `handle_command(set_user_id_command)`. -/
def handleSetUserId (env : HandlerEnv) (fd : Int) (userId : Bytes) (registry : EpollRegistry) :
    EpollRegistry × List Effect :=
  match registry.infos.lookup fd with
  | none => (registry, [])
  | some si =>
    let userOnlineFds := removeFdFromUserIndex si registry.userOnlineFds
    let cleared := setFdJoinedRooms env.order si [] registry.roomOnlineFds
    let userOnlineFds := if userId ≠ [] then userOnlineFds.add userId si.ufd else userOnlineFds
    (⟨registry.infos.insert fd { cleared.1 with userId := userId }, cleared.2, userOnlineFds,
      registry.connectedClientCount⟩, [])

/-- The body that both handlers of joined rooms share. -/
def setJoinedRoomsOf (env : HandlerEnv) (roomIds : List Int) (fd : Int)
    (registry : EpollRegistry) : EpollRegistry × List Effect :=
  match registry.infos.lookup fd with
  | none => (registry, [])
  | some si =>
    let joined := setFdJoinedRooms env.order si roomIds registry.roomOnlineFds
    ({ registry with infos := registry.infos.insert fd joined.1, roomOnlineFds := joined.2 }, [])

/-- `handle_command(set_joined_rooms_command)`. -/
def handleSetJoinedRooms (env : HandlerEnv) (fd : Int) (roomIds : List Int)
    (registry : EpollRegistry) : EpollRegistry × List Effect :=
  setJoinedRoomsOf env roomIds fd registry

/-- `handle_command(set_joined_rooms_for_user_command)`. -/
def handleSetJoinedRoomsForUser (env : HandlerEnv) (userId : Bytes) (roomIds : List Int)
    (registry : EpollRegistry) : EpollRegistry × List Effect :=
  match registry.userOnlineFds.lookup userId with
  | none => (registry, [])
  | some fds => forEach (setJoinedRoomsOf env roomIds) (env.order.visit fds) registry

/-- `handle_command(send_friend_list_command)`. -/
def handleSendFriendList (env : HandlerEnv) (fd : Int) (friendIds : List Bytes)
    (registry : EpollRegistry) : EpollRegistry × List Effect :=
  match registry.infos.lookup fd with
  | none => (registry, [])
  | some _ =>
    let header := appendSend env fd
      (.cmdResponse (text "friends: " ++ toText friendIds.length)) registry
    if ¬ header.2 then header.1
    else
      let lines := forEach
        (fun friendId registry ↦
          let isOnline := decide (friendId ∈ registry.userOnlineFds)
          (appendSend env fd
            (.cmdResponse (text "friend: " ++ friendId ++ text " (" ++
              (if isOnline then text "online" else text "offline") ++ text ")")) registry).1)
        friendIds header.1.1
      (lines.1, header.1.2 ++ lines.2)

/-- `handle_command(room_broadcast_command)`. -/
def handleRoomBroadcast (env : HandlerEnv) (senderFd roomId : Int) (cmd : Command)
    (registry : EpollRegistry) : EpollRegistry × List Effect :=
  match registry.roomOnlineFds.lookup roomId with
  | none => (registry, [])
  | some targets =>
    let payload := namedPayload registry senderFd cmd
    forEach (fun fd registry ↦ handleSendOne env fd payload registry) (env.order.visit targets)
      registry

/-- `handle_command`. -/
def handleCommand (env : HandlerEnv) (command : RegistryCommand) (registry : EpollRegistry) :
    EpollRegistry × List Effect :=
  match command with
  | .register fd interest => registerFd env fd interest registry
  | .unregister fd => unregisterFd env fd registry
  | .sendOne fd cmd => handleSendOne env fd cmd registry
  | .broadcast fd cmd => handleBroadcast env fd cmd registry
  | .changeNickname fd nick => handleChangeNickname fd nick registry
  | .setUserId fd userId => handleSetUserId env fd userId registry
  | .setJoinedRooms fd roomIds => handleSetJoinedRooms env fd roomIds registry
  | .setJoinedRoomsForUser userId roomIds => handleSetJoinedRoomsForUser env userId roomIds registry
  | .sendFriendList fd friendIds => handleSendFriendList env fd friendIds registry
  | .roomBroadcast senderFd roomId cmd => handleRoomBroadcast env senderFd roomId cmd registry

end EpollRegistry

end ChatServer
