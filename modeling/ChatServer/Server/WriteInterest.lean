import ChatServer.Server.Ownership

/-!
# Write interest and pending output

A connection has `EPOLLOUT` in its interest while it has something to send or its TLS session wants
to write. `append_send` adds the flag only when the send buffer becomes pending, and relies on
`sync_tls_interest` to have kept it right everywhere else. `SocketInfo.Watched` is what holds of an
open connection between two callbacks, with the mask that the epoll instance has for it.

The masks are not part of the server's state. `commandChanges` and `stageChanges` are the calls of
`epoll_ctl` that succeed in a handler and in a callback, with the descriptors closed, and
`watchedServer` is the server with the epoll instance these calls lead to. The connections are
watched in all its states (`watched_of_reachable`): a call that fails ends the connection.
-/

set_option autoImplicit false
set_option relaxedAutoImplicit false

namespace ChatServer

/-! ### The epoll instance -/

/-- The descriptors of the epoll instance with their masks. -/
abbrev EpollSet := Finmap fun _ : Int ↦ UInt32

/-- A call of `epoll_ctl` that succeeds, or the close of a descriptor. -/
inductive EpollChange
  | add (fd : Int) (mask : UInt32)
  | modify (fd : Int) (mask : UInt32)
  | close (fd : Int)

/-- What a change does to the epoll instance. -/
def EpollChange.apply (set : EpollSet) : EpollChange → EpollSet
  | .add fd mask => set.insert fd mask
  | .modify fd mask => if fd ∈ set then set.insert fd mask else set
  | .close fd => set.erase fd

/-- The descriptor that a change is about. -/
def EpollChange.fd : EpollChange → Int
  | .add fd _ => fd
  | .modify fd _ => fd
  | .close fd => fd

/-- The epoll instance after changes. -/
def EpollSet.after (set : EpollSet) (changes : List EpollChange) : EpollSet :=
  changes.foldl EpollChange.apply set

theorem EpollSet.after_append (set : EpollSet) (first second : List EpollChange) :
    set.after (first ++ second) = (set.after first).after second :=
  List.foldl_append

/-- Changes leave the other descriptors. -/
theorem EpollSet.lookup_after_of_ne {set : EpollSet} {fd : Int} {changes : List EpollChange}
    (hchanges : ∀ change ∈ changes, change.fd ≠ fd) :
    (set.after changes).lookup fd = set.lookup fd := by
  induction changes generalizing set with
  | nil => rfl
  | cons change rest ih =>
    have hne : fd ≠ change.fd := (hchanges change List.mem_cons_self).symm
    have hrest : ((change.apply set).after rest).lookup fd = (change.apply set).lookup fd :=
      ih fun other hother ↦ hchanges other (List.mem_cons_of_mem _ hother)
    refine hrest.trans ?_
    cases change with
    | add target mask => exact Finmap.lookup_insert_of_ne _ hne
    | modify target mask =>
      unfold EpollChange.apply
      dsimp only
      split_ifs
      · exact Finmap.lookup_insert_of_ne _ hne
      · rfl
    | close target => exact Finmap.lookup_erase_ne hne

/-! ### The calls of the handlers -/

namespace EpollRegistry

/-- The changes of a loop whose body has these changes and leaves these registries. -/
def forEachChanges {Item : Type} (changes : Item → EpollRegistry → List EpollChange)
    (next : Item → EpollRegistry → EpollRegistry) :
    List Item → EpollRegistry → List EpollChange
  | [], _ => []
  | item :: rest, registry =>
    changes item registry ++ forEachChanges changes next rest (next item registry)

/-- The changes of `register_fd`. -/
def registerChanges (env : HandlerEnv) (fd : Int) (interest : UInt32) (registry : EpollRegistry) :
    List EpollChange :=
  if fd = -1 then []
  else if fd ∈ registry.infos then [.close fd]
  else
    match env.registerFault with
    | some .setNonblocking | some .makePeerEndpoint | some .initString | some .addFd =>
      [.close fd]
    | some .createTlsSession => [.add fd interest, .close fd]
    | none => [.add fd interest]

/-- The changes of `unregister_fd`. -/
def unregisterChanges (fd : Int) (registry : EpollRegistry) : List EpollChange :=
  if fd = -1 then []
  else
    match registry.infos.lookup fd with
    | none => []
    | some si => [.close si.ufd]

/-- The changes of `append_send`. -/
def appendChanges (env : HandlerEnv) (fd : Int) (cmd : Command) (registry : EpollRegistry) :
    List EpollChange :=
  match registry.infos.lookup fd with
  | none => []
  | some si =>
    let appended := si.send.appendSending (encode cmd)
    if ¬ appended.2 then []
    else
      let registry := registry.setInfo fd
        { si with send := appended.1, interest := si.interest ||| epollOut }
      if env.modOk si.ufd then [.modify si.ufd (si.interest ||| epollOut)]
      else unregisterChanges si.ufd registry

/-- The changes of `handle_command(broadcast_command)`. -/
def broadcastChanges (env : HandlerEnv) (fd : Int) (cmd : Command) (registry : EpollRegistry) :
    List EpollChange :=
  let payload := namedPayload registry fd cmd
  forEachChanges (fun target registry ↦ appendChanges env target payload registry)
    (fun target registry ↦ (appendSend env target payload registry).1.1)
    (env.order.visit registry.infos.keys) registry

/-- The changes of `handle_command(send_friend_list_command)`. -/
def friendListChanges (env : HandlerEnv) (fd : Int) (friendIds : List Bytes)
    (registry : EpollRegistry) : List EpollChange :=
  match registry.infos.lookup fd with
  | none => []
  | some _ =>
    let header := Command.cmdResponse (text "friends: " ++ toText friendIds.length)
    let line (friendId : Bytes) (registry : EpollRegistry) : Command :=
      let isOnline := decide (friendId ∈ registry.userOnlineFds)
      .cmdResponse (text "friend: " ++ friendId ++ text " (" ++
        (if isOnline then text "online" else text "offline") ++ text ")")
    appendChanges env fd header registry ++
      if ¬ (appendSend env fd header registry).2 then []
      else
        forEachChanges
          (fun friendId registry ↦ appendChanges env fd (line friendId registry) registry)
          (fun friendId registry ↦ (appendSend env fd (line friendId registry) registry).1.1)
          friendIds (appendSend env fd header registry).1.1

/-- The changes of `handle_command(room_broadcast_command)`. -/
def roomBroadcastChanges (env : HandlerEnv) (senderFd roomId : Int) (cmd : Command)
    (registry : EpollRegistry) : List EpollChange :=
  match registry.roomOnlineFds.lookup roomId with
  | none => []
  | some targets =>
    let payload := namedPayload registry senderFd cmd
    forEachChanges (fun fd registry ↦ appendChanges env fd payload registry)
      (fun fd registry ↦ (handleSendOne env fd payload registry).1) (env.order.visit targets)
      registry

/-- The changes of `handle_command`. -/
def commandChanges (env : HandlerEnv) (command : RegistryCommand) (registry : EpollRegistry) :
    List EpollChange :=
  match command with
  | .register fd interest => registerChanges env fd interest registry
  | .unregister fd => unregisterChanges fd registry
  | .sendOne fd cmd => appendChanges env fd cmd registry
  | .broadcast fd cmd => broadcastChanges env fd cmd registry
  | .sendFriendList fd friendIds => friendListChanges env fd friendIds registry
  | .roomBroadcast senderFd roomId cmd => roomBroadcastChanges env senderFd roomId cmd registry
  | .changeNickname .. | .setUserId .. | .setJoinedRooms .. | .setJoinedRoomsForUser .. => []

end EpollRegistry

/-! ### The calls of the callbacks -/

namespace EpollServer

/-- The change of `sync_tls_interest`. -/
def syncChanges (ok : Bool) (si : SocketInfo) : List EpollChange :=
  let nextInterest := (syncTlsInterest ok si).1.interest
  if nextInterest = si.interest ∨ ok = false then [] else [.modify si.ufd nextInterest]

/-- The changes of `progress_tls_handshake`. -/
def handshakeChanges (env : IoEnv) (si : SocketInfo) : List EpollChange :=
  if ¬ si.tls.hasSsl then []
  else if si.tls.handshakeDone then []
  else
    let handshake := si.tls.handshake env.handshake
    let si := { si with tls := handshake.1 }
    match handshake.2 with
    | none => []
    | some io => if io.closed then [] else syncChanges env.handshakeSyncOk si

/-- The changes of `handle_send`. -/
def sendChanges (env : IoEnv) (si : SocketInfo) : List EpollChange :=
  let handshake := progressTlsHandshake env si
  handshakeChanges env si ++
    if ¬ handshake.2 then []
    else
      let si := handshake.1.1
      if si.tls.hasSsl ∧ ¬ si.tls.handshakeDone then []
      else
        let flushed := flushSend env.writes si
        match flushed.2 with
        | none => []
        | some _ => syncChanges env.syncOk flushed.1

/-- The changes of `handle_recv`. -/
def recvChanges (env : IoEnv) (si : SocketInfo) : List EpollChange :=
  let handshake := progressTlsHandshake env si
  handshakeChanges env si ++
    if ¬ handshake.2 then []
    else
      let si := handshake.1.1
      if si.tls.hasSsl ∧ ¬ si.tls.handshakeDone then []
      else
        let drained := drainRecv env.reads si
        match drained.2 with
        | none => []
        | some _ => syncChanges env.syncOk drained.1

end EpollServer

/-- The changes of a callback of the event loop. -/
def stageChanges (env : IoEnv) (stage : Stage) (event : UInt32) (si : SocketInfo) :
    List EpollChange :=
  match stage with
  | .recv =>
    if isErrorEvent event then []
    else if isReadEvent event then EpollServer.recvChanges env si else []
  | .send => if isWriteEvent event then EpollServer.sendChanges env si else []
  | .execute => []

/-- The epoll instance after an action of the server. -/
def epollSetAfter (state : ServerState) (label : ServerLabel) (_next : ServerState)
    (set : EpollSet) : EpollSet :=
  match label, state.phase with
  | .handle env, .working (queued :: _) _ =>
    set.after (EpollRegistry.commandChanges env queued.command state.registry)
  | .dispatch env, .dispatching stage (event :: _) =>
    match state.registry.infos.lookup event.fd with
    | none => set
    | some si => set.after (stageChanges env stage event.mask si)
  | _, _ => set

/-- The server with its epoll instance. -/
def watchedServer [LinearOrder Bytes] : TransitionSystem (ServerState × EpollSet) ServerLabel :=
  chatServer.withRecord ∅ epollSetAfter

/-! ### Watched connections -/

theorem and_or_right (mask first second : UInt32) :
    (mask ||| first) &&& second = mask &&& second ||| first &&& second := by
  rw [← UInt32.toBitVec_inj]
  ext place hplace
  simp [Bool.and_or_distrib_right]

theorem and_or_self (mask bit : UInt32) : (mask ||| bit) &&& bit = bit := by
  rw [← UInt32.toBitVec_inj]
  ext place hplace
  simp
  exact Or.inr

/-- The mask of a connection is the one in the epoll instance, and its reads are watched. -/
structure SocketInfo.Masked (si : SocketInfo) (set : EpollSet) : Prop where
  mask : set.lookup si.ufd = some si.interest
  input : si.interest &&& epollIn ≠ 0
  hangup : si.interest &&& epollRdhup ≠ 0

/-- Its writes are watched while there is something to write. -/
structure SocketInfo.Watched (si : SocketInfo) (set : EpollSet) : Prop extends
    si.Masked set where
  output : si.interest &&& epollOut ≠ 0 ↔ si.send.hasPending = true ∨ si.tls.wantWrite = true

/-- The open connections are watched. -/
def EpollRegistry.Watched (registry : EpollRegistry) (set : EpollSet) : Prop :=
  ∀ fd si, registry.infos.lookup fd = some si → si.isClosed = false → si.Watched set

/-! ### Callbacks -/

section Callbacks

variable {env : IoEnv} {si : SocketInfo} {set : EpollSet}

/-- A transfer of bytes keeps the interest of a connection and whether it is open. -/
structure SocketInfo.SameInterest (first second : SocketInfo) : Prop where
  ufd : second.ufd = first.ufd
  interest : second.interest = first.interest
  isClosed : second.isClosed = first.isClosed

theorem SocketInfo.Masked.of_sameInterest {before : SocketInfo} (hmasked : before.Masked set)
    (hsame : before.SameInterest si) : si.Masked set :=
  ⟨by rw [hsame.ufd, hsame.interest]; exact hmasked.mask, hsame.interest ▸ hmasked.input,
    hsame.interest ▸ hmasked.hangup⟩

theorem sameInterest_drainRecv (reads : SslTransfer Bytes) (si : SocketInfo) :
    si.SameInterest (drainRecv reads si).1 := by
  obtain ⟨tls, data, -, -, hdrain⟩ := drainRecv_fst reads si
  rw [hdrain]
  exact ⟨rfl, rfl, rfl⟩

theorem sameInterest_flushSend (writes : SslTransfer Nat) (si : SocketInfo) :
    si.SameInterest (flushSend writes si).1 := by
  obtain ⟨tls, send, -, hflush⟩ := flushSend_fst writes si
  rw [hflush]
  exact ⟨rfl, rfl, rfl⟩

namespace EpollServer

/-- What a callback leaves: a connection that is closed, or one watched by the epoll instance that
the calls of the callback lead to. -/
structure Watches (si : SocketInfo) (set : EpollSet) (after : SocketInfo)
    (changes : List EpollChange) : Prop where
  ufd : after.ufd = si.ufd
  fd : ∀ change ∈ changes, change.fd = si.ufd
  closed : si.isClosed = true → after.isClosed = true
  watched : after.isClosed = false → after.Watched (set.after changes)

theorem isClosed_handleDisconnect (si : SocketInfo) : (handleDisconnect si).1.isClosed = true := by
  unfold handleDisconnect
  split_ifs with hclosed
  · exact hclosed
  · rfl

theorem isClosed_handleClose (si : SocketInfo) : (handleClose si).1.isClosed = true := by
  unfold handleClose
  split_ifs with hclosed
  · exact hclosed
  · exact isClosed_handleDisconnect si

theorem ufd_handleDisconnect (si : SocketInfo) : (handleDisconnect si).1.ufd = si.ufd :=
  (calls_handleDisconnect si).receives.identity.ufd

theorem ufd_handleClose (si : SocketInfo) : (handleClose si).1.ufd = si.ufd :=
  (calls_handleClose si).receives.identity.ufd

/-- A connection that was closed is watched in the sense that nothing is asked of it. -/
theorem Watches.of_closed {after : SocketInfo} {changes : List EpollChange}
    (hufd : after.ufd = si.ufd) (hfd : ∀ change ∈ changes, change.fd = si.ufd)
    (hclosed : after.isClosed = true) : Watches si set after changes :=
  ⟨hufd, hfd, fun _ ↦ hclosed, fun hopen ↦ by rw [hclosed] at hopen; cases hopen⟩

/-- The interest that `sync_tls_interest` computes. -/
theorem interest_syncTlsInterest (ok : Bool) (si : SocketInfo) :
    (syncTlsInterest ok si).1.interest =
      if si.send.hasPending || si.tls.wantWrite then si.interest ||| epollOut
      else si.interest &&& ~~~epollOut := by
  unfold syncTlsInterest
  dsimp only
  split_ifs with hpending hsame hsame
  · exact hsame.symm
  · rfl
  · exact hsame.symm
  · rfl

/-- `sync_tls_interest` keeps the other flags of the interest. -/
theorem interest_syncTlsInterest_other (ok : Bool) (si : SocketInfo) {flag : UInt32}
    (hor : epollOut &&& flag = 0) (hand : ~~~epollOut &&& flag = flag) :
    (syncTlsInterest ok si).1.interest &&& flag = si.interest &&& flag := by
  rw [interest_syncTlsInterest]
  split_ifs
  · rw [and_or_right, hor, UInt32.or_zero]
  · rw [UInt32.and_assoc, hand]

/-- `sync_tls_interest` asks for writes exactly when there is something to write. -/
theorem interest_syncTlsInterest_out (ok : Bool) (si : SocketInfo) :
    (syncTlsInterest ok si).1.interest &&& epollOut ≠ 0 ↔
      si.send.hasPending = true ∨ si.tls.wantWrite = true := by
  rw [interest_syncTlsInterest]
  split_ifs with hwrites
  · rw [and_or_self]
    exact iff_of_true (by decide) (by simpa using hwrites)
  · rw [UInt32.and_assoc, UInt32.not_and_self, UInt32.and_zero]
    exact iff_of_false (fun hzero ↦ hzero rfl) (by simpa using hwrites)

/-- What `sync_tls_interest` changes is the interest. -/
theorem syncTlsInterest_fst (ok : Bool) (si : SocketInfo) :
    (syncTlsInterest ok si).1 = { si with interest := (syncTlsInterest ok si).1.interest } := by
  unfold syncTlsInterest
  dsimp only
  split_ifs <;> rfl

/-- Without an answer `sync_tls_interest` succeeds only when it does not ask. -/
theorem interest_of_not_ok {ok : Bool} (hsync : (syncTlsInterest ok si).2 = true)
    (hok : ok = false) : (syncTlsInterest ok si).1.interest = si.interest := by
  unfold syncTlsInterest at hsync ⊢
  dsimp only at hsync ⊢
  generalize (if si.send.hasPending || si.tls.wantWrite then si.interest ||| epollOut
    else si.interest &&& ~~~epollOut) = next at hsync ⊢
  by_cases hsame : next = si.interest
  · rw [if_pos hsame]
  · rw [if_neg hsame, hok] at hsync
    cases hsync

theorem fd_syncChanges (ok : Bool) (si : SocketInfo) :
    ∀ change ∈ syncChanges ok si, change.fd = si.ufd := by
  intro change hchange
  unfold syncChanges at hchange
  dsimp only at hchange
  split_ifs at hchange
  · cases hchange
  · rw [List.mem_singleton.mp hchange]
    rfl

/-- `sync_tls_interest` makes the interest of a masked connection right, or fails. -/
theorem watched_syncTlsInterest {ok : Bool} (hmasked : si.Masked set)
    (hok : (syncTlsInterest ok si).2 = true) :
    (syncTlsInterest ok si).1.Watched (set.after (syncChanges ok si)) := by
  have hmask : (set.after (syncChanges ok si)).lookup si.ufd =
      some (syncTlsInterest ok si).1.interest := by
    unfold syncChanges
    dsimp only
    by_cases hsame : (syncTlsInterest ok si).1.interest = si.interest
    · rw [if_pos (Or.inl hsame), hsame]
      exact hmasked.mask
    · have hmem : si.ufd ∈ set := Finmap.mem_of_lookup_eq_some hmasked.mask
      have hcalled : ¬ ((syncTlsInterest ok si).1.interest = si.interest ∨ ok = false) :=
        fun hskips ↦ hskips.elim hsame fun hfails ↦ hsame (interest_of_not_ok hok hfails)
      rw [if_neg hcalled]
      show (if si.ufd ∈ set then set.insert si.ufd _ else set).lookup si.ufd = _
      rw [if_pos hmem, Finmap.lookup_insert]
  have hinput : epollOut &&& epollIn = 0 ∧ ~~~epollOut &&& epollIn = epollIn := by decide
  have hhangup : epollOut &&& epollRdhup = 0 ∧ ~~~epollOut &&& epollRdhup = epollRdhup := by decide
  have hout := interest_syncTlsInterest_out ok si
  rw [syncTlsInterest_fst]
  refine ⟨⟨hmask, ?_, ?_⟩, hout⟩
  · show (syncTlsInterest ok si).1.interest &&& epollIn ≠ 0
    rw [interest_syncTlsInterest_other ok si hinput.1 hinput.2]
    exact hmasked.input
  · show (syncTlsInterest ok si).1.interest &&& epollRdhup ≠ 0
    rw [interest_syncTlsInterest_other ok si hhangup.1 hhangup.2]
    exact hmasked.hangup

theorem Watches.refl (hwatched : si.isClosed = false → si.Watched set) : Watches si set si [] :=
  ⟨rfl, fun _ hchange ↦ absurd hchange List.not_mem_nil, id, hwatched⟩

theorem Watches.trans {middle after : SocketInfo} {first second : List EpollChange}
    (hfirst : Watches si set middle first)
    (hsecond : Watches middle (set.after first) after second) :
    Watches si set after (first ++ second) := by
  refine ⟨hsecond.ufd.trans hfirst.ufd, fun change hchange ↦ ?_,
    fun hclosed ↦ hsecond.closed (hfirst.closed hclosed), fun hopen ↦ ?_⟩
  · rcases List.mem_append.mp hchange with hmem | hmem
    · exact hfirst.fd change hmem
    · exact (hsecond.fd change hmem).trans hfirst.ufd
  · rw [EpollSet.after_append]
    exact hsecond.watched hopen

/-- The end of a transfer, which has kept the interest of the connection. -/
theorem watches_finishTransfer {before : SocketInfo} (hsame : before.SameInterest si)
    (hmasked : before.isClosed = false → before.Masked set) :
    Watches before set (finishTransfer env si).1.1 (syncChanges env.syncOk si) := by
  have hufd : (syncTlsInterest env.syncOk si).1.ufd = before.ufd := by
    rw [syncTlsInterest_fst]
    exact hsame.ufd
  have hfd : ∀ change ∈ syncChanges env.syncOk si, change.fd = before.ufd :=
    fun change hchange ↦ (fd_syncChanges env.syncOk si change hchange).trans hsame.ufd
  unfold finishTransfer
  dsimp only
  split_ifs with hsync
  · have hclosed : (syncTlsInterest env.syncOk si).1.isClosed = before.isClosed := by
      rw [syncTlsInterest_fst]
      exact hsame.isClosed
    refine ⟨hufd, hfd, fun hbefore ↦ hclosed.trans hbefore, fun hopen ↦ ?_⟩
    have hopen' : before.isClosed = false := hclosed.symm.trans hopen
    exact watched_syncTlsInterest ((hmasked hopen').of_sameInterest hsame) hsync
  · exact Watches.of_closed ((ufd_handleDisconnect _).trans hufd) hfd (isClosed_handleDisconnect _)

theorem watches_progressTlsHandshake (hwatched : si.isClosed = false → si.Watched set) :
    Watches si set (progressTlsHandshake env si).1.1 (handshakeChanges env si) := by
  unfold progressTlsHandshake handshakeChanges
  by_cases hssl : ¬ si.tls.hasSsl
  · rw [if_pos hssl, if_pos hssl]
    exact Watches.refl hwatched
  by_cases hdone : si.tls.handshakeDone
  · rw [if_neg hssl, if_neg hssl, if_pos hdone, if_pos hdone]
    exact Watches.refl hwatched
  rw [if_neg hssl, if_neg hssl, if_neg hdone, if_neg hdone]
  have hnone : ∀ change ∈ ([] : List EpollChange), change.fd = si.ufd :=
    fun _ hchange ↦ absurd hchange List.not_mem_nil
  dsimp only
  cases (si.tls.handshake env.handshake).2 with
  | none => exact Watches.of_closed (ufd_handleDisconnect _) hnone (isClosed_handleDisconnect _)
  | some io =>
    dsimp only
    by_cases hclosed : io.closed = true
    · rw [if_pos hclosed, if_pos hclosed]
      exact Watches.of_closed (ufd_handleClose _) hnone (isClosed_handleClose _)
    · rw [if_neg hclosed, if_neg hclosed]
      -- the sync after the handshake ends as the one after a transfer does
      have hsame : si.SameInterest { si with tls := (si.tls.handshake env.handshake).1 } :=
        ⟨rfl, rfl, rfl⟩
      have hfinish := @watches_finishTransfer { env with syncOk := env.handshakeSyncOk } _ set si
        hsame fun hopen ↦ (hwatched hopen).toMasked
      unfold finishTransfer at hfinish
      dsimp only at hfinish
      split_ifs at hfinish ⊢ <;> exact hfinish

/-- `handle_send` leaves the connection closed or watched. -/
theorem watches_handleSend (hwatched : si.isClosed = false → si.Watched set) :
    Watches si set (handleSend env si).1 (sendChanges env si) := by
  have hshake := @watches_progressTlsHandshake env si set hwatched
  unfold handleSend sendChanges
  dsimp only
  by_cases hstops : ¬ (progressTlsHandshake env si).2
  · rw [if_pos hstops, if_pos hstops, List.append_nil]
    exact hshake
  rw [if_neg hstops, if_neg hstops]
  by_cases hopen : (progressTlsHandshake env si).1.1.tls.hasSsl ∧
      ¬ (progressTlsHandshake env si).1.1.tls.handshakeDone
  · rw [if_pos hopen, if_pos hopen, List.append_nil]
    exact hshake
  rw [if_neg hopen, if_neg hopen]
  have hflush := sameInterest_flushSend env.writes (progressTlsHandshake env si).1.1
  refine hshake.trans ?_
  cases (flushSend env.writes (progressTlsHandshake env si).1.1).2 with
  | none =>
    exact Watches.of_closed ((ufd_handleDisconnect _).trans hflush.ufd)
      (fun _ hchange ↦ absurd hchange List.not_mem_nil) (isClosed_handleDisconnect _)
  | some sent => exact watches_finishTransfer hflush fun hopen ↦ (hshake.watched hopen).toMasked

/-- `handle_recv` leaves the connection closed or watched. -/
theorem watches_handleRecv (event : UInt32) (hwatched : si.isClosed = false → si.Watched set) :
    Watches si set (handleRecv env event si).1.1 (recvChanges env si) := by
  have hshake := @watches_progressTlsHandshake env si set hwatched
  unfold handleRecv recvChanges
  dsimp only
  by_cases hstops : ¬ (progressTlsHandshake env si).2
  · rw [if_pos hstops, if_pos hstops, List.append_nil]
    exact hshake
  rw [if_neg hstops, if_neg hstops]
  by_cases hopen : (progressTlsHandshake env si).1.1.tls.hasSsl ∧
      ¬ (progressTlsHandshake env si).1.1.tls.handshakeDone
  · rw [if_pos hopen, if_pos hopen, List.append_nil]
    exact hshake
  rw [if_neg hopen, if_neg hopen]
  have hdrain := sameInterest_drainRecv env.reads (progressTlsHandshake env si).1.1
  refine hshake.trans ?_
  cases (drainRecv env.reads (progressTlsHandshake env si).1.1).2 with
  | none =>
    exact Watches.of_closed ((ufd_handleDisconnect _).trans hdrain.ufd)
      (fun _ hchange ↦ absurd hchange List.not_mem_nil) (isClosed_handleDisconnect _)
  | some info =>
    have hfinish := @watches_finishTransfer env _ _ _ hdrain
      fun hopen ↦ (hshake.watched hopen).toMasked
    dsimp only
    split_ifs
    · exact Watches.of_closed ((ufd_handleClose _).trans hfinish.ufd) hfinish.fd
        (isClosed_handleClose _)
    · exact hfinish
    · exact hfinish

theorem watches_handleClientError (si : SocketInfo) :
    Watches si set (handleClientError si).1 [] := by
  have hnone : ∀ change ∈ ([] : List EpollChange), change.fd = si.ufd :=
    fun _ hchange ↦ absurd hchange List.not_mem_nil
  unfold handleClientError
  split_ifs with hclosed
  · exact Watches.of_closed rfl hnone hclosed
  · exact Watches.of_closed (ufd_handleDisconnect si) hnone (isClosed_handleDisconnect si)

/-- `handle_execute` takes a line and leaves the rest of the connection. -/
theorem handleExecute_info (si : SocketInfo) :
    ∃ recv, (handleExecute si).info = { si with recv := recv } := by
  unfold handleExecute
  cases si.recv.parseLine with
  | none => exact ⟨si.recv, rfl⟩
  | some parsed =>
    refine ⟨parsed.2, ?_⟩
    dsimp only
    cases decode parsed.1 with
    | error error => rfl
    | ok cmd =>
      dsimp only
      split_ifs
      · rfl
      · cases cmd <;> rfl

end EpollServer

/-- Every callback leaves its connection closed or watched. -/
theorem watches_dispatchStage (stage : Stage) (event : UInt32)
    (hwatched : si.isClosed = false → si.Watched set) :
    EpollServer.Watches si set (dispatchStage env stage event si).info
      (stageChanges env stage event si) := by
  have hquiet := EpollServer.Watches.refl hwatched
  unfold dispatchStage stageChanges
  cases stage with
  | recv =>
    dsimp only
    by_cases herror : isErrorEvent event = true
    · rw [if_pos herror, if_pos herror]
      exact EpollServer.watches_handleClientError si
    rw [if_neg herror, if_neg herror]
    by_cases hread : isReadEvent event = true
    · rw [if_pos hread, if_pos hread]
      exact EpollServer.watches_handleRecv event hwatched
    · rw [if_neg hread, if_neg hread]
      exact hquiet
  | send =>
    dsimp only
    by_cases hwrite : isWriteEvent event = true
    · rw [if_pos hwrite, if_pos hwrite]
      exact EpollServer.watches_handleSend hwatched
    · rw [if_neg hwrite, if_neg hwrite]
      exact hquiet
  | execute =>
    dsimp only
    by_cases hread : isReadEvent event = true
    · obtain ⟨recv, hinfo⟩ := EpollServer.handleExecute_info si
      rw [if_pos hread]
      dsimp only
      rw [hinfo]
      exact ⟨rfl, hquiet.fd, id, fun hopen ↦
        ⟨⟨(hwatched hopen).mask, (hwatched hopen).input, (hwatched hopen).hangup⟩,
          (hwatched hopen).output⟩⟩
    · rw [if_neg hread]
      exact hquiet

end Callbacks

/-! ### Handlers -/

namespace EpollRegistry

variable {registry : EpollRegistry} {env : HandlerEnv} {set : EpollSet}

/-- One entry is written, and no other mask changes. -/
theorem Watched.insert (hwatched : registry.Watched set) (hconsistent : registry.Consistent)
    {after : EpollRegistry} {fd : Int} {si' : SocketInfo} {set' : EpollSet}
    (hinfos : after.infos = registry.infos.insert fd si')
    (hset : ∀ other, other ≠ fd → set'.lookup other = set.lookup other)
    (hnew : si'.isClosed = false → si'.Watched set') : after.Watched set' := by
  intro other si hother hopen
  rw [hinfos] at hother
  rcases lookup_insert_eq_some.mp hother with ⟨-, rfl⟩ | ⟨hne, hold⟩
  · exact hnew hopen
  · have hsi := hwatched other si hold hopen
    have hmask : set'.lookup si.ufd = set.lookup si.ufd := by
      rw [(hconsistent.ufd other si hold).1]
      exact hset other hne
    exact ⟨⟨hmask.trans hsi.mask, hsi.input, hsi.hangup⟩, hsi.output⟩

/-- What a handler writes of a connection besides its output. -/
theorem Watched.rewrite (hwatched : registry.Watched set) (hconsistent : registry.Consistent)
    {after : EpollRegistry} {fd : Int} {si si' : SocketInfo}
    (hinfo : registry.infos.lookup fd = some si)
    (hinfos : after.infos = registry.infos.insert fd si') (hsame : si.SameInterest si')
    (hsend : si'.send = si.send) (htls : si'.tls = si.tls) : after.Watched set := by
  refine hwatched.insert hconsistent hinfos (fun _ _ ↦ rfl) fun hopen ↦ ?_
  have hsi := hwatched fd si hinfo (hsame.isClosed.symm.trans hopen)
  refine ⟨hsi.toMasked.of_sameInterest hsame, ?_⟩
  rw [hsame.interest, hsend, htls]
  exact hsi.output

theorem Watched.registerFd (hwatched : registry.Watched set) (hconsistent : registry.Consistent)
    {fd : Int} (hfresh : fd ∉ registry.infos) :
    (registry.registerFd env fd (epollIn ||| epollRdhup)).1.Watched
      (set.after (registerChanges env fd (epollIn ||| epollRdhup) registry)) := by
  have hkept : ∀ changes : List EpollChange, (∀ change ∈ changes, change.fd = fd) →
      registry.Watched (set.after changes) := by
    intro changes hchanges other si hother hopen
    have hsi := hwatched other si hother hopen
    have hmask : (set.after changes).lookup si.ufd = set.lookup si.ufd := by
      refine EpollSet.lookup_after_of_ne fun change hchange hsame ↦ hfresh ?_
      rw [← hchanges change hchange, hsame, (hconsistent.ufd other si hother).1]
      exact Finmap.mem_of_lookup_eq_some hother
    exact ⟨⟨hmask.trans hsi.mask, hsi.input, hsi.hangup⟩, hsi.output⟩
  unfold EpollRegistry.registerFd registerChanges
  by_cases hfd : fd = -1
  · rw [if_pos hfd, if_pos hfd]
    exact hwatched
  rw [if_neg hfd, if_neg hfd, if_neg hfresh, if_neg hfresh]
  cases env.registerFault with
  | none =>
    refine hwatched.insert hconsistent rfl (fun other hne ↦ ?_) fun _ ↦ ?_
    · exact Finmap.lookup_insert_of_ne _ hne
    · refine ⟨⟨Finmap.lookup_insert _, ?_, ?_⟩, iff_of_false ?_ ?_⟩
      · show (epollIn ||| epollRdhup) &&& epollIn ≠ 0
        decide
      · show (epollIn ||| epollRdhup) &&& epollRdhup ≠ 0
        decide
      · show ¬ (epollIn ||| epollRdhup) &&& epollOut ≠ 0
        decide
      · show ¬ (({} : OffsetBuffer).hasPending = true ∨ ({} : TlsSession).wantWrite = true)
        decide
  | some fault => cases fault <;> exact hkept _ (by simp [EpollChange.fd])

theorem fd_unregisterChanges (hconsistent : registry.Consistent) (fd : Int) :
    ∀ change ∈ unregisterChanges fd registry, change.fd = fd := by
  intro change hchange
  unfold unregisterChanges at hchange
  split_ifs at hchange with hfd
  · cases hchange
  · cases hinfo : registry.infos.lookup fd with
    | none =>
      rw [hinfo] at hchange
      cases hchange
    | some si =>
      rw [hinfo] at hchange
      rw [List.mem_singleton.mp hchange]
      exact (hconsistent.ufd fd si hinfo).1

/-- A connection is unregistered, whatever was written of it before. -/
theorem Watched.unregisterFd (hwatched : registry.Watched set)
    (hconsistent : registry.Consistent) {written : EpollRegistry} (hwritten : written.Consistent)
    {fd : Int}
    (hsame : ∀ other, other ≠ fd → written.infos.lookup other = registry.infos.lookup other) :
    (written.unregisterFd env fd).1.Watched (set.after (unregisterChanges fd written)) := by
  intro other si hother hopen
  by_cases hfd : other = fd
  · have hnone := view_eq_none.mp (@view_unregisterFd_self written env hwritten fd)
    rw [hfd, hnone] at hother
    cases hother
  · rw [lookup_unregisterFd_of_ne hfd, hsame other hfd] at hother
    have hsi := hwatched other si hother hopen
    have hmask : (set.after (unregisterChanges fd written)).lookup si.ufd = set.lookup si.ufd := by
      refine EpollSet.lookup_after_of_ne fun change hchange ↦ ?_
      rw [fd_unregisterChanges hwritten fd change hchange, (hconsistent.ufd other si hother).1]
      exact Ne.symm hfd
    exact ⟨⟨hmask.trans hsi.mask, hsi.input, hsi.hangup⟩, hsi.output⟩

theorem Watched.appendSend (hwatched : registry.Watched set) (hconsistent : registry.Consistent)
    (fd : Int) (cmd : Command) : (registry.appendSend env fd cmd).1.1.Watched
      (set.after (appendChanges env fd cmd registry)) := by
  unfold EpollRegistry.appendSend appendChanges
  cases hinfo : registry.infos.lookup fd with
  | none => exact hwatched
  | some si =>
    obtain ⟨hufd, -⟩ := hconsistent.ufd fd si hinfo
    have hpending := OffsetBuffer.hasPending_append si.send cmd
    dsimp only
    rw [OffsetBuffer.appendSending_snd]
    by_cases hidle : si.send.hasPending = false
    · have hedge : ¬ ¬ (!si.send.hasPending) = true := by simp [hidle]
      rw [if_neg hedge, if_neg hedge]
      by_cases hok : env.modOk si.ufd = true
      · rw [if_pos hok, if_pos hok]
        refine hwatched.insert hconsistent rfl (fun other hne ↦ ?_) fun hopen ↦ ?_
        · refine EpollSet.lookup_after_of_ne fun change hchange ↦ ?_
          rw [List.mem_singleton.mp hchange]
          exact hufd ▸ hne.symm
        · have hsi := hwatched fd si hinfo hopen
          have hmem : si.ufd ∈ set := Finmap.mem_of_lookup_eq_some hsi.mask
          refine ⟨⟨?_, ?_, ?_⟩, iff_of_true ?_ (Or.inl hpending)⟩
          · show (if si.ufd ∈ set then set.insert si.ufd (si.interest ||| epollOut)
              else set).lookup si.ufd = _
            rw [if_pos hmem, Finmap.lookup_insert]
          · rw [and_or_right]
            exact fun hzero ↦ hsi.input (UInt32.or_eq_zero_iff.mp hzero).1
          · rw [and_or_right]
            exact fun hzero ↦ hsi.hangup (UInt32.or_eq_zero_iff.mp hzero).1
          · rw [and_or_self]
            decide
      · rw [if_neg hok, if_neg hok]
        have hwritten : (registry.setInfo fd
            { si with
              send := (si.send.appendSending (encode cmd)).1
              interest := si.interest ||| epollOut }).Consistent :=
          hconsistent.setInfo hinfo rfl rfl rfl
        refine hwatched.unregisterFd hconsistent hwritten fun other hne ↦ ?_
        rw [hufd] at hne
        exact Finmap.lookup_insert_of_ne _ hne
    · -- the buffer had something to send before, so the interest is right already
      rw [Bool.not_eq_false] at hidle
      have hquiet : ¬ (!si.send.hasPending) = true := by simp [hidle]
      rw [if_pos hquiet, if_pos hquiet]
      refine hwatched.insert hconsistent rfl (fun _ _ ↦ rfl) fun hopen ↦ ?_
      have hsi := hwatched fd si hinfo hopen
      refine ⟨⟨hsi.mask, hsi.input, hsi.hangup⟩, iff_of_true ?_ (Or.inl hpending)⟩
      exact hsi.output.mpr (Or.inl hidle)

theorem Watched.handleSendOne (hwatched : registry.Watched set)
    (hconsistent : registry.Consistent) (fd : Int) (cmd : Command) :
    (registry.handleSendOne env fd cmd).1.Watched
      (set.after (appendChanges env fd cmd registry)) := by
  have happend := @Watched.appendSend registry env set hwatched hconsistent fd cmd
  unfold EpollRegistry.handleSendOne
  cases hinfo : registry.infos.lookup fd with
  | none =>
    unfold appendChanges
    rw [hinfo]
    exact hwatched
  | some si => exact happend

/-- A loop each of whose rounds keeps the connections watched. -/
theorem Watched.forEach {Item : Type} {body : Item → EpollRegistry → EpollRegistry × List Effect}
    {changes : Item → EpollRegistry → List EpollChange}
    (hbody : ∀ item registry set, registry.Consistent → registry.Watched set →
      (body item registry).1.Consistent ∧
        (body item registry).1.Watched (set.after (changes item registry)))
    (items : List Item) (hconsistent : registry.Consistent) (hwatched : registry.Watched set) :
    (EpollRegistry.forEach body items registry).1.Watched
      (set.after (forEachChanges changes (fun item registry ↦ (body item registry).1) items
        registry)) := by
  induction items generalizing registry set with
  | nil => exact hwatched
  | cons item rest ih =>
    obtain ⟨hnext, hwatched'⟩ := hbody item registry set hconsistent hwatched
    unfold forEachChanges
    rw [EpollSet.after_append]
    exact ih hnext hwatched'

theorem Watched.setJoinedRoomsOf (hwatched : registry.Watched set)
    (hconsistent : registry.Consistent) (roomIds : List Int) (fd : Int) :
    (registry.setJoinedRoomsOf env roomIds fd).1.Watched set := by
  unfold EpollRegistry.setJoinedRoomsOf
  cases hinfo : registry.infos.lookup fd with
  | none => exact hwatched
  | some si =>
    refine hwatched.rewrite hconsistent hinfo rfl ?_ ?_ ?_ <;> rw [setFdJoinedRooms_fst]
    exact ⟨rfl, rfl, rfl⟩

theorem Watched.handleSetJoinedRoomsForUser (hwatched : registry.Watched set)
    (hconsistent : registry.Consistent) (userId : Bytes) (roomIds : List Int) :
    (registry.handleSetJoinedRoomsForUser env userId roomIds).1.Watched set := by
  unfold EpollRegistry.handleSetJoinedRoomsForUser
  cases registry.userOnlineFds.lookup userId with
  | none => exact hwatched
  | some fds =>
    exact (@forEach_rel Int
      (fun before after _ ↦ before.Consistent ∧ before.Watched set →
        after.Consistent ∧ after.Watched set) (fun _ ↦ id)
      (fun _ _ _ _ _ hfirst hsecond hbefore ↦ hsecond (hfirst hbefore)) _
      (fun fd registry hregistry ↦ ⟨hregistry.1.setJoinedRoomsOf roomIds fd,
        hregistry.2.setJoinedRoomsOf hregistry.1 roomIds fd⟩) _ _ ⟨hconsistent, hwatched⟩).2

theorem Watched.handleSetUserId (hwatched : registry.Watched set)
    (hconsistent : registry.Consistent) (fd : Int) (userId : Bytes) :
    (registry.handleSetUserId env fd userId).1.Watched set := by
  unfold EpollRegistry.handleSetUserId
  cases hinfo : registry.infos.lookup fd with
  | none => exact hwatched
  | some si =>
    refine hwatched.rewrite hconsistent hinfo rfl ?_ ?_ ?_ <;> rw [setFdJoinedRooms_fst]
    exact ⟨rfl, rfl, rfl⟩

theorem Watched.handleSendFriendList (hwatched : registry.Watched set)
    (hconsistent : registry.Consistent) (fd : Int) (friendIds : List Bytes) :
    (registry.handleSendFriendList env fd friendIds).1.Watched
      (set.after (friendListChanges env fd friendIds registry)) := by
  have hheader := @Watched.appendSend registry env set hwatched hconsistent fd
    (.cmdResponse (text "friends: " ++ toText friendIds.length))
  unfold EpollRegistry.handleSendFriendList friendListChanges
  cases hinfo : registry.infos.lookup fd with
  | none => exact hwatched
  | some si =>
    dsimp only
    by_cases hok : ¬ (registry.appendSend env fd
        (.cmdResponse (text "friends: " ++ toText friendIds.length))).2
    · rw [if_pos hok, if_pos hok, List.append_nil]
      exact hheader
    · rw [if_neg hok, if_neg hok, EpollSet.after_append]
      exact Watched.forEach (fun friendId registry set hconsistent hwatched ↦
        ⟨hconsistent.appendSend fd _, hwatched.appendSend hconsistent fd _⟩) friendIds
        (hconsistent.appendSend fd _) hheader

theorem Watched.handleBroadcast (hwatched : registry.Watched set)
    (hconsistent : registry.Consistent) (fd : Int) (cmd : Command) :
    (registry.handleBroadcast env fd cmd).1.Watched
      (set.after (broadcastChanges env fd cmd registry)) := by
  unfold EpollRegistry.handleBroadcast broadcastChanges
  refine @Watched.forEach registry set Int _ _ (fun target registry set hconsistent hwatched ↦ ?_) _
    hconsistent hwatched
  exact ⟨hconsistent.appendSend target _, hwatched.appendSend hconsistent target _⟩

theorem Watched.handleRoomBroadcast (hwatched : registry.Watched set)
    (hconsistent : registry.Consistent) (senderFd roomId : Int) (cmd : Command) :
    (registry.handleRoomBroadcast env senderFd roomId cmd).1.Watched
      (set.after (roomBroadcastChanges env senderFd roomId cmd registry)) := by
  unfold EpollRegistry.handleRoomBroadcast roomBroadcastChanges
  cases registry.roomOnlineFds.lookup roomId with
  | none => exact hwatched
  | some targets =>
    exact Watched.forEach (fun fd registry set hconsistent hwatched ↦
      ⟨hconsistent.handleSendOne fd _, hwatched.handleSendOne hconsistent fd _⟩) _ hconsistent
      hwatched

/-- Every handler keeps the open connections watched. -/
theorem Watched.handleCommand (hwatched : registry.Watched set)
    (hconsistent : registry.Consistent) (env : HandlerEnv) {command : RegistryCommand}
    (hregister : ∀ fd interest, command = .register fd interest →
      interest = epollIn ||| epollRdhup ∧ fd ∉ registry.infos) :
    (registry.handleCommand env command).1.Watched
      (set.after (commandChanges env command registry)) := by
  cases command with
  | register fd interest =>
    obtain ⟨rfl, hfresh⟩ := hregister fd interest rfl
    exact hwatched.registerFd hconsistent hfresh
  | unregister fd => exact hwatched.unregisterFd hconsistent hconsistent fun _ _ ↦ rfl
  | sendOne fd cmd => exact hwatched.handleSendOne hconsistent fd cmd
  | broadcast fd cmd => exact hwatched.handleBroadcast hconsistent fd cmd
  | changeNickname fd nick =>
    show (registry.handleChangeNickname fd nick).1.Watched set
    unfold handleChangeNickname
    cases hinfo : registry.infos.lookup fd with
    | none => exact hwatched
    | some si => exact hwatched.rewrite hconsistent hinfo rfl ⟨rfl, rfl, rfl⟩ rfl rfl
  | setUserId fd userId => exact hwatched.handleSetUserId hconsistent fd userId
  | setJoinedRooms fd roomIds => exact hwatched.setJoinedRoomsOf hconsistent roomIds fd
  | setJoinedRoomsForUser userId roomIds =>
    exact hwatched.handleSetJoinedRoomsForUser hconsistent userId roomIds
  | sendFriendList fd friendIds => exact hwatched.handleSendFriendList hconsistent fd friendIds
  | roomBroadcast senderFd roomId cmd =>
    exact hwatched.handleRoomBroadcast hconsistent senderFd roomId cmd

end EpollRegistry

/-! ### Runs -/

/-- Registrations are queued with the interest of the acceptor. -/
def Pipeline.RegistersReading (pipeline : Pipeline) : Prop :=
  ∀ queued ∈ pipeline.queued, ∀ fd interest, queued.command = .register fd interest →
    interest = epollIn ||| epollRdhup

theorem registersReading_of_reachable [LinearOrder Bytes]
    {condition : ServerState → ServerLabel → Prop} {state : ServerState}
    (hreach : chatServer.ReachableUnder condition state) : state.pipeline.RegistersReading := by
  refine pipeline_induction ?_ ?_ hreach
  · intro queued hqueued
    cases hqueued
  intro state label next hreach hreading _ hstep
  cases hstep with
  | accept fd hfd hclosed hidle => exact hreading
  | register fd conn hacceptor =>
    intro queued hqueued other interest hcommand
    rcases List.mem_append.mp hqueued with hold | hnew
    · exact hreading queued hold other interest hcommand
    · rw [List.mem_singleton.mp hnew] at hcommand
      exact (RegistryCommand.register.inj hcommand).2.symm
  | handle env queued rest hqueued =>
    exact fun other hother ↦ hreading other (hqueued ▸ List.mem_cons_of_mem _ hother)
  | dispatch env fd si result hinfo hresult =>
    intro queued hqueued other interest hcommand
    rcases List.mem_append.mp hqueued with hold | hnew
    · exact hreading queued hold other interest hcommand
    · obtain ⟨command, hrequest, rfl⟩ := List.mem_map.mp hnew
      rcases hresult.requests command hrequest with rfl | ⟨message, rfl⟩ <;> cases hcommand
  | take env entry rest htodo htasks => exact hreading
  | push queued rest htodo =>
    intro other hother fd interest hcommand
    rcases List.mem_append.mp hother with hold | hnew
    · exact hreading other hold fd interest hcommand
    · rw [List.mem_singleton.mp hnew] at hcommand
      have hmem : queued ∈ state.pipeline.todo := htodo ▸ List.mem_cons_self
      obtain ⟨target, hby⟩ := (owned_of_reachable hreach).todo queued hmem
      rw [hcommand] at hby
      exact hby.elim

theorem watched_step [LinearOrder Bytes] {state next : ServerState} {label : ServerLabel}
    {set : EpollSet} (howned : state.pipeline.Owned) (hreading : state.pipeline.RegistersReading)
    (hwatched : state.registry.Watched set) (htransition : Transition state label next) :
    next.registry.Watched (epollSetAfter state label next set) := by
  cases htransition with
  | handle env queued pending events hphase =>
    have hmem : queued ∈ state.pipeline.queued := by
      simp [ServerState.pipeline, ServerState.queued, ServerState.pending, hphase]
    unfold epollSetAfter
    rw [hphase]
    refine hwatched.handleCommand howned.consistent env fun fd interest hcommand ↦ ?_
    refine ⟨hreading queued hmem fd interest hcommand, (howned.register_fresh hmem ?_).2⟩
    rw [hcommand]
    rfl
  | skip env stage event rest hphase hinfo =>
    unfold epollSetAfter
    rw [hphase]
    dsimp only
    rw [hinfo]
    exact hwatched
  | dispatch env stage event rest si hphase hinfo =>
    have hcallback := @watches_dispatchStage env si set stage event.mask
      (hwatched event.fd si hinfo)
    unfold epollSetAfter
    rw [hphase]
    dsimp only
    rw [hinfo]
    refine hwatched.insert howned.consistent rfl (fun other hne ↦ ?_) hcallback.watched
    refine EpollSet.lookup_after_of_ne fun change hchange ↦ ?_
    rw [hcallback.fd change hchange, (howned.consistent.ufd event.fd si hinfo).1]
    exact Ne.symm hne
  | _ => exact hwatched

/-- In every state that a run leads to, an open connection has `EPOLLOUT` in its interest exactly
when it has something to send or its TLS session wants to write, it has `EPOLLIN` and
`EPOLLRDHUP`, and the epoll instance has this interest as its mask. -/
theorem watched_of_reachable [LinearOrder Bytes] {state : ServerState × EpollSet}
    (hreach : watchedServer.Reachable state) :
    ∀ fd si, state.1.registry.infos.lookup fd = some si → si.isClosed = false →
      (si.interest &&& epollOut ≠ 0 ↔ si.send.hasPending = true ∨ si.tls.wantWrite = true) ∧
      si.interest &&& epollIn ≠ 0 ∧ si.interest &&& epollRdhup ≠ 0 ∧
      state.2.lookup fd = some si.interest := by
  have hwatched : state.1.registry.Watched state.2 := by
    refine @TransitionSystem.ReachableUnder.induction _ _ watchedServer _
      (fun state ↦ state.1.registry.Watched state.2) ?_ ?_ _ hreach
    · intro fd si hinfo
      cases hinfo
    · intro before label next hbefore hwatched _ hstep
      obtain ⟨hmoves, hset⟩ := TransitionSystem.withRecord_step_eq_some.mp hstep
      have hserver := TransitionSystem.Reachable.of_withRecord hbefore
      rw [hset]
      exact watched_step (owned_of_reachable hserver) (registersReading_of_reachable hserver)
        hwatched (transition_of_step hmoves)
  intro fd si hinfo hopen
  have hserver := TransitionSystem.Reachable.of_withRecord hreach
  have hsi := hwatched fd si hinfo hopen
  refine ⟨hsi.output, hsi.input, hsi.hangup, ?_⟩
  rw [← ((owned_of_reachable hserver).consistent.ufd fd si hinfo).1]
  exact hsi.mask

/-- A client connects and sends a response, and the echo is appended to its send buffer. -/
def echoed : List ServerLabel :=
  connecting 5 ++ round [] 1 [] ++ sending 5 [.cmdResponse (text "hi")] ++ working [] 1

theorem watched_echoed :
    ∃ state set, (@watchedServer bytewise).run (@watchedServer bytewise).start echoed =
        some (state, set) ∧
      ∃ si, state.registry.infos.lookup 5 = some si ∧ si.interest &&& epollOut ≠ 0 ∧
        set.lookup 5 = some si.interest := by
  let order := bytewise
  have hrun : ((watchedServer.run watchedServer.start echoed).map fun state ↦
      (state.1.registry.infos.lookup 5).map fun si ↦ (si.isClosed, si.send.hasPending)) =
        some (some (false, true)) := by decide +kernel
  obtain ⟨⟨state, set⟩, hstate, hfacts⟩ := Option.map_eq_some_iff.mp hrun
  obtain ⟨si, hinfo, hsi⟩ := Option.map_eq_some_iff.mp hfacts
  obtain ⟨hopen, hpending⟩ := Prod.mk.inj hsi
  have hwatched := watched_of_reachable (.of_run hstate) 5 si hinfo hopen
  exact ⟨state, set, hstate, si, hinfo, hwatched.1.mpr (Or.inl hpending), hwatched.2.2.2⟩

end ChatServer
