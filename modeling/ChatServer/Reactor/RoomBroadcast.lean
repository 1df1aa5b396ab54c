import ChatServer.Reactor.RegistryEffects

/-!
# A room broadcast with failing members

The handler of a room broadcast sends to the connections that are filed under the room when it
starts. A send to a connection with nothing pending calls `epoll_ctl`, and when that fails the
connection is unregistered, which takes it out of the very index the handler goes over. The handler
goes over a copy, and looks every descriptor up again, so what becomes of one target does not
depend on the others (`lookup_handleRoomBroadcast`): its entry becomes `SocketInfo.broadcastTo`.

A consistent registry is known by its entries (`Consistent.eq_of_infos`). The registry that the
handler leaves is therefore the same for every order in which the set of targets is visited.
-/

set_option autoImplicit false
set_option relaxedAutoImplicit false

namespace ChatServer

/-- The entry of a target after a broadcast: it has the payload at the end of its send buffer,
unless nothing was pending and `epoll_ctl` fails. -/
def SocketInfo.broadcastTo (env : HandlerEnv) (payload : Command) (si : SocketInfo) :
    Option SocketInfo :=
  if si.send.hasPending then some { si with send := si.send.append (encode payload) }
  else if env.modOk si.ufd then
    some { si with
      send := si.send.append (encode payload)
      interest := si.interest ||| epollOut }
  else none

namespace EpollRegistry

variable {registry : EpollRegistry} {env : HandlerEnv}

/-! ### Entries -/

theorem lookup_unregisterFd_self (hconsistent : registry.Consistent) (fd : Int) :
    (registry.unregisterFd env fd).1.infos.lookup fd = none :=
  view_eq_none.mp (view_unregisterFd_self hconsistent fd)

/-- What sending to a connection leaves of its entry. -/
theorem lookup_handleSendOne_self (hconsistent : registry.Consistent) (fd : Int) (cmd : Command) :
    (registry.handleSendOne env fd cmd).1.infos.lookup fd =
      (registry.infos.lookup fd).bind (SocketInfo.broadcastTo env cmd) := by
  unfold handleSendOne appendSend
  cases hinfo : registry.infos.lookup fd with
  | none => exact hinfo
  | some si =>
    obtain ⟨rfl, -⟩ := hconsistent.ufd fd si hinfo
    rw [Option.bind_some, SocketInfo.broadcastTo]
    dsimp only
    rw [OffsetBuffer.appendSending_snd]
    by_cases hpending : si.send.hasPending = true
    · rw [if_pos (by simp [hpending]), if_pos hpending]
      exact Finmap.lookup_insert _
    · rw [if_neg (by simp [hpending]), if_neg hpending]
      by_cases hmod : env.modOk si.ufd = true
      · rw [if_pos hmod, if_pos hmod]
        exact Finmap.lookup_insert _
      · rw [if_neg hmod, if_neg hmod]
        refine lookup_unregisterFd_self ?_ si.ufd
        exact hconsistent.setInfo hinfo rfl rfl rfl

/-- Each of distinct targets is sent to once, and no other entry changes. -/
theorem lookup_forEach_handleSendOne (hconsistent : registry.Consistent) (cmd : Command)
    {fds : List Int} (hnodup : fds.Nodup) (other : Int) :
    (forEach (fun fd registry ↦ handleSendOne env fd cmd registry) fds
        registry).1.infos.lookup other =
      if other ∈ fds then (registry.infos.lookup other).bind (SocketInfo.broadcastTo env cmd)
      else registry.infos.lookup other := by
  induction fds generalizing registry with
  | nil => rfl
  | cons fd rest ih =>
    rw [List.nodup_cons] at hnodup
    rw [forEach]
    dsimp only
    rw [ih (hconsistent.handleSendOne fd cmd) hnodup.2]
    by_cases hsame : other = fd
    · rw [hsame, if_neg hnodup.1, if_pos List.mem_cons_self]
      exact lookup_handleSendOne_self hconsistent fd cmd
    · rw [lookup_handleSendOne_of_ne hconsistent hsame]
      by_cases hmem : other ∈ rest
      · rw [if_pos hmem, if_pos (List.mem_cons_of_mem fd hmem)]
      · rw [if_neg hmem, if_neg]
        exact fun hcons ↦ (List.mem_cons.mp hcons).elim hsame hmem

/-- The entries after a room broadcast. -/
theorem lookup_handleRoomBroadcast (hconsistent : registry.Consistent) (senderFd roomId : Int)
    (cmd : Command) (fd : Int) :
    (registry.handleRoomBroadcast env senderFd roomId cmd).1.infos.lookup fd =
      if fd ∈ registry.roomOnlineFds.filed roomId then
        (registry.infos.lookup fd).bind
          (SocketInfo.broadcastTo env (registry.namedPayload senderFd cmd))
      else registry.infos.lookup fd := by
  unfold handleRoomBroadcast
  cases hlookup : registry.roomOnlineFds.lookup roomId with
  | none =>
    rw [InvertedIndex.filed_of_lookup_none hlookup, if_neg (Finset.notMem_empty fd)]
  | some targets =>
    rw [InvertedIndex.filed_of_lookup hlookup]
    dsimp only
    rw [lookup_forEach_handleSendOne hconsistent _ (env.order.nodup_visit targets)]
    simp only [env.order.mem_visit]

/-! ### A registry is known by its entries -/

/-- The indices and the counter of a consistent registry follow from its entries. -/
theorem Consistent.eq_of_infos {first second : EpollRegistry} (hfirst : first.Consistent)
    (hsecond : second.Consistent) (hinfos : first.infos = second.infos) : first = second := by
  have hrooms : first.roomOnlineFds = second.roomOnlineFds := by
    refine hfirst.rooms.unique ?_ hfirst.noEmptyRooms hsecond.noEmptyRooms
    rw [hinfos]
    exact hsecond.rooms
  have husers : first.userOnlineFds = second.userOnlineFds := by
    refine hfirst.users.unique ?_ hfirst.noEmptyUsers hsecond.noEmptyUsers
    rw [hinfos]
    exact hsecond.users
  have hcount : first.connectedClientCount = second.connectedClientCount := by
    rw [hfirst.count, hsecond.count, hinfos]
  cases first
  cases second
  congr

/-- The order in which the targets are visited makes no difference. -/
theorem handleRoomBroadcast_congr (hconsistent : registry.Consistent) {other : HandlerEnv}
    (hmod : other.modOk = env.modOk) (senderFd roomId : Int) (cmd : Command) :
    (registry.handleRoomBroadcast other senderFd roomId cmd).1 =
      (registry.handleRoomBroadcast env senderFd roomId cmd).1 := by
  refine (hconsistent.handleRoomBroadcast senderFd roomId cmd).eq_of_infos
    (hconsistent.handleRoomBroadcast senderFd roomId cmd) (Finmap.ext_lookup fun fd ↦ ?_)
  have hsame : SocketInfo.broadcastTo other = SocketInfo.broadcastTo env := by
    funext payload si
    rw [SocketInfo.broadcastTo, SocketInfo.broadcastTo, hmod]
  rw [lookup_handleRoomBroadcast hconsistent, lookup_handleRoomBroadcast hconsistent, hsame]

/-! ### What becomes of the targets -/

/-- A descriptor without an entry is in neither index. -/
theorem Consistent.notMem_filed (hconsistent : registry.Consistent) {fd : Int}
    (hnone : registry.infos.lookup fd = none) :
    (∀ roomId, fd ∉ registry.roomOnlineFds.filed roomId) ∧
      ∀ userId, fd ∉ registry.userOnlineFds.filed userId := by
  have hview := view_eq_none.mpr hnone
  constructor
  · intro roomId
    rw [hconsistent.mem_filed_rooms_iff, hview]
    exact fun ⟨view, hsome, _⟩ ↦ Option.some_ne_none view hsome.symm
  · intro userId
    rw [hconsistent.mem_filed_users_iff, hview]
    exact fun ⟨_, joined, hsome⟩ ↦ Option.some_ne_none _ hsome.symm

/-- Two consistent registries in which a descriptor has the same user and rooms file it alike. -/
theorem Consistent.filed_iff_of_view {first second : EpollRegistry} (hfirst : first.Consistent)
    (hsecond : second.Consistent) {fd : Int} (hview : first.view fd = second.view fd) :
    (∀ roomId, fd ∈ first.roomOnlineFds.filed roomId ↔
      fd ∈ second.roomOnlineFds.filed roomId) ∧
    ∀ userId, fd ∈ first.userOnlineFds.filed userId ↔
      fd ∈ second.userOnlineFds.filed userId := by
  constructor
  · intro roomId
    rw [hfirst.mem_filed_rooms_iff, hsecond.mem_filed_rooms_iff, hview]
  · intro userId
    rw [hfirst.mem_filed_users_iff, hsecond.mem_filed_users_iff, hview]

/-- A target that stays has the payload in its send buffer, and otherwise at most another
interest. -/
theorem broadcastTo_eq_some {payload : Command} {si left : SocketInfo}
    (hleft : si.broadcastTo env payload = some left) :
    ∃ interest, left =
      { si with send := si.send.append (encode payload), interest := interest } := by
  unfold SocketInfo.broadcastTo at hleft
  split_ifs at hleft
  · exact ⟨si.interest, (Option.some.inj hleft).symm⟩
  · exact ⟨si.interest ||| epollOut, (Option.some.inj hleft).symm⟩

theorem broadcastTo_isSome {payload : Command} {si : SocketInfo}
    (hreached : si.send.hasPending = true ∨ env.modOk si.ufd = true) :
    ∃ left, si.broadcastTo env payload = some left := by
  unfold SocketInfo.broadcastTo
  by_cases hpending : si.send.hasPending = true
  · rw [if_pos hpending]
    exact ⟨_, rfl⟩
  · rw [if_neg hpending, if_pos (hreached.resolve_left hpending)]
    exact ⟨_, rfl⟩

theorem broadcastTo_eq_none {payload : Command} {si : SocketInfo}
    (hidle : si.send.hasPending = false) (hfails : env.modOk si.ufd = false) :
    si.broadcastTo env payload = none := by
  rw [SocketInfo.broadcastTo, if_neg (Bool.not_eq_true _ ▸ hidle),
    if_neg (Bool.not_eq_true _ ▸ hfails)]

/-- Whoever is still there keeps its user and its rooms. -/
theorem view_of_mem_handleRoomBroadcast (hconsistent : registry.Consistent)
    {senderFd roomId fd : Int} {cmd : Command}
    (hmem : fd ∈ (registry.handleRoomBroadcast env senderFd roomId cmd).1.infos) :
    (registry.handleRoomBroadcast env senderFd roomId cmd).1.view fd = registry.view fd := by
  have hlookup := @lookup_handleRoomBroadcast registry env hconsistent senderFd roomId cmd fd
  obtain ⟨left, hleft⟩ := Finmap.mem_iff.mp hmem
  unfold view
  by_cases htarget : fd ∈ registry.roomOnlineFds.filed roomId
  · rw [if_pos htarget, hleft] at hlookup
    obtain ⟨si, hinfo, hsent⟩ := Option.bind_eq_some_iff.mp hlookup.symm
    obtain ⟨interest, rfl⟩ := broadcastTo_eq_some hsent
    rw [hleft, hinfo]
    rfl
  · rw [if_neg htarget] at hlookup
    rw [hlookup]

end EpollRegistry

/-- A room broadcast in any registry that can be reached, whatever `epoll_ctl` answers. A target
whose send buffer was pending, or for which `epoll_ctl` succeeds, has the payload once at the end of
its send buffer and is otherwise as before but for its interest. Any other target is gone, from the
entries and from both indices. Nothing else changes, and the order of the targets does not
matter. -/
theorem roomBroadcast_delivered (steps : List RegistryStep) (env : HandlerEnv)
    (senderFd roomId : Int) (cmd : Command) :
    let before := EpollRegistry.after steps
    let targets := before.roomOnlineFds.filed roomId
    let payload := encode (before.namedPayload senderFd cmd)
    let after := (before.handleCommand env (.roomBroadcast senderFd roomId cmd)).1
    (∀ fd ∈ targets, ∃ si, before.infos.lookup fd = some si ∧
      (si.send.hasPending = true ∨ env.modOk fd = true → ∃ interest, after.infos.lookup fd =
        some { si with send := si.send.append payload, interest := interest }) ∧
      (si.send.hasPending = false → env.modOk fd = false → after.infos.lookup fd = none ∧
        (∀ room, fd ∉ after.roomOnlineFds.filed room) ∧
        ∀ userId, fd ∉ after.userOnlineFds.filed userId)) ∧
    (∀ fd, fd ∉ targets → after.infos.lookup fd = before.infos.lookup fd) ∧
    (∀ fd, fd ∈ after.infos →
      (∀ room, fd ∈ after.roomOnlineFds.filed room ↔ fd ∈ before.roomOnlineFds.filed room) ∧
      ∀ userId, fd ∈ after.userOnlineFds.filed userId ↔ fd ∈ before.userOnlineFds.filed userId) ∧
    ∀ other : HandlerEnv, other.modOk = env.modOk →
      (before.handleCommand other (.roomBroadcast senderFd roomId cmd)).1 = after := by
  intro before targets payload after
  have hbefore : before.Consistent := EpollRegistry.consistent_after steps
  have hafter : after.Consistent := hbefore.handleRoomBroadcast senderFd roomId cmd
  have hlookup := fun fd ↦
    @EpollRegistry.lookup_handleRoomBroadcast before env hbefore senderFd roomId cmd fd
  refine ⟨fun fd htarget ↦ ?_, fun fd htarget ↦ ?_, fun fd hmem ↦ ?_, fun other hmod ↦ ?_⟩
  · obtain ⟨si, hinfo, -⟩ := (hbefore.rooms roomId fd).mp htarget
    have hsent := hlookup fd
    obtain ⟨rfl, -⟩ := hbefore.ufd fd si hinfo
    rw [if_pos htarget, hinfo, Option.bind_some] at hsent
    refine ⟨si, hinfo, fun hreached ↦ ?_, fun hidle hfails ↦ ?_⟩
    · obtain ⟨left, hleft⟩ := EpollRegistry.broadcastTo_isSome hreached
      obtain ⟨interest, rfl⟩ := EpollRegistry.broadcastTo_eq_some hleft
      exact ⟨interest, hsent.trans hleft⟩
    · have hgone := hsent.trans (EpollRegistry.broadcastTo_eq_none hidle hfails)
      exact ⟨hgone, hafter.notMem_filed hgone⟩
  · exact (hlookup fd).trans (if_neg htarget)
  · exact hafter.filed_iff_of_view hbefore
      (EpollRegistry.view_of_mem_handleRoomBroadcast hbefore hmem)
  · exact EpollRegistry.handleRoomBroadcast_congr hbefore hmod senderFd roomId cmd

/-- The answers of an `epoll_ctl` that fails for one descriptor. -/
def HandlerEnv.failingFor (fd : Int) : HandlerEnv where
  order := .ascending
  modOk other := decide (other ≠ fd)
  registerFault := none

/-- Two connections that joined a room. -/
def twoMembers : List RegistryStep :=
  [.handle (.failingFor 0) (.register 5 epollIn), .handle (.failingFor 0) (.register 6 epollIn),
    .handle (.failingFor 0) (.setJoinedRooms 5 [1]),
    .handle (.failingFor 0) (.setJoinedRooms 6 [1])]

theorem roomBroadcast_delivered_twoMembers :
    ((EpollRegistry.after twoMembers).handleCommand (.failingFor 6)
      (.roomBroadcast 5 1 (.cmdResponse (text "hello")))).1.infos.lookup 6 = none := by
  have hidle : ((EpollRegistry.after twoMembers).infos.lookup 6).map
      (fun si ↦ si.send.hasPending) = some false := by decide +kernel
  obtain ⟨si, hinfo, -, hgone⟩ := (roomBroadcast_delivered twoMembers (.failingFor 6) 5 1
    (.cmdResponse (text "hello"))).1 6 (by decide +kernel)
  rw [hinfo, Option.map_some, Option.some.injEq] at hidle
  exact (hgone hidle rfl).1

end ChatServer
