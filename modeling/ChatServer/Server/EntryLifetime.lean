import ChatServer.Server.Ownership

/-!
# The entries of connections

A handler works on a connection through a reference or an iterator into `infos`, and `append_send`
may erase the entry it was given: when `epoll_ctl` fails for a send buffer that has just become
pending, the connection is unregistered two calls down. The warning that follows still names it, and
a broadcast still advances from its entry.

So the entries outlive their uses exactly when `epoll_ctl` succeeds for every connection that is
appended to and has nothing to send yet (`entriesKept_iff`). Nothing else is at stake: once a buffer
is pending, further appends do not call `epoll_ctl`, and the callbacks of the event loop never erase
the entry they work on, since they only queue the request to unregister it.
-/

set_option autoImplicit false
set_option relaxedAutoImplicit false

namespace ChatServer

/-- No effect is a use of an entry that was erased. -/
def EntriesKept (effects : List Effect) : Prop :=
  ∀ fd, .dangling fd ∉ effects

theorem entriesKept_append {first second : List Effect} :
    EntriesKept (first ++ second) ↔ EntriesKept first ∧ EntriesKept second := by
  unfold EntriesKept
  rw [← forall_and]
  refine forall_congr' fun fd ↦ ?_
  rw [List.mem_append, not_or]

/-- The connections a command is appended to. -/
def RegistryCommand.addressees (registry : EpollRegistry) : RegistryCommand → Finset Int
  | .sendOne fd _ => {fd}
  | .broadcast _ _ => registry.infos.keys
  | .sendFriendList fd _ => {fd}
  | .roomBroadcast _ roomId _ => registry.roomOnlineFds.filed roomId
  | _ => ∅

namespace EpollRegistry

/-- The connection at a descriptor, if there is one, has something to send, or `epoll_ctl` succeeds
for it. -/
def Syncs (registry : EpollRegistry) (env : HandlerEnv) (fd : Int) : Prop :=
  ∀ si, registry.infos.lookup fd = some si → si.send.hasPending = false → env.modOk fd = true

variable {registry : EpollRegistry} {env : HandlerEnv}

/-! ### One append -/

/-- What an append leaves when it succeeds: the same connections, each as ready as before. -/
structure Appended (before after : EpollRegistry) (env : HandlerEnv) : Prop where
  mem : ∀ fd, fd ∈ after.infos ↔ fd ∈ before.infos
  syncs : ∀ fd, after.Syncs env fd ↔ before.Syncs env fd

theorem Appended.refl (registry : EpollRegistry) (env : HandlerEnv) :
    Appended registry registry env :=
  ⟨fun _ ↦ Iff.rfl, fun _ ↦ Iff.rfl⟩

/-- A buffer that is pending makes its connection ready. -/
theorem Appended.setInfo {fd : Int} {si si' : SocketInfo}
    (hinfo : registry.infos.lookup fd = some si) (hsyncs : registry.Syncs env fd)
    (hpending : si'.send.hasPending = true) : Appended registry (registry.setInfo fd si') env := by
  have hmem : fd ∈ registry.infos := Finmap.mem_of_lookup_eq_some hinfo
  refine ⟨fun other ↦ ?_, fun other ↦ ?_⟩
  · show other ∈ registry.infos.insert fd si' ↔ _
    rw [Finmap.mem_insert]
    constructor
    · rintro (rfl | hother)
      · exact hmem
      · exact hother
    · exact Or.inr
  · by_cases hsame : other = fd
    · rw [hsame]
      refine iff_of_true (fun other hother hidle ↦ ?_) hsyncs
      rw [EpollRegistry.setInfo, Finmap.lookup_insert, Option.some.injEq] at hother
      rw [← hother, hpending] at hidle
      cases hidle
    · unfold Syncs
      rw [EpollRegistry.setInfo, Finmap.lookup_insert_of_ne _ hsame]

/-- An append to a connection that is ready succeeds. -/
theorem appendSend_of_syncs (hconsistent : registry.Consistent) {fd : Int}
    (hmem : fd ∈ registry.infos) (hsyncs : registry.Syncs env fd) (cmd : Command) :
    (registry.appendSend env fd cmd).2 = true ∧
      EntriesKept (registry.appendSend env fd cmd).1.2 ∧
      Appended registry (registry.appendSend env fd cmd).1.1 env := by
  obtain ⟨si, hinfo⟩ := Finmap.mem_iff.mp hmem
  have hkept : EntriesKept [.appended fd si.userId cmd] := by
    intro other hother
    rw [List.mem_singleton] at hother
    cases hother
  unfold EpollRegistry.appendSend
  rw [hinfo]
  dsimp only
  rw [OffsetBuffer.appendSending_snd]
  by_cases hpending : si.send.hasPending = true
  · rw [if_pos (by simp [hpending])]
    exact ⟨rfl, hkept, Appended.setInfo hinfo hsyncs (OffsetBuffer.hasPending_append _ cmd)⟩
  · have hidle : si.send.hasPending = false := Bool.eq_false_of_not_eq_true hpending
    rw [if_neg (by simp [hidle]), (hconsistent.ufd fd si hinfo).1, if_pos (hsyncs si hinfo hidle)]
    exact ⟨rfl, hkept, Appended.setInfo hinfo hsyncs (OffsetBuffer.hasPending_append _ cmd)⟩

/-- An append for which `epoll_ctl` fails uses the entry it erased. -/
theorem dangling_of_not_syncs (hconsistent : registry.Consistent) {fd : Int}
    (hsyncs : ¬ registry.Syncs env fd) (cmd : Command) :
    .dangling fd ∈ (registry.appendSend env fd cmd).1.2 := by
  unfold Syncs at hsyncs
  push Not at hsyncs
  obtain ⟨si, hinfo, hidle, hfails⟩ := hsyncs
  unfold EpollRegistry.appendSend
  rw [hinfo]
  dsimp only
  rw [OffsetBuffer.appendSending_snd, if_neg (by simp [hidle]), (hconsistent.ufd fd si hinfo).1,
    if_neg hfails]
  simp

theorem entriesKept_appendSend (hconsistent : registry.Consistent) {fd : Int}
    (hmem : fd ∈ registry.infos) (cmd : Command) :
    EntriesKept (registry.appendSend env fd cmd).1.2 ↔ registry.Syncs env fd := by
  constructor
  · intro hkept
    by_contra hsyncs
    exact hkept fd (dangling_of_not_syncs hconsistent hsyncs cmd)
  · exact fun hsyncs ↦ (appendSend_of_syncs hconsistent hmem hsyncs cmd).2.1

/-! ### Loops -/

/-- A loop keeps the entries exactly when every connection it goes over is ready, if each of its
rounds does and leaves the others as ready as before. -/
theorem entriesKept_forEach {Item : Type} {fdOf : Item → Int}
    {body : Item → EpollRegistry → EpollRegistry × List Effect}
    {visited : EpollRegistry → Item → Prop}
    (hvisited : ∀ before after, Appended before after env → ∀ item, visited before item →
      visited after item)
    (hbody : ∀ item registry, registry.Consistent → visited registry item →
      (body item registry).1.Consistent ∧
      (EntriesKept (body item registry).2 ↔ registry.Syncs env (fdOf item)) ∧
      (registry.Syncs env (fdOf item) → Appended registry (body item registry).1 env))
    (items : List Item) (hconsistent : registry.Consistent)
    (hitems : ∀ item ∈ items, visited registry item) :
    EntriesKept (forEach body items registry).2 ↔
      ∀ item ∈ items, registry.Syncs env (fdOf item) := by
  induction items generalizing registry with
  | nil => simp [forEach, EntriesKept]
  | cons item rest ih =>
    obtain ⟨hnext, hkept, happended⟩ :=
      hbody item registry hconsistent (hitems item List.mem_cons_self)
    show EntriesKept ((body item registry).2 ++ (forEach body rest (body item registry).1).2) ↔ _
    rw [entriesKept_append, hkept, List.forall_mem_cons]
    refine and_congr_right fun hsyncs ↦ ?_
    have hafter := happended hsyncs
    rw [ih hnext fun other hother ↦
      hvisited _ _ hafter other (hitems other (List.mem_cons_of_mem _ hother))]
    exact forall₂_congr fun other _ ↦ hafter.syncs (fdOf other)

/-! ### Handlers -/

theorem entriesKept_handleSendOne (hconsistent : registry.Consistent) (fd : Int) (cmd : Command) :
    EntriesKept (registry.handleSendOne env fd cmd).2 ↔ registry.Syncs env fd := by
  unfold EpollRegistry.handleSendOne
  cases hinfo : registry.infos.lookup fd with
  | none =>
    refine iff_of_true (fun other hother ↦ by cases hother) fun si hsi ↦ ?_
    rw [hinfo] at hsi
    cases hsi
  | some si =>
    exact entriesKept_appendSend hconsistent (Finmap.mem_of_lookup_eq_some hinfo) cmd

theorem appended_handleSendOne (hconsistent : registry.Consistent) {fd : Int}
    (hsyncs : registry.Syncs env fd) (cmd : Command) :
    Appended registry (registry.handleSendOne env fd cmd).1 env := by
  unfold EpollRegistry.handleSendOne
  cases hinfo : registry.infos.lookup fd with
  | none => exact Appended.refl registry env
  | some si =>
    have hmem := Finmap.mem_of_lookup_eq_some hinfo
    exact (appendSend_of_syncs hconsistent hmem hsyncs cmd).2.2

theorem entriesKept_handleRoomBroadcast (hconsistent : registry.Consistent)
    (senderFd roomId : Int) (cmd : Command) :
    EntriesKept (registry.handleRoomBroadcast env senderFd roomId cmd).2 ↔
      ∀ fd ∈ registry.roomOnlineFds.filed roomId, registry.Syncs env fd := by
  unfold EpollRegistry.handleRoomBroadcast
  cases hroom : registry.roomOnlineFds.lookup roomId with
  | none =>
    rw [InvertedIndex.filed_of_lookup_none hroom]
    simp [EntriesKept]
  | some targets =>
    rw [InvertedIndex.filed_of_lookup hroom]
    refine (@entriesKept_forEach registry env _ id _ (fun _ _ ↦ True) (fun _ _ _ _ _ ↦ trivial)
      (fun fd other hother _ ↦ ⟨hother.handleSendOne fd _, entriesKept_handleSendOne hother fd _,
        fun hsyncs ↦ appended_handleSendOne hother hsyncs _⟩) _ hconsistent
      fun _ _ ↦ trivial).trans ?_
    simp only [env.order.mem_visit, id]

theorem entriesKept_handleBroadcast (hconsistent : registry.Consistent) (fd : Int)
    (cmd : Command) :
    EntriesKept (registry.handleBroadcast env fd cmd).2 ↔
      ∀ target ∈ registry.infos.keys, registry.Syncs env target := by
  unfold EpollRegistry.handleBroadcast
  refine (@entriesKept_forEach registry env _ id _ (fun registry fd ↦ fd ∈ registry.infos)
    (fun _ _ happended other ↦ (happended.mem other).mpr) ?_ _ hconsistent ?_).trans ?_
  · intro target other hother hmem
    refine ⟨hother.appendSend target _, ?_,
      fun hsyncs ↦ (appendSend_of_syncs hother hmem hsyncs _).2.2⟩
    by_cases hsyncs : other.Syncs env target
    · obtain ⟨hok, hkept, -⟩ :=
        appendSend_of_syncs hother hmem hsyncs (namedPayload registry fd cmd)
      dsimp only
      rw [if_pos hok]
      exact iff_of_true hkept hsyncs
    · refine iff_of_false (fun hkept ↦ hkept target ?_) hsyncs
      have hused := dangling_of_not_syncs hother hsyncs (namedPayload registry fd cmd)
      dsimp only
      split_ifs
      · exact hused
      · exact List.mem_append_left _ hused
  · intro target htarget
    rw [env.order.mem_visit] at htarget
    exact Finmap.mem_keys.mp htarget
  · simp only [env.order.mem_visit, id]

/-- The lines of a friend list go to a buffer that the header made pending. -/
theorem entriesKept_handleSendFriendList (hconsistent : registry.Consistent) (fd : Int)
    (friendIds : List Bytes) :
    EntriesKept (registry.handleSendFriendList env fd friendIds).2 ↔ registry.Syncs env fd := by
  unfold EpollRegistry.handleSendFriendList
  cases hinfo : registry.infos.lookup fd with
  | none =>
    refine iff_of_true (fun other hother ↦ by cases hother) fun si hsi ↦ ?_
    rw [hinfo] at hsi
    cases hsi
  | some si =>
    have hmem := Finmap.mem_of_lookup_eq_some hinfo
    dsimp only
    by_cases hsyncs : registry.Syncs env fd
    · obtain ⟨hok, hkept, happended⟩ := appendSend_of_syncs hconsistent hmem hsyncs
        (.cmdResponse (text "friends: " ++ toText friendIds.length))
      rw [if_neg (not_not.mpr hok)]
      refine iff_of_true (entriesKept_append.mpr ⟨hkept, ?_⟩) hsyncs
      refine (@entriesKept_forEach _ env _ (fun _ ↦ fd) _ (fun registry _ ↦ fd ∈ registry.infos)
        (fun _ _ happended _ ↦ (happended.mem fd).mpr) ?_ friendIds
        (hconsistent.appendSend fd _) fun _ _ ↦ (happended.mem fd).mpr hmem).mpr
        fun _ _ ↦ (happended.syncs fd).mpr hsyncs
      intro friendId other hother hmem
      exact ⟨hother.appendSend fd _, entriesKept_appendSend hother hmem _,
        fun hsyncs ↦ (appendSend_of_syncs hother hmem hsyncs _).2.2⟩
    · have hused := dangling_of_not_syncs hconsistent hsyncs
        (.cmdResponse (text "friends: " ++ toText friendIds.length))
      refine iff_of_false (fun hkept ↦ hkept fd ?_) hsyncs
      split_ifs
      · exact List.mem_append_left _ hused
      · exact hused

/-! ### Every command -/

theorem entriesKept_registerFd (fd : Int) (interest : UInt32) :
    EntriesKept (registry.registerFd env fd interest).2 := by
  unfold EpollRegistry.registerFd EntriesKept
  split_ifs
  · simp
  · simp
  · rcases env.registerFault with _ | fault
    · simp
    · cases fault <;> simp

theorem entriesKept_unregisterFd (fd : Int) :
    EntriesKept (registry.unregisterFd env fd).2 := by
  rcases unregisterFd_cases env fd registry with ⟨-, hsame⟩ | ⟨si, -, -, hafter⟩
  · rw [hsame]
    simp [EntriesKept]
  · rw [hafter]
    simp [EntriesKept]

theorem entriesKept_setJoinedRoomsOf (roomIds : List Int) (fd : Int) (registry : EpollRegistry) :
    EntriesKept (registry.setJoinedRoomsOf env roomIds fd).2 := by
  unfold setJoinedRoomsOf EntriesKept
  cases registry.infos.lookup fd <;> simp

theorem entriesKept_setJoinedRoomsForUser (userId : Bytes) (roomIds : List Int) :
    EntriesKept (registry.handleSetJoinedRoomsForUser env userId roomIds).2 := by
  unfold EpollRegistry.handleSetJoinedRoomsForUser
  cases registry.userOnlineFds.lookup userId with
  | none => simp [EntriesKept]
  | some fds =>
    exact @forEach_rel Int (fun _ _ effects ↦ EntriesKept effects)
      (fun _ fd hfd ↦ by cases hfd) (fun _ _ _ _ _ hfirst hsecond ↦
        entriesKept_append.mpr ⟨hfirst, hsecond⟩) _ (entriesKept_setJoinedRoomsOf roomIds) _ _

/-- A handler keeps the entries exactly when every connection it appends to is ready. -/
theorem entriesKept_handleCommand (hconsistent : registry.Consistent) (env : HandlerEnv)
    (command : RegistryCommand) :
    EntriesKept (registry.handleCommand env command).2 ↔
      ∀ fd ∈ command.addressees registry, registry.Syncs env fd := by
  have hquiet : ∀ effects, EntriesKept effects →
      (EntriesKept effects ↔ ∀ fd ∈ (∅ : Finset Int), registry.Syncs env fd) :=
    fun effects hkept ↦ iff_of_true hkept fun fd hfd ↦ absurd hfd (Finset.notMem_empty fd)
  cases command with
  | sendOne fd cmd =>
    refine (entriesKept_handleSendOne hconsistent fd cmd).trans ?_
    simp [RegistryCommand.addressees]
  | sendFriendList fd friendIds =>
    refine (entriesKept_handleSendFriendList hconsistent fd friendIds).trans ?_
    simp [RegistryCommand.addressees]
  | broadcast fd cmd => exact entriesKept_handleBroadcast hconsistent fd cmd
  | roomBroadcast senderFd roomId cmd =>
    exact entriesKept_handleRoomBroadcast hconsistent senderFd roomId cmd
  | register fd interest => exact hquiet _ (entriesKept_registerFd fd interest)
  | unregister fd => exact hquiet _ (entriesKept_unregisterFd fd)
  | changeNickname fd nick =>
    refine hquiet (registry.handleChangeNickname fd nick).2 ?_
    unfold handleChangeNickname EntriesKept
    cases registry.infos.lookup fd <;> simp
  | setUserId fd userId =>
    refine hquiet (registry.handleSetUserId env fd userId).2 ?_
    unfold handleSetUserId EntriesKept
    cases registry.infos.lookup fd <;> simp
  | setJoinedRooms fd roomIds =>
    exact hquiet _ (entriesKept_setJoinedRoomsOf roomIds fd registry)
  | setJoinedRoomsForUser userId roomIds =>
    exact hquiet _ (entriesKept_setJoinedRoomsForUser userId roomIds)

end EpollRegistry

/-! ### Entries in the event loop -/

/-- The event at hand that has come past its first callback works on an entry of `infos`. -/
def EntryInHand (state : ServerState) : Prop :=
  ∀ stage event rest, state.phase = .dispatching stage (event :: rest) → stage ≠ .recv →
    event.fd ∈ state.registry.infos

theorem entryInHand_step [LinearOrder Bytes] {state next : ServerState} {label : ServerLabel}
    (hentry : EntryInHand state) (htransition : Transition state label next) :
    EntryInHand next := by
  cases htransition with
  | accept fd hfd hclosed hidle => exact hentry
  | requestRegister fd conn hacceptor => exact hentry
  | epollWait events hphase hinterest hnodup => exact fun _ _ _ hnext ↦ by cases hnext
  | swap events hphase => exact fun _ _ _ hnext ↦ by cases hnext
  | handle env queued pending events hphase => exact fun _ _ _ hnext ↦ by cases hnext
  | workDone events hphase =>
    intro stage event rest hnext hstage
    obtain ⟨rfl, -⟩ := Phase.dispatching.inj hnext
    exact absurd rfl hstage
  | skip env stage event rest hphase hinfo =>
    intro later other events hnext hstage
    obtain ⟨rfl, -⟩ := Phase.dispatching.inj hnext
    exact absurd rfl hstage
  | dispatch env stage event rest si hphase hinfo =>
    intro later other events hnext hstage
    have hmem : ∀ result, event.fd ∈ (state.dispatched event rest si result).registry.infos := by
      intro result
      have hsame := @Pipeline.mem_infos_dispatched state.pipeline event.fd si hinfo result event.fd
      exact hsame.mpr (Finmap.mem_of_lookup_eq_some hinfo)
    cases hresult : (dispatchStage env stage event.mask si).next with
    | none =>
      simp only [ServerState.dispatched, hresult] at hnext
      obtain ⟨rfl, -⟩ := Phase.dispatching.inj hnext
      exact absurd rfl hstage
    | some stage' =>
      simp only [ServerState.dispatched, hresult] at hnext
      obtain ⟨-, hevents⟩ := Phase.dispatching.inj hnext
      rw [← (List.cons.inj hevents).1]
      exact hmem _
  | dispatchDone stage hphase => exact fun _ _ _ hnext ↦ by cases hnext
  | take env entry rest hworker htasks => exact hentry
  | push entry queued todo hworker => exact hentry
  | finish entry hworker => exact hentry

/-- A client is registered, has nothing to send, and `epoll_ctl` fails when a reply is appended. -/
theorem failedSync_dangles :
    ∃ (steps : List RegistryStep) (env : HandlerEnv) (command : RegistryCommand),
      ¬ EntriesKept ((EpollRegistry.after steps).handleCommand env command).2 := by
  refine ⟨[.handle .steady (.register 5 (epollIn ||| epollRdhup))],
    { HandlerEnv.steady with modOk := fun _ ↦ false }, .sendOne 5 (.cmdResponse (text "hi")),
    fun hkept ↦ hkept 5 ?_⟩
  decide

/-- In every registry that any sequence of steps leads to, a command uses no entry that was erased
if and only if `epoll_ctl` succeeds for each connection it is appended to that has nothing to send
yet. In every state of the server the entry that a later callback of an event works on is there. -/
theorem entriesKept_iff [LinearOrder Bytes] :
    (∀ steps env command,
      EntriesKept ((EpollRegistry.after steps).handleCommand env command).2 ↔
        ∀ fd ∈ command.addressees (EpollRegistry.after steps),
          (EpollRegistry.after steps).Syncs env fd) ∧
    ∀ state, chatServer.Reachable state → EntryInHand state := by
  refine ⟨fun steps env command ↦
    EpollRegistry.entriesKept_handleCommand (EpollRegistry.consistent_after steps) env command,
    fun state hreach ↦ ?_⟩
  refine @TransitionSystem.ReachableUnder.induction _ _ chatServer _ EntryInHand ?_ ?_ state hreach
  · exact fun _ _ _ hphase ↦ by cases hphase
  · exact fun before label next _ hentry _ hstep ↦
      entryInHand_step hentry (transition_of_step hstep)

end ChatServer
