import ChatServer.Reactor.RegistryInvariant

/-!
# What a command does to each connection

A handler is seen from outside in three ways. `view` is who a connection is logged in as and which
rooms it is filed under; `RegistryCommand.act` is what a command is meant to do to the view of one
connection, and `view_handleCommand` says that the handler does that, or unregisters the connection
because `epoll_ctl` failed. `Evolves` is the rest: which connections remain, with their receive
buffers untouched, and that exactly the descriptors of the connections that left were closed.
`recipients` are the connections that a handler appends to, with the user each is logged in as;
`recipients_handleRoomBroadcast` computes them for a room broadcast.

The three are proved for one round of a loop and carried over the loops by `forEach_rel`, and for
`append_send` and carried over the handlers that send by `Appending`.
-/

set_option autoImplicit false
set_option relaxedAutoImplicit false

namespace ChatServer

/-- The descriptor an effect appends to, with the user logged in there. -/
def Effect.recipient : Effect → Option (Int × Bytes)
  | .appended fd userId _ => some (fd, userId)
  | _ => none

/-- The descriptors that the effects append to, with the users logged in there. -/
def recipients (effects : List Effect) : List (Int × Bytes) :=
  effects.filterMap Effect.recipient

theorem recipients_append (first second : List Effect) :
    recipients (first ++ second) = recipients first ++ recipients second :=
  List.filterMap_append

/-- The positive ids of a list, the only ones that `set_fd_joined_rooms` takes. -/
def positiveRooms (roomIds : List Int) : Finset Int :=
  (roomIds.filter fun roomId ↦ decide (0 < roomId)).toFinset

theorem mem_positiveRooms {roomIds : List Int} {roomId : Int} :
    roomId ∈ positiveRooms roomIds ↔ roomId ∈ roomIds ∧ 0 < roomId := by
  simp [positiveRooms]

/-- Who a connection is logged in as, and the rooms it is filed under. -/
abbrev View := Bytes × Finset Int

/-- What a command is meant to do to the view of the connection at `fd`. -/
def RegistryCommand.act (fd : Int) (command : RegistryCommand) (view : Option View) : Option View :=
  match command with
  | .register target _ => if target = fd ∧ view = none then some ([], ∅) else view
  | .unregister target => if target = fd then none else view
  | .setUserId target userId => if target = fd then view.map fun _ ↦ (userId, ∅) else view
  | .setJoinedRooms target roomIds =>
    if target = fd then view.map fun view ↦ (view.1, positiveRooms roomIds) else view
  | .setJoinedRoomsForUser userId roomIds =>
    view.map fun view ↦
      if userId ≠ [] ∧ view.1 = userId then (view.1, positiveRooms roomIds) else view
  | _ => view

namespace RegistryCommand

variable (fd target : Int) (view : Option View)

@[simp] theorem act_register (interest : UInt32) : (register target interest).act fd view =
    if target = fd ∧ view = none then some ([], ∅) else view :=
  rfl

@[simp] theorem act_unregister :
    (unregister target).act fd view = if target = fd then none else view :=
  rfl

@[simp] theorem act_setUserId (userId : Bytes) : (setUserId target userId).act fd view =
    if target = fd then view.map fun _ ↦ (userId, ∅) else view :=
  rfl

@[simp] theorem act_setJoinedRooms (roomIds : List Int) :
    (setJoinedRooms target roomIds).act fd view =
      if target = fd then view.map fun view ↦ (view.1, positiveRooms roomIds) else view :=
  rfl

@[simp] theorem act_setJoinedRoomsForUser (userId : Bytes) (roomIds : List Int) :
    (setJoinedRoomsForUser userId roomIds).act fd view =
      view.map fun view ↦
        if userId ≠ [] ∧ view.1 = userId then (view.1, positiveRooms roomIds) else view :=
  rfl

/-- The user a command gives to the connection at `fd`. -/
def setsUser (command : RegistryCommand) : Option Bytes :=
  match command with
  | .setUserId target userId => if target = fd then some userId else none
  | _ => none

variable {fd}

theorem setsUser_eq_some {command : RegistryCommand} {userId : Bytes} :
    command.setsUser fd = some userId ↔ command = setUserId fd userId := by
  unfold setsUser
  cases command with
  | setUserId target other =>
    dsimp only
    split_ifs with hsame
    · simp [hsame]
    · simp [hsame]
  | _ => simp

/-- A connection has the user it was just given, or else the one it had. -/
theorem userId_act {command : RegistryCommand} {before after : View}
    (hact : command.act fd (some before) = some after) :
    after.1 = (command.setsUser fd).getD before.1 := by
  cases command with
  | register target interest =>
    rw [act_register, if_neg fun hboth ↦ by cases hboth.2] at hact
    rw [← Option.some.inj hact]
    rfl
  | unregister target =>
    rw [act_unregister] at hact
    split_ifs at hact
    rw [← Option.some.inj hact]
    rfl
  | setUserId target userId =>
    rw [act_setUserId] at hact
    unfold setsUser
    dsimp only
    split_ifs at hact ⊢ <;> rw [← Option.some.inj hact] <;> rfl
  | setJoinedRooms target roomIds =>
    rw [act_setJoinedRooms] at hact
    split_ifs at hact <;> rw [← Option.some.inj hact] <;> rfl
  | setJoinedRoomsForUser userId roomIds =>
    rw [act_setJoinedRoomsForUser, Option.map_some] at hact
    split_ifs at hact <;> rw [← Option.some.inj hact] <;> rfl
  | _ =>
    rw [← Option.some.inj hact]
    rfl

/-- Only a registration makes a new connection, and this has no user and no rooms. -/
theorem act_none_eq_some {command : RegistryCommand} {after : View}
    (hact : command.act fd none = some after) :
    (∃ interest, command = register fd interest) ∧ after = ([], ∅) := by
  cases command with
  | register target interest =>
    rw [act_register] at hact
    split_ifs at hact with hfd
    exact ⟨⟨interest, by rw [hfd.1]⟩, (Option.some.inj hact).symm⟩
  | unregister target =>
    rw [act_unregister, ite_self] at hact
    cases hact
  | setUserId target userId =>
    rw [act_setUserId, Option.map_none, ite_self] at hact
    cases hact
  | setJoinedRooms target roomIds =>
    rw [act_setJoinedRooms, Option.map_none, ite_self] at hact
    cases hact
  | _ => cases hact

end RegistryCommand

namespace EpollRegistry

/-- The view of the connection registered at a descriptor. -/
def view (registry : EpollRegistry) (fd : Int) : Option View :=
  (registry.infos.lookup fd).map fun si ↦ (si.userId, si.joinedRoomIds)

variable {registry : EpollRegistry} {env : HandlerEnv}

theorem view_eq_none {fd : Int} : registry.view fd = none ↔ registry.infos.lookup fd = none := by
  rw [view, Option.map_eq_none_iff]

theorem view_setInfo_self (fd : Int) (si : SocketInfo) :
    (registry.setInfo fd si).view fd = some (si.userId, si.joinedRoomIds) := by
  rw [view, setInfo, Finmap.lookup_insert, Option.map_some]

theorem view_setInfo_of_ne {fd other : Int} (hne : other ≠ fd) (si : SocketInfo) :
    (registry.setInfo fd si).view other = registry.view other := by
  rw [view, setInfo, Finmap.lookup_insert_of_ne _ hne, view]

/-! ### Which connections remain -/

/-- No connection is added, those that remain keep their receive buffers, and exactly the
descriptors of those that leave are closed. -/
structure Evolves (before after : EpollRegistry) (effects : List Effect) : Prop where
  kept : ∀ fd si', after.infos.lookup fd = some si' →
    ∃ si, before.infos.lookup fd = some si ∧ si'.recv = si.recv
  closed : ∀ fd, .closed fd ∈ effects ↔ fd ∈ before.infos ∧ fd ∉ after.infos
  watched : ∀ fd, .watched fd ∉ effects

theorem Evolves.mem {before after : EpollRegistry} {effects : List Effect}
    (hevolves : Evolves before after effects) {fd : Int} (hfd : fd ∈ after.infos) :
    fd ∈ before.infos := by
  obtain ⟨si', hsi'⟩ := Finmap.mem_iff.mp hfd
  obtain ⟨si, hsi, -⟩ := hevolves.kept fd si' hsi'
  exact Finmap.mem_of_lookup_eq_some hsi

theorem Evolves.refl (registry : EpollRegistry) : Evolves registry registry [] where
  kept _ si' hsi' := ⟨si', hsi', rfl⟩
  closed := by simp
  watched := by simp

theorem Evolves.trans {before middle after : EpollRegistry} {first second : List Effect}
    (hfirst : Evolves before middle first) (hsecond : Evolves middle after second) :
    Evolves before after (first ++ second) where
  kept fd si'' hsi'' := by
    obtain ⟨si', hsi', hrecv'⟩ := hsecond.kept fd si'' hsi''
    obtain ⟨si, hsi, hrecv⟩ := hfirst.kept fd si' hsi'
    exact ⟨si, hsi, hrecv'.trans hrecv⟩
  closed fd := by
    have hbefore := @Evolves.mem _ _ _ hfirst fd
    have hmiddle := @Evolves.mem _ _ _ hsecond fd
    rw [List.mem_append, hfirst.closed, hsecond.closed]
    tauto
  watched fd := by
    rw [List.mem_append, not_or]
    exact ⟨hfirst.watched fd, hsecond.watched fd⟩

/-- An effect that closes and watches nothing leaves the registry as it is. -/
theorem Evolves.emit (registry : EpollRegistry) {effect : Effect}
    (heffect : ∀ fd, effect ≠ .closed fd ∧ effect ≠ .watched fd) :
    Evolves registry registry [effect] where
  kept _ si' hsi' := ⟨si', hsi', rfl⟩
  closed fd := by
    rw [List.mem_singleton]
    constructor
    · intro hclosed
      exact absurd hclosed.symm (heffect fd).1
    · rintro ⟨hmem, hgone⟩
      exact absurd hmem hgone
  watched fd := by
    rw [List.mem_singleton]
    exact (heffect fd).2.symm

theorem Evolves.insert {fd : Int} {si si' : SocketInfo}
    (hinfo : registry.infos.lookup fd = some si) (hrecv : si'.recv = si.recv)
    {after : EpollRegistry} (hafter : after.infos = registry.infos.insert fd si') :
    Evolves registry after [] where
  kept other si'' hother := by
    rw [hafter] at hother
    rcases lookup_insert_eq_some.mp hother with ⟨rfl, rfl⟩ | ⟨-, hother⟩
    · exact ⟨si, hinfo, hrecv⟩
    · exact ⟨si'', hother, rfl⟩
  closed other := by
    have hkeys := keys_insert_of_lookup hinfo si'
    rw [hafter, ← Finmap.mem_keys, ← Finmap.mem_keys, hkeys]
    simp
  watched := by simp

theorem Evolves.unregisterFd (hconsistent : registry.Consistent) (fd : Int) :
    Evolves registry (registry.unregisterFd env fd).1 (registry.unregisterFd env fd).2 := by
  rcases unregisterFd_cases env fd registry with ⟨-, hsame⟩ | ⟨si, -, hinfo, hafter⟩
  · rw [hsame]
    exact Evolves.refl registry
  · rw [hafter]
    refine ⟨?_, ?_, by simp⟩
    · intro other si' hother
      exact ⟨si', (lookup_erase_eq_some.mp hother).2, rfl⟩
    · intro other
      have hmem : fd ∈ registry.infos := Finmap.mem_of_lookup_eq_some hinfo
      rw [List.mem_singleton, Effect.closed.injEq, (hconsistent.ufd fd si hinfo).1,
        Finmap.mem_erase]
      constructor
      · rintro rfl
        exact ⟨hmem, fun hother ↦ hother.1 rfl⟩
      · rintro ⟨hother, hgone⟩
        by_contra hne
        exact hgone ⟨hne, hother⟩

/-- Unregistering empties the view of the descriptor and leaves the others. -/
theorem view_unregisterFd (fd other : Int) :
    (registry.unregisterFd env fd).1.view other = registry.view other ∨
      (other = fd ∧ (registry.unregisterFd env fd).1.view other = none) := by
  rcases unregisterFd_cases env fd registry with ⟨-, hsame⟩ | ⟨si, -, hinfo, hafter⟩
  · rw [hsame]
    exact Or.inl rfl
  · rw [hafter]
    by_cases hsame : other = fd
    · refine Or.inr ⟨hsame, ?_⟩
      rw [view, hsame, Finmap.lookup_erase, Option.map_none]
    · refine Or.inl ?_
      rw [view, Finmap.lookup_erase_ne hsame, view]

/-- In a consistent registry unregistering a descriptor leaves no connection at it. -/
theorem view_unregisterFd_self (hconsistent : registry.Consistent) (fd : Int) :
    (registry.unregisterFd env fd).1.view fd = none := by
  rcases unregisterFd_cases env fd registry with ⟨hnone, hsame⟩ | ⟨si, -, -, hafter⟩
  · rw [hsame, view_eq_none]
    rcases hnone with hinvalid | hnone
    · cases hinfo : registry.infos.lookup fd with
      | none => rfl
      | some si => exact absurd hinvalid (hconsistent.ufd fd si hinfo).2
    · exact hnone
  · rw [hafter, view, Finmap.lookup_erase, Option.map_none]

/-! ### Sending -/

/-- What handlers that only send do: the views stay, except those of connections that leave. -/
def Sends (before after : EpollRegistry) (effects : List Effect) : Prop :=
  before.Consistent → after.Consistent ∧ Evolves before after effects ∧
    ∀ fd, after.view fd = before.view fd ∨ after.view fd = none

theorem Sends.refl (registry : EpollRegistry) : Sends registry registry [] :=
  fun hconsistent ↦ ⟨hconsistent, Evolves.refl registry, fun _ ↦ Or.inl rfl⟩

theorem Sends.trans {before middle after : EpollRegistry} {first second : List Effect}
    (hfirst : Sends before middle first) (hsecond : Sends middle after second) :
    Sends before after (first ++ second) := by
  intro hbefore
  obtain ⟨hmiddle, hevolves, hview⟩ := hfirst hbefore
  obtain ⟨hafter, hevolves', hview'⟩ := hsecond hmiddle
  refine ⟨hafter, hevolves.trans hevolves', fun fd ↦ ?_⟩
  rcases hview' fd with hsame | hgone
  · rw [hsame]
    exact hview fd
  · exact Or.inr hgone

theorem Sends.emit (registry : EpollRegistry) {effect : Effect}
    (heffect : ∀ fd, effect ≠ .closed fd ∧ effect ≠ .watched fd) :
    Sends registry registry [effect] :=
  fun hconsistent ↦ ⟨hconsistent, Evolves.emit registry heffect, fun _ ↦ Or.inl rfl⟩

/-- Writing an entry with the same user, the same rooms and the same receive buffer. -/
theorem Sends.setInfo {fd : Int} {si si' : SocketInfo} (hinfo : registry.infos.lookup fd = some si)
    (hufd : si'.ufd = si.ufd) (huser : si'.userId = si.userId)
    (hjoined : si'.joinedRoomIds = si.joinedRoomIds) (hrecv : si'.recv = si.recv) :
    Sends registry (registry.setInfo fd si') [] := by
  intro hconsistent
  refine ⟨hconsistent.setInfo hinfo hufd huser hjoined, Evolves.insert hinfo hrecv rfl,
    fun other ↦ Or.inl ?_⟩
  by_cases hsame : other = fd
  · rw [hsame, view_setInfo_self, view, hinfo, Option.map_some, huser, hjoined]
  · exact view_setInfo_of_ne hsame si'

theorem Sends.unregisterFd (fd : Int) :
    Sends registry (registry.unregisterFd env fd).1 (registry.unregisterFd env fd).2 := by
  intro hconsistent
  refine ⟨hconsistent.unregisterFd fd, Evolves.unregisterFd hconsistent fd, fun other ↦ ?_⟩
  rcases view_unregisterFd fd other with hsame | ⟨-, hgone⟩
  · exact Or.inl hsame
  · exact Or.inr hgone

/-- The entry that `append_send` writes before it synchronizes the interest. -/
theorem Sends.append {fd : Int} {si si' : SocketInfo} (hinfo : registry.infos.lookup fd = some si)
    (cmd : Command) (hufd : si'.ufd = si.ufd) (huser : si'.userId = si.userId)
    (hjoined : si'.joinedRoomIds = si.joinedRoomIds) (hrecv : si'.recv = si.recv) :
    Sends registry (registry.setInfo fd si') [.appended fd si.userId cmd] :=
  (Sends.setInfo hinfo hufd huser hjoined hrecv).trans (Sends.emit _ (by simp))

theorem Sends.appendSend (fd : Int) (cmd : Command) (registry : EpollRegistry) :
    Sends registry (registry.appendSend env fd cmd).1.1 (registry.appendSend env fd cmd).1.2 := by
  unfold EpollRegistry.appendSend
  cases hinfo : registry.infos.lookup fd with
  | none => exact Sends.emit registry (by simp)
  | some si =>
    dsimp only
    split_ifs
    · exact Sends.append hinfo cmd rfl rfl rfl rfl
    · refine Sends.trans
        (Sends.trans (Sends.append hinfo cmd ?_ ?_ ?_ ?_) (Sends.unregisterFd si.ufd))
        (Sends.emit _ (by simp))
      all_goals rfl
    · exact Sends.append hinfo cmd rfl rfl rfl rfl

/-- A handler that only sends does no more than its appends. -/
theorem Appending.sends {sent : Int → Command → Prop} {after : EpollRegistry}
    {effects : List Effect} (happending : Appending env sent registry after effects) :
    Sends registry after effects := by
  induction happending with
  | refl registry => exact Sends.refl registry
  | dangling registry fd => exact Sends.emit registry (by simp)
  | append registry fd cmd hsent => exact Sends.appendSend fd cmd registry
  | trans before middle after first second _ _ ihfirst ihsecond => exact ihfirst.trans ihsecond

theorem Sends.handleSendOne (fd : Int) (cmd : Command) (registry : EpollRegistry) :
    Sends registry (registry.handleSendOne env fd cmd).1 (registry.handleSendOne env fd cmd).2 :=
  (@appending_handleSendOne env (fun _ _ ↦ True) fd cmd trivial registry).sends

theorem Sends.handleBroadcast (fd : Int) (cmd : Command) (registry : EpollRegistry) :
    Sends registry (registry.handleBroadcast env fd cmd).1
      (registry.handleBroadcast env fd cmd).2 :=
  (@appending_handleBroadcast registry env (fun _ _ ↦ True) fd cmd fun _ ↦ trivial).sends

theorem Sends.handleSendFriendList (fd : Int) (friendIds : List Bytes) (registry : EpollRegistry) :
    Sends registry (registry.handleSendFriendList env fd friendIds).1
      (registry.handleSendFriendList env fd friendIds).2 :=
  (@appending_handleSendFriendList registry env (fun _ _ ↦ True) fd friendIds trivial
    fun _ _ _ _ ↦ trivial).sends

theorem Sends.handleRoomBroadcast (senderFd roomId : Int) (cmd : Command)
    (registry : EpollRegistry) :
    Sends registry (registry.handleRoomBroadcast env senderFd roomId cmd).1
      (registry.handleRoomBroadcast env senderFd roomId cmd).2 :=
  (@appending_handleRoomBroadcast registry env (fun _ _ ↦ True) senderFd roomId cmd
    fun _ ↦ trivial).sends

theorem Sends.handleChangeNickname (fd : Int) (nick : Bytes) (registry : EpollRegistry) :
    Sends registry (registry.handleChangeNickname fd nick).1
      (registry.handleChangeNickname fd nick).2 := by
  unfold EpollRegistry.handleChangeNickname
  cases hinfo : registry.infos.lookup fd with
  | none => exact Sends.refl registry
  | some si => exact Sends.setInfo hinfo rfl rfl rfl rfl

/-! ### Users and rooms -/

theorem setFdJoinedRooms_fst (order : IterationOrder Int) (si : SocketInfo) (roomIds : List Int)
    (index : InvertedIndex Int Int) :
    (setFdJoinedRooms order si roomIds index).1 =
      { si with joinedRoomIds := positiveRooms roomIds } := by
  obtain ⟨⟨joined, hsi, hjoined⟩, -⟩ := setFdJoinedRooms_spec order si roomIds index
  have hrooms : joined = positiveRooms roomIds := by
    ext roomId
    rw [hjoined, mem_positiveRooms]
  rw [hsi, hrooms]

theorem view_setJoinedRoomsOf (roomIds : List Int) (fd other : Int) (registry : EpollRegistry) :
    (registry.setJoinedRoomsOf env roomIds fd).1.view other =
      if other = fd then (registry.view other).map fun view ↦ (view.1, positiveRooms roomIds)
      else registry.view other := by
  unfold EpollRegistry.setJoinedRoomsOf
  cases hinfo : registry.infos.lookup fd with
  | none =>
    by_cases hsame : other = fd
    · rw [if_pos hsame, hsame, view_eq_none.mpr hinfo, Option.map_none]
    · rw [if_neg hsame]
  | some si =>
    by_cases hsame : other = fd
    · rw [if_pos hsame, hsame, view, view, Finmap.lookup_insert, hinfo, setFdJoinedRooms_fst]
      rfl
    · rw [if_neg hsame, view, Finmap.lookup_insert_of_ne _ hsame, view]

theorem evolves_setJoinedRoomsOf (roomIds : List Int) (fd : Int) (registry : EpollRegistry) :
    Evolves registry (registry.setJoinedRoomsOf env roomIds fd).1
      (registry.setJoinedRoomsOf env roomIds fd).2 := by
  unfold EpollRegistry.setJoinedRoomsOf
  cases hinfo : registry.infos.lookup fd with
  | none => exact Evolves.refl registry
  | some si => exact Evolves.insert hinfo (by rw [setFdJoinedRooms_fst]) rfl

theorem view_handleSetUserId (fd : Int) (userId : Bytes) (other : Int)
    (registry : EpollRegistry) :
    (registry.handleSetUserId env fd userId).1.view other =
      (RegistryCommand.setUserId fd userId).act other (registry.view other) := by
  rw [RegistryCommand.act_setUserId]
  unfold EpollRegistry.handleSetUserId
  cases hinfo : registry.infos.lookup fd with
  | none =>
    by_cases hsame : fd = other
    · rw [if_pos hsame, ← hsame, view_eq_none.mpr hinfo, Option.map_none]
    · rw [if_neg hsame]
  | some si =>
    by_cases hsame : fd = other
    · rw [if_pos hsame, ← hsame, view, view, Finmap.lookup_insert, hinfo, setFdJoinedRooms_fst]
      rfl
    · rw [if_neg hsame, view, Finmap.lookup_insert_of_ne _ (Ne.symm hsame), view]

theorem evolves_handleSetUserId (fd : Int) (userId : Bytes) (registry : EpollRegistry) :
    Evolves registry (registry.handleSetUserId env fd userId).1
      (registry.handleSetUserId env fd userId).2 := by
  unfold EpollRegistry.handleSetUserId
  cases hinfo : registry.infos.lookup fd with
  | none => exact Evolves.refl registry
  | some si => exact Evolves.insert hinfo (by rw [setFdJoinedRooms_fst]) rfl

theorem view_forEach_setJoinedRoomsOf (roomIds : List Int) (fds : List Int) (other : Int)
    (registry : EpollRegistry) :
    (forEach (setJoinedRoomsOf env roomIds) fds registry).1.view other =
      if other ∈ fds then (registry.view other).map fun view ↦ (view.1, positiveRooms roomIds)
      else registry.view other := by
  induction fds generalizing registry with
  | nil => rfl
  | cons fd rest ih =>
    rw [forEach]
    dsimp only
    rw [ih, view_setJoinedRoomsOf]
    by_cases hsame : other = fd
    · rw [if_pos hsame, if_pos (List.mem_cons.mpr (Or.inl hsame)), Option.map_map]
      split_ifs <;> rfl
    · rw [if_neg hsame]
      simp only [List.mem_cons, hsame, false_or]

/-- Whether a connection is in the set of a user, read off its view. -/
theorem Consistent.mem_filed_users_iff (hconsistent : registry.Consistent) {userId : Bytes}
    {fd : Int} : fd ∈ registry.userOnlineFds.filed userId ↔
      userId ≠ [] ∧ ∃ joined, registry.view fd = some (userId, joined) := by
  rw [hconsistent.users userId fd]
  constructor
  · rintro ⟨si, hinfo, hempty, rfl⟩
    exact ⟨hempty, si.joinedRoomIds, by rw [view, hinfo, Option.map_some]⟩
  · rintro ⟨hempty, joined, hview⟩
    obtain ⟨si, hinfo, hsi⟩ := Option.map_eq_some_iff.mp hview
    exact ⟨si, hinfo, hempty, (Prod.mk.inj hsi).1⟩

/-- Whether a connection is in the set of a room, read off its view. -/
theorem Consistent.mem_filed_rooms_iff (hconsistent : registry.Consistent) {roomId : Int}
    {fd : Int} : fd ∈ registry.roomOnlineFds.filed roomId ↔
      ∃ view, registry.view fd = some view ∧ roomId ∈ view.2 := by
  rw [hconsistent.rooms roomId fd]
  constructor
  · rintro ⟨si, hinfo, hroom⟩
    exact ⟨_, by rw [view, hinfo, Option.map_some], hroom⟩
  · rintro ⟨view, hview, hroom⟩
    obtain ⟨si, hinfo, rfl⟩ := Option.map_eq_some_iff.mp hview
    exact ⟨si, hinfo, hroom⟩

theorem view_handleSetJoinedRoomsForUser (hconsistent : registry.Consistent) (userId : Bytes)
    (roomIds : List Int) (other : Int) :
    (registry.handleSetJoinedRoomsForUser env userId roomIds).1.view other =
      (RegistryCommand.setJoinedRoomsForUser userId roomIds).act other (registry.view other) := by
  have hfiled := @Consistent.mem_filed_users_iff _ hconsistent userId other
  have hact : (RegistryCommand.setJoinedRoomsForUser userId roomIds).act other
      (registry.view other) =
        if other ∈ registry.userOnlineFds.filed userId then
          (registry.view other).map fun view ↦ (view.1, positiveRooms roomIds)
        else registry.view other := by
    rw [RegistryCommand.act_setJoinedRoomsForUser]
    cases hview : registry.view other with
    | none => rw [Option.map_none, Option.map_none, ite_self]
    | some view =>
      rw [hview] at hfiled
      by_cases hsame : userId ≠ [] ∧ view.1 = userId
      · rw [if_pos (hfiled.mpr ⟨hsame.1, view.2, by rw [← hsame.2]⟩), Option.map_some,
          Option.map_some, if_pos hsame]
      · rw [if_neg, Option.map_some, if_neg hsame]
        intro hmem
        obtain ⟨hempty, joined, hjoined⟩ := hfiled.mp hmem
        exact hsame ⟨hempty, by rw [Option.some.inj hjoined]⟩
  rw [hact]
  unfold EpollRegistry.handleSetJoinedRoomsForUser
  cases hlookup : registry.userOnlineFds.lookup userId with
  | none =>
    rw [InvertedIndex.filed_of_lookup_none hlookup, if_neg (Finset.notMem_empty other)]
  | some fds =>
    dsimp only
    rw [view_forEach_setJoinedRoomsOf, InvertedIndex.filed_of_lookup hlookup]
    exact if_congr (env.order.mem_visit fds other) rfl rfl

theorem evolves_handleSetJoinedRoomsForUser (userId : Bytes) (roomIds : List Int)
    (registry : EpollRegistry) :
    Evolves registry (registry.handleSetJoinedRoomsForUser env userId roomIds).1
      (registry.handleSetJoinedRoomsForUser env userId roomIds).2 := by
  unfold EpollRegistry.handleSetJoinedRoomsForUser
  cases registry.userOnlineFds.lookup userId with
  | none => exact Evolves.refl registry
  | some fds =>
    exact forEach_rel Evolves.refl (fun _ _ _ _ _ ↦ Evolves.trans)
      (fun fd registry ↦ evolves_setJoinedRoomsOf roomIds fd registry) _ _

/-! ### Every command -/

/-- What `register_fd` does for a descriptor that no connection has: it registers a fresh
connection, or it closes the descriptor. -/
theorem registerFd_of_notMem {fd : Int} (hfd : fd ≠ -1) (hmem : fd ∉ registry.infos)
    (interest : UInt32) :
    ((registry.registerFd env fd interest).1.infos =
        registry.infos.insert fd { interest := interest, ufd := fd } ∧
      (registry.registerFd env fd interest).2 = [.watched fd]) ∨
    ((registry.registerFd env fd interest).1 = registry ∧
      ((registry.registerFd env fd interest).2 = [.closed fd] ∨
        (registry.registerFd env fd interest).2 = [.watched fd, .closed fd])) := by
  unfold EpollRegistry.registerFd
  rw [if_neg hfd, if_neg hmem]
  rcases env.registerFault with _ | fault
  · exact Or.inl ⟨rfl, rfl⟩
  · cases fault <;> simp

theorem view_registerFd (target : Int) (interest : UInt32) (fd : Int) :
    (registry.registerFd env target interest).1.view fd =
        (if target = fd ∧ registry.view fd = none then some ([], ∅) else registry.view fd) ∨
      (registry.registerFd env target interest).1.view fd = none := by
  have hunchanged : registry.view fd =
      (if target = fd ∧ registry.view fd = none then some ([], ∅) else registry.view fd) ∨
        registry.view fd = none := by
    by_cases hnone : registry.view fd = none
    · exact Or.inr hnone
    · exact Or.inl (by rw [if_neg fun hboth ↦ hnone hboth.2])
  by_cases hskip : target = -1 ∨ target ∈ registry.infos
  · have hsame : (registry.registerFd env target interest).1 = registry := by
      unfold registerFd
      rcases hskip with htarget | hmem
      · rw [if_pos htarget]
      · split_ifs <;> rfl
    rw [hsame]
    exact hunchanged
  · rw [not_or] at hskip
    rcases @registerFd_of_notMem registry env target hskip.1 hskip.2 interest with
      ⟨hinfos, -⟩ | ⟨hsame, -⟩
    · rw [view, hinfos]
      by_cases hfd : target = fd
      · have hnone : registry.view fd = none :=
          view_eq_none.mpr (Finmap.lookup_eq_none.mpr (hfd ▸ hskip.2))
        rw [← hfd, Finmap.lookup_insert, hfd, if_pos ⟨rfl, hnone⟩]
        exact Or.inl rfl
      · rw [Finmap.lookup_insert_of_ne _ (Ne.symm hfd), if_neg fun hboth ↦ hfd hboth.1, view]
        exact Or.inl rfl
    · rw [hsame]
      exact hunchanged

/-- A handler does to the view of each connection what its command is meant to do, or it has
unregistered the connection. -/
theorem view_handleCommand (hconsistent : registry.Consistent) (env : HandlerEnv)
    (command : RegistryCommand) (fd : Int) :
    (registry.handleCommand env command).1.view fd = command.act fd (registry.view fd) ∨
      (registry.handleCommand env command).1.view fd = none := by
  cases command with
  | register target interest =>
    rw [RegistryCommand.act_register]
    exact view_registerFd target interest fd
  | unregister target =>
    rw [RegistryCommand.act_unregister]
    by_cases hsame : target = fd
    · exact Or.inr (hsame ▸ view_unregisterFd_self hconsistent target)
    · rw [if_neg hsame]
      rcases @view_unregisterFd registry env target fd with hview | ⟨hfd, -⟩
      · exact Or.inl hview
      · exact absurd hfd.symm hsame
  | sendOne target cmd => exact (Sends.handleSendOne target cmd registry hconsistent).2.2 fd
  | broadcast target cmd => exact (Sends.handleBroadcast target cmd registry hconsistent).2.2 fd
  | changeNickname target nick =>
    exact (Sends.handleChangeNickname target nick registry hconsistent).2.2 fd
  | setUserId target userId => exact Or.inl (view_handleSetUserId target userId fd registry)
  | setJoinedRooms target roomIds =>
    refine Or.inl ((view_setJoinedRoomsOf roomIds target fd registry).trans ?_)
    rw [RegistryCommand.act_setJoinedRooms]
    simp only [eq_comm]
  | setJoinedRoomsForUser userId roomIds =>
    exact Or.inl (view_handleSetJoinedRoomsForUser hconsistent userId roomIds fd)
  | sendFriendList target friendIds =>
    exact (Sends.handleSendFriendList target friendIds registry hconsistent).2.2 fd
  | roomBroadcast senderFd roomId cmd =>
    exact (Sends.handleRoomBroadcast senderFd roomId cmd registry hconsistent).2.2 fd

/-- A connection has the user it was just given, or else the one it had, and a new one has none. -/
theorem userId_handleCommand (hconsistent : registry.Consistent) (env : HandlerEnv)
    {command : RegistryCommand} {fd : Int} {si' : SocketInfo}
    (hinfo : (registry.handleCommand env command).1.infos.lookup fd = some si') :
    (∃ si, registry.infos.lookup fd = some si ∧
      si'.userId = (command.setsUser fd).getD si.userId) ∨
    (registry.infos.lookup fd = none ∧ si'.userId = []) := by
  have hview : (registry.handleCommand env command).1.view fd =
      some (si'.userId, si'.joinedRoomIds) := by
    rw [view, hinfo, Option.map_some]
  have hact : command.act fd (registry.view fd) = some (si'.userId, si'.joinedRoomIds) := by
    rcases view_handleCommand hconsistent env command fd with hact | hgone
    · exact hact.symm.trans hview
    · rw [hview] at hgone
      cases hgone
  cases hbefore : registry.infos.lookup fd with
  | none =>
    rw [view_eq_none.mpr hbefore] at hact
    exact Or.inr ⟨rfl, congrArg Prod.fst (RegistryCommand.act_none_eq_some hact).2⟩
  | some si =>
    rw [view, hbefore, Option.map_some] at hact
    exact Or.inl ⟨si, rfl, RegistryCommand.userId_act hact⟩

/-- Every command but a registration only lets connections leave. -/
theorem evolves_handleCommand (hconsistent : registry.Consistent) (env : HandlerEnv)
    {command : RegistryCommand} (hcommand : ∀ fd interest, command ≠ .register fd interest) :
    Evolves registry (registry.handleCommand env command).1
      (registry.handleCommand env command).2 := by
  cases command with
  | register fd interest => exact absurd rfl (hcommand fd interest)
  | unregister fd => exact Evolves.unregisterFd hconsistent fd
  | sendOne fd cmd => exact (Sends.handleSendOne fd cmd registry hconsistent).2.1
  | broadcast fd cmd => exact (Sends.handleBroadcast fd cmd registry hconsistent).2.1
  | changeNickname fd nick => exact (Sends.handleChangeNickname fd nick registry hconsistent).2.1
  | setUserId fd userId => exact evolves_handleSetUserId fd userId registry
  | setJoinedRooms fd roomIds => exact evolves_setJoinedRoomsOf roomIds fd registry
  | setJoinedRoomsForUser userId roomIds =>
    exact evolves_handleSetJoinedRoomsForUser userId roomIds registry
  | sendFriendList fd friendIds =>
    exact (Sends.handleSendFriendList fd friendIds registry hconsistent).2.1
  | roomBroadcast senderFd roomId cmd =>
    exact (Sends.handleRoomBroadcast senderFd roomId cmd registry hconsistent).2.1

/-! ### Who a room broadcast reaches -/

theorem lookup_unregisterFd_of_ne {fd other : Int} (hne : other ≠ fd) :
    (registry.unregisterFd env fd).1.infos.lookup other = registry.infos.lookup other := by
  rcases unregisterFd_cases env fd registry with ⟨-, hsame⟩ | ⟨si, -, -, hafter⟩
  · rw [hsame]
  · rw [hafter]
    exact Finmap.lookup_erase_ne hne

/-- Sending to one connection leaves the entries of the others. -/
theorem lookup_handleSendOne_of_ne (hconsistent : registry.Consistent) {fd other : Int}
    (hne : other ≠ fd) (cmd : Command) :
    (registry.handleSendOne env fd cmd).1.infos.lookup other = registry.infos.lookup other := by
  unfold handleSendOne appendSend setInfo
  cases hinfo : registry.infos.lookup fd with
  | none => rfl
  | some si =>
    have hufd : other ≠ si.ufd := (hconsistent.ufd fd si hinfo).1.symm ▸ hne
    dsimp only
    split_ifs
    · exact Finmap.lookup_insert_of_ne _ hne
    · exact (lookup_unregisterFd_of_ne hufd).trans (Finmap.lookup_insert_of_ne _ hne)
    · exact Finmap.lookup_insert_of_ne _ hne

theorem recipients_unregisterFd (fd : Int) :
    recipients (registry.unregisterFd env fd).2 = [] := by
  rcases unregisterFd_cases env fd registry with ⟨-, hsame⟩ | ⟨si, -, -, hafter⟩
  · rw [hsame]
    rfl
  · rw [hafter]
    rfl

theorem recipients_handleSendOne (fd : Int) (cmd : Command) :
    recipients (registry.handleSendOne env fd cmd).2 =
      ((registry.infos.lookup fd).map fun si ↦ (fd, si.userId)).toList := by
  unfold handleSendOne appendSend
  cases hinfo : registry.infos.lookup fd with
  | none => rfl
  | some si =>
    dsimp only
    split_ifs
    · rfl
    · rw [List.cons_append, recipients, List.filterMap_cons, List.filterMap_append, ← recipients,
        recipients_unregisterFd]
      rfl
    · rfl

/-- A loop that sends once to each of distinct connections appends once to each that is there. -/
theorem recipients_forEach_handleSendOne (cmd : Command) {fds : List Int} (hnodup : fds.Nodup)
    (hconsistent : registry.Consistent) :
    recipients (forEach (fun fd registry ↦ handleSendOne env fd cmd registry) fds registry).2 =
      fds.filterMap fun fd ↦ (registry.infos.lookup fd).map fun si ↦ (fd, si.userId) := by
  induction fds generalizing registry with
  | nil => rfl
  | cons fd rest ih =>
    rw [List.nodup_cons] at hnodup
    have hrest : ∀ other ∈ rest,
        (registry.handleSendOne env fd cmd).1.infos.lookup other =
          registry.infos.lookup other := by
      intro other hother
      have hne : other ≠ fd := fun hsame ↦ hnodup.1 (hsame ▸ hother)
      exact lookup_handleSendOne_of_ne hconsistent hne cmd
    rw [forEach]
    dsimp only
    rw [recipients_append, recipients_handleSendOne,
      ih hnodup.2 (hconsistent.handleSendOne fd cmd), List.filterMap_cons,
      List.filterMap_congr fun other hother ↦ by rw [hrest other hother]]
    cases registry.infos.lookup fd <;> rfl

/-- A room broadcast appends once to each connection filed under the room, with the user that
connection is logged in as. -/
theorem recipients_handleRoomBroadcast (hconsistent : registry.Consistent)
    (senderFd roomId : Int) (cmd : Command) :
    recipients (registry.handleRoomBroadcast env senderFd roomId cmd).2 =
      (env.order.visit (registry.roomOnlineFds.filed roomId)).filterMap fun fd ↦
        (registry.infos.lookup fd).map fun si ↦ (fd, si.userId) := by
  unfold handleRoomBroadcast
  cases hlookup : registry.roomOnlineFds.lookup roomId with
  | none =>
    rw [InvertedIndex.filed_of_lookup_none hlookup, env.order.visit_empty]
    rfl
  | some targets =>
    rw [InvertedIndex.filed_of_lookup hlookup]
    exact recipients_forEach_handleSendOne _ (env.order.nodup_visit targets) hconsistent

/-- A room broadcast appends to a connection exactly when it is filed under the room. -/
theorem mem_recipients_handleRoomBroadcast (hconsistent : registry.Consistent)
    {senderFd roomId : Int} {cmd : Command} {fd : Int} {userId : Bytes} :
    (fd, userId) ∈ recipients (registry.handleRoomBroadcast env senderFd roomId cmd).2 ↔
      ∃ joined, registry.view fd = some (userId, joined) ∧ roomId ∈ joined := by
  rw [recipients_handleRoomBroadcast hconsistent, List.mem_filterMap]
  constructor
  · rintro ⟨other, hvisit, hother⟩
    rw [env.order.mem_visit, hconsistent.mem_filed_rooms_iff] at hvisit
    obtain ⟨si, hinfo, hsame⟩ := Option.map_eq_some_iff.mp hother
    obtain ⟨rfl, rfl⟩ := Prod.mk.inj hsame
    obtain ⟨view, hview, hroom⟩ := hvisit
    refine ⟨view.2, ?_, hroom⟩
    rw [EpollRegistry.view, hinfo, Option.map_some] at hview
    rw [EpollRegistry.view, hinfo, Option.map_some, ← Option.some.inj hview]
  · rintro ⟨joined, hview, hroom⟩
    refine ⟨fd, ?_, ?_⟩
    · rw [env.order.mem_visit, hconsistent.mem_filed_rooms_iff]
      exact ⟨_, hview, hroom⟩
    · obtain ⟨si, hinfo, hsame⟩ := Option.map_eq_some_iff.mp hview
      rw [hinfo, Option.map_some, (Prod.mk.inj hsame).1]

/-- A room broadcast appends at most once to each descriptor. -/
theorem nodup_recipients_handleRoomBroadcast (hconsistent : registry.Consistent)
    (senderFd roomId : Int) (cmd : Command) :
    ((recipients (registry.handleRoomBroadcast env senderFd roomId cmd).2).map Prod.fst).Nodup := by
  rw [recipients_handleRoomBroadcast hconsistent, List.map_filterMap]
  refine List.Nodup.filterMap ?_ (env.order.nodup_visit _)
  intro first second target hfirst hsecond
  simp only [Option.map_map, Option.mem_def, Option.map_eq_some_iff, Function.comp_apply,
    exists_and_right] at hfirst hsecond
  rw [hfirst.2, hsecond.2]

end EpollRegistry

end ChatServer
