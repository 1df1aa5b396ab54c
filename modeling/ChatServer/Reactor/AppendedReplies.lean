import ChatServer.Database.ReplyTexts

/-!
# What the handlers append

Most handlers append nothing. `RegistryCommand.Writes` says what the others do: the reply of a
`send_one`, the lines of a friend list, and the payload of a broadcast, which has the nickname of
the sender in front (`writes_handleCommand`). The nicknames and users of the connections come from
the commands, so they have no delimiters if the commands have none (`Clean.handleCommand`).
Together, what is appended for a clean command is one token, and it is the text of a login only if
the command is to send just that (`reply_of_writes`).
-/

set_option autoImplicit false
set_option relaxedAutoImplicit false

namespace ChatServer

/-- What the handler of a command appends, and where. -/
def RegistryCommand.Writes (registry : EpollRegistry) (command : RegistryCommand) (fd : Int)
    (cmd : Command) : Prop :=
  match command with
  | .sendOne target reply => fd = target ∧ cmd = reply
  | .broadcast sender reply | .roomBroadcast sender _ reply =>
    cmd = registry.namedPayload sender reply
  | .sendFriendList target friendIds => fd = target ∧
    (cmd = .cmdResponse (text "friends: " ++ toText friendIds.length) ∨
      ∃ friendId ∈ friendIds, ∃ status, (status = text "online" ∨ status = text "offline") ∧
        cmd = .cmdResponse (text "friend: " ++ friendId ++ text " (" ++ status ++ text ")"))
  | _ => False

namespace EpollRegistry

/-- The nickname and the user of every connection have no delimiter. -/
def Clean (registry : EpollRegistry) : Prop :=
  ∀ fd si, registry.infos.lookup fd = some si → Undelimited si.nickname ∧ Undelimited si.userId

/-- What a handler appends; it gives no connection another nickname or user. -/
structure Appends (writes : Int → Command → Prop) (before after : EpollRegistry)
    (effects : List Effect) : Prop where
  clean : before.Clean → after.Clean
  writes : ∀ fd userId cmd, .appended fd userId cmd ∈ effects → writes fd cmd

variable {registry : EpollRegistry} {env : HandlerEnv} {writes : Int → Command → Prop}

/-! ### Names -/

theorem clean_empty : EpollRegistry.empty.Clean :=
  fun _ _ hinfo ↦ by cases hinfo

theorem Clean.insert (hclean : registry.Clean) {after : EpollRegistry} {fd : Int}
    {si : SocketInfo} (hinfos : after.infos = registry.infos.insert fd si)
    (hsi : Undelimited si.nickname ∧ Undelimited si.userId) : after.Clean := by
  intro other si' hother
  rw [hinfos] at hother
  rcases lookup_insert_eq_some.mp hother with ⟨-, rfl⟩ | ⟨-, hold⟩
  · exact hsi
  · exact hclean other si' hold

theorem Clean.unregisterFd (hclean : registry.Clean) (fd : Int) :
    (registry.unregisterFd env fd).1.Clean := by
  rcases unregisterFd_cases env fd registry with ⟨-, hsame⟩ | ⟨si, -, -, hafter⟩
  · rw [hsame]
    exact hclean
  · rw [hafter]
    exact fun other si' hother ↦ hclean other si' (lookup_erase_eq_some.mp hother).2

/-! ### Handlers that send -/

theorem Appends.refl (registry : EpollRegistry) : Appends writes registry registry [] :=
  ⟨id, fun _ _ _ happended ↦ absurd happended List.not_mem_nil⟩

theorem Appends.trans {before middle after : EpollRegistry} {first second : List Effect}
    (hfirst : Appends writes before middle first) (hsecond : Appends writes middle after second) :
    Appends writes before after (first ++ second) := by
  refine ⟨fun hclean ↦ hsecond.clean (hfirst.clean hclean), fun fd userId cmd happended ↦ ?_⟩
  rcases List.mem_append.mp happended with hmem | hmem
  · exact hfirst.writes fd userId cmd hmem
  · exact hsecond.writes fd userId cmd hmem

/-- An effect that is no append. -/
theorem Appends.emit (registry : EpollRegistry) {effect : Effect}
    (heffect : effect.recipient = none) : Appends writes registry registry [effect] := by
  refine ⟨id, fun fd userId cmd happended ↦ ?_⟩
  rw [← List.mem_singleton.mp happended] at heffect
  cases heffect

theorem Appends.unregisterFd (fd : Int) :
    Appends writes registry (registry.unregisterFd env fd).1 (registry.unregisterFd env fd).2 := by
  refine ⟨fun hclean ↦ hclean.unregisterFd fd, fun other userId cmd happended ↦ ?_⟩
  rcases unregisterFd_cases env fd registry with ⟨-, hsame⟩ | ⟨si, -, -, hafter⟩
  · rw [hsame] at happended
    cases happended
  · rw [hafter] at happended
    cases List.mem_singleton.mp happended

/-- The entry that `append_send` writes before it synchronizes the interest. -/
theorem Appends.append {fd : Int} {si si' : SocketInfo} {cmd : Command}
    (hwrites : writes fd cmd) (hinfo : registry.infos.lookup fd = some si)
    (hnickname : si'.nickname = si.nickname) (huser : si'.userId = si.userId) :
    Appends writes registry (registry.setInfo fd si') [.appended fd si.userId cmd] := by
  refine ⟨fun hclean ↦ hclean.insert rfl ?_, fun other userId reply happended ↦ ?_⟩
  · rw [hnickname, huser]
    exact hclean fd si hinfo
  · cases List.mem_singleton.mp happended
    exact hwrites

theorem Appends.appendSend {fd : Int} {cmd : Command} (hwrites : writes fd cmd)
    (registry : EpollRegistry) :
    Appends writes registry (registry.appendSend env fd cmd).1.1
      (registry.appendSend env fd cmd).1.2 := by
  unfold EpollRegistry.appendSend
  cases hinfo : registry.infos.lookup fd with
  | none => exact Appends.emit registry rfl
  | some si =>
    dsimp only
    split_ifs
    · exact Appends.append hwrites hinfo rfl rfl
    · refine Appends.trans (Appends.trans (Appends.append hwrites hinfo ?_ ?_)
        (Appends.unregisterFd si.ufd)) (Appends.emit _ rfl)
      all_goals rfl
    · exact Appends.append hwrites hinfo rfl rfl

/-- A handler that only sends appends what it sends. -/
theorem Appending.appends {after : EpollRegistry} {effects : List Effect}
    (happending : Appending env writes registry after effects) :
    Appends writes registry after effects := by
  induction happending with
  | refl registry => exact Appends.refl registry
  | dangling registry fd => exact Appends.emit registry rfl
  | append registry fd cmd hwrites => exact Appends.appendSend hwrites registry
  | trans before middle after first second _ _ ihfirst ihsecond => exact ihfirst.trans ihsecond

theorem appends_handleSendOne (fd : Int) (cmd : Command) :
    Appends (RegistryCommand.Writes registry (.sendOne fd cmd)) registry
      (registry.handleSendOne env fd cmd).1 (registry.handleSendOne env fd cmd).2 := by
  refine (appending_handleSendOne ?_ registry).appends
  exact ⟨rfl, rfl⟩

theorem appends_handleBroadcast (fd : Int) (cmd : Command) :
    Appends (RegistryCommand.Writes registry (.broadcast fd cmd)) registry
      (registry.handleBroadcast env fd cmd).1 (registry.handleBroadcast env fd cmd).2 := by
  refine (appending_handleBroadcast ?_).appends
  exact fun _ ↦ rfl

theorem appends_handleSendFriendList (fd : Int) (friendIds : List Bytes) :
    Appends (RegistryCommand.Writes registry (.sendFriendList fd friendIds)) registry
      (registry.handleSendFriendList env fd friendIds).1
      (registry.handleSendFriendList env fd friendIds).2 :=
  (appending_handleSendFriendList ⟨rfl, Or.inl rfl⟩ fun friendId hfriend status hstatus ↦
    ⟨rfl, Or.inr ⟨friendId, hfriend, status, hstatus, rfl⟩⟩).appends

theorem appends_handleRoomBroadcast (senderFd roomId : Int) (cmd : Command) :
    Appends (RegistryCommand.Writes registry (.roomBroadcast senderFd roomId cmd)) registry
      (registry.handleRoomBroadcast env senderFd roomId cmd).1
      (registry.handleRoomBroadcast env senderFd roomId cmd).2 := by
  refine (appending_handleRoomBroadcast ?_).appends
  exact fun _ ↦ rfl

/-! ### Handlers of joined rooms -/

theorem Appends.setJoinedRoomsOf (roomIds : List Int) (fd : Int) (registry : EpollRegistry) :
    Appends writes registry (registry.setJoinedRoomsOf env roomIds fd).1
      (registry.setJoinedRoomsOf env roomIds fd).2 := by
  unfold EpollRegistry.setJoinedRoomsOf
  cases hinfo : registry.infos.lookup fd with
  | none => exact Appends.refl registry
  | some si =>
    refine ⟨fun hclean ↦ hclean.insert rfl ?_, fun _ _ _ happended ↦ absurd happended ?_⟩
    · rw [setFdJoinedRooms_fst]
      exact hclean fd si hinfo
    · exact List.not_mem_nil

theorem Appends.handleSetJoinedRoomsForUser (userId : Bytes) (roomIds : List Int) :
    Appends writes registry (registry.handleSetJoinedRoomsForUser env userId roomIds).1
      (registry.handleSetJoinedRoomsForUser env userId roomIds).2 := by
  unfold EpollRegistry.handleSetJoinedRoomsForUser
  cases registry.userOnlineFds.lookup userId with
  | none => exact Appends.refl registry
  | some fds =>
    exact forEach_rel Appends.refl (fun _ _ _ _ _ ↦ Appends.trans)
      (fun fd registry ↦ Appends.setJoinedRoomsOf roomIds fd registry) _ _

/-! ### Every command -/

/-- A handler appends what its command says and nothing else. -/
theorem writes_handleCommand {command : RegistryCommand} {fd : Int} {userId : Bytes}
    {cmd : Command}
    (happended : .appended fd userId cmd ∈ (registry.handleCommand env command).2) :
    command.Writes registry fd cmd := by
  cases command with
  | register target interest =>
    change _ ∈ (registry.registerFd env target interest).2 at happended
    unfold registerFd at happended
    split_ifs at happended
    · cases happended
    · cases List.mem_singleton.mp happended
    · split at happended <;> simp at happended
  | unregister target => exact (Appends.unregisterFd target).writes fd userId cmd happended
  | sendOne target reply =>
    exact (appends_handleSendOne target reply).writes fd userId cmd happended
  | broadcast sender reply =>
    exact (appends_handleBroadcast sender reply).writes fd userId cmd happended
  | changeNickname target nick =>
    change _ ∈ (registry.handleChangeNickname target nick).2 at happended
    unfold handleChangeNickname at happended
    split at happended <;> cases happended
  | setUserId target user =>
    change _ ∈ (registry.handleSetUserId env target user).2 at happended
    unfold handleSetUserId at happended
    split at happended <;> cases happended
  | setJoinedRooms target roomIds =>
    exact (Appends.setJoinedRoomsOf roomIds target registry).writes fd userId cmd happended
  | setJoinedRoomsForUser user roomIds =>
    exact (Appends.handleSetJoinedRoomsForUser user roomIds).writes fd userId cmd happended
  | sendFriendList target friendIds =>
    exact (appends_handleSendFriendList target friendIds).writes fd userId cmd happended
  | roomBroadcast sender roomId reply =>
    exact (appends_handleRoomBroadcast sender roomId reply).writes fd userId cmd happended

/-- The names of the connections stay clean when the command has clean ones. -/
theorem Clean.handleCommand (hclean : registry.Clean) (env : HandlerEnv)
    {command : RegistryCommand} {kind : Bytes → Prop} (hcommand : command.Carries kind) :
    (registry.handleCommand env command).1.Clean := by
  cases command with
  | register target interest =>
    change (registry.registerFd env target interest).1.Clean
    have hguest : Undelimited (text "guest") := by decide
    unfold registerFd
    split_ifs
    · exact hclean
    · exact hclean
    · split
      all_goals first | exact hclean | exact hclean.insert rfl ⟨hguest, undelimited_nil⟩
  | unregister target => exact hclean.unregisterFd target
  | sendOne target reply => exact (appends_handleSendOne target reply).clean hclean
  | broadcast sender reply => exact (appends_handleBroadcast sender reply).clean hclean
  | changeNickname target nick =>
    change (registry.handleChangeNickname target nick).1.Clean
    unfold handleChangeNickname
    cases hinfo : registry.infos.lookup target with
    | none => exact hclean
    | some si => exact hclean.insert rfl ⟨hcommand, (hclean target si hinfo).2⟩
  | setUserId target user =>
    change (registry.handleSetUserId env target user).1.Clean
    unfold handleSetUserId
    cases hinfo : registry.infos.lookup target with
    | none => exact hclean
    | some si =>
      refine hclean.insert rfl ⟨?_, hcommand⟩
      rw [setFdJoinedRooms_fst]
      exact (hclean target si hinfo).1
  | setJoinedRooms target roomIds =>
    exact (@Appends.setJoinedRoomsOf env (fun _ _ ↦ True) roomIds target registry).clean hclean
  | setJoinedRoomsForUser user roomIds =>
    exact (@Appends.handleSetJoinedRoomsForUser registry env (fun _ _ ↦ True) user roomIds).clean
      hclean
  | sendFriendList target friendIds =>
    exact (appends_handleSendFriendList target friendIds).clean hclean
  | roomBroadcast sender roomId reply =>
    exact (appends_handleRoomBroadcast sender roomId reply).clean hclean

/-- The payload of a broadcast is a plain reply. -/
theorem isPlainReply_namedPayload (hclean : registry.Clean) {message : Bytes}
    (hmessage : Undelimited message) (sender : Int) :
    ∃ payload, registry.namedPayload sender (.cmdResponse message) = .cmdResponse payload ∧
      IsPlainReply payload := by
  have hguest : Undelimited (text "guest") := by decide
  refine ⟨_, rfl, (isLabel_named ?_ hmessage).isPlainReply⟩
  cases hinfo : registry.infos.lookup sender with
  | none => exact hguest
  | some si =>
    dsimp only
    split_ifs
    · exact hguest
    · exact (hclean sender si hinfo).1

/-- What is appended for a clean command is a response with one token, and a text of a login only if
the command is to send it. -/
theorem reply_of_writes (hclean : registry.Clean) {command : RegistryCommand}
    (hcommand : command.Carries IsToken) {fd : Int} {cmd : Command}
    (hwrites : command.Writes registry fd cmd) :
    ∃ message, cmd = .cmdResponse message ∧ IsToken message ∧
      (IsLoginText message → command = .sendOne fd cmd) := by
  have hplain : ∀ message, cmd = .cmdResponse message → IsPlainReply message →
      ∃ message, cmd = .cmdResponse message ∧ IsToken message ∧
        (IsLoginText message → command = .sendOne fd cmd) :=
    fun message hcmd hreply ↦ ⟨message, hcmd, hreply.toIsToken,
      fun hlogin ↦ absurd hlogin hreply.notLogin⟩
  cases command with
  | sendOne target reply =>
    obtain ⟨rfl, rfl⟩ := hwrites
    obtain ⟨message, hcmd, hmessage⟩ := hcommand
    exact ⟨message, hcmd, hmessage, fun _ ↦ rfl⟩
  | broadcast sender reply =>
    obtain ⟨message, rfl, hmessage⟩ := hcommand
    obtain ⟨payload, hpayload, hreply⟩ := isPlainReply_namedPayload hclean hmessage sender
    exact hplain payload (Eq.trans hwrites hpayload) hreply
  | roomBroadcast sender roomId reply =>
    obtain ⟨message, rfl, hmessage⟩ := hcommand
    obtain ⟨payload, hpayload, hreply⟩ := isPlainReply_namedPayload hclean hmessage sender
    exact hplain payload (Eq.trans hwrites hpayload) hreply
  | sendFriendList target friendIds =>
    obtain ⟨-, hheader | ⟨friendId, hfriend, status, hstatus, hline⟩⟩ := hwrites
    · have hlabel : IsLabel (text "friends: ") := by decide
      exact hplain _ hheader (isLabel_number hlabel _).isPlainReply
    · have hlabel : IsLabel (text "friend: ") := by decide
      have hopen : Undelimited (text " (") := by decide
      have hclose : Undelimited (text ")") := by decide
      have honline : Undelimited status := by
        rcases hstatus with rfl | rfl <;> decide
      have hfront := ((hlabel.append (hcommand friendId hfriend)).append hopen).append honline
      exact hplain _ hline (hfront.append hclose).isPlainReply
  | _ => exact hwrites.elim

end EpollRegistry

end ChatServer
