import ChatServer.Reactor.AppendedReplies
import ChatServer.Reactor.RoomBroadcast
import ChatServer.Reactor.SendBuffers
import ChatServer.Server.Addressing

/-!
# What a reply is sent as

The worker and the callbacks of the event loop answer a connection with two kinds of commands: to
send one response, or to send a list of friends. The handler of the second appends a header and a
line for each friend, in their order, and a failing `epoll_ctl` in between leaves the rest out; but
then the connection is gone. A connection that is still there after the handling of a reply has got
all of it (`expands_handleCommand`), and no other connection has got anything
(`appendedTo_reply_other`).
-/

set_option autoImplicit false
set_option relaxedAutoImplicit false

namespace ChatServer

namespace RegistryCommand

/-- A command that answers the connection it is directed at. -/
def isReply : RegistryCommand → Bool
  | .sendOne .. | .sendFriendList .. => true
  | _ => false

/-- A command by which a task answers its connection: with a reply, or with the broadcast of the
message that was sent. -/
def isAnswer : RegistryCommand → Bool
  | .roomBroadcast .. => true
  | command => command.isReply

/-- The line of a friend in a list of friends. -/
def FriendLine (friendId : Bytes) (cmd : Command) : Prop :=
  ∃ status, (status = text "online" ∨ status = text "offline") ∧
    cmd = .cmdResponse (text "friend: " ++ friendId ++ text " (" ++ status ++ text ")")

/-- What a reply is sent as. -/
inductive Expands : RegistryCommand → List Command → Prop
  | one (fd : Int) (cmd : Command) : Expands (.sendOne fd cmd) [cmd]
  | friends (fd : Int) (friendIds : List Bytes) (lines : List Command)
      (hlines : List.Forall₂ FriendLine friendIds lines) :
      Expands (.sendFriendList fd friendIds)
        (.cmdResponse (text "friends: " ++ toText friendIds.length) :: lines)

end RegistryCommand

namespace EpollRegistry

variable {registry : EpollRegistry} {env : HandlerEnv}

/-- `append_send` to a connection appends the command, whether it succeeds or not. -/
theorem appendedTo_appendSend {fd : Int} (hfd : fd ∈ registry.infos) (cmd : Command) :
    appendedTo fd (registry.appendSend env fd cmd).1.2 = [cmd] := by
  obtain ⟨si, hinfo⟩ := Finmap.mem_iff.mp hfd
  have hsent : appendedTo fd [.appended fd si.userId cmd] = [cmd] := by
    simp [appendedTo, Effect.appendedTo]
  unfold EpollRegistry.appendSend
  rw [hinfo]
  dsimp only
  split_ifs
  · exact hsent
  · rw [← List.singleton_append, List.append_assoc, appendedTo_append, hsent, appendedTo_append,
      appendedTo_of_quiet, appendedTo_of_quiet]
    · rfl
    · intro effect heffect
      rw [List.mem_singleton.mp heffect]
      rfl
    · intro effect heffect
      rcases unregisterFd_cases env si.ufd (registry.setInfo fd _) with
        ⟨-, hsame⟩ | ⟨_, -, -, hafter⟩
      · rw [hsame] at heffect
        cases heffect
      · rw [hafter] at heffect
        rw [List.mem_singleton.mp heffect]
        rfl
  · exact hsent

/-- After a failed `append_send` the connection is gone. -/
theorem notMem_of_appendSend (hconsistent : registry.Consistent) {fd : Int} {cmd : Command}
    (hfailed : (registry.appendSend env fd cmd).2 = false) :
    fd ∉ (registry.appendSend env fd cmd).1.1.infos := by
  unfold EpollRegistry.appendSend at hfailed ⊢
  cases hinfo : registry.infos.lookup fd with
  | none => exact Finmap.lookup_eq_none.mp hinfo
  | some si =>
    obtain ⟨rfl, -⟩ := hconsistent.ufd fd si hinfo
    rw [hinfo] at hfailed
    dsimp only at hfailed ⊢
    split_ifs at hfailed ⊢
    refine Finmap.lookup_eq_none.mp (lookup_unregisterFd_self ?_ si.ufd)
    exact hconsistent.setInfo hinfo rfl rfl rfl

/-- The lines of a list of friends, when the connection is still there after the last. -/
theorem forall₂_friendLines {fd : Int} (friendIds : List Bytes) {registry : EpollRegistry}
    {line : Bytes → EpollRegistry → Command}
    (hline : ∀ friendId registry, RegistryCommand.FriendLine friendId (line friendId registry))
    (hfd : fd ∈ (forEach (fun friendId registry ↦
      (registry.appendSend env fd (line friendId registry)).1) friendIds registry).1.infos) :
    List.Forall₂ RegistryCommand.FriendLine friendIds
      (appendedTo fd (forEach (fun friendId registry ↦
        (registry.appendSend env fd (line friendId registry)).1) friendIds registry).2) := by
  induction friendIds generalizing registry with
  | nil => exact .nil
  | cons friendId rest ih =>
    rw [forEach] at hfd ⊢
    dsimp only at hfd ⊢
    have hmem : fd ∈ registry.infos := by
      by_contra hgone
      have hnone := Finmap.lookup_eq_none.mpr hgone
      have hclosed : (forEach (fun friendId registry ↦
          (registry.appendSend env fd (line friendId registry)).1) (friendId :: rest)
            registry).1.infos.lookup fd = none := by
        refine (forEach_rel Extends.refl (fun _ _ _ _ _ ↦ Extends.trans) (fun friendId registry ↦
          ?_) (friendId :: rest) registry).closed fd hnone
        exact Extends.appendSend fd (line friendId registry) registry
      exact Finmap.lookup_eq_none.mp hclosed hfd
    rw [appendedTo_append, appendedTo_appendSend hmem]
    exact .cons (hline friendId registry) (ih hfd)

/-- A connection that is still there after the handling of a reply directed at it has got all of the
reply. -/
theorem expands_handleCommand (hconsistent : registry.Consistent) {command : RegistryCommand}
    (hreply : command.isReply = true) {fd : Int} (htarget : command.target = some fd)
    (hfd : fd ∈ (registry.handleCommand env command).1.infos) :
    command.Expands (appendedTo fd (registry.handleCommand env command).2) := by
  have hmem : fd ∈ registry.infos := by
    by_contra hgone
    refine Finmap.lookup_eq_none.mp ((extends_handleCommand env ?_ registry).closed fd
      (Finmap.lookup_eq_none.mpr hgone)) hfd
    rintro target interest rfl
    cases hreply
  obtain ⟨si, hinfo⟩ := Finmap.mem_iff.mp hmem
  cases command with
  | sendOne target cmd =>
    obtain rfl : target = fd := Option.some.inj htarget
    change RegistryCommand.Expands _ (appendedTo target (registry.handleSendOne env target cmd).2)
    unfold handleSendOne
    rw [hinfo]
    dsimp only
    rw [appendedTo_appendSend hmem]
    exact .one target cmd
  | sendFriendList target friendIds =>
    obtain rfl : target = fd := Option.some.inj htarget
    change target ∈ (registry.handleSendFriendList env target friendIds).1.infos at hfd
    change RegistryCommand.Expands _
      (appendedTo target (registry.handleSendFriendList env target friendIds).2)
    unfold handleSendFriendList at hfd ⊢
    rw [hinfo] at hfd ⊢
    dsimp only at hfd ⊢
    by_cases hheader : (registry.appendSend env target
        (.cmdResponse (text "friends: " ++ toText friendIds.length))).2 = true
    · rw [if_neg (not_not.mpr hheader)] at hfd ⊢
      dsimp only at hfd ⊢
      rw [appendedTo_append, appendedTo_appendSend hmem]
      refine .friends target friendIds _ (forall₂_friendLines friendIds (fun friendId registry ↦
        ?_) hfd)
      refine ⟨_, ?_, rfl⟩
      split_ifs
      · exact Or.inl rfl
      · exact Or.inr rfl
    · rw [if_pos hheader] at hfd
      exact absurd hfd (notMem_of_appendSend hconsistent (Bool.not_eq_true _ ▸ hheader))
  | _ => cases hreply

/-- A reply appends nothing to the other connections. -/
theorem appendedTo_reply_other {command : RegistryCommand} (hreply : command.isReply = true)
    {fd : Int} (htarget : command.target ≠ some fd) :
    appendedTo fd (registry.handleCommand env command).2 = [] := by
  refine List.filterMap_eq_nil_iff.mpr fun effect heffect ↦ ?_
  cases effect with
  | appended other userId cmd =>
    refine if_neg ?_
    rintro rfl
    have hwrites := writes_handleCommand heffect
    cases command with
    | sendOne target reply => exact htarget (congrArg some hwrites.1.symm)
    | sendFriendList target friendIds => exact htarget (congrArg some hwrites.1.symm)
    | _ => cases hreply
  | _ => rfl

end EpollRegistry

end ChatServer
