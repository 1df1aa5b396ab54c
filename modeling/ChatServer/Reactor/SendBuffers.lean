import ChatServer.Reactor.RegistryEffects

/-!
# What the handlers do to the send buffers

Among the handlers only `append_send` writes to a send buffer, and it writes behind what is there.
`Grows` is this for a handler as a whole: the connections that remain have what the effects name for
them at the end of their send buffers, in this order, and their TLS sessions are untouched.
`grows_handleCommand` says it of every command. A registration adds a connection that has nothing to
send; that is the field `fresh`.
-/

set_option autoImplicit false
set_option relaxedAutoImplicit false

namespace ChatServer

/-- The command that an effect appends to a descriptor. -/
def Effect.appendedTo (fd : Int) : Effect → Option Command
  | .appended target _ cmd => if target = fd then some cmd else none
  | _ => none

/-- The commands that effects append to a descriptor, in order. -/
def appendedTo (fd : Int) (effects : List Effect) : List Command :=
  effects.filterMap (Effect.appendedTo fd)

theorem appendedTo_append (fd : Int) (first second : List Effect) :
    appendedTo fd (first ++ second) = appendedTo fd first ++ appendedTo fd second :=
  List.filterMap_append

theorem appendedTo_of_quiet (fd : Int) {effects : List Effect}
    (hquiet : ∀ effect ∈ effects, effect.recipient = none) : appendedTo fd effects = [] := by
  refine List.filterMap_eq_nil_iff.mpr fun effect heffect ↦ ?_
  have hnone := hquiet effect heffect
  cases effect with
  | appended target userId cmd => cases hnone
  | _ => rfl

namespace EpollRegistry

/-- The send buffers grow by what the effects append; a connection that was not there before has
nothing to send, and its TLS session is new. -/
structure Grows (before after : EpollRegistry) (effects : List Effect) : Prop where
  kept : ∀ fd si si', before.infos.lookup fd = some si → after.infos.lookup fd = some si' →
    si'.send = si.send.append ((appendedTo fd effects).flatMap encode) ∧ si'.tls = si.tls
  fresh : ∀ fd si', before.infos.lookup fd = none → after.infos.lookup fd = some si' →
    si'.send = .empty ∧ si'.tls = {}
  present : ∀ fd, before.infos.lookup fd = none → appendedTo fd effects = []

/-- A handler in which no connection enters. -/
structure Extends (before after : EpollRegistry) (effects : List Effect) : Prop
    extends Grows before after effects where
  closed : ∀ fd, before.infos.lookup fd = none → after.infos.lookup fd = none

variable {registry : EpollRegistry} {env : HandlerEnv}

/-! ### One step after another -/

theorem Extends.refl (registry : EpollRegistry) : Extends registry registry [] where
  kept fd si si' hbefore hafter := by
    rw [hbefore, Option.some.injEq] at hafter
    rw [← hafter]
    exact ⟨si.send.append_nil.symm, rfl⟩
  fresh fd si' hbefore hafter := by
    rw [hbefore] at hafter
    cases hafter
  present _ _ := rfl
  closed _ hbefore := hbefore

theorem Extends.trans {before middle after : EpollRegistry} {first second : List Effect}
    (hfirst : Extends before middle first) (hsecond : Extends middle after second) :
    Extends before after (first ++ second) where
  kept fd si si'' hbefore hafter := by
    cases hmiddle : middle.infos.lookup fd with
    | none =>
      rw [hsecond.closed fd hmiddle] at hafter
      cases hafter
    | some si' =>
      obtain ⟨hsend, htls⟩ := hfirst.kept fd si si' hbefore hmiddle
      obtain ⟨hsend', htls'⟩ := hsecond.kept fd si' si'' hmiddle hafter
      refine ⟨?_, htls'.trans htls⟩
      rw [hsend', hsend, OffsetBuffer.append_append, appendedTo_append, List.flatMap_append]
  fresh fd si'' hbefore hafter := by
    rw [hsecond.closed fd (hfirst.closed fd hbefore)] at hafter
    cases hafter
  present fd hbefore := by
    rw [appendedTo_append, hfirst.present fd hbefore,
      hsecond.present fd (hfirst.closed fd hbefore), List.nil_append]
  closed fd hbefore := hsecond.closed fd (hfirst.closed fd hbefore)

/-- An effect that is no append. -/
theorem Extends.emit (registry : EpollRegistry) {effect : Effect}
    (heffect : effect.recipient = none) : Extends registry registry [effect] := by
  have hquiet := fun fd ↦ appendedTo_of_quiet fd fun other hother ↦
    List.mem_singleton.mp hother ▸ heffect
  refine ⟨⟨fun fd si si' hbefore hafter ↦ ?_, (Extends.refl registry).fresh, fun fd _ ↦ hquiet fd⟩,
    fun _ hbefore ↦ hbefore⟩
  rw [hquiet]
  exact (Extends.refl registry).kept fd si si' hbefore hafter

theorem Extends.unregisterFd (fd : Int) (registry : EpollRegistry) :
    Extends registry (registry.unregisterFd env fd).1 (registry.unregisterFd env fd).2 := by
  rcases unregisterFd_cases env fd registry with ⟨-, hsame⟩ | ⟨si, -, -, hafter⟩
  · rw [hsame]
    exact Extends.refl registry
  · rw [hafter]
    have hquiet : ∀ other, appendedTo other [.closed si.ufd] = [] := fun _ ↦ rfl
    refine ⟨⟨fun other si si' hbefore hother ↦ ?_, fun other si' hbefore hother ↦ ?_,
      fun other _ ↦ hquiet other⟩, fun other hbefore ↦ ?_⟩
    · rw [hquiet]
      exact (Extends.refl registry).kept other si si' hbefore (lookup_erase_eq_some.mp hother).2
    · rw [(lookup_erase_eq_some.mp hother).2] at hbefore
      cases hbefore
    · by_contra hother
      obtain ⟨si', hother⟩ := Option.ne_none_iff_exists'.mp hother
      rw [(lookup_erase_eq_some.mp hother).2] at hbefore
      cases hbefore

/-- An entry is written, with these commands at the end of its send buffer. -/
theorem Extends.insert {after : EpollRegistry} {fd : Int} {si si' : SocketInfo}
    {effects : List Effect} (hinfo : registry.infos.lookup fd = some si)
    (hinfos : after.infos = registry.infos.insert fd si')
    (hsend : si'.send = si.send.append ((appendedTo fd effects).flatMap encode))
    (htls : si'.tls = si.tls) (hother : ∀ other, other ≠ fd → appendedTo other effects = []) :
    Extends registry after effects := by
  refine ⟨⟨fun other si₁ si₂ hbefore hafter ↦ ?_, fun other si₂ hbefore hafter ↦ ?_,
    fun other hbefore ↦ ?_⟩, fun other hbefore ↦ ?_⟩
  · rw [hinfos] at hafter
    rcases lookup_insert_eq_some.mp hafter with ⟨rfl, rfl⟩ | ⟨hne, hsame⟩
    · rw [hinfo, Option.some.injEq] at hbefore
      rw [← hbefore]
      exact ⟨hsend, htls⟩
    · rw [hother other hne]
      exact (Extends.refl registry).kept other si₁ si₂ hbefore hsame
  · rw [hinfos] at hafter
    rcases lookup_insert_eq_some.mp hafter with ⟨rfl, -⟩ | ⟨-, hsame⟩
    · rw [hinfo] at hbefore
      cases hbefore
    · rw [hsame] at hbefore
      cases hbefore
  · refine hother other ?_
    rintro rfl
    rw [hinfo] at hbefore
    cases hbefore
  · have hne : other ≠ fd := by
      rintro rfl
      rw [hinfo] at hbefore
      cases hbefore
    rw [hinfos, Finmap.lookup_insert_of_ne _ hne]
    exact hbefore

/-- An entry is written that has the same send buffer and the same TLS session. -/
theorem Extends.rewrite {after : EpollRegistry} {fd : Int} {si si' : SocketInfo}
    (hinfo : registry.infos.lookup fd = some si)
    (hinfos : after.infos = registry.infos.insert fd si') (hsend : si'.send = si.send)
    (htls : si'.tls = si.tls) : Extends registry after [] :=
  Extends.insert hinfo hinfos (hsend.trans si.send.append_nil.symm) htls fun _ _ ↦ rfl

/-! ### Handlers -/

theorem Extends.appendSend (fd : Int) (cmd : Command) (registry : EpollRegistry) :
    Extends registry (registry.appendSend env fd cmd).1.1
      (registry.appendSend env fd cmd).1.2 := by
  unfold EpollRegistry.appendSend
  cases hinfo : registry.infos.lookup fd with
  | none => exact Extends.emit registry rfl
  | some si =>
    have happended : ∀ si' : SocketInfo, si'.send = si.send.append (encode cmd) →
        si'.tls = si.tls →
        Extends registry (registry.setInfo fd si') [.appended fd si.userId cmd] := by
      intro si' hsend htls
      refine Extends.insert hinfo rfl ?_ htls fun other hne ↦ ?_
      · simpa [appendedTo, Effect.appendedTo] using hsend
      · simpa [appendedTo, Effect.appendedTo] using hne.symm
    dsimp only
    split_ifs
    · exact happended _ rfl rfl
    · refine Extends.trans (Extends.trans (happended _ ?_ ?_) (Extends.unregisterFd si.ufd _))
        (Extends.emit _ ?_)
      all_goals rfl
    · exact happended _ rfl rfl

/-- A handler that only sends. -/
theorem Appending.extends {sent : Int → Command → Prop} {after : EpollRegistry}
    {effects : List Effect} (happending : Appending env sent registry after effects) :
    Extends registry after effects := by
  induction happending with
  | refl registry => exact Extends.refl registry
  | dangling registry fd => exact Extends.emit registry rfl
  | append registry fd cmd hsent => exact Extends.appendSend fd cmd registry
  | trans before middle after first second _ _ ihfirst ihsecond => exact ihfirst.trans ihsecond

theorem Extends.setJoinedRoomsOf (roomIds : List Int) (fd : Int) (registry : EpollRegistry) :
    Extends registry (registry.setJoinedRoomsOf env roomIds fd).1
      (registry.setJoinedRoomsOf env roomIds fd).2 := by
  unfold EpollRegistry.setJoinedRoomsOf
  cases hinfo : registry.infos.lookup fd with
  | none => exact Extends.refl registry
  | some si =>
    have hfirst := setFdJoinedRooms_fst env.order si roomIds registry.roomOnlineFds
    refine Extends.rewrite hinfo rfl ?_ ?_ <;> rw [hfirst]

theorem Extends.handleSetJoinedRoomsForUser (userId : Bytes) (roomIds : List Int)
    (registry : EpollRegistry) :
    Extends registry (registry.handleSetJoinedRoomsForUser env userId roomIds).1
      (registry.handleSetJoinedRoomsForUser env userId roomIds).2 := by
  unfold EpollRegistry.handleSetJoinedRoomsForUser
  cases registry.userOnlineFds.lookup userId with
  | none => exact Extends.refl registry
  | some fds =>
    exact forEach_rel Extends.refl (fun _ _ _ _ _ ↦ Extends.trans)
      (fun fd registry ↦ Extends.setJoinedRoomsOf roomIds fd registry) _ _

theorem Extends.handleSetUserId (fd : Int) (userId : Bytes) (registry : EpollRegistry) :
    Extends registry (registry.handleSetUserId env fd userId).1
      (registry.handleSetUserId env fd userId).2 := by
  unfold EpollRegistry.handleSetUserId
  cases hinfo : registry.infos.lookup fd with
  | none => exact Extends.refl registry
  | some si =>
    have hfirst := setFdJoinedRooms_fst env.order si [] registry.roomOnlineFds
    refine Extends.rewrite hinfo rfl ?_ ?_ <;> rw [hfirst]

theorem Extends.handleChangeNickname (fd : Int) (nick : Bytes) (registry : EpollRegistry) :
    Extends registry (registry.handleChangeNickname fd nick).1
      (registry.handleChangeNickname fd nick).2 := by
  unfold EpollRegistry.handleChangeNickname
  cases hinfo : registry.infos.lookup fd with
  | none => exact Extends.refl registry
  | some si => exact Extends.rewrite hinfo rfl rfl rfl

/-- Every command but a registration. -/
theorem extends_handleCommand (env : HandlerEnv) {command : RegistryCommand}
    (hcommand : ∀ fd interest, command ≠ .register fd interest) (registry : EpollRegistry) :
    Extends registry (registry.handleCommand env command).1
      (registry.handleCommand env command).2 := by
  cases command with
  | register fd interest => exact absurd rfl (hcommand fd interest)
  | unregister fd => exact Extends.unregisterFd fd registry
  | sendOne fd cmd =>
    exact (@appending_handleSendOne env (fun _ _ ↦ True) fd cmd trivial registry).extends
  | broadcast fd cmd =>
    exact (@appending_handleBroadcast registry env (fun _ _ ↦ True) fd cmd fun _ ↦ trivial).extends
  | changeNickname fd nick => exact Extends.handleChangeNickname fd nick registry
  | setUserId fd userId => exact Extends.handleSetUserId fd userId registry
  | setJoinedRooms fd roomIds => exact Extends.setJoinedRoomsOf roomIds fd registry
  | setJoinedRoomsForUser userId roomIds =>
    exact Extends.handleSetJoinedRoomsForUser userId roomIds registry
  | sendFriendList fd friendIds =>
    exact (@appending_handleSendFriendList registry env (fun _ _ ↦ True) fd friendIds trivial
      fun _ _ _ _ ↦ trivial).extends
  | roomBroadcast senderFd roomId cmd =>
    exact (@appending_handleRoomBroadcast registry env (fun _ _ ↦ True) senderFd roomId cmd
      fun _ ↦ trivial).extends

theorem Grows.registerFd (fd : Int) (interest : UInt32) (registry : EpollRegistry) :
    Grows registry (registry.registerFd env fd interest).1
      (registry.registerFd env fd interest).2 := by
  by_cases hfd : fd = -1
  · rw [EpollRegistry.registerFd, if_pos hfd]
    exact (Extends.refl registry).toGrows
  by_cases hmem : fd ∈ registry.infos
  · rw [EpollRegistry.registerFd, if_neg hfd, if_pos hmem]
    exact (Extends.emit registry rfl).toGrows
  have hnone : registry.infos.lookup fd = none := Finmap.lookup_eq_none.mpr hmem
  rcases @registerFd_of_notMem registry env fd hfd hmem interest with
    ⟨hinfos, heffects⟩ | ⟨hsame, heffects⟩
  · rw [heffects]
    refine ⟨fun other si si' hbefore hafter ↦ ?_, fun other si' hbefore hafter ↦ ?_,
      fun other _ ↦ rfl⟩
    · rw [hinfos] at hafter
      rcases lookup_insert_eq_some.mp hafter with ⟨rfl, -⟩ | ⟨-, hold⟩
      · rw [hnone] at hbefore
        cases hbefore
      · exact (Extends.refl registry).kept other si si' hbefore hold
    · rw [hinfos] at hafter
      rcases lookup_insert_eq_some.mp hafter with ⟨-, rfl⟩ | ⟨-, hold⟩
      · exact ⟨rfl, rfl⟩
      · rw [hold] at hbefore
        cases hbefore
  · rw [hsame]
    rcases heffects with heffects | heffects
    · rw [heffects]
      exact (Extends.emit registry rfl).toGrows
    · rw [heffects]
      exact ((Extends.emit registry rfl).trans (Extends.emit registry rfl)).toGrows

/-- Every command. -/
theorem grows_handleCommand (env : HandlerEnv) (command : RegistryCommand)
    (registry : EpollRegistry) :
    Grows registry (registry.handleCommand env command).1
      (registry.handleCommand env command).2 := by
  cases command with
  | register fd interest => exact Grows.registerFd fd interest registry
  | _ => exact (extends_handleCommand env (fun _ _ hregister ↦ by cases hregister) registry).toGrows

end EpollRegistry

end ChatServer
