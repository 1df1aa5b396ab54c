import ChatServer.General.QueuedActions
import ChatServer.Server.Addressing
import ChatServer.Server.BroadcastOrder

/-!
# The view a connection is going to have

Who a connection is logged in as and which rooms it is filed under changes only when the event loop
handles a command, but the commands under way already say what the changes will be. `settled` is the
view that the connection at a descriptor has once they are handled, and `Permitted` says that every
broadcast under way finds the connection with a user who was a member at the commit, if it finds it
in the room.

Between two tasks of the worker the settled views hardly change: connections come, without a user,
and go (`frames_of_step`). A task appends its commands, so it changes a settled view as these
commands say (`settled_taken`). Invariants that tie the views to the database are stated on the
settled views, and only their step for tasks depends on what the invariant says.
-/

set_option autoImplicit false
set_option relaxedAutoImplicit false

namespace ChatServer

/-! ### Commands and views -/

namespace RegistryCommand

theorem act_none {command : RegistryCommand} {fd : Int} (hcommand : command.registers ≠ some fd) :
    command.act fd none = none := by
  by_contra hact
  obtain ⟨after, hafter⟩ := Option.ne_none_iff_exists'.mp hact
  obtain ⟨⟨interest, hregister⟩, -⟩ := act_none_eq_some hafter
  rw [hregister] at hcommand
  exact hcommand rfl

/-- A command of the worker that is directed elsewhere leaves a connection without a user as it
is. -/
theorem act_without_user {command : RegistryCommand} {fd other : Int} (hby : command.ByWorker other)
    (htarget : command.target ≠ some fd) (joined : Finset Int) :
    command.act fd (some ([], joined)) = some ([], joined) := by
  have hne : ∀ target, command.target = some target → target ≠ fd := by
    rintro target hcommand rfl
    exact htarget hcommand
  cases command with
  | register target interest => exact hby.elim
  | unregister target => exact if_neg (hne target rfl)
  | setUserId target userId => exact if_neg (hne target rfl)
  | setJoinedRooms target roomIds => exact if_neg (hne target rfl)
  | setJoinedRoomsForUser userId roomIds =>
    rw [act_setJoinedRoomsForUser, Option.map_some, if_neg]
    rintro ⟨huser, rfl⟩
    exact huser rfl
  | _ => rfl

end RegistryCommand

/-- What commands in a row are meant to do to the view of the connection at `fd`. -/
def viewAfter (fd : Int) (commands : List RegistryCommand) (view : Option View) : Option View :=
  commands.foldl (fun view command ↦ command.act fd view) view

/-- A command finds a connection in the room of the message it reports only with a user who was a
member at the commit. -/
def Queued.Permits (queued : Queued) (view : Option View) : Prop :=
  ∀ message, queued.message = some message → ∀ userId joined, view = some (userId, joined) →
    message.row.roomId ∈ joined → userId ≠ [] ∧ userId ∈ message.members

theorem Queued.permits_of_quiet {queued : Queued} (hquiet : queued.message = none)
    (view : Option View) : queued.Permits view := by
  intro message hmessage
  rw [hquiet] at hmessage
  cases hmessage

theorem Queued.permits_none (queued : Queued) : queued.Permits none := by
  intro message _ userId joined hview
  cases hview

theorem Queued.permits_without_rooms (queued : Queued) (userId : Bytes) :
    queued.Permits (some (userId, ∅)) := by
  intro message _ other joined hview hroom
  obtain ⟨-, rfl⟩ := Prod.mk.inj (Option.some.inj hview)
  exact absurd hroom (Finset.notMem_empty _)

/-- The commands under way as actions on the view of the connection at a descriptor. -/
def viewActions (fd : Int) : QueuedActions Queued (Option View) where
  act queued view := queued.command.act fd view
  needs := Queued.Permits

theorem viewActions_act (fd : Int) (queued : Queued) (view : Option View) :
    (viewActions fd).act queued view = queued.command.act fd view :=
  rfl

/-- Nothing happens at a descriptor that has no connection and is not registered. -/
theorem settle_none {fd : Int} {queue : List Queued}
    (hqueue : ∀ queued ∈ queue, queued.command.registers ≠ some fd) :
    (viewActions fd).settle queue none = none :=
  QueuedActions.settle_of_fixed fun queued hqueued ↦
    RegistryCommand.act_none (hqueue queued hqueued)

theorem safe_none {fd : Int} {queue : List Queued}
    (hqueue : ∀ queued ∈ queue, queued.command.registers ≠ some fd) :
    (viewActions fd).Safe queue none :=
  QueuedActions.safe_of_fixed
    (fun queued hqueued ↦ RegistryCommand.act_none (hqueue queued hqueued))
    fun queued _ ↦ queued.permits_none

namespace Pipeline

variable {pipeline next : Pipeline}

/-- The commands under way, in the order of their handling. -/
def underWay (pipeline : Pipeline) : List Queued :=
  pipeline.queued ++ pipeline.todo

/-- The view that the connection at a descriptor has once the commands under way are handled. -/
def settled (pipeline : Pipeline) (fd : Int) : Option View :=
  (viewActions fd).settle pipeline.underWay (pipeline.registry.view fd)

/-- The commands under way meet no connection they must not reach. -/
def Permitted (pipeline : Pipeline) (fd : Int) : Prop :=
  (viewActions fd).Safe pipeline.underWay (pipeline.registry.view fd)

/-- The descriptors that are registered or under way to it. -/
def descriptors (pipeline : Pipeline) : Finset Int :=
  pipeline.registry.infos.keys ∪
    (pipeline.underWay.filterMap fun queued ↦ queued.command.registers).toFinset

/-- The descriptors whose connections are logged in as a user once the commands under way are
handled. -/
def settledAs (pipeline : Pipeline) (userId : Bytes) : Finset Int :=
  pipeline.descriptors.filter fun fd ↦ (pipeline.settled fd).map Prod.fst = some userId

theorem mem_settledAs {fd : Int} {userId : Bytes} :
    fd ∈ pipeline.settledAs userId ↔ ∃ joined, pipeline.settled fd = some (userId, joined) := by
  rw [settledAs, Finset.mem_filter, Option.map_eq_some_iff]
  constructor
  · rintro ⟨-, ⟨userId, joined⟩, hsettled, rfl⟩
    exact ⟨joined, hsettled⟩
  · rintro ⟨joined, hsettled⟩
    refine ⟨?_, (userId, joined), hsettled, rfl⟩
    by_contra hfd
    simp only [descriptors, Finset.mem_union, Finmap.mem_keys, List.mem_toFinset,
      List.mem_filterMap, not_or, not_exists, not_and] at hfd
    have hview : pipeline.registry.view fd = none :=
      EpollRegistry.view_eq_none.mpr (Finmap.lookup_eq_none.mpr hfd.1)
    rw [settled, hview, settle_none hfd.2] at hsettled
    cases hsettled

/-! ### Steps between tasks -/

/-- Connections come, without a user, or go. -/
structure Frames (pipeline next : Pipeline) : Prop where
  settled : ∀ fd view, next.settled fd = some view →
    pipeline.settled fd = some view ∨ view = ([], ∅)
  permitted : ∀ fd, pipeline.Permitted fd → next.Permitted fd
  db : next.db = pipeline.db

/-- The queued registration of a descriptor is the only one. -/
theorem Owned.registers_rest (howned : pipeline.Owned) {queued : Queued} {rest : List Queued}
    (hqueued : pipeline.queued = queued :: rest) {fd : Int}
    (hregisters : queued.command.registers = some fd) :
    ∀ other ∈ rest, other.command.registers ≠ some fd := by
  intro other hother hsame
  have hnodup := howned.nodup
  simp only [owners, hqueued, List.filterMap_cons, hregisters, Option.map_some, List.cons_append,
    List.map_cons, List.nodup_cons] at hnodup
  refine hnodup.1 (List.mem_map.mpr ⟨(fd, other.conn), ?_, rfl⟩)
  refine List.mem_append_left _ (List.mem_filterMap.mpr ⟨other, hother, ?_⟩)
  rw [hsame, Option.map_some]

theorem Owned.registers_todo (howned : pipeline.Owned) (fd : Int) :
    ∀ queued ∈ pipeline.todo, queued.command.registers ≠ some fd := by
  intro queued hqueued hregisters
  obtain ⟨other, hby⟩ := howned.todo queued hqueued
  rw [registers_of_byWorker hby] at hregisters
  cases hregisters

/-- The descriptor of the acceptor is not registered and not queued for it. -/
theorem Owned.acceptor_fresh (howned : pipeline.Owned) {fd : Int} {conn : Nat}
    (hacceptor : pipeline.acceptor = some (fd, conn)) :
    pipeline.registry.view fd = none ∧
      ∀ queued ∈ pipeline.queued, queued.command.registers ≠ some fd := by
  have howner : (fd, conn) ∈ pipeline.owners := by
    rw [owners, hacceptor]
    exact List.mem_append_right _ (List.mem_singleton.mpr rfl)
  refine ⟨EpollRegistry.view_eq_none.mpr
    (Finmap.lookup_eq_none.mpr (howned.owned (fd, conn) howner).2), fun queued hqueued hsame ↦ ?_⟩
  have hnodup := howned.nodup
  rw [owners, hacceptor, List.map_append, List.nodup_append] at hnodup
  refine hnodup.2.2 fd (List.mem_map.mpr ⟨(fd, queued.conn), ?_, rfl⟩) fd
    (List.mem_singleton.mpr rfl) rfl
  refine List.mem_filterMap.mpr ⟨queued, hqueued, ?_⟩
  rw [hsame, Option.map_some]

theorem frames_registering (howned : pipeline.Owned) {fd : Int} {conn : Nat}
    (hacceptor : pipeline.acceptor = some (fd, conn))
    (hfresh : ∀ queued ∈ pipeline.todo, queued.command.target ≠ some fd) :
    pipeline.Frames (pipeline.registering fd conn) := by
  have hunderWay : (pipeline.registering fd conn).underWay = pipeline.queued ++
      { command := .register fd (epollIn ||| epollRdhup), conn := conn } :: pipeline.todo := by
    simp [underWay, Pipeline.registering]
  have hregistry : (pipeline.registering fd conn).registry = pipeline.registry := rfl
  obtain ⟨hnone, hqueued⟩ := howned.acceptor_fresh hacceptor
  -- the new connection waits behind the queue, and nothing behind it is directed at it
  have htodo : ∀ queued ∈ pipeline.todo,
      (viewActions fd).act queued (some ([], ∅)) = some ([], ∅) := by
    intro queued hmem
    obtain ⟨other, hby⟩ := howned.todo queued hmem
    exact RegistryCommand.act_without_user hby (hfresh queued hmem) ∅
  refine ⟨fun other view hsettled ↦ ?_, fun other hpermitted ↦ ?_, rfl⟩
  · rw [settled, hregistry, hunderWay, QueuedActions.settle_append, QueuedActions.settle_cons,
      viewActions_act, RegistryCommand.act_register] at hsettled
    by_cases hsame : other = fd
    · subst hsame
      rw [hnone, settle_none hqueued, if_pos ⟨rfl, rfl⟩, QueuedActions.settle_of_fixed htodo]
        at hsettled
      exact Or.inr (Option.some.inj hsettled).symm
    · rw [if_neg fun hboth ↦ hsame hboth.1.symm, ← QueuedActions.settle_append] at hsettled
      exact Or.inl hsettled
  · rw [Permitted, underWay, QueuedActions.safe_append] at hpermitted
    rw [Permitted, hregistry, hunderWay, QueuedActions.safe_append, QueuedActions.Safe,
      viewActions_act, RegistryCommand.act_register]
    refine ⟨hpermitted.1, Queued.permits_of_quiet rfl _, ?_⟩
    by_cases hsame : other = fd
    · subst hsame
      rw [hnone, settle_none hqueued, if_pos ⟨rfl, rfl⟩]
      exact QueuedActions.safe_of_fixed htodo fun queued _ ↦ queued.permits_without_rooms []
    · rw [if_neg fun hboth ↦ hsame hboth.1.symm]
      exact hpermitted.2

/-- A handler does what its command is meant to do, or the connection is gone for good. -/
theorem view_handled (howned : pipeline.Owned) (env : HandlerEnv) {queued : Queued}
    {rest : List Queued} (hqueued : pipeline.queued = queued :: rest) (fd : Int) :
    (pipeline.handled env queued rest).registry.view fd =
        queued.command.act fd (pipeline.registry.view fd) ∨
      (pipeline.handled env queued rest).registry.view fd = none ∧
        ∀ other ∈ (pipeline.handled env queued rest).underWay,
          other.command.registers ≠ some fd := by
  have hview := EpollRegistry.view_handleCommand howned.consistent env queued.command fd
  by_cases hact : (pipeline.handled env queued rest).registry.view fd =
      queued.command.act fd (pipeline.registry.view fd)
  · exact Or.inl hact
  refine Or.inr ⟨hview.resolve_left hact, fun other hother ↦ ?_⟩
  rcases List.mem_append.mp hother with hrest | htodo
  · by_cases hregisters : queued.command.registers = some fd
    · exact howned.registers_rest hqueued hregisters other hrest
    · intro hsame
      have hfresh := (howned.register_fresh (hqueued ▸ List.mem_cons_of_mem _ hrest) hsame).2
      refine hact ((hview.resolve_left hact).trans ?_)
      rw [EpollRegistry.view_eq_none.mpr (Finmap.lookup_eq_none.mpr hfresh),
        RegistryCommand.act_none hregisters]
  · exact howned.registers_todo fd other htodo

theorem frames_handled (howned : pipeline.Owned) (env : HandlerEnv) {queued : Queued}
    {rest : List Queued} (hqueued : pipeline.queued = queued :: rest) :
    pipeline.Frames (pipeline.handled env queued rest) := by
  have hunderWay : pipeline.underWay = queued :: (pipeline.handled env queued rest).underWay := by
    rw [underWay, hqueued]
    rfl
  refine ⟨fun fd view hsettled ↦ ?_, fun fd hpermitted ↦ ?_, rfl⟩
  · rw [settled] at hsettled
    rw [settled, hunderWay, QueuedActions.settle_cons, viewActions_act]
    rcases view_handled howned env hqueued fd with hact | ⟨hnone, hgone⟩
    · rw [hact] at hsettled
      exact Or.inl hsettled
    · rw [hnone, settle_none hgone] at hsettled
      cases hsettled
  · rw [Permitted, hunderWay, QueuedActions.Safe, viewActions_act] at hpermitted
    rw [Permitted]
    rcases view_handled howned env hqueued fd with hact | ⟨hnone, hgone⟩
    · rw [hact]
      exact hpermitted.2
    · rw [hnone]
      exact safe_none hgone

/-- What a callback requests ends the view of a connection or leaves it. -/
theorem settle_requests {si : SocketInfo} {result : Dispatched} (hresult : Dispatches si result)
    (conn : Nat) (fd : Int) (view : Option View) :
    let requests := result.requests.map fun command ↦
      ({ command := command, conn := conn } : Queued)
    (viewActions fd).settle requests view = view ∨
      (viewActions fd).settle requests view = none := by
  have hrequests := hresult.requests
  generalize result.requests = requests at hrequests
  dsimp only
  induction requests with
  | nil => exact Or.inl rfl
  | cons command rest ih =>
    have hrest := fun other hother ↦ hrequests other (List.mem_cons_of_mem _ hother)
    rw [List.map_cons, QueuedActions.settle_cons, viewActions_act]
    rcases hrequests command List.mem_cons_self with rfl | ⟨message, rfl⟩
    · rw [RegistryCommand.act_unregister]
      split_ifs
      · refine Or.inr (settle_none fun queued hqueued ↦ ?_)
        obtain ⟨other, hother, rfl⟩ := List.mem_map.mp hqueued
        rcases hrest other hother with rfl | ⟨message, rfl⟩ <;> exact fun hsame ↦ by cases hsame
      · exact ih hrest
    · exact ih hrest

theorem frames_dispatched (howned : pipeline.Owned) {fd : Int} {si : SocketInfo}
    {result : Dispatched} (hinfo : pipeline.registry.infos.lookup fd = some si)
    (hresult : Dispatches si result) : pipeline.Frames (pipeline.dispatched fd si result) := by
  have hview : ∀ other, (pipeline.dispatched fd si result).registry.view other =
      pipeline.registry.view other := by
    intro other
    show (pipeline.registry.setInfo fd result.info).view other = _
    by_cases hsame : other = fd
    · rw [hsame, EpollRegistry.view_setInfo_self, EpollRegistry.view, hinfo, Option.map_some,
        hresult.identity.userId, hresult.identity.joinedRoomIds]
    · exact EpollRegistry.view_setInfo_of_ne hsame _
  have hunderWay : (pipeline.dispatched fd si result).underWay = pipeline.queued ++
      ((result.requests.map fun command ↦
        { command := command, conn := pipeline.kernel.connOf fd }) ++ pipeline.todo) := by
    simp [underWay, Pipeline.dispatched]
  refine ⟨fun other view hsettled ↦ Or.inl ?_, fun other hpermitted ↦ ?_, rfl⟩
  · rw [settled, hview, hunderWay, QueuedActions.settle_append, QueuedActions.settle_append]
      at hsettled
    rw [settled, underWay, QueuedActions.settle_append]
    rcases settle_requests hresult (pipeline.kernel.connOf fd) other
      ((viewActions other).settle pipeline.queued (pipeline.registry.view other)) with hsame | hnone
    · rw [hsame] at hsettled
      exact hsettled
    · rw [hnone, settle_none (howned.registers_todo other)] at hsettled
      cases hsettled
  · rw [Permitted, underWay, QueuedActions.safe_append] at hpermitted
    rw [Permitted, hview, hunderWay, QueuedActions.safe_append, QueuedActions.safe_append]
    refine ⟨hpermitted.1, QueuedActions.safe_of_needless fun queued hqueued view ↦ ?_, ?_⟩
    · obtain ⟨command, -, rfl⟩ := List.mem_map.mp hqueued
      exact Queued.permits_of_quiet rfl view
    · rcases settle_requests hresult (pipeline.kernel.connOf fd) other
        ((viewActions other).settle pipeline.queued (pipeline.registry.view other))
        with hsame | hnone
      · rw [hsame]
        exact hpermitted.2
      · rw [hnone]
        exact safe_none (howned.registers_todo other)

theorem frames_pushed {queued : Queued} {rest : List Queued}
    (htodo : pipeline.todo = queued :: rest) : pipeline.Frames (pipeline.pushed queued rest) := by
  have hunderWay : (pipeline.pushed queued rest).underWay = pipeline.underWay := by
    rw [underWay, underWay, htodo]
    exact List.append_assoc _ _ _
  refine ⟨fun fd view hsettled ↦ Or.inl ?_, fun fd hpermitted ↦ ?_, rfl⟩
  · rw [settled, hunderWay] at hsettled
    exact hsettled
  · rw [Permitted, hunderWay]
    exact hpermitted

/-- Every step but the taking of a task only lets connections come and go. -/
theorem frames_of_step [LinearOrder Bytes] {label : ServerLabel} (howned : pipeline.Owned)
    (hfresh : label = .requestRegister → ∀ fd conn, pipeline.acceptor = some (fd, conn) →
      ∀ queued ∈ pipeline.todo, queued.command.target ≠ some fd)
    (hstep : pipeline.Step label next) (hlabel : ∀ env, label ≠ .take env) :
    pipeline.Frames next := by
  cases hstep with
  | accept fd hfd hclosed hidle =>
    exact ⟨fun _ _ hsettled ↦ Or.inl hsettled, fun _ hpermitted ↦ hpermitted, rfl⟩
  | register fd conn hacceptor =>
    exact frames_registering howned hacceptor (hfresh rfl fd conn hacceptor)
  | handle env queued rest hqueued => exact frames_handled howned env hqueued
  | dispatch env fd si result hinfo hresult => exact frames_dispatched howned hinfo hresult
  | take env entry rest htodo htasks => exact absurd rfl (hlabel env)
  | push queued rest htodo => exact frames_pushed htodo

/-! ### Tasks -/

section Tasks

variable [LinearOrder Bytes] (env : DbEnv) {entry : TaskEntry} {rest : List TaskEntry}

theorem underWay_taken (htodo : pipeline.todo = []) :
    (pipeline.taken env entry rest).underWay = pipeline.underWay ++
      (DbExecutor.execute env entry.task pipeline.db).2.map
        (queuedOf entry (DbExecutor.execute env entry.task pipeline.db).1) := by
  rw [underWay, underWay, htodo, List.append_nil]
  rfl

/-- A task changes a settled view as its relevant commands say. -/
theorem settled_taken (htodo : pipeline.todo = []) (fd : Int) :
    (pipeline.taken env entry rest).settled fd =
      viewAfter fd (relevantOf (DbExecutor.execute env entry.task pipeline.db))
        (pipeline.settled fd) := by
  have hregistry : (pipeline.taken env entry rest).registry = pipeline.registry := rfl
  rw [settled, hregistry, underWay_taken env htodo, QueuedActions.settle_append, ← settled,
    ← @QueuedActions.settle_filter _ _ _ _ _ fun queued ↦ queued.command.relevant]
  · rw [List.filter_map, QueuedActions.settle, List.foldl_map]
    rfl
  · exact fun queued hrelevant view ↦ RegistryCommand.act_of_not_relevant hrelevant fd view

/-- A task broadcasts at most the message it committed. -/
theorem permitted_taken (htodo : pipeline.todo = []) {fd : Int} (hpermitted : pipeline.Permitted fd)
    (hmembers : ∀ roomId userId joined, pipeline.db.IsRoom roomId →
      pipeline.settled fd = some (userId, joined) → roomId ∈ joined →
        userId ≠ [] ∧ pipeline.db.IsMember roomId userId) :
    (pipeline.taken env entry rest).Permitted fd := by
  have hregistry : (pipeline.taken env entry rest).registry = pipeline.registry := rfl
  rw [Permitted, hregistry, underWay_taken env htodo, QueuedActions.safe_append, ← settled]
  refine ⟨hpermitted, ?_⟩
  rcases (@executes_execute _ env entry.task pipeline.db).committed with
    ⟨row, message, -, hroom, -, hnext, hcommands⟩ | ⟨-, -, hnone⟩
  · rw [← @QueuedActions.safe_filter _ _ _ _ _ fun queued ↦ queued.command.relevant]
    · have hrelevant : ((DbExecutor.execute env entry.task pipeline.db).2.filter
          RegistryCommand.relevant) = _ := hcommands
      rw [List.filter_map]
      change QueuedActions.Safe _ (((DbExecutor.execute env entry.task pipeline.db).2.filter
        RegistryCommand.relevant).map _) _
      rw [hrelevant]
      refine ⟨fun message hmessage userId joined hview hjoined ↦ ?_, trivial⟩
      change lastMessage _ = some message at hmessage
      rw [hnext, lastMessage_committed] at hmessage
      obtain rfl := Option.some.inj hmessage
      rw [mem_members_messageOf]
      exact hmembers _ userId joined hroom hview hjoined
    · exact fun queued hrelevant view ↦ RegistryCommand.act_of_not_relevant hrelevant fd view
    · intro queued hqueued hrelevant view
      obtain ⟨command, -, rfl⟩ := List.mem_map.mp hqueued
      exact Queued.permits_of_quiet (Queued.message_of_not_relevant hrelevant entry _) view
  · refine QueuedActions.safe_of_needless fun queued hqueued view ↦ ?_
    obtain ⟨command, hmem, rfl⟩ := List.mem_map.mp hqueued
    refine Queued.permits_of_quiet ?_ view
    cases command with
    | roomBroadcast target roomId cmd =>
      exact absurd (List.mem_filter.mpr ⟨hmem, rfl⟩) (hnone target roomId cmd)
    | _ => rfl

end Tasks

end Pipeline

/-- The constraints of the schema hold in every state reached. -/
theorem valid_of_reachable [LinearOrder Bytes] {condition : ServerState → ServerLabel → Prop}
    {state : ServerState} (hreach : chatServer.ReachableUnder condition state) :
    state.db.Valid := by
  have hstart : ServerState.start.pipeline.db.Valid := Database.valid_empty Bytes
  refine @pipeline_induction _ condition (fun pipeline ↦ pipeline.db.Valid) hstart ?_ _ hreach
  intro state label next _ hvalid _ hstep
  cases hstep with
  | take env entry rest htodo htasks => exact valid_execute hvalid
  | _ => exact hvalid

/-! ### Refreshes -/

/-- Commands of the worker make no connection. -/
theorem viewAfter_none {fd : Int} {commands : List RegistryCommand}
    (hcommands : ∀ command ∈ commands, command.registers = none) :
    viewAfter fd commands none = none := by
  induction commands with
  | nil => rfl
  | cons command rest ih =>
    have hcommand : command.registers ≠ some fd := by
      rw [hcommands command List.mem_cons_self]
      exact fun hsome ↦ by cases hsome
    unfold viewAfter
    rw [List.foldl_cons, RegistryCommand.act_none hcommand]
    exact ih fun other hother ↦ hcommands other (List.mem_cons_of_mem _ hother)

theorem viewAfter_relevantOf_none [LinearOrder Bytes] (env : DbEnv) (task : Task)
    (db : Database Bytes) (fd : Int) :
    viewAfter fd (relevantOf (DbExecutor.execute env task db)) none = none :=
  viewAfter_none fun command hcommand ↦ Pipeline.registers_of_byWorker
    (byWorker_execute env task db command (List.mem_filter.mp hcommand).1)

theorem viewAfter_append (fd : Int) (first second : List RegistryCommand) (view : Option View) :
    viewAfter fd (first ++ second) view = viewAfter fd second (viewAfter fd first view) :=
  List.foldl_append

section Refresh

variable {env : DbEnv} {fd : Int} {view : View}

/-- A login gives its connection a user and the rooms of this user. -/
theorem viewAfter_login (target : Int) (userId : Bytes) (roomIds : List Int) :
    viewAfter fd [.setUserId target userId, .setJoinedRooms target roomIds] (some view) =
      some (if target = fd then (userId, positiveRooms roomIds) else view) := by
  unfold viewAfter
  rw [List.foldl_cons, List.foldl_cons, List.foldl_nil, RegistryCommand.act_setUserId,
    RegistryCommand.act_setJoinedRooms]
  by_cases hsame : target = fd
  · rw [if_pos hsame, if_pos hsame, if_pos hsame, Option.map_some, Option.map_some]
  · rw [if_neg hsame, if_neg hsame, if_neg hsame]

/-- The refresh of the connection at a descriptor. -/
theorem viewAfter_refresh (target : Int) (n : Nat) (roomIds : List Int) :
    viewAfter fd (DbExecutor.refresh (.setJoinedRooms target) (env.read n roomIds)) (some view) =
      some (if target = fd ∧ env.fails n = none then (view.1, positiveRooms roomIds)
        else view) := by
  unfold DbEnv.read
  cases hfails : env.fails n with
  | some error => rw [if_neg fun hboth ↦ by cases hboth.2]; rfl
  | none =>
    show (RegistryCommand.setJoinedRooms target roomIds).act fd (some view) = _
    rw [RegistryCommand.act_setJoinedRooms]
    by_cases hsame : target = fd
    · rw [if_pos hsame, if_pos ⟨hsame, rfl⟩, Option.map_some]
    · rw [if_neg hsame, if_neg fun hboth ↦ hsame hboth.1]

/-- The refresh of the connections of a user. -/
theorem viewAfter_refreshForUser (userId : Bytes) (n : Nat) (roomIds : List Int) :
    viewAfter fd (DbExecutor.refresh (.setJoinedRoomsForUser userId) (env.read n roomIds))
        (some view) =
      some (if (userId ≠ [] ∧ view.1 = userId) ∧ env.fails n = none then
        (view.1, positiveRooms roomIds) else view) := by
  unfold DbEnv.read
  cases hfails : env.fails n with
  | some error => rw [if_neg fun hboth ↦ by cases hboth.2]; rfl
  | none =>
    show (RegistryCommand.setJoinedRoomsForUser userId roomIds).act fd (some view) = _
    rw [RegistryCommand.act_setJoinedRoomsForUser, Option.map_some]
    by_cases hsame : userId ≠ [] ∧ view.1 = userId
    · rw [if_pos hsame, if_pos ⟨hsame, rfl⟩]
    · rw [if_neg hsame, if_neg fun hboth ↦ hsame hboth.1]

variable [LinearOrder Bytes] {db : Database Bytes}

/-- A refresh files a connection under the rooms that its user, as PostgreSQL reads it, is a member
of. -/
theorem mem_positiveRooms_loadJoinedRoomIds (hvalid : db.Valid) {userId : Bytes} {roomId : Int} :
    roomId ∈ positiveRooms (DbExecutor.loadJoinedRoomIds userId db) ↔
      db.IsMember roomId (sqlText userId) := by
  rw [mem_positiveRooms, DbExecutor.loadJoinedRoomIds, List.mem_map, DbService.listRooms,
    mem_listRooms hvalid]
  refine and_iff_left_of_imp fun hmember ↦ ?_
  obtain ⟨row, hrow, hkey⟩ := hmember
  obtain ⟨room, hroom, hid⟩ := (hvalid.roomMemberRefs row hrow).1
  have hpositive := (hvalid.roomIds.2 room hroom).1
  rw [hid] at hpositive
  exact (Prod.mk.inj hkey).1 ▸ hpositive

end Refresh

/-! ### Tasks that change memberships -/

section Tasks

variable [LinearOrder Bytes] (env : DbEnv) (task : Task) (db : Database Bytes)

/-- The task creates a room. -/
def createsRoom : Bool :=
  match task.cmd with
  | .cmdCreateRoom roomName =>
    match (env.write 0 db
      (DbService.createRoom env.now env.gap task.userId roomName db)).1 with
    | .ok _ => true
    | .error _ => false
  | _ => false

/-- The task deletes a room. -/
def deletesRoom : Bool :=
  match task.cmd with
  | .cmdDeleteRoom value =>
    match DbExecutor.parseRoomId value with
    | none => false
    | some roomId =>
      match (env.write 0 db (DbService.deleteRoom task.userId roomId db)).1 with
      | .ok deleted => deleted
      | .error _ => false
  | _ => false

/-- The task leaves a room. -/
def leavesRoom : Bool :=
  match task.cmd with
  | .cmdLeaveRoom value =>
    match DbExecutor.parseRoomId value with
    | none => false
    | some roomId =>
      match (env.write 0 db (DbService.leaveRoom task.userId roomId db)).1 with
      | .ok .left => true
      | _ => false
  | _ => false

/-- The friend whom the task brings into a room, as the task names them. -/
def invitesFriend : Option Bytes :=
  match task.cmd with
  | .cmdInviteRoom value friendUserId =>
    if task.userId = friendUserId then none
    else
      match DbExecutor.parseRoomId value with
      | none => none
      | some roomId =>
        match (env.write 0 db
          (DbService.inviteRoom env.now task.userId roomId friendUserId db)).1 with
        | .ok .invited => some friendUserId
        | _ => none
  | _ => none

variable {env task db} {next : Database Bytes} {roomId : Int} {value : Bytes}

theorem createsRoom_of_ok {roomName : Bytes} (hcmd : task.cmd = .cmdCreateRoom roomName)
    (hok : env.fails 0 = none)
    (hwrite : DbService.createRoom env.now env.gap task.userId roomName db = .ok (roomId, next)) :
    createsRoom env task db = true := by
  simp [createsRoom, hcmd, DbEnv.write, hok, hwrite]

theorem deletesRoom_of_ok (hcmd : task.cmd = .cmdDeleteRoom value)
    (hroom : DbExecutor.parseRoomId value = some roomId) (hok : env.fails 0 = none)
    (hwrite : DbService.deleteRoom task.userId roomId db = .ok (true, next)) :
    deletesRoom env task db = true := by
  simp [deletesRoom, hcmd, hroom, DbEnv.write, hok, hwrite]

theorem leavesRoom_of_ok (hcmd : task.cmd = .cmdLeaveRoom value)
    (hroom : DbExecutor.parseRoomId value = some roomId) (hok : env.fails 0 = none)
    (hwrite : DbService.leaveRoom task.userId roomId db = .ok (.left, next)) :
    leavesRoom env task db = true := by
  simp [leavesRoom, hcmd, hroom, DbEnv.write, hok, hwrite]

theorem invitesFriend_of_ok {friendUserId : Bytes}
    (hcmd : task.cmd = .cmdInviteRoom value friendUserId)
    (hroom : DbExecutor.parseRoomId value = some roomId) (hself : task.userId ≠ friendUserId)
    (hok : env.fails 0 = none)
    (hwrite : DbService.inviteRoom env.now task.userId roomId friendUserId db =
      .ok (.invited, next)) : invitesFriend env task db = some friendUserId := by
  simp [invitesFriend, hcmd, hroom, hself, DbEnv.write, hok, hwrite]

end Tasks

end ChatServer
