import ChatServer.General.AddressedQueue
import ChatServer.Server.Ownership

/-!
# Commands and tasks on the way to a connection

What is under way in the server forms one queue: the commands queued, those the worker has still to
queue, and the tasks. Most items are directed at a descriptor and meant for the connection it had
when the line was received or the event was dispatched. By the time an item is handled the number
may belong to another connection. `Pipeline.Aligned kind` says that this happens to no item of a
kind; it is kept as long as a registration is queued only when no item of the kind behind the queue
is directed at its descriptor (`Aligned.step`).

The other way round a connection never gets another descriptor (`Held.step`), so what is under way
always carries the descriptor of the connection it is for (`Placed`).
-/

set_option autoImplicit false
set_option relaxedAutoImplicit false

namespace ChatServer

/-! ### Commands and tasks directed at a descriptor -/

/-- The registered descriptor a command is directed at. A room broadcast looks up its sender. -/
def RegistryCommand.target : RegistryCommand → Option Int
  | .register .. | .setJoinedRoomsForUser .. => none
  | .unregister fd | .sendOne fd _ | .broadcast fd _ | .changeNickname fd _ | .setUserId fd _
  | .setJoinedRooms fd _ | .sendFriendList fd _ | .roomBroadcast fd _ _ => some fd

/-- What is under way: a command, or a task. -/
inductive Item
  | command (queued : Queued)
  | task (entry : TaskEntry)

/-- The descriptor an item is directed at. -/
def Item.target : Item → Option Int
  | .command queued => queued.command.target
  | .task entry => some entry.task.fd

/-- The connection an item is meant for. -/
def Item.conn : Item → Nat
  | .command queued => queued.conn
  | .task entry => entry.conn

/-- The descriptor an item registers. -/
def Item.registers : Item → Option Int
  | .command queued => queued.command.registers
  | .task _ => none

/-- The descriptors that the items of one kind are directed at. -/
def addressing (kind : Item → Bool) : Addressing Item Int Nat where
  target item := if kind item then item.target else none
  owner := Item.conn
  binds := Item.registers

theorem target_of_byWorker {command : RegistryCommand} {fd : Int} (hcommand : command.ByWorker fd) :
    command.target = none ∨ command.target = some fd := by
  cases command <;> first | exact Or.inl rfl | exact Or.inr (congrArg some hcommand) |
    exact hcommand.elim

namespace Pipeline

variable {pipeline : Pipeline}

/-- What is under way behind the queue. -/
def behind (pipeline : Pipeline) : List Item :=
  pipeline.todo.map .command ++ pipeline.tasks.map .task

/-- What is under way, in the order of its handling. -/
def items (pipeline : Pipeline) : List Item :=
  pipeline.queued.map .command ++ pipeline.behind

/-- The items of one kind find the connections they are meant for. -/
def Aligned (kind : Item → Bool) (pipeline : Pipeline) : Prop :=
  (addressing kind).Aligned pipeline.registeredAt pipeline.items

/-- A registration is queued only when no item behind the queue is directed at its descriptor. -/
def FreshFor (kind : Item → Bool) (pipeline : Pipeline) : Prop :=
  ∀ fd conn, pipeline.acceptor = some (fd, conn) →
    ∀ item ∈ pipeline.behind, kind item = true → item.target ≠ some fd

variable {kind : Item → Bool}

theorem Aligned.registering (haligned : pipeline.Aligned kind) (hfresh : pipeline.FreshFor kind)
    {fd : Int} {conn : Nat} (hacceptor : pipeline.acceptor = some (fd, conn)) :
    (pipeline.registering fd conn).Aligned kind := by
  have hitems : (pipeline.registering fd conn).items = pipeline.queued.map .command ++
      .command { command := .register fd (epollIn ||| epollRdhup), conn := conn } ::
        pipeline.behind := by
    simp [items, behind, Pipeline.registering]
  have hnone : ∀ name, (addressing kind).target
      (.command { command := .register fd (epollIn ||| epollRdhup), conn := conn }) ≠
        some name := by
    intro name
    simp only [addressing, Item.target, RegistryCommand.target, ite_self]
    exact fun htarget ↦ by cases htarget
  unfold Aligned
  rw [hitems]
  refine Addressing.Aligned.insert haligned (fun name _ htarget _ ↦ absurd htarget (hnone name))
    (fun _ _ name _ ↦ hnone name) (fun other hother name hbinds ↦ ?_)
  obtain rfl : fd = name := Option.some.inj hbinds
  show (if kind other = true then other.target else none) ≠ some fd
  split_ifs with hkind
  · exact hfresh fd conn hacceptor other hother hkind
  · exact fun htarget ↦ by cases htarget

theorem Aligned.handled (haligned : pipeline.Aligned kind) (howned : pipeline.Owned)
    (env : HandlerEnv) {queued : Queued} {rest : List Queued}
    (hqueued : pipeline.queued = queued :: rest) :
    (pipeline.handled env queued rest).Aligned kind := by
  have hitems : pipeline.items =
      .command queued :: (pipeline.handled env queued rest).items := by
    rw [items, hqueued]
    rfl
  unfold Aligned at haligned
  rw [hitems] at haligned
  exact haligned.pop (registeredAt_handled howned env hqueued)

/-- Items for the connection that a callback runs on may be added anywhere. -/
theorem aligned_add (howned : pipeline.Owned) {fd : Int} {si : SocketInfo}
    (hinfo : pipeline.registry.infos.lookup fd = some si) {first second added : List Item}
    (haligned : (addressing kind).Aligned pipeline.registeredAt (first ++ second))
    (hfirst : ∀ item ∈ first, ∀ other, item.registers = some other → ∃ queued ∈ pipeline.queued,
      queued.command.registers = some other)
    (hadded : ∀ item ∈ added, item.registers = none ∧ item.target = some fd ∧
      item.conn = pipeline.kernel.connOf fd) :
    (addressing kind).Aligned pipeline.registeredAt (first ++ (added ++ second)) := by
  have htarget : ∀ item ∈ added, ∀ name, (addressing kind).target item = some name →
      name = fd := by
    intro item hitem name htarget
    simp only [addressing, (hadded item hitem).2.1] at htarget
    split_ifs at htarget
    exact (Option.some.inj htarget).symm
  refine haligned.add (fun item hitem ↦ (hadded item hitem).1)
    (fun item hitem name owner hname howner ↦ ?_)
    (fun other hother name hbinds item hitem hname ↦ ?_)
  · rw [htarget item hitem name hname, howned.registeredAt_connOf hinfo] at howner
    exact (Option.some.inj howner).symm.trans (hadded item hitem).2.2.symm
  · obtain ⟨queued, hqueued, hregisters⟩ := hfirst other hother name hbinds
    rw [htarget item hitem name hname] at hregisters
    exact (howned.register_fresh hqueued hregisters).2 (Finmap.mem_of_lookup_eq_some hinfo)

theorem Aligned.dispatched (haligned : pipeline.Aligned kind) (howned : pipeline.Owned)
    {fd : Int} {si : SocketInfo} {result : Dispatched}
    (hinfo : pipeline.registry.infos.lookup fd = some si) (hresult : Dispatches si result) :
    (pipeline.dispatched fd si result).Aligned kind := by
  have hufd : si.ufd = fd := (howned.consistent.ufd fd si hinfo).1
  have hbound : (pipeline.dispatched fd si result).registeredAt = pipeline.registeredAt :=
    funext (registeredAt_dispatched hinfo result)
  have hregisters : ∀ item ∈ pipeline.items, ∀ other, item.registers = some other →
      ∃ queued ∈ pipeline.queued, queued.command.registers = some other := by
    intro item hitem other hregisters
    simp only [items, behind, List.mem_append, List.mem_map] at hitem
    rcases hitem with ⟨queued, hqueued, rfl⟩ | ⟨queued, hqueued, rfl⟩ | ⟨entry, -, rfl⟩
    · exact ⟨queued, hqueued, hregisters⟩
    · obtain ⟨fd, hby⟩ := howned.todo queued hqueued
      simp only [Item.registers, registers_of_byWorker hby] at hregisters
      cases hregisters
    · cases hregisters
  have hrequests : ∀ item ∈ result.requests.map fun command ↦
      Item.command { command := command, conn := pipeline.kernel.connOf fd },
      item.registers = none ∧ item.target = some fd ∧
        item.conn = pipeline.kernel.connOf fd := by
    intro item hitem
    obtain ⟨command, hcommand, rfl⟩ := List.mem_map.mp hitem
    rw [← hufd]
    rcases hresult.requests command hcommand with rfl | ⟨message, rfl⟩ <;> exact ⟨rfl, rfl, rfl⟩
  have htasks : ∀ item ∈ (result.task.map fun task ↦ Item.task
      { task := task, conn := pipeline.kernel.connOf fd
        applied := pipeline.ledger.appliedOf (pipeline.kernel.connOf fd) }).toList,
      item.registers = none ∧ item.target = some fd ∧
        item.conn = pipeline.kernel.connOf fd := by
    intro item hitem
    obtain ⟨task, htask, rfl⟩ := Option.map_eq_some_iff.mp (Option.mem_toList.mp hitem)
    exact ⟨rfl, congrArg some ((hresult.task_identity htask).1.trans hufd), rfl⟩
  have hmore := aligned_add howned hinfo haligned
    (fun item hitem ↦ hregisters item (List.mem_append_left _ hitem)) hrequests
  rw [← List.append_nil (pipeline.queued.map Item.command ++ _)] at hmore
  have hall := aligned_add howned hinfo hmore (fun item hitem ↦ ?_) htasks
  · unfold Aligned
    rw [hbound]
    cases htask : result.task <;>
      simpa [items, behind, Pipeline.dispatched, htask, Function.comp_def] using hall
  · rcases List.mem_append.mp hitem with hold | hnew
    · exact hregisters item (List.mem_append_left _ hold)
    · rcases List.mem_append.mp hnew with hnew | hold
      · intro other hregister
        rw [(hrequests item hnew).1] at hregister
        cases hregister
      · exact hregisters item (List.mem_append_right _ hold)

theorem Aligned.taken [LinearOrder Bytes] (haligned : pipeline.Aligned kind)
    (hworker : ∀ entry queued, queued.command.ByWorker entry.task.fd →
      kind (.command queued) = true → kind (.task entry) = true)
    (env : DbEnv) {entry : TaskEntry} {rest : List TaskEntry} (htodo : pipeline.todo = [])
    (htasks : pipeline.tasks = entry :: rest) : (pipeline.taken env entry rest).Aligned kind := by
  have hitems : pipeline.items = pipeline.queued.map .command ++ .task entry :: rest.map .task := by
    rw [items, behind, htodo, htasks]
    rfl
  unfold Aligned at haligned
  rw [hitems] at haligned
  have hreplaced := @Addressing.Aligned.replace _ _ _ _ _ _ _ _
    ((pipeline.taken env entry rest).todo.map Item.command) haligned ?_
  · rwa [List.append_assoc] at hreplaced
  intro item hitem
  obtain ⟨queued, hqueued, rfl⟩ := List.mem_map.mp hitem
  obtain ⟨command, hcommand, rfl⟩ := List.mem_map.mp hqueued
  have hby := byWorker_execute env entry.task pipeline.db command hcommand
  refine ⟨registers_of_byWorker hby, ?_⟩
  by_cases hkind : kind (.command (queuedOf entry
      (DbExecutor.execute env entry.task pipeline.db).1 command)) = true
  · have htask := hworker entry _ hby hkind
    rcases target_of_byWorker hby with hnone | htarget
    · left
      show (if _ then command.target else none) = none
      rw [hnone, ite_self]
    · right
      refine ⟨?_, rfl⟩
      show (if _ then command.target else none) = if _ then some entry.task.fd else none
      rw [if_pos hkind, if_pos htask, htarget]
  · exact Or.inl (if_neg hkind)

theorem Aligned.pushed (haligned : pipeline.Aligned kind) {queued : Queued} {rest : List Queued}
    (htodo : pipeline.todo = queued :: rest) : (pipeline.pushed queued rest).Aligned kind := by
  have hitems : (pipeline.pushed queued rest).items = pipeline.items := by
    simp [items, behind, Pipeline.pushed, htodo]
  unfold Aligned
  rw [hitems]
  exact haligned

/-- Every step keeps the items of a kind aligned, when a registration is queued only with a
descriptor fresh for the kind. -/
theorem Aligned.step [LinearOrder Bytes] {next : Pipeline} {label : ServerLabel}
    (haligned : pipeline.Aligned kind) (howned : pipeline.Owned)
    (hworker : ∀ entry queued, queued.command.ByWorker entry.task.fd →
      kind (.command queued) = true → kind (.task entry) = true)
    (hfresh : label = .requestRegister → pipeline.FreshFor kind)
    (hstep : pipeline.Step label next) : next.Aligned kind := by
  cases hstep with
  | accept fd hfd hclosed hidle =>
    exact haligned.mono fun name owner howner ↦
      (registeredAt_accepted howned hclosed name).symm.trans howner
  | register fd conn hacceptor => exact haligned.registering (hfresh rfl) hacceptor
  | handle env queued rest hqueued => exact haligned.handled howned env hqueued
  | dispatch env fd si result hinfo hresult => exact haligned.dispatched howned hinfo hresult
  | take env entry rest htodo htasks => exact haligned.taken hworker env htodo htasks
  | push queued rest htodo => exact haligned.pushed htodo

theorem aligned_start : ServerState.start.pipeline.Aligned kind :=
  Addressing.Aligned.nil _

/-- In an aligned pipeline the first command finds the connection it is meant for, or none. -/
theorem Aligned.target_registeredAt (haligned : pipeline.Aligned kind) {queued : Queued}
    {rest : List Queued} (hqueued : pipeline.queued = queued :: rest)
    (hkind : kind (.command queued) = true) {fd : Int} (htarget : queued.command.target = some fd)
    {conn : Nat} (hconn : pipeline.registeredAt fd = some conn) : conn = queued.conn := by
  have hmem : Item.command queued ∈ pipeline.items := by
    rw [items, hqueued]
    exact List.mem_append_left _ List.mem_cons_self
  refine haligned.current (.command queued) hmem fd conn ?_ hconn
  show (if _ then queued.command.target else none) = some fd
  rw [if_pos hkind, htarget]

/-! ### The descriptor of a connection -/

/-- The connection was registered at the descriptor, or its registration failed; if it is registered
anywhere, it is there. -/
structure Held (pipeline : Pipeline) (conn : Nat) (fd : Int) : Prop where
  serial : conn < pipeline.kernel.nextConn
  notOwner : ∀ owner ∈ pipeline.owners, owner.2 ≠ conn
  only : ∀ other, pipeline.registeredAt other = some conn → other = fd

theorem Owned.held (howned : pipeline.Owned) {fd : Int} {conn : Nat}
    (hconn : pipeline.registeredAt fd = some conn) : pipeline.Held conn fd := by
  obtain ⟨hmem, hconn⟩ := registeredAt_eq_some.mp hconn
  refine ⟨howned.serial fd conn hconn, ?_, fun other hother ↦
    howned.injective other fd conn (registeredAt_eq_some.mp hother).2 hconn⟩
  rintro owner howner rfl
  obtain ⟨hown, hfresh⟩ := howned.owned owner howner
  exact hfresh (howned.injective owner.1 fd owner.2 hown hconn ▸ hmem)

theorem Held.mono {next : Pipeline} {conn : Nat} {fd : Int} (hheld : pipeline.Held conn fd)
    (hnextConn : next.kernel.nextConn = pipeline.kernel.nextConn)
    (howners : next.owners ⊆ pipeline.owners)
    (hregistered : ∀ other, next.registeredAt other = some conn →
      pipeline.registeredAt other = some conn) : next.Held conn fd :=
  ⟨hnextConn ▸ hheld.serial, fun owner howner ↦ hheld.notOwner owner (howners howner),
    fun other hother ↦ hheld.only other (hregistered other hother)⟩

/-- A connection never gets another descriptor. -/
theorem Held.step [LinearOrder Bytes] {next : Pipeline} {label : ServerLabel} {conn : Nat}
    {fd : Int} (hheld : pipeline.Held conn fd) (howned : pipeline.Owned)
    (hstep : pipeline.Step label next) : next.Held conn fd := by
  cases hstep with
  | accept other hother hclosed hidle =>
    refine ⟨Nat.lt_succ_of_lt hheld.serial, fun owner howner ↦ ?_, fun name hname ↦ ?_⟩
    · rw [owners_accepted other hidle, List.mem_append, List.mem_singleton] at howner
      rcases howner with hold | rfl
      · exact hheld.notOwner owner hold
      · exact hheld.serial.ne'
    · exact hheld.only name ((registeredAt_accepted howned hclosed name).symm.trans hname)
  | register other serial hacceptor =>
    exact hheld.mono rfl (owners_registering hacceptor ▸ List.Subset.refl _) fun _ hname ↦ hname
  | handle env queued rest hqueued =>
    have howners := owners_handled env hqueued
    refine hheld.mono (howned.handles env hqueued).nextConn ?_ fun name hname ↦ ?_
    · rw [howners]
      exact List.subset_append_right _ _
    · refine (registeredAt_handled howned env hqueued name conn hname).resolve_right fun hnew ↦ ?_
      -- the connection registered is the owner's
      have hmem : queued ∈ pipeline.queued := hqueued ▸ List.mem_cons_self
      have hconn := (howned.handles env hqueued).closed name conn (registeredAt_eq_some.mp hname).2
      rw [(howned.register_fresh hmem hnew).1, Option.some.injEq] at hconn
      refine hheld.notOwner (name, queued.conn) ?_ hconn
      rw [howners, hnew]
      exact List.mem_append_left _ (List.mem_singleton.mpr rfl)
  | dispatch env other si result hinfo hresult =>
    have howners := @owners_dispatched pipeline other si result hresult
    exact hheld.mono rfl (howners ▸ List.Subset.refl _)
      fun name hname ↦ (registeredAt_dispatched hinfo result name).symm.trans hname
  | take env entry rest htodo htasks => exact ⟨hheld.serial, hheld.notOwner, hheld.only⟩
  | push queued rest htodo =>
    exact hheld.mono rfl (howned.owners_pushed htodo ▸ List.Subset.refl _) fun _ hname ↦ hname

/-- The commands and tasks under way, and the tasks executed, carry the descriptors of the
connections they are for. -/
structure Placed (pipeline : Pipeline) : Prop where
  commands : ∀ queued ∈ pipeline.queued ++ pipeline.todo, queued.command.registers = none →
    ∃ fd, pipeline.Held queued.conn fd ∧ ∀ target, queued.command.target = some target → target = fd
  tasks : ∀ entry ∈ pipeline.tasks, pipeline.Held entry.conn entry.task.fd
  executed : ∀ execution ∈ pipeline.ledger.executed,
    pipeline.Held execution.entry.conn execution.entry.task.fd

theorem placed_start : ServerState.start.pipeline.Placed := by
  constructor <;>
    simp [ServerState.pipeline, ServerState.start, ServerState.queued, ServerState.pending,
      ServerState.todo]

theorem Placed.step [LinearOrder Bytes] {next : Pipeline} {label : ServerLabel}
    (hplaced : pipeline.Placed) (howned : pipeline.Owned) (hstep : pipeline.Step label next) :
    next.Placed := by
  have hcommands : ∀ queued ∈ pipeline.queued ++ pipeline.todo,
      queued.command.registers = none → ∃ fd, next.Held queued.conn fd ∧
        ∀ target, queued.command.target = some target → target = fd := by
    intro queued hqueued hregisters
    obtain ⟨fd, hheld, htarget⟩ := hplaced.commands queued hqueued hregisters
    exact ⟨fd, hheld.step howned hstep, htarget⟩
  have htasks' : ∀ entry ∈ pipeline.tasks, next.Held entry.conn entry.task.fd :=
    fun entry hentry ↦ (hplaced.tasks entry hentry).step howned hstep
  have hexecuted : ∀ execution ∈ pipeline.ledger.executed,
      next.Held execution.entry.conn execution.entry.task.fd :=
    fun execution hexecution ↦ (hplaced.executed execution hexecution).step howned hstep
  cases hstep with
  | accept fd hfd hclosed hidle => exact ⟨hcommands, htasks', hexecuted⟩
  | register fd conn hacceptor =>
    refine ⟨fun queued hqueued hregisters ↦ ?_, htasks', hexecuted⟩
    simp only [Pipeline.registering, List.mem_append, List.mem_singleton] at hqueued
    rcases hqueued with (hold | rfl) | hold
    · exact hcommands queued (List.mem_append_left _ hold) hregisters
    · cases hregisters
    · exact hcommands queued (List.mem_append_right _ hold) hregisters
  | handle env queued rest hqueued =>
    refine ⟨fun other hother ↦ hcommands other ?_, htasks', hexecuted⟩
    rw [hqueued]
    exact List.mem_cons_of_mem _ hother
  | dispatch env fd si result hinfo hresult =>
    have hufd : si.ufd = fd := (howned.consistent.ufd fd si hinfo).1
    have hheld := (howned.held (howned.registeredAt_connOf hinfo)).step howned
      (.dispatch env fd si result hinfo hresult)
    refine ⟨fun queued hqueued hregisters ↦ ?_, fun entry hentry ↦ ?_, hexecuted⟩
    · simp only [Pipeline.dispatched, List.mem_append, List.mem_map] at hqueued
      rcases hqueued with (hold | ⟨command, hcommand, rfl⟩) | hold
      · exact hcommands queued (List.mem_append_left _ hold) hregisters
      · refine ⟨fd, hheld, fun target htarget ↦ ?_⟩
        rw [← hufd]
        rcases hresult.requests command hcommand with rfl | ⟨message, rfl⟩ <;>
          exact (Option.some.inj htarget).symm
      · exact hcommands queued (List.mem_append_right _ hold) hregisters
    · rcases List.mem_append.mp hentry with hold | hnew
      · exact htasks' entry hold
      · obtain ⟨task, htask, rfl⟩ := Option.map_eq_some_iff.mp (Option.mem_toList.mp hnew)
        show Held _ _ task.fd
        rw [(hresult.task_identity htask).1, hufd]
        exact hheld
  | take env entry rest htodo htasks =>
    have hheld : (pipeline.taken env entry rest).Held entry.conn entry.task.fd :=
      htasks' entry (htasks ▸ List.mem_cons_self)
    refine ⟨fun queued hqueued hregisters ↦ ?_,
      fun other hother ↦ htasks' other (htasks ▸ List.mem_cons_of_mem _ hother),
      fun execution hexecution ↦ ?_⟩
    · rcases List.mem_append.mp hqueued with hold | hnew
      · exact hcommands queued (List.mem_append_left _ hold) hregisters
      · obtain ⟨command, hcommand, rfl⟩ := List.mem_map.mp hnew
        refine ⟨entry.task.fd, hheld, fun target htarget ↦ ?_⟩
        change command.target = some target at htarget
        rcases target_of_byWorker
          (byWorker_execute env entry.task pipeline.db command hcommand) with hnone | hsame
        · rw [hnone] at htarget
          cases htarget
        · exact Option.some.inj (htarget.symm.trans hsame)
    · rcases List.mem_append.mp hexecution with hold | hnew
      · exact hexecuted execution hold
      · rw [List.mem_singleton.mp hnew]
        exact hheld
  | push queued rest htodo =>
    have hsame : (pipeline.pushed queued rest).queued ++ (pipeline.pushed queued rest).todo =
        pipeline.queued ++ pipeline.todo := by
      rw [htodo]
      exact List.append_assoc _ _ _
    exact ⟨hsame ▸ hcommands, htasks', hexecuted⟩

end Pipeline

/-- In every state reached what is under way carries the descriptors of its connections. -/
theorem placed_of_reachable [LinearOrder Bytes] {condition : ServerState → ServerLabel → Prop}
    {state : ServerState} (hreach : chatServer.ReachableUnder condition state) :
    state.pipeline.Placed :=
  pipeline_induction Pipeline.placed_start
    (fun _ _ _ hreach hplaced _ hstep ↦ hplaced.step (owned_of_reachable hreach) hstep) hreach

end ChatServer
