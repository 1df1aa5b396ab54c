import ChatServer.Server.Pipeline

/-!
# Who owns a descriptor

Every open descriptor has one owner: the registry, a queued registration, or the acceptor.
`Pipeline.Owned` is this, together with the interest set of the event loop staying among the
registered descriptors. It holds in every reachable state (`owned_of_reachable`), so a queued
registration never finds its descriptor registered.

`registeredAt` is the connection registered at a descriptor; the lemmas on it say that only the
handling of a command changes it, and how.
-/

set_option autoImplicit false
set_option relaxedAutoImplicit false

namespace ChatServer

namespace Pipeline

/-- The descriptors under way to the registry, with their connections. -/
def owners (pipeline : Pipeline) : List (Int × Nat) :=
  (pipeline.queued.filterMap fun queued ↦
    queued.command.registers.map fun fd ↦ (fd, queued.conn)) ++ pipeline.acceptor.toList

/-- Every descriptor in use is open and has one owner. -/
structure Owned (pipeline : Pipeline) : Prop where
  consistent : pipeline.registry.Consistent
  registered : ∀ fd ∈ pipeline.registry.infos, ∃ conn, pipeline.kernel.conn fd = some conn
  interest : ∀ fd, fd ∈ pipeline.kernel.interest → fd ∈ pipeline.registry.infos
  nodup : (pipeline.owners.map Prod.fst).Nodup
  owned : ∀ owner ∈ pipeline.owners,
    pipeline.kernel.conn owner.1 = some owner.2 ∧ owner.1 ∉ pipeline.registry.infos
  nonneg : ∀ fd conn, pipeline.kernel.conn fd = some conn → 0 ≤ fd
  serial : ∀ fd conn, pipeline.kernel.conn fd = some conn → conn < pipeline.kernel.nextConn
  injective : ∀ fd other conn, pipeline.kernel.conn fd = some conn →
    pipeline.kernel.conn other = some conn → fd = other
  todo : ∀ queued ∈ pipeline.todo, ∃ fd, queued.command.ByWorker fd

variable {pipeline : Pipeline}

theorem registers_of_byWorker {command : RegistryCommand} {fd : Int}
    (hcommand : command.ByWorker fd) : command.registers = none := by
  cases command <;> first | rfl | exact hcommand.elim

/-! ### Each step -/

theorem conn_accepted (fd other : Int) :
    (pipeline.accepted fd).kernel.conn other =
      if other = fd then some pipeline.kernel.nextConn else pipeline.kernel.conn other := by
  unfold accepted Kernel.conn
  by_cases hsame : other = fd
  · rw [if_pos hsame, hsame]
    exact Finmap.lookup_insert _
  · rw [if_neg hsame]
    exact Finmap.lookup_insert_of_ne _ hsame

theorem conn_eq_none {kernel : Kernel} {fd : Int} : kernel.conn fd = none ↔ fd ∉ kernel.sockets :=
  Finmap.lookup_eq_none

theorem owners_accepted (fd : Int) (hidle : pipeline.acceptor = none) :
    (pipeline.accepted fd).owners = pipeline.owners ++ [(fd, pipeline.kernel.nextConn)] := by
  simp [owners, Pipeline.accepted, hidle]

theorem Owned.accepted (howned : pipeline.Owned) {fd : Int} (hfd : 0 ≤ fd)
    (hclosed : fd ∉ pipeline.kernel.sockets) (hidle : pipeline.acceptor = none) :
    (pipeline.accepted fd).Owned := by
  have hnone : pipeline.kernel.conn fd = none := conn_eq_none.mpr hclosed
  have hne : ∀ other conn, pipeline.kernel.conn other = some conn → other ≠ fd := by
    rintro other conn hconn rfl
    rw [hnone] at hconn
    cases hconn
  refine ⟨howned.consistent, fun other hother ↦ ?_, howned.interest, ?_, fun owner howner ↦ ?_,
    fun other conn hconn ↦ ?_, fun other conn hconn ↦ ?_, fun first second conn hfirst hsecond ↦ ?_,
    howned.todo⟩
  · obtain ⟨conn, hconn⟩ := howned.registered other hother
    exact ⟨conn, by rw [conn_accepted, if_neg (hne other conn hconn), hconn]⟩
  · rw [owners_accepted fd hidle, List.map_append, List.nodup_append]
    refine ⟨howned.nodup, List.nodup_singleton _, fun other hother new hnew ↦ ?_⟩
    obtain ⟨owner, howner, rfl⟩ := List.mem_map.mp hother
    rw [List.map_singleton, List.mem_singleton] at hnew
    rw [hnew]
    exact hne owner.1 owner.2 (howned.owned owner howner).1
  · rw [owners_accepted fd hidle, List.mem_append, List.mem_singleton] at howner
    rw [conn_accepted]
    rcases howner with hold | rfl
    · obtain ⟨hconn, hfresh⟩ := howned.owned owner hold
      rw [if_neg (hne _ _ hconn)]
      exact ⟨hconn, hfresh⟩
    · rw [if_pos rfl]
      refine ⟨rfl, fun hmem ↦ ?_⟩
      obtain ⟨conn, hconn⟩ := howned.registered fd hmem
      exact hne fd conn hconn rfl
  · rw [conn_accepted] at hconn
    split_ifs at hconn with hsame
    · exact hsame ▸ hfd
    · exact howned.nonneg other conn hconn
  · rw [conn_accepted] at hconn
    show conn < pipeline.kernel.nextConn + 1
    split_ifs at hconn with hsame
    · rw [Option.some.injEq] at hconn
      omega
    · exact Nat.lt_succ_of_lt (howned.serial other conn hconn)
  · rw [conn_accepted] at hfirst hsecond
    split_ifs at hfirst hsecond with hone htwo htwo
    · rw [hone, htwo]
    · have := howned.serial second conn hsecond
      rw [Option.some.injEq] at hfirst
      omega
    · have := howned.serial first conn hfirst
      rw [Option.some.injEq] at hsecond
      omega
    · exact howned.injective first second conn hfirst hsecond

theorem owners_registering {fd : Int} {conn : Nat}
    (hacceptor : pipeline.acceptor = some (fd, conn)) :
    (pipeline.registering fd conn).owners = pipeline.owners := by
  simp [owners, Pipeline.registering, RegistryCommand.registers, hacceptor]

theorem Owned.registering (howned : pipeline.Owned) {fd : Int} {conn : Nat}
    (hacceptor : pipeline.acceptor = some (fd, conn)) : (pipeline.registering fd conn).Owned := by
  have howners := owners_registering hacceptor
  exact { howned with
    nodup := howners ▸ howned.nodup
    owned := howners ▸ howned.owned }

/-- A queued registration is an owner. -/
theorem Owned.register_fresh (howned : pipeline.Owned) {queued : Queued}
    (hmem : queued ∈ pipeline.queued) {fd : Int} (hregisters : queued.command.registers = some fd) :
    pipeline.kernel.conn fd = some queued.conn ∧ fd ∉ pipeline.registry.infos := by
  have howner : (fd, queued.conn) ∈ pipeline.owners := by
    refine List.mem_append_left _ (List.mem_filterMap.mpr ⟨queued, hmem, ?_⟩)
    rw [hregisters, Option.map_some]
  exact howned.owned (fd, queued.conn) howner

/-- The handling of the first queued command is one that `Handles` describes. -/
theorem Owned.handles (howned : pipeline.Owned) (env : HandlerEnv) {queued : Queued}
    {rest : List Queued} (hqueued : pipeline.queued = queued :: rest) :
    Handles queued.command pipeline.kernel (pipeline.handled env queued rest).kernel
      pipeline.registry (pipeline.handled env queued rest).registry := by
  have hmem : queued ∈ pipeline.queued := hqueued ▸ List.mem_cons_self
  cases hregisters : queued.command.registers with
  | none => exact handles_of_evolves howned.consistent howned.interest env hregisters
  | some fd =>
    obtain ⟨interest, hcommand⟩ := RegistryCommand.registers_eq_some.mp hregisters
    obtain ⟨hconn, hfresh⟩ := howned.register_fresh hmem hregisters
    have hfd : fd ≠ -1 := by
      have := howned.nonneg fd _ hconn
      omega
    unfold Pipeline.handled
    dsimp only
    rw [hcommand]
    exact handles_register howned.consistent howned.interest env hfd hfresh interest

theorem owners_handled (env : HandlerEnv) {queued : Queued} {rest : List Queued}
    (hqueued : pipeline.queued = queued :: rest) :
    pipeline.owners = (queued.command.registers.map fun fd ↦ (fd, queued.conn)).toList ++
      (pipeline.handled env queued rest).owners := by
  rw [owners, hqueued, List.filterMap_cons]
  cases queued.command.registers <;> rfl

theorem Owned.handled (howned : pipeline.Owned) (env : HandlerEnv) {queued : Queued}
    {rest : List Queued} (hqueued : pipeline.queued = queued :: rest) :
    (pipeline.handled env queued rest).Owned := by
  have hhandles := howned.handles env hqueued
  have hmem : queued ∈ pipeline.queued := hqueued ▸ List.mem_cons_self
  have howners := owners_handled env hqueued
  have hnodup := howned.nodup
  rw [howners, List.map_append, List.nodup_append] at hnodup
  have hother : ∀ owner ∈ (pipeline.handled env queued rest).owners,
      queued.command.registers ≠ some owner.1 := by
    intro owner howner hregisters
    refine hnodup.2.2 owner.1 ?_ owner.1 (List.mem_map_of_mem howner) rfl
    rw [hregisters]
    exact List.mem_singleton.mpr rfl
  refine ⟨hhandles.consistent, fun fd hfd ↦ ?_, hhandles.interest, hnodup.2.1,
    fun owner howner ↦ ?_,
    fun fd conn hconn ↦ howned.nonneg fd conn (hhandles.closed fd conn hconn),
    fun fd conn hconn ↦ ?_, fun fd other conn hfirst hsecond ↦ ?_, howned.todo⟩
  · rw [hhandles.conn fd hfd]
    rcases hhandles.mem hfd with hold | hregisters
    · exact howned.registered fd hold
    · exact ⟨_, (howned.register_fresh hmem hregisters).1⟩
  · obtain ⟨hconn, hfresh⟩ := howned.owned owner (howners ▸ List.mem_append_right _ howner)
    refine ⟨(hhandles.other owner.1 hfresh (hother owner howner)).trans hconn, fun hinfos ↦ ?_⟩
    rcases hhandles.mem hinfos with hold | hregisters
    · exact hfresh hold
    · exact hother owner howner hregisters
  · rw [hhandles.nextConn]
    exact howned.serial fd conn (hhandles.closed fd conn hconn)
  · exact howned.injective fd other conn (hhandles.closed fd conn hfirst)
      (hhandles.closed other conn hsecond)

theorem mem_infos_dispatched {fd : Int} {si : SocketInfo}
    (hinfo : pipeline.registry.infos.lookup fd = some si) (result : Dispatched) {other : Int} :
    other ∈ (pipeline.dispatched fd si result).registry.infos ↔
      other ∈ pipeline.registry.infos := by
  show other ∈ pipeline.registry.infos.insert fd result.info ↔ _
  rw [Finmap.mem_insert]
  constructor
  · rintro (rfl | hold)
    · exact Finmap.mem_of_lookup_eq_some hinfo
    · exact hold
  · exact Or.inr

theorem registers_of_dispatches {si : SocketInfo} {result : Dispatched}
    (hresult : Dispatches si result) {command : RegistryCommand}
    (hcommand : command ∈ result.requests) : command.registers = none := by
  rcases hresult.requests command hcommand with rfl | ⟨message, rfl⟩
  · rfl
  · rfl

theorem owners_dispatched (fd : Int) {si : SocketInfo} {result : Dispatched}
    (hresult : Dispatches si result) :
    (pipeline.dispatched fd si result).owners = pipeline.owners := by
  have hnone : (result.requests.map fun command ↦
      ({ command := command, conn := pipeline.kernel.connOf fd } : Queued)).filterMap
        (fun queued ↦ queued.command.registers.map fun fd ↦ (fd, queued.conn)) = [] := by
    rw [List.filterMap_map, List.filterMap_eq_nil_iff]
    intro command hcommand
    show command.registers.map _ = none
    rw [registers_of_dispatches hresult hcommand, Option.map_none]
  unfold owners Pipeline.dispatched
  dsimp only
  rw [List.filterMap_append, hnone, List.append_nil]

theorem Owned.dispatched (howned : pipeline.Owned) {fd : Int} {si : SocketInfo}
    {result : Dispatched} (hinfo : pipeline.registry.infos.lookup fd = some si)
    (hresult : Dispatches si result) : (pipeline.dispatched fd si result).Owned := by
  have howners := @owners_dispatched pipeline fd si result hresult
  have hidentity := hresult.identity
  refine ⟨howned.consistent.setInfo hinfo hidentity.ufd hidentity.userId hidentity.joinedRoomIds,
    fun other hother ↦ howned.registered other ((mem_infos_dispatched hinfo result).mp hother),
    fun other hother ↦ (mem_infos_dispatched hinfo result).mpr (howned.interest other hother),
    howners ▸ howned.nodup, fun owner howner ↦ ?_, howned.nonneg, howned.serial,
    howned.injective, howned.todo⟩
  obtain ⟨hconn, hfresh⟩ := howned.owned owner (howners ▸ howner)
  exact ⟨hconn, fun hmem ↦ hfresh ((mem_infos_dispatched hinfo result).mp hmem)⟩

theorem Owned.taken [LinearOrder Bytes] (howned : pipeline.Owned) (env : DbEnv)
    (entry : TaskEntry) (rest : List TaskEntry) : (pipeline.taken env entry rest).Owned := by
  exact { howned with
    todo := by
      intro queued hqueued
      obtain ⟨command, hcommand, rfl⟩ := List.mem_map.mp hqueued
      exact ⟨entry.task.fd, byWorker_execute env entry.task pipeline.db command hcommand⟩ }

theorem Owned.owners_pushed (howned : pipeline.Owned) {queued : Queued} {rest : List Queued}
    (htodo : pipeline.todo = queued :: rest) :
    (pipeline.pushed queued rest).owners = pipeline.owners := by
  obtain ⟨fd, hworker⟩ := howned.todo queued (htodo ▸ List.mem_cons_self)
  simp [owners, Pipeline.pushed, registers_of_byWorker hworker]

theorem Owned.pushed (howned : pipeline.Owned) {queued : Queued} {rest : List Queued}
    (htodo : pipeline.todo = queued :: rest) : (pipeline.pushed queued rest).Owned := by
  have howners := howned.owners_pushed htodo
  exact { howned with
    nodup := howners ▸ howned.nodup
    owned := howners ▸ howned.owned
    todo := fun other hother ↦ howned.todo other (htodo ▸ List.mem_cons_of_mem _ hother) }

theorem owned_start : ServerState.start.pipeline.Owned where
  consistent := EpollRegistry.consistent_empty
  registered _ hfd := absurd hfd Finmap.notMem_empty
  interest := by simp [ServerState.pipeline, ServerState.start]
  nodup := List.nodup_nil
  owned := by
    simp [ServerState.pipeline, ServerState.start, owners, ServerState.queued,
      ServerState.pending]
  nonneg := by simp [ServerState.pipeline, ServerState.start, Kernel.conn]
  serial := by simp [ServerState.pipeline, ServerState.start, Kernel.conn]
  injective := by simp [ServerState.pipeline, ServerState.start, Kernel.conn]
  todo := by simp [ServerState.pipeline, ServerState.start, ServerState.todo]

theorem Owned.step [LinearOrder Bytes] {next : Pipeline} {label : ServerLabel}
    (howned : pipeline.Owned) (hstep : pipeline.Step label next) : next.Owned := by
  cases hstep with
  | accept fd hfd hclosed hidle => exact howned.accepted hfd hclosed hidle
  | register fd conn hacceptor => exact howned.registering hacceptor
  | handle env queued rest hqueued => exact howned.handled env hqueued
  | dispatch env fd si result hinfo hresult => exact howned.dispatched hinfo hresult
  | take env entry rest htodo htasks => exact howned.taken env entry rest
  | push queued rest htodo => exact howned.pushed htodo

end Pipeline

/-- In every state reached every descriptor in use has one owner. -/
theorem owned_of_reachable [LinearOrder Bytes] {condition : ServerState → ServerLabel → Prop}
    {state : ServerState} (hreach : chatServer.ReachableUnder condition state) :
    state.pipeline.Owned :=
  pipeline_induction Pipeline.owned_start (fun _ _ _ _ howned _ hstep ↦ howned.step hstep) hreach

/-! ### The connection registered at a descriptor -/

namespace Pipeline

variable {pipeline : Pipeline}

/-- The connection registered at a descriptor. -/
def registeredAt (pipeline : Pipeline) (fd : Int) : Option Nat :=
  if fd ∈ pipeline.registry.infos then pipeline.kernel.conn fd else none

theorem registeredAt_eq_some {fd : Int} {conn : Nat} :
    pipeline.registeredAt fd = some conn ↔
      fd ∈ pipeline.registry.infos ∧ pipeline.kernel.conn fd = some conn := by
  unfold registeredAt
  split_ifs with hmem
  · simp [hmem]
  · simp [hmem]

theorem registeredAt_accepted (howned : pipeline.Owned) {fd : Int}
    (hclosed : fd ∉ pipeline.kernel.sockets) (other : Int) :
    (pipeline.accepted fd).registeredAt other = pipeline.registeredAt other := by
  have hinfos : (pipeline.accepted fd).registry = pipeline.registry := rfl
  unfold registeredAt
  rw [hinfos, conn_accepted]
  by_cases hmem : other ∈ pipeline.registry.infos
  · obtain ⟨conn, hconn⟩ := howned.registered other hmem
    have hne : other ≠ fd := by
      rintro rfl
      rw [conn_eq_none.mpr hclosed] at hconn
      cases hconn
    rw [if_neg hne]
  · rw [if_neg hmem, if_neg hmem]

/-- Handling a command may end the registration of a descriptor, or begin the one it asks for. -/
theorem registeredAt_handled (howned : pipeline.Owned) (env : HandlerEnv) {queued : Queued}
    {rest : List Queued} (hqueued : pipeline.queued = queued :: rest) (fd : Int) (conn : Nat)
    (hconn : (pipeline.handled env queued rest).registeredAt fd = some conn) :
    pipeline.registeredAt fd = some conn ∨ queued.command.registers = some fd := by
  have hhandles := howned.handles env hqueued
  obtain ⟨hmem, hconn⟩ := registeredAt_eq_some.mp hconn
  rcases hhandles.mem hmem with hold | hregisters
  · exact Or.inl (registeredAt_eq_some.mpr ⟨hold, hhandles.closed fd conn hconn⟩)
  · exact Or.inr hregisters

theorem registeredAt_dispatched {fd : Int} {si : SocketInfo}
    (hinfo : pipeline.registry.infos.lookup fd = some si) (result : Dispatched) (other : Int) :
    (pipeline.dispatched fd si result).registeredAt other = pipeline.registeredAt other :=
  if_congr (mem_infos_dispatched hinfo result) rfl rfl

/-- A callback runs on the connection registered at its descriptor. -/
theorem Owned.registeredAt_connOf (howned : pipeline.Owned) {fd : Int} {si : SocketInfo}
    (hinfo : pipeline.registry.infos.lookup fd = some si) :
    pipeline.registeredAt fd = some (pipeline.kernel.connOf fd) := by
  have hmem := Finmap.mem_of_lookup_eq_some hinfo
  obtain ⟨conn, hconn⟩ := howned.registered fd hmem
  rw [registeredAt_eq_some, Kernel.connOf, hconn]
  exact ⟨hmem, rfl⟩

end Pipeline

end ChatServer
