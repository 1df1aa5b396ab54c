import ChatServer.Server.Ownership

/-!
# Broadcasts arrive in the order of their commits

The one worker commits messages one after the other and queues the broadcast of each before it takes
the next task; the queue keeps its order; and a broadcast appends at most once to each connection.
So what a connection was sent, followed by what is still on the way, is a subsequence of the
committed messages: `Pipeline.Ordered`. Their ids ascend, and `list_room_messages` reports by
ascending id, so every connection sees the order that the history of the room shows
(`broadcasts_follow_history`).
-/

set_option autoImplicit false
set_option relaxedAutoImplicit false

namespace ChatServer

/-- Two ascending lists agree on the order of what they have in common. -/
theorem filter_mem_comm {first second : List Int} (hfirst : first.Pairwise (· < ·))
    (hsecond : second.Pairwise (· < ·)) :
    first.filter (fun id ↦ decide (id ∈ second)) = second.filter fun id ↦ decide (id ∈ first) := by
  refine List.Pairwise.eq_of_mem_iff (hfirst.filter _) (hsecond.filter _) fun id ↦ ?_
  simp only [List.mem_filter, decide_eq_true_eq]
  exact and_comm

/-! ### Messages under way -/

/-- The messages that queued commands report. -/
def reported (queue : List Queued) : List Message :=
  queue.filterMap Queued.message

theorem reported_append (first second : List Queued) :
    reported (first ++ second) = reported first ++ reported second :=
  List.filterMap_append

theorem reported_of_quiet {queue : List Queued} (hqueue : ∀ queued ∈ queue, queued.message = none) :
    reported queue = [] :=
  List.filterMap_eq_nil_iff.mpr hqueue

/-- A command reports a message exactly when it broadcasts in its room the text that was posted,
of which the row has what PostgreSQL read. -/
def Queued.Reports (queued : Queued) : Prop :=
  match queued.command with
  | .roomBroadcast _ roomId cmd => ∃ message, queued.message = some message ∧
      message.row.roomId = roomId ∧
      ∃ body, cmd = .cmdResponse body ∧ message.row.body = sqlText body
  | _ => queued.message = none

theorem Queued.message_of_not_relevant {command : RegistryCommand}
    (hcommand : command.relevant = false) (entry : TaskEntry) (db : Database Bytes) :
    (queuedOf entry db command).message = none := by
  cases command <;> first | rfl | cases hcommand

/-- Only the relevant commands of a task report messages. -/
theorem reported_map_queuedOf (entry : TaskEntry) (db : Database Bytes)
    (commands : List RegistryCommand) :
    reported (commands.map (queuedOf entry db)) =
      reported ((commands.filter RegistryCommand.relevant).map (queuedOf entry db)) := by
  unfold reported
  rw [List.filterMap_map, List.filterMap_map, List.filterMap_filter]
  refine List.filterMap_congr fun command _ ↦ ?_
  cases hrelevant : command.relevant with
  | true => rfl
  | false => exact Queued.message_of_not_relevant hrelevant entry db

/-- The message that a broadcast reports: its row, and the members of its room at the commit. -/
def messageOf (db : Database Bytes) (row : MessageRow Bytes) : Message where
  row := row
  members := (db.roomMembers.filter fun member ↦ decide (member.roomId = row.roomId)).map
    RoomMemberRow.userId

theorem lastMessage_committed (db : Database Bytes) (row : MessageRow Bytes) (nextMessageId : Int) :
    lastMessage { db with
      messages := db.messages ++ [row], nextMessageId := nextMessageId } =
        some (messageOf db row) := by
  simp [lastMessage, messageOf]

theorem mem_members_messageOf {db : Database Bytes} {row : MessageRow Bytes} {userId : Bytes} :
    userId ∈ (messageOf db row).members ↔ db.IsMember row.roomId userId := by
  simp only [messageOf, List.mem_map, List.mem_filter, decide_eq_true_eq]
  constructor
  · rintro ⟨member, ⟨hmember, hroom⟩, rfl⟩
    exact ⟨member, hmember, Prod.ext hroom rfl⟩
  · rintro ⟨member, hmember, hkey⟩
    obtain ⟨hroom, huser⟩ := Prod.mk.inj hkey
    exact ⟨member, ⟨hmember, hroom⟩, huser⟩

section Worker

variable [LinearOrder Bytes] (env : DbEnv) (entry : TaskEntry) (db : Database Bytes)

/-- What a task commits, it reports in one broadcast; a task that commits nothing reports nothing.
-/
theorem reported_execute :
    let executed := DbExecutor.execute env entry.task db
    let todo := executed.2.map (queuedOf entry executed.1)
    (∀ queued ∈ todo, queued.Reports) ∧
    ((∃ row : MessageRow Bytes, db.nextMessageId ≤ row.id ∧
        executed.1 = { db with
          messages := db.messages ++ [row], nextMessageId := row.id + 1 } ∧
        reported todo = [messageOf db row]) ∨
      (executed.1.messages.Sublist db.messages ∧ executed.1.nextMessageId = db.nextMessageId ∧
        reported todo = [])) := by
  intro executed todo
  have hreported : reported todo =
      reported ((relevantOf executed).map (queuedOf entry executed.1)) :=
    reported_map_queuedOf entry executed.1 executed.2
  have hrelevant : ∀ fd roomId cmd, .roomBroadcast fd roomId cmd ∈ executed.2 →
      .roomBroadcast fd roomId cmd ∈ relevantOf executed :=
    fun fd roomId cmd hmem ↦ List.mem_filter.mpr ⟨hmem, rfl⟩
  rcases (@executes_execute _ env entry.task db).committed with
    ⟨row, message, hid, -, hbody, hnext, hcommands⟩ | ⟨hmessages, hnext, hnone⟩
  · have hlast : lastMessage executed.1 = some (messageOf db row) := by
      rw [show executed.1 = _ from hnext]
      exact lastMessage_committed db row _
    refine ⟨fun queued hqueued ↦ ?_, Or.inl ⟨row, hid, hnext, ?_⟩⟩
    · obtain ⟨command, hmem, rfl⟩ := List.mem_map.mp hqueued
      cases command with
      | roomBroadcast fd roomId cmd =>
        have hsame := hrelevant fd roomId cmd hmem
        rw [show relevantOf executed = _ from hcommands, List.mem_singleton] at hsame
        obtain ⟨-, rfl, rfl⟩ := RegistryCommand.roomBroadcast.inj hsame
        exact ⟨messageOf db row, hlast, rfl, message, rfl, hbody⟩
      | _ => exact rfl
    · rw [hreported, show relevantOf executed = _ from hcommands]
      simp [reported, queuedOf, hlast]
  · refine ⟨fun queued hqueued ↦ ?_, Or.inr ⟨hmessages, hnext, ?_⟩⟩
    · obtain ⟨command, hmem, rfl⟩ := List.mem_map.mp hqueued
      cases command with
      | roomBroadcast fd roomId cmd =>
        exact absurd (hrelevant fd roomId cmd hmem) (hnone fd roomId cmd)
      | _ => exact rfl
    · rw [hreported]
      refine reported_of_quiet fun queued hqueued ↦ ?_
      obtain ⟨command, hmem, rfl⟩ := List.mem_map.mp hqueued
      cases command with
      | roomBroadcast fd roomId cmd => exact absurd hmem (hnone fd roomId cmd)
      | _ => exact rfl

end Worker

/-! ### Broadcasts delivered -/

/-- The messages delivered to a connection. -/
def Ledger.messagesOf (ledger : Ledger) (conn : Nat) : List Message :=
  (ledger.deliveriesOf conn).map Delivery.message

theorem length_le_one_of_nodup {Elem Key : Type} {key : Elem → Key} {list : List Elem}
    (hnodup : (list.map key).Nodup)
    (hsame : ∀ first ∈ list, ∀ second ∈ list, key first = key second) : list.length ≤ 1 := by
  rcases list with _ | ⟨first, _ | ⟨second, rest⟩⟩
  · exact Nat.zero_le 1
  · exact Nat.le_refl 1
  · have heq := hsame first (by simp) second (by simp)
    simp [heq] at hnodup

namespace Pipeline

variable {pipeline : Pipeline}

/-- Handling a command delivers the message it reports at most once to each connection, and no
other. -/
theorem delivered_sublist (howned : pipeline.Owned) (env : HandlerEnv) {queued : Queued}
    (hreports : queued.Reports) (conn : Nat) :
    (((delivered pipeline.kernel queued
        (pipeline.registry.handleCommand env queued.command).2).filter fun delivery ↦
          decide (delivery.conn = some conn)).map Delivery.message).Sublist
      queued.message.toList := by
  cases hmessage : queued.message with
  | none =>
    rw [delivered, hmessage]
    exact List.Sublist.refl _
  | some message =>
    obtain ⟨fd, roomId, cmd, hcommand⟩ :
        ∃ fd roomId cmd, queued.command = .roomBroadcast fd roomId cmd := by
      unfold Queued.Reports at hreports
      split at hreports
      · next fd roomId cmd hcommand => exact ⟨fd, roomId, cmd, hcommand⟩
      · rw [hmessage] at hreports
        cases hreports
    rw [delivered, hmessage, hcommand]
    dsimp only
    have hnodup := @EpollRegistry.nodup_recipients_handleRoomBroadcast pipeline.registry env
      howned.consistent fd roomId cmd
    have heffects : (pipeline.registry.handleCommand env (.roomBroadcast fd roomId cmd)).2 =
        (pipeline.registry.handleRoomBroadcast env fd roomId cmd).2 := rfl
    rw [heffects]
    generalize recipients (pipeline.registry.handleRoomBroadcast env fd roomId cmd).2 = targets at *
    rw [List.filter_map, List.map_map]
    have hlength : (targets.filter ((fun delivery : Delivery ↦
        decide (delivery.conn = some conn)) ∘ fun recipient ↦
          { conn := pipeline.kernel.conn recipient.1, userId := recipient.2
            message := message })).length ≤ 1 := by
      refine length_le_one_of_nodup (hnodup.sublist (List.filter_sublist.map Prod.fst)) ?_
      intro first hfirst second hsecond
      simp only [List.mem_filter, Function.comp_apply, decide_eq_true_eq] at hfirst hsecond
      exact howned.injective first.1 second.1 conn hfirst.2 hsecond.2
    generalize targets.filter _ = kept at hlength
    rcases kept with _ | ⟨first, _ | ⟨second, rest⟩⟩
    · exact List.nil_sublist _
    · exact List.Sublist.refl _
    · simp at hlength

/-- Each connection was sent, and will be sent, a subsequence of the committed messages, whose ids
ascend; the messages stored are committed ones. -/
structure Ordered (pipeline : Pipeline) : Prop where
  reports : ∀ queued ∈ pipeline.queued ++ pipeline.todo, queued.Reports
  ascending : pipeline.ledger.committed.Pairwise fun first second ↦ first.row.id < second.row.id
  bound : ∀ message ∈ pipeline.ledger.committed, message.row.id < pipeline.db.nextMessageId
  stored : pipeline.db.messages.Sublist (pipeline.ledger.committed.map Message.row)
  sent : ∀ conn, (pipeline.ledger.messagesOf conn ++
    reported (pipeline.queued ++ pipeline.todo)).Sublist pipeline.ledger.committed

theorem Ordered.registering (hordered : pipeline.Ordered) (fd : Int) (conn : Nat) :
    (pipeline.registering fd conn).Ordered := by
  refine ⟨fun queued hqueued ↦ ?_, hordered.ascending, hordered.bound, hordered.stored,
    fun other ↦ ?_⟩
  · simp only [Pipeline.registering, List.mem_append, List.mem_singleton] at hqueued
    rcases hqueued with (hold | rfl) | hold
    · exact hordered.reports queued (List.mem_append_left _ hold)
    · exact rfl
    · exact hordered.reports queued (List.mem_append_right _ hold)
  · have hsame : reported ((pipeline.registering fd conn).queued ++
        (pipeline.registering fd conn).todo) = reported (pipeline.queued ++ pipeline.todo) := by
      simp [reported, Pipeline.registering]
    rw [hsame]
    exact hordered.sent other

theorem Ordered.handled (hordered : pipeline.Ordered) (howned : pipeline.Owned)
    (env : HandlerEnv) {queued : Queued} {rest : List Queued}
    (hqueued : pipeline.queued = queued :: rest) : (pipeline.handled env queued rest).Ordered := by
  have hmem : ∀ other ∈ rest ++ pipeline.todo, other ∈ pipeline.queued ++ pipeline.todo := by
    intro other hother
    rw [hqueued, List.cons_append]
    exact List.mem_cons_of_mem _ hother
  refine ⟨fun other hother ↦ hordered.reports other (hmem other hother), hordered.ascending,
    hordered.bound, hordered.stored, fun conn ↦ ?_⟩
  have hreports : queued.Reports := by
    refine hordered.reports queued ?_
    rw [hqueued]
    exact List.mem_append_left _ List.mem_cons_self
  have hmessages : (pipeline.handled env queued rest).ledger.messagesOf conn =
      pipeline.ledger.messagesOf conn ++ ((delivered pipeline.kernel queued
        (pipeline.registry.handleCommand env queued.command).2).filter fun delivery ↦
          decide (delivery.conn = some conn)).map Delivery.message := by
    unfold Ledger.messagesOf Ledger.deliveriesOf Pipeline.handled
    rw [List.filter_append, List.map_append]
  have hreported : reported (pipeline.queued ++ pipeline.todo) =
      queued.message.toList ++ reported (rest ++ pipeline.todo) := by
    rw [hqueued, List.cons_append, reported, List.filterMap_cons]
    cases queued.message <;> rfl
  have hsent := hordered.sent conn
  rw [hreported] at hsent
  rw [hmessages, List.append_assoc]
  exact (((delivered_sublist howned env hreports conn).append_right _).append_left _).trans hsent

theorem Ordered.dispatched (hordered : pipeline.Ordered) {fd : Int} {si : SocketInfo}
    {result : Dispatched} (hresult : Dispatches si result) :
    (pipeline.dispatched fd si result).Ordered := by
  have hquiet : ∀ queued ∈ result.requests.map fun command ↦
      ({ command := command, conn := pipeline.kernel.connOf fd } : Queued),
      queued.Reports ∧ queued.message = none := by
    intro queued hqueued
    obtain ⟨command, hcommand, rfl⟩ := List.mem_map.mp hqueued
    rcases hresult.requests command hcommand with rfl | ⟨message, rfl⟩ <;> exact ⟨rfl, rfl⟩
  refine ⟨fun queued hqueued ↦ ?_, hordered.ascending, hordered.bound, hordered.stored,
    fun conn ↦ ?_⟩
  · rcases List.mem_append.mp hqueued with hmem | hmem
    · rcases List.mem_append.mp hmem with hold | hnew
      · exact hordered.reports queued (List.mem_append_left _ hold)
      · exact (hquiet queued hnew).1
    · exact hordered.reports queued (List.mem_append_right _ hmem)
  · have hsame : reported ((pipeline.dispatched fd si result).queued ++
        (pipeline.dispatched fd si result).todo) =
          reported (pipeline.queued ++ pipeline.todo) := by
      have hnone := reported_of_quiet fun queued hqueued ↦ (hquiet queued hqueued).2
      unfold Pipeline.dispatched
      dsimp only
      rw [reported_append, reported_append, hnone, List.append_nil, ← reported_append]
    rw [hsame]
    exact hordered.sent conn

theorem Ordered.taken [LinearOrder Bytes] (hordered : pipeline.Ordered) (env : DbEnv)
    (entry : TaskEntry) (rest : List TaskEntry) (htodo : pipeline.todo = []) :
    (pipeline.taken env entry rest).Ordered := by
  obtain ⟨hreports, hcases⟩ := reported_execute env entry pipeline.db
  have hall : ∀ queued ∈ (pipeline.taken env entry rest).queued ++
      (pipeline.taken env entry rest).todo, queued.Reports := by
    intro queued hqueued
    rcases List.mem_append.mp hqueued with hold | hnew
    · exact hordered.reports queued (List.mem_append_left _ hold)
    · exact hreports queued hnew
  have hsent : ∀ conn, (pipeline.ledger.messagesOf conn ++ reported pipeline.queued).Sublist
      pipeline.ledger.committed := by
    intro conn
    have hbefore := hordered.sent conn
    rwa [htodo, List.append_nil] at hbefore
  rcases hcases with ⟨row, hid, hnext, hreported⟩ | ⟨hmessages, hnext, hreported⟩
  · -- a message was committed
    have hcommitted : (pipeline.taken env entry rest).ledger.committed =
        pipeline.ledger.committed ++ [messageOf pipeline.db row] := by
      unfold Pipeline.taken
      dsimp only
      rw [hnext]
      simp [lastMessage, messageOf]
    refine ⟨hall, ?_, fun message hmessage ↦ ?_, ?_, fun conn ↦ ?_⟩
    · rw [hcommitted, List.pairwise_append]
      refine ⟨hordered.ascending, List.pairwise_singleton _ _, fun message hmessage new hnew ↦ ?_⟩
      rw [List.mem_singleton.mp hnew]
      exact lt_of_lt_of_le (hordered.bound message hmessage) hid
    · show message.row.id < (DbExecutor.execute env entry.task pipeline.db).1.nextMessageId
      rw [hnext]
      show message.row.id < row.id + 1
      rw [hcommitted, List.mem_append, List.mem_singleton] at hmessage
      rcases hmessage with hold | rfl
      · have := hordered.bound message hold
        omega
      · exact Int.lt_succ _
    · show (DbExecutor.execute env entry.task pipeline.db).1.messages.Sublist _
      rw [hnext, hcommitted, List.map_append]
      exact hordered.stored.append (List.Sublist.refl _)
    · have htodo' : reported (pipeline.taken env entry rest).todo = [messageOf pipeline.db row] :=
        hreported
      show (pipeline.ledger.messagesOf conn ++ reported (pipeline.queued ++ _)).Sublist _
      rw [hcommitted, reported_append, htodo', ← List.append_assoc]
      exact (hsent conn).append (List.Sublist.refl _)
  · -- no message was committed
    have hcommitted : (pipeline.taken env entry rest).ledger.committed =
        pipeline.ledger.committed := by
      unfold Pipeline.taken
      dsimp only
      rw [List.drop_eq_nil_of_le hmessages.length_le, if_pos rfl, Option.toList_none,
        List.append_nil]
    refine ⟨hall, hcommitted ▸ hordered.ascending, fun message hmessage ↦ ?_, ?_, fun conn ↦ ?_⟩
    · show message.row.id < (DbExecutor.execute env entry.task pipeline.db).1.nextMessageId
      rw [hnext]
      exact hordered.bound message (hcommitted ▸ hmessage)
    · rw [hcommitted]
      exact hmessages.trans hordered.stored
    · have htodo' : reported (pipeline.taken env entry rest).todo = [] := hreported
      show (pipeline.ledger.messagesOf conn ++ reported (pipeline.queued ++ _)).Sublist _
      rw [hcommitted, reported_append, htodo', List.append_nil]
      exact hsent conn

theorem Ordered.pushed (hordered : pipeline.Ordered) {queued : Queued} {rest : List Queued}
    (htodo : pipeline.todo = queued :: rest) : (pipeline.pushed queued rest).Ordered := by
  have hsame : (pipeline.pushed queued rest).queued ++ (pipeline.pushed queued rest).todo =
      pipeline.queued ++ pipeline.todo := by
    rw [htodo]
    exact List.append_assoc _ _ _
  exact ⟨hsame ▸ hordered.reports, hordered.ascending, hordered.bound, hordered.stored,
    hsame ▸ hordered.sent⟩

theorem ordered_start : ServerState.start.pipeline.Ordered where
  reports := by
    simp [ServerState.pipeline, ServerState.start, ServerState.queued, ServerState.pending,
      ServerState.todo]
  ascending := List.Pairwise.nil
  bound := by simp [ServerState.pipeline, ServerState.start]
  stored := List.Sublist.refl _
  sent _ := List.Sublist.refl _

end Pipeline

/-- In every state reached the broadcasts follow the commits. -/
theorem ordered_of_reachable [LinearOrder Bytes] {state : ServerState}
    (hreach : chatServer.Reachable state) : state.pipeline.Ordered := by
  refine pipeline_induction Pipeline.ordered_start ?_ hreach
  intro state label next hreach hordered _ hstep
  cases hstep with
  | accept fd hfd hclosed hidle =>
    exact ⟨hordered.reports, hordered.ascending, hordered.bound, hordered.stored, hordered.sent⟩
  | register fd conn hacceptor => exact hordered.registering fd conn
  | handle env queued rest hqueued =>
    exact hordered.handled (owned_of_reachable hreach) env hqueued
  | dispatch env fd si result hinfo hresult => exact hordered.dispatched hresult
  | take env entry rest htodo htasks => exact hordered.taken env entry rest htodo
  | push queued rest htodo => exact hordered.pushed htodo

/-! ### What connections see -/

/-- The committed messages of a room. -/
def Ledger.committedIn (ledger : Ledger) (roomId : Int) : List Message :=
  ledger.committed.filter fun message ↦ decide (message.row.roomId = roomId)

/-- The messages of a room delivered to a connection. -/
def Ledger.deliveredIn (ledger : Ledger) (conn : Nat) (roomId : Int) : List Message :=
  (ledger.messagesOf conn).filter fun message ↦ decide (message.row.roomId = roomId)

/-- The ids of messages. -/
def idsOf (messages : List Message) : List Int :=
  messages.map fun message ↦ message.row.id

namespace Pipeline.Ordered

variable {pipeline : Pipeline}

theorem deliveredIn_sublist (hordered : pipeline.Ordered) (conn : Nat) (roomId : Int) :
    (pipeline.ledger.deliveredIn conn roomId).Sublist (pipeline.ledger.committedIn roomId) :=
  (((List.sublist_append_left _ _).trans (hordered.sent conn)).filter _)

theorem pairwise_deliveredIn (hordered : pipeline.Ordered) (conn : Nat) (roomId : Int) :
    (idsOf (pipeline.ledger.deliveredIn conn roomId)).Pairwise (· < ·) := by
  rw [idsOf, List.pairwise_map]
  exact (hordered.ascending.filter _).sublist (hordered.deliveredIn_sublist conn roomId)

theorem messagesKey (hordered : pipeline.Ordered) :
    Table.KeyUnique MessageRow.id pipeline.db.messages := by
  have hids : (pipeline.db.messages.map MessageRow.id).Pairwise (· < ·) := by
    refine List.Pairwise.sublist (hordered.stored.map MessageRow.id) ?_
    rw [List.pairwise_map, List.pairwise_map]
    exact hordered.ascending
  exact hids.imp fun hlt ↦ ne_of_lt hlt

end Pipeline.Ordered

/-- In every state reached: a queued room broadcast reports a message of its room; what the
broadcasts of a room appended to a connection is a subsequence of the committed messages of the
room, by ascending id, each at most once; two connections see the messages they both received in the
same order; and this is the order in which the history reports them. -/
theorem broadcasts_follow_history [LinearOrder Bytes] {state : ServerState}
    (hreach : chatServer.Reachable state) :
    (∀ queued ∈ state.queued, queued.Reports) ∧
    (∀ conn roomId,
      (state.ledger.deliveredIn conn roomId).Sublist (state.ledger.committedIn roomId) ∧
      (idsOf (state.ledger.deliveredIn conn roomId)).Pairwise (· < ·)) ∧
    (∀ conn other roomId,
      let first := idsOf (state.ledger.deliveredIn conn roomId)
      let second := idsOf (state.ledger.deliveredIn other roomId)
      first.filter (fun id ↦ decide (id ∈ second)) =
        second.filter fun id ↦ decide (id ∈ first)) ∧
    (∀ conn userId roomId limit history,
      DbService.listRoomMessages userId roomId limit state.db = some history →
      let seen := idsOf (state.ledger.deliveredIn conn roomId)
      let listed := history.map MessageInfo.id
      seen.filter (fun id ↦ decide (id ∈ listed)) =
        listed.filter fun id ↦ decide (id ∈ seen)) := by
  have hordered := ordered_of_reachable hreach
  refine ⟨fun queued hqueued ↦ hordered.reports queued (List.mem_append_left _ hqueued),
    fun conn roomId ↦ ⟨hordered.deliveredIn_sublist conn roomId,
      hordered.pairwise_deliveredIn conn roomId⟩,
    fun conn other roomId ↦ filter_mem_comm (hordered.pairwise_deliveredIn conn roomId)
      (hordered.pairwise_deliveredIn other roomId),
    fun conn userId roomId limit history hhistory ↦
      filter_mem_comm (hordered.pairwise_deliveredIn conn roomId) ?_⟩
  exact pairwise_listRoomMessages hordered.messagesKey hhistory

/-- A client registers, logs in, creates a room and says two things in it. -/
def saying : List ServerLabel :=
  connecting 5 ++ round [] 1 [] ++
    sending 5 [.cmdRegister (text "a") (text "p"), .cmdLogin (text "a") (text "p")] ++
    executing 1 ++ executing 4 ++ round [] 5 [] ++
    sending 5 [.cmdCreateRoom (text "r")] ++ executing 2 ++ round [] 2 [] ++
    sending 5 [.cmdSay (text "1") (text "x"), .cmdSay (text "1") (text "y")] ++
    executing 1 ++ executing 1 ++ round [] 2 []

theorem broadcasts_follow_history_saying :
    ∃ state, (@chatServer bytewise).run ServerState.start saying = some state ∧
      idsOf (state.ledger.deliveredIn 0 1) = [1, 2] ∧
      (state.ledger.deliveredIn 0 1).Sublist (state.ledger.committedIn 1) := by
  let order := bytewise
  have hrun : ((chatServer.run ServerState.start saying).map fun state ↦
      idsOf (state.ledger.deliveredIn 0 1)) = some [1, 2] := by decide +kernel
  obtain ⟨state, hstate, hids⟩ := Option.map_eq_some_iff.mp hrun
  exact ⟨state, hstate, hids, ((broadcasts_follow_history (.of_run hstate)).2.1 0 1).1⟩

end ChatServer
