import ChatServer.Server.Authors
import ChatServer.Server.ExecutedIdentity

/-!
# Login replies and their effects

The worker answers a login with four commands, and the event loop may handle them in any number of
rounds, with the commands of other threads between them. A client that reads `login success` or
`login failed` takes it for done. `RepliesAnnounce` says that it is: when the reply is appended, the
connection has the user it announces, and what is executed afterwards, as long as no other identity
is given to the connection, is executed under this user.

A login that fails on an error of the database queues its reply in front of the command that takes
the user away. In the run `brokenLogin` a client that is logged in reads `login failed` while it
still is. In every run in which such a login finds its connection without a user, the replies
announce what is (`repliesAnnounce_of_loggedOut`).

The commands under way act on the `session` of a descriptor, the connection registered there with
its view, and `Pipeline.Announces` says that every reply of a login under way, as `authoredServer`
records them, will find the session it announces.
-/

set_option autoImplicit false
set_option relaxedAutoImplicit false

namespace ChatServer

/-! ### Replies of a login -/

/-- When the reply of a login is appended to its connection, the user is the one it announces, and
so is the user of every line executed before another identity is given to the connection. -/
def RepliesAnnounce [LinearOrder Bytes] (state : ServerState) (record : List Authored) : Prop :=
  ∀ queued pending events task id pw message si,
    state.phase = .working (queued :: pending) events → record.head? = some (queued, some task) →
    task.cmd = .cmdLogin id pw → queued.command = .sendOne task.fd (.cmdResponse message) →
    state.registry.infos.lookup task.fd = some si →
    state.kernel.conn task.fd = some queued.conn →
      (message = text "login success" → si.userId = id) ∧
      (message = text "login failed" → si.userId = []) ∧
      ∀ labels later, chatServer.run state labels = some later →
        ∀ execution ∈ later.ledger.executed, execution.entry.conn = queued.conn →
          execution.entry.applied = state.ledger.appliedOf queued.conn →
            execution.entry.task.userId = si.userId

/-! ### Sessions -/

/-- The connection registered at a descriptor, with its view. -/
abbrev Session := Nat × View

/-- What a queued command does to the session of a descriptor. -/
def Queued.onSession (fd : Int) (queued : Queued) : Option Session → Option Session
  | none => (queued.command.act fd none).map fun view ↦ (queued.conn, view)
  | some (conn, view) => (queued.command.act fd (some view)).map fun view ↦ (conn, view)

/-- The user that a reply of a login announces. -/
def announcedBy (task : Task) (command : RegistryCommand) : Option Bytes :=
  match task.cmd, command with
  | .cmdLogin id _, .sendOne _ (.cmdResponse message) =>
    if message = text "login success" then some id
    else if message = text "login failed" then some []
    else none
  | _, _ => none

/-- The commands under way as actions on the session of a descriptor: a reply of a login needs the
session of its connection to have the user it announces. -/
def sessionActions (fd : Int) : QueuedActions Authored (Option Session) where
  act authored session := authored.1.onSession fd session
  needs authored session := ∀ task ∈ authored.2, ∀ userId ∈ announcedBy task authored.1.command,
    authored.1.command.target = some fd → ∀ conn view, session = some (conn, view) →
      conn = authored.1.conn → view.1 = userId

namespace Pipeline

/-- The session of a descriptor. -/
def session (pipeline : Pipeline) (fd : Int) : Option Session :=
  (pipeline.registry.view fd).bind fun view ↦
    (pipeline.kernel.conn fd).map fun conn ↦ (conn, view)

/-- The session that a descriptor has once the commands under way are handled. -/
def settledSession (pipeline : Pipeline) (fd : Int) : Option Session :=
  pipeline.underWay.foldl (fun session queued ↦ queued.onSession fd session) (pipeline.session fd)

end Pipeline

/-- A login fails on an error of the database. -/
def loginErrs [LinearOrder Bytes] (env : DbEnv) (task : Task) (db : Database Bytes) : Bool :=
  match task.cmd with
  | .cmdLogin id pw =>
    (env.fails 0).isSome || (DbService.login id pw db).isSome && (env.fails 1).isSome
  | _ => false

/-- A login that fails on an error finds its connection gone or without a user, once the commands
under way are handled. -/
def ErrorsLoggedOut [LinearOrder Bytes] (state : ServerState) (label : ServerLabel) : Prop :=
  match label with
  | .take env => ∀ entry ∈ state.tasks.head?, loginErrs env entry.task state.db = true →
      ∀ session ∈ state.pipeline.settledSession entry.task.fd,
        session.1 = entry.conn → session.2.1 = []
  | _ => True

instance [LinearOrder Bytes] (state : ServerState) (label : ServerLabel) :
    Decidable (ErrorsLoggedOut state label) :=
  match label with
  | .take env => inferInstanceAs (Decidable (∀ entry ∈ state.tasks.head?,
      loginErrs env entry.task state.db = true →
        ∀ session ∈ state.pipeline.settledSession entry.task.fd,
          session.1 = entry.conn → session.2.1 = []))
  | .accept _ | .requestRegister | .epollWait _ | .swap | .handle _ | .workDone | .dispatch _
  | .dispatchDone | .push | .finish => isTrue trivial

/-! ### A login that fails on an error -/

/-- The database calls of a task whose first call fails. -/
def DbEnv.firstFails : DbEnv :=
  { DbEnv.steady with fails := fun n ↦ if n = 0 then some .brokenConnection else none }

/-- A client registers and logs in. -/
def loggedIn : List ServerLabel :=
  connecting 5 ++ round [] 1 [] ++
    sending 5 [.cmdRegister (text "a") (text "p"), .cmdLogin (text "a") (text "p")] ++
    executing 1 ++ executing 4 ++ round [] 5 []

/-- It logs in again while the database cannot be reached, and the reply is the next command to be
handled. -/
def brokenLogin : List ServerLabel :=
  loggedIn ++ sending 5 [.cmdLogin (text "a") (text "p")] ++
    .take .firstFails :: List.replicate 4 .push ++ .finish :: working [] 0

/-- The second login of the client. -/
def secondLogin : Task where
  cmd := .cmdLogin (text "a") (text "p")
  fd := 5
  userId := text "a"

/-- Its reply. -/
def failedReply : Queued where
  command := .sendOne 5 (.cmdResponse (text "login failed"))
  conn := 0

/-- The reply is `login failed`, and the connection is logged in. -/
theorem brokenLogin_announces :
    ∃ state record, (@authoredServer bytewise).run (@authoredServer bytewise).start brokenLogin =
        some (state, record) ∧ ¬ @RepliesAnnounce bytewise state record := by
  let order := bytewise
  have hrun : ((authoredServer.run authoredServer.start brokenLogin).map fun state ↦
      decide (state.1.pending.head? = some failedReply ∧
        state.2.head? = some (failedReply, some secondLogin) ∧
        (state.1.registry.infos.lookup 5).map SocketInfo.userId = some (text "a") ∧
        state.1.kernel.conn 5 = some 0)) = some true := by decide +kernel
  obtain ⟨⟨state, record⟩, hstate, hfacts⟩ := Option.map_eq_some_iff.mp hrun
  obtain ⟨hpending, hrecord, huser, hconn⟩ := of_decide_eq_true hfacts
  refine ⟨state, record, hstate, fun hannounces ↦ ?_⟩
  obtain ⟨si, hinfo, hsi⟩ := Option.map_eq_some_iff.mp huser
  obtain ⟨rest, events, hphase⟩ := ServerState.phase_of_pending hpending
  have hfailed := (hannounces _ rest events secondLogin (text "a") (text "p") _ si hphase
    hrecord rfl rfl hinfo hconn).2.1 rfl
  rw [hsi] at hfailed
  cases hfailed

/-! ### Acting on sessions -/

section Sessions

variable {fd : Int} {record : List Authored}

theorem onSession_none {queued : Queued} (hregisters : queued.command.registers ≠ some fd) :
    queued.onSession fd none = none := by
  rw [Queued.onSession, RegistryCommand.act_none hregisters]
  rfl

theorem needs_none (authored : Authored) : (sessionActions fd).needs authored none := by
  intro task _ userId _ _ conn view hsession
  cases hsession

/-- Without a registration a descriptor without a session stays so. -/
theorem settleSession_none (hrecord : ∀ authored ∈ record, authored.1.command.registers ≠ some fd) :
    (sessionActions fd).settle record none = none :=
  QueuedActions.settle_of_fixed fun authored hauthored ↦ onSession_none (hrecord authored hauthored)

theorem safeSession_none (hrecord : ∀ authored ∈ record, authored.1.command.registers ≠ some fd) :
    (sessionActions fd).Safe record none :=
  QueuedActions.safe_of_fixed (fun authored hauthored ↦ onSession_none (hrecord authored hauthored))
    fun authored _ ↦ needs_none authored

/-- Replies for other connections need nothing of a session. -/
theorem safeSession_of_other {conn : Nat} {view : View}
    (hrecord : ∀ authored ∈ record, authored.1.command.registers ≠ some fd ∧
      authored.1.conn ≠ conn) : (sessionActions fd).Safe record (some (conn, view)) := by
  induction record generalizing view with
  | nil => trivial
  | cons authored rest ih =>
    have hrest := fun other hother ↦ hrecord other (List.mem_cons_of_mem authored hother)
    refine ⟨fun task _ userId _ _ other otherView hsession hsame ↦ ?_, ?_⟩
    · obtain ⟨hconn, -⟩ := Prod.mk.inj (Option.some.inj hsession)
      exact absurd (hconn.trans hsame).symm (hrecord authored List.mem_cons_self).2
    · show (sessionActions fd).Safe rest
        ((authored.1.command.act fd (some view)).map fun view ↦ (conn, view))
      cases authored.1.command.act fd (some view) with
      | none => exact safeSession_none fun other hother ↦ (hrest other hother).1
      | some after => exact ih hrest

/-- What a callback requests ends a session or leaves it. -/
theorem settleSession_requests {si : SocketInfo} {result : Dispatched}
    (hresult : Dispatches si result) (conn : Nat) (fd : Int) (session : Option Session) :
    let requests := result.requests.map fun command ↦
      (({ command := command, conn := conn } : Queued), (none : Option Task))
    (sessionActions fd).settle requests session = session ∨
      (sessionActions fd).settle requests session = none := by
  have hrequests := hresult.requests
  generalize result.requests = requests at hrequests
  dsimp only
  induction requests generalizing session with
  | nil => exact Or.inl rfl
  | cons command rest ih =>
    have hrest := fun other hother ↦ hrequests other (List.mem_cons_of_mem _ hother)
    have hstep : Queued.onSession fd { command := command, conn := conn } session = session ∨
        Queued.onSession fd { command := command, conn := conn } session = none := by
      rcases hrequests command List.mem_cons_self with rfl | ⟨message, rfl⟩
      · cases session with
        | none => exact Or.inl (onSession_none fun hregisters ↦ by cases hregisters)
        | some session =>
          rw [Queued.onSession, RegistryCommand.act_unregister]
          split_ifs
          · exact Or.inr rfl
          · exact Or.inl rfl
      · cases session <;> exact Or.inl rfl
    rw [List.map_cons, QueuedActions.settle_cons]
    change QueuedActions.settle _ _ (Queued.onSession fd _ session) = _ ∨
      QueuedActions.settle _ _ (Queued.onSession fd _ session) = _
    rcases hstep with hsame | hnone
    · rw [hsame]
      exact ih session hrest
    · rw [hnone]
      refine Or.inr (settleSession_none fun authored hauthored ↦ ?_)
      obtain ⟨other, hother, rfl⟩ := List.mem_map.mp hauthored
      rcases hrest other hother with rfl | ⟨message, rfl⟩ <;>
        exact fun hregisters ↦ by cases hregisters

/-- A command that no task queued needs nothing. -/
theorem needs_of_unauthored (queued : Queued) (session : Option Session) :
    (sessionActions fd).needs (queued, none) session := by
  intro task htask
  cases htask

end Sessions

namespace Pipeline

variable {pipeline : Pipeline}

theorem session_eq_some (howned : pipeline.Owned) {fd : Int} {view : View}
    (hview : pipeline.registry.view fd = some view) :
    ∃ conn, pipeline.kernel.conn fd = some conn ∧ pipeline.session fd = some (conn, view) := by
  have hmem : fd ∈ pipeline.registry.infos := by
    by_contra hfresh
    rw [EpollRegistry.view_eq_none.mpr (Finmap.lookup_eq_none.mpr hfresh)] at hview
    cases hview
  obtain ⟨conn, hconn⟩ := howned.registered fd hmem
  refine ⟨conn, hconn, ?_⟩
  rw [session, hview, hconn]
  rfl

theorem session_eq_none {fd : Int} (hview : pipeline.registry.view fd = none) :
    pipeline.session fd = none := by
  rw [session, hview]
  rfl

/-- A handler does what its command is meant to do, or the session is over for good. -/
theorem session_handled (howned : pipeline.Owned) (env : HandlerEnv) {queued : Queued}
    {rest : List Queued} (hqueued : pipeline.queued = queued :: rest) (fd : Int) :
    (pipeline.handled env queued rest).session fd = queued.onSession fd (pipeline.session fd) ∨
      (pipeline.handled env queued rest).session fd = none ∧
        ∀ other ∈ (pipeline.handled env queued rest).underWay,
          other.command.registers ≠ some fd := by
  have hhandles := howned.handles env hqueued
  rcases view_handled howned env hqueued fd with hact | ⟨hnone, hgone⟩
  · refine Or.inl ?_
    have hconn : ∀ view, (pipeline.handled env queued rest).registry.view fd = some view →
        (pipeline.handled env queued rest).kernel.conn fd = pipeline.kernel.conn fd := by
      intro view hview
      refine hhandles.conn fd ?_
      by_contra hfresh
      have hnone : (pipeline.handled env queued rest).registry.view fd = none :=
        EpollRegistry.view_eq_none.mpr (Finmap.lookup_eq_none.mpr hfresh)
      rw [hnone] at hview
      cases hview
    cases hview : pipeline.registry.view fd with
    | none =>
      rw [hview] at hact
      rw [session_eq_none hview, Queued.onSession, ← hact]
      cases hafter : (pipeline.handled env queued rest).registry.view fd with
      | none => exact session_eq_none hafter
      | some view =>
        -- the command registers the descriptor
        have hregisters : queued.command.registers = some fd := by
          by_contra hother
          rw [RegistryCommand.act_none hother] at hact
          rw [hact] at hafter
          cases hafter
        have hmem : queued ∈ pipeline.queued := hqueued ▸ List.mem_cons_self
        rw [session, hafter, hconn view hafter, (howned.register_fresh hmem hregisters).1]
        rfl
    | some before =>
      obtain ⟨conn, hopen, hsession⟩ := session_eq_some howned hview
      rw [hview] at hact
      rw [hsession, Queued.onSession, ← hact]
      cases hafter : (pipeline.handled env queued rest).registry.view fd with
      | none => exact session_eq_none hafter
      | some view =>
        rw [session, hafter, hconn view hafter, hopen]
        rfl
  · exact Or.inr ⟨session_eq_none hnone, hgone⟩

theorem session_accepted (howned : pipeline.Owned) {fd : Int}
    (hclosed : fd ∉ pipeline.kernel.sockets) (other : Int) :
    (pipeline.accepted fd).session other = pipeline.session other := by
  have hregistry : (pipeline.accepted fd).registry = pipeline.registry := rfl
  cases hview : pipeline.registry.view other with
  | none => rw [session_eq_none hview, session_eq_none (hregistry ▸ hview)]
  | some view =>
    obtain ⟨conn, hconn, hsession⟩ := session_eq_some howned hview
    have hne : other ≠ fd := by
      rintro rfl
      rw [conn_eq_none.mpr hclosed] at hconn
      cases hconn
    rw [hsession, session, hregistry, hview, conn_accepted, if_neg hne, hconn]
    rfl

theorem session_dispatched {fd : Int} {si : SocketInfo} {result : Dispatched}
    (hinfo : pipeline.registry.infos.lookup fd = some si) (hresult : Dispatches si result)
    (other : Int) : (pipeline.dispatched fd si result).session other = pipeline.session other := by
  have hview : (pipeline.dispatched fd si result).registry.view other =
      pipeline.registry.view other := by
    show (pipeline.registry.setInfo fd result.info).view other = _
    by_cases hsame : other = fd
    · rw [hsame, EpollRegistry.view_setInfo_self, EpollRegistry.view, hinfo, Option.map_some,
        hresult.identity.userId, hresult.identity.joinedRoomIds]
    · exact EpollRegistry.view_setInfo_of_ne hsame _
  rw [session, session, hview]
  rfl

/-! ### Replies under way -/

/-- The record is that of the commands under way, and every reply of a login among them will find
the session it announces. -/
structure Announces (pipeline : Pipeline) (record : List Authored) : Prop where
  covers : record.map Prod.fst = pipeline.underWay
  safe : ∀ fd, (sessionActions fd).Safe record (pipeline.session fd)

theorem Announces.settled {record : List Authored} (hannounces : pipeline.Announces record)
    (fd : Int) : (sessionActions fd).settle record (pipeline.session fd) =
      pipeline.settledSession fd := by
  rw [settledSession, ← hannounces.covers, List.foldl_map]
  rfl

theorem Announces.registering {record : List Authored} (hannounces : pipeline.Announces record)
    (howned : pipeline.Owned) (hplaced : pipeline.Placed) {fd : Int} {conn : Nat}
    (hacceptor : pipeline.acceptor = some (fd, conn)) (other : Int) :
    (sessionActions other).Safe (record.take pipeline.queued.length ++
      ({ command := .register fd (epollIn ||| epollRdhup), conn := conn }, none) ::
        record.drop pipeline.queued.length) ((pipeline.registering fd conn).session other) := by
  obtain ⟨hqueued, htodo⟩ := split_record hannounces.covers
  have hsafe := hannounces.safe other
  rw [← List.take_append_drop pipeline.queued.length record, QueuedActions.safe_append] at hsafe
  have hsession : (pipeline.registering fd conn).session other = pipeline.session other := rfl
  rw [hsession, QueuedActions.safe_append]
  refine ⟨hsafe.1, needs_of_unauthored _ _, ?_⟩
  by_cases hsame : other = fd
  · subst hsame
    obtain ⟨hnone, hfresh⟩ := howned.acceptor_fresh hacceptor
    have hbefore : (sessionActions other).settle (record.take pipeline.queued.length)
        (pipeline.session other) = none := by
      rw [session_eq_none hnone]
      refine settleSession_none fun authored hauthored ↦ hfresh authored.1 ?_
      rw [← hqueued]
      exact List.mem_map_of_mem hauthored
    rw [hbefore]
    show (sessionActions other).Safe _ (Option.map _ (if other = other ∧ _ then _ else _))
    rw [if_pos ⟨rfl, rfl⟩]
    -- what the worker has still to queue is for other connections
    refine safeSession_of_other fun authored hauthored ↦ ?_
    have hmem : authored.1 ∈ pipeline.todo := htodo ▸ List.mem_map_of_mem hauthored
    refine ⟨howned.registers_todo other authored.1 hmem, ?_⟩
    obtain ⟨target, hby⟩ := howned.todo authored.1 hmem
    obtain ⟨held, hheld, -⟩ := hplaced.commands authored.1 (List.mem_append_right _ hmem)
      (registers_of_byWorker hby)
    refine fun hconn ↦ hheld.notOwner (other, conn) ?_ hconn.symm
    rw [owners, hacceptor]
    exact List.mem_append_right _ (List.mem_singleton.mpr rfl)
  · have hfixed : ∀ session, Queued.onSession other
        { command := .register fd (epollIn ||| epollRdhup), conn := conn } session = session := by
      intro session
      cases session with
      | none => exact onSession_none fun hregisters ↦ hsame (Option.some.inj hregisters).symm
      | some session =>
        rw [Queued.onSession, RegistryCommand.act_register, if_neg fun hboth ↦ hsame hboth.1.symm]
        rfl
    show (sessionActions other).Safe _ (Queued.onSession other _ _)
    rw [hfixed]
    exact hsafe.2

theorem Announces.handled {record : List Authored} (hannounces : pipeline.Announces record)
    (howned : pipeline.Owned) (env : HandlerEnv) {queued : Queued} {rest : List Queued}
    (hqueued : pipeline.queued = queued :: rest) (fd : Int) :
    (sessionActions fd).Safe record.tail ((pipeline.handled env queued rest).session fd) := by
  obtain ⟨author, later, rfl, hlater⟩ := exists_record_cons hannounces.covers env hqueued
  have hsafe := (hannounces.safe fd).2
  rcases session_handled howned env hqueued fd with hact | ⟨hnone, hgone⟩
  · rw [hact]
    exact hsafe
  · rw [hnone]
    refine safeSession_none fun other hother ↦ hgone other.1 ?_
    rw [← hlater]
    exact List.mem_map_of_mem hother

theorem Announces.dispatched {record : List Authored} (hannounces : pipeline.Announces record)
    (howned : pipeline.Owned) {fd : Int} {si : SocketInfo} {result : Dispatched}
    (hinfo : pipeline.registry.infos.lookup fd = some si) (hresult : Dispatches si result)
    (other : Int) :
    (sessionActions other).Safe (record.take pipeline.queued.length ++
      (result.requests.map fun command ↦
        (({ command := command, conn := pipeline.kernel.connOf fd } : Queued), none)) ++
      record.drop pipeline.queued.length) ((pipeline.dispatched fd si result).session other) := by
  obtain ⟨-, htodo⟩ := split_record hannounces.covers
  have hsafe := hannounces.safe other
  rw [← List.take_append_drop pipeline.queued.length record, QueuedActions.safe_append] at hsafe
  rw [session_dispatched hinfo hresult, List.append_assoc, QueuedActions.safe_append,
    QueuedActions.safe_append]
  refine ⟨hsafe.1, QueuedActions.safe_of_needless fun authored hauthored session ↦ ?_, ?_⟩
  · obtain ⟨command, -, rfl⟩ := List.mem_map.mp hauthored
    exact needs_of_unauthored _ session
  · rcases settleSession_requests hresult (pipeline.kernel.connOf fd) other
      ((sessionActions other).settle (record.take pipeline.queued.length)
        (pipeline.session other)) with hsame | hnone
    · rw [hsame]
      exact hsafe.2
    · rw [hnone]
      refine safeSession_none fun authored hauthored ↦ howned.registers_todo other authored.1 ?_
      rw [← htodo]
      exact List.mem_map_of_mem hauthored

section Tasks

variable [LinearOrder Bytes] {env : DbEnv} {task : Task} {db : Database Bytes} {conn : Nat}

omit [LinearOrder Bytes] in
theorem announcedBy_reply {id pw : Bytes} (hcmd : task.cmd = .cmdLogin id pw) (fd : Int)
    (message : Bytes) : announcedBy task (.sendOne fd (.cmdResponse message)) =
      if message = text "login success" then some id
      else if message = text "login failed" then some []
      else none := by
  unfold announcedBy
  rw [hcmd]

omit [LinearOrder Bytes] in
/-- Only replies announce. -/
theorem announcedBy_eq_none {command : RegistryCommand}
    (hcommand : ∀ fd message, command ≠ .sendOne fd (.cmdResponse message)) :
    announcedBy task command = none := by
  unfold announcedBy
  split
  · next fd message _ => exact absurd rfl (hcommand fd message)
  · rfl

omit [LinearOrder Bytes] in
/-- Nothing is announced, so nothing is needed. -/
theorem needs_of_announcedBy_eq_none {fd : Int} {queued : Queued}
    (hnone : announcedBy task queued.command = none) (session : Option Session) :
    (sessionActions fd).needs (queued, some task) session := by
  intro other hother userId hannounced
  obtain rfl := Option.some.inj hother
  rw [hnone] at hannounced
  cases hannounced

omit [LinearOrder Bytes] in
/-- A task other than a login announces nothing. -/
theorem announcedBy_of_not_login (hcmd : ∀ id pw, task.cmd ≠ .cmdLogin id pw)
    (command : RegistryCommand) : announcedBy task command = none := by
  unfold announcedBy
  split
  · next id pw _ _ hlogin => exact absurd hlogin (hcmd id pw)
  · rfl

omit [LinearOrder Bytes] in
/-- The commands of a login that an error of the database does not end, of which the reply announces
the user set. -/
theorem safe_announcing {fd : Int} {userId nick message : Bytes} {roomIds : List Int}
    (hannounced : ∀ other ∈ announcedBy task (DbExecutor.reply task.fd message), other = userId)
    (db : Database Bytes) (entry : TaskEntry) (hentry : entry.task = task)
    (session : Option Session) :
    (sessionActions fd).Safe (([.setUserId task.fd userId, .setJoinedRooms task.fd roomIds,
      .changeNickname task.fd nick, DbExecutor.reply task.fd message].map (queuedOf entry db)).map
        fun queued ↦ (queued, some entry.task)) session := by
  rw [hentry]
  refine ⟨needs_of_announcedBy_eq_none (announcedBy_eq_none fun _ _ hsame ↦ by cases hsame) _,
    needs_of_announcedBy_eq_none (announcedBy_eq_none fun _ _ hsame ↦ by cases hsame) _,
    needs_of_announcedBy_eq_none (announcedBy_eq_none fun _ _ hsame ↦ by cases hsame) _, ?_,
    trivial⟩
  intro other hother announced hreply htarget conn view hsession _
  obtain rfl := Option.some.inj hother
  have hfd : task.fd = fd := Option.some.inj htarget
  rw [hannounced announced hreply]
  cases session with
  | none =>
    simp [sessionActions, Queued.onSession, queuedOf, RegistryCommand.act] at hsession
  | some known =>
    simp [sessionActions, Queued.onSession, queuedOf, RegistryCommand.act, hfd] at hsession
    rw [← hsession.2]

/-- The commands of a login, when an error of the database finds its connection without a user. -/
theorem safe_executeLogin {entry : TaskEntry} (hentry : entry.task = task) {id pw : Bytes}
    (hcmd : task.cmd = .cmdLogin id pw) {fd : Int} {session : Option Session}
    (herrs : loginErrs env task db = true → task.fd = fd →
      ∀ known ∈ session, known.1 = entry.conn → known.2.1 = []) (after : Database Bytes) :
    (sessionActions fd).Safe (((DbExecutor.executeLogin env task.fd id pw db).2.map
      (queuedOf entry after)).map fun queued ↦ (queued, some entry.task)) session := by
  have hsuccess : ∀ other ∈ announcedBy task (DbExecutor.reply task.fd (text "login success")),
      other = id := by
    intro other hother
    simp [announcedBy, DbExecutor.reply, hcmd] at hother
    exact hother.symm
  have hfailed : ∀ other ∈ announcedBy task (DbExecutor.reply task.fd (text "login failed")),
      other = [] := by
    have hdiffer : text "login failed" ≠ text "login success" := by decide
    intro other hother
    simp [announcedBy, DbExecutor.reply, hcmd, hdiffer] at hother
    exact hother
  -- the reply comes first when an error ends the login
  have herror : loginErrs env task db = true →
      (sessionActions fd).Safe (((DbExecutor.loginError task.fd).map
        (queuedOf entry after)).map fun queued ↦ (queued, some entry.task)) session := by
    intro hfails
    rw [hentry]
    refine ⟨?_,
      needs_of_announcedBy_eq_none (announcedBy_eq_none fun _ _ hsame ↦ by cases hsame) _,
      needs_of_announcedBy_eq_none (announcedBy_eq_none fun _ _ hsame ↦ by cases hsame) _,
      needs_of_announcedBy_eq_none (announcedBy_eq_none fun _ _ hsame ↦ by cases hsame) _, trivial⟩
    intro other hother announced hreply htarget conn view hsession hsame
    obtain rfl := Option.some.inj hother
    rw [hfailed announced hreply]
    exact herrs hfails (Option.some.inj htarget) (conn, view) hsession hsame
  unfold DbExecutor.executeLogin
  cases hlogin : env.read 0 (DbService.login id pw db) with
  | error error =>
    refine herror ?_
    unfold DbEnv.read at hlogin
    cases hfails : env.fails 0 with
    | none => rw [hfails] at hlogin; cases hlogin
    | some _ => simp [loginErrs, hcmd, hfails]
  | ok found =>
    cases found with
    | none => exact safe_announcing hfailed after entry hentry session
    | some nickname =>
      dsimp only
      cases hrooms : env.read 1 (DbExecutor.loadJoinedRoomIds id db) with
      | ok roomIds => exact safe_announcing hsuccess after entry hentry session
      | error error =>
        refine herror ?_
        have haccepted := (read_eq_ok hlogin).2
        unfold DbEnv.read at hrooms
        cases hfails : env.fails 1 with
        | none => rw [hfails] at hrooms; cases hrooms
        | some _ => simp [loginErrs, hcmd, hfails, ← haccepted]

theorem Announces.taken {record : List Authored} (hannounces : pipeline.Announces record)
    {entry : TaskEntry} {rest : List TaskEntry}
    (herrs : loginErrs env entry.task pipeline.db = true →
      ∀ known ∈ pipeline.settledSession entry.task.fd, known.1 = entry.conn → known.2.1 = [])
    (fd : Int) :
    (sessionActions fd).Safe (record ++
      (pipeline.taken env entry rest).todo.map fun queued ↦ (queued, some entry.task))
      ((pipeline.taken env entry rest).session fd) := by
  have hsession : (pipeline.taken env entry rest).session fd = pipeline.session fd := rfl
  rw [hsession, QueuedActions.safe_append, hannounces.settled]
  refine ⟨hannounces.safe fd, ?_⟩
  by_cases hlogin : ∃ id pw, entry.task.cmd = .cmdLogin id pw
  · obtain ⟨id, pw, hcmd⟩ := hlogin
    have hexecute : DbExecutor.execute env entry.task pipeline.db =
        DbExecutor.executeLogin env entry.task.fd id pw pipeline.db := by
      unfold DbExecutor.execute
      rw [hcmd]
    have hsafe := @safe_executeLogin _ env entry.task pipeline.db entry rfl id pw hcmd fd
      (pipeline.settledSession fd) (fun hfails hfd ↦ by rw [← hfd]; exact herrs hfails)
      (DbExecutor.execute env entry.task pipeline.db).1
    rw [← hexecute] at hsafe
    exact hsafe
  · refine QueuedActions.safe_of_needless fun authored hauthored session ↦ ?_
    obtain ⟨queued, -, rfl⟩ := List.mem_map.mp hauthored
    exact needs_of_announcedBy_eq_none
      (announcedBy_of_not_login (fun id pw hcmd ↦ hlogin ⟨id, pw, hcmd⟩) _) session

end Tasks

section Steps

variable [LinearOrder Bytes] {state next : ServerState} {label : ServerLabel}

/-- The record follows the commands under way. -/
theorem Announces.step {record : List Authored} (hannounces : state.pipeline.Announces record)
    (howned : state.pipeline.Owned) (hplaced : state.pipeline.Placed)
    (hcondition : ErrorsLoggedOut state label) (htransition : Transition state label next) :
    next.pipeline.Announces (authorsAfter state label next record) := by
  have hstep := authoredStep_of_transition record htransition
  generalize next.pipeline = after, authorsAfter state label next record = later at hstep
  refine ⟨hstep.covers hannounces.covers, fun other ↦ ?_⟩
  cases hstep with
  | stay => exact hannounces.safe other
  | accept fd hfd hclosed hidle =>
    rw [session_accepted howned hclosed]
    exact hannounces.safe other
  | register fd conn hacceptor => exact hannounces.registering howned hplaced hacceptor other
  | handle env queued rest hqueued => exact hannounces.handled howned env hqueued other
  | dispatch env stage mask fd si hinfo =>
    exact hannounces.dispatched howned hinfo (dispatches_dispatchStage env stage mask si) other
  | take env entry rest hidle htasks =>
    have hhead : state.tasks.head? = some entry := congrArg List.head? htasks
    exact hannounces.taken (hcondition entry hhead) other
  | push queued rest htodo => exact hannounces.safe other

end Steps

end Pipeline

/-! ### Users and the identities given -/

namespace Pipeline

variable {pipeline : Pipeline}

/-- Whatever numbers are used again, the user of a connection is the last identity given to it, and
a line gets the last one given when it is parsed. -/
structure Identified (pipeline : Pipeline) : Prop where
  held : ∀ record ∈ pipeline.ledger.applied, ∃ fd, pipeline.Held record.1 fd
  user : ∀ fd si conn, pipeline.registry.infos.lookup fd = some si →
    pipeline.registeredAt fd = some conn →
      si.userId = lastIdentity (pipeline.ledger.appliedOf conn)
  tasks : ∀ entry ∈ pipeline.tasks, entry.task.userId = lastIdentity entry.applied
  executed : ∀ execution ∈ pipeline.ledger.executed,
    execution.entry.task.userId = lastIdentity execution.entry.applied

theorem identified_start : ServerState.start.pipeline.Identified where
  held record hrecord := by cases hrecord
  user fd si conn hinfo := by cases hinfo
  tasks entry hentry := by cases hentry
  executed execution hexecution := by cases hexecution

/-- A connection that is not registered yet was given no identity. -/
theorem Identified.appliedOf_owner (hidentified : pipeline.Identified) {owner : Int × Nat}
    (howner : owner ∈ pipeline.owners) : pipeline.ledger.appliedOf owner.2 = [] := by
  refine List.map_eq_nil_iff.mpr (List.filter_eq_nil_iff.mpr fun record hrecord hsame ↦ ?_)
  obtain ⟨fd, hheld⟩ := hidentified.held record hrecord
  exact hheld.notOwner owner howner (of_decide_eq_true hsame).symm

/-- The identities recorded are given to registered connections. -/
theorem registeredAt_of_identified {command : RegistryCommand} {record : Nat × Bytes}
    (hrecord : record ∈ identified pipeline.kernel pipeline.registry command) :
    ∃ fd, pipeline.registeredAt fd = some record.1 := by
  cases command with
  | setUserId target userId =>
    unfold identified at hrecord
    dsimp only at hrecord
    split_ifs at hrecord with hmem
    · obtain ⟨conn, hconn, rfl⟩ := Option.map_eq_some_iff.mp (Option.mem_toList.mp hrecord)
      exact ⟨target, registeredAt_eq_some.mpr ⟨hmem, hconn⟩⟩
    · cases hrecord
  | _ => cases hrecord

theorem Identified.handled (hidentified : pipeline.Identified) (howned : pipeline.Owned)
    (env : HandlerEnv) {queued : Queued} {rest : List Queued}
    (hqueued : pipeline.queued = queued :: rest) {fd : Int} {si : SocketInfo} {conn : Nat}
    (hinfo : (pipeline.handled env queued rest).registry.infos.lookup fd = some si)
    (hconn : (pipeline.handled env queued rest).registeredAt fd = some conn) :
    si.userId =
      lastIdentity ((pipeline.handled env queued rest).ledger.appliedOf conn) := by
  have hhandles := howned.handles env hqueued
  have happlied : (pipeline.handled env queued rest).ledger.appliedOf conn =
      pipeline.ledger.appliedOf conn ++
        valuesOf conn (identified pipeline.kernel pipeline.registry queued.command) :=
    valuesOf_append conn _ _
  have hopen := hhandles.closed fd conn (registeredAt_eq_some.mp hconn).2
  rw [happlied]
  rcases EpollRegistry.userId_handleCommand howned.consistent env hinfo with
    ⟨before, hbefore, huser⟩ | ⟨hnone, huser⟩
  · have hold : pipeline.registeredAt fd = some conn :=
      registeredAt_eq_some.mpr ⟨Finmap.mem_of_lookup_eq_some hbefore, hopen⟩
    rw [huser, valuesOf_identified howned hold, lastIdentity_append,
      hidentified.user fd before conn hbefore hold]
  · -- the connection was registered by this command
    have hregisters : queued.command.registers = some fd := by
      refine (registeredAt_handled howned env hqueued fd conn hconn).resolve_left fun hold ↦ ?_
      exact Finmap.lookup_eq_none.mp hnone (registeredAt_eq_some.mp hold).1
    obtain ⟨interest, hcommand⟩ := RegistryCommand.registers_eq_some.mp hregisters
    have hmem : queued ∈ pipeline.queued := hqueued ▸ List.mem_cons_self
    rw [(howned.register_fresh hmem hregisters).1, Option.some.injEq] at hopen
    have howner : (fd, conn) ∈ pipeline.owners := by
      rw [owners_handled env hqueued, hregisters, ← hopen]
      exact List.mem_append_left _ (List.mem_singleton.mpr rfl)
    rw [huser, hidentified.appliedOf_owner howner, hcommand]
    rfl

theorem Identified.step [LinearOrder Bytes] {next : Pipeline} {label : ServerLabel}
    (hidentified : pipeline.Identified) (howned : pipeline.Owned)
    (hstep : pipeline.Step label next) : next.Identified := by
  have hheld : ∀ record ∈ pipeline.ledger.applied, ∃ fd, next.Held record.1 fd := by
    intro record hrecord
    obtain ⟨fd, hheld⟩ := hidentified.held record hrecord
    exact ⟨fd, hheld.step howned hstep⟩
  cases hstep with
  | accept fd hfd hclosed hidle =>
    refine ⟨hheld, fun other si conn hinfo hconn ↦ ?_, hidentified.tasks, hidentified.executed⟩
    rw [registeredAt_accepted howned hclosed] at hconn
    exact hidentified.user other si conn hinfo hconn
  | register fd conn hacceptor =>
    exact ⟨hheld, hidentified.user, hidentified.tasks, hidentified.executed⟩
  | handle env queued rest hqueued =>
    refine ⟨fun record hrecord ↦ ?_, fun _ _ _ ↦ hidentified.handled howned env hqueued,
      hidentified.tasks, hidentified.executed⟩
    rcases List.mem_append.mp hrecord with hold | hnew
    · exact hheld record hold
    · obtain ⟨fd, hconn⟩ := registeredAt_of_identified hnew
      exact ⟨fd, (howned.held hconn).step howned (.handle env queued rest hqueued)⟩
  | dispatch env fd si result hinfo hresult =>
    refine ⟨hheld, fun other si' conn hother hconn ↦ ?_, fun entry hentry ↦ ?_,
      hidentified.executed⟩
    · rw [registeredAt_dispatched hinfo result] at hconn
      rcases EpollRegistry.lookup_insert_eq_some.mp hother with ⟨rfl, rfl⟩ | ⟨-, hold⟩
      · rw [hresult.identity.userId]
        exact hidentified.user other si conn hinfo hconn
      · exact hidentified.user other si' conn hold hconn
    · rcases List.mem_append.mp hentry with hold | hnew
      · exact hidentified.tasks entry hold
      · obtain ⟨task, htask, rfl⟩ := Option.map_eq_some_iff.mp (Option.mem_toList.mp hnew)
        refine (hresult.task_identity htask).2.trans ?_
        exact hidentified.user fd si _ hinfo (howned.registeredAt_connOf hinfo)
  | take env entry rest htodo htasks =>
    refine ⟨hheld, hidentified.user, fun other hother ↦ ?_, fun execution hexecution ↦ ?_⟩
    · exact hidentified.tasks other (htasks ▸ List.mem_cons_of_mem _ hother)
    · rcases List.mem_append.mp hexecution with hold | hnew
      · exact hidentified.executed execution hold
      · rw [List.mem_singleton.mp hnew]
        exact hidentified.tasks entry (htasks ▸ List.mem_cons_self)
  | push queued rest htodo =>
    exact ⟨hheld, hidentified.user, hidentified.tasks, hidentified.executed⟩

end Pipeline

theorem identified_of_reachable [LinearOrder Bytes]
    {condition : ServerState → ServerLabel → Prop} {state : ServerState}
    (hreach : chatServer.ReachableUnder condition state) : state.pipeline.Identified :=
  pipeline_induction Pipeline.identified_start
    (fun _ _ _ hreach hidentified _ hstep ↦ hidentified.step (owned_of_reachable hreach) hstep)
    hreach

/-! ### Replies in runs -/

/-- The runs in which a login that fails on an error finds its connection without a user. -/
theorem announces_of_loggedOut [LinearOrder Bytes] {state : ServerState × List Authored}
    (hreach : authoredServer.ReachableUnder
      (fun state label ↦ ErrorsLoggedOut state.1 label) state) :
    state.1.pipeline.Announces state.2 := by
  refine @TransitionSystem.ReachableUnder.induction _ _ authoredServer _
    (fun state ↦ state.1.pipeline.Announces state.2) ?_ ?_ _ hreach
  · exact ⟨rfl, fun _ ↦ trivial⟩
  · intro before label next hbefore hannounces hcondition hstep
    obtain ⟨hmoves, hrecord⟩ := TransitionSystem.withRecord_step_eq_some.mp hstep
    have hserver := hbefore.of_withRecord
    rw [hrecord]
    exact hannounces.step (owned_of_reachable hserver) (placed_of_reachable hserver) hcondition
      (transition_of_step hmoves)

/-- In every run in which a login that fails on an error of the database finds its connection gone
or without a user, a reply of a login is appended when the connection has the user it announces, and
what is executed afterwards is executed under this user. -/
theorem repliesAnnounce_of_loggedOut [LinearOrder Bytes] {state : ServerState × List Authored}
    (hreach : authoredServer.ReachableUnder
      (fun state label ↦ ErrorsLoggedOut state.1 label) state) :
    RepliesAnnounce state.1 state.2 := by
  have hserver := hreach.of_withRecord
  intro queued pending events task id pw message si hphase hrecord hcmd hcommand hinfo hconn
  have hsession : state.1.pipeline.session task.fd =
      some (queued.conn, (si.userId, si.joinedRoomIds)) := by
    unfold Pipeline.session EpollRegistry.view
    show ((state.1.registry.infos.lookup task.fd).map _).bind
      (fun view ↦ (state.1.kernel.conn task.fd).map _) = _
    rw [hinfo, hconn]
    rfl
  have hsafe := (announces_of_loggedOut hreach).safe task.fd
  have hannounced : ∀ userId, announcedBy task queued.command = some userId →
      si.userId = userId := by
    intro userId hreply
    cases hrest : state.2 with
    | nil =>
      rw [hrest] at hrecord
      cases hrecord
    | cons authored rest =>
      rw [hrest] at hrecord hsafe
      obtain rfl : authored = (queued, some task) := Option.some.inj hrecord
      have htarget : queued.command.target = some task.fd := by
        rw [hcommand]
        rfl
      exact hsafe.1 task rfl userId hreply htarget queued.conn _ hsession rfl
  have hdiffer : text "login failed" ≠ text "login success" := by decide
  refine ⟨?_, ?_, fun labels later hlater execution hexecution hown happlied ↦ ?_⟩
  · rintro rfl
    refine hannounced id ?_
    rw [hcommand, Pipeline.announcedBy_reply hcmd]
    exact if_pos rfl
  · rintro rfl
    refine hannounced [] ?_
    rw [hcommand, Pipeline.announcedBy_reply hcmd]
    exact (if_neg hdiffer).trans (if_pos rfl)
  · have huser := (identified_of_reachable hserver).user task.fd si queued.conn hinfo
      (Pipeline.registeredAt_eq_some.mpr ⟨Finmap.mem_of_lookup_eq_some hinfo, hconn⟩)
    rw [(identified_of_reachable (hserver.run_reachable hlater)).executed execution hexecution,
      happlied, huser]
    rfl

/-- A client registers and logs in, and the reply is the next command to be handled. -/
def announcedLogin : List ServerLabel :=
  connecting 5 ++ round [] 1 [] ++
    sending 5 [.cmdRegister (text "a") (text "p"), .cmdLogin (text "a") (text "p")] ++
    executing 1 ++ executing 4 ++ working [] 4

/-- The login of the client. -/
def firstLogin : Task where
  cmd := .cmdLogin (text "a") (text "p")
  fd := 5
  userId := []

/-- Its reply. -/
def successReply : Queued where
  command := .sendOne 5 (.cmdResponse (text "login success"))
  conn := 0

theorem repliesAnnounce_announcedLogin :
    ∃ state record, (@authoredServer bytewise).run (@authoredServer bytewise).start announcedLogin =
        some (state, record) ∧ record.head? = some (successReply, some firstLogin) ∧
      @RepliesAnnounce bytewise state record := by
  have hmeets : (@authoredServer bytewise).Meets
      (fun state label ↦ @ErrorsLoggedOut bytewise state.1 label)
      (@authoredServer bytewise).start announcedLogin := by decide +kernel
  let order := bytewise
  have hrun : ((authoredServer.run authoredServer.start announcedLogin).map fun state ↦
      decide (state.2.head? = some (successReply, some firstLogin))) = some true := by
    decide +kernel
  obtain ⟨⟨state, record⟩, hstate, hhead⟩ := Option.map_eq_some_iff.mp hrun
  exact ⟨state, record, hstate, of_decide_eq_true hhead,
    repliesAnnounce_of_loggedOut ⟨announcedLogin, hmeets, hstate⟩⟩

end ChatServer
