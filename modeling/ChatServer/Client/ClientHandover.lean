import ChatServer.Client.ClientRun

/-!
# What passes between the threads of a client

The io thread takes lines out of its receive buffer and gives the commands in them to the executor.
`IoEffect` and `ExecutorEffect` are the steps of the two threads as what they do to what the threads
share; everything else a step does stays in the connection or on the console (`Undisturbed`).

`Conserves` is what these steps keep: the commands decoded are executed, in hand or queued, in
order, and they are the commands of the lines taken from what was received.
-/

set_option autoImplicit false
set_option relaxedAutoImplicit false

namespace ChatServer

/-! ### What the io thread leaves to the executor -/

/-- The queue of the executor, the command it has in hand and the receive buffer are as before. -/
structure IoWorker.Undisturbed (before after : IoWorker) : Prop where
  executeQ : after.client.executeQ = before.client.executeQ
  executing : after.client.executing = before.client.executing
  recv : after.client.si.recv = before.client.si.recv

namespace IoWorker

variable {worker : IoWorker}

theorem Undisturbed.rfl : worker.Undisturbed worker :=
  ⟨Eq.refl _, Eq.refl _, Eq.refl _⟩

theorem Undisturbed.trans {middle after : IoWorker} (hfirst : worker.Undisturbed middle)
    (hsecond : middle.Undisturbed after) : worker.Undisturbed after :=
  ⟨hsecond.executeQ.trans hfirst.executeQ, hsecond.executing.trans hfirst.executing,
    hsecond.recv.trans hfirst.recv⟩

theorem undisturbed_flush (writes : SslTransfer Nat) :
    worker.Undisturbed (worker.flush writes).1 := by
  refine ⟨Eq.refl _, Eq.refl _, ?_⟩
  obtain ⟨tls, send, -, hflush⟩ := flushSend_fst writes worker.client.si
  show (flushSend writes worker.client.si).1.recv = worker.client.si.recv
  rw [hflush]

theorem undisturbed_verifyPeer (verified : Bool) :
    worker.Undisturbed (worker.verifyPeer verified).1 := by
  unfold verifyPeer
  dsimp only
  split_ifs <;> exact ⟨Eq.refl _, Eq.refl _, Eq.refl _⟩

theorem undisturbed_progressTlsHandshake (outcome : Option SslError) (verified : Bool) :
    worker.Undisturbed (worker.progressTlsHandshake outcome verified).1 := by
  unfold progressTlsHandshake
  by_cases hdone : worker.client.si.tls.handshakeDone = true
  · rw [if_pos hdone]
    split_ifs
    · exact .rfl
    · exact undisturbed_verifyPeer verified
  · rw [if_neg hdone]
    have hcalled : worker.Undisturbed ((worker.record (.handshake outcome)).setTls
        (worker.client.si.tls.handshake outcome).1) := ⟨Eq.refl _, Eq.refl _, Eq.refl _⟩
    dsimp only
    split
    · exact hcalled
    · split_ifs
      · exact hcalled
      · exact hcalled.trans (undisturbed_verifyPeer verified)
      · exact hcalled

theorem undisturbed_execute (line : Bytes) :
    worker.Undisturbed { worker with client := worker.client.execute line } := by
  have heffect := effect_execute worker.client line
  generalize worker.client.execute line = client at heffect
  cases heffect <;> exact ⟨Eq.refl _, Eq.refl _, Eq.refl _⟩

theorem undisturbed_sendLine (writes : SslTransfer Nat) (line : Bytes) :
    worker.Undisturbed (worker.sendLine writes line).1 := by
  unfold sendLine
  dsimp only
  split_ifs
  · exact .rfl
  · exact undisturbed_execute line
  · exact (undisturbed_execute line).trans (undisturbed_flush writes)
  · exact undisturbed_execute line

/-- One part of the loop behind another. -/
theorem Undisturbed.andThen {result : IoWorker × IoFlow} {next : IoWorker → IoWorker × IoFlow}
    (hresult : worker.Undisturbed result.1)
    (hnext : ∀ middle : IoWorker, middle.Undisturbed (next middle).1) :
    worker.Undisturbed (IoWorker.andThen result next).1 := by
  unfold IoWorker.andThen
  split
  · exact hresult.trans (hnext result.1)
  · exact hresult

theorem undisturbed_handshakeBranch (env : PollRound) (revents : UInt16) :
    worker.Undisturbed (worker.handshakeBranch env revents).1 := by
  have hprogress := @undisturbed_progressTlsHandshake worker env.handshake env.verified
  unfold handshakeBranch
  dsimp only
  split_ifs
  · exact hprogress
  · exact hprogress
  · exact hprogress
  · exact .rfl

theorem undisturbed_sendBranch (env : PollRound) (revents : UInt16) :
    worker.Undisturbed (worker.sendBranch env revents).1 := by
  unfold sendBranch flushPendingSend
  split_ifs
  · exact undisturbed_flush env.writes
  · exact .rfl
  · exact .rfl

theorem undisturbed_shutdownTls : worker.Undisturbed worker.shutdownTls := by
  unfold shutdownTls
  split_ifs <;> exact ⟨Eq.refl _, Eq.refl _, Eq.refl _⟩

/-- `recv_socket` only adds bytes to the receive buffer. -/
theorem recvSocket_fst (reads : SslTransfer Bytes) :
    ∃ data, (worker.recvSocket reads).1.client.si.recv = worker.client.si.recv.append data ∧
      (worker.recvSocket reads).1.client.executeQ = worker.client.executeQ ∧
      (worker.recvSocket reads).1.client.executing = worker.client.executing := by
  obtain ⟨tls, data, -, -, hdrain⟩ := drainRecv_fst reads worker.client.si
  refine ⟨data, ?_, rfl, rfl⟩
  show (drainRecv reads worker.client.si).1.recv = _
  rw [hdrain]

end IoWorker

/-! ### What a step of the io thread does -/

/-- A line that is complete may be in the receive buffer. -/
def IoPhase.Open : IoPhase → Prop
  | .receiving _ | .pushed _ => True
  | _ => False

/-- The steps of the io thread, as what they do to what the threads share. -/
inductive IoEffect (state : ClientThreads) : ClientThreads × Option (Ending Nat) → Prop
  | goOn {worker : IoWorker} {io : IoPhase} (hrunning : state.io ≠ .left) (hnext : io ≠ .left)
      (hworker : state.worker.Undisturbed worker) (hnotOpen : ¬ io.Open)
      (hread : state.io.Open → newline ∉ worker.client.si.recv.currentData) :
      IoEffect state ({ state with worker := worker, io := io }, none)
  | receive {worker : IoWorker} {data : Bytes} {closed : Bool} (hrunning : state.io ≠ .left)
      (hclosed : ¬ state.io.Open)
      (hrecv : worker.client.si.recv = state.worker.client.si.recv.append data)
      (hqueue : worker.client.executeQ = state.worker.client.executeQ)
      (hhand : worker.client.executing = state.worker.client.executing) :
      IoEffect state
        ({ state with
            worker := worker
            io := .receiving closed
            received := state.received ++ data }, none)
  | skip {client : ChatClient} {closed : Bool} {line : Bytes} {rest : OffsetBuffer}
      (hphase : state.io = .receiving closed)
      (hparse : state.worker.client.si.recv.parseLine = some (line, rest))
      (hdecode : (decode line).toOption = none)
      (hclient : client =
        { state.worker.client with si := { state.worker.client.si with recv := rest } }) :
      IoEffect state
        ({ state with worker := { state.worker with client := client } }, none)
  | push {client : ChatClient} {closed : Bool} {line : Bytes} {rest : OffsetBuffer} {cmd : Command}
      (hphase : state.io = .receiving closed) (hlock : state.executor ≠ .parking)
      (hparse : state.worker.client.si.recv.parseLine = some (line, rest))
      (hdecode : (decode line).toOption = some cmd)
      (hclient : client =
        { state.worker.client with
          si := { state.worker.client.si with recv := rest }
          executeQ := state.worker.client.executeQ ++ [cmd] }) :
      IoEffect state
        ({ state with
            worker := { state.worker with client := client }
            io := .pushed closed
            pushed := state.pushed ++ [cmd] }, none)
  | notify {closed : Bool} (hphase : state.io = .pushed closed) :
      IoEffect state ({ state.notifyExecutor with io := .receiving closed }, none)
  | fail {worker : IoWorker} {data : Bytes} {ec : Nat} (hrunning : state.io ≠ .left)
      (hclosed : ¬ state.io.Open)
      (hrecv : worker.client.si.recv = state.worker.client.si.recv.append data)
      (hqueue : worker.client.executeQ = state.worker.client.executeQ)
      (hhand : worker.client.executing = state.worker.client.executing) :
      IoEffect state
        (({ state with received := state.received ++ data } : ClientThreads).leaveIo worker
          (some ec))
  | finish {worker : IoWorker} (hphase : state.io = .closing)
      (hworker : state.worker.Undisturbed worker) :
      IoEffect state (state.leaveIo worker none)

section IoEffect

variable {state : ClientThreads} {result : ClientThreads × Option (Ending Nat)}

/-- An error before anything is received. -/
theorem IoEffect.fail_of_undisturbed {worker : IoWorker} {ec : Nat} (hrunning : state.io ≠ .left)
    (hclosed : ¬ state.io.Open) (hworker : state.worker.Undisturbed worker) :
    IoEffect state (state.leaveIo worker (some ec)) := by
  have hfail := @IoEffect.fail state worker [] ec hrunning hclosed
    (by rw [OffsetBuffer.append_nil]; exact hworker.recv) hworker.executeQ hworker.executing
  rw [List.append_nil] at hfail
  exact hfail

theorem ioEffect_proceedIo {done : IoWorker × Bool} {io : IoPhase} {ec : Nat}
    (hrunning : state.io ≠ .left) (hclosed : ¬ state.io.Open) (hnext : io ≠ .left)
    (hnotOpen : ¬ io.Open) (hworker : state.worker.Undisturbed done.1) :
    IoEffect state (state.proceedIo done io ec) := by
  unfold ClientThreads.proceedIo
  split_ifs
  · exact .goOn hrunning hnext hworker hnotOpen fun hopen ↦ absurd hopen hclosed
  · exact .fail_of_undisturbed hrunning hclosed hworker

theorem ioEffect_endRound {worker : IoWorker} (hrunning : state.io ≠ .left)
    (hworker : state.worker.Undisturbed worker)
    (hread : state.io.Open → newline ∉ worker.client.si.recv.currentData) :
    IoEffect state (state.endRound worker) := by
  unfold ClientThreads.endRound
  split
  · exact .goOn hrunning nofun hworker nofun hread
  · exact .goOn hrunning nofun hworker nofun hread

theorem ioEffect_readStdin {stdin : StdinRead} {stdinRevents revents : UInt16}
    (hrunning : state.io ≠ .left) (hclosed : ¬ state.io.Open) :
    IoEffect state (state.readStdin stdin stdinRevents revents) := by
  have hgoOn : ∀ {worker : IoWorker} {io : IoPhase}, state.worker.Undisturbed worker →
      io ≠ .left → ¬ io.Open → IoEffect state ({ state with worker := worker, io := io }, none) :=
    fun hworker hnext hnotOpen ↦
      .goOn hrunning hnext hworker hnotOpen fun hopen ↦ absurd hopen hclosed
  unfold ClientThreads.readStdin
  split_ifs with hready
  · split
    · exact hgoOn ⟨rfl, rfl, rfl⟩ nofun nofun
    · split_ifs
      · exact hgoOn .rfl nofun nofun
      · exact .fail_of_undisturbed hrunning hclosed .rfl
    · exact hgoOn ⟨rfl, rfl, rfl⟩ nofun nofun
  · exact hgoOn .rfl nofun nofun

theorem ioEffect_serve {env : PollRound} {revents : UInt16} {ec : Nat}
    (hrunning : state.io ≠ .left) (hclosed : ¬ state.io.Open) :
    IoEffect state (state.serve env revents ec) := by
  have hserved : state.worker.Undisturbed
      (IoWorker.andThen (state.worker.errorBranch revents) fun worker ↦
        IoWorker.andThen (worker.handshakeBranch env revents) fun worker ↦
          worker.sendBranch env revents).1 :=
    @IoWorker.Undisturbed.andThen _ (state.worker.errorBranch revents) _ .rfl fun middle ↦
      (IoWorker.undisturbed_handshakeBranch env revents).andThen fun worker ↦
        IoWorker.undisturbed_sendBranch env revents
  unfold ClientThreads.serve
  dsimp only
  generalize IoWorker.andThen (state.worker.errorBranch revents) _ = served at hserved ⊢
  split
  · exact .fail_of_undisturbed hrunning hclosed hserved
  · split_ifs
    · obtain ⟨data, hrecv, hqueue, hhand⟩ := @IoWorker.recvSocket_fst served.1 env.reads
      have hdata : (served.1.recvSocket env.reads).1.client.si.recv.buf.drop
          served.1.client.si.recv.buf.length = data := by
        rw [hrecv]
        exact List.drop_left
      rw [hdata]
      rw [hserved.recv] at hrecv
      rw [hserved.executeQ] at hqueue
      rw [hserved.executing] at hhand
      split
      · exact .fail hrunning hclosed hrecv hqueue hhand
      · exact .receive hrunning hclosed hrecv hqueue hhand
    · exact ioEffect_endRound hrunning hserved fun hopen ↦ absurd hopen hclosed

theorem ioEffect_replyLine {closed : Bool} (hphase : state.io = .receiving closed)
    (hreply : state.replyLine closed = some result) : IoEffect state result := by
  have hrunning : state.io ≠ .left := by rw [hphase]; nofun
  unfold ClientThreads.replyLine at hreply
  cases hparse : state.worker.client.si.recv.parseLine with
  | none =>
    rw [receiveRound_of_none hparse] at hreply
    cases hreply
    have hread := OffsetBuffer.parseLine_eq_none.mp hparse
    split_ifs
    · exact .goOn hrunning nofun .rfl nofun fun _ ↦ hread
    · exact ioEffect_endRound hrunning .rfl fun _ ↦ hread
  | some taken =>
    obtain ⟨line, rest⟩ := taken
    unfold ChatClient.receiveRound at hreply
    rw [hparse] at hreply
    dsimp only at hreply
    cases hdecode : decode line with
    | error error =>
      rw [hdecode] at hreply
      dsimp only at hreply
      rw [List.drop_length] at hreply
      cases hreply
      exact .skip hphase hparse (by rw [hdecode]; rfl) rfl
    | ok cmd =>
      rw [hdecode] at hreply
      dsimp only at hreply
      rw [List.drop_left] at hreply
      dsimp only at hreply
      split_ifs at hreply with hlock
      cases hreply
      exact .push hphase hlock hparse (by rw [hdecode]; rfl) rfl

theorem ioEffect_of_ioStep {input : ClientInput} (hstep : state.ioStep input = some result) :
    IoEffect state result := by
  cases input with
  | handshake outcome verified ec =>
    dsimp only [ClientThreads.ioStep] at hstep
    split_ifs at hstep with hphase
    cases hstep
    have hundisturbed := @IoWorker.undisturbed_progressTlsHandshake state.worker outcome verified
    refine ioEffect_proceedIo ?_ ?_ nofun nofun hundisturbed <;> rw [hphase] <;> nofun
  | check =>
    dsimp only [ClientThreads.ioStep] at hstep
    split_ifs at hstep with hphase hstop
    · cases hstep
      exact .goOn (by rw [hphase]; nofun) nofun .rfl nofun fun hopen ↦ by
        rw [hphase] at hopen
        exact hopen.elim
    · cases hstep
      exact .goOn (by rw [hphase]; nofun) nofun .rfl nofun fun hopen ↦ by
        rw [hphase] at hopen
        exact hopen.elim
  | poll answer stdin =>
    dsimp only [ClientThreads.ioStep] at hstep
    split_ifs at hstep with hphase
    have hrunning : state.io ≠ .left := by rw [hphase]; nofun
    have hclosed : ¬ state.io.Open := by rw [hphase]; nofun
    split at hstep
    · split_ifs at hstep
      · cases hstep
        exact .goOn hrunning nofun .rfl nofun fun hopen ↦ absurd hopen hclosed
      · cases hstep
        exact .fail_of_undisturbed hrunning hclosed .rfl
    · cases hstep
      exact ioEffect_readStdin hrunning hclosed
  | typedLine writes ec =>
    dsimp only [ClientThreads.ioStep] at hstep
    split at hstep
    · next revents hphase =>
      have hrunning : state.io ≠ .left := by rw [hphase]; nofun
      have hclosed : ¬ state.io.Open := by rw [hphase]; nofun
      split at hstep
      · cases hstep
        exact .goOn hrunning nofun .rfl nofun fun hopen ↦ absurd hopen hclosed
      · cases hstep
        have htaken : ∀ rest loggedIn,
            state.worker.Undisturbed (state.worker.takeLine rest loggedIn) :=
          fun rest loggedIn ↦ ⟨rfl, rfl, rfl⟩
        exact ioEffect_proceedIo hrunning hclosed nofun nofun
          ((htaken _ _).trans (IoWorker.undisturbed_sendLine _ _))
    · cases hstep
  | serve env ec =>
    dsimp only [ClientThreads.ioStep] at hstep
    split at hstep
    · next revents hphase =>
      cases hstep
      refine ioEffect_serve ?_ ?_ <;> rw [hphase] <;> nofun
    · cases hstep
  | replyLine =>
    dsimp only [ClientThreads.ioStep] at hstep
    split at hstep
    · next closed hphase => exact ioEffect_replyLine hphase hstep
    · cases hstep
  | notify =>
    dsimp only [ClientThreads.ioStep] at hstep
    split at hstep
    · next closed hphase =>
      cases hstep
      exact .notify hphase
    · cases hstep
  | shutdown =>
    dsimp only [ClientThreads.ioStep] at hstep
    split_ifs at hstep with hphase
    cases hstep
    exact .finish hphase IoWorker.undisturbed_shutdownTls
  | _ => cases hstep

end IoEffect

/-! ### What a step of the executor does -/

/-- The steps of the executor, as what they do to what the threads share. -/
inductive ExecutorEffect (state : ClientThreads) :
    ClientInput → ClientThreads × Option (Ending Nat) → Prop
  | leave (hphase : state.executor = .looking) (hstop : state.executorStop = true)
      (hqueue : state.worker.client.executeQ = []) :
      ExecutorEffect state .look ({ state with executor := .left }, some (.signal none))
  | take {client : ChatClient} {cmd : Command} {rest : List Command}
      (hphase : state.executor = .looking) (hhand : state.worker.client.executing = none)
      (hqueue : state.worker.client.executeQ = cmd :: rest)
      (hclient : client =
        { state.worker.client with executeQ := rest, executing := some cmd }) :
      ExecutorEffect state .look
        ({ state with worker := { state.worker with client := client }, executor := .executing },
          none)
  | goBack (hphase : state.executor = .looking) (hstop : state.executorStop = false)
      (hqueue : state.worker.client.executeQ = []) :
      ExecutorEffect state .look ({ state with executor := .parking }, none)
  | park (hphase : state.executor = .parking) :
      ExecutorEffect state .park ({ state with executor := .asleep }, none)
  | wake (hphase : state.executor = .asleep) :
      ExecutorEffect state .wake ({ state with executor := .looking }, none)
  | execute {client : ChatClient} {cmd : Command} (hphase : state.executor = .executing)
      (hhand : state.worker.client.executing = some cmd)
      (hqueue : client.executeQ = state.worker.client.executeQ) (hdone : client.executing = none)
      (hrecv : client.si.recv = state.worker.client.si.recv) :
      ExecutorEffect state .execute
        ({ state with
            worker := { state.worker with client := client }
            executor := .looking
            executed := state.executed ++ [cmd] }, none)

theorem executorEffect_of_step {state : ClientThreads} {input : ClientInput}
    {result : ClientThreads × Option (Ending Nat)}
    (hstep : state.executorStep input = some result) : ExecutorEffect state input result := by
  cases input with
  | look =>
    dsimp only [ClientThreads.executorStep] at hstep
    split_ifs at hstep with hphase hwoken hleave
    · cases hstep
      exact .leave hphase hleave.1 hleave.2
    · obtain ⟨client, hacquire, rfl⟩ := Option.map_eq_some_iff.mp hstep
      unfold ChatClient.acquire at hacquire
      split at hacquire
      · next hhand hqueue => exact .take hphase hhand hqueue (Option.some.inj hacquire).symm
      · cases hacquire
    · cases hstep
      rw [not_or, not_not] at hwoken
      exact .goBack hphase (Bool.eq_false_of_not_eq_true hwoken.1) hwoken.2
  | park =>
    dsimp only [ClientThreads.executorStep] at hstep
    split_ifs at hstep with hphase
    cases hstep
    exact .park hphase
  | wake =>
    dsimp only [ClientThreads.executorStep] at hstep
    split_ifs at hstep with hphase
    cases hstep
    exact .wake hphase
  | execute =>
    dsimp only [ClientThreads.executorStep] at hstep
    split_ifs at hstep with hphase
    obtain ⟨client, hexecute, rfl⟩ := Option.map_eq_some_iff.mp hstep
    unfold ChatClient.executeNext at hexecute
    split at hexecute
    · cases hexecute
    · next cmd hhand =>
      cases hexecute
      rw [hhand]
      have hkept : (state.worker.client.executeReply cmd).executeQ =
            state.worker.client.executeQ ∧
          (state.worker.client.executeReply cmd).si.recv = state.worker.client.si.recv := by
        unfold ChatClient.executeReply
        split <;> exact ⟨rfl, rfl⟩
      exact .execute hphase hhand hkept.1 rfl hkept.2
  | _ => cases hstep

/-! ### No command is lost between the threads -/

/-- The commands decoded are executed, in hand or queued, they are those of the lines taken from
what was received, and no complete line is left behind the loop over the lines. -/
structure ClientThreads.Conserves (state : ClientThreads) : Prop where
  queue : state.pushed =
    state.executed ++ (state.worker.client.executing.toList ++ state.worker.client.executeQ)
  hand : state.executor ≠ .executing → state.worker.client.executing = none
  stream : ∃ taken, (∀ line ∈ taken, newline ∉ line) ∧
    state.received =
      DelimitedStream.joined newline taken ++ state.worker.client.si.recv.currentData ∧
    state.pushed = taken.filterMap fun line ↦ (decode line).toOption
  read : ¬ state.io.Open → (∀ ec, state.ioResult ≠ some (some ec)) →
    newline ∉ state.worker.client.si.recv.currentData

namespace ClientThreads.Conserves

variable {state : ClientThreads} {result : ClientThreads × Option (Ending Nat)}

/-- Bytes enter the receive buffer. -/
theorem stream_append (hstate : state.Conserves) {worker : IoWorker} {data : Bytes}
    (hrecv : worker.client.si.recv = state.worker.client.si.recv.append data) :
    ∃ taken, (∀ line ∈ taken, newline ∉ line) ∧
      state.received ++ data =
        DelimitedStream.joined newline taken ++ worker.client.si.recv.currentData ∧
      state.pushed = taken.filterMap fun line ↦ (decode line).toOption := by
  obtain ⟨taken, htaken, hreceived, hpushed⟩ := hstate.stream
  refine ⟨taken, htaken, ?_, hpushed⟩
  rw [hrecv, OffsetBuffer.currentData_append, hreceived, List.append_assoc]

/-- A line is taken out of the receive buffer. -/
theorem stream_take (hstate : state.Conserves) {line : Bytes} {rest : OffsetBuffer}
    (hparse : state.worker.client.si.recv.parseLine = some (line, rest)) :
    ∃ taken, (∀ line ∈ taken, newline ∉ line) ∧
      state.received = DelimitedStream.joined newline taken ++ rest.currentData ∧
      state.pushed ++ (decode line).toOption.toList =
        taken.filterMap fun line ↦ (decode line).toOption := by
  obtain ⟨taken, htaken, hreceived, hpushed⟩ := hstate.stream
  obtain ⟨hdata, hline⟩ := OffsetBuffer.parseLine_eq_some hparse
  refine ⟨taken ++ [line], fun other hother ↦ ?_, ?_, ?_⟩
  · rcases List.mem_append.mp hother with hold | hnew
    · exact htaken other hold
    · exact List.mem_singleton.mp hnew ▸ hline
  · rw [DelimitedStream.joined_concat, hreceived, hdata, List.append_assoc, List.append_assoc,
      List.singleton_append]
  · rw [List.filterMap_append, hpushed]
    cases hdecode : (decode line).toOption with
    | none => simp [hdecode]
    | some cmd => simp [hdecode]

theorem io (hstate : state.Conserves) (hresult : state.io ≠ .left → state.ioResult = none)
    (heffect : IoEffect state result) : result.1.Conserves := by
  cases heffect with
  | goOn hrunning hnext hworker hnotOpen hread =>
    refine ⟨?_, fun hexecutor ↦ ?_, ?_, fun _ _ ↦ ?_⟩
    · show state.pushed = state.executed ++ _
      rw [hworker.executing, hworker.executeQ]
      exact hstate.queue
    · exact hworker.executing.trans (hstate.hand hexecutor)
    · show ∃ taken, _ ∧ state.received = _ ∧ state.pushed = _
      rw [hworker.recv]
      exact hstate.stream
    · by_cases hopen : state.io.Open
      · exact hread hopen
      · rw [hworker.recv]
        exact hstate.read hopen fun ec ↦ by rw [hresult hrunning]; nofun
  | receive hrunning hclosed hrecv hqueue hhand =>
    refine ⟨?_, fun hexecutor ↦ ?_, hstate.stream_append hrecv, fun hopen _ ↦ ?_⟩
    · show state.pushed = state.executed ++ _
      rw [hqueue, hhand]
      exact hstate.queue
    · exact hhand.trans (hstate.hand hexecutor)
    · exact absurd trivial hopen
  | @skip _ _ line _ hphase hparse hdecode hclient =>
    obtain ⟨taken, htaken, hreceived, hpushed⟩ := hstate.stream_take hparse
    rw [hdecode, Option.toList_none, List.append_nil] at hpushed
    subst hclient
    refine ⟨hstate.queue, hstate.hand, ⟨taken, htaken, hreceived, hpushed⟩, fun hopen _ ↦ ?_⟩
    refine absurd ?_ hopen
    show state.io.Open
    rw [hphase]
    trivial
  | push hphase hlock hparse hdecode hclient =>
    obtain ⟨taken, htaken, hreceived, hpushed⟩ := hstate.stream_take hparse
    rw [hdecode] at hpushed
    subst hclient
    refine ⟨?_, hstate.hand, ⟨taken, htaken, hreceived, hpushed⟩,
      fun hopen _ ↦ absurd trivial hopen⟩
    dsimp only
    rw [hstate.queue, List.append_assoc, List.append_assoc]
  | notify hphase =>
    have hopen : state.io.Open := by rw [hphase]; trivial
    unfold ClientThreads.notifyExecutor
    split_ifs with hasleep
    · refine ⟨hstate.queue, fun _ ↦ hstate.hand ?_, hstate.stream,
        fun hclosed _ ↦ absurd trivial hclosed⟩
      rw [hasleep]
      nofun
    · exact ⟨hstate.queue, hstate.hand, hstate.stream, fun hclosed _ ↦ absurd trivial hclosed⟩
  | @fail worker _ _ hrunning hclosed hrecv hqueue hhand =>
    refine ⟨?_, fun hexecutor ↦ ?_, hstate.stream_append hrecv, fun _ hok ↦ ?_⟩
    · show state.pushed =
        state.executed ++ (worker.client.executing.toList ++ worker.client.executeQ)
      rw [hqueue, hhand]
      exact hstate.queue
    · exact hhand.trans (hstate.hand hexecutor)
    · exact absurd rfl (hok _)
  | @finish worker hphase hworker =>
    have hrunning : state.io ≠ .left := by rw [hphase]; nofun
    have hread : newline ∉ state.worker.client.si.recv.currentData :=
      hstate.read (by rw [hphase]; nofun) fun ec ↦ by rw [hresult hrunning]; nofun
    rw [← hworker.recv] at hread
    refine ⟨?_, fun hexecutor ↦ hworker.executing.trans (hstate.hand hexecutor), ?_,
      fun _ _ ↦ hread⟩
    · show state.pushed =
        state.executed ++ (worker.client.executing.toList ++ worker.client.executeQ)
      rw [hworker.executing, hworker.executeQ]
      exact hstate.queue
    · have hstream := hstate.stream
      rw [← hworker.recv] at hstream
      exact hstream

theorem executor (hstate : state.Conserves) {input : ClientInput}
    (heffect : ExecutorEffect state input result) : result.1.Conserves := by
  cases heffect with
  | leave hphase _ _ =>
    exact ⟨hstate.queue, fun _ ↦ hstate.hand (by rw [hphase]; nofun), hstate.stream, hstate.read⟩
  | take hphase hhand hqueue hclient =>
    subst hclient
    refine ⟨?_, fun hexecutor ↦ absurd rfl hexecutor, hstate.stream, hstate.read⟩
    have hbefore := hstate.queue
    rw [hhand, hqueue] at hbefore
    exact hbefore
  | goBack hphase _ _ =>
    exact ⟨hstate.queue, fun _ ↦ hstate.hand (by rw [hphase]; nofun), hstate.stream, hstate.read⟩
  | park hphase =>
    exact ⟨hstate.queue, fun _ ↦ hstate.hand (by rw [hphase]; nofun), hstate.stream, hstate.read⟩
  | wake hphase =>
    exact ⟨hstate.queue, fun _ ↦ hstate.hand (by rw [hphase]; nofun), hstate.stream, hstate.read⟩
  | execute hphase hhand hqueue hdone hrecv =>
    refine ⟨?_, fun _ ↦ hdone, ?_, fun hopen hok ↦ ?_⟩
    · have hbefore := hstate.queue
      rw [hhand] at hbefore
      show state.pushed = state.executed ++ [_] ++ _
      rw [hqueue, hdone, hbefore, List.append_assoc]
      rfl
    · show ∃ taken, _ ∧ state.received = _ ++ OffsetBuffer.currentData _ ∧ state.pushed = _
      rw [hrecv]
      exact hstate.stream
    · rw [hrecv]
      exact hstate.read hopen hok

theorem obey (hstate : state.Conserves) {order : ClientOrder} {next : ClientThreads}
    (hobey : state.obey order = some next) : next.Conserves := by
  cases order with
  | stopExecutor =>
    cases hobey
    exact ⟨hstate.queue, hstate.hand, hstate.stream, hstate.read⟩
  | notifyExecutor =>
    cases hobey
    unfold ClientThreads.notifyExecutor
    split_ifs with hasleep
    · exact ⟨hstate.queue, fun _ ↦ hstate.hand (by rw [hasleep]; nofun), hstate.stream,
        hstate.read⟩
    · exact hstate
  | stopIo =>
    cases hobey
    exact ⟨hstate.queue, hstate.hand, hstate.stream, hstate.read⟩

end ClientThreads.Conserves

end ChatServer
