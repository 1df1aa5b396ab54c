import Mathlib.Data.List.Chain
import ChatServer.Net.IoHelper

/-!
# The stream that is sent

`append` and `flush_send` on one send buffer, in any order, with any results of `SSL_write_ex`. The
calls of `tls_session::write` are recorded with what they were offered (`flushWrites`). What the
calls accepted, followed by what is still to be sent, is what was appended (`Sending.Follows`), so
that clearing and compaction neither lose nor repeat a byte.

A write that wanted I/O has to be repeated with the same bytes, of which there may be more by then.
Nothing takes bytes out of the buffer between a write and the next one, and `append` adds them at
its end, so the next write offers what the blocked one offered, or more (`Retries`).
-/

set_option autoImplicit false
set_option relaxedAutoImplicit false

namespace ChatServer

/-! ### The calls of `write` -/

namespace TlsWrite

/-- The bytes that the TLS layer took in the call, of those it was offered. -/
def accepted (write : TlsWrite) : Bytes :=
  match write.outcome with
  | .ok count => write.offered.take count
  | .error _ => []

/-- The call ended with `want_read` or `want_write`. -/
def WantedIo (write : TlsWrite) : Prop :=
  write.outcome = .error .wantRead ∨ write.outcome = .error .wantWrite

/-- A call after one that wanted I/O offers the same bytes, and perhaps more behind them. -/
def Retries (write next : TlsWrite) : Prop :=
  write.WantedIo → write.offered <+: next.offered

theorem accepted_ok (offered : Bytes) (count : Nat) :
    accepted { offered := offered, outcome := .ok count } = offered.take count :=
  rfl

theorem not_wantedIo_ok (offered : Bytes) (count : Nat) :
    ¬ WantedIo { offered := offered, outcome := .ok count } := by
  rintro (hread | hwrite)
  · cases hread
  · cases hwrite

end TlsWrite

/-- The bytes that the TLS layer took in these calls. -/
def acceptedBytes (writes : List TlsWrite) : Bytes :=
  writes.flatMap TlsWrite.accepted

theorem OffsetBuffer.length_currentData (buffer : OffsetBuffer) :
    buffer.currentData.length = buffer.remaining := by
  rw [currentData, List.length_drop, remaining]

theorem OffsetBuffer.take_min_remaining (buffer : OffsetBuffer) (count : Nat) :
    buffer.currentData.take count = buffer.currentData.take (min count buffer.remaining) := by
  rw [← length_currentData, List.take_eq_take_iff, min_assoc, min_self]

/-- The calls take what the loop sends. -/
theorem acceptedBytes_flushLoopWrites (failure : SslError) (reports : List Nat)
    (send : OffsetBuffer) :
    acceptedBytes (flushLoopWrites failure reports send) = flushedBytes reports send := by
  induction reports generalizing send with
  | nil =>
    unfold flushLoopWrites flushedBytes
    split_ifs <;> rfl
  | cons count later ih =>
    unfold flushLoopWrites flushedBytes
    by_cases hpending : send.hasPending = true
    · rw [if_neg (not_not.mpr hpending), if_neg (not_not.mpr hpending)]
      dsimp only
      by_cases hbyte : min count send.remaining = 0
      · rw [if_pos hbyte, if_pos hbyte, acceptedBytes, List.flatMap_singleton,
          TlsWrite.accepted_ok, OffsetBuffer.take_min_remaining, hbyte, List.take_zero]
      · rw [if_neg hbyte, if_neg hbyte, acceptedBytes, List.flatMap_cons, ← acceptedBytes, ih,
          TlsWrite.accepted_ok, ← OffsetBuffer.take_min_remaining]
    · rw [if_pos hpending, if_pos hpending]
      rfl

/-! ### One `flush_send` -/

theorem transfer_wants {tls : TlsSession} {len : Nat} {outcome : Except SslError Nat}
    {io : TlsIoResult} (hio : (tls.transfer len outcome).2 = some io)
    (hwants : (io.wantRead || io.wantWrite) = true) :
    outcome = .error .wantRead ∨ outcome = .error .wantWrite := by
  unfold TlsSession.transfer TlsSession.finish at hio
  cases outcome with
  | ok count =>
    dsimp only at hio
    split_ifs at hio <;> cases hio <;> cases hwants
  | error error =>
    cases error with
    | wantRead => exact Or.inl rfl
    | wantWrite => exact Or.inr rfl
    | _ =>
      unfold fromSslError at hio
      dsimp only at hio
      split_ifs at hio <;> cases hio <;> cases hwants

theorem flushStop_eq_some {si : SocketInfo} {sent total : Nat} {io : Option TlsIoResult}
    (hstop : (flushStop si sent io).2 = some total) :
    total = sent ∧ ∃ result, io = some result ∧
      (result.wantRead || result.wantWrite) = true := by
  unfold flushStop at hstop
  cases io with
  | none => cases hstop
  | some result =>
    dsimp only at hstop
    split_ifs at hstop with hclosed hwants
    exact ⟨(Option.some.inj hstop).symm, result, rfl, hwants⟩

/-- What the calls of `write` have to do with the connection that the loop leaves and the count it
returns. -/
structure FlushRecord (before : SocketInfo) (sent : Nat) (left : SocketInfo × Option Nat)
    (writes : List TlsWrite) : Prop where
  /-- The first call is offered all that is to be sent. -/
  first : ∀ write ∈ writes.head?, write.offered = before.send.currentData
  chain : writes.IsChain TlsWrite.Retries
  /-- A call that wanted I/O was offered what is still to be sent. -/
  last : ∀ write ∈ writes.getLast?, write.WantedIo → write.offered = left.1.send.currentData
  count : ∀ total, left.2 = some total → total = sent + (acceptedBytes writes).length ∧
    (left.1.send.hasPending = false ∨ ∃ write ∈ writes.getLast?, write.WantedIo)

variable {si left : SocketInfo} {sent : Nat}

/-- Nothing is to be sent, so the buffer is cleared. -/
theorem flushRecord_done (hpending : ¬ si.send.hasPending) :
    FlushRecord si sent ({ si with send := si.send.clearIfDone.1 }, some sent) [] where
  first write hwrite := by cases hwrite
  chain := List.isChain_nil
  last write hwrite := by cases hwrite
  count total htotal := by
    refine ⟨(Option.some.inj htotal).symm, Or.inl ?_⟩
    rw [OffsetBuffer.hasPending_eq_false, OffsetBuffer.currentData_clearIfDone,
      ← OffsetBuffer.hasPending_eq_false]
    exact Bool.eq_false_iff.mpr hpending

/-- A call that takes nothing ends the loop. -/
theorem flushRecord_stop {outcome : Except SslError Nat} {send : OffsetBuffer}
    (hsend : send.currentData = si.send.currentData)
    (hnone : TlsWrite.accepted { offered := si.send.currentData, outcome := outcome } = []) :
    FlushRecord si sent
      (flushStop
        { si with tls := (si.tls.transfer si.send.remaining outcome).1, send := send } sent
        (si.tls.transfer si.send.remaining outcome).2)
      [{ offered := si.send.currentData, outcome := outcome }] where
  first write hwrite := by rw [← Option.mem_some_iff.mp hwrite]
  chain := List.isChain_singleton _
  last write hwrite _ := by
    rw [← Option.mem_some_iff.mp hwrite, flushStop_currentData]
    exact hsend.symm
  count total htotal := by
    obtain ⟨rfl, result, hio, hwants⟩ := flushStop_eq_some htotal
    have haccepted : acceptedBytes
        [{ offered := si.send.currentData, outcome := outcome }] = [] := by
      rw [acceptedBytes, List.flatMap_singleton, hnone]
    rw [haccepted]
    exact ⟨rfl, Or.inr ⟨_, rfl, transfer_wants hio hwants⟩⟩

/-- A call that takes bytes, and the rest of the loop. -/
theorem FlushRecord.cons {later : SocketInfo × Option Nat} {writes : List TlsWrite} {count : Nat}
    (hrest : FlushRecord left (sent + min count si.send.remaining) later writes) :
    FlushRecord si sent later
      ({ offered := si.send.currentData, outcome := .ok count } :: writes) where
  first write hwrite := by rw [← Option.mem_some_iff.mp hwrite]
  chain := List.isChain_cons.mpr
    ⟨fun _ _ hwanted ↦ absurd hwanted (TlsWrite.not_wantedIo_ok _ _), hrest.chain⟩
  last write hwrite hwanted := by
    rw [List.getLast?_cons, Option.mem_some_iff] at hwrite
    cases hlast : writes.getLast? with
    | none =>
      rw [hlast, Option.getD_none] at hwrite
      rw [← hwrite] at hwanted
      exact absurd hwanted (TlsWrite.not_wantedIo_ok _ _)
    | some last =>
      rw [hlast, Option.getD_some] at hwrite
      exact hrest.last write (hwrite ▸ hlast) hwanted
  count total htotal := by
    obtain ⟨hcount, hdone⟩ := hrest.count total htotal
    constructor
    · rw [hcount, acceptedBytes, acceptedBytes, List.flatMap_cons, List.length_append,
        TlsWrite.accepted_ok, List.length_take, OffsetBuffer.length_currentData,
        Nat.add_assoc]
    · refine hdone.imp_right fun ⟨write, hwrite, hwanted⟩ ↦ ⟨write, ?_, hwanted⟩
      rw [List.getLast?_cons, Option.mem_some_iff, Option.mem_def.mp hwrite, Option.getD_some]

theorem flushRecord_flushLoop (failure : SslError) (reports : List Nat) (si : SocketInfo)
    (sent : Nat) : FlushRecord si sent (flushLoop failure reports si sent)
      (flushLoopWrites failure reports si.send) := by
  induction reports generalizing si sent with
  | nil =>
    unfold flushLoop flushLoopWrites
    by_cases hpending : si.send.hasPending = true
    · rw [if_neg (not_not.mpr hpending), if_neg (not_not.mpr hpending)]
      exact flushRecord_stop rfl rfl
    · rw [if_pos hpending, if_pos hpending]
      exact flushRecord_done hpending
  | cons count later ih =>
    unfold flushLoop flushLoopWrites
    by_cases hpending : si.send.hasPending = true
    · rw [if_neg (not_not.mpr hpending), if_neg (not_not.mpr hpending)]
      dsimp only
      by_cases hbyte : min count si.send.remaining = 0
      · rw [if_pos hbyte, if_pos hbyte]
        have hadvance := si.send.currentData_advance (min_le_right count si.send.remaining)
        have hnone : si.send.currentData.take count = [] := by
          rw [OffsetBuffer.take_min_remaining, hbyte, List.take_zero]
        rw [← OffsetBuffer.take_min_remaining, hnone, List.nil_append] at hadvance
        exact flushRecord_stop hadvance.symm hnone
      · rw [if_neg hbyte, if_neg hbyte]
        exact (ih _ _).cons
    · rw [if_pos hpending, if_pos hpending]
      exact flushRecord_done hpending

/-- One `flush_send`, with the calls of `write` that it makes. -/
theorem flushRecord_flushSend (writes : SslTransfer Nat) (si : SocketInfo) :
    FlushRecord si 0 (flushSend writes si) (flushWrites writes si) := by
  unfold flushSend flushWrites
  by_cases hssl : si.tls.hasSsl = true
  · rw [if_neg (not_not.mpr hssl), if_neg (not_not.mpr hssl)]
    exact flushRecord_flushLoop writes.failure writes.reports si 0
  · rw [if_pos hssl, if_pos hssl]
    refine ⟨fun write hwrite ↦ ?_, List.isChain_nil, fun write hwrite ↦ ?_, fun total htotal ↦ ?_⟩
    · cases hwrite
    · cases hwrite
    · cases htotal

theorem acceptedBytes_flushWrites (writes : SslTransfer Nat) (si : SocketInfo) :
    si.send.currentData =
      acceptedBytes (flushWrites writes si) ++ (flushSend writes si).1.send.currentData := by
  by_cases hssl : si.tls.hasSsl = true
  · rw [flushWrites, if_neg (not_not.mpr hssl), acceptedBytes_flushLoopWrites]
    exact flushSend_currentData hssl
  · rw [flushWrites, flushSend, if_pos hssl, if_pos hssl]
    rfl

/-! ### Any calls on the send buffer -/

/-- A call on a connection's send buffer: `append`, or `flush_send` with what its writes do. -/
inductive SendCall
  | append (data : Bytes)
  | flush (writes : SslTransfer Nat)

/-- The bytes that a call appends. -/
def SendCall.data : SendCall → Bytes
  | .append data => data
  | .flush _ => []

/-- The bytes that calls append, in order. -/
def appendedData (calls : List SendCall) : Bytes :=
  calls.flatMap SendCall.data

/-- A connection and the calls of `write` made on it so far. -/
structure Sending where
  si : SocketInfo
  writes : List TlsWrite

namespace Sending

/-- One call. -/
def call (state : Sending) : SendCall → Sending
  | .append data =>
    { state with si := { state.si with send := (state.si.send.appendSending data).1 } }
  | .flush writes =>
    { si := (flushSend writes state.si).1
      writes := state.writes ++ flushWrites writes state.si }

/-- A connection with nothing to send, after these calls. -/
def after (si : SocketInfo) (calls : List SendCall) : Sending :=
  calls.foldl call { si := { si with send := .empty }, writes := [] }

/-- What was accepted and what is to be sent make up the stream; a write that wanted I/O is the
start of what is to be sent. -/
structure Follows (state : Sending) (stream : Bytes) : Prop where
  split : acceptedBytes state.writes ++ state.si.send.currentData = stream
  chain : state.writes.IsChain TlsWrite.Retries
  waiting : ∀ write ∈ state.writes.getLast?, write.WantedIo →
    write.offered <+: state.si.send.currentData

theorem Follows.append {state : Sending} {stream : Bytes} (hfollows : state.Follows stream)
    (data : Bytes) : (state.call (.append data)).Follows (stream ++ data) where
  split := by
    rw [← hfollows.split, List.append_assoc]
    exact congrArg (acceptedBytes state.writes ++ ·) (state.si.send.currentData_append data)
  chain := hfollows.chain
  waiting write hwrite hwanted := by
    have hdata := state.si.send.currentData_append data
    exact hdata ▸ (hfollows.waiting write hwrite hwanted).trans (List.prefix_append _ _)

theorem Follows.flush {state : Sending} {stream : Bytes} (hfollows : state.Follows stream)
    (writes : SslTransfer Nat) : (state.call (.flush writes)).Follows stream where
  split := by
    rw [← hfollows.split, acceptedBytes_flushWrites writes state.si, ← List.append_assoc]
    exact congrArg (· ++ _) List.flatMap_append
  chain := by
    have hrecord := flushRecord_flushSend writes state.si
    refine hfollows.chain.append hrecord.chain fun write hwrite next hnext hwanted ↦ ?_
    rw [hrecord.first next hnext]
    exact hfollows.waiting write hwrite hwanted
  waiting write hwrite hwanted := by
    have hrecord := flushRecord_flushSend writes state.si
    have hsplit := acceptedBytes_flushWrites writes state.si
    rw [Sending.call, List.getLast?_append] at hwrite
    cases hlast : (flushWrites writes state.si).getLast? with
    | none =>
      rw [hlast, Option.none_or] at hwrite
      rw [List.getLast?_eq_none_iff.mp hlast] at hsplit
      show write.offered <+: (flushSend writes state.si).1.send.currentData
      rw [← List.nil_append (flushSend writes state.si).1.send.currentData]
      exact hsplit ▸ hfollows.waiting write hwrite hwanted
    | some last =>
      rw [hlast, Option.some_or, ← hlast] at hwrite
      rw [hrecord.last write hwrite hwanted]
      exact List.prefix_refl _

theorem follows_after (si : SocketInfo) (calls : List SendCall) :
    (after si calls).Follows (appendedData calls) := by
  induction calls using List.reverseRecOn with
  | nil =>
    refine ⟨rfl, List.isChain_nil, fun write hwrite ↦ ?_⟩
    cases hwrite
  | append_singleton calls next ih =>
    rw [after, List.foldl_concat, appendedData, List.flatMap_append, List.flatMap_singleton]
    cases next with
    | append data => exact ih.append data
    | flush writes =>
      rw [SendCall.data, List.append_nil]
      exact ih.flush writes

end Sending

/-- The stream that is sent: after any calls, what the TLS layer accepted is the front of what was
appended and the rest is still in the buffer; a write after one that wanted I/O repeats it; and a
`flush_send` that returns a count has sent that many bytes, and stopped for want of bytes or of
I/O. -/
theorem stream_sent (si : SocketInfo) (calls : List SendCall) :
    acceptedBytes (Sending.after si calls).writes <+: appendedData calls ∧
    acceptedBytes (Sending.after si calls).writes ++ (Sending.after si calls).si.send.currentData =
      appendedData calls ∧
    (Sending.after si calls).si.send.currentData.length =
      (Sending.after si calls).si.send.remaining ∧
    (Sending.after si calls).writes.IsChain TlsWrite.Retries ∧
    ∀ (writes : SslTransfer Nat) (sent : Nat),
      (flushSend writes (Sending.after si calls).si).2 = some sent →
      sent = (acceptedBytes (flushWrites writes (Sending.after si calls).si)).length ∧
      ((flushSend writes (Sending.after si calls).si).1.send.hasPending = false ∨
        ∃ write ∈ (flushWrites writes (Sending.after si calls).si).getLast?, write.WantedIo) := by
  have hfollows := Sending.follows_after si calls
  refine ⟨⟨_, hfollows.split⟩, hfollows.split, OffsetBuffer.length_currentData _, hfollows.chain,
    fun writes sent hsent ↦ ?_⟩
  have hcount := (flushRecord_flushSend writes _).count sent hsent
  rw [Nat.zero_add] at hcount
  exact hcount

/-- Two of five bytes are taken and the next write wants I/O; after an append the rest goes out. -/
theorem stream_sent_partial :
    5 = (acceptedBytes (flushWrites { reports := [4, 1], failure := .wantWrite }
      (Sending.after { ufd := 5 } [.append (text "hello"),
        .flush { reports := [2], failure := .wantWrite }, .append (text "!\n")]).si)).length :=
  ((stream_sent { ufd := 5 } [.append (text "hello"),
    .flush { reports := [2], failure := .wantWrite }, .append (text "!\n")]).2.2.2.2
      { reports := [4, 1], failure := .wantWrite } 5 (by decide)).1

end ChatServer
