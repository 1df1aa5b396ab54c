import Mathlib.Data.Finset.Basic
import ChatServer.General.DelimitedStream
import ChatServer.Protocol.CommandCodec

/-!
# Buffers, TLS sessions and the transfer loops

`OffsetBuffer` is a byte string with a read position that never passes its end, the base of the send
and the receive buffer; `parseLine` takes the next line out of one. `TlsSession` is what the server
remembers of an OpenSSL connection. `drainRecv` and `flushSend` are the loops that empty the socket
into the receive buffer and the send buffer into the socket.

OpenSSL is not part of the repository. What its calls return is given to the loops from outside:
`SslTransfer` lists the calls that succeed, with the bytes or the count each reports, and the error
of the first call that does not. Documented behaviour of `SSL_read_ex` and `SSL_write_ex` is built
in: a call reports at most the length it was given, and leaves the count at zero when it fails.

Not modelled here: the texts of errors, which the server only logs, the peer endpoint, which it
only logs too, and `SSL_shutdown`, which changes nothing the server reads again.
-/

set_option autoImplicit false
set_option relaxedAutoImplicit false

namespace ChatServer

/-! ### Buffers -/

/-- `offset_buffer`. -/
structure OffsetBuffer where
  buf : Bytes := []
  offset : Nat := 0
  offset_le : offset ≤ buf.length := by simp

namespace OffsetBuffer

/-- The buffer of a new connection. -/
abbrev empty : OffsetBuffer :=
  {}

/-- `current_data()` up to the end of the buffer. -/
def currentData (buffer : OffsetBuffer) : Bytes :=
  buffer.buf.drop buffer.offset

/-- `has_pending()`. -/
def hasPending (buffer : OffsetBuffer) : Bool :=
  decide (buffer.offset < buffer.buf.length)

/-- `remaining()`. -/
def remaining (buffer : OffsetBuffer) : Nat :=
  buffer.buf.length - buffer.offset

/-- `advance(n)`. -/
def advance (buffer : OffsetBuffer) (n : Nat) (hn : n ≤ buffer.remaining) : OffsetBuffer where
  buf := buffer.buf
  offset := buffer.offset + n
  offset_le := by
    have hoffset := buffer.offset_le
    unfold remaining at hn
    omega

/-- `clear_if_done()`: the buffer, and whether it was cleared. -/
def clearIfDone (buffer : OffsetBuffer) : OffsetBuffer × Bool :=
  if buffer.buf.length ≠ buffer.offset then (buffer, false) else ({}, true)

/-- `compact_if_needed()`: the buffer, and whether it was compacted. -/
def compactIfNeeded (buffer : OffsetBuffer) : OffsetBuffer × Bool :=
  if buffer.offset < 8192 then (buffer, false)
  else if buffer.offset * 2 < buffer.buf.length then (buffer, false)
  else ({ buf := buffer.buf.drop buffer.offset }, true)

/-- `append` of the receive buffer. -/
def append (buffer : OffsetBuffer) (data : Bytes) : OffsetBuffer where
  buf := buffer.buf ++ data
  offset := buffer.offset
  offset_le := by
    rw [List.length_append]
    exact Nat.le_add_right_of_le buffer.offset_le

/-- `append` of the send buffer: the buffer, and whether it had nothing to send and now has. -/
def appendSending (buffer : OffsetBuffer) (data : Bytes) : OffsetBuffer × Bool :=
  (buffer.append data, !buffer.hasPending && (buffer.append data).hasPending)

/-- `if(!buf.clear_if_done()) buf.compact_if_needed()`. -/
def tidy (buffer : OffsetBuffer) : OffsetBuffer :=
  if buffer.clearIfDone.2 then buffer.clearIfDone.1 else buffer.clearIfDone.1.compactIfNeeded.1

theorem currentData_append (buffer : OffsetBuffer) (data : Bytes) :
    (buffer.append data).currentData = buffer.currentData ++ data :=
  List.drop_append_of_le_length buffer.offset_le

@[simp] theorem append_nil (buffer : OffsetBuffer) : buffer.append [] = buffer := by
  simp [append]

@[simp] theorem append_append (buffer : OffsetBuffer) (data more : Bytes) :
    (buffer.append data).append more = buffer.append (data ++ more) := by
  simp [append]

theorem hasPending_eq_false {buffer : OffsetBuffer} :
    buffer.hasPending = false ↔ buffer.currentData = [] := by
  rw [hasPending, currentData, decide_eq_false_iff_not, not_lt, List.drop_eq_nil_iff]

/-- A buffer is pending after a command is appended. -/
theorem hasPending_append (buffer : OffsetBuffer) (cmd : Command) :
    (buffer.append (encode cmd)).hasPending = true := by
  rw [← Bool.not_eq_false, hasPending_eq_false, currentData_append]
  exact List.append_ne_nil_of_right_ne_nil _ (encode_ne_nil cmd)

theorem appendSending_snd (buffer : OffsetBuffer) (cmd : Command) :
    (buffer.appendSending (encode cmd)).2 = !buffer.hasPending := by
  unfold appendSending
  rw [hasPending_append, Bool.and_true]

/-- Clearing a finished buffer leaves what is still to be read. -/
theorem currentData_clearIfDone (buffer : OffsetBuffer) :
    buffer.clearIfDone.1.currentData = buffer.currentData := by
  unfold clearIfDone
  by_cases hdone : buffer.buf.length = buffer.offset
  · rw [if_neg (not_not.mpr hdone), currentData, currentData, ← hdone, List.drop_length]
    rfl
  · rw [if_pos hdone]

/-- Compacting leaves what is still to be read. -/
theorem currentData_compactIfNeeded (buffer : OffsetBuffer) :
    buffer.compactIfNeeded.1.currentData = buffer.currentData := by
  unfold compactIfNeeded
  split_ifs <;> rfl

theorem currentData_tidy (buffer : OffsetBuffer) :
    buffer.tidy.currentData = buffer.currentData := by
  unfold tidy
  split_ifs
  · exact currentData_clearIfDone buffer
  · rw [currentData_compactIfNeeded, currentData_clearIfDone]

/-! ### Lines -/

/-- The position after a line and its `'\n'` is in the buffer. -/
theorem offset_line_le {buffer : OffsetBuffer} {line rest : Bytes}
    (hcut : DelimitedStream.cut newline buffer.currentData = some (line, rest)) :
    buffer.offset + line.length + 1 ≤ buffer.buf.length := by
  have hlength := congrArg List.length (DelimitedStream.cut_eq_some hcut).1
  rw [currentData, List.length_drop, List.length_append, List.length_cons] at hlength
  have hoffset := buffer.offset_le
  omega

/-- `line_parser::parse_line`. -/
def parseLine (buffer : OffsetBuffer) : Option (Bytes × OffsetBuffer) :=
  match hcut : DelimitedStream.cut newline buffer.currentData with
  | none => none
  | some (line, _) =>
    some (line, ({ buf := buffer.buf, offset := buffer.offset + line.length + 1,
                   offset_le := offset_line_le hcut } : OffsetBuffer).tidy)

/-- There is no line to take exactly when no `'\n'` is left to read. -/
theorem parseLine_eq_none {buffer : OffsetBuffer} :
    buffer.parseLine = none ↔ newline ∉ buffer.currentData := by
  rw [← DelimitedStream.cut_eq_none]
  unfold parseLine
  split
  · next hcut => simp [hcut]
  · next hcut => simp [hcut]

/-- What is left to read after a line and its `'\n'`. -/
theorem drop_line {buffer : OffsetBuffer} {line rest : Bytes}
    (hdata : buffer.currentData = line ++ newline :: rest) :
    buffer.buf.drop (buffer.offset + line.length + 1) = rest := by
  unfold currentData at hdata
  rw [Nat.add_assoc, ← List.drop_drop, hdata, ← List.drop_drop, List.drop_left, List.drop_one,
    List.tail_cons]

/-- A line taken was in front of what is left to read, ended by its `'\n'`. -/
theorem parseLine_eq_some {buffer after : OffsetBuffer} {line : Bytes}
    (hparse : buffer.parseLine = some (line, after)) :
    buffer.currentData = line ++ newline :: after.currentData ∧ newline ∉ line := by
  unfold parseLine at hparse
  split at hparse
  · cases hparse
  · next rest hcut =>
    obtain ⟨hdata, hline⟩ := DelimitedStream.cut_eq_some hcut
    rw [Option.some.injEq, Prod.mk.injEq] at hparse
    obtain ⟨rfl, rfl⟩ := hparse
    refine ⟨hdata.trans ?_, hline⟩
    rw [currentData_tidy]
    exact congrArg (_ ++ newline :: ·) (drop_line hdata).symm

/-- What is left after a line is shorter than before. -/
theorem length_parseLine_lt {buffer after : OffsetBuffer} {line : Bytes}
    (hparse : buffer.parseLine = some (line, after)) :
    after.currentData.length < buffer.currentData.length := by
  rw [(parseLine_eq_some hparse).1, List.length_append, List.length_cons]
  omega

/-- There is no line in nothing. -/
theorem parseLine_of_length_le_zero {buffer : OffsetBuffer}
    (hlength : buffer.currentData.length ≤ 0) : buffer.parseLine = none := by
  rw [parseLine_eq_none, List.length_eq_zero_iff.mp (Nat.le_zero.mp hlength)]
  exact List.not_mem_nil

end OffsetBuffer

/-! ### TLS sessions -/

/-- `SSL_get_error` after a call that did not succeed; `syscall` carries `errno`. -/
inductive SslError
  | wantRead
  | wantWrite
  | zeroReturn
  | syscall (errno : Nat)
  | ssl (reason : Nat)
  | other
  deriving DecidableEq

/-- `tls_io_result`. -/
structure TlsIoResult where
  byte : Nat := 0
  closed : Bool := false
  wantRead : Bool := false
  wantWrite : Bool := false
  deriving DecidableEq

/-- `tls_session`; `hasSsl` is `ssl != nullptr`. -/
structure TlsSession where
  hasSsl : Bool := true
  handshakeDone : Bool := false
  wantRead : Bool := false
  wantWrite : Bool := false
  peerClosed : Bool := false
  deriving DecidableEq

/-- `ECONNRESET`, `EPIPE` and `ENOTCONN` on Linux, or no error code at all: the errors of a call
that mean the peer is gone. -/
def isGone (errno : Nat) : Bool :=
  errno = 0 || errno = 104 || errno = 32 || errno = 107

/-- `tls_session::from_ssl_error`; `none` is `std::unexpected`. -/
def fromSslError (error : SslError) (byte : Nat) : Option TlsIoResult :=
  match error with
  | .wantRead => some { byte := byte, wantRead := true }
  | .wantWrite => some { byte := byte, wantWrite := true }
  | .zeroReturn => some { byte := byte, closed := true }
  | .syscall errno => if isGone errno then some { byte := byte, closed := true } else none
  | .ssl _ => none
  | .other => none

namespace TlsSession

/-- `apply_state`. -/
def applyState (tls : TlsSession) (io : TlsIoResult) : TlsSession :=
  { tls with
    wantRead := io.wantRead
    wantWrite := io.wantWrite
    peerClosed := tls.peerClosed || io.closed }

/-- The end of every call: the state is applied to a result, and an error changes nothing. -/
def finish (tls : TlsSession) (io : Option TlsIoResult) : TlsSession × Option TlsIoResult :=
  match io with
  | some io => (tls.applyState io, some io)
  | none => (tls, none)

/-- `handshake()`; `outcome` is the error of `SSL_do_handshake`, `none` when it returns 1. -/
def handshake (tls : TlsSession) (outcome : Option SslError) : TlsSession × Option TlsIoResult :=
  if ¬ tls.hasSsl then (tls, none)
  else if tls.handshakeDone then tls.finish (some {})
  else
    match outcome with
    | none => { tls with handshakeDone := true }.finish (some {})
    | some error => tls.finish (fromSslError error 0)

/-- `read(dst, cap)` and `write(src, len)`: `SSL_read_ex` and `SSL_write_ex` differ only in the
direction of the bytes. `outcome` is the count of a call that succeeds, or its error. -/
def transfer (tls : TlsSession) (len : Nat) (outcome : Except SslError Nat) :
    TlsSession × Option TlsIoResult :=
  if ¬ tls.hasSsl then (tls, none)
  else if len = 0 then tls.finish (some {})
  else
    match outcome with
    | .ok byte => tls.finish (some { byte := min byte len })
    | .error error => tls.finish (fromSslError error 0)

end TlsSession

theorem byte_fromSslError {error : SslError} {byte : Nat} {io : TlsIoResult}
    (hio : fromSslError error byte = some io) : io.byte = byte := by
  unfold fromSslError at hio
  cases error with
  | syscall errno =>
    dsimp only at hio
    split_ifs at hio
    cases hio
    rfl
  | ssl reason => cases hio
  | other => cases hio
  | _ =>
    cases hio
    rfl

namespace TlsSession

variable {tls : TlsSession} {len : Nat}

theorem snd_finish (tls : TlsSession) (io : Option TlsIoResult) : (tls.finish io).2 = io := by
  cases io <;> rfl

theorem hasSsl_finish (tls : TlsSession) (io : Option TlsIoResult) :
    (tls.finish io).1.hasSsl = tls.hasSsl := by
  cases io <;> rfl

theorem transfer_ok (hssl : tls.hasSsl = true) (hlen : len ≠ 0) (count : Nat) :
    tls.transfer len (.ok count) = tls.finish (some { byte := min count len }) := by
  unfold transfer
  rw [if_neg (not_not.mpr hssl), if_neg hlen]

theorem transfer_error (hssl : tls.hasSsl = true) (hlen : len ≠ 0) (error : SslError) :
    tls.transfer len (.error error) = tls.finish (fromSslError error 0) := by
  unfold transfer
  rw [if_neg (not_not.mpr hssl), if_neg hlen]

/-- A call takes at most the bytes it was offered. -/
theorem byte_transfer_le {outcome : Except SslError Nat} {io : TlsIoResult}
    (hio : (tls.transfer len outcome).2 = some io) : io.byte ≤ len := by
  by_cases hopen : tls.hasSsl = true ∧ len ≠ 0
  · cases outcome with
    | ok count =>
      rw [transfer_ok hopen.1 hopen.2, snd_finish, Option.some.injEq] at hio
      rw [← hio]
      exact min_le_right _ _
    | error error =>
      rw [transfer_error hopen.1 hopen.2, snd_finish] at hio
      exact (byte_fromSslError hio).trans_le (Nat.zero_le _)
  · unfold transfer at hio
    by_cases hssl : tls.hasSsl = true
    · rw [if_neg (not_not.mpr hssl), if_pos (not_not.mp fun hlen ↦ hopen ⟨hssl, hlen⟩),
        snd_finish, Option.some.injEq] at hio
      rw [← hio]
      exact Nat.zero_le _
    · rw [if_pos hssl] at hio
      cases hio

end TlsSession

/-! ### Connections -/

/-- `socket_info`. -/
structure SocketInfo where
  recv : OffsetBuffer := .empty
  send : OffsetBuffer := .empty
  tls : TlsSession := {}
  isClosed : Bool := false
  interest : UInt32 := 0
  ufd : Int
  userId : Bytes := []
  nickname : Bytes := text "guest"
  joinedRoomIds : Finset Int := ∅

/-- `recv_info`. -/
structure RecvInfo where
  byte : Nat := 0
  closed : Bool := false
  deriving DecidableEq

/-- The calls of one transfer loop: what the successful ones report, and the error of the next. -/
structure SslTransfer (Report : Type) where
  reports : List Report
  failure : SslError

/-- `BUF_SIZE`. -/
def bufSize : Nat := 4096

/-! ### `drain_recv` -/

/-- A round of the loop in which `read` did not report bytes. -/
def drainStop (si : SocketInfo) (info : RecvInfo) (io : Option TlsIoResult) :
    SocketInfo × Option RecvInfo :=
  match io with
  | none => (si, none)
  | some io => if io.closed then (si, some { info with closed := true }) else (si, some info)

/-- The loop of `drain_recv`. -/
def drainLoop (failure : SslError) : List Bytes → SocketInfo → RecvInfo →
    SocketInfo × Option RecvInfo
  | [], si, info =>
    let read := si.tls.transfer bufSize (.error failure)
    drainStop { si with tls := read.1 } info read.2
  | data :: later, si, info =>
    let read := si.tls.transfer bufSize (.ok data.length)
    let si := { si with tls := read.1 }
    match read.2 with
    | none => drainStop si info none
    | some io =>
      if io.byte > 0 then
        drainLoop failure later { si with recv := si.recv.append (data.take io.byte) }
          { info with byte := info.byte + io.byte }
      else drainStop si info (some io)

/-- `drain_recv`; `none` is `std::unexpected`. -/
def drainRecv (reads : SslTransfer Bytes) (si : SocketInfo) : SocketInfo × Option RecvInfo :=
  if ¬ si.tls.hasSsl then (si, none) else drainLoop reads.failure reads.reports si {}

/-! ### `flush_send` -/

/-- A round of the loop in which `write` did not succeed. -/
def flushStop (si : SocketInfo) (sent : Nat) (io : Option TlsIoResult) : SocketInfo × Option Nat :=
  match io with
  | none => (si, none)
  | some io =>
    if io.closed then (si, none)
    else if io.wantRead || io.wantWrite then
      ({ si with send := si.send.compactIfNeeded.1 }, some sent)
    else (si, none)

/-- The loop of `flush_send`. -/
def flushLoop (failure : SslError) : List Nat → SocketInfo → Nat → SocketInfo × Option Nat
  | writes, si, sent =>
    if ¬ si.send.hasPending then ({ si with send := si.send.clearIfDone.1 }, some sent)
    else
      match writes with
      | [] =>
        let write := si.tls.transfer si.send.remaining (.error failure)
        flushStop { si with tls := write.1 } sent write.2
      | count :: later =>
        let write := si.tls.transfer si.send.remaining (.ok count)
        let byte := min count si.send.remaining
        let si := { si with tls := write.1, send := si.send.advance byte (min_le_right _ _) }
        if byte = 0 then flushStop si sent write.2 else flushLoop failure later si (sent + byte)

/-- `flush_send`; `none` is `std::unexpected`. -/
def flushSend (writes : SslTransfer Nat) (si : SocketInfo) : SocketInfo × Option Nat :=
  if ¬ si.tls.hasSsl then (si, none) else flushLoop writes.failure writes.reports si 0

/-- The bytes that the calls of `write` in this loop take. -/
def flushedBytes : List Nat → OffsetBuffer → Bytes
  | writes, send =>
    if ¬ send.hasPending then []
    else
      match writes with
      | [] => []
      | count :: later =>
        let byte := min count send.remaining
        if byte = 0 then []
        else send.currentData.take byte ++ flushedBytes later (send.advance byte (min_le_right _ _))

/-- A call of `tls_session::write`: the bytes it was offered, and what OpenSSL answered. -/
structure TlsWrite where
  offered : Bytes
  outcome : Except SslError Nat

/-- The calls of `write` that the loop of `flush_send` makes. -/
def flushLoopWrites (failure : SslError) : List Nat → OffsetBuffer → List TlsWrite
  | writes, send =>
    if ¬ send.hasPending then []
    else
      match writes with
      | [] => [{ offered := send.currentData, outcome := .error failure }]
      | count :: later =>
        let byte := min count send.remaining
        { offered := send.currentData, outcome := .ok count } ::
          if byte = 0 then []
          else flushLoopWrites failure later (send.advance byte (min_le_right _ _))

/-- The calls of `write` that `flush_send` makes. -/
def flushWrites (writes : SslTransfer Nat) (si : SocketInfo) : List TlsWrite :=
  if ¬ si.tls.hasSsl then [] else flushLoopWrites writes.failure writes.reports si.send

theorem OffsetBuffer.currentData_advance (buffer : OffsetBuffer) {n : Nat}
    (hn : n ≤ buffer.remaining) :
    buffer.currentData = buffer.currentData.take n ++ (buffer.advance n hn).currentData := by
  have hdrop : (buffer.advance n hn).currentData = buffer.currentData.drop n :=
    List.drop_drop.symm
  rw [hdrop, List.take_append_drop]

theorem flushStop_currentData (si : SocketInfo) (sent : Nat) (io : Option TlsIoResult) :
    (flushStop si sent io).1.send.currentData = si.send.currentData := by
  unfold flushStop
  cases io with
  | none => rfl
  | some io =>
    dsimp only
    split_ifs
    · rfl
    · exact OffsetBuffer.currentData_compactIfNeeded si.send
    · rfl

/-- What was to be sent is what the loop sent and what is still to be sent. -/
theorem flushLoop_currentData (failure : SslError) (reports : List Nat) (si : SocketInfo)
    (sent : Nat) : si.send.currentData = flushedBytes reports si.send ++
      (flushLoop failure reports si sent).1.send.currentData := by
  induction reports generalizing si sent with
  | nil =>
    unfold flushLoop flushedBytes
    by_cases hpending : si.send.hasPending = true
    · rw [if_neg (not_not.mpr hpending), if_neg (not_not.mpr hpending)]
      dsimp only
      rw [List.nil_append, flushStop_currentData]
    · rw [if_pos hpending, if_pos hpending, List.nil_append]
      exact (OffsetBuffer.currentData_clearIfDone si.send).symm
  | cons count later ih =>
    unfold flushLoop flushedBytes
    by_cases hpending : si.send.hasPending = true
    · rw [if_neg (not_not.mpr hpending), if_neg (not_not.mpr hpending)]
      have hadvance := si.send.currentData_advance (min_le_right count si.send.remaining)
      dsimp only
      by_cases hbyte : min count si.send.remaining = 0
      · have hnone : si.send.currentData.take (min count si.send.remaining) = [] := by
          rw [hbyte, List.take_zero]
        rw [if_pos hbyte, if_pos hbyte, List.nil_append, flushStop_currentData]
        rw [hnone, List.nil_append] at hadvance
        exact hadvance
      · have hlater := ih
          { si with
            tls := (si.tls.transfer si.send.remaining (.ok count)).1
            send := si.send.advance (min count si.send.remaining) (min_le_right _ _) }
          (sent + min count si.send.remaining)
        rw [if_neg hbyte, if_neg hbyte, List.append_assoc, ← hlater]
        exact hadvance
    · rw [if_pos hpending, if_pos hpending, List.nil_append]
      exact (OffsetBuffer.currentData_clearIfDone si.send).symm

/-- `flush_send` sends the front of what was to be sent. -/
theorem flushSend_currentData {writes : SslTransfer Nat} {si : SocketInfo}
    (hssl : si.tls.hasSsl = true) : si.send.currentData = flushedBytes writes.reports si.send ++
      (flushSend writes si).1.send.currentData := by
  unfold flushSend
  rw [if_neg (not_not.mpr hssl)]
  exact flushLoop_currentData writes.failure writes.reports si 0

/-! ### What the loops leave alone -/

/-- The same descriptor, user, nickname and rooms: what no transfer of bytes changes. -/
structure SocketInfo.SameIdentity (first second : SocketInfo) : Prop where
  ufd : second.ufd = first.ufd
  userId : second.userId = first.userId
  nickname : second.nickname = first.nickname
  joinedRoomIds : second.joinedRoomIds = first.joinedRoomIds

theorem SocketInfo.SameIdentity.refl (si : SocketInfo) : si.SameIdentity si :=
  ⟨rfl, rfl, rfl, rfl⟩

theorem SocketInfo.SameIdentity.trans {first second third : SocketInfo}
    (hfirst : first.SameIdentity second) (hsecond : second.SameIdentity third) :
    first.SameIdentity third :=
  ⟨hsecond.ufd.trans hfirst.ufd, hsecond.userId.trans hfirst.userId,
    hsecond.nickname.trans hfirst.nickname, hsecond.joinedRoomIds.trans hfirst.joinedRoomIds⟩

/-- The receive buffer grows by these bytes at its end, and the identity stays. -/
structure SocketInfo.Receives (before after : SocketInfo) (data : Bytes) : Prop where
  buf : after.recv.buf = before.recv.buf ++ data
  offset : after.recv.offset = before.recv.offset
  identity : before.SameIdentity after

theorem SocketInfo.Receives.of_recv_eq {before after : SocketInfo}
    (hrecv : after.recv = before.recv) (hidentity : before.SameIdentity after) :
    before.Receives after [] :=
  ⟨by rw [hrecv, List.append_nil], by rw [hrecv], hidentity⟩

theorem SocketInfo.Receives.trans {first second third : SocketInfo} {data more : Bytes}
    (hfirst : first.Receives second data) (hsecond : second.Receives third more) :
    first.Receives third (data ++ more) where
  buf := by rw [hsecond.buf, hfirst.buf, List.append_assoc]
  offset := hsecond.offset.trans hfirst.offset
  identity := hfirst.identity.trans hsecond.identity

/-- The bytes still to be read are those from before, followed by the new ones. -/
theorem SocketInfo.Receives.currentData {before after : SocketInfo} {data : Bytes}
    (hreceives : before.Receives after data) :
    after.recv.currentData = before.recv.currentData ++ data := by
  rw [OffsetBuffer.currentData, hreceives.buf, hreceives.offset,
    List.drop_append_of_le_length before.recv.offset_le, OffsetBuffer.currentData]

theorem handshakeDone_finish (tls : TlsSession) (io : Option TlsIoResult) :
    (tls.finish io).1.handshakeDone = tls.handshakeDone := by
  cases io <;> rfl

/-- A transfer leaves the handshake as it is. -/
theorem handshakeDone_transfer (tls : TlsSession) (len : Nat) (outcome : Except SslError Nat) :
    (tls.transfer len outcome).1.handshakeDone = tls.handshakeDone := by
  unfold TlsSession.transfer
  split_ifs
  · rfl
  · cases outcome with
    | ok byte => rfl
    | error error => exact handshakeDone_finish tls _
  · rfl

theorem drainStop_fst (si : SocketInfo) (info : RecvInfo) (io : Option TlsIoResult) :
    (drainStop si info io).1 = si := by
  unfold drainStop
  cases io with
  | none => rfl
  | some io =>
    dsimp only
    split_ifs <;> rfl

/-- The loop of `drain_recv` changes the TLS state, but not the handshake, and adds bytes that the
calls report. -/
theorem drainLoop_fst (failure : SslError) (reports : List Bytes) (si : SocketInfo)
    (info : RecvInfo) : ∃ tls data, tls.handshakeDone = si.tls.handshakeDone ∧
      data ⊆ reports.flatten ∧
      (drainLoop failure reports si info).1 =
        { si with tls := tls, recv := si.recv.append data } := by
  induction reports generalizing si info with
  | nil =>
    refine ⟨_, [], handshakeDone_transfer si.tls bufSize (.error failure), List.nil_subset _, ?_⟩
    unfold drainLoop
    rw [drainStop_fst, OffsetBuffer.append_nil]
  | cons data later ih =>
    unfold drainLoop
    dsimp only
    have hshaken := handshakeDone_transfer si.tls bufSize (.ok data.length)
    split
    · refine ⟨_, [], hshaken, List.nil_subset _, ?_⟩
      rw [drainStop_fst, OffsetBuffer.append_nil]
    · next io hio =>
      split_ifs
      · obtain ⟨tls, more, hkept, hreported, hmore⟩ := ih
          { si with
            tls := (si.tls.transfer bufSize (.ok data.length)).1
            recv := si.recv.append (data.take io.byte) }
          { info with byte := info.byte + io.byte }
        refine ⟨tls, data.take io.byte ++ more, hkept.trans hshaken, ?_, ?_⟩
        · rw [List.flatten_cons]
          exact List.append_subset.mpr
            ⟨fun byte hbyte ↦ List.mem_append_left _ (List.mem_of_mem_take hbyte),
              fun byte hbyte ↦ List.mem_append_right _ (hreported hbyte)⟩
        · rw [hmore, OffsetBuffer.append_append]
      · refine ⟨_, [], hshaken, List.nil_subset _, ?_⟩
        rw [drainStop_fst, OffsetBuffer.append_nil]

theorem drainRecv_fst (reads : SslTransfer Bytes) (si : SocketInfo) :
    ∃ tls data, tls.handshakeDone = si.tls.handshakeDone ∧ data ⊆ reads.reports.flatten ∧
      (drainRecv reads si).1 = { si with tls := tls, recv := si.recv.append data } := by
  unfold drainRecv
  split_ifs
  · exact drainLoop_fst reads.failure reads.reports si {}
  · refine ⟨si.tls, [], rfl, List.nil_subset _, ?_⟩
    rw [OffsetBuffer.append_nil]

/-- `drain_recv` only adds bytes to the receive buffer, of those that arrive. -/
theorem drainRecv_receives (reads : SslTransfer Bytes) (si : SocketInfo) :
    ∃ data, data ⊆ reads.reports.flatten ∧ si.Receives (drainRecv reads si).1 data := by
  obtain ⟨tls, data, -, hreported, hdrain⟩ := drainRecv_fst reads si
  refine ⟨data, hreported, ?_⟩
  rw [hdrain]
  exact ⟨rfl, rfl, ⟨rfl, rfl, rfl, rfl⟩⟩

theorem flushStop_fst (si : SocketInfo) (sent : Nat) (io : Option TlsIoResult) :
    ∃ send, (flushStop si sent io).1 = { si with send := send } := by
  unfold flushStop
  cases io with
  | none => exact ⟨si.send, rfl⟩
  | some io =>
    dsimp only
    split_ifs <;> exact ⟨_, rfl⟩

/-- The loop of `flush_send` changes the TLS state, but not the handshake, and the send buffer. -/
theorem flushLoop_fst (failure : SslError) (reports : List Nat) (si : SocketInfo) (sent : Nat) :
    ∃ tls send, tls.handshakeDone = si.tls.handshakeDone ∧
      (flushLoop failure reports si sent).1 = { si with tls := tls, send := send } := by
  induction reports generalizing si sent with
  | nil =>
    unfold flushLoop
    dsimp only
    split_ifs
    · obtain ⟨send, hstop⟩ := flushStop_fst
        { si with tls := (si.tls.transfer si.send.remaining (.error failure)).1 } sent
        (si.tls.transfer si.send.remaining (.error failure)).2
      exact ⟨_, send, handshakeDone_transfer si.tls _ _, hstop⟩
    · exact ⟨si.tls, _, rfl, rfl⟩
  | cons count later ih =>
    have hshaken := handshakeDone_transfer si.tls si.send.remaining (.ok count)
    unfold flushLoop
    dsimp only
    split_ifs
    · obtain ⟨send, hstop⟩ := flushStop_fst
        { si with
          tls := (si.tls.transfer si.send.remaining (.ok count)).1
          send := si.send.advance (min count si.send.remaining) (min_le_right _ _) } sent
        (si.tls.transfer si.send.remaining (.ok count)).2
      exact ⟨_, send, hshaken, hstop⟩
    · obtain ⟨tls, send, hkept, hlater⟩ := ih
        { si with
          tls := (si.tls.transfer si.send.remaining (.ok count)).1
          send := si.send.advance (min count si.send.remaining) (min_le_right _ _) }
        (sent + min count si.send.remaining)
      exact ⟨tls, send, hkept.trans hshaken, hlater⟩
    · exact ⟨si.tls, _, rfl, rfl⟩

theorem flushSend_fst (writes : SslTransfer Nat) (si : SocketInfo) :
    ∃ tls send, tls.handshakeDone = si.tls.handshakeDone ∧
      (flushSend writes si).1 = { si with tls := tls, send := send } := by
  unfold flushSend
  split_ifs
  · exact flushLoop_fst writes.failure writes.reports si 0
  · exact ⟨si.tls, si.send, rfl, rfl⟩

/-- `flush_send` leaves the receive buffer alone. -/
theorem flushSend_receives (writes : SslTransfer Nat) (si : SocketInfo) :
    si.Receives (flushSend writes si).1 [] := by
  obtain ⟨tls, send, -, hflush⟩ := flushSend_fst writes si
  rw [hflush]
  exact SocketInfo.Receives.of_recv_eq rfl ⟨rfl, rfl, rfl, rfl⟩

theorem handshakeDone_flushSend (writes : SslTransfer Nat) (si : SocketInfo) :
    (flushSend writes si).1.tls.handshakeDone = si.tls.handshakeDone := by
  obtain ⟨tls, send, hkept, hflush⟩ := flushSend_fst writes si
  rw [hflush, hkept]

theorem handshakeDone_drainRecv (reads : SslTransfer Bytes) (si : SocketInfo) :
    (drainRecv reads si).1.tls.handshakeDone = si.tls.handshakeDone := by
  obtain ⟨tls, data, hkept, -, hdrain⟩ := drainRecv_fst reads si
  rw [hdrain, hkept]

end ChatServer
