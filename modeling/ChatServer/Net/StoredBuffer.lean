import ChatServer.General.TransitionSystem
import ChatServer.Net.SentStream

/-!
# Buffers as they are stored

`OffsetBuffer` counts with natural numbers and never has its read position behind its end.
`StoredBuffer` is the buffer of the source: `offset` is a `std::size_t` that any call may set, sums
and differences wrap around, and nothing but the callers keeps it in range. `Stores` relates the
two. Every operation of the source is simulated by the one of `OffsetBuffer`
(`Stores.clearIfDone` to `Stores.flushSend`), so the other modules speak of the stored buffers too.

A buffer is compact when `compact_if_needed` would leave it alone. `append` only adds bytes that are
to be read, and every call that moves the read position ends in `clear_if_done` or in
`compact_if_needed`. In any history of calls the bytes in front of the read position are therefore
fewer than 8192, or fewer than those behind it, and `remaining()` never wraps (`waste_bounded`).

A string has at most `PTRDIFF_MAX` bytes: an `append` past that throws and leaves the string as it
was. The calls of `tls_session::write` report any result, but never more bytes than they were
offered. A failed `flush_send` ends a history: the server closes the connection then.
-/

set_option autoImplicit false
set_option relaxedAutoImplicit false

namespace ChatServer

/-! ### Operations -/

/-- `PTRDIFF_MAX`, the bound of `std::string::max_size()`. -/
def maxStringSize : Nat := 9223372036854775807

/-- `offset_buffer` with its `std::size_t`. -/
structure StoredBuffer where
  buf : Bytes := []
  offset : UInt64 := 0
  deriving DecidableEq

namespace StoredBuffer

/-- `buf.size()`. -/
def size (buffer : StoredBuffer) : UInt64 :=
  .ofNat buffer.buf.length

/-- `has_pending()`. -/
def hasPending (buffer : StoredBuffer) : Bool :=
  decide (buffer.offset < buffer.size)

/-- `current_data()` up to the end of the string. -/
def currentData (buffer : StoredBuffer) : Bytes :=
  buffer.buf.drop buffer.offset.toNat

/-- `remaining()`. -/
def remaining (buffer : StoredBuffer) : UInt64 :=
  buffer.size - buffer.offset

/-- `advance(n)`. -/
def advance (buffer : StoredBuffer) (n : UInt64) : StoredBuffer :=
  { buffer with offset := buffer.offset + n }

/-- `set_offset(new_offset)`. -/
def setOffset (buffer : StoredBuffer) (newOffset : UInt64) : StoredBuffer :=
  { buffer with offset := newOffset }

/-- `clear_if_done()`: the buffer, and whether it was cleared. -/
def clearIfDone (buffer : StoredBuffer) : StoredBuffer × Bool :=
  if buffer.size ≠ buffer.offset then (buffer, false) else ({}, true)

/-- `compact_if_needed()`: the buffer, and whether it was compacted. -/
def compactIfNeeded (buffer : StoredBuffer) : StoredBuffer × Bool :=
  if buffer.offset < 8192 then (buffer, false)
  else if buffer.offset * 2 < buffer.size then (buffer, false)
  else ({ buf := buffer.buf.drop buffer.offset.toNat }, true)

/-- `if(!buf.clear_if_done()) buf.compact_if_needed()`. -/
def tidy (buffer : StoredBuffer) : StoredBuffer :=
  if buffer.clearIfDone.2 then buffer.clearIfDone.1 else buffer.clearIfDone.1.compactIfNeeded.1

/-- `append` of the receive buffer. -/
def append (buffer : StoredBuffer) (data : Bytes) : StoredBuffer :=
  if buffer.buf.length + data.length ≤ maxStringSize then { buffer with buf := buffer.buf ++ data }
  else buffer

/-- `append` of the send buffer: the buffer, and whether it had nothing to send and now has. -/
def appendSending (buffer : StoredBuffer) (data : Bytes) : StoredBuffer × Bool :=
  (buffer.append data, !buffer.hasPending && (buffer.append data).hasPending)

/-- `buf.find(byte, start)`; `none` is `npos`. -/
def find (buffer : StoredBuffer) (byte : UInt8) (start : UInt64) : Option UInt64 :=
  ((buffer.buf.drop start.toNat).findIdx? (· == byte)).map fun index ↦ start + .ofNat index

/-- `line_parser::parse_line`: the buffer, and the line if there is one. -/
def parseLine (buffer : StoredBuffer) : StoredBuffer × Option Bytes :=
  let start := buffer.offset
  match buffer.find newline start with
  | none => (buffer, none)
  | some pos =>
    ((buffer.setOffset (pos + 1)).tidy,
      some ((buffer.buf.drop start.toNat).take (pos - start).toNat))

end StoredBuffer

/-- What a call of `tls_session::write` returns for the length it is offered; `none` is
`std::unexpected`. -/
structure TlsAnswer where
  result : UInt64 → Option TlsIoResult
  byte_le : ∀ len, ∀ io ∈ result len, io.byte ≤ len.toNat

namespace StoredBuffer

/-- The loop of `flush_send`; `none` is `std::unexpected`, or a loop that is still running when
these calls of `write` are done. -/
def flushLoop : List TlsAnswer → StoredBuffer → UInt64 → StoredBuffer × Option UInt64
  | answers, send, sendByte =>
    if ¬ send.hasPending then (send.clearIfDone.1, some sendByte)
    else
      match answers with
      | [] => (send, none)
      | write :: later =>
        match write.result send.remaining with
        | none => (send, none)
        | some wr =>
          let advanced := if wr.byte > 0 then send.advance (.ofNat wr.byte) else send
          let sendByte := if wr.byte > 0 then sendByte + .ofNat wr.byte else sendByte
          if wr.closed then (advanced, none)
          else if wr.wantRead || wr.wantWrite then (advanced.compactIfNeeded.1, some sendByte)
          else if wr.byte = 0 then (advanced, none)
          else flushLoop later advanced sendByte

/-- `flush_send` on the send buffer of a connection. -/
def flushSend (tls : TlsSession) (answers : List TlsAnswer) (send : StoredBuffer) :
    StoredBuffer × Option UInt64 :=
  if ¬ tls.hasSsl then (send, none) else flushLoop answers send 0

end StoredBuffer

/-- A call on a buffer. -/
inductive BufferCall
  | append (data : Bytes)
  | appendSending (data : Bytes)
  | parseLine
  | flushSend (tls : TlsSession) (answers : List TlsAnswer)

namespace StoredBuffer

/-- One call; a `flush_send` that does not return a count is not possible. -/
def call (buffer : StoredBuffer) : BufferCall → Option StoredBuffer
  | .append data => some (buffer.append data)
  | .appendSending data => some (buffer.appendSending data).1
  | .parseLine => some buffer.parseLine.1
  | .flushSend tls answers =>
    match buffer.flushSend tls answers with
    | (left, some _) => some left
    | (_, none) => none

/-- The calls on a buffer, from a new one. -/
def calls : TransitionSystem StoredBuffer BufferCall where
  start := {}
  step := call

end StoredBuffer

/-! ### Compact buffers -/

namespace OffsetBuffer

/-- `compact_if_needed` would leave the buffer alone: the bytes in front of the read position are
fewer than 8192, or fewer than those behind it. -/
def Compact (buffer : OffsetBuffer) : Prop :=
  buffer.offset < 8192 ∨ buffer.offset < buffer.remaining

variable {buffer after : OffsetBuffer}

theorem remaining_ne_zero (hpending : buffer.hasPending = true) : buffer.remaining ≠ 0 :=
  Nat.sub_ne_zero_of_lt (of_decide_eq_true hpending)

theorem compact_of_offset_eq_zero (hoffset : buffer.offset = 0) : buffer.Compact := by
  left
  rw [hoffset]
  decide

/-- What is appended is behind the read position. -/
theorem Compact.append (hcompact : buffer.Compact) (data : Bytes) :
    (buffer.append data).Compact := by
  refine hcompact.imp_right fun hoffset ↦ hoffset.trans_le ?_
  show buffer.buf.length - buffer.offset ≤ (buffer.buf ++ data).length - buffer.offset
  rw [List.length_append]
  omega

theorem compact_compactIfNeeded (buffer : OffsetBuffer) : buffer.compactIfNeeded.1.Compact := by
  unfold compactIfNeeded
  split_ifs with hsmall hlive
  · exact Or.inl hsmall
  · right
    show buffer.offset < buffer.buf.length - buffer.offset
    omega
  · exact compact_of_offset_eq_zero rfl

theorem compact_tidy (buffer : OffsetBuffer) : buffer.tidy.Compact := by
  unfold tidy
  split_ifs with hcleared
  · unfold clearIfDone at hcleared ⊢
    split_ifs at hcleared ⊢
    exact compact_of_offset_eq_zero rfl
  · exact compact_compactIfNeeded _

/-- A buffer from which a line was taken is compact. -/
theorem compact_parseLine {line : Bytes} (hparse : buffer.parseLine = some (line, after)) :
    after.Compact := by
  unfold parseLine at hparse
  split at hparse
  · cases hparse
  · rw [Option.some.injEq, Prod.mk.injEq] at hparse
    rw [← hparse.2]
    exact compact_tidy _

/-- A buffer with nothing left to read is cleared. -/
theorem compact_clearIfDone (hpending : buffer.hasPending = false) :
    buffer.clearIfDone.1.Compact := by
  have hdone : buffer.buf.length = buffer.offset := by
    rw [hasPending, decide_eq_false_iff_not, not_lt] at hpending
    exact le_antisymm hpending buffer.offset_le
  unfold clearIfDone
  rw [if_neg (not_not.mpr hdone)]
  exact compact_of_offset_eq_zero rfl

end OffsetBuffer

/-! ### The stored buffer and the typed one -/

namespace StoredBuffer

/-- The stored buffer is this buffer: its words are exact. -/
structure Stores (stored : StoredBuffer) (buffer : OffsetBuffer) : Prop where
  buf : stored.buf = buffer.buf
  offset : stored.offset.toNat = buffer.offset
  length_le : buffer.buf.length ≤ maxStringSize

/-- What `flush_send` leaves, and its count: the buffer is compact if a count was returned. -/
def Flushed (flushed : StoredBuffer × Option UInt64) : Prop :=
  ∃ left : OffsetBuffer, flushed.1.Stores left ∧ (flushed.2 ≠ none → left.Compact)

theorem stores_empty : Stores {} .empty where
  buf := rfl
  offset := rfl
  length_le := Nat.zero_le _

namespace Stores

variable {stored : StoredBuffer} {buffer : OffsetBuffer}

theorem size (hstores : stored.Stores buffer) : stored.size.toNat = buffer.buf.length := by
  have hlength : buffer.buf.length < 2 ^ 64 := lt_of_le_of_lt hstores.length_le (by decide)
  rw [StoredBuffer.size, hstores.buf]
  exact UInt64.toNat_ofNat_of_lt' hlength

theorem offset_le (hstores : stored.Stores buffer) : stored.offset ≤ stored.size := by
  rw [UInt64.le_iff_toNat_le, hstores.offset, hstores.size]
  exact buffer.offset_le

theorem hasPending (hstores : stored.Stores buffer) : stored.hasPending = buffer.hasPending := by
  unfold StoredBuffer.hasPending OffsetBuffer.hasPending
  rw [decide_eq_decide, UInt64.lt_iff_toNat_lt, hstores.offset, hstores.size]

theorem currentData (hstores : stored.Stores buffer) :
    stored.currentData = buffer.currentData := by
  rw [StoredBuffer.currentData, OffsetBuffer.currentData, hstores.buf, hstores.offset]

/-- `remaining()` does not wrap. -/
theorem remaining (hstores : stored.Stores buffer) : stored.remaining.toNat = buffer.remaining := by
  rw [StoredBuffer.remaining, UInt64.toNat_sub_of_le _ _ hstores.offset_le, hstores.size,
    hstores.offset, OffsetBuffer.remaining]

theorem remaining_ne_zero (hstores : stored.Stores buffer) (hpending : buffer.hasPending = true) :
    stored.remaining.toNat ≠ 0 := by
  rw [hstores.remaining]
  exact OffsetBuffer.remaining_ne_zero hpending

theorem setOffset (hstores : stored.Stores buffer) {newOffset : UInt64} {position : Nat}
    (hoffset : newOffset.toNat = position) (hposition : position ≤ buffer.buf.length) :
    (stored.setOffset newOffset).Stores
      { buf := buffer.buf, offset := position, offset_le := hposition } where
  buf := hstores.buf
  offset := hoffset
  length_le := hstores.length_le

/-- A count of bytes that are there is exact. -/
theorem toNat_ofNat (hstores : stored.Stores buffer) {count : Nat}
    (hcount : count ≤ buffer.remaining) : (UInt64.ofNat count).toNat = count := by
  have hremaining : buffer.remaining < 2 ^ 64 := hstores.remaining ▸ stored.remaining.toNat_lt
  have hfits : count < 2 ^ 64 := hcount.trans_lt hremaining
  exact UInt64.toNat_ofNat_of_lt' hfits

/-- Positions up to the end of the string are exact. -/
theorem toNat_add (hstores : stored.Stores buffer) {count : Nat}
    (hcount : count ≤ buffer.remaining) :
    (stored.offset + .ofNat count).toNat = buffer.offset + count := by
  have hend : buffer.offset + count ≤ buffer.buf.length := (buffer.advance count hcount).offset_le
  have hmax : buffer.buf.length ≤ 2 ^ 63 - 1 := hstores.length_le
  rw [UInt64.toNat_add, hstores.offset, hstores.toNat_ofNat hcount, Nat.mod_eq_of_lt (by omega)]

theorem advance (hstores : stored.Stores buffer) {count : Nat} (hcount : count ≤ buffer.remaining) :
    (stored.advance (.ofNat count)).Stores (buffer.advance count hcount) where
  buf := hstores.buf
  offset := hstores.toNat_add hcount
  length_le := hstores.length_le

theorem append (hstores : stored.Stores buffer) {data : Bytes}
    (hfits : stored.buf.length + data.length ≤ maxStringSize) :
    (stored.append data).Stores (buffer.append data) := by
  unfold StoredBuffer.append
  rw [if_pos hfits]
  refine ⟨congrArg (· ++ data) hstores.buf, hstores.offset, ?_⟩
  rw [hstores.buf] at hfits
  exact List.length_append.trans_le hfits

theorem appendSending (hstores : stored.Stores buffer) {data : Bytes}
    (hfits : stored.buf.length + data.length ≤ maxStringSize) :
    (stored.appendSending data).1.Stores (buffer.appendSending data).1 ∧
      (stored.appendSending data).2 = (buffer.appendSending data).2 := by
  refine ⟨hstores.append hfits, ?_⟩
  rw [StoredBuffer.appendSending, OffsetBuffer.appendSending, hstores.hasPending,
    (hstores.append hfits).hasPending]

theorem clearIfDone (hstores : stored.Stores buffer) :
    stored.clearIfDone.1.Stores buffer.clearIfDone.1 ∧
      stored.clearIfDone.2 = buffer.clearIfDone.2 := by
  have hdone : stored.size ≠ stored.offset ↔ buffer.buf.length ≠ buffer.offset := by
    rw [Ne, ← UInt64.toNat_inj, hstores.size, hstores.offset]
  unfold StoredBuffer.clearIfDone OffsetBuffer.clearIfDone
  by_cases hpending : buffer.buf.length ≠ buffer.offset
  · rw [if_pos hpending, if_pos (hdone.mpr hpending)]
    exact ⟨hstores, rfl⟩
  · rw [if_neg hpending, if_neg (mt hdone.mp hpending)]
    exact ⟨stores_empty, rfl⟩

theorem compactIfNeeded (hstores : stored.Stores buffer) :
    stored.compactIfNeeded.1.Stores buffer.compactIfNeeded.1 := by
  have hsmall : stored.offset < 8192 ↔ buffer.offset < 8192 := by
    rw [UInt64.lt_iff_toNat_lt, hstores.offset]
    rfl
  have hlive : stored.offset * 2 < stored.size ↔ buffer.offset * 2 < buffer.buf.length := by
    have hoffset := buffer.offset_le
    have hmax : buffer.buf.length ≤ 2 ^ 63 - 1 := hstores.length_le
    have hdouble : (stored.offset * 2).toNat = buffer.offset * 2 := by
      have htwo : (2 : UInt64).toNat = 2 := rfl
      rw [UInt64.toNat_mul, hstores.offset, htwo, Nat.mod_eq_of_lt (by omega)]
    rw [UInt64.lt_iff_toNat_lt, hdouble, hstores.size]
  unfold StoredBuffer.compactIfNeeded OffsetBuffer.compactIfNeeded
  by_cases hfew : buffer.offset < 8192
  · rw [if_pos hfew, if_pos (hsmall.mpr hfew)]
    exact hstores
  · rw [if_neg hfew, if_neg (mt hsmall.mp hfew)]
    by_cases hmore : buffer.offset * 2 < buffer.buf.length
    · rw [if_pos hmore, if_pos (hlive.mpr hmore)]
      exact hstores
    · rw [if_neg hmore, if_neg (mt hlive.mp hmore)]
      refine ⟨?_, rfl, ?_⟩
      · dsimp only
        rw [hstores.buf, hstores.offset]
      · dsimp only
        rw [List.length_drop]
        exact (Nat.sub_le _ _).trans hstores.length_le

theorem tidy (hstores : stored.Stores buffer) : stored.tidy.Stores buffer.tidy := by
  obtain ⟨hcleared, hflag⟩ := hstores.clearIfDone
  unfold StoredBuffer.tidy OffsetBuffer.tidy
  rw [hflag]
  split_ifs
  · exact hcleared
  · exact hcleared.compactIfNeeded

theorem find (hstores : stored.Stores buffer) :
    stored.find newline stored.offset =
      (DelimitedStream.cut newline buffer.currentData).map fun found ↦
        stored.offset + .ofNat found.1.length := by
  have hdata : stored.buf.drop stored.offset.toNat = buffer.currentData := hstores.currentData
  rw [StoredBuffer.find, hdata, DelimitedStream.findIdx?_eq_cut, Option.map_map]
  rfl

theorem parseLine_of_none (hstores : stored.Stores buffer) (hparse : buffer.parseLine = none) :
    stored.parseLine = (stored, none) := by
  rw [OffsetBuffer.parseLine_eq_none, ← DelimitedStream.cut_eq_none] at hparse
  unfold StoredBuffer.parseLine
  dsimp only
  rw [hstores.find, hparse, Option.map_none]

theorem parseLine_of_some (hstores : stored.Stores buffer) {line : Bytes} {after : OffsetBuffer}
    (hparse : buffer.parseLine = some (line, after)) :
    stored.parseLine.1.Stores after ∧ stored.parseLine.2 = some line := by
  unfold OffsetBuffer.parseLine at hparse
  split at hparse
  · cases hparse
  · next taken rest hcut =>
    rw [Option.some.injEq, Prod.mk.injEq] at hparse
    obtain ⟨rfl, rfl⟩ := hparse
    have hend := OffsetBuffer.offset_line_le hcut
    have hcount : taken.length ≤ buffer.remaining := by
      unfold OffsetBuffer.remaining
      omega
    have hfind : stored.find newline stored.offset =
        some (stored.offset + .ofNat taken.length) := by
      rw [hstores.find, hcut, Option.map_some]
    have hpos : (stored.offset + .ofNat taken.length + 1).toNat =
        buffer.offset + taken.length + 1 := by
      have hmax : buffer.buf.length ≤ 2 ^ 63 - 1 := hstores.length_le
      rw [UInt64.toNat_add, hstores.toNat_add hcount, UInt64.toNat_one,
        Nat.mod_eq_of_lt (by omega)]
    have hlength : (stored.offset + .ofNat taken.length - stored.offset).toNat = taken.length := by
      rw [UInt64.add_comm, UInt64.add_sub_cancel, hstores.toNat_ofNat hcount]
    have hline : buffer.currentData.take taken.length = taken := by
      rw [(DelimitedStream.cut_eq_some hcut).1, List.take_left]
    unfold StoredBuffer.parseLine
    dsimp only
    rw [hfind]
    dsimp only
    rw [hlength, ← StoredBuffer.currentData, hstores.currentData, hline]
    exact ⟨(hstores.setOffset hpos hend).tidy, rfl⟩

/-! ### The loop of `flush_send` -/

/-- One call of `write` advances by the bytes it took. -/
theorem advance_result (hstores : stored.Stores buffer) {write : TlsAnswer} {wr : TlsIoResult}
    (hresult : write.result stored.remaining = some wr) :
    ∃ hcount : wr.byte ≤ buffer.remaining,
      (if wr.byte > 0 then stored.advance (.ofNat wr.byte) else stored).Stores
        (buffer.advance wr.byte hcount) := by
  have hcount : wr.byte ≤ buffer.remaining :=
    hstores.remaining ▸ write.byte_le stored.remaining wr hresult
  refine ⟨hcount, ?_⟩
  split_ifs with hbyte
  · exact hstores.advance hcount
  · have hzero : wr.byte = 0 := Nat.eq_zero_of_not_pos hbyte
    refine ⟨hstores.buf, ?_, hstores.length_le⟩
    show stored.offset.toNat = buffer.offset + wr.byte
    rw [hstores.offset, hzero, Nat.add_zero]

/-- The loop ends when there is nothing left to send. -/
theorem flushLoop_done (hstores : stored.Stores buffer) (hpending : ¬ stored.hasPending = true)
    (answers : List TlsAnswer) (sendByte : UInt64) :
    Flushed (StoredBuffer.flushLoop answers stored sendByte) := by
  unfold StoredBuffer.flushLoop
  rw [if_pos hpending]
  rw [Bool.not_eq_true, hstores.hasPending] at hpending
  exact ⟨_, hstores.clearIfDone.1, fun _ ↦ OffsetBuffer.compact_clearIfDone hpending⟩

theorem flushLoop (hstores : stored.Stores buffer) (answers : List TlsAnswer) (sendByte : UInt64) :
    Flushed (StoredBuffer.flushLoop answers stored sendByte) := by
  induction answers generalizing stored buffer sendByte with
  | nil =>
    by_cases hpending : stored.hasPending = true
    · unfold StoredBuffer.flushLoop
      rw [if_neg (not_not.mpr hpending)]
      exact ⟨buffer, hstores, absurd rfl⟩
    · exact hstores.flushLoop_done hpending _ sendByte
  | cons write later ih =>
    by_cases hpending : stored.hasPending = true
    · unfold StoredBuffer.flushLoop
      rw [if_neg (not_not.mpr hpending)]
      dsimp only
      cases hresult : write.result stored.remaining with
      | none => exact ⟨buffer, hstores, absurd rfl⟩
      | some wr =>
        obtain ⟨hcount, hadvanced⟩ := hstores.advance_result hresult
        dsimp only
        by_cases hclosed : wr.closed = true
        · rw [if_pos hclosed]
          exact ⟨_, hadvanced, absurd rfl⟩
        · rw [if_neg hclosed]
          by_cases hwants : (wr.wantRead || wr.wantWrite) = true
          · rw [if_pos hwants]
            exact ⟨_, hadvanced.compactIfNeeded,
              fun _ ↦ OffsetBuffer.compact_compactIfNeeded _⟩
          · rw [if_neg hwants]
            by_cases hzero : wr.byte = 0
            · rw [if_pos hzero]
              exact ⟨_, hadvanced, absurd rfl⟩
            · rw [if_neg hzero]
              exact ih hadvanced _
    · exact hstores.flushLoop_done hpending _ sendByte

end Stores

end StoredBuffer

/-! ### The calls of OpenSSL as answers -/

namespace TlsSession

/-- `write` on this session, with what OpenSSL does in the call. -/
def answer (tls : TlsSession) (outcome : Except SslError Nat) : TlsAnswer where
  result len := (tls.transfer len.toNat outcome).2
  byte_le _ _ hio := byte_transfer_le hio

/-- The calls of `write` in one `flush_send`. -/
def answers (tls : TlsSession) (writes : SslTransfer Nat) : List TlsAnswer :=
  writes.reports.map (fun count ↦ tls.answer (.ok count)) ++ [tls.answer (.error writes.failure)]

end TlsSession

namespace StoredBuffer.Stores

variable {stored : StoredBuffer} {si : SocketInfo}

/-- A call of `write` that takes nothing is the last one. -/
theorem flushLoop_failure (hstores : stored.Stores si.send)
    (hpending : si.send.hasPending = true) {write : TlsAnswer} {io : Option TlsIoResult}
    (hbyte : ∀ wr ∈ io, wr.byte = 0) (hresult : write.result stored.remaining = io) (sent : Nat)
    {tls : TlsSession} :
    (StoredBuffer.flushLoop [write] stored (.ofNat sent)).1.Stores
        (flushStop { si with tls := tls } sent io).1.send ∧
      (StoredBuffer.flushLoop [write] stored (.ofNat sent)).2 =
        (flushStop { si with tls := tls } sent io).2.map UInt64.ofNat := by
  unfold StoredBuffer.flushLoop flushStop
  rw [hstores.hasPending, if_neg (not_not.mpr hpending)]
  dsimp only
  rw [hresult]
  cases io with
  | none => exact ⟨hstores, rfl⟩
  | some wr =>
    have hzero : wr.byte = 0 := hbyte wr rfl
    have hnone : ¬ wr.byte > 0 := hzero ▸ Nat.lt_irrefl 0
    dsimp only
    rw [if_neg hnone, if_neg hnone]
    split_ifs
    · exact ⟨hstores, rfl⟩
    · exact ⟨hstores.compactIfNeeded, rfl⟩
    · exact ⟨hstores, rfl⟩

/-- The loop on the stored buffer is the loop of the server. -/
theorem flushLoop_answers (hstores : stored.Stores si.send) {tls : TlsSession}
    (htls : tls.hasSsl = true) (hssl : si.tls.hasSsl = true) (writes : SslTransfer Nat)
    (sent : Nat) :
    (StoredBuffer.flushLoop (tls.answers writes) stored (.ofNat sent)).1.Stores
        (ChatServer.flushLoop writes.failure writes.reports si sent).1.send ∧
      (StoredBuffer.flushLoop (tls.answers writes) stored (.ofNat sent)).2 =
        (ChatServer.flushLoop writes.failure writes.reports si sent).2.map UInt64.ofNat := by
  obtain ⟨reports, failure⟩ := writes
  unfold TlsSession.answers
  dsimp only
  induction reports generalizing stored si sent with
  | nil =>
    rw [List.map_nil, List.nil_append]
    by_cases hpending : si.send.hasPending = true
    · unfold ChatServer.flushLoop
      rw [if_neg (not_not.mpr hpending)]
      dsimp only
      have hresult : (tls.answer (.error failure)).result stored.remaining =
          fromSslError failure 0 := by
        have hremaining := hstores.remaining_ne_zero hpending
        show (tls.transfer stored.remaining.toNat (.error failure)).2 = _
        rw [TlsSession.transfer_error htls hremaining, TlsSession.snd_finish]
      rw [TlsSession.transfer_error hssl (OffsetBuffer.remaining_ne_zero hpending),
        TlsSession.snd_finish]
      exact hstores.flushLoop_failure hpending (fun wr hwr ↦ byte_fromSslError hwr) hresult sent
    · unfold StoredBuffer.flushLoop ChatServer.flushLoop
      rw [hstores.hasPending, if_pos hpending, if_pos hpending]
      exact ⟨hstores.clearIfDone.1, rfl⟩
  | cons count later ih =>
    unfold StoredBuffer.flushLoop ChatServer.flushLoop
    rw [List.map_cons, List.cons_append, hstores.hasPending]
    by_cases hpending : si.send.hasPending = true
    · rw [if_neg (not_not.mpr hpending), if_neg (not_not.mpr hpending)]
      have hresult : (tls.answer (.ok count)).result stored.remaining =
          some { byte := min count si.send.remaining } := by
        rw [← hstores.remaining]
        exact congrArg Prod.snd
          (TlsSession.transfer_ok htls (hstores.remaining_ne_zero hpending) count)
      dsimp only
      rw [hresult, TlsSession.transfer_ok hssl (OffsetBuffer.remaining_ne_zero hpending),
        TlsSession.snd_finish]
      dsimp only
      obtain ⟨hcount, hadvanced⟩ := hstores.advance_result hresult
      simp only [Bool.or_self, Bool.false_eq_true, if_false]
      by_cases hbyte : min count si.send.remaining = 0
      · rw [if_pos hbyte, if_pos hbyte]
        exact ⟨hadvanced, rfl⟩
      · have hsent : (if min count si.send.remaining > 0 then
            UInt64.ofNat sent + .ofNat (min count si.send.remaining) else .ofNat sent) =
              .ofNat (sent + min count si.send.remaining) := by
          rw [if_pos (Nat.pos_of_ne_zero hbyte), UInt64.ofNat_add]
        rw [if_neg hbyte, if_neg hbyte, hsent]
        exact ih hadvanced ((si.tls.hasSsl_finish _).trans hssl) _
    · rw [if_pos hpending, if_pos hpending]
      exact ⟨hstores.clearIfDone.1, rfl⟩

/-- `flush_send` on the stored buffer is `flush_send` of the server. -/
theorem flushSend (hstores : stored.Stores si.send) (writes : SslTransfer Nat) :
    (stored.flushSend si.tls (si.tls.answers writes)).1.Stores
        (ChatServer.flushSend writes si).1.send ∧
      (stored.flushSend si.tls (si.tls.answers writes)).2 =
        (ChatServer.flushSend writes si).2.map UInt64.ofNat := by
  unfold StoredBuffer.flushSend ChatServer.flushSend
  by_cases hssl : si.tls.hasSsl = true
  · rw [if_neg (not_not.mpr hssl), if_neg (not_not.mpr hssl)]
    exact hstores.flushLoop_answers hssl hssl writes 0
  · rw [if_pos hssl, if_pos hssl]
    exact ⟨hstores, rfl⟩

end StoredBuffer.Stores

/-! ### Histories -/

namespace StoredBuffer

/-- The buffer is in range, and compact. -/
def InRange (stored : StoredBuffer) : Prop :=
  ∃ buffer : OffsetBuffer, stored.Stores buffer ∧ buffer.Compact

variable {stored next : StoredBuffer}

theorem inRange_start : InRange {} :=
  ⟨.empty, stores_empty, OffsetBuffer.compact_of_offset_eq_zero rfl⟩

theorem InRange.append (hrange : stored.InRange) (data : Bytes) :
    (stored.append data).InRange := by
  obtain ⟨buffer, hstores, hcompact⟩ := hrange
  by_cases hfits : stored.buf.length + data.length ≤ maxStringSize
  · exact ⟨_, hstores.append hfits, hcompact.append data⟩
  · rw [StoredBuffer.append, if_neg hfits]
    exact ⟨buffer, hstores, hcompact⟩

theorem InRange.parseLine (hrange : stored.InRange) : stored.parseLine.1.InRange := by
  obtain ⟨buffer, hstores, hcompact⟩ := hrange
  cases hparse : buffer.parseLine with
  | none =>
    rw [hstores.parseLine_of_none hparse]
    exact ⟨buffer, hstores, hcompact⟩
  | some parsed =>
    exact ⟨parsed.2, (hstores.parseLine_of_some hparse).1, OffsetBuffer.compact_parseLine hparse⟩

theorem InRange.flushSend (hrange : stored.InRange) {tls : TlsSession} {answers : List TlsAnswer}
    (hcount : (stored.flushSend tls answers).2 ≠ none) :
    (stored.flushSend tls answers).1.InRange := by
  obtain ⟨buffer, hstores, -⟩ := hrange
  unfold StoredBuffer.flushSend at hcount ⊢
  split_ifs at hcount ⊢
  · obtain ⟨left, hleft, hcompact⟩ := hstores.flushLoop answers 0
    exact ⟨left, hleft, hcompact hcount⟩
  · exact absurd rfl hcount

theorem InRange.call (hrange : stored.InRange) {made : BufferCall}
    (hcall : stored.call made = some next) : next.InRange := by
  cases made with
  | append data => exact Option.some.inj hcall ▸ hrange.append data
  | appendSending data => exact Option.some.inj hcall ▸ hrange.append data
  | parseLine => exact Option.some.inj hcall ▸ hrange.parseLine
  | flushSend tls answers =>
    have hflush := @InRange.flushSend _ hrange tls answers
    unfold StoredBuffer.call at hcall
    dsimp only at hcall
    split at hcall
    · next left count hleft =>
      rw [hleft] at hflush
      exact Option.some.inj hcall ▸ hflush (Option.some_ne_none count)
    · cases hcall

theorem inRange_of_run {history : List BufferCall}
    (hrun : calls.run calls.start history = some stored) : stored.InRange :=
  TransitionSystem.ReachableUnder.induction inRange_start
    (fun _ _ _ _ hrange _ hcall ↦ hrange.call hcall)
    (TransitionSystem.ReachableUnder.of_run hrun)

/-- After any history of calls, the read position is in the string, so that `remaining()` does not
wrap and this many bytes stand at `current_data()`. The bytes in front of it are fewer than 8192 or
fewer than these. -/
theorem waste_bounded {history : List BufferCall}
    (hrun : calls.run calls.start history = some stored) :
    stored.offset ≤ stored.size ∧
      stored.offset.toNat + stored.remaining.toNat = stored.buf.length ∧
      stored.currentData.length = stored.remaining.toNat ∧
      (stored.offset < 8192 ∨ stored.offset < stored.remaining) ∧
      stored.offset.toNat < max 8192 stored.currentData.length := by
  obtain ⟨buffer, hstores, hcompact⟩ := inRange_of_run hrun
  have hbounded : stored.offset < 8192 ∨ stored.offset < stored.remaining := by
    rw [UInt64.lt_iff_toNat_lt, UInt64.lt_iff_toNat_lt, hstores.remaining, hstores.offset]
    exact hcompact
  have hdata : stored.currentData.length = stored.remaining.toNat := by
    rw [hstores.currentData, hstores.remaining, OffsetBuffer.length_currentData]
  refine ⟨hstores.offset_le, ?_, hdata, hbounded, ?_⟩
  · rw [hstores.offset, hstores.remaining, hstores.buf]
    exact Nat.add_sub_of_le buffer.offset_le
  · rw [hdata, lt_max_iff, hstores.offset, hstores.remaining]
    exact hcompact

theorem waste_bounded_half_sent :
    ∃ stored : StoredBuffer,
      calls.run calls.start [.append (text "one\ntwo"), .parseLine, .appendSending (text "\n"),
        .flushSend {} (TlsSession.answers {} { reports := [2], failure := .wantWrite })] =
          some stored ∧
        stored.offset = 6 ∧ stored.offset ≤ stored.size ∧
          stored.currentData.length = stored.remaining.toNat ∧
          (stored.offset < 8192 ∨ stored.offset < stored.remaining) ∧
          stored.offset.toNat < max 8192 stored.currentData.length := by
  have hrun : calls.run calls.start [.append (text "one\ntwo"), .parseLine,
      .appendSending (text "\n"),
      .flushSend {} (TlsSession.answers {} { reports := [2], failure := .wantWrite })] =
        some { buf := text "one\ntwo\n", offset := 6 } := by
    decide
  obtain ⟨hoffset, -, hdata, hbounded, hwaste⟩ := waste_bounded hrun
  exact ⟨_, hrun, rfl, hoffset, hdata, hbounded, hwaste⟩

end StoredBuffer

end ChatServer
