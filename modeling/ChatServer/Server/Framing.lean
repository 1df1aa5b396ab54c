import ChatServer.Server.EpollServer

/-!
# Lines do not depend on chunks

The receive buffer takes the stream in whatever chunks TLS reports, and `parse_line` takes the
lines out of it, between any two of them and as often as the caller likes (`RecvCall`). Clearing
and compaction move the bytes, so the invariant speaks of the stream alone: the lines returned,
each with its `'\n'`, followed by what is still to be read, are the bytes appended
(`Received.Follows`). The lines returned are then the first segments of the stream, and all of them
when `parse_line` finds no more (`lines_framed`).

`executeLoop` is `while(on_execute(si))`. Every round takes one `'\n'` out of the buffer, so the
loop ends after one round more than there are lines (`executeLoop_eq_some`).
-/

set_option autoImplicit false
set_option relaxedAutoImplicit false

namespace ChatServer

open DelimitedStream

/-! ### Calls on the receive buffer -/

/-- A call on a receive buffer: `append`, or `parse_line`. -/
inductive RecvCall
  | append (chunk : Bytes)
  | parse

/-- The bytes that a call appends. -/
def RecvCall.chunk : RecvCall → Bytes
  | .append chunk => chunk
  | .parse => []

/-- The bytes that calls append, in order. -/
def appendedBytes (calls : List RecvCall) : Bytes :=
  calls.flatMap RecvCall.chunk

/-- A receive buffer and the lines that `parse_line` has returned. -/
structure Received where
  recv : OffsetBuffer := .empty
  lines : List Bytes := []

namespace Received

/-- One call; a `parse_line` that finds no line changes nothing. -/
def call (state : Received) : RecvCall → Received
  | .append chunk => { state with recv := state.recv.append chunk }
  | .parse =>
    match state.recv.parseLine with
    | none => state
    | some (line, recv) => { recv := recv, lines := state.lines ++ [line] }

/-- A new buffer after these calls. -/
def after (calls : List RecvCall) : Received :=
  calls.foldl call {}

/-- The lines returned and what is still to be read make up the stream. -/
structure Follows (state : Received) (stream : Bytes) : Prop where
  split : joined newline state.lines ++ state.recv.currentData = stream
  whole : ∀ line ∈ state.lines, newline ∉ line

/-- One call: what it appends comes at the end of the stream. -/
theorem Follows.call {state : Received} {stream : Bytes} (hfollows : state.Follows stream)
    (next : RecvCall) : (state.call next).Follows (stream ++ next.chunk) := by
  cases next with
  | append chunk =>
    refine ⟨?_, hfollows.whole⟩
    rw [← hfollows.split, List.append_assoc]
    exact congrArg (joined newline state.lines ++ ·)
      (OffsetBuffer.currentData_append state.recv chunk)
  | parse =>
    unfold Received.call RecvCall.chunk
    rw [List.append_nil]
    dsimp only
    cases hparse : state.recv.parseLine with
    | none => exact hfollows
    | some parsed =>
      obtain ⟨line, recv⟩ := parsed
      obtain ⟨hdata, hline⟩ := OffsetBuffer.parseLine_eq_some hparse
      constructor
      · rw [← hfollows.split, hdata, joined_concat, List.append_assoc, List.append_assoc,
          List.singleton_append]
      · intro other hother
        rcases List.mem_append.mp hother with hold | hnew
        · exact hfollows.whole other hold
        · rw [List.mem_singleton.mp hnew]
          exact hline

theorem follows_after (calls : List RecvCall) : (after calls).Follows (appendedBytes calls) := by
  induction calls using List.reverseRecOn with
  | nil => exact ⟨rfl, fun line hline ↦ absurd hline List.not_mem_nil⟩
  | append_singleton calls next ih =>
    rw [after, List.foldl_concat, appendedBytes, List.flatMap_append, List.flatMap_singleton]
    exact ih.call next

variable {state : Received} {stream : Bytes}

/-- Whatever comes later, the lines returned are the first segments of the stream. -/
theorem Follows.lines_prefix (hfollows : state.Follows stream) (later : Bytes) :
    state.lines <+: records newline (stream ++ later) := by
  rw [← hfollows.split, List.append_assoc, records_joined_append hfollows.whole]
  exact List.prefix_append _ _

/-- Without a line to take, all segments were returned and only the remainder is left. -/
theorem Follows.of_parseLine_none (hfollows : state.Follows stream)
    (hparse : state.recv.parseLine = none) :
    state.lines = records newline stream ∧ state.recv.currentData = remainder newline stream := by
  have hnone := OffsetBuffer.parseLine_eq_none.mp hparse
  rw [← hfollows.split, records_joined_append hfollows.whole, records_eq_nil_iff.mpr hnone,
    List.append_nil, remainder_joined_append, remainder_of_notMem hnone]
  exact ⟨rfl, rfl⟩

end Received

/-! ### The loop over the lines -/

/-- `while(on_execute(si))`: the connection it leaves and the lines it takes, when a call without a
line comes within `fuel` calls. -/
def executeLoop : Nat → SocketInfo → Option (SocketInfo × List Bytes)
  | 0, _ => none
  | fuel + 1, si =>
    let execute := EpollServer.handleExecute si
    if execute.again then
      (executeLoop fuel execute.info).map fun later ↦
        (later.1, execute.line.toList ++ later.2)
    else some (execute.info, execute.line.toList)

/-- The loop ends: it takes every complete line and leaves the remainder. -/
theorem executeLoop_eq_some (si : SocketInfo) :
    ∃ left, executeLoop (si.recv.currentData.count newline + 1) si =
        some (left, records newline si.recv.currentData) ∧
      left.recv.currentData = remainder newline si.recv.currentData := by
  induction hcount : si.recv.currentData.count newline generalizing si with
  | zero =>
    have hnone : newline ∉ si.recv.currentData := List.count_eq_zero.mp hcount
    refine ⟨si, ?_, (remainder_of_notMem hnone).symm⟩
    rw [executeLoop, EpollServer.handleExecute_of_notMem hnone, records_eq_nil_iff.mpr hnone]
    rfl
  | succ count ih =>
    have hmem : newline ∈ si.recv.currentData := List.count_pos_iff.mp (by omega)
    obtain ⟨line, hline, hagain, hwhole, hdata, -⟩ := EpollServer.handleExecute_of_mem hmem
    have hlater : (EpollServer.handleExecute si).info.recv.currentData.count newline = count := by
      rw [hdata, List.count_append, List.count_eq_zero_of_not_mem hwhole,
        List.count_cons_self] at hcount
      omega
    obtain ⟨left, hloop, hleft⟩ := ih _ hlater
    refine ⟨left, ?_, ?_⟩
    · rw [executeLoop, if_pos hagain, hloop, hline, hdata, records_record_append hwhole]
      rfl
    · rw [hleft, hdata, remainder_append_cons]

/-! ### Framing -/

/-- Framing does not depend on chunks: after any calls, the lines returned are the first segments
of the stream, all of those that are complete once no line is found, and the remainder is what is
still to be read. The loop over the lines of a connection ends. -/
theorem lines_framed (calls later : List RecvCall) :
    (Received.after calls).lines <+: records newline (appendedBytes (calls ++ later)) ∧
    ((Received.after calls).recv.parseLine = none →
      (Received.after calls).lines = records newline (appendedBytes calls) ∧
      (Received.after calls).recv.buf.drop (Received.after calls).recv.offset =
        remainder newline (appendedBytes calls)) ∧
    joined newline (Received.after calls).lines ++ (Received.after calls).recv.currentData =
      appendedBytes calls ∧
    ∀ si : SocketInfo, ∃ fuel left, executeLoop fuel si =
        some (left, records newline si.recv.currentData) ∧
      left.recv.currentData = remainder newline si.recv.currentData := by
  have hfollows := Received.follows_after calls
  refine ⟨?_, hfollows.of_parseLine_none, hfollows.split, fun si ↦ ⟨_, executeLoop_eq_some si⟩⟩
  rw [appendedBytes, List.flatMap_append]
  exact hfollows.lines_prefix _

/-- Three chunks that cut the stream inside its second line. -/
theorem lines_framed_threeChunks :
    (Received.after [.append (text "list_room\nnick"), .parse, .append (text "\rada\nli"), .parse,
        .parse]).lines =
      records newline (text "list_room\nnick\rada\nli") ∧
    (Received.after [.append (text "list_room\nnick"), .parse, .append (text "\rada\nli"), .parse,
        .parse]).recv.currentData = text "li" :=
  (lines_framed [.append (text "list_room\nnick"), .parse, .append (text "\rada\nli"), .parse,
    .parse] []).2.1 (by decide)

end ChatServer
