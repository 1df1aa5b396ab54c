import ChatServer.Server.Addressing

/-!
# Events and requests to unregister

The event loop collects events, then handles queued commands, which may close descriptors and
register new ones, and only then dispatches the events. `EventsOwned` is what holds of the events in
each phase, so that none of them is applied to a connection that did not raise it.

Requests to unregister are queued while their connection is registered, so every later registration
of the number comes after them, and they are aligned without any condition.
`connection_ownership` puts this together with the ownership of descriptors.
-/

set_option autoImplicit false
set_option relaxedAutoImplicit false

namespace ChatServer

/-! ### Requests to unregister -/

/-- Whom the events at hand are about, in each phase of the event loop. -/
def EventsOwned (state : ServerState) : Prop :=
  match state.phase with
  | .waiting => True
  | .polled events => ∀ event ∈ events,
      event.fd ∈ state.registry.infos ∧ state.kernel.conn event.fd = event.conn
  | .working pending events => ∀ event ∈ events,
      (∀ conn, state.pipeline.registeredAt event.fd = some conn → event.conn = some conn) ∧
        ∀ queued ∈ pending, queued.command.registers ≠ some event.fd
  | .dispatching _ events => ∀ event ∈ events,
      ∀ conn, state.pipeline.registeredAt event.fd = some conn → event.conn = some conn

/-- A number that is accepted is new, so no event at hand is for it. -/
theorem EventsOwned.accepted {state : ServerState} (hevents : EventsOwned state)
    (howned : state.pipeline.Owned) {fd : Int} (hclosed : fd ∉ state.kernel.sockets) :
    EventsOwned (state.accepted fd) := by
  have hphase : (state.accepted fd).phase = state.phase := rfl
  have hregistered : ∀ other conn, (state.accepted fd).pipeline.registeredAt other = some conn →
      state.pipeline.registeredAt other = some conn :=
    fun other conn hconn ↦ (Pipeline.registeredAt_accepted howned hclosed other).symm.trans hconn
  unfold EventsOwned at hevents ⊢
  rw [hphase]
  cases hcase : state.phase with
  | waiting => trivial
  | polled events =>
    rw [hcase] at hevents
    intro event hevent
    obtain ⟨hmem, hconn⟩ := hevents event hevent
    have hnone : state.pipeline.kernel.conn fd = none := Pipeline.conn_eq_none.mpr hclosed
    have hne : event.fd ≠ fd := by
      intro hsame
      obtain ⟨conn, hopen⟩ := howned.registered event.fd hmem
      rw [hsame, hnone] at hopen
      cases hopen
    exact ⟨hmem, ((@Pipeline.conn_accepted state.pipeline fd event.fd).trans
      (if_neg hne)).trans hconn⟩
  | working pending events =>
    rw [hcase] at hevents
    intro event hevent
    obtain ⟨hconn, hpending⟩ := hevents event hevent
    exact ⟨fun conn hother ↦ hconn conn (hregistered event.fd conn hother), hpending⟩
  | dispatching stage events =>
    rw [hcase] at hevents
    exact fun event hevent conn hother ↦
      hevents event hevent conn (hregistered event.fd conn hother)

/-- Two clients connect; the first hangs up while the second sends, and a third connects. -/
def hangup : List ServerLabel :=
  connecting 5 ++ connecting 6 ++ round [] 2 [] ++
    working [(5, epollIn ||| epollRdhup), (6, epollIn)] 0 ++
      [.workDone, .dispatch (.receiving [])] ++ connecting 7

end ChatServer
