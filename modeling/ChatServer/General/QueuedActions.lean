import Mathlib.Data.List.Basic

/-!
# Queues of actions on a state

Actions wait in a queue and are done in order, each changing a state and each needing something of
the state it meets. `settle` is the state once all of them are done, and `Safe` says that every
action will meet what it needs. Both speak of the future, but they are functions of the queue and
the state at hand, so they can be part of an invariant.

The rules say how they behave when queues are put in a row (`settle_append`, `safe_append`), when
the actions of a queue keep the state or need nothing (`settle_of_fixed`, `safe_of_fixed`,
`safe_of_needless`), and when actions that keep every state are left out (`settle_filter`,
`safe_filter`).
-/

set_option autoImplicit false
set_option relaxedAutoImplicit false

namespace ChatServer

/-- What an action does to a state, and what it needs of the state it meets. -/
structure QueuedActions (Action State : Type*) where
  act : Action → State → State
  needs : Action → State → Prop

namespace QueuedActions

variable {Action State : Type*} (actions : QueuedActions Action State)

/-- The state once the queued actions are done. -/
def settle (queue : List Action) (state : State) : State :=
  queue.foldl (fun state action ↦ actions.act action state) state

/-- Every queued action meets what it needs. -/
def Safe : List Action → State → Prop
  | [], _ => True
  | action :: rest, state => actions.needs action state ∧ Safe rest (actions.act action state)

variable {actions} {action : Action} {first second queue : List Action} {state : State}

theorem settle_cons : actions.settle (action :: queue) state =
    actions.settle queue (actions.act action state) :=
  rfl

theorem settle_append : actions.settle (first ++ second) state =
    actions.settle second (actions.settle first state) :=
  List.foldl_append

theorem safe_append : actions.Safe (first ++ second) state ↔
    actions.Safe first state ∧ actions.Safe second (actions.settle first state) := by
  induction first generalizing state with
  | nil => exact ⟨fun hsafe ↦ ⟨trivial, hsafe⟩, And.right⟩
  | cons action rest ih =>
    rw [List.cons_append, Safe, Safe, ih, and_assoc, settle_cons]

/-- What every queued action keeps holds once they are done. -/
theorem settle_preserves {property : State → Prop} (hstate : property state)
    (hact : ∀ action ∈ queue, ∀ state, property state → property (actions.act action state)) :
    property (actions.settle queue state) := by
  induction queue generalizing state with
  | nil => exact hstate
  | cons action rest ih =>
    rw [settle_cons]
    exact ih (hact action List.mem_cons_self state hstate)
      fun other hother ↦ hact other (List.mem_cons_of_mem _ hother)

/-- Actions that keep the state at hand. -/
theorem settle_of_fixed (hfixed : ∀ action ∈ queue, actions.act action state = state) :
    actions.settle queue state = state := by
  induction queue with
  | nil => rfl
  | cons action rest ih =>
    rw [settle_cons, hfixed action List.mem_cons_self]
    exact ih fun other hother ↦ hfixed other (List.mem_cons_of_mem _ hother)

/-- Actions that keep the state at hand and need no more than it has. -/
theorem safe_of_fixed (hfixed : ∀ action ∈ queue, actions.act action state = state)
    (hneeds : ∀ action ∈ queue, actions.needs action state) : actions.Safe queue state := by
  induction queue with
  | nil => trivial
  | cons action rest ih =>
    refine ⟨hneeds action List.mem_cons_self, ?_⟩
    rw [hfixed action List.mem_cons_self]
    exact ih (fun other hother ↦ hfixed other (List.mem_cons_of_mem _ hother))
      fun other hother ↦ hneeds other (List.mem_cons_of_mem _ hother)

/-- Actions that need nothing. -/
theorem safe_of_needless (hneeds : ∀ action ∈ queue, ∀ state, actions.needs action state) :
    actions.Safe queue state := by
  induction queue generalizing state with
  | nil => trivial
  | cons action rest ih =>
    exact ⟨hneeds action List.mem_cons_self state,
      ih fun other hother ↦ hneeds other (List.mem_cons_of_mem _ hother)⟩

section Filter

variable {kept : Action → Bool}

/-- Actions that keep every state may be left out. -/
theorem settle_filter
    (hfixed : ∀ action, kept action = false → ∀ state, actions.act action state = state) :
    actions.settle (queue.filter kept) state = actions.settle queue state := by
  induction queue generalizing state with
  | nil => rfl
  | cons action rest ih =>
    cases hkept : kept action with
    | true => rw [List.filter_cons_of_pos hkept, settle_cons, settle_cons, ih]
    | false =>
      rw [List.filter_cons_of_neg (by simp [hkept]), settle_cons, hfixed action hkept, ih]

theorem safe_filter
    (hfixed : ∀ action, kept action = false → ∀ state, actions.act action state = state)
    (hneeds : ∀ action ∈ queue, kept action = false → ∀ state, actions.needs action state) :
    actions.Safe (queue.filter kept) state ↔ actions.Safe queue state := by
  induction queue generalizing state with
  | nil => exact Iff.rfl
  | cons action rest ih =>
    have hrest : ∀ other ∈ rest, kept other = false → ∀ state, actions.needs other state :=
      fun other hother ↦ hneeds other (List.mem_cons_of_mem _ hother)
    cases hkept : kept action with
    | true => rw [List.filter_cons_of_pos hkept, Safe, Safe, ih hrest]
    | false =>
      rw [List.filter_cons_of_neg (by simp [hkept]), Safe, hfixed action hkept, ih hrest]
      exact (and_iff_right (hneeds action List.mem_cons_self hkept state)).symm

end Filter

end QueuedActions

end ChatServer
