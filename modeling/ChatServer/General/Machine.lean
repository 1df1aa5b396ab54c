import Mathlib.Data.List.Induction

/-!
# Machines that answer

A machine reads one input at a time, changes its state and answers. `run` collects the answers to a
list of inputs. A concrete machine refines an abstract one through a view of its states when, under
an invariant, each of its steps is a step of the abstract machine on the view (`Refines`). Then the
two give the same answers to every list of inputs, and the view of the last state is the last state
of the abstract machine (`Refines.run_eq`).

`run_induction` is the invariant rule, from the end of the list: what holds before an input holds
after it, with the inputs so far at hand. A machine may be given inputs of another kind, which it
reads through a function (`comap`).
-/

set_option autoImplicit false
set_option relaxedAutoImplicit false

namespace ChatServer

/-- A deterministic machine with an answer to each input. -/
structure Machine (State Input Output : Type*) where
  start : State
  step : Input → State → Output × State

namespace Machine

variable {State Input Output : Type*} (machine : Machine State Input Output)

/-- The answers to the inputs in order, and the state they lead to. -/
def runFrom : State → List Input → List Output × State
  | state, [] => ([], state)
  | state, input :: rest =>
    let later := runFrom (machine.step input state).2 rest
    ((machine.step input state).1 :: later.1, later.2)

/-- The answers and the last state of a run from the start. -/
def run (inputs : List Input) : List Output × State :=
  machine.runFrom machine.start inputs

@[simp] theorem run_nil : machine.run [] = ([], machine.start) :=
  rfl

theorem runFrom_append (state : State) (first second : List Input) :
    machine.runFrom state (first ++ second) =
      ((machine.runFrom state first).1 ++
          (machine.runFrom (machine.runFrom state first).2 second).1,
        (machine.runFrom (machine.runFrom state first).2 second).2) := by
  induction first generalizing state with
  | nil => rfl
  | cons input rest ih =>
    rw [List.cons_append, runFrom, ih]
    rfl

/-- One more input is answered in the state the others lead to. -/
theorem run_concat (inputs : List Input) (input : Input) :
    machine.run (inputs ++ [input]) =
      ((machine.run inputs).1 ++ [(machine.step input (machine.run inputs).2).1],
        (machine.step input (machine.run inputs).2).2) :=
  machine.runFrom_append _ _ _

/-- The invariant rule over the inputs read so far. -/
theorem run_induction {property : List Input → State → Prop}
    (hstart : property [] machine.start)
    (hstep : ∀ inputs input, property inputs (machine.run inputs).2 →
      property (inputs ++ [input]) (machine.step input (machine.run inputs).2).2)
    (inputs : List Input) : property inputs (machine.run inputs).2 := by
  induction inputs using List.reverseRecOn with
  | nil => exact hstart
  | append_singleton inputs input ih =>
    rw [run_concat]
    exact hstep inputs input ih

/-- The machine that reads its inputs through a function. -/
def comap {Given : Type*} (read : Given → Input) : Machine State Given Output where
  start := machine.start
  step input := machine.step (read input)

theorem run_comap {Given : Type*} (read : Given → Input) (inputs : List Given) :
    (machine.comap read).run inputs = machine.run (inputs.map read) := by
  induction inputs using List.reverseRecOn with
  | nil => rfl
  | append_singleton inputs input ih =>
    rw [run_concat, ih, List.map_append, List.map_singleton, run_concat]
    rfl

/-! ### Refinement -/

variable {Abstract : Type*} {machine}

/-- Under the invariant every step of the concrete machine, seen through the view, is the step of
the abstract one. -/
structure Refines (machine : Machine State Input Output) (spec : Machine Abstract Input Output)
    (invariant : State → Prop) (view : State → Abstract) : Prop where
  start : invariant machine.start ∧ view machine.start = spec.start
  keeps : ∀ input state, invariant state → invariant (machine.step input state).2
  agrees : ∀ input state, invariant state →
    (machine.step input state).map id view = spec.step input (view state)

/-- A machine that refines another gives the same answers. -/
theorem Refines.run_eq {spec : Machine Abstract Input Output} {invariant : State → Prop}
    {view : State → Abstract} (hrefines : machine.Refines spec invariant view)
    (inputs : List Input) :
    invariant (machine.run inputs).2 ∧ (machine.run inputs).map id view = spec.run inputs := by
  induction inputs using List.reverseRecOn with
  | nil => exact ⟨hrefines.start.1, Prod.ext rfl hrefines.start.2⟩
  | append_singleton inputs input ih =>
    obtain ⟨hinvariant, hrun⟩ := ih
    have hstep := hrefines.agrees input _ hinvariant
    rw [run_concat, run_concat, ← hrun]
    refine ⟨hrefines.keeps input _ hinvariant, ?_⟩
    rw [Prod.map_snd, ← hstep]
    rfl

end Machine

end ChatServer
