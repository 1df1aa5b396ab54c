import Mathlib.Data.List.Infix

/-!
# Labelled transition systems and their runs

A system is a start state and a partial step: a label names one atomic action together with
every choice the environment makes in it, and the step is `none` where the action is not
possible. `run` executes a list of labels, so a concrete run is evaluated and not only asserted.

Many results hold only of the runs in which every step meets a side condition on the state it
starts from. `Meets` is that condition along a run, and `ReachableUnder condition` the states such
runs lead to. `ReachableUnder.induction` is the invariant rule: what holds at the start and is
preserved by every step that meets the condition holds in every such state.
`ReachableUnder.mono` moves a state from a stronger condition to a weaker one, so that an
invariant proved without any condition is available under every condition.

`withRecord` adds a record that follows the steps and is never read by them, for statements about
what happened in a run. It has the same runs (`map_fst_run_withRecord`).
-/

set_option autoImplicit false
set_option relaxedAutoImplicit false

namespace ChatServer

/-- A start state and a partial labelled step. -/
structure TransitionSystem (State Label : Type*) where
  start : State
  step : State → Label → Option State

namespace TransitionSystem

variable {State Label : Type*} (system : TransitionSystem State Label)

/-- Executes the labels in order; `none` when one of them is not possible. -/
def run : State → List Label → Option State
  | state, [] => some state
  | state, label :: rest =>
    match system.step state label with
    | none => none
    | some next => run next rest

/-- Every step of the run from `state` along the labels meets the condition in the state it
starts from. -/
def Meets (condition : State → Label → Prop) : State → List Label → Prop
  | _, [] => True
  | state, label :: rest =>
    condition state label ∧
      match system.step state label with
      | none => True
      | some next => Meets condition next rest

/-- The states that runs from the start lead to when every step meets the condition. -/
def ReachableUnder (condition : State → Label → Prop) (state : State) : Prop :=
  ∃ labels, system.Meets condition system.start labels ∧
    system.run system.start labels = some state

/-- The states that runs from the start lead to. -/
def Reachable (state : State) : Prop :=
  system.ReachableUnder (fun _ _ ↦ True) state

/-! ### Runs -/

@[simp] theorem run_nil (state : State) : system.run state [] = some state :=
  rfl

theorem run_cons {state next : State} {label : Label}
    (hstep : system.step state label = some next) (rest : List Label) :
    system.run state (label :: rest) = system.run next rest := by
  simp only [run, hstep]

theorem run_append (state : State) (first second : List Label) :
    system.run state (first ++ second) =
      (system.run state first).bind fun middle ↦ system.run middle second := by
  induction first generalizing state with
  | nil => rfl
  | cons label rest ih =>
    cases hstep : system.step state label with
    | none => simp [run, hstep]
    | some next => simpa [run, hstep] using ih next

/-- The last step of a run. -/
theorem run_concat_eq_some {state last : State} {labels : List Label} {label : Label} :
    system.run state (labels ++ [label]) = some last ↔
      ∃ middle, system.run state labels = some middle ∧ system.step middle label = some last := by
  rw [run_append, Option.bind_eq_some_iff]
  refine exists_congr fun middle ↦ and_congr_right fun _ ↦ ?_
  cases hstep : system.step middle label <;> simp [run, hstep]

/-- A run is not longer than a measure that all its steps make smaller. -/
theorem length_add_le_of_run {measure : State → Nat} {internal : Label → Prop}
    (hsmaller : ∀ state label next, internal label → system.step state label = some next →
      measure next < measure state)
    {state last : State} {labels : List Label} (hinternal : ∀ label ∈ labels, internal label)
    (hrun : system.run state labels = some last) :
    labels.length + measure last ≤ measure state := by
  induction labels generalizing state with
  | nil =>
    cases hrun
    exact (Nat.zero_add _).le
  | cons label rest ih =>
    rw [List.forall_mem_cons] at hinternal
    cases hstep : system.step state label with
    | none => simp [run, hstep] at hrun
    | some next =>
      rw [system.run_cons hstep] at hrun
      have hrest := ih hinternal.2 hrun
      have hnext := hsmaller state label next hinternal.1 hstep
      rw [List.length_cons]
      omega

theorem meets_append (condition : State → Label → Prop) (state : State)
    (first second : List Label) :
    system.Meets condition state (first ++ second) ↔
      system.Meets condition state first ∧
        ∀ middle, system.run state first = some middle →
          system.Meets condition middle second := by
  induction first generalizing state with
  | nil => simp [Meets, run]
  | cons label rest ih =>
    cases hstep : system.step state label with
    | none => simp [Meets, run, hstep]
    | some next => simp [Meets, run, hstep, ih, and_assoc]

/-- A condition that every label of a run meets in any state. -/
theorem meets_of_labels {condition : State → Label → Prop} {labels : List Label}
    (hlabels : ∀ label ∈ labels, ∀ state, condition state label) (state : State) :
    system.Meets condition state labels := by
  induction labels generalizing state with
  | nil => trivial
  | cons label rest ih =>
    rw [List.forall_mem_cons] at hlabels
    refine ⟨hlabels.1 state, ?_⟩
    cases system.step state label with
    | none => trivial
    | some next => exact ih hlabels.2 next

theorem meets_true (state : State) (labels : List Label) :
    system.Meets (fun _ _ ↦ True) state labels :=
  system.meets_of_labels (fun _ _ _ ↦ trivial) state

theorem Meets.mono {weaker stronger : State → Label → Prop}
    (himp : ∀ state label, stronger state label → weaker state label) {state : State}
    {labels : List Label} (hmeets : system.Meets stronger state labels) :
    system.Meets weaker state labels := by
  induction labels generalizing state with
  | nil => trivial
  | cons label rest ih =>
    refine ⟨himp _ _ hmeets.1, ?_⟩
    have hrest := hmeets.2
    cases hstep : system.step state label with
    | none => trivial
    | some next =>
      rw [hstep] at hrest
      exact ih hrest

instance decidableMeets (condition : State → Label → Prop)
    [∀ state label, Decidable (condition state label)] (state : State) (labels : List Label) :
    Decidable (system.Meets condition state labels) :=
  match labels with
  | [] => isTrue trivial
  | label :: rest =>
    match hstep : system.step state label with
    | none => decidable_of_iff (condition state label) (by simp [Meets, hstep])
    | some next =>
      have := decidableMeets condition next rest
      decidable_of_iff (condition state label ∧ system.Meets condition next rest)
        (by simp [Meets, hstep])

/-! ### Reachable states -/

namespace ReachableUnder

variable {system} {condition : State → Label → Prop}

theorem start : system.ReachableUnder condition system.start :=
  ⟨[], trivial, rfl⟩

theorem step {state next : State} {label : Label}
    (hreach : system.ReachableUnder condition state) (hcondition : condition state label)
    (hstep : system.step state label = some next) : system.ReachableUnder condition next := by
  obtain ⟨labels, hmeets, hrun⟩ := hreach
  refine ⟨labels ++ [label], (system.meets_append _ _ _ _).mpr ⟨hmeets, ?_⟩,
    (system.run_concat_eq_some).mpr ⟨state, hrun, hstep⟩⟩
  intro middle hmiddle
  obtain rfl : middle = state := Option.some.inj (hmiddle.symm.trans hrun)
  exact ⟨hcondition, by rw [hstep]; trivial⟩

/-- The invariant rule: what holds at the start and is preserved by every step that meets the
condition holds in every state reached under it. -/
theorem induction {invariant : State → Prop} (hstart : invariant system.start)
    (hstep : ∀ state label next, system.ReachableUnder condition state → invariant state →
      condition state label → system.step state label = some next → invariant next)
    {state : State} (hreach : system.ReachableUnder condition state) : invariant state := by
  obtain ⟨labels, hmeets, hrun⟩ := hreach
  induction labels using List.reverseRecOn generalizing state with
  | nil => exact Option.some.inj hrun ▸ hstart
  | append_singleton labels label ih =>
    obtain ⟨middle, hmiddle, hlast⟩ := (system.run_concat_eq_some).mp hrun
    obtain ⟨hfirst, hsecond⟩ := (system.meets_append _ _ _ _).mp hmeets
    exact hstep middle label state ⟨labels, hfirst, hmiddle⟩ (ih hfirst hmiddle)
      (hsecond middle hmiddle).1 hlast

theorem mono {weaker : State → Label → Prop}
    (himp : ∀ state label, condition state label → weaker state label) {state : State}
    (hreach : system.ReachableUnder condition state) : system.ReachableUnder weaker state := by
  obtain ⟨labels, hmeets, hrun⟩ := hreach
  exact ⟨labels, hmeets.mono system himp, hrun⟩

theorem reachable {state : State} (hreach : system.ReachableUnder condition state) :
    system.Reachable state :=
  hreach.mono fun _ _ _ ↦ trivial

theorem of_run {state : State} {labels : List Label}
    (hrun : system.run system.start labels = some state) : system.Reachable state :=
  ⟨labels, system.meets_true _ _, hrun⟩

/-- What a run that meets the condition leads to is reached under it. -/
theorem run_meets {state later : State} {labels : List Label}
    (hreach : system.ReachableUnder condition state)
    (hmeets : system.Meets condition state labels)
    (hrun : system.run state labels = some later) : system.ReachableUnder condition later := by
  obtain ⟨before, hfirst, hbefore⟩ := hreach
  refine ⟨before ++ labels, (system.meets_append _ _ _ _).mpr ⟨hfirst, fun middle hmiddle ↦ ?_⟩, ?_⟩
  · rwa [Option.some.inj (hmiddle.symm.trans hbefore)]
  · rw [run_append, hbefore]
    exact hrun

/-- What a run from a reachable state leads to is reachable. -/
theorem run_reachable {state later : State} {labels : List Label}
    (hreach : system.ReachableUnder condition state)
    (hrun : system.run state labels = some later) : system.Reachable later := by
  obtain ⟨before, -, hbefore⟩ := hreach
  have hlater : system.run system.start (before ++ labels) = some later := by
    rw [run_append, hbefore]
    exact hrun
  exact of_run hlater

end ReachableUnder

/-! ### Records -/

section Record

variable {Record : Type*} (first : Record) (update : State → Label → State → Record → Record)

/-- The system with a record that follows its steps. -/
def withRecord : TransitionSystem (State × Record) Label where
  start := (system.start, first)
  step state label :=
    (system.step state.1 label).map fun next ↦ (next, update state.1 label next state.2)

variable {system first update}

theorem withRecord_step_eq_some {state next : State × Record} {label : Label} :
    (system.withRecord first update).step state label = some next ↔
      system.step state.1 label = some next.1 ∧
        next.2 = update state.1 label next.1 state.2 := by
  unfold withRecord
  rw [Option.map_eq_some_iff]
  constructor
  · rintro ⟨after, hstep, rfl⟩
    exact ⟨hstep, rfl⟩
  · rintro ⟨hstep, hrecord⟩
    exact ⟨next.1, hstep, Prod.ext rfl hrecord.symm⟩

/-- The record changes no run. -/
theorem map_fst_run_withRecord (state : State × Record) (labels : List Label) :
    ((system.withRecord first update).run state labels).map Prod.fst =
      system.run state.1 labels := by
  induction labels generalizing state with
  | nil => rfl
  | cons label rest ih =>
    cases hstep : system.step state.1 label with
    | none => simp [run, withRecord, hstep]
    | some next => simpa [run, withRecord, hstep] using ih (next, _)

theorem ReachableUnder.of_withRecord {condition : State → Label → Prop} {state : State × Record}
    (hreach : (system.withRecord first update).ReachableUnder
      (fun state label ↦ condition state.1 label) state) :
    system.ReachableUnder condition state.1 := by
  have hstart : system.ReachableUnder condition (system.withRecord first update).start.1 :=
    ReachableUnder.start
  exact @ReachableUnder.induction _ _ _ _ (fun state ↦ system.ReachableUnder condition state.1)
    hstart (fun before label next _ ih hcondition hstep ↦
      ih.step hcondition (withRecord_step_eq_some.mp hstep).1) _ hreach

theorem Reachable.of_withRecord {state : State × Record}
    (hreach : (system.withRecord first update).Reachable state) : system.Reachable state.1 :=
  @ReachableUnder.of_withRecord _ _ _ _ _ _ (fun _ _ ↦ True) _ hreach

/-- Every state reached is reached with some record. -/
theorem ReachableUnder.exists_record {condition : State → Label → Prop} {state : State}
    (hreach : system.ReachableUnder condition state) : ∃ record,
      (system.withRecord first update).ReachableUnder
        (fun state label ↦ condition state.1 label) (state, record) := by
  refine @ReachableUnder.induction _ _ _ _ (fun state ↦ ∃ record,
    (system.withRecord first update).ReachableUnder (fun state label ↦ condition state.1 label)
      (state, record)) ⟨first, ReachableUnder.start⟩ ?_ _ hreach
  rintro before label next _ ⟨record, hbefore⟩ hcondition hstep
  exact ⟨update before label next record,
    hbefore.step hcondition (withRecord_step_eq_some.mpr ⟨hstep, rfl⟩)⟩

end Record

end TransitionSystem

end ChatServer
