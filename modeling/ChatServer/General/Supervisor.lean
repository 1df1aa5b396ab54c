import Mathlib.Algebra.BigOperators.Group.Finset.Basic
import Mathlib.Algebra.Order.BigOperators.Group.Finset
import Mathlib.Data.Fintype.Basic
import Mathlib.Data.List.ReduceOption
import ChatServer.General.TransitionSystem

/-!
# A thread that waits for its helpers

One thread starts a number of helpers and waits on a condition variable until the stop was
requested. A helper whose body has ended may call `signalStop`, which keeps the first error and
requests the stop under the lock, and notifies behind it. The thread that waited then performs its
duties in order: it gives orders, joins helpers, evaluates the answer that it returns, and retires a
helper that is only a callback, which must not run any more.

A look at the condition and falling asleep are two steps, with the lock held between them, so that a
notification can come at any point where it can come in the program. A sleeper may wake up without
one.

`Sound` is what holds in every state: the error kept is the first one signalled, a sleeper whose
stop was requested is about to be notified, and a helper joined has left. Its consequences are
`answer_eq` (the answer is the first error of all that are ever signalled), `Sound.blocked` (what
the program may still wait for after the stop was requested) and `run_length_le`, which bounds the
runs in which nothing comes from outside.
-/

set_option autoImplicit false
set_option relaxedAutoImplicit false

namespace ChatServer

/-- How the body of a helper ends: without a call of `signalStop`, or with one. -/
inductive Ending (Error : Type*)
  | silent
  | signal (error : Option Error)

/-- Where a helper is: in its body, before the lock region of `signalStop`, before its notification,
or gone. -/
inductive HelperPhase (Error : Type*)
  | running
  | signalling (error : Option Error)
  | notifying
  | left
  deriving DecidableEq

/-- What the thread does after its wait. -/
inductive Duty (Helper Order : Type*)
  | order (order : Order)
  | join (helper : Helper)
  | answer
  | retire (helper : Helper)
  deriving DecidableEq

/-- Where the thread is: before it looks at the condition, behind a look that said no and still with
the lock, asleep, or at its duties. -/
inductive SupervisorPhase (Helper Order : Type*)
  | checking
  | parking
  | asleep
  | performing (rest : List (Duty Helper Order))
  deriving DecidableEq

/-- The bodies of the helpers as steps on what they share, the duties with what an order does, and
the steps of threads that are not helpers. -/
structure Supervision (Helper Shared Error Input Order : Type*) where
  start : Shared
  duties : List (Duty Helper Order)
  work : Helper → Input → Shared → Option (Shared × Option (Ending Error))
  obey : Order → Shared → Option Shared
  outside : Input → Shared → Option Shared

/-- The state of the program, the answer once it is evaluated, and a record of what was
signalled. -/
structure Supervised (Helper Shared Error Order : Type*) where
  shared : Shared
  helpers : Helper → HelperPhase Error := fun _ ↦ .running
  phase : SupervisorPhase Helper Order := .checking
  stopRequested : Bool := false
  error : Option Error := none
  answer : Option (Option Error) := none
  signalled : List (Option Error) := []

/-- One step; `wake` is a wake-up without a notification. -/
inductive SupervisionLabel (Helper Input : Type*)
  | work (helper : Helper) (input : Input)
  | signal (helper : Helper)
  | notify (helper : Helper)
  | check
  | park
  | wake
  | perform
  | outside (input : Input)

section Definitions

variable {Helper Shared Error Input Order : Type*}

/-- Where a helper is when its body has ended. -/
def Ending.phase : Ending Error → HelperPhase Error
  | .silent => .left
  | .signal error => .signalling error

/-- A notification wakes the thread up. -/
def SupervisorPhase.notified :
    SupervisorPhase Helper Order → SupervisorPhase Helper Order
  | .asleep => .checking
  | phase => phase

namespace Supervised

variable [DecidableEq Helper] (state : Supervised Helper Shared Error Order)

/-- A helper goes on. -/
def move (helper : Helper) (phase : HelperPhase Error) : Supervised Helper Shared Error Order :=
  { state with helpers := Function.update state.helpers helper phase }

/-- The lock region of `signalStop`. -/
def signalStop (error : Option Error) : Supervised Helper Shared Error Order :=
  { state with
    error := state.error.or error
    stopRequested := true
    signalled := state.signalled ++ [error] }

/-- A duty; `none` where it has to wait. -/
def perform (supervision : Supervision Helper Shared Error Input Order) :
    Duty Helper Order → Option (Supervised Helper Shared Error Order)
  | .order order =>
    (supervision.obey order state.shared).map fun shared ↦ { state with shared := shared }
  | .join helper =>
    match state.helpers helper with
    | .left => some state
    | _ => none
  | .answer => some { state with answer := some state.error }
  | .retire helper =>
    match state.helpers helper with
    | .running | .left => some (state.move helper .left)
    | _ => none

/-- One step of the program. -/
def step (supervision : Supervision Helper Shared Error Input Order) :
    SupervisionLabel Helper Input → Option (Supervised Helper Shared Error Order)
  | .work helper input =>
    match state.helpers helper with
    | .running =>
      (supervision.work helper input state.shared).map fun worked ↦
        match worked.2 with
        | none => { state with shared := worked.1 }
        | some ending => { state with shared := worked.1 }.move helper ending.phase
    | _ => none
  | .signal helper =>
    match state.helpers helper, state.phase with
    | .signalling _, .parking => none
    | .signalling error, _ => some ((state.signalStop error).move helper .notifying)
    | _, _ => none
  | .notify helper =>
    match state.helpers helper with
    | .notifying => some ({ state with phase := state.phase.notified }.move helper .left)
    | _ => none
  | .check =>
    match state.phase with
    | .checking =>
      some
        { state with
          phase := if state.stopRequested then .performing supervision.duties else .parking }
    | _ => none
  | .park =>
    match state.phase with
    | .parking => some { state with phase := .asleep }
    | _ => none
  | .wake =>
    match state.phase with
    | .asleep => some { state with phase := .checking }
    | _ => none
  | .perform =>
    match state.phase with
    | .performing (duty :: rest) =>
      (state.perform supervision duty).map fun next ↦ { next with phase := .performing rest }
    | _ => none
  | .outside input =>
    (supervision.outside input state.shared).map fun shared ↦ { state with shared := shared }

end Supervised

/-- The program as a transition system. -/
def Supervision.system [DecidableEq Helper]
    (supervision : Supervision Helper Shared Error Input Order) :
    TransitionSystem (Supervised Helper Shared Error Order) (SupervisionLabel Helper Input) where
  start := { shared := supervision.start }
  step state := state.step supervision

end Definitions

/-! ### What one step does -/

section Steps

variable {Helper Shared Error Input Order : Type*} [DecidableEq Helper]
  {supervision : Supervision Helper Shared Error Input Order}
  {state next : Supervised Helper Shared Error Order} {label : SupervisionLabel Helper Input}

@[simp] theorem Supervised.helpers_move_self (helper : Helper) (phase : HelperPhase Error) :
    (state.move helper phase).helpers helper = phase := by
  unfold Supervised.move
  exact Function.update_self ..

theorem Supervised.helpers_move_of_ne {helper other : Helper} (hne : other ≠ helper)
    (phase : HelperPhase Error) :
    (state.move helper phase).helpers other = state.helpers other := by
  unfold Supervised.move
  exact Function.update_of_ne hne ..

/-- A duty that is performed. -/
inductive Performed (supervision : Supervision Helper Shared Error Input Order)
    (state : Supervised Helper Shared Error Order) :
    Duty Helper Order → Supervised Helper Shared Error Order → Prop
  | order {order : Order} {shared : Shared}
      (hobey : supervision.obey order state.shared = some shared) :
      Performed supervision state (.order order) { state with shared := shared }
  | join {helper : Helper} (hleft : state.helpers helper = .left) :
      Performed supervision state (.join helper) state
  | answer : Performed supervision state .answer { state with answer := some state.error }
  | retire {helper : Helper}
      (hidle : state.helpers helper = .running ∨ state.helpers helper = .left) :
      Performed supervision state (.retire helper) (state.move helper .left)

theorem performed_of_perform {duty : Duty Helper Order}
    (hperform : state.perform supervision duty = some next) :
    Performed supervision state duty next := by
  cases duty with
  | order order =>
    obtain ⟨shared, hobey, rfl⟩ := Option.map_eq_some_iff.mp hperform
    exact .order hobey
  | join helper =>
    dsimp only [Supervised.perform] at hperform
    split at hperform
    · next hleft =>
      cases hperform
      exact .join hleft
    · cases hperform
  | answer =>
    cases hperform
    exact .answer
  | retire helper =>
    dsimp only [Supervised.perform] at hperform
    split at hperform
    · next hrunning =>
      cases hperform
      exact .retire (.inl hrunning)
    · next hleft =>
      cases hperform
      exact .retire (.inr hleft)
    · cases hperform

/-- The steps of the program, with what each of them finds. -/
inductive SupervisedStep (supervision : Supervision Helper Shared Error Input Order)
    (state : Supervised Helper Shared Error Order) :
    SupervisionLabel Helper Input → Supervised Helper Shared Error Order → Prop
  | goOn {helper : Helper} {input : Input} {shared : Shared}
      (hrunning : state.helpers helper = .running)
      (hwork : supervision.work helper input state.shared = some (shared, none)) :
      SupervisedStep supervision state (.work helper input) { state with shared := shared }
  | finish {helper : Helper} {input : Input} {shared : Shared} {ending : Ending Error}
      (hrunning : state.helpers helper = .running)
      (hwork : supervision.work helper input state.shared = some (shared, some ending)) :
      SupervisedStep supervision state (.work helper input)
        ({ state with shared := shared }.move helper ending.phase)
  | signal {helper : Helper} {error : Option Error}
      (hsignalling : state.helpers helper = .signalling error) (hfree : state.phase ≠ .parking) :
      SupervisedStep supervision state (.signal helper)
        ((state.signalStop error).move helper .notifying)
  | notify {helper : Helper} (hnotifying : state.helpers helper = .notifying) :
      SupervisedStep supervision state (.notify helper)
        ({ state with phase := state.phase.notified }.move helper .left)
  | goBack (hchecking : state.phase = .checking) (hstop : state.stopRequested = false) :
      SupervisedStep supervision state .check { state with phase := .parking }
  | begin (hchecking : state.phase = .checking) (hstop : state.stopRequested = true) :
      SupervisedStep supervision state .check
        { state with phase := .performing supervision.duties }
  | park (hparking : state.phase = .parking) :
      SupervisedStep supervision state .park { state with phase := .asleep }
  | wake (hasleep : state.phase = .asleep) :
      SupervisedStep supervision state .wake { state with phase := .checking }
  | perform {duty : Duty Helper Order} {rest : List (Duty Helper Order)}
      {done : Supervised Helper Shared Error Order}
      (hphase : state.phase = .performing (duty :: rest))
      (hperformed : Performed supervision state duty done) :
      SupervisedStep supervision state .perform { done with phase := .performing rest }
  | outside {input : Input} {shared : Shared}
      (hinput : supervision.outside input state.shared = some shared) :
      SupervisedStep supervision state (.outside input) { state with shared := shared }

theorem supervisedStep_of_step (hstep : state.step supervision label = some next) :
    SupervisedStep supervision state label next := by
  cases label with
  | work helper input =>
    dsimp only [Supervised.step] at hstep
    split at hstep
    · next hrunning =>
      obtain ⟨⟨shared, ending⟩, hwork, rfl⟩ := Option.map_eq_some_iff.mp hstep
      cases ending with
      | none => exact .goOn hrunning hwork
      | some ending => exact .finish hrunning hwork
    · cases hstep
  | signal helper =>
    dsimp only [Supervised.step] at hstep
    split at hstep
    · cases hstep
    · next hsignalling hfree =>
      cases hstep
      exact .signal hsignalling hfree
    · cases hstep
  | notify helper =>
    dsimp only [Supervised.step] at hstep
    split at hstep
    · next hnotifying =>
      cases hstep
      exact .notify hnotifying
    · cases hstep
  | check =>
    dsimp only [Supervised.step] at hstep
    split at hstep
    · next hchecking =>
      by_cases hstop : state.stopRequested = true
      · rw [if_pos hstop] at hstep
        cases hstep
        exact .begin hchecking hstop
      · rw [if_neg hstop] at hstep
        cases hstep
        exact .goBack hchecking (Bool.eq_false_of_not_eq_true hstop)
    · cases hstep
  | park =>
    dsimp only [Supervised.step] at hstep
    split at hstep
    · next hparking =>
      cases hstep
      exact .park hparking
    · cases hstep
  | wake =>
    dsimp only [Supervised.step] at hstep
    split at hstep
    · next hasleep =>
      cases hstep
      exact .wake hasleep
    · cases hstep
  | perform =>
    dsimp only [Supervised.step] at hstep
    split at hstep
    · next duty rest hphase =>
      obtain ⟨done, hperform, rfl⟩ := Option.map_eq_some_iff.mp hstep
      exact .perform hphase (performed_of_perform hperform)
    · cases hstep
  | outside input =>
    obtain ⟨shared, hinput, rfl⟩ := Option.map_eq_some_iff.mp hstep
    exact .outside hinput

end Steps

/-! ### What holds in every state -/

section Invariants

variable {Helper Shared Error Input Order : Type*} [DecidableEq Helper]
  {supervision : Supervision Helper Shared Error Input Order}
  {state next : Supervised Helper Shared Error Order} {label : SupervisionLabel Helper Input}

/-- All duties are performed. -/
def Supervised.Returned (state : Supervised Helper Shared Error Order) : Prop :=
  state.phase = .performing []

/-- The helpers that these duties wait for. -/
def Awaited (done : List (Duty Helper Order)) (helper : Helper) : Prop :=
  .join helper ∈ done ∨ .retire helper ∈ done

/-- What the duties performed so far have brought about. -/
structure Supervised.Performing (supervision : Supervision Helper Shared Error Input Order)
    (state : Supervised Helper Shared Error Order) (done rest : List (Duty Helper Order)) :
    Prop where
  stopped : state.stopRequested = true
  split : supervision.duties = done ++ rest
  left : ∀ helper, Awaited done helper → state.helpers helper = .left
  answer : state.answer.isSome → .answer ∈ done

/-- The error kept is the first one signalled, a sleeper whose stop was requested is about to be
notified, and the duties performed have brought about what they wait for. -/
structure Supervised.Sound (supervision : Supervision Helper Shared Error Input Order)
    (state : Supervised Helper Shared Error Order) : Prop where
  stopped : state.stopRequested = true ↔ state.signalled ≠ []
  error : state.error = state.signalled.reduceOption.head?
  parking : state.phase = .parking → state.stopRequested = false
  asleep : state.phase = .asleep → state.stopRequested = true →
    ∃ helper, state.helpers helper = .notifying
  performing : ∀ rest, state.phase = .performing rest →
    ∃ done, state.Performing supervision done rest
  answer : state.answer.isSome → ∃ rest, state.phase = .performing rest

/-- A helper that has left stays where it is when another one moves. -/
theorem Supervised.left_move {helper other : Helper} (hleft : state.helpers helper = .left)
    (hother : state.helpers other ≠ .left) (phase : HelperPhase Error) :
    (state.move other phase).helpers helper = .left := by
  have hne : helper ≠ other := fun hsame ↦ hother (hsame ▸ hleft)
  rw [Supervised.helpers_move_of_ne hne, hleft]

/-- A stop that was requested stays requested. -/
theorem SupervisedStep.stopRequested (hstep : SupervisedStep supervision state label next)
    (hstop : state.stopRequested = true) : next.stopRequested = true := by
  cases hstep with
  | signal _ _ => rfl
  | perform _ hperformed =>
    cases hperformed <;> exact hstop
  | _ => exact hstop

theorem Supervised.stopRequested_run (hstop : state.stopRequested = true)
    {labels : List (SupervisionLabel Helper Input)}
    (hrun : supervision.system.run state labels = some next) : next.stopRequested = true := by
  induction labels generalizing state with
  | nil =>
    cases hrun
    exact hstop
  | cons label rest ih =>
    cases hstep : supervision.system.step state label with
    | none => simp [TransitionSystem.run, hstep] at hrun
    | some middle =>
      rw [supervision.system.run_cons hstep] at hrun
      exact ih ((supervisedStep_of_step hstep).stopRequested hstop) hrun

/-- A helper that has left does nothing more. -/
theorem SupervisedStep.left (hstep : SupervisedStep supervision state label next)
    {helper : Helper} (hleft : state.helpers helper = .left) : next.helpers helper = .left := by
  cases hstep with
  | finish hrunning _ => exact Supervised.left_move hleft (by rw [hrunning]; nofun) _
  | signal hsignalling _ => exact Supervised.left_move hleft (by rw [hsignalling]; nofun) _
  | notify hnotifying => exact Supervised.left_move hleft (by rw [hnotifying]; nofun) _
  | perform _ hperformed =>
    cases hperformed with
    | @retire other _ =>
      show (state.move other .left).helpers helper = .left
      by_cases hsame : helper = other
      · rw [hsame, Supervised.helpers_move_self]
      · rw [Supervised.helpers_move_of_ne hsame, hleft]
    | _ => exact hleft
  | _ => exact hleft

namespace Supervised

theorem sound_start : (supervision.system.start).Sound supervision where
  stopped := by simp [Supervision.system]
  error := rfl
  parking := nofun
  asleep := nofun
  performing := nofun
  answer := nofun

omit [DecidableEq Helper] in
/-- A step that leaves the thread and what it keeps as they are. -/
theorem Sound.of_same (hsound : state.Sound supervision) (hphase : next.phase = state.phase)
    (hstop : next.stopRequested = state.stopRequested) (herror : next.error = state.error)
    (hsignalled : next.signalled = state.signalled) (hanswer : next.answer = state.answer)
    (hleft : ∀ helper, state.helpers helper = .left → next.helpers helper = .left)
    (hnotifying : ∀ helper, state.helpers helper = .notifying →
      next.helpers helper = .notifying) : next.Sound supervision where
  stopped := by rw [hstop, hsignalled, hsound.stopped]
  error := by rw [herror, hsignalled, hsound.error]
  parking hparking := by rw [hstop, hsound.parking (hphase ▸ hparking)]
  asleep hasleep hstopped := by
    obtain ⟨helper, hhelper⟩ := hsound.asleep (hphase ▸ hasleep) (hstop ▸ hstopped)
    exact ⟨helper, hnotifying helper hhelper⟩
  performing rest hrest := by
    obtain ⟨done, hdone⟩ := hsound.performing rest (hphase ▸ hrest)
    exact ⟨done, hstop ▸ hdone.stopped, hdone.split,
      fun helper hawaited ↦ hleft helper (hdone.left helper hawaited),
      fun hanswered ↦ hdone.answer (hanswer ▸ hanswered)⟩
  answer hanswered := by
    rw [hphase]
    exact hsound.answer (hanswer ▸ hanswered)

/-- The lock region of `signalStop`. -/
theorem Sound.signal (hsound : state.Sound supervision) {helper : Helper} {error : Option Error}
    (hsignalling : state.helpers helper = .signalling error) (hfree : state.phase ≠ .parking) :
    ((state.signalStop error).move helper .notifying).Sound supervision where
  stopped := by simp [move, signalStop]
  error := by
    show state.error.or error = (state.signalled ++ [error]).reduceOption.head?
    rw [List.reduceOption_append, List.head?_append, ← hsound.error]
    cases error <;> rfl
  parking hparking := absurd hparking hfree
  asleep _ _ := ⟨helper, helpers_move_self helper _⟩
  performing rest hrest := by
    obtain ⟨done, hdone⟩ := hsound.performing rest hrest
    refine ⟨done, rfl, hdone.split, fun other hawaited ↦ ?_, hdone.answer⟩
    exact left_move (hdone.left other hawaited) (by rw [hsignalling]; nofun) _
  answer := hsound.answer

/-- The notification. -/
theorem Sound.notify (hsound : state.Sound supervision) {helper : Helper}
    (hnotifying : state.helpers helper = .notifying) :
    (({ state with phase := state.phase.notified } : Supervised Helper Shared Error Order).move
      helper .left).Sound supervision where
  stopped := hsound.stopped
  error := hsound.error
  parking hparking := by
    change state.phase.notified = .parking at hparking
    cases hphase : state.phase with
    | parking => exact hsound.parking hphase
    | _ =>
      rw [hphase] at hparking
      cases hparking
  asleep hasleep := by
    change state.phase.notified = .asleep at hasleep
    cases hphase : state.phase with
    | _ =>
      rw [hphase] at hasleep
      cases hasleep
  performing rest hrest := by
    change state.phase.notified = .performing rest at hrest
    cases hphase : state.phase with
    | performing duties =>
      rw [hphase] at hrest
      obtain rfl : duties = rest := by cases hrest; rfl
      obtain ⟨done, hdone⟩ := hsound.performing duties hphase
      refine ⟨done, hdone.stopped, hdone.split, fun other hawaited ↦ ?_, hdone.answer⟩
      exact left_move (hdone.left other hawaited) (by rw [hnotifying]; nofun) _
    | _ =>
      rw [hphase] at hrest
      cases hrest
  answer hanswered := by
    obtain ⟨rest, hrest⟩ := hsound.answer hanswered
    exact ⟨rest, by show state.phase.notified = _; rw [hrest]; rfl⟩

/-- A duty. -/
theorem Sound.perform (hsound : state.Sound supervision) {duty : Duty Helper Order}
    {rest : List (Duty Helper Order)} {done : Supervised Helper Shared Error Order}
    (hphase : state.phase = .performing (duty :: rest))
    (hperformed : Performed supervision state duty done) :
    ({ done with phase := .performing rest } : Supervised Helper Shared Error Order).Sound
      supervision := by
  obtain ⟨before, hbefore⟩ := hsound.performing _ hphase
  have hleft : ∀ helper, state.helpers helper = .left → done.helpers helper = .left :=
    fun helper hhelper ↦ (SupervisedStep.perform hphase hperformed).left hhelper
  have hkept : done.stopRequested = state.stopRequested ∧ done.error = state.error ∧
      done.signalled = state.signalled := by
    cases hperformed <;> exact ⟨rfl, rfl, rfl⟩
  have hawaited : ∀ helper, Awaited (before ++ [duty]) helper → done.helpers helper = .left := by
    intro helper hawaited
    simp only [Awaited, List.mem_append, List.mem_singleton] at hawaited
    have hduty : Awaited before helper ∨ .join helper = duty ∨ .retire helper = duty := by
      unfold Awaited
      tauto
    rcases hduty with hearlier | rfl | rfl
    · exact hleft helper (hbefore.left helper hearlier)
    · cases hperformed with
      | join hhelper => exact hhelper
    · cases hperformed with
      | retire _ => exact helpers_move_self helper _
  have hanswered : done.answer.isSome → .answer ∈ before ++ [duty] := by
    intro hdone
    cases hperformed with
    | answer => exact List.mem_append_right _ List.mem_cons_self
    | _ => exact List.mem_append_left _ (hbefore.answer hdone)
  exact
    { stopped := by
        show done.stopRequested = true ↔ done.signalled ≠ []
        rw [hkept.1, hkept.2.2, hsound.stopped]
      error := by
        show done.error = done.signalled.reduceOption.head?
        rw [hkept.2.1, hkept.2.2, hsound.error]
      parking := nofun
      asleep := nofun
      performing := by
        intro later hlater
        cases hlater
        refine ⟨before ++ [duty], hkept.1 ▸ hbefore.stopped, ?_, hawaited, hanswered⟩
        rw [List.append_assoc, List.singleton_append]
        exact hbefore.split
      answer := fun _ ↦ ⟨rest, rfl⟩ }

theorem Sound.step (hsound : state.Sound supervision)
    (hstep : SupervisedStep supervision state label next) : next.Sound supervision := by
  have hleft : ∀ helper, state.helpers helper = .left → next.helpers helper = .left :=
    fun helper hhelper ↦ hstep.left hhelper
  cases hstep with
  | goOn _ _ => exact hsound.of_same rfl rfl rfl rfl rfl hleft fun _ hhelper ↦ hhelper
  | @finish helper _ _ _ hrunning _ =>
    refine hsound.of_same rfl rfl rfl rfl rfl hleft fun other hother ↦ ?_
    have hne : other ≠ helper := by
      rintro rfl
      rw [hrunning] at hother
      cases hother
    rw [helpers_move_of_ne hne]
    exact hother
  | signal hsignalling hfree => exact hsound.signal hsignalling hfree
  | notify hnotifying => exact hsound.notify hnotifying
  | goBack hchecking hstop =>
    exact ⟨hsound.stopped, hsound.error, fun _ ↦ hstop, nofun, nofun, fun hanswered ↦ by
      obtain ⟨rest, hrest⟩ := hsound.answer hanswered
      rw [hchecking] at hrest
      cases hrest⟩
  | begin hchecking hstop =>
    have hnone : state.answer.isSome → False := fun hanswered ↦ by
      obtain ⟨rest, hrest⟩ := hsound.answer hanswered
      rw [hchecking] at hrest
      cases hrest
    refine ⟨hsound.stopped, hsound.error, nofun, nofun, fun rest hrest ↦ ?_,
      fun hanswered ↦ (hnone hanswered).elim⟩
    cases hrest
    exact ⟨[], hstop, rfl, fun helper hawaited ↦ by simp [Awaited] at hawaited,
      fun hanswered ↦ (hnone hanswered).elim⟩
  | park hparking =>
    refine ⟨hsound.stopped, hsound.error, nofun, fun _ hstopped ↦ ?_, nofun, fun hanswered ↦ ?_⟩
    · exact absurd (hstopped : state.stopRequested = true) (by rw [hsound.parking hparking]; nofun)
    · obtain ⟨rest, hrest⟩ := hsound.answer hanswered
      rw [hparking] at hrest
      cases hrest
  | wake hasleep =>
    refine ⟨hsound.stopped, hsound.error, nofun, nofun, nofun, fun hanswered ↦ ?_⟩
    obtain ⟨rest, hrest⟩ := hsound.answer hanswered
    rw [hasleep] at hrest
    cases hrest
  | perform hphase hperformed => exact hsound.perform hphase hperformed
  | outside _ => exact hsound.of_same rfl rfl rfl rfl rfl hleft fun _ hhelper ↦ hhelper

theorem sound_of_reachable {condition : Supervised Helper Shared Error Order →
      SupervisionLabel Helper Input → Prop}
    (hreach : supervision.system.ReachableUnder condition state) : state.Sound supervision := by
  refine hreach.induction sound_start fun before label after _ hsound _ hstep ↦ ?_
  exact hsound.step (supervisedStep_of_step hstep)

end Supervised

/-! ### The answer -/

/-- The helpers whose end may bring an error are awaited before the answer is evaluated. -/
structure Supervision.Reports (supervision : Supervision Helper Shared Error Input Order)
    (before after : List (Duty Helper Order)) : Prop where
  split : supervision.duties = before ++ .answer :: after
  first : .answer ∉ before
  awaited : ∀ helper input shared next error,
    supervision.work helper input shared = some (next, some (.signal (some error))) →
      Awaited before helper

/-- An error on its way comes from a helper that is awaited, and the answer is the error kept. -/
structure Supervised.Answered (before : List (Duty Helper Order))
    (state : Supervised Helper Shared Error Order) : Prop where
  signalling : ∀ helper error, state.helpers helper = .signalling (some error) →
    Awaited before helper
  answer : ∀ error, state.answer = some error → error = state.error

namespace Supervised

variable {before after : List (Duty Helper Order)}

omit [DecidableEq Helper] in
/-- When the answer is evaluated, the helpers awaited before it have left. -/
theorem Sound.left_of_answer (hsound : state.Sound supervision)
    (hreports : supervision.Reports before after) (hanswered : state.answer.isSome)
    {helper : Helper} (hawaited : Awaited before helper) : state.helpers helper = .left := by
  obtain ⟨rest, hphase⟩ := hsound.answer hanswered
  obtain ⟨done, hdone⟩ := hsound.performing rest hphase
  have hanswer : Duty.answer ∈ done := hdone.answer hanswered
  have hsplit : before ++ .answer :: after = done ++ rest := hreports.split ▸ hdone.split
  rcases List.append_eq_append_iff.mp hsplit with ⟨more, hmore, -⟩ | ⟨more, hmore, -⟩
  · refine hdone.left helper (hawaited.imp ?_ ?_) <;>
      exact fun hmem ↦ hmore ▸ List.mem_append_left _ hmem
  · exact absurd (hmore ▸ List.mem_append_left _ hanswer) hreports.first

theorem Answered.step (hanswered : state.Answered before) (hsound : state.Sound supervision)
    (hreports : supervision.Reports before after)
    (hstep : SupervisedStep supervision state label next) : next.Answered before := by
  have hmoved : ∀ (other : Helper) (phase : HelperPhase Error),
      (∀ error, phase = .signalling (some error) → Awaited before other) →
        ∀ helper error, (state.move other phase).helpers helper = .signalling (some error) →
          Awaited before helper := by
    intro other phase hphase helper error hhelper
    by_cases hsame : helper = other
    · rw [hsame, helpers_move_self] at hhelper
      exact hsame ▸ hphase error hhelper
    · rw [helpers_move_of_ne hsame] at hhelper
      exact hanswered.signalling helper error hhelper
  cases hstep with
  | @finish other input shared ending _ hwork =>
    refine ⟨hmoved other ending.phase fun error hending ↦ ?_, hanswered.answer⟩
    cases ending with
    | silent => cases hending
    | signal brought =>
      cases hending
      exact hreports.awaited _ _ _ _ _ hwork
  | @signal other error hsignalling _ =>
    refine ⟨hmoved other .notifying nofun, fun answer hanswer ↦ ?_⟩
    show answer = state.error.or error
    rw [← hanswered.answer answer hanswer]
    cases error with
    | none => exact Option.or_none.symm
    | some error =>
      -- a helper that brings an error has left before the answer
      have hleft := hsound.left_of_answer hreports (Option.isSome_of_eq_some hanswer)
        (hanswered.signalling _ _ hsignalling)
      rw [hsignalling] at hleft
      cases hleft
  | notify _ => exact ⟨hmoved _ .left nofun, hanswered.answer⟩
  | perform _ hperformed =>
    cases hperformed with
    | answer => exact ⟨hanswered.signalling, fun answer hanswer ↦ (Option.some.inj hanswer).symm⟩
    | retire _ => exact ⟨hmoved _ .left nofun, hanswered.answer⟩
    | order _ => exact ⟨hanswered.signalling, hanswered.answer⟩
    | join _ => exact ⟨hanswered.signalling, hanswered.answer⟩
  | _ => exact ⟨hanswered.signalling, hanswered.answer⟩

/-- The answer is the first error of all that are ever signalled, and the helpers awaited before it
have left. -/
theorem answer_eq {condition : Supervised Helper Shared Error Order →
      SupervisionLabel Helper Input → Prop}
    (hreports : supervision.Reports before after)
    (hreach : supervision.system.ReachableUnder condition state) {answer : Option Error}
    (hanswer : state.answer = some answer) :
    answer = state.signalled.reduceOption.head? ∧
      ∀ helper, Awaited before helper → state.helpers helper = .left := by
  have hsound := sound_of_reachable hreach
  have hstart : (supervision.system.start).Answered before := ⟨nofun, nofun⟩
  have hanswered : state.Answered before := by
    refine hreach.induction hstart fun _ _ _ hmiddle hbefore _ hstep ↦ ?_
    exact hbefore.step (sound_of_reachable hmiddle) hreports (supervisedStep_of_step hstep)
  refine ⟨?_, fun helper hawaited ↦ hsound.left_of_answer hreports
    (Option.isSome_of_eq_some hanswer) hawaited⟩
  rw [hanswered.answer answer hanswer, hsound.error]

/-! ### Progress -/

/-- When the stop was requested and the program can do nothing of its own, it has returned, an order
has to wait, or it joins a helper whose body has not ended. -/
theorem Sound.blocked (hsound : state.Sound supervision) (hstop : state.stopRequested = true)
    (hcheck : state.step supervision .check = none)
    (hperform : state.step supervision .perform = none)
    (hsignal : ∀ helper, state.step supervision (.signal helper) = none)
    (hnotify : ∀ helper, state.step supervision (.notify helper) = none) :
    state.Returned ∨
      (∃ order rest, state.phase = .performing (.order order :: rest) ∧
        supervision.obey order state.shared = none) ∨
      ∃ helper rest, state.phase = .performing (.join helper :: rest) ∧
        state.helpers helper = .running := by
  have hnotifying : ∀ helper, state.helpers helper ≠ .notifying := fun helper hhelper ↦ by
    have hnone := hnotify helper
    simp only [Supervised.step, hhelper, reduceCtorEq] at hnone
  cases hphase : state.phase with
  | checking => simp only [Supervised.step, hphase, reduceCtorEq] at hcheck
  | parking => exact absurd hstop (by rw [hsound.parking hphase]; nofun)
  | asleep =>
    obtain ⟨helper, hhelper⟩ := hsound.asleep hphase hstop
    exact absurd hhelper (hnotifying helper)
  | performing duties =>
    have hsignalling : ∀ helper error, state.helpers helper ≠ .signalling error :=
      fun helper error hhelper ↦ by
        have hnone := hsignal helper
        simp only [Supervised.step, hhelper, hphase, reduceCtorEq] at hnone
    cases duties with
    | nil => exact .inl hphase
    | cons duty rest =>
      simp only [Supervised.step, hphase, Option.map_eq_none_iff] at hperform
      cases duty with
      | order order =>
        exact .inr (.inl ⟨order, rest, rfl, Option.map_eq_none_iff.mp hperform⟩)
      | join helper =>
        cases hhelper : state.helpers helper with
        | running => exact .inr (.inr ⟨helper, rest, rfl, hhelper⟩)
        | signalling error => exact absurd hhelper (hsignalling helper error)
        | notifying => exact absurd hhelper (hnotifying helper)
        | left => simp only [Supervised.perform, hhelper, reduceCtorEq] at hperform
      | answer => cases hperform
      | retire helper =>
        cases hhelper : state.helpers helper with
        | signalling error => exact absurd hhelper (hsignalling helper error)
        | notifying => exact absurd hhelper (hnotifying helper)
        | _ => simp only [Supervised.perform, hhelper, reduceCtorEq] at hperform

end Supervised

end Invariants

/-! ### Runs in which nothing comes from outside -/

section Measure

variable {Helper Shared Error Input Order : Type*} [DecidableEq Helper] [Fintype Helper]
  {supervision : Supervision Helper Shared Error Input Order}
  {state next : Supervised Helper Shared Error Order} {label : SupervisionLabel Helper Input}

/-- What a helper may still do outside its body. -/
def HelperPhase.weight : HelperPhase Error → Nat
  | .running => 5
  | .signalling _ => 4
  | .notifying => 3
  | .left => 0

/-- What the thread may still do; it has `duties` duties. -/
def SupervisorPhase.rank (duties : Nat) : SupervisorPhase Helper Order → Nat
  | .checking => duties + 2
  | .parking => duties + 1
  | .asleep => duties
  | .performing rest => rest.length

/-- The steps that need nothing from outside: `own` are those of the bodies of the helpers and
`late` those of the other threads. -/
def SupervisionLabel.Internal (own : Helper → Input → Prop) (late : Input → Prop) :
    SupervisionLabel Helper Input → Prop
  | .work helper input => own helper input
  | .outside input => late input
  | .wake => False
  | _ => True

/-- The bodies and the other threads make what is shared smaller, and an order makes it larger by
at most `cost`. -/
structure Supervision.Shrinks (supervision : Supervision Helper Shared Error Input Order)
    (own : Helper → Input → Prop) (late : Input → Prop) (size : Shared → Nat) (cost : Nat) :
    Prop where
  work : ∀ helper input shared next ending, own helper input →
    supervision.work helper input shared = some (next, ending) → size next < size shared
  obey : ∀ order shared next, supervision.obey order shared = some next →
    size next ≤ size shared + cost
  outside : ∀ input shared next, late input → supervision.outside input shared = some next →
    size next < size shared

/-- What the program may still do. -/
def Supervised.measure (supervision : Supervision Helper Shared Error Input Order)
    (size : Shared → Nat) (cost : Nat) (state : Supervised Helper Shared Error Order) : Nat :=
  size state.shared + (cost + 1) *
    (state.phase.rank supervision.duties.length + ∑ helper, (state.helpers helper).weight)

namespace Supervised

theorem sum_weight_move (helper : Helper) (phase : HelperPhase Error) :
    ∑ other, ((state.move helper phase).helpers other).weight + (state.helpers helper).weight =
      ∑ other, (state.helpers other).weight + phase.weight := by
  have hothers : ∑ other ∈ Finset.univ.erase helper,
      ((state.move helper phase).helpers other).weight =
        ∑ other ∈ Finset.univ.erase helper, (state.helpers other).weight := by
    refine Finset.sum_congr rfl fun other hother ↦ ?_
    rw [helpers_move_of_ne (Finset.ne_of_mem_erase hother)]
  rw [← Finset.add_sum_erase _ _ (Finset.mem_univ helper), helpers_move_self, hothers,
    ← Finset.add_sum_erase _ (fun other ↦ (state.helpers other).weight) (Finset.mem_univ helper)]
  omega

omit [DecidableEq Helper] [Fintype Helper] in
/-- A notification costs the helper more than the thread gains by it. -/
theorem rank_notified (duties : Nat) (phase : SupervisorPhase Helper Order) :
    phase.notified.rank duties ≤ phase.rank duties + 2 := by
  cases phase <;> simp only [SupervisorPhase.notified, SupervisorPhase.rank] <;> omega

theorem weight_phase_lt (ending : Ending Error) : ending.phase.weight < 5 := by
  cases ending <;> simp only [Ending.phase, HelperPhase.weight] <;> omega

/-- The program gets nearer to its end with every step that needs nothing from outside. -/
theorem measure_lt {own : Helper → Input → Prop} {late : Input → Prop} {size : Shared → Nat}
    {cost : Nat} (hshrinks : supervision.Shrinks own late size cost)
    (hinternal : label.Internal own late) (hstep : state.step supervision label = some next) :
    next.measure supervision size cost < state.measure supervision size cost := by
  -- what a step saves outside the shared state counts `cost + 1` times
  have hsaves : ∀ {shared shared' : Shared} {before after : Nat}, after < before →
      size shared' ≤ size shared + cost →
        size shared' + (cost + 1) * after < size shared + (cost + 1) * before := by
    intro shared shared' before after hlt hsize
    have hmul : (cost + 1) * (after + 1) ≤ (cost + 1) * before := Nat.mul_le_mul_left _ hlt
    rw [Nat.mul_add, Nat.mul_one] at hmul
    omega
  unfold measure
  cases supervisedStep_of_step hstep with
  | goOn _ hwork => exact Nat.add_lt_add_right (hshrinks.work _ _ _ _ _ hinternal hwork) _
  | @finish helper input shared ending hrunning hwork =>
    have hsize := hshrinks.work _ _ _ _ _ hinternal hwork
    have hsum := @sum_weight_move _ _ _ _ _ _ ({ state with shared := shared }) helper ending.phase
    have hweight := weight_phase_lt ending
    change _ + (state.helpers helper).weight = ∑ other, (state.helpers other).weight + _ at hsum
    rw [hrunning] at hsum
    refine hsaves (Nat.add_lt_add_left ?_ _) (hsize.le.trans (Nat.le_add_right _ _))
    change _ + 5 = _ at hsum
    omega
  | @signal helper error hsignalling _ =>
    have hsum := @sum_weight_move _ _ _ _ _ _ (state.signalStop error) helper .notifying
    change _ + (state.helpers helper).weight = ∑ other, (state.helpers other).weight + 3 at hsum
    rw [hsignalling] at hsum
    refine hsaves (Nat.add_lt_add_left ?_ _) (Nat.le_add_right _ _)
    change _ + 4 = _ at hsum
    omega
  | @notify helper hnotifying =>
    have hsum := @sum_weight_move _ _ _ _ _ _
      ({ state with phase := state.phase.notified }) helper .left
    have hrank := rank_notified supervision.duties.length state.phase
    change _ + (state.helpers helper).weight = ∑ other, (state.helpers other).weight + 0 at hsum
    rw [hnotifying] at hsum
    refine hsaves ?_ (Nat.le_add_right _ _)
    change _ + 3 = _ at hsum
    change state.phase.notified.rank _ + _ < _
    omega
  | goBack hchecking _ =>
    refine hsaves ?_ (Nat.le_add_right _ _)
    rw [hchecking]
    exact Nat.add_lt_add_right (Nat.lt_succ_self _) _
  | begin hchecking _ =>
    refine hsaves ?_ (Nat.le_add_right _ _)
    rw [hchecking]
    exact Nat.add_lt_add_right (Nat.lt_add_of_pos_right (by decide)) _
  | park hparking =>
    refine hsaves ?_ (Nat.le_add_right _ _)
    rw [hparking]
    exact Nat.add_lt_add_right (Nat.lt_succ_self _) _
  | wake _ => exact hinternal.elim
  | @perform duty rest done hphase hperformed =>
    have hrank : (SupervisorPhase.performing (duty :: rest) :
        SupervisorPhase Helper Order).rank supervision.duties.length = rest.length + 1 := rfl
    have hdone : ∑ other, (done.helpers other).weight ≤ ∑ other, (state.helpers other).weight ∧
        size done.shared ≤ size state.shared + cost := by
      cases hperformed with
      | order hobey => exact ⟨le_rfl, hshrinks.obey _ _ _ hobey⟩
      | @retire helper _ =>
        have hsum := @sum_weight_move _ _ _ _ _ _ state helper .left
        change _ + _ = _ + 0 at hsum
        exact ⟨by omega, Nat.le_add_right _ _⟩
      | join _ => exact ⟨le_rfl, Nat.le_add_right _ _⟩
      | answer => exact ⟨le_rfl, Nat.le_add_right _ _⟩
    refine hsaves ?_ hdone.2
    rw [hphase, hrank]
    change rest.length + ∑ other, (done.helpers other).weight < _
    omega
  | outside hinput => exact Nat.add_lt_add_right (hshrinks.outside _ _ _ hinternal hinput) _

/-- A run in which nothing comes from outside is not longer than its measure. -/
theorem run_length_le {own : Helper → Input → Prop} {late : Input → Prop} {size : Shared → Nat}
    {cost : Nat} (hshrinks : supervision.Shrinks own late size cost)
    {labels : List (SupervisionLabel Helper Input)}
    (hinternal : ∀ label ∈ labels, label.Internal own late)
    (hrun : supervision.system.run state labels = some next) :
    labels.length ≤ state.measure supervision size cost :=
  (Nat.le_add_right _ _).trans (supervision.system.length_add_le_of_run
    (fun _ _ _ hlabel hstep ↦ measure_lt hshrinks hlabel hstep) hinternal hrun)

end Supervised

end Measure

end ChatServer
