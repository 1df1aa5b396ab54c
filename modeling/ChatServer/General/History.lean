import Mathlib.Data.List.Induction

/-!
# What holds since an event

A fact about a history of events often begins with one event and lasts until another ends it. What
begins and what ends it may depend on the past: on what an event could do where it stood. `Since`
is this pattern, and `since_iff` the rule to establish it: a fact that each event begins, ends or
keeps holds exactly since an event that begins it. `since_iff_split` finds the event in the history,
where the end does not depend on the past. `first_unique` is for facts that the first event of a
kind settles, and `map_eq_append_cons` for an event of a history that is read off another.
-/

set_option autoImplicit false
set_option relaxedAutoImplicit false

namespace ChatServer

variable {Event : Type*}

/-- Some event has begun it and none has ended it since. -/
inductive Since (begins ends : List Event → Event → Prop) : List Event → Prop
  | begun {past : List Event} {event : Event} (hbegins : begins past event) :
      Since begins ends (past ++ [event])
  | kept {past : List Event} {event : Event} (hsince : Since begins ends past)
      (hends : ¬ ends past event) : Since begins ends (past ++ [event])

variable {begins ends : List Event → Event → Prop} {past : List Event} {event : Event}

theorem not_since_nil : ¬ Since begins ends [] := by
  intro hsince
  generalize hhistory : ([] : List Event) = history at hsince
  cases hsince with
  | begun | kept => simp at hhistory

theorem since_concat :
    Since begins ends (past ++ [event]) ↔
      begins past event ∨ (Since begins ends past ∧ ¬ ends past event) := by
  constructor
  · intro hsince
    generalize hhistory : past ++ [event] = history at hsince
    cases hsince with
    | begun hbegins =>
      obtain ⟨rfl, hevent⟩ := List.append_inj' hhistory rfl
      obtain rfl := List.singleton_inj.mp hevent
      exact Or.inl hbegins
    | kept hsince hends =>
      obtain ⟨rfl, hevent⟩ := List.append_inj' hhistory rfl
      obtain rfl := List.singleton_inj.mp hevent
      exact Or.inr ⟨hsince, hends⟩
  · rintro (hbegins | ⟨hsince, hends⟩)
    · exact .begun hbegins
    · exact .kept hsince hends

/-- What each event begins, ends or keeps. -/
theorem since_iff (holds : List Event → Prop) (hstart : ¬ holds [])
    (hstep : ∀ past event,
      holds (past ++ [event]) ↔ begins past event ∨ (holds past ∧ ¬ ends past event))
    (history : List Event) : holds history ↔ Since begins ends history := by
  induction history using List.reverseRecOn with
  | nil => exact iff_of_false hstart not_since_nil
  | append_singleton past event ih => rw [hstep, since_concat, ih]

/-- Where the past does not matter for the end, the event is followed by none that ends it. -/
theorem since_iff_split {ends : Event → Prop} {history : List Event} :
    Since begins (fun _ event ↦ ends event) history ↔
      ∃ past event later, history = past ++ event :: later ∧ begins past event ∧
        ∀ next ∈ later, ¬ ends next := by
  constructor
  · intro hsince
    induction hsince with
    | begun hbegins => exact ⟨_, _, [], rfl, hbegins, by simp⟩
    | @kept recent event _ hends ih =>
      obtain ⟨past, first, later, rfl, hbegins, hlater⟩ := ih
      refine ⟨past, first, later ++ [event], by simp, hbegins, fun next hnext ↦ ?_⟩
      rcases List.mem_append.mp hnext with hbefore | hlast
      · exact hlater next hbefore
      · rwa [List.mem_singleton.mp hlast]
  · rintro ⟨past, event, later, rfl, hbegins, hlater⟩
    induction later using List.reverseRecOn with
    | nil => exact .begun hbegins
    | append_singleton later last ih =>
      have hbefore := ih fun next hnext ↦ hlater next (List.mem_append_left _ hnext)
      have hlast := hlater last (List.mem_append_right _ (List.mem_singleton_self _))
      rw [← List.cons_append, ← List.append_assoc]
      exact .kept hbefore hlast

/-- An event of a history that is read off another was read off one there. -/
theorem map_eq_append_cons {Source : Type*} {read : Source → Event} {history : List Source}
    {past later : List Event} {event : Event} :
    history.map read = past ++ event :: later ↔
      ∃ before source after, history = before ++ source :: after ∧ before.map read = past ∧
        read source = event ∧ after.map read = later := by
  constructor
  · intro hread
    obtain ⟨before, rest, rfl, hbefore, hrest⟩ := List.map_eq_append_iff.mp hread
    obtain ⟨source, after, rfl, hsource, hafter⟩ := List.map_eq_cons_iff.mp hrest
    exact ⟨before, source, after, rfl, hbefore, hsource, hafter⟩
  · rintro ⟨before, source, after, rfl, rfl, rfl, rfl⟩
    rw [List.map_append, List.map_cons]

/-- The first event of a kind is at one place of the history. -/
theorem first_unique {kind : Event → Prop} {past past' later later' : List Event}
    {event event' : Event} (hsame : past ++ event :: later = past' ++ event' :: later')
    (hpast : ∀ other ∈ past, ¬ kind other) (hevent : kind event)
    (hpast' : ∀ other ∈ past', ¬ kind other) (hevent' : kind event') :
    past = past' ∧ event = event' ∧ later = later' := by
  rcases List.append_eq_append_iff.mp hsame with ⟨between, rfl, hrest⟩ | ⟨between, rfl, hrest⟩
  · cases between with
    | nil =>
      obtain ⟨rfl, rfl⟩ := List.cons.inj hrest
      exact ⟨by simp, rfl, rfl⟩
    | cons first between =>
      obtain ⟨rfl, -⟩ := List.cons.inj hrest
      exact absurd hevent (hpast' event (by simp))
  · cases between with
    | nil =>
      obtain ⟨rfl, rfl⟩ := List.cons.inj hrest
      exact ⟨by simp, rfl, rfl⟩
    | cons first between =>
      obtain ⟨rfl, -⟩ := List.cons.inj hrest
      exact absurd hevent' (hpast event' (by simp))

end ChatServer
