import Mathlib.Data.List.Basic

/-!
# Interleavings of two lists

A list interleaves two others when it has exactly their items and keeps the order of each. Where two
producers write to one queue, what is written interleaves what each of them wrote. An interleaving
grows at its end with either list (`append_left`, `append_right`), so that it can follow
the producers from one step to the next.
-/

set_option autoImplicit false
set_option relaxedAutoImplicit false

namespace ChatServer

/-- The third list has the items of the other two, those of each in their order. -/
inductive Interleaving {Item : Type*} : List Item → List Item → List Item → Prop
  | nil : Interleaving [] [] []
  | left (item : Item) {first second all : List Item} (hrest : Interleaving first second all) :
      Interleaving (item :: first) second (item :: all)
  | right (item : Item) {first second all : List Item} (hrest : Interleaving first second all) :
      Interleaving first (item :: second) (item :: all)

namespace Interleaving

variable {Item : Type*} {first second all : List Item}

theorem only_left (items : List Item) : Interleaving items [] items := by
  induction items with
  | nil => exact .nil
  | cons item rest ih => exact .left item ih

theorem only_right (items : List Item) : Interleaving [] items items := by
  induction items with
  | nil => exact .nil
  | cons item rest ih => exact .right item ih

/-- One interleaving after another. -/
theorem append {first' second' all' : List Item} (hbefore : Interleaving first second all)
    (hafter : Interleaving first' second' all') :
    Interleaving (first ++ first') (second ++ second') (all ++ all') := by
  induction hbefore with
  | nil => exact hafter
  | left item _ ih => exact .left item ih
  | right item _ ih => exact .right item ih

/-- The first list grows. -/
theorem append_left (hbefore : Interleaving first second all) (items : List Item) :
    Interleaving (first ++ items) second (all ++ items) := by
  have hboth := hbefore.append (only_left items)
  rwa [List.append_nil] at hboth

/-- The second list grows. -/
theorem append_right (hbefore : Interleaving first second all) (items : List Item) :
    Interleaving first (second ++ items) (all ++ items) := by
  have hboth := hbefore.append (only_right items)
  rwa [List.append_nil] at hboth

end Interleaving

end ChatServer
