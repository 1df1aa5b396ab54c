import Mathlib.Data.Finset.Basic
import Mathlib.Data.List.Sort

/-!
# Orders of iteration over a hash set

A loop over a hash set visits every element once, in an order that no caller may rely on. An
`IterationOrder` is one such order for every set, so a result about all iteration orders holds of
whatever the container does. `IterationOrder.ascending` is one that can be evaluated.
-/

set_option autoImplicit false
set_option relaxedAutoImplicit false

namespace ChatServer

/-- For every set the list of its elements in the order a loop visits them. -/
structure IterationOrder (Elem : Type*) where
  visit : Finset Elem → List Elem
  mem_visit : ∀ (elements : Finset Elem) (element : Elem),
    element ∈ visit elements ↔ element ∈ elements
  nodup_visit : ∀ elements : Finset Elem, (visit elements).Nodup

namespace IterationOrder

variable {Elem : Type*}

@[simp] theorem visit_empty (order : IterationOrder Elem) : order.visit ∅ = [] := by
  rw [List.eq_nil_iff_forall_not_mem]
  intro element
  rw [order.mem_visit]
  exact Finset.notMem_empty element

/-- Visits the elements from the least to the greatest. -/
def ascending [LinearOrder Elem] : IterationOrder Elem where
  visit elements :=
    Quot.lift (fun elements : List Elem ↦ elements.insertionSort (· ≤ ·))
      (fun _ _ hperm ↦ List.Perm.eq_of_pairwise' (List.pairwise_insertionSort _ _)
        (List.pairwise_insertionSort _ _)
        ((List.perm_insertionSort _ _).trans (hperm.trans (List.perm_insertionSort _ _).symm)))
      elements.val
  mem_visit elements element := by
    rcases elements with ⟨⟨elements⟩, hnodup⟩
    exact List.mem_insertionSort _
  nodup_visit elements := by
    rcases elements with ⟨⟨elements⟩, hnodup⟩
    exact (List.perm_insertionSort _ _).nodup_iff.mpr hnodup

example : (ascending : IterationOrder Int).visit {3, 1, 2} = [1, 2, 3] := by decide

end IterationOrder

end ChatServer
