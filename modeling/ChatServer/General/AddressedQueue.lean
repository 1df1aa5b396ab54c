import Mathlib.Data.List.Basic

/-!
# Queues of items addressed by reusable names

Items wait in a queue and are handled in order. An item may be directed at a name, and it is meant
for the owner that had the name when the item was made. The names are reused: another item of the
queue may bind a name to its own owner when it is handled. `Aligned` is what makes this safe: every
item finds its owner, or nobody, under its name, and no item comes after one that binds its name.

The rules say how a queue stays aligned when its first item is handled (`pop`), when items are added
anywhere (`insert`, `add`), and when an item is replaced by others directed at the same owner
(`replace`).
-/

set_option autoImplicit false
set_option relaxedAutoImplicit false

namespace ChatServer

/-- The name an item is directed at, the owner it is meant for, and the name it binds. -/
structure Addressing (Item Name Owner : Type*) where
  target : Item → Option Name
  owner : Item → Owner
  binds : Item → Option Name

namespace Addressing

variable {Item Name Owner : Type*} {addressing : Addressing Item Name Owner}

/-- Under its name every item finds its owner or nobody, now and when its turn comes. -/
structure Aligned (addressing : Addressing Item Name Owner) (bound : Name → Option Owner)
    (queue : List Item) : Prop where
  current : ∀ item ∈ queue, ∀ name owner, addressing.target item = some name →
    bound name = some owner → owner = addressing.owner item
  later : queue.Pairwise fun first second ↦
    ∀ name, addressing.binds first = some name → addressing.target second ≠ some name

namespace Aligned

variable {bound bound' : Name → Option Owner} {first second queue : List Item} {item : Item}

theorem nil (bound : Name → Option Owner) : addressing.Aligned bound [] :=
  ⟨by simp, List.Pairwise.nil⟩

/-- Names may be released. -/
theorem mono (haligned : addressing.Aligned bound queue)
    (hbound : ∀ name owner, bound' name = some owner → bound name = some owner) :
    addressing.Aligned bound' queue :=
  ⟨fun item hitem name owner htarget howner ↦
    haligned.current item hitem name owner htarget (hbound name owner howner), haligned.later⟩

/-- Handling the first item may release names and bind the name of that item. -/
theorem pop (haligned : addressing.Aligned bound (item :: queue))
    (hbound : ∀ name owner, bound' name = some owner →
      bound name = some owner ∨ addressing.binds item = some name) :
    addressing.Aligned bound' queue := by
  obtain ⟨hfirst, hlater⟩ := List.pairwise_cons.mp haligned.later
  refine ⟨fun other hother name owner htarget howner ↦ ?_, hlater⟩
  rcases hbound name owner howner with hold | hbinds
  · exact haligned.current other (List.mem_cons_of_mem _ hother) name owner htarget hold
  · exact absurd htarget (hfirst other hother name hbinds)

/-- An item may be added anywhere when its own name is not bound before it and binds no name of an
item after it. -/
theorem insert (haligned : addressing.Aligned bound (first ++ second))
    (hcurrent : ∀ name owner, addressing.target item = some name → bound name = some owner →
      owner = addressing.owner item)
    (hbefore : ∀ other ∈ first, ∀ name, addressing.binds other = some name →
      addressing.target item ≠ some name)
    (hafter : ∀ other ∈ second, ∀ name, addressing.binds item = some name →
      addressing.target other ≠ some name) :
    addressing.Aligned bound (first ++ item :: second) := by
  obtain ⟨hfirst, hsecond, hcross⟩ := List.pairwise_append.mp haligned.later
  refine ⟨fun other hother ↦ ?_, ?_⟩
  · rw [List.mem_append, List.mem_cons] at hother
    rcases hother with hother | rfl | hother
    · exact haligned.current other (List.mem_append_left _ hother)
    · exact hcurrent
    · exact haligned.current other (List.mem_append_right _ hother)
  · rw [List.pairwise_append, List.pairwise_cons]
    refine ⟨hfirst, ⟨hafter, hsecond⟩, fun other hother later hlater ↦ ?_⟩
    rcases List.mem_cons.mp hlater with rfl | hlater
    · exact hbefore other hother
    · exact hcross other hother later hlater

/-- Items that bind no name may be added anywhere when the name of each belongs to its owner and is
not bound before. -/
theorem add {items : List Item} (haligned : addressing.Aligned bound (first ++ second))
    (hbinds : ∀ item ∈ items, addressing.binds item = none)
    (hcurrent : ∀ item ∈ items, ∀ name owner, addressing.target item = some name →
      bound name = some owner → owner = addressing.owner item)
    (hbefore : ∀ other ∈ first, ∀ name, addressing.binds other = some name →
      ∀ item ∈ items, addressing.target item ≠ some name) :
    addressing.Aligned bound (first ++ (items ++ second)) := by
  induction items with
  | nil => exact haligned
  | cons item rest ih =>
    refine insert (ih ?_ ?_ ?_) (hcurrent item List.mem_cons_self) ?_ ?_
    · exact fun other hother ↦ hbinds other (List.mem_cons_of_mem _ hother)
    · exact fun other hother ↦ hcurrent other (List.mem_cons_of_mem _ hother)
    · exact fun other hother name hname later hlater ↦
        hbefore other hother name hname later (List.mem_cons_of_mem _ hlater)
    · exact fun other hother name hname ↦ hbefore other hother name hname item List.mem_cons_self
    · intro other _ name hname
      rw [hbinds item List.mem_cons_self] at hname
      cases hname

/-- An item that binds no name may be replaced by items that bind none and are directed at the
same owner or at no name. -/
theorem replace {items : List Item} (haligned : addressing.Aligned bound (first ++ item :: second))
    (hitems : ∀ other ∈ items, addressing.binds other = none ∧
      (addressing.target other = none ∨
        addressing.target other = addressing.target item ∧
          addressing.owner other = addressing.owner item)) :
    addressing.Aligned bound (first ++ items ++ second) := by
  obtain ⟨hfirst, hrest, hcross⟩ := List.pairwise_append.mp haligned.later
  obtain ⟨-, hsecond⟩ := List.pairwise_cons.mp hrest
  have hitem : item ∈ first ++ item :: second :=
    List.mem_append_right _ List.mem_cons_self
  refine ⟨fun other hother name owner htarget howner ↦ ?_, ?_⟩
  · rw [List.mem_append, List.mem_append] at hother
    rcases hother with (hother | hother) | hother
    · exact haligned.current other (List.mem_append_left _ hother) name owner htarget howner
    · rcases (hitems other hother).2 with hnone | ⟨hsame, hown⟩
      · rw [hnone] at htarget
        cases htarget
      · rw [hown]
        exact haligned.current item hitem name owner (hsame ▸ htarget) howner
    · exact haligned.current other
        (List.mem_append_right _ (List.mem_cons_of_mem _ hother)) name owner htarget howner
  · rw [List.pairwise_append, List.pairwise_append]
    refine ⟨⟨hfirst, ?_, ?_⟩, hsecond, ?_⟩
    · refine List.pairwise_of_forall_mem_list fun other hother later _ name hbinds ↦ ?_
      rw [(hitems other hother).1] at hbinds
      cases hbinds
    · intro other hother later hlater name hbinds htarget
      rcases (hitems later hlater).2 with hnone | ⟨hsame, -⟩
      · rw [hnone] at htarget
        cases htarget
      · exact hcross other hother item List.mem_cons_self name hbinds (hsame ▸ htarget)
    · intro other hother later hlater name hbinds
      rcases List.mem_append.mp hother with hother | hother
      · exact hcross other hother later (List.mem_cons_of_mem _ hlater) name hbinds
      · rw [(hitems other hother).1] at hbinds
        cases hbinds

end Aligned

end Addressing

end ChatServer
