import Mathlib.Data.List.Pairwise
import Mathlib.Data.List.Perm.Basic

set_option autoImplicit false

/- Pairing off the elements of a list greedily: the first one takes a later one that fits it,
both leave the list, and an element that no later one fits is passed over. -/
namespace Farzin.GreedyPairing

variable {α : Type} {fits : α → α → Prop}

/-- The pairs that a list is left with, in order, and the elements that found no partner. -/
inductive PairsOff (fits : α → α → Prop) : List α → List (α × α) → List α → Prop
  | nil : PairsOff fits [] [] []
  | skip {a : α} {others left : List α} {pairs : List (α × α)} :
      (∀ b ∈ others, ¬ fits a b) → PairsOff fits others pairs left →
      PairsOff fits (a :: others) pairs (a :: left)
  | pair {a b : α} {before after left : List α} {pairs : List (α × α)} :
      fits a b → PairsOff fits (before ++ after) pairs left →
      PairsOff fits (a :: (before ++ b :: after)) ((a, b) :: pairs) left

/-- The elements of the pairs, one after the other. -/
def members (pairs : List (α × α)) : List α := pairs.flatMap fun p => [p.1, p.2]

@[simp] theorem members_cons (p : α × α) (pairs : List (α × α)) :
    members (p :: pairs) = p.1 :: p.2 :: members pairs := rfl

namespace PairsOff

variable {l left : List α} {pairs : List (α × α)}

/-- Nobody is lost and nobody is doubled. -/
theorem perm (paired : PairsOff fits l pairs left) : (members pairs ++ left).Perm l := by
  induction paired with
  | nil => exact .nil
  | skip _ _ ih => exact List.perm_middle.trans (ih.cons _)
  | pair _ _ ih => exact ((ih.cons _).trans List.perm_middle.symm).cons _

theorem fits_of_mem (paired : PairsOff fits l pairs left) {p : α × α} (inside : p ∈ pairs) :
    fits p.1 p.2 := by
  induction paired with
  | nil => cases inside
  | skip _ _ ih => exact ih inside
  | pair fit _ ih =>
      rcases List.mem_cons.mp inside with rfl | later
      · exact fit
      · exact ih later

theorem left_subset (paired : PairsOff fits l pairs left) : left ⊆ l := fun _ inside =>
  paired.perm.subset (List.mem_append_right _ inside)

/-- No two of those that are left fit, the earlier one first. -/
theorem left_pairwise (paired : PairsOff fits l pairs left) :
    left.Pairwise fun a b => ¬ fits a b := by
  induction paired with
  | nil => exact .nil
  | skip alone rest ih => exact .cons (fun b inside => alone b (rest.left_subset inside)) ih
  | pair _ _ ih => exact ih

/-- Where fitting is mutual, no two of those that are left fit in either order. -/
theorem maximal (paired : PairsOff fits l pairs left) (symm : ∀ a b, fits a b → fits b a)
    {a b : α} (first : a ∈ left) (second : b ∈ left) (apart : a ≠ b) : ¬ fits a b := by
  have symmetric : Std.Symm fun a b => ¬ fits a b := ⟨fun a b alone fit => alone (symm b a fit)⟩
  exact paired.left_pairwise.forall first second apart

end PairsOff

end Farzin.GreedyPairing
