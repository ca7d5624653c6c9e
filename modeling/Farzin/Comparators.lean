import Mathlib.Data.List.Sort
import Mathlib.Data.Rat.Defs
import Mathlib.Algebra.Order.Ring.Rat
import Mathlib.Tactic.Linarith
import Mathlib.Tactic.Ring

set_option autoImplicit false

/- Comparators in the manner of a sort function: a negative number puts the first argument in
front. One that goes through several keys may skip a key that does not apply to both sides,
which is sound only where the key applies to all or to none. -/
namespace Farzin.Comparators

variable {α : Type}

/-- Swapping the arguments changes the sign, and on `S` not to come after is transitive. -/
structure Coherent (S : α → Prop) (c : α → α → Rat) : Prop where
  odd : ∀ a b, c b a = -c a b
  trans : ∀ {a b d}, S a → S b → S d → c a b ≤ 0 → c b d ≤ 0 → c a d ≤ 0

/-- The higher value first; where a value is missing the key is skipped. -/
def byKey (value : α → Option Rat) (c : α → α → Rat) (a b : α) : Rat :=
  match value a, value b with
  | some va, some vb => if va ≠ vb then vb - va else c a b
  | _, _ => c a b

/-- The higher value first. -/
def byValue (value : α → Rat) (c : α → α → Rat) (a b : α) : Rat :=
  if value a ≠ value b then value b - value a else c a b

/-- The key has a value for everyone or for no one. -/
def Uniform (S : α → Prop) (value : α → Option Rat) : Prop :=
  ∀ {a b}, S a → S b → (value a).isSome = (value b).isSome

section Keys

variable {S : α → Prop} {c : α → α → Rat}

theorem byValue_odd (odd : ∀ a b, c b a = -c a b) (value : α → Rat) (a b : α) :
    byValue value c b a = -byValue value c a b := by
  unfold byValue
  by_cases same : value a = value b
  · rw [if_neg (not_not.mpr same), if_neg (not_not.mpr same.symm), odd]
  · rw [if_pos same, if_pos (Ne.symm same)]
    ring

theorem byValue_le {value : α → Rat} {a b : α} : byValue value c a b ≤ 0 ↔
    value b < value a ∨ value a = value b ∧ c a b ≤ 0 := by
  unfold byValue
  by_cases same : value a = value b
  · rw [if_neg (not_not.mpr same)]
    simp [same]
  · rw [if_pos same, sub_nonpos]
    constructor
    · intro le
      exact .inl (lt_of_le_of_ne le (Ne.symm same))
    · intro first
      rcases first with less | equal
      · exact less.le
      · exact absurd equal.1 same

/-- Where the comparator is coherent among equal values it is so behind the value. -/
theorem byValue_coherent {value : α → Rat}
    (coherent : ∀ x, Coherent (fun a => S a ∧ value a = x) c) : Coherent S (byValue value c) where
  odd := byValue_odd (coherent 0).odd value
  trans {a b d} hereA hereB hereD first second := by
    rw [byValue_le] at first second ⊢
    rcases first with less | equal
    · left
      rcases second with less' | equal'
      · exact lt_trans less' less
      · exact equal'.1 ▸ less
    · rcases second with less' | equal'
      · left
        exact equal.1.symm ▸ less'
      · right
        refine ⟨equal.1.trans equal'.1, (coherent (value d)).trans (a := a) (b := b) ?_ ?_ ?_
          equal.2 equal'.2⟩
        · exact ⟨hereA, equal.1.trans equal'.1⟩
        · exact ⟨hereB, equal'.1⟩
        · exact ⟨hereD, rfl⟩

theorem byKey_of_some {value : α → Option Rat} (all : ∀ a, S a → (value a).isSome) {a b : α}
    (hereA : S a) (hereB : S b) :
    byKey value c a b = byValue (fun x => (value x).getD 0) c a b := by
  obtain ⟨va, foundA⟩ := Option.isSome_iff_exists.mp (all a hereA)
  obtain ⟨vb, foundB⟩ := Option.isSome_iff_exists.mp (all b hereB)
  simp only [byKey, byValue, foundA, foundB, Option.getD_some]

theorem byKey_of_none {value : α → Option Rat} {a b : α} (none : value a = none) :
    byKey value c a b = c a b := by
  rw [byKey, none]

theorem byKey_odd (odd : ∀ a b, c b a = -c a b) (value : α → Option Rat) (a b : α) :
    byKey value c b a = -byKey value c a b := by
  unfold byKey
  cases value a with
  | none => cases value b <;> exact odd a b
  | some va =>
      cases value b with
      | none => exact odd a b
      | some vb =>
          by_cases same : va = vb
          · simp only [same, ne_eq, not_true_eq_false, if_false]
            exact odd a b
          · simp only [ne_eq, same, Ne.symm same, not_false_eq_true, if_true]
            ring

/-- A key that applies to all or to none keeps the comparator coherent. -/
theorem byKey_coherent {value : α → Option Rat} (coherent : Coherent S c)
    (uniform : Uniform S value) : Coherent S (byKey value c) where
  odd := byKey_odd coherent.odd value
  trans {a b d} hereA hereB hereD first second := by
    cases found : value a with
    | none =>
        have missing : value b = none := by
          have absent := uniform hereA hereB
          rw [found] at absent
          exact Option.not_isSome_iff_eq_none.mp fun some => by cases absent.trans some
        rw [byKey_of_none found] at first ⊢
        rw [byKey_of_none missing] at second
        exact coherent.trans hereA hereB hereD first second
    | some va =>
        have all : ∀ x, S x → (value x).isSome := by
          intro x here
          rw [← uniform hereA here, found]
          rfl
        have within : ∀ y, Coherent (fun x => S x ∧ (value x).getD 0 = y) c := fun y =>
          ⟨coherent.odd, fun inA inB inD => coherent.trans inA.1 inB.1 inD.1⟩
        rw [byKey_of_some all hereA hereB] at first
        rw [byKey_of_some all hereB hereD] at second
        rw [byKey_of_some all hereA hereD]
        exact (byValue_coherent within).trans hereA hereB hereD first second

theorem byKey_zero {value : α → Option Rat} {a b : α} (tied : byKey value c a b = 0) :
    c a b = 0 := by
  unfold byKey at tied
  split at tied
  · split at tied
    · rename_i different
      exact absurd (sub_eq_zero.mp tied).symm different
    · exact tied
  · exact tied

theorem byValue_zero {value : α → Rat} {a b : α} (tied : byValue value c a b = 0) :
    value a = value b ∧ c a b = 0 := by
  unfold byValue at tied
  split at tied
  · rename_i different
    exact absurd (sub_eq_zero.mp tied).symm different
  · rename_i same
    exact ⟨not_not.mp same, tied⟩

end Keys

section Sorting

variable {c : α → α → Rat}

/-- Coherent on everything. -/
abbrev Total (c : α → α → Rat) : Prop := Coherent (fun _ => True) c

theorem Total.irrefl (total : Total c) (a : α) : ¬ c a a < 0 := by
  have odd := total.odd a a
  intro less
  linarith

theorem Total.lt_trans (total : Total c) {a b d : α} (first : c a b < 0) (second : c b d < 0) :
    c a d < 0 := by
  by_contra after
  have back : c d a ≤ 0 := by
    have odd := total.odd a d
    linarith
  have around : c d b ≤ 0 := total.trans trivial trivial trivial back first.le
  have odd := total.odd b d
  linarith

theorem Total.connected (total : Total c) {a b : α} (apart : c a b ≠ 0) :
    c a b < 0 ∨ c b a < 0 := by
  rcases lt_or_gt_of_ne apart with less | greater
  · exact .inl less
  · have odd := total.odd a b
    right
    linarith

theorem Total.sorted (total : Total c) (list : List α) :
    (list.insertionSort fun a b => c a b ≤ 0).Pairwise fun a b => c a b ≤ 0 := by
  have either : Std.Total fun a b : α => c a b ≤ 0 := by
    refine ⟨fun a b => ?_⟩
    have odd := total.odd a b
    rcases le_total (c a b) 0 with less | greater
    · exact .inl less
    · right
      linarith
  have trans : IsTrans α fun a b => c a b ≤ 0 :=
    ⟨fun _ _ _ => total.trans trivial trivial trivial⟩
  exact List.pairwise_insertionSort _ _

/-- Sorting does not depend on the order of the input where no two values are tied. -/
theorem Total.sort_perm (total : Total c) {list other : List α} (same : other.Perm list)
    (apart : ∀ a ∈ list, ∀ b ∈ list, c a b = 0 → a = b) :
    (other.insertionSort fun a b => c a b ≤ 0) = list.insertionSort fun a b => c a b ≤ 0 := by
  have perm := ((List.perm_insertionSort (fun a b => c a b ≤ 0) other).trans same).trans
    (List.perm_insertionSort (fun a b => c a b ≤ 0) list).symm
  refine perm.eq_of_pairwise ?_ (total.sorted other) (total.sorted list)
  intro a b hereA hereB before after
  have inA := same.mem_iff.mp ((List.perm_insertionSort _ _).mem_iff.mp hereA)
  have inB := (List.perm_insertionSort _ _).mem_iff.mp hereB
  have odd := total.odd a b
  exact apart a inA b inB (by linarith)

end Sorting

end Farzin.Comparators
