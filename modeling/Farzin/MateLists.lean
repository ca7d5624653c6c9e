import Mathlib.Data.List.Perm.Basic
import Mathlib.Data.List.Nodup

set_option autoImplicit false

/- Reading a matching off the mates of its vertices. Vertices below `n` are listed in pairs,
single, or matched with an outer vertex; everyone is listed once. -/
namespace Farzin.MateLists

/-- The mate of a mate is the vertex itself. -/
structure Symmetric (mate : Nat → Option Nat) : Prop where
  back : ∀ v w, mate v = some w → mate w = some v
  apart : ∀ v w, mate v = some w → v ≠ w

section Kinds

variable (n : Nat) (mate : Nat → Option Nat)

def isSingle (v : Nat) : Bool := (mate v).isNone

/-- The lower end of a pair. -/
def isFirst (v : Nat) : Bool := (mate v).any fun w => decide (v < w ∧ w < n)

def isSecond (v : Nat) : Bool := (mate v).any fun w => decide (w < v)

def isOuter (v : Nat) : Bool := (mate v).any fun w => decide (n ≤ w)

/-- Both ends of the pair that starts at a vertex. -/
def ends (v : Nat) : List Nat := [v, (mate v).getD 0]

def pairEnds (vertices : List Nat) : List Nat :=
  (vertices.filter (isFirst n mate)).flatMap (ends mate)

def singles (vertices : List Nat) : List Nat := vertices.filter (isSingle mate)

def outers (vertices : List Nat) : List Nat := vertices.filter (isOuter n mate)

variable {n mate}

theorem pairEnds_first {v : Nat} (first : isFirst n mate v = true) (vertices : List Nat) :
    pairEnds n mate (v :: vertices) = ends mate v ++ pairEnds n mate vertices := by
  unfold pairEnds
  rw [List.filter_cons_of_pos first, List.flatMap_cons]

theorem pairEnds_other {v : Nat} (other : isFirst n mate v = false) (vertices : List Nat) :
    pairEnds n mate (v :: vertices) = pairEnds n mate vertices := by
  unfold pairEnds
  rw [List.filter_cons_of_neg (by simp [other])]

theorem singles_single {v : Nat} (alone : mate v = none) (vertices : List Nat) :
    singles mate (v :: vertices) = v :: singles mate vertices :=
  List.filter_cons_of_pos (by simp [isSingle, alone])

theorem singles_other {v w : Nat} (matched : mate v = some w) (vertices : List Nat) :
    singles mate (v :: vertices) = singles mate vertices :=
  List.filter_cons_of_neg (by simp [isSingle, matched])

theorem outers_outer {v : Nat} (outer : isOuter n mate v = true) (vertices : List Nat) :
    outers n mate (v :: vertices) = v :: outers n mate vertices :=
  List.filter_cons_of_pos outer

theorem outers_other {v : Nat} (inner : isOuter n mate v = false) (vertices : List Nat) :
    outers n mate (v :: vertices) = outers n mate vertices :=
  List.filter_cons_of_neg (by simp [inner])

end Kinds

section Partition

variable {n : Nat} {mate : Nat → Option Nat} (symmetric : Symmetric mate)

theorem isFirst_iff {v : Nat} : isFirst n mate v = true ↔ ∃ w, mate v = some w ∧ v < w ∧ w < n := by
  cases found : mate v with
  | none => simp [isFirst, found]
  | some w => simp [isFirst, found]

theorem isOuter_iff {v : Nat} : isOuter n mate v = true ↔ ∃ w, mate v = some w ∧ n ≤ w := by
  cases found : mate v with
  | none => simp [isOuter, found]
  | some w => simp [isOuter, found]

theorem isSecond_iff {v : Nat} : isSecond mate v = true ↔ ∃ w, mate v = some w ∧ w < v := by
  cases found : mate v with
  | none => simp [isSecond, found]
  | some w => simp [isSecond, found]

include symmetric

/-- The upper ends of the pairs are the mates of the lower ones. -/
theorem seconds_perm :
    (((List.range n).filter (isFirst n mate)).map fun v => (mate v).getD 0).Perm
      ((List.range n).filter (isSecond mate)) := by
  have once : ((List.range n).filter (isFirst n mate)).Nodup := List.nodup_range.filter _
  have apart : (((List.range n).filter (isFirst n mate)).map fun v => (mate v).getD 0).Nodup := by
    apply List.Nodup.map_on _ once
    intro v here w there same
    obtain ⟨v', mateV, _⟩ := isFirst_iff.mp (List.mem_filter.mp here).2
    obtain ⟨w', mateW, _⟩ := isFirst_iff.mp (List.mem_filter.mp there).2
    rw [mateV, mateW] at same
    change v' = w' at same
    have backV := symmetric.back v v' mateV
    rw [same, symmetric.back w w' mateW] at backV
    exact (Option.some.inj backV).symm
  rw [List.perm_ext_iff_of_nodup apart (List.nodup_range.filter _)]
  intro w
  simp only [List.mem_map, List.mem_filter, List.mem_range]
  constructor
  · rintro ⟨v, ⟨_, first⟩, same⟩
    obtain ⟨w', mateV, below, inside⟩ := isFirst_iff.mp first
    rw [mateV] at same
    change w' = w at same
    subst same
    exact ⟨inside, isSecond_iff.mpr ⟨v, symmetric.back v w' mateV, below⟩⟩
  · rintro ⟨inside, second⟩
    obtain ⟨v, mateW, below⟩ := isSecond_iff.mp second
    have mateV := symmetric.back w v mateW
    refine ⟨v, ⟨by omega, isFirst_iff.mpr ⟨w, mateV, below, inside⟩⟩, ?_⟩
    rw [mateV]
    rfl

/-- Every vertex has one of the four kinds. -/
theorem kinds_perm (vertices : List Nat) (below : ∀ v ∈ vertices, v < n) :
    (vertices.filter (isFirst n mate) ++ vertices.filter (isSecond mate) ++
      (singles mate vertices ++ outers n mate vertices)).Perm vertices := by
  induction vertices with
  | nil => exact .nil
  | cons v vertices ih =>
      have rest := ih fun w listed => below w (List.mem_cons_of_mem v listed)
      have here := below v List.mem_cons_self
      have grown : (v :: (vertices.filter (isFirst n mate) ++ vertices.filter (isSecond mate) ++
          (singles mate vertices ++ outers n mate vertices))).Perm (v :: vertices) := rest.cons v
      refine List.Perm.trans ?_ grown
      unfold singles outers
      cases found : mate v with
      | none =>
          have first : isFirst n mate v = false := by simp [isFirst, found]
          have second : isSecond mate v = false := by simp [isSecond, found]
          have single : isSingle mate v = true := by simp [isSingle, found]
          have outer : isOuter n mate v = false := by simp [isOuter, found]
          simp only [List.filter_cons, first, second, single, outer, if_true, Bool.false_eq_true,
            if_false, List.cons_append]
          exact List.perm_middle
      | some w =>
          have other := symmetric.apart v w found
          have single : isSingle mate v = false := by simp [isSingle, found]
          by_cases lower : w < v
          · have first : isFirst n mate v = false := by
              simp only [isFirst, found, Option.any_some, decide_eq_false_iff_not]
              omega
            have second : isSecond mate v = true := by simp [isSecond, found, lower]
            have outer : isOuter n mate v = false := by
              simp only [isOuter, found, Option.any_some, decide_eq_false_iff_not]
              omega
            simp only [List.filter_cons, first, second, single, outer, if_true, Bool.false_eq_true,
              if_false, List.append_assoc, List.cons_append]
            exact List.perm_middle
          · have second : isSecond mate v = false := by
              simp only [isSecond, found, Option.any_some, decide_eq_false_iff_not]
              omega
            by_cases inside : w < n
            · have first : isFirst n mate v = true := isFirst_iff.mpr ⟨w, found, by omega, inside⟩
              have outer : isOuter n mate v = false := by
                simp only [isOuter, found, Option.any_some, decide_eq_false_iff_not]
                omega
              simp only [List.filter_cons, first, second, single, outer, if_true,
                Bool.false_eq_true, if_false, List.cons_append]
              exact .refl _
            · have first : isFirst n mate v = false := by
                simp only [isFirst, found, Option.any_some, decide_eq_false_iff_not]
                omega
              have outer : isOuter n mate v = true := by
                simp only [isOuter, found, Option.any_some, decide_eq_true_eq]
                omega
              simp only [List.filter_cons, first, second, single, outer, if_true,
                Bool.false_eq_true, if_false, ← List.append_assoc]
              exact List.perm_middle

/-- Everyone below `n` is listed once. -/
theorem pairEnds_perm :
    (pairEnds n mate (List.range n) ++
      (singles mate (List.range n) ++ outers n mate (List.range n))).Perm (List.range n) := by
  have split : (pairEnds n mate (List.range n)).Perm
      ((List.range n).filter (isFirst n mate) ++ (List.range n).filter (isSecond mate)) := by
    unfold pairEnds
    have apart := List.flatMap_append_perm ((List.range n).filter (isFirst n mate))
      (fun v => [v]) (fun v => [(mate v).getD 0])
    refine apart.symm.trans ?_
    rw [List.flatMap_singleton', ← List.map_eq_flatMap]
    exact (seconds_perm symmetric).append_left _
  exact (split.append_right _).trans
    (kinds_perm symmetric (List.range n) fun v listed => List.mem_range.mp listed)

/-- At most one vertex has a given outer vertex as its mate. -/
theorem outers_length {vertices : List Nat} (once : vertices.Nodup)
    (only : ∀ v ∈ vertices, ∀ w, mate v = some w → w ≤ n) :
    (outers n mate vertices).length ≤ 1 := by
  have same : ∀ v ∈ outers n mate vertices, mate n = some v := by
    intro v listed
    obtain ⟨here, outer⟩ := List.mem_filter.mp listed
    obtain ⟨w, found, beyond⟩ := isOuter_iff.mp outer
    have bound := only v here w found
    rw [show n = w by omega]
    exact symmetric.back v w found
  have nodup : (outers n mate vertices).Nodup := once.filter _
  match listed : outers n mate vertices with
  | [] => exact Nat.zero_le 1
  | [_] => exact Nat.le_refl 1
  | v :: w :: rest =>
      rw [listed] at same nodup
      have one := same v List.mem_cons_self
      have two := same w (List.mem_cons_of_mem v List.mem_cons_self)
      rw [one] at two
      have apart := (List.nodup_cons.mp nodup).1
      rw [Option.some.inj two] at apart
      exact absurd List.mem_cons_self apart

end Partition

end Farzin.MateLists
