import Farzin.Blossom
import Mathlib.Data.Nat.Bitwise

set_option autoImplicit false

/- The mates of a result are the ends of listed edges, whatever else the algorithm does: every
value it stores as a mate is the far end of an edge at the vertex it is stored for. -/
namespace Farzin.Blossom

open Checked

/-- The failures of the algorithm are plain errors. -/
def Internal : PairingError → Prop
  | .internal _ => True
  | _ => False

@[simp] theorem internal_missing (what : String) : Internal (missing what) := trivial

@[simp] theorem internal_message (message : String) : Internal (.internal message) := trivial

@[simp] theorem internal_tooDeep : Internal tooDeep := trivial

section Ends

theorem flip_eq (p : Nat) : p ^^^ 1 = if p % 2 = 0 then p + 1 else p - 1 := by
  split
  · rename_i even
    exact Nat.xor_one_of_even (Nat.even_iff.mpr even)
  · rename_i odd
    exact Nat.xor_one_of_odd (Nat.odd_iff.mpr (by omega))

@[simp] theorem flip_flip (p : Nat) : p ^^^ 1 ^^^ 1 = p := by
  simp only [Nat.xor_assoc, Nat.xor_self, Nat.xor_zero]

@[simp] theorem flip_half (p : Nat) : (p ^^^ 1) / 2 = p / 2 := by
  rw [flip_eq]
  split <;> omega

variable {g : Graph}

/-- The two ends of an edge, in either order. -/
theorem endpoint_cases (p : Nat) :
    g.endpoint p = g.edgeU (p / 2) ∧ g.endpoint (p ^^^ 1) = g.edgeV (p / 2) ∨
      g.endpoint p = g.edgeV (p / 2) ∧ g.endpoint (p ^^^ 1) = g.edgeU (p / 2) := by
  have half := flip_half p
  unfold Graph.endpoint
  rw [half, flip_eq]
  by_cases even : p % 2 = 0
  · left
    rw [if_pos even, if_pos even]
    exact ⟨rfl, if_neg (by omega)⟩
  · right
    rw [if_neg even, if_neg even]
    exact ⟨rfl, if_pos (by omega)⟩

end Ends

section Reads

variable (g : Graph) (st : State)

@[simp] theorem getEndpoint_fails (p : Nat) : Fails Internal (g.getEndpoint p) := by
  simp [Graph.getEndpoint]

@[simp] theorem getEdgeU_fails (k : Nat) : Fails Internal (g.getEdgeU k) := by
  simp [Graph.getEdgeU]

@[simp] theorem getEdgeV_fails (k : Nat) : Fails Internal (g.getEdgeV k) := by
  simp [Graph.getEdgeV]

@[simp] theorem slack_fails (k : Nat) : Fails Internal (slack g st k) := by simp [slack]

@[simp] theorem getInblossom_fails (v : Nat) : Fails Internal (getInblossom g st v) := by
  simp [getInblossom]

@[simp] theorem getLabel_fails (b : Nat) : Fails Internal (getLabel g st b) := by
  simp [getLabel]

@[simp] theorem getLabelend_fails (b : Nat) : Fails Internal (getLabelend g st b) := by
  simp [getLabelend]

@[simp] theorem getBase_fails (b : Nat) : Fails Internal (getBase g st b) := by simp [getBase]

@[simp] theorem getChilds_fails (b : Nat) : Fails Internal (getChilds g st b) := by
  simp [getChilds]

@[simp] theorem getEndps_fails (b : Nat) : Fails Internal (getEndps g st b) := by
  simp [getEndps]

@[simp] theorem endpointOf_fails (e : Option Nat) : Fails Internal (endpointOf g e) := by
  simp [endpointOf]

@[simp] theorem blossomLeaves_fails (fuel b : Nat) :
    Fails Internal (blossomLeaves g st fuel b) := by
  induction fuel generalizing b with
  | zero => exact .error trivial
  | succ fuel ih => simp [blossomLeaves, ih]

@[simp] theorem stepBack_fails (b : Nat) : Fails Internal (stepBack g st b) := by
  unfold stepBack
  apply Yields.after (by simp)
  intro p
  cases p with
  | none => exact .ok trivial
  | some p => simp

@[simp] theorem isBetter_fails (k : Nat) (best : Option Nat) :
    Fails Internal (isBetter g st k best) := by
  cases best with
  | none => exact .ok trivial
  | some best => simp [isBetter]

@[simp] theorem considerEdge_fails (b : Nat) (bestedgeto : Nat → Option Nat) (k : Nat) :
    Fails Internal (considerEdge g b st bestedgeto k) := by simp [considerEdge]

@[simp] theorem offeredEdges_fails (child : Nat) : Fails Internal (offeredEdges g st child) := by
  unfold offeredEdges
  apply Yields.after (by simp)
  intro own
  cases own with
  | none => simp
  | some list => exact .ok trivial

@[simp] theorem selectBest_fails (best : Option Nat) (k : Nat) :
    Fails Internal (selectBest g st best k) := by simp [selectBest]

@[simp] theorem childAt_fails (childs : List Nat) (j : Int) :
    Fails Internal (childAt childs j) := by simp [childAt]

@[simp] theorem endpAt_fails (endps : List Nat) (length : Nat) (j : Int) :
    Fails Internal (endpAt endps length j) := by simp [endpAt]

@[simp] theorem findReachable_fails (leaves : List Nat) :
    Fails Internal (findReachable g st leaves) := by
  induction leaves with
  | nil => exact .ok trivial
  | cons leaf leaves ih => simp [findReachable, ih]

@[simp] theorem childAbove_fails (b fuel t : Nat) : Fails Internal (childAbove g st b fuel t) := by
  induction fuel generalizing t with
  | zero => exact .error trivial
  | succ fuel ih => simp [childAbove, ih]

@[simp] theorem deltaToFree_fails (delta : Delta) (v : Nat) :
    Fails Internal (deltaToFree g st delta v) := by
  unfold deltaToFree
  apply Yields.after (by simp)
  intro b
  apply Yields.after (by simp)
  intro label
  apply Yields.after (by simp)
  intro best
  split
  · simp
  · exact .ok trivial

@[simp] theorem deltaToS_fails (delta : Delta) (b : Nat) :
    Fails Internal (deltaToS g st delta b) := by
  unfold deltaToS
  apply Yields.after (by simp)
  intro parent
  apply Yields.after (by simp)
  intro label
  apply Yields.after (by simp)
  intro best
  split
  · simp
  · exact .ok trivial

@[simp] theorem deltaExpand_fails (delta : Delta) (b : Nat) :
    Fails Internal (deltaExpand g st delta b) := by simp [deltaExpand]

@[simp] theorem findDelta_fails : Fails Internal (findDelta g st) := by
  simp [findDelta, leastDual]

@[simp] theorem readMate_fails (v : Nat) : Fails Internal (readMate g st v) := by
  unfold readMate
  apply Yields.after (by simp)
  intro m
  cases m with
  | none => exact .ok trivial
  | some p => simp

@[simp] theorem assertSymmetric_fails (result : List (Option Nat)) (v : Nat) :
    Fails Internal (assertSymmetric result v) := by
  unfold assertSymmetric
  apply Yields.after (by simp)
  intro m
  cases m with
  | none => exact .ok trivial
  | some m => simp

@[simp] theorem validateEdge_fails (nvertex : Nat) (e : WeightedEdge) :
    Fails Internal (validateEdge nvertex e) := by simp [validateEdge]

end Reads

/-- The mate of a vertex is the far end of an edge that has the vertex as its near end. -/
def Listed (g : Graph) (st : State) : Prop :=
  ∀ v p, st.mate v = some p → g.endpoint (p ^^^ 1) = v

section Writes

variable {g : Graph} {st : State} (listed : Listed g st)

include listed

theorem putLabel_listed (b : Nat) (label : Label) :
    Yields Internal (Listed g) (putLabel g st b label) := by
  apply Yields.after (by simp)
  intro cells
  exact .ok listed

theorem putLabelend_listed (b : Nat) (p : Option Nat) :
    Yields Internal (Listed g) (putLabelend g st b p) := by
  apply Yields.after (by simp)
  intro cells
  exact .ok listed

theorem putInblossom_listed (v b : Nat) : Yields Internal (Listed g) (putInblossom g st v b) := by
  apply Yields.after (by simp)
  intro cells
  exact .ok listed

theorem putParent_listed (b : Nat) (parent : Option Nat) :
    Yields Internal (Listed g) (putParent g st b parent) := by
  apply Yields.after (by simp)
  intro cells
  exact .ok listed

theorem putBestedge_listed (b : Nat) (k : Option Nat) :
    Yields Internal (Listed g) (putBestedge g st b k) := by
  apply Yields.after (by simp)
  intro cells
  exact .ok listed

theorem putBestedges_listed (b : Nat) (list : Option (List Nat)) :
    Yields Internal (Listed g) (putBestedges g st b list) := by
  apply Yields.after (by simp)
  intro cells
  exact .ok listed

theorem putChilds_listed (b : Nat) (childs endps : Option (List Nat)) :
    Yields Internal (Listed g) (putChilds g st b childs endps) := by
  apply Yields.after (by simp)
  intro cells
  apply Yields.after (by simp)
  intro cells
  exact .ok listed

theorem putBase_listed (b : Nat) (base : Option Nat) :
    Yields Internal (Listed g) (putBase g st b base) := by
  apply Yields.after (by simp)
  intro cells
  exact .ok listed

theorem allow_listed (k : Nat) : Yields Internal (Listed g) (allow g st k) := by
  apply Yields.after (by simp)
  intro cells
  exact .ok listed

/-- The only write of a mate. -/
theorem putMate_listed {v p : Nat} (near : g.endpoint (p ^^^ 1) = v) :
    Yields Internal (Listed g) (putMate g st v p) where
  failure := (show Fails Internal (putMate g st v p) by simp [putMate]).failure
  result after written := by
    obtain ⟨cells, put, rest⟩ := bind_ok written
    obtain ⟨_, here⟩ := put_inv put
    cases rest
    subst here
    intro w q mate
    change update st.mate v (some p) w = some q at mate
    rw [update_apply] at mate
    by_cases same : w = v
    · rw [if_pos same] at mate
      cases mate
      rw [same]
      exact near
    · rw [if_neg same] at mate
      exact listed w q mate

end Writes

section Labels

variable {g : Graph} {st : State} (listed : Listed g st)

include listed

theorem markLabel_listed (w b : Nat) (label : Label) (p : Option Nat) :
    Yields Internal (Listed g) (markLabel g st w b label p) := by
  unfold markLabel
  apply (putLabel_listed listed w label).bind
  intro st listed
  apply (putLabel_listed listed b label).bind
  intro st listed
  apply (putLabelend_listed listed w p).bind
  intro st listed
  apply (putLabelend_listed listed b p).bind
  intro st listed
  apply (putBestedge_listed listed w none).bind
  intro st listed
  exact putBestedge_listed listed b none

theorem assignLabelS_listed (w : Nat) (p : Option Nat) :
    Yields Internal (Listed g) (assignLabelS g st w p) := by
  unfold assignLabelS
  apply Yields.after (by simp)
  intro b
  apply (markLabel_listed listed w b .s p).bind
  intro st listed
  apply Yields.after (by simp)
  intro leaves
  exact .ok listed

theorem assignLabelT_listed (w : Nat) (p : Option Nat) :
    Yields Internal (Listed g) (assignLabelT g st w p) := by
  unfold assignLabelT
  apply Yields.after (by simp)
  intro b
  apply (markLabel_listed listed w b .t p).bind
  intro st listed
  apply Yields.after (by simp)
  intro base
  apply Yields.after (by simp)
  intro base
  apply Yields.after (by simp)
  intro mate
  cases mate with
  | none => exact .error trivial
  | some m =>
      apply Yields.after (by simp)
      intro w
      exact assignLabelS_listed listed w (some (m ^^^ 1))

theorem scanPaths_listed (fuel : Nat) (v w : Option Nat) (path : List Nat) :
    Yields Internal (fun found => Listed g found.1) (scanPaths g fuel st v w path) := by
  induction fuel generalizing st v w path with
  | zero => exact .error trivial
  | succ fuel ih =>
      unfold scanPaths
      split
      · exact .ok listed
      · apply Yields.after (by simp)
        intro v
        apply Yields.after (by simp)
        intro b
        apply Yields.after (by simp)
        intro label
        split
        · apply Yields.after (by simp)
          intro base
          exact .ok listed
        · apply (putLabel_listed listed b .crumb).bind
          intro st listed
          apply Yields.after (by simp)
          intro next
          cases w with
          | none => exact ih listed next none _
          | some w => exact ih listed (some w) next _

theorem scanBlossom_listed (v w : Nat) :
    Yields Internal (fun found => Listed g found.1) (scanBlossom g st v w) := by
  unfold scanBlossom
  apply (scanPaths_listed listed g.limit (some v) (some w) []).bind
  intro ⟨st, path, base⟩ listed
  have unmarked : Yields Internal (Listed g) (path.foldlM (fun st b => putLabel g st b .s) st) := by
    apply Yields.foldlM path st listed
    intro st b _ listed
    exact putLabel_listed listed b .s
  apply unmarked.bind
  intro st listed
  exact .ok listed

end Labels

section Contraction

variable {g : Graph} {st : State} (listed : Listed g st)

include listed

theorem tracePath_listed (b bb trick fuel bv : Nat) :
    Yields Internal (fun found => Listed g found.1) (tracePath g b bb trick fuel st bv) := by
  induction fuel generalizing st bv with
  | zero => exact .error trivial
  | succ fuel ih =>
      unfold tracePath
      split
      · exact .ok listed
      · apply (putParent_listed listed bv (some b)).bind
        intro st listed
        apply Yields.after (by simp)
        intro p
        apply Yields.after (by simp)
        intro p
        apply Yields.after (by simp)
        intro v
        apply Yields.after (by simp)
        intro next
        apply (ih listed next).bind
        intro ⟨st, path, endps⟩ listed
        exact .ok listed

theorem absorbLeaf_listed (b leaf : Nat) : Yields Internal (Listed g) (absorbLeaf g b st leaf) := by
  unfold absorbLeaf
  apply Yields.after (by simp)
  intro bl
  apply Yields.after (by simp)
  intro label
  apply putInblossom_listed
  split
  · exact listed
  · exact listed

theorem buildBlossom_listed (base k b : Nat) :
    Yields Internal (fun built => Listed g built.1) (buildBlossom g st base k b) := by
  unfold buildBlossom
  apply Yields.after (by simp)
  intro v
  apply Yields.after (by simp)
  intro w
  apply Yields.after (by simp)
  intro bb
  apply Yields.after (by simp)
  intro bv
  apply Yields.after (by simp)
  intro bw
  apply (putBase_listed listed b (some base)).bind
  intro st listed
  apply (putParent_listed listed b none).bind
  intro st listed
  apply (putParent_listed listed bb (some b)).bind
  intro st listed
  apply (tracePath_listed listed b bb 0 g.limit bv).bind
  intro ⟨st, pathV, endpsV⟩ listed
  apply (tracePath_listed listed b bb 1 g.limit bw).bind
  intro ⟨st, pathW, endpsW⟩ listed
  apply (putChilds_listed listed b _ _).bind
  intro st listed
  apply (putLabel_listed listed b .s).bind
  intro st listed
  apply Yields.after (by simp)
  intro up
  apply (putLabelend_listed listed b up).bind
  intro st listed
  apply Yields.after (by simp)
  intro dualvar
  apply Yields.after (by simp)
  intro leaves
  have absorbed : Yields Internal (Listed g) (leaves.foldlM (absorbLeaf g b) { st with dualvar }) := by
    apply Yields.foldlM leaves
    · exact listed
    · intro st leaf _ listed
      exact absorbLeaf_listed listed b leaf
  apply absorbed.bind
  intro st listed
  exact .ok listed

theorem considerChild_listed (b : Nat) (bestedgeto : Nat → Option Nat) (child : Nat) :
    Yields Internal (fun found => Listed g found.1) (considerChild g b (st, bestedgeto) child) := by
  unfold considerChild
  apply Yields.after (by simp)
  intro list
  apply Yields.after (by simp)
  intro bestedgeto
  apply (putBestedges_listed listed child none).bind
  intro st listed
  apply (putBestedge_listed listed child none).bind
  intro st listed
  exact .ok listed

theorem collectBest_listed (b : Nat) (childs : List Nat) :
    Yields Internal (Listed g) (collectBest g st b childs) := by
  unfold collectBest
  have considered : Yields Internal (fun found => Listed g found.1)
      (childs.foldlM (considerChild g b) (st, fun _ => none)) := by
    apply Yields.foldlM childs
    · exact listed
    · intro ⟨st, bestedgeto⟩ child _ listed
      exact considerChild_listed listed b bestedgeto child
  apply considered.bind
  intro ⟨st, bestedgeto⟩ listed
  apply (putBestedges_listed listed b _).bind
  intro st listed
  apply Yields.after (by simp)
  intro best
  exact putBestedge_listed listed b best

theorem addBlossom_listed (base k : Nat) : Yields Internal (Listed g) (addBlossom g st base k) := by
  unfold addBlossom
  split
  · exact .error trivial
  · rename_i b unusedblossoms _
    have kept : Listed g { st with unusedblossoms } := listed
    apply (buildBlossom_listed kept base k b).bind
    intro ⟨st, childs⟩ listed
    exact collectBest_listed listed b childs

end Contraction

section Expansion

variable {g : Graph} {st : State} (listed : Listed g st)

include listed

theorem relabelToBase_listed (endps : List Nat) (length : Nat) (jstep : Int)
    (endptrick fuel : Nat) (j : Int) (p : Nat) :
    Yields Internal (fun found => Listed g found.1)
      (relabelToBase g endps length jstep endptrick fuel st j p) := by
  induction fuel generalizing st j p with
  | zero => exact .error trivial
  | succ fuel ih =>
      unfold relabelToBase
      split
      · exact .ok listed
      · apply Yields.after (by simp)
        intro entry
        apply (putLabel_listed listed entry .free).bind
        intro st listed
        apply Yields.after (by simp)
        intro ep
        apply Yields.after (by simp)
        intro onward
        apply (putLabel_listed listed onward .free).bind
        intro st listed
        apply (assignLabelT_listed listed entry (some p)).bind
        intro st listed
        apply (allow_listed listed (ep / 2)).bind
        intro st listed
        apply Yields.after (by simp)
        intro next
        apply (allow_listed listed ((next ^^^ endptrick) / 2)).bind
        intro st listed
        exact ih listed _ _

theorem relabelChild_listed (bv : Nat) : Yields Internal (Listed g) (relabelChild g st bv) := by
  unfold relabelChild
  apply Yields.after (by simp)
  intro label
  split
  · exact .ok listed
  · apply Yields.after (by simp)
    intro leaves
    apply Yields.after (by simp)
    intro reachable
    cases reachable with
    | none => exact .ok listed
    | some leaf =>
        apply Yields.after (by simp)
        intro label
        split
        · exact .error trivial
        · apply (putLabel_listed listed leaf .free).bind
          intro st listed
          apply Yields.after (by simp)
          intro base
          apply Yields.after (by simp)
          intro base
          apply Yields.after (by simp)
          intro mate
          apply Yields.after (by simp)
          intro w
          apply (putLabel_listed listed w .free).bind
          intro st listed
          apply Yields.after (by simp)
          intro p
          exact assignLabelT_listed listed leaf p

theorem relabelOthers_listed (childs : List Nat) (entrychild : Nat) (jstep : Int) (fuel : Nat)
    (j : Int) : Yields Internal (Listed g) (relabelOthers g childs entrychild jstep fuel st j) := by
  induction fuel generalizing st j with
  | zero => exact .error trivial
  | succ fuel ih =>
      unfold relabelOthers
      apply Yields.after (by simp)
      intro bv
      split
      · exact .ok listed
      · apply (relabelChild_listed listed bv).bind
        intro st listed
        exact ih listed _

theorem relabelExpanded_listed (b : Nat) (childs : List Nat) :
    Yields Internal (Listed g) (relabelExpanded g st b childs) := by
  unfold relabelExpanded
  apply Yields.after (by simp)
  intro p
  apply Yields.after (by simp)
  intro p
  apply Yields.after (by simp)
  intro entry
  apply Yields.after (by simp)
  intro entrychild
  apply Yields.after (by simp)
  intro endps
  apply (relabelToBase_listed listed endps childs.length _ _ g.limit _ p).bind
  intro ⟨st, p⟩ listed
  apply Yields.after (by simp)
  intro bv
  apply Yields.after (by simp)
  intro entry
  apply (putLabel_listed listed entry .t).bind
  intro st listed
  apply (putLabel_listed listed bv .t).bind
  intro st listed
  apply (putLabelend_listed listed entry (some p)).bind
  intro st listed
  apply (putLabelend_listed listed bv (some p)).bind
  intro st listed
  apply (putBestedge_listed listed bv none).bind
  intro st listed
  exact relabelOthers_listed listed childs entrychild _ g.limit _

theorem recycle_listed (b : Nat) : Yields Internal (Listed g) (recycle g st b) := by
  unfold recycle
  apply (putLabel_listed listed b .unused).bind
  intro st listed
  apply (putLabelend_listed listed b none).bind
  intro st listed
  apply (putChilds_listed listed b none none).bind
  intro st listed
  apply (putBase_listed listed b none).bind
  intro st listed
  apply (putBestedges_listed listed b none).bind
  intro st listed
  apply (putBestedge_listed listed b none).bind
  intro st listed
  exact .ok listed

theorem releaseChild_listed {recurse : State → Nat → Run State}
    (opened : ∀ st b, Listed g st → Yields Internal (Listed g) (recurse st b)) (endstage : Bool) (s : Nat) :
    Yields Internal (Listed g) (releaseChild g recurse endstage st s) := by
  unfold releaseChild
  apply (putParent_listed listed s none).bind
  intro st listed
  split
  · exact putInblossom_listed listed s s
  · apply Yields.after (by simp)
    intro dual
    split
    · exact opened st s listed
    · apply Yields.after (by simp)
      intro leaves
      apply Yields.foldlM leaves st listed
      intro st leaf _ listed
      exact putInblossom_listed listed leaf s

theorem expandBlossom_listed (endstage : Bool) (fuel b : Nat) :
    Yields Internal (Listed g) (expandBlossom g endstage fuel st b) := by
  induction fuel generalizing st b with
  | zero => exact .error trivial
  | succ fuel ih =>
      unfold expandBlossom
      apply Yields.after (by simp)
      intro childs
      have released : Yields Internal (Listed g)
          (childs.foldlM (releaseChild g (expandBlossom g endstage fuel) endstage) st) := by
        apply Yields.foldlM childs st listed
        intro st s _ listed
        exact releaseChild_listed listed (fun st b listed => ih listed b) endstage s
      apply released.bind
      intro st listed
      apply Yields.after (by simp)
      intro label
      split
      · apply (relabelExpanded_listed listed b childs).bind
        intro st listed
        exact recycle_listed listed b
      · exact recycle_listed listed b

end Expansion

section Augmentation

variable {g : Graph} {st : State} (listed : Listed g st)

theorem getEndpoint_yields (g : Graph) (p : Nat) :
    Yields Internal (fun v => g.endpoint p = v) (g.getEndpoint p) where
  failure := (getEndpoint_fails g p).failure
  result _ read := (get_inv read).2.symm

include listed

theorem augmentChild_listed {recurse : State → Nat → Nat → Run State}
    (augmented : ∀ st t v, Listed g st → Yields Internal (Listed g) (recurse st t v)) (t v : Nat) :
    Yields Internal (Listed g) (augmentChild g recurse st t v) := by
  unfold augmentChild
  split
  · exact augmented st t v listed
  · exact .ok listed

theorem matchToBase_listed {recurse : State → Nat → Nat → Run State}
    (augmented : ∀ st t v, Listed g st → Yields Internal (Listed g) (recurse st t v))
    (childs endps : List Nat) (jstep : Int) (endptrick fuel : Nat) (j : Int) :
    Yields Internal (Listed g) (matchToBase g recurse childs endps jstep endptrick fuel st j) := by
  induction fuel generalizing st j with
  | zero => exact .error trivial
  | succ fuel ih =>
      unfold matchToBase
      split
      · exact .ok listed
      · apply Yields.after (by simp)
        intro t
        apply Yields.after (by simp)
        intro p
        apply (getEndpoint_yields g (p ^^^ endptrick)).bind
        intro near atNear
        apply (augmentChild_listed listed augmented t near).bind
        intro st listed
        apply Yields.after (by simp)
        intro t
        apply (getEndpoint_yields g (p ^^^ endptrick ^^^ 1)).bind
        intro far atFar
        apply (augmentChild_listed listed augmented t far).bind
        intro st listed
        have here : g.endpoint (p ^^^ endptrick ^^^ 1 ^^^ 1) = near := by
          rw [flip_flip]
          exact atNear
        apply (putMate_listed listed here).bind
        intro st listed
        apply (putMate_listed listed atFar).bind
        intro st listed
        exact ih listed _

theorem rotateBlossom_listed (b v : Nat) (childs endps : List Nat) (i : Int) :
    Yields Internal (Listed g) (rotateBlossom g st b v childs endps i) := by
  unfold rotateBlossom
  apply (putChilds_listed listed b _ _).bind
  intro st listed
  apply Yields.after (by simp)
  intro first
  apply Yields.after (by simp)
  intro base
  apply (putBase_listed listed b base).bind
  intro st listed
  split
  · exact .error trivial
  · exact .ok listed

theorem augmentBlossom_listed (fuel b v : Nat) :
    Yields Internal (Listed g) (augmentBlossom g fuel st b v) := by
  induction fuel generalizing st b v with
  | zero => exact .error trivial
  | succ fuel ih =>
      have augmented : ∀ st t v, Listed g st → Yields Internal (Listed g) (augmentBlossom g fuel st t v) :=
        fun st t v listed => ih listed t v
      unfold augmentBlossom
      apply Yields.after (by simp)
      intro t
      apply (augmentChild_listed listed augmented t v).bind
      intro st listed
      apply Yields.after (by simp)
      intro childs
      apply Yields.after (by simp)
      intro endps
      apply (matchToBase_listed listed augmented childs endps _ _ g.limit _).bind
      intro st listed
      exact rotateBlossom_listed listed b v childs endps _

theorem augmentSide_listed (fuel : Nat) {s p : Nat} (near : g.endpoint (p ^^^ 1) = s) :
    Yields Internal (Listed g) (augmentSide g fuel st s p) := by
  have augmented : ∀ st t v, Listed g st → Yields Internal (Listed g) (augmentBlossom g g.limit st t v) :=
    fun st t v listed => augmentBlossom_listed listed g.limit t v
  induction fuel generalizing st s p with
  | zero => exact .error trivial
  | succ fuel ih =>
      unfold augmentSide
      apply Yields.after (by simp)
      intro bs
      apply Yields.after (by simp)
      intro label
      split
      · exact .error trivial
      · apply (augmentChild_listed listed augmented bs s).bind
        intro st listed
        apply (putMate_listed listed near).bind
        intro st listed
        apply Yields.after (by simp)
        intro up
        cases up with
        | none => exact .ok listed
        | some up =>
            apply Yields.after (by simp)
            intro t
            apply Yields.after (by simp)
            intro bt
            apply Yields.after (by simp)
            intro label
            split
            · exact .error trivial
            · apply Yields.after (by simp)
              intro q
              apply Yields.after (by simp)
              intro q
              apply (getEndpoint_yields g q).bind
              intro s atS
              apply (getEndpoint_yields g (q ^^^ 1)).bind
              intro j atJ
              apply (augmentChild_listed listed augmented bt j).bind
              intro st listed
              apply (putMate_listed listed atJ).bind
              intro st listed
              apply ih listed
              rw [flip_flip]
              exact atS

theorem augmentMatching_listed (k : Nat) : Yields Internal (Listed g) (augmentMatching g st k) := by
  have atU : Yields Internal (fun v => g.edgeU k = v) (g.getEdgeU k) :=
    ⟨fun _ read => (get_inv read).2.symm, (getEdgeU_fails g k).failure⟩
  have atV : Yields Internal (fun v => g.edgeV k = v) (g.getEdgeV k) :=
    ⟨fun _ read => (get_inv read).2.symm, (getEdgeV_fails g k).failure⟩
  have odd : (2 * k + 1) ^^^ 1 = 2 * k := by rw [flip_eq, if_neg (by omega), Nat.add_sub_cancel]
  have even : 2 * k ^^^ 1 = 2 * k + 1 := by rw [flip_eq, if_pos (by omega)]
  unfold augmentMatching
  apply atU.bind
  intro v atV'
  apply atV.bind
  intro w atW
  have nearV : g.endpoint ((2 * k + 1) ^^^ 1) = v := by
    rw [odd, Graph.endpoint, if_pos (by omega), Nat.mul_div_cancel_left k (by decide)]
    exact atV'
  have nearW : g.endpoint (2 * k ^^^ 1) = w := by
    rw [even, Graph.endpoint, if_neg (by omega), show (2 * k + 1) / 2 = k by omega]
    exact atW
  apply (augmentSide_listed listed g.limit nearV).bind
  intro st listed
  exact augmentSide_listed listed g.limit nearW

end Augmentation

section Search

variable {g : Graph} {st : State} (listed : Listed g st)

include listed

theorem useEdge_listed (v p : Nat) :
    Yields Internal (fun used => Listed g used.1) (useEdge g st v p) := by
  unfold useEdge
  apply Yields.after (by simp)
  intro w
  apply Yields.after (by simp)
  intro bw
  apply Yields.after (by simp)
  intro label
  split
  · apply (assignLabelT_listed listed w _).bind
    intro st listed
    exact .ok listed
  · apply (scanBlossom_listed listed v w).bind
    intro ⟨st, base⟩ listed
    cases base with
    | none =>
        apply (augmentMatching_listed listed (p / 2)).bind
        intro st listed
        exact .ok listed
    | some base =>
        apply (addBlossom_listed listed base (p / 2)).bind
        intro st listed
        exact .ok listed
  · apply Yields.after (by simp)
    intro label
    split
    · apply (putLabel_listed listed w .t).bind
      intro st listed
      apply (putLabelend_listed listed w _).bind
      intro st listed
      exact .ok listed
    · exact .ok listed

theorem keepBest_listed (b k : Nat) (kslack : Int) :
    Yields Internal (Listed g) (keepBest g st b k kslack) := by
  unfold keepBest
  apply Yields.after (by simp)
  intro best
  cases best with
  | none => exact putBestedge_listed listed b (some k)
  | some best =>
      apply Yields.after (by simp)
      intro known
      split
      · exact putBestedge_listed listed b (some k)
      · exact .ok listed

theorem rememberEdge_listed (v w k : Nat) (kslack : Int) :
    Yields Internal (Listed g) (rememberEdge g st v w k kslack) := by
  unfold rememberEdge
  apply Yields.after (by simp)
  intro bw
  apply Yields.after (by simp)
  intro label
  split
  · apply Yields.after (by simp)
    intro bv
    exact keepBest_listed listed bv k kslack
  · apply Yields.after (by simp)
    intro label
    split
    · exact keepBest_listed listed w k kslack
    · exact .ok listed

theorem scanEdge_listed (v p : Nat) :
    Yields Internal (fun scanned => Listed g scanned.1) (scanEdge g st v p) := by
  unfold scanEdge
  apply Yields.after (by simp)
  intro w
  apply Yields.after (by simp)
  intro bv
  apply Yields.after (by simp)
  intro bw
  split
  · exact .ok listed
  · apply Yields.after (by simp)
    intro allowed
    split
    · exact useEdge_listed listed v p
    · apply Yields.after (by simp)
      intro kslack
      split
      · apply (allow_listed listed (p / 2)).bind
        intro st listed
        exact useEdge_listed listed v p
      · apply (rememberEdge_listed listed v w (p / 2) kslack).bind
        intro st listed
        exact .ok listed

theorem scanNeighbours_listed (v : Nat) (ps : List Nat) :
    Yields Internal (fun scanned => Listed g scanned.1) (scanNeighbours g v ps st) := by
  induction ps generalizing st with
  | nil => exact .ok listed
  | cons p ps ih =>
      unfold scanNeighbours
      apply (scanEdge_listed listed v p).bind
      intro ⟨st, augmented⟩ listed
      cases augmented with
      | true => exact .ok listed
      | false => exact ih listed

theorem scanQueue_listed (fuel : Nat) :
    Yields Internal (fun scanned => Listed g scanned.1) (scanQueue g fuel st) := by
  induction fuel generalizing st with
  | zero => exact .error trivial
  | succ fuel ih =>
      unfold scanQueue
      split
      · exact .ok listed
      · rename_i v queue _
        have kept : Listed g { st with queue } := listed
        apply (scanNeighbours_listed kept v (g.neighbend v)).bind
        intro ⟨st, augmented⟩ listed
        cases augmented with
        | true => exact .ok listed
        | false => exact ih listed

theorem shiftDuals_listed (delta : Int) : Yields Internal (Listed g) (shiftDuals g st delta) := by
  unfold shiftDuals
  have vertices : Yields Internal (Listed g) ((List.range g.nvertex).foldlM (shiftVertex g delta) st) := by
    apply Yields.foldlM (List.range g.nvertex) st listed
    intro st v _ listed
    unfold shiftVertex
    apply Yields.after (by simp)
    intro b
    apply Yields.after (by simp)
    intro label
    apply Yields.after (by simp)
    intro dual
    apply Yields.after (by simp)
    intro dualvar
    exact .ok listed
  apply vertices.bind
  intro st listed
  apply Yields.foldlM _ st listed
  intro st b _ listed
  unfold shiftBlossom
  apply Yields.after (by simp)
  intro base
  apply Yields.after (by simp)
  intro parent
  apply Yields.after (by simp)
  intro label
  apply Yields.after (by simp)
  intro dual
  apply Yields.after (by simp)
  intro dualvar
  exact .ok listed

theorem followDelta_listed (kind : DeltaKind) : Yields Internal (Listed g) (followDelta g st kind) := by
  cases kind with
  | optimum => exact .ok listed
  | toFree k =>
      unfold followDelta
      apply (allow_listed listed k).bind
      intro st listed
      apply Yields.after (by simp)
      intro i
      apply Yields.after (by simp)
      intro b
      apply Yields.after (by simp)
      intro label
      apply Yields.after (by simp)
      intro j
      exact .ok listed
  | toS k =>
      unfold followDelta
      apply (allow_listed listed k).bind
      intro st listed
      apply Yields.after (by simp)
      intro i
      exact .ok listed
  | expand b => exact expandBlossom_listed listed false g.limit b

theorem searchPath_listed (fuel : Nat) :
    Yields Internal (fun found => Listed g found.1) (searchPath g fuel st) := by
  induction fuel generalizing st with
  | zero => exact .error trivial
  | succ fuel ih =>
      unfold searchPath
      apply (scanQueue_listed listed g.limit).bind
      intro ⟨st, augmented⟩ listed
      cases augmented with
      | true => exact .ok listed
      | false =>
          apply Yields.after (by simp)
          intro delta
          apply (shiftDuals_listed listed delta.amount).bind
          intro st listed
          split
          · exact .ok listed
          · apply (followDelta_listed listed delta.kind).bind
            intro st listed
            exact ih listed

theorem labelSingle_listed (v : Nat) : Yields Internal (Listed g) (labelSingle g st v) := by
  unfold labelSingle
  apply Yields.after (by simp)
  intro mate
  cases mate with
  | some _ => exact .ok listed
  | none =>
      apply Yields.after (by simp)
      intro b
      apply Yields.after (by simp)
      intro label
      split
      · exact assignLabelS_listed listed v none
      · exact .ok listed

theorem expandTight_listed (b : Nat) : Yields Internal (Listed g) (expandTight g st b) := by
  unfold expandTight
  apply Yields.after (by simp)
  intro parent
  apply Yields.after (by simp)
  intro base
  apply Yields.after (by simp)
  intro label
  apply Yields.after (by simp)
  intro dual
  split
  · exact expandBlossom_listed listed true g.limit b
  · exact .ok listed

theorem runStages_listed (stages : Nat) : Yields Internal (Listed g) (runStages g stages st) := by
  induction stages generalizing st with
  | zero => exact .ok listed
  | succ stages ih =>
      unfold runStages
      have labelled : Yields Internal (Listed g)
          ((List.range g.nvertex).foldlM (labelSingle g) (clearLabels g st)) := by
        apply Yields.foldlM (List.range g.nvertex)
        · exact listed
        · intro st v _ listed
          exact labelSingle_listed listed v
      apply labelled.bind
      intro st listed
      apply (searchPath_listed listed g.limit).bind
      intro ⟨st, augmented⟩ listed
      cases augmented with
      | false => exact .ok listed
      | true =>
          have expanded : Yields Internal (Listed g)
              ((List.range' g.nvertex g.nvertex).foldlM (expandTight g) st) := by
            apply Yields.foldlM _ st listed
            intro st b _ listed
            exact expandTight_listed listed b
          apply expanded.bind
          intro st listed
          exact ih listed

end Search

section Result

variable {g : Graph} {st : State}

/-- The vertices `v` and `w` are the ends of a listed edge. -/
def Adjacent (edges : List WeightedEdge) (v w : Nat) : Prop :=
  ∃ e ∈ edges, e.u = v ∧ e.v = w ∨ e.u = w ∧ e.v = v

theorem buildGraph_ends (vertexCount : Nat) {edges : List WeightedEdge} {k : Nat}
    (inside : k < edges.length) :
    Adjacent edges ((buildGraph vertexCount edges).edgeU k)
      ((buildGraph vertexCount edges).edgeV k) := by
  refine ⟨edges[k], List.getElem_mem inside, .inl ?_⟩
  simp [buildGraph, List.getElem?_eq_getElem inside]

theorem Adjacent.symm {edges : List WeightedEdge} {v w : Nat} (near : Adjacent edges v w) :
    Adjacent edges w v := by
  obtain ⟨e, listed, ends⟩ := near
  exact ⟨e, listed, ends.symm⟩

theorem endpoint_adjacent {vertexCount : Nat} {edges : List WeightedEdge} {p : Nat}
    (inside : p < 2 * edges.length) :
    Adjacent edges ((buildGraph vertexCount edges).endpoint (p ^^^ 1))
      ((buildGraph vertexCount edges).endpoint p) := by
  have inside : p / 2 < edges.length := by omega
  have ends := buildGraph_ends vertexCount inside
  rcases endpoint_cases (g := buildGraph vertexCount edges) p with ⟨one, two⟩ | ⟨one, two⟩
  · rw [one, two]
    exact ends.symm
  · rw [one, two]
    exact ends

theorem readMate_yields (g : Graph) (st : State) (v : Nat) :
    Yields Internal (fun mate => ∀ w, mate = some w →
      ∃ p < 2 * g.nedge, st.mate v = some p ∧ g.endpoint p = w) (readMate g st v) where
  failure := (readMate_fails g st v).failure
  result mate read := by
    obtain ⟨m, got, rest⟩ := bind_ok read
    have stored := (get_inv got).2
    intro w found
    cases m with
    | none =>
        cases rest
        cases found
    | some p =>
        obtain ⟨w', at_, same⟩ := bind_ok rest
        obtain ⟨inside, ends⟩ := get_inv at_
        cases same
        cases found
        exact ⟨p, inside, stored.symm, ends.symm⟩

theorem assertSymmetric_inv {result : List (Option Nat)} {v w : Nat}
    (passed : assertSymmetric result v = .ok ()) (mate : result[v]? = some (some w)) :
    result[w]? = some (some v) := by
  unfold assertSymmetric at passed
  rw [mate, need_some, ok_bind] at passed
  obtain ⟨back, found, rest⟩ := bind_ok passed
  rw [need_inv found]
  by_cases same : back = some v
  · rw [same]
  · rw [if_neg same] at rest
    cases rest

/-- A symmetric list of mates, each of them over a listed edge. -/
structure ListedMates (vertexCount : Nat) (edges : List WeightedEdge)
    (mates : List (Option Nat)) : Prop where
  length : mates.length = vertexCount
  symmetric : ∀ v w : Nat, mates[v]? = some (some w) → mates[w]? = some (some v)
  adjacent : ∀ v w : Nat, mates[v]? = some (some w) → Adjacent edges v w

/-- Whatever the algorithm returns is a symmetric matching of listed edges. -/
theorem maximumWeightMatching_listed (vertexCount : Nat) (edges : List WeightedEdge) :
    Yields Internal (ListedMates vertexCount edges) (maximumWeightMatching vertexCount edges) := by
  unfold maximumWeightMatching
  split
  · rename_i none
    exact .ok ⟨none.symm, fun v w mate => by simp at mate, fun v w mate => by simp at mate⟩
  have validated := Yields.forM edges fun e _ => validateEdge_fails vertexCount e
  apply validated.after
  intro _
  split
  · have bare : ∀ v w : Nat, (List.replicate vertexCount none)[v]? ≠ some (some w) := by
      intro v w mate
      have := List.eq_of_mem_replicate (List.mem_of_getElem? mate)
      cases this
    exact .ok ⟨List.length_replicate, fun v w mate => absurd mate (bare v w),
      fun v w mate => absurd mate (bare v w)⟩
  dsimp only
  have unmatched : Listed (buildGraph vertexCount edges)
      (initialState (buildGraph vertexCount edges) (maxWeight edges)) := by
    intro v p mate
    cases mate
  apply (runStages_listed unmatched _).bind
  intro st listed
  have read := Yields.mapM (List.range vertexCount)
    fun v _ => readMate_yields (buildGraph vertexCount edges) st v
  apply read.bind
  intro mates each
  have length : mates.length = vertexCount := by rw [← each.length_eq, List.length_range]
  have checked : Yields Internal (fun _ => ∀ v ∈ List.range vertexCount,
      assertSymmetric mates v = .ok ()) ((List.range vertexCount).forM (assertSymmetric mates)) :=
    ⟨fun _ ran v here => forM_each ran here,
      (Yields.forM (List.range vertexCount) fun v _ => assertSymmetric_fails mates v).failure⟩
  apply checked.bind
  intro _ symmetric
  apply Yields.ok
  have inside : ∀ v w : Nat, mates[v]? = some (some w) → v < vertexCount := by
    intro v w mate
    have := (List.getElem?_eq_some_iff.mp mate).1
    omega
  refine ⟨length, fun v w mate => ?_, fun v w mate => ?_⟩
  · exact assertSymmetric_inv (symmetric v (List.mem_range.mpr (inside v w mate))) mate
  · obtain ⟨bound, here⟩ := List.getElem?_eq_some_iff.mp mate
    have found := each.get (by simpa using inside v w mate) bound
    rw [List.get_eq_getElem, List.get_eq_getElem, List.getElem_range, here] at found
    obtain ⟨p, edge, stored, far⟩ := found w rfl
    rw [← far, ← listed v p stored]
    exact endpoint_adjacent edge

theorem validateEdge_ok {nvertex : Nat} {e : WeightedEdge}
    (valid : validateEdge nvertex e = .ok ()) : e.u ≠ e.v := by
  intro same
  rw [validateEdge, if_pos (.inr (.inr same))] at valid
  cases valid

/-- Edges that come back with a result have been checked. -/
theorem maximumWeightMatching_valid {vertexCount : Nat} {edges : List WeightedEdge}
    {mates : List (Option Nat)} (some : vertexCount ≠ 0)
    (matched : maximumWeightMatching vertexCount edges = .ok mates) : ∀ e ∈ edges, e.u ≠ e.v := by
  rw [maximumWeightMatching, if_neg some] at matched
  obtain ⟨_, checked, -⟩ := bind_ok matched
  exact fun e listed => validateEdge_ok (forM_each checked listed)

/-- Whatever edges are listed and however the search runs: a result has an entry for every vertex,
and matches two vertices only with each other and only over a listed edge between them; anything
else is an internal error. -/
theorem mates_are_matching (vertexCount : Nat) (edges : List WeightedEdge) :
    (∀ mates, maximumWeightMatching vertexCount edges = .ok mates →
      mates.length = vertexCount ∧ ∀ v w : Nat, mates[v]? = some (some w) →
        v ≠ w ∧ mates[w]? = some (some v) ∧ Adjacent edges v w) ∧
      ∀ e, maximumWeightMatching vertexCount edges = .error e → Internal e := by
  have yields := maximumWeightMatching_listed vertexCount edges
  refine ⟨fun mates matched => ?_, yields.failure⟩
  have listed := yields.result mates matched
  refine ⟨listed.length, fun v w mate => ⟨?_, listed.symmetric v w mate, listed.adjacent v w mate⟩⟩
  have filled : vertexCount ≠ 0 := by
    have inside := (List.getElem?_eq_some_iff.mp mate).1
    have length := listed.length
    omega
  obtain ⟨e, here, ends⟩ := listed.adjacent v w mate
  have apart := maximumWeightMatching_valid filled matched e here
  rintro rfl
  rcases ends with ⟨one, two⟩ | ⟨one, two⟩
  · exact apart (one.trans two.symm)
  · exact apart (one.trans two.symm)

/-- The outer edges of a path weigh more than the one in the middle. -/
example : maximumWeightMatching 4 [⟨0, 1, 6⟩, ⟨1, 2, 10⟩, ⟨2, 3, 6⟩] =
    .ok [some 1, some 0, some 3, some 2] := by
  decide +kernel

end Result

end Farzin.Blossom
