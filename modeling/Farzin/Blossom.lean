import Farzin.Checked
import Farzin.PairingTypes

set_option autoImplicit false

/- Maximum weight matching in a general graph (`core/pairing/swiss/blossom.ts`). Numbers from
0 to `nvertex` - 1 are vertices, the following `nvertex` ones are blossoms, and -1 is `none`.
The source's variables are the fields of a state. Every read and write checks its bounds; in
the source a read past the end fails in `req` and a write past the end grows the array. A loop
or recursion of the source that has no bound of its own is cut off after `limit` turns. -/
namespace Farzin.Blossom

open Checked

abbrev Run : Type → Type := Except PairingError

structure WeightedEdge where
  u : Nat
  v : Nat
  weight : Int
  deriving DecidableEq, Repr

/-- The values 0, 1, 2, 5 and -1 of `label`. -/
inductive Label where
  | free
  | s
  | t
  | crumb
  | unused
  deriving DecidableEq, Repr

/-- `label & 4`. -/
def Label.hasCrumb : Label → Bool
  | .crumb | .unused => true
  | _ => false

def missing (what : String) : PairingError :=
  .internal s!"blossom ichki xato: {what} aniqlanmadi"

def tooDeep : PairingError := .internal "Maximum call stack size exceeded"

/-- The graph, with doubled weights. -/
structure Graph where
  nvertex : Nat
  nedge : Nat
  edgeU : Nat → Nat
  edgeV : Nat → Nat
  edgeW : Nat → Int

structure State where
  mate : Nat → Option Nat
  label : Nat → Label
  labelend : Nat → Option Nat
  inblossom : Nat → Nat
  blossomparent : Nat → Option Nat
  blossomchilds : Nat → Option (List Nat)
  blossombase : Nat → Option Nat
  blossomendps : Nat → Option (List Nat)
  bestedge : Nat → Option Nat
  blossombestedges : Nat → Option (List Nat)
  /-- Kept with its end first, as the queue is. -/
  unusedblossoms : List Nat
  dualvar : Nat → Int
  allowedge : Nat → Bool
  queue : List Nat

namespace Graph

variable (g : Graph)

def limit : Nat := 4 * g.nvertex + 4

/-- `endpoint[p]`: the two ends of edge k are 2k and 2k + 1. -/
def endpoint (p : Nat) : Nat := if p % 2 = 0 then g.edgeU (p / 2) else g.edgeV (p / 2)

/-- `neighbend[v]`: the far ends of the edges at a vertex. -/
def neighbend (v : Nat) : List Nat :=
  (List.range g.nedge).flatMap fun k =>
    (if g.edgeU k = v then [2 * k + 1] else []) ++ if g.edgeV k = v then [2 * k] else []

def getEndpoint (p : Nat) : Run Nat := get (missing "endpoint") (2 * g.nedge) g.endpoint p

def getEdgeU (k : Nat) : Run Nat := get (missing "edgeU") g.nedge g.edgeU k

def getEdgeV (k : Nat) : Run Nat := get (missing "edgeV") g.nedge g.edgeV k

end Graph

section Algorithm

variable (g : Graph)

/-- The slack of an edge between different blossoms of the top level. -/
def slack (st : State) (k : Nat) : Run Int := do
  let u ← g.getEdgeU k
  let v ← g.getEdgeV k
  let dualU ← get (missing "dual-u") (2 * g.nvertex) st.dualvar u
  let dualV ← get (missing "dual-v") (2 * g.nvertex) st.dualvar v
  let w ← get (missing "edgeW") g.nedge g.edgeW k
  return dualU + dualV - 2 * w

def getInblossom (st : State) (v : Nat) : Run Nat :=
  get (missing "inblossom") g.nvertex st.inblossom v

def getLabel (st : State) (b : Nat) : Run Label :=
  get (missing "label") (2 * g.nvertex) st.label b

def getLabelend (st : State) (b : Nat) : Run (Option Nat) :=
  get (missing "labelend") (2 * g.nvertex) st.labelend b

def getBase (st : State) (b : Nat) : Run (Option Nat) :=
  get (missing "blossombase") (2 * g.nvertex) st.blossombase b

def getChilds (st : State) (b : Nat) : Run (List Nat) := do
  let childs ← get (missing "blossomchilds") (2 * g.nvertex) st.blossomchilds b
  need (missing "blossomchilds") childs

def getEndps (st : State) (b : Nat) : Run (List Nat) := do
  let endps ← get (missing "blossomendps") (2 * g.nvertex) st.blossomendps b
  need (missing "blossomendps") endps

/-- `endpoint[e]` where `e` may be -1. -/
def endpointOf (e : Option Nat) : Run Nat := do
  let p ← need (missing "endpoint") e
  g.getEndpoint p

def putLabel (st : State) (b : Nat) (label : Label) : Run State := do
  let label ← put (missing "label") (2 * g.nvertex) st.label b label
  return { st with label }

def putLabelend (st : State) (b : Nat) (p : Option Nat) : Run State := do
  let labelend ← put (missing "labelend") (2 * g.nvertex) st.labelend b p
  return { st with labelend }

def putInblossom (st : State) (v b : Nat) : Run State := do
  let inblossom ← put (missing "inblossom") g.nvertex st.inblossom v b
  return { st with inblossom }

def putParent (st : State) (b : Nat) (parent : Option Nat) : Run State := do
  let blossomparent ← put (missing "blossomparent") (2 * g.nvertex) st.blossomparent b parent
  return { st with blossomparent }

def putBestedge (st : State) (b : Nat) (k : Option Nat) : Run State := do
  let bestedge ← put (missing "bestedge") (2 * g.nvertex) st.bestedge b k
  return { st with bestedge }

def putBestedges (st : State) (b : Nat) (list : Option (List Nat)) : Run State := do
  let blossombestedges ←
    put (missing "blossombestedges") (2 * g.nvertex) st.blossombestedges b list
  return { st with blossombestedges }

def putChilds (st : State) (b : Nat) (childs endps : Option (List Nat)) : Run State := do
  let blossomchilds ← put (missing "blossomchilds") (2 * g.nvertex) st.blossomchilds b childs
  let blossomendps ← put (missing "blossomendps") (2 * g.nvertex) st.blossomendps b endps
  return { st with blossomchilds, blossomendps }

def putBase (st : State) (b : Nat) (base : Option Nat) : Run State := do
  let blossombase ← put (missing "blossombase") (2 * g.nvertex) st.blossombase b base
  return { st with blossombase }

def putMate (st : State) (v : Nat) (p : Nat) : Run State := do
  let mate ← put (missing "mate") g.nvertex st.mate v (some p)
  return { st with mate }

def allow (st : State) (k : Nat) : Run State := do
  let allowedge ← put (missing "allowedge") g.nedge st.allowedge k true
  return { st with allowedge }

/-- The vertices of a blossom. -/
def blossomLeaves (st : State) : Nat → Nat → Run (List Nat)
  | 0, _ => .error tooDeep
  | fuel + 1, b =>
      if b < g.nvertex then .ok [b]
      else do
        let childs ← getChilds g st b
        let leaves ← childs.mapM (blossomLeaves st fuel)
        return leaves.flatten

/-- The common part of `assignLabel`. -/
def markLabel (st : State) (w b : Nat) (label : Label) (p : Option Nat) : Run State := do
  let st ← putLabel g st w label
  let st ← putLabel g st b label
  let st ← putLabelend g st w p
  let st ← putLabelend g st b p
  let st ← putBestedge g st w none
  putBestedge g st b none

/-- `assignLabel(w, 1, p)`. -/
def assignLabelS (st : State) (w : Nat) (p : Option Nat) : Run State := do
  let b ← getInblossom g st w
  let st ← markLabel g st w b .s p
  let leaves ← blossomLeaves g st g.limit b
  return { st with queue := leaves.reverse ++ st.queue }

/-- `assignLabel(w, 2, p)`, which labels the mate of the blossom's base as well. -/
def assignLabelT (st : State) (w : Nat) (p : Option Nat) : Run State := do
  let b ← getInblossom g st w
  let st ← markLabel g st w b .t p
  let base ← getBase g st b
  let base ← need (missing "mate[base]") base
  let mateBase ← get (missing "mate[base]") g.nvertex st.mate base
  match mateBase with
  | none => .error (.internal "blossom ichki xato: T-blossom asosining juftligi yo'q")
  | some m => do
      let w ← g.getEndpoint m
      assignLabelS g st w (some (m ^^^ 1))

/-- One step back along the tree: from an S-blossom over its T-blossom to the next vertex. -/
def stepBack (st : State) (b : Nat) : Run (Option Nat) := do
  let p ← getLabelend g st b
  match p with
  | none => return none
  | some p => do
      let t ← g.getEndpoint p
      let bt ← getInblossom g st t
      let q ← getLabelend g st bt
      let s ← endpointOf g q
      return some s

/-- The loop of `scanBlossom`: the marked blossoms and the common base, if there is one. -/
def scanPaths : Nat → State → Option Nat → Option Nat → List Nat →
    Run (State × List Nat × Option Nat)
  | 0, _, _, _, _ => .error tooDeep
  | fuel + 1, st, v, w, path =>
      if v = none ∧ w = none then return (st, path, none)
      else do
        let v ← need (missing "inblossom[v]") v
        let b ← getInblossom g st v
        let label ← getLabel g st b
        if label.hasCrumb then do
          let base ← getBase g st b
          return (st, path, base)
        else do
          let st ← putLabel g st b .crumb
          let next ← stepBack g st b
          match w with
          | some w => scanPaths fuel st (some w) next (path ++ [b])
          | none => scanPaths fuel st next none (path ++ [b])

/-- The base of the blossom that the edge from `v` to `w` closes, `none` when they are in
different trees. -/
def scanBlossom (st : State) (v w : Nat) : Run (State × Option Nat) := do
  let (st, path, base) ← scanPaths g g.limit st (some v) (some w) []
  let st ← path.foldlM (fun st b => putLabel g st b .s) st
  return (st, base)

/-- One of the two loops of `addBlossom` that walk up to the base. -/
def tracePath (b bb trick : Nat) : Nat → State → Nat → Run (State × List Nat × List Nat)
  | 0, _, _ => .error tooDeep
  | fuel + 1, st, bv =>
      if bv = bb then return (st, [], [])
      else do
        let st ← putParent g st bv (some b)
        let p ← getLabelend g st bv
        let p ← need (missing "labelend[bv]") p
        let v ← g.getEndpoint p
        let next ← getInblossom g st v
        let (st, path, endps) ← tracePath b bb trick fuel st next
        return (st, bv :: path, (p ^^^ trick) :: endps)

/-- A leaf joins the new blossom; a T-vertex becomes an S-vertex by it. -/
def absorbLeaf (b : Nat) (st : State) (leaf : Nat) : Run State := do
  let bl ← getInblossom g st leaf
  let label ← getLabel g st bl
  let st := if label = .t then { st with queue := leaf :: st.queue } else st
  putInblossom g st leaf b

/-- Is the first edge better than the second, if there is a second? -/
def isBetter (st : State) (k : Nat) (best : Option Nat) : Run Bool :=
  match best with
  | none => return true
  | some best => do
      let here ← slack g st k
      let there ← slack g st best
      return decide (here < there)

/-- Keep an edge that leads from the new blossom to an S-blossom and is the best so far. -/
def considerEdge (b : Nat) (st : State) (bestedgeto : Nat → Option Nat) (k : Nat) :
    Run (Nat → Option Nat) := do
  let i ← g.getEdgeU k
  let j ← g.getEdgeV k
  let bj ← getInblossom g st j
  let j := if bj = b then i else j
  let bj ← getInblossom g st j
  let label ← getLabel g st bj
  if bj ≠ b ∧ label = .s then do
    let best ← get (missing "bestedgeto") (2 * g.nvertex) bestedgeto bj
    let better ← isBetter g st k best
    if better then put (missing "bestedgeto") (2 * g.nvertex) bestedgeto bj (some k)
    else return bestedgeto
  else return bestedgeto

/-- The edges that a child offers: its own list, or all edges at its leaves. -/
def offeredEdges (st : State) (child : Nat) : Run (List Nat) := do
  let own ← get (missing "blossombestedges") (2 * g.nvertex) st.blossombestedges child
  match own with
  | some list => return list
  | none => do
      let leaves ← blossomLeaves g st g.limit child
      return leaves.flatMap fun leaf => (g.neighbend leaf).map (· / 2)

def considerChild (b : Nat) (found : State × (Nat → Option Nat)) (child : Nat) :
    Run (State × (Nat → Option Nat)) := do
  let (st, bestedgeto) := found
  let list ← offeredEdges g st child
  let bestedgeto ← list.foldlM (considerEdge g b st) bestedgeto
  let st ← putBestedges g st child none
  let st ← putBestedge g st child none
  return (st, bestedgeto)

/-- The best of the collected edges. -/
def selectBest (st : State) (best : Option Nat) (k : Nat) : Run (Option Nat) := do
  let better ← isBetter g st k best
  return if better then some k else best

/-- `addBlossom`: the structure of the new blossom. -/
def buildBlossom (st : State) (base k b : Nat) : Run (State × List Nat) := do
  let v ← g.getEdgeU k
  let w ← g.getEdgeV k
  let bb ← getInblossom g st base
  let bv ← getInblossom g st v
  let bw ← getInblossom g st w
  let st ← putBase g st b (some base)
  let st ← putParent g st b none
  let st ← putParent g st bb (some b)
  let (st, pathV, endpsV) ← tracePath g b bb 0 g.limit st bv
  let (st, pathW, endpsW) ← tracePath g b bb 1 g.limit st bw
  let childs := bb :: pathV.reverse ++ pathW
  let endps := endpsV.reverse ++ 2 * k :: endpsW
  let st ← putChilds g st b (some childs) (some endps)
  let st ← putLabel g st b .s
  let endB ← getLabelend g st bb
  let st ← putLabelend g st b endB
  let dualvar ← put (missing "dualvar") (2 * g.nvertex) st.dualvar b 0
  let st := { st with dualvar }
  let leaves ← blossomLeaves g st g.limit b
  let st ← leaves.foldlM (absorbLeaf g b) st
  return (st, childs)

/-- `addBlossom`: the best edges of the new blossom. -/
def collectBest (st : State) (b : Nat) (childs : List Nat) : Run State := do
  let (st, bestedgeto) ← childs.foldlM (considerChild g b) (st, fun _ => none)
  let collected := (List.range (2 * g.nvertex)).filterMap bestedgeto
  let st ← putBestedges g st b (some collected)
  let best ← collected.foldlM (selectBest g st) none
  putBestedge g st b best

def addBlossom (st : State) (base k : Nat) : Run State :=
  match st.unusedblossoms with
  | [] => .error (.internal "blossom ichki xato: bo'sh blossom raqami qolmadi")
  | b :: unusedblossoms => do
      let (st, childs) ← buildBlossom g { st with unusedblossoms } base k b
      collectBest g st b childs

/-- Python's negative index. -/
def wrap (index : Int) (length : Nat) : Nat := (index % length).toNat

def indexOf (list : List Nat) (x : Nat) : Int :=
  match list.findIdx? (· = x) with
  | some i => i
  | none => -1

/-- The direction of a walk through a blossom that starts at child `j` and ends at the base:
where it starts, its step and which end of an edge comes first. -/
structure Direction where
  start : Int
  jstep : Int
  endptrick : Nat
  deriving DecidableEq, Repr

def direction (j : Int) (length : Nat) : Direction :=
  if j % 2 ≠ 0 then ⟨j - length, 1, 0⟩ else ⟨j, -1, 1⟩

def childAt (childs : List Nat) (j : Int) : Run Nat :=
  need (missing "childs") childs[wrap j childs.length]?

def endpAt (endps : List Nat) (length : Nat) (j : Int) : Run Nat :=
  need (missing "endps") endps[wrap j length]?

/-- The loop of `expandBlossom` that walks to the base and labels the children on the way; it
returns the end by which the base child is entered. -/
def relabelToBase (endps : List Nat) (length : Nat) (jstep : Int) (endptrick : Nat) :
    Nat → State → Int → Nat → Run (State × Nat)
  | 0, _, _, _ => .error tooDeep
  | fuel + 1, st, j, p =>
      if j = 0 then return (st, p)
      else do
        let entry ← g.getEndpoint (p ^^^ 1)
        let st ← putLabel g st entry .free
        let ep ← endpAt endps length (j - endptrick)
        let onward ← g.getEndpoint (ep ^^^ endptrick ^^^ 1)
        let st ← putLabel g st onward .free
        let st ← assignLabelT g st entry (some p)
        let st ← allow g st (ep / 2)
        let j := j + jstep
        let next ← endpAt endps length (j - endptrick)
        let p := next ^^^ endptrick
        let st ← allow g st (p / 2)
        relabelToBase endps length jstep endptrick fuel st (j + jstep) p

/-- The first leaf with a label. -/
def findReachable (st : State) : List Nat → Run (Option Nat)
  | [] => return none
  | leaf :: leaves => do
      let label ← getLabel g st leaf
      if label ≠ .free then return some leaf else findReachable st leaves

/-- A child off the way to the base gets a label if an S-vertex reaches it. -/
def relabelChild (st : State) (bv : Nat) : Run State := do
  let label ← getLabel g st bv
  if label = .s then return st
  else do
    let leaves ← blossomLeaves g st g.limit bv
    let reachable ← findReachable g st leaves
    match reachable with
    | none => return st
    | some leaf => do
        let label ← getLabel g st leaf
        if label ≠ .t then .error (.internal "blossom ichki xato: kutilgan T-tugun emas")
        else do
          let st ← putLabel g st leaf .free
          let base ← getBase g st bv
          let base ← need (missing "mate") base
          let mateBase ← get (missing "mate") g.nvertex st.mate base
          let w ← endpointOf g mateBase
          let st ← putLabel g st w .free
          let p ← getLabelend g st leaf
          assignLabelT g st leaf p

/-- The loop of `expandBlossom` over the other children. -/
def relabelOthers (childs : List Nat) (entrychild : Nat) (jstep : Int) :
    Nat → State → Int → Run State
  | 0, _, _ => .error tooDeep
  | fuel + 1, st, j => do
      let bv ← childAt childs j
      if bv = entrychild then return st
      else do
        let st ← relabelChild g st bv
        relabelOthers childs entrychild jstep fuel st (j + jstep)

/-- The part of `expandBlossom` for a T-blossom that is opened within a stage. -/
def relabelExpanded (st : State) (b : Nat) (childs : List Nat) : Run State := do
  let p ← getLabelend g st b
  let p ← need (missing "endpoint") p
  let entry ← g.getEndpoint (p ^^^ 1)
  let entrychild ← getInblossom g st entry
  let endps ← getEndps g st b
  let way := direction (indexOf childs entrychild) childs.length
  let (st, p) ← relabelToBase g endps childs.length way.jstep way.endptrick g.limit st way.start p
  let bv ← childAt childs 0
  let entry ← g.getEndpoint (p ^^^ 1)
  let st ← putLabel g st entry .t
  let st ← putLabel g st bv .t
  let st ← putLabelend g st entry (some p)
  let st ← putLabelend g st bv (some p)
  let st ← putBestedge g st bv none
  relabelOthers g childs entrychild way.jstep g.limit st way.jstep

/-- The end of `expandBlossom`: the number of the blossom is free again. -/
def recycle (st : State) (b : Nat) : Run State := do
  let st ← putLabel g st b .unused
  let st ← putLabelend g st b none
  let st ← putChilds g st b none none
  let st ← putBase g st b none
  let st ← putBestedges g st b none
  let st ← putBestedge g st b none
  return { st with unusedblossoms := b :: st.unusedblossoms }

/-- A child of an opened blossom comes to the top level, or is opened itself. -/
def releaseChild (recurse : State → Nat → Run State) (endstage : Bool) (st : State) (s : Nat) :
    Run State := do
  let st ← putParent g st s none
  if s < g.nvertex then putInblossom g st s s
  else do
    let dual ← get (missing "dualvar") (2 * g.nvertex) st.dualvar s
    if endstage ∧ dual = 0 then recurse st s
    else do
      let leaves ← blossomLeaves g st g.limit s
      leaves.foldlM (fun st leaf => putInblossom g st leaf s) st

def expandBlossom (endstage : Bool) : Nat → State → Nat → Run State
  | 0, _, _ => .error tooDeep
  | fuel + 1, st, b => do
      let childs ← getChilds g st b
      let st ← childs.foldlM (releaseChild g (expandBlossom endstage fuel) endstage) st
      let label ← getLabel g st b
      if endstage = false ∧ label = .t then do
        let st ← relabelExpanded g st b childs
        recycle g st b
      else recycle g st b

/-- The child of `b` that a vertex below it belongs to. -/
def childAbove (st : State) (b : Nat) : Nat → Nat → Run Nat
  | 0, _ => .error tooDeep
  | fuel + 1, t => do
      let parent ← get (missing "blossomparent") (2 * g.nvertex) st.blossomparent t
      if parent = some b then return t
      else do
        let parent ← need (missing "blossomparent") parent
        childAbove st b fuel parent

/-- `slice` from an index and up to one, negative ones counted from the end. -/
def sliceFrom (list : List Nat) (i : Int) : List Nat :=
  if i < 0 then list.drop (list.length - i.natAbs) else list.drop i.toNat

def sliceTo (list : List Nat) (i : Int) : List Nat :=
  if i < 0 then list.take (list.length - i.natAbs) else list.take i.toNat

/-- A nested blossom is augmented from its new base. -/
def augmentChild (recurse : State → Nat → Nat → Run State) (st : State) (t v : Nat) : Run State :=
  if g.nvertex ≤ t then recurse st t v else return st

/-- The loop of `augmentBlossom`: match the children pairwise on the way to the base. -/
def matchToBase (recurse : State → Nat → Nat → Run State) (childs endps : List Nat)
    (jstep : Int) (endptrick : Nat) : Nat → State → Int → Run State
  | 0, _, _ => .error tooDeep
  | fuel + 1, st, j =>
      if j = 0 then return st
      else do
        let j := j + jstep
        let t ← childAt childs j
        let p ← endpAt endps childs.length (j - endptrick)
        let p := p ^^^ endptrick
        let near ← g.getEndpoint p
        let st ← augmentChild g recurse st t near
        let j := j + jstep
        let t ← childAt childs j
        let far ← g.getEndpoint (p ^^^ 1)
        let st ← augmentChild g recurse st t far
        let st ← putMate g st near (p ^^^ 1)
        let st ← putMate g st far p
        matchToBase recurse childs endps jstep endptrick fuel st j

/-- The end of `augmentBlossom`: the list of children starts at the new base. -/
def rotateBlossom (st : State) (b v : Nat) (childs endps : List Nat) (i : Int) : Run State := do
  let rotated := sliceFrom childs i ++ sliceTo childs i
  let rotatedEndps := sliceFrom endps i ++ sliceTo endps i
  let st ← putChilds g st b (some rotated) (some rotatedEndps)
  let first ← need (missing "rotated[0]") rotated[0]?
  let base ← getBase g st first
  let st ← putBase g st b base
  if base ≠ some v then
    .error (.internal "blossom ichki xato: augmentBlossom asosi mos kelmadi")
  else return st

def augmentBlossom : Nat → State → Nat → Nat → Run State
  | 0, _, _, _ => .error tooDeep
  | fuel + 1, st, b, v => do
      let t ← childAbove g st b g.limit v
      let st ← augmentChild g (augmentBlossom fuel) st t v
      let childs ← getChilds g st b
      let endps ← getEndps g st b
      let i := indexOf childs t
      let way := direction i childs.length
      let st ← matchToBase g (augmentBlossom fuel) childs endps way.jstep way.endptrick g.limit st
        way.start
      rotateBlossom g st b v childs endps i

/-- One side of `augmentMatching`: match `s` by the end `p` and go on to the root. -/
def augmentSide : Nat → State → Nat → Nat → Run State
  | 0, _, _, _ => .error tooDeep
  | fuel + 1, st, s, p => do
      let bs ← getInblossom g st s
      let label ← getLabel g st bs
      if label ≠ .s then .error (.internal "blossom ichki xato: augment yo'lida S-blossom emas")
      else do
        let st ← augmentChild g (augmentBlossom g g.limit) st bs s
        let st ← putMate g st s p
        let up ← getLabelend g st bs
        match up with
        | none => return st
        | some up => do
            let t ← g.getEndpoint up
            let bt ← getInblossom g st t
            let label ← getLabel g st bt
            if label ≠ .t then
              .error (.internal "blossom ichki xato: augment yo'lida T-blossom emas")
            else do
              let q ← getLabelend g st bt
              let q ← need (missing "endpoint") q
              let s ← g.getEndpoint q
              let j ← g.getEndpoint (q ^^^ 1)
              let st ← augmentChild g (augmentBlossom g g.limit) st bt j
              let st ← putMate g st j q
              augmentSide fuel st s (q ^^^ 1)

def augmentMatching (st : State) (k : Nat) : Run State := do
  let v ← g.getEdgeU k
  let w ← g.getEdgeV k
  let st ← augmentSide g g.limit st v (2 * k + 1)
  augmentSide g g.limit st w (2 * k)

/-- An allowed edge from an S-vertex; `true` when the matching has been augmented. -/
def useEdge (st : State) (v p : Nat) : Run (State × Bool) := do
  let w ← g.getEndpoint p
  let bw ← getInblossom g st w
  let label ← getLabel g st bw
  match label with
  | .free => do
      let st ← assignLabelT g st w (some (p ^^^ 1))
      return (st, false)
  | .s => do
      let (st, base) ← scanBlossom g st v w
      match base with
      | some base => do
          let st ← addBlossom g st base (p / 2)
          return (st, false)
      | none => do
          let st ← augmentMatching g st (p / 2)
          return (st, true)
  | _ => do
      let label ← getLabel g st w
      if label = .free then do
        let st ← putLabel g st w .t
        let st ← putLabelend g st w (some (p ^^^ 1))
        return (st, false)
      else return (st, false)

/-- Keep `k` as the best edge of `b` if it is better than the one so far. -/
def keepBest (st : State) (b k : Nat) (kslack : Int) : Run State := do
  let best ← get (missing "bestedge") (2 * g.nvertex) st.bestedge b
  match best with
  | none => putBestedge g st b (some k)
  | some best => do
      let known ← slack g st best
      if kslack < known then putBestedge g st b (some k) else return st

/-- An edge from an S-vertex that is not tight yet. -/
def rememberEdge (st : State) (v w k : Nat) (kslack : Int) : Run State := do
  let bw ← getInblossom g st w
  let label ← getLabel g st bw
  if label = .s then do
    let bv ← getInblossom g st v
    keepBest g st bv k kslack
  else do
    let label ← getLabel g st w
    if label = .free then keepBest g st w k kslack else return st

/-- One neighbour of an S-vertex. -/
def scanEdge (st : State) (v p : Nat) : Run (State × Bool) := do
  let w ← g.getEndpoint p
  let bv ← getInblossom g st v
  let bw ← getInblossom g st w
  if bv = bw then return (st, false)
  else do
    let allowed ← get (missing "allowedge") g.nedge st.allowedge (p / 2)
    if allowed then useEdge g st v p
    else do
      let kslack ← slack g st (p / 2)
      if kslack ≤ 0 then do
        let st ← allow g st (p / 2)
        useEdge g st v p
      else do
        let st ← rememberEdge g st v w (p / 2) kslack
        return (st, false)

def scanNeighbours (v : Nat) : List Nat → State → Run (State × Bool)
  | [], st => return (st, false)
  | p :: ps, st => do
      let (st, augmented) ← scanEdge g st v p
      if augmented then return (st, true) else scanNeighbours v ps st

/-- The loop over the queue. -/
def scanQueue : Nat → State → Run (State × Bool)
  | 0, _ => .error tooDeep
  | fuel + 1, st =>
      match st.queue with
      | [] => return (st, false)
      | v :: queue => do
          let (st, augmented) ← scanNeighbours g v (g.neighbend v) { st with queue }
          if augmented then return (st, true) else scanQueue fuel st

/-- The four kinds of a dual change, with what to do after it. -/
inductive DeltaKind where
  | optimum
  | toFree (deltaedge : Nat)
  | toS (deltaedge : Nat)
  | expand (deltablossom : Nat)
  deriving DecidableEq, Repr

structure Delta where
  amount : Int
  kind : DeltaKind
  deriving DecidableEq, Repr

def leastDual (st : State) : Run Int := do
  let first ← get (missing "dualvar") (2 * g.nvertex) st.dualvar 0
  (List.range' 1 (g.nvertex - 1)).foldlM (fun delta v => do
    let d ← get (missing "dualvar") (2 * g.nvertex) st.dualvar v
    return if d < delta then d else delta) first

def deltaToFree (st : State) (delta : Delta) (v : Nat) : Run Delta := do
  let b ← getInblossom g st v
  let label ← getLabel g st b
  let best ← get (missing "bestedge") (2 * g.nvertex) st.bestedge v
  match label, best with
  | .free, some k => do
      let d ← slack g st k
      return if d < delta.amount then ⟨d, .toFree k⟩ else delta
  | _, _ => return delta

def deltaToS (st : State) (delta : Delta) (b : Nat) : Run Delta := do
  let parent ← get (missing "blossomparent") (2 * g.nvertex) st.blossomparent b
  let label ← getLabel g st b
  let best ← get (missing "bestedge") (2 * g.nvertex) st.bestedge b
  match parent, label, best with
  | none, .s, some k => do
      let kslack ← slack g st k
      if kslack % 2 ≠ 0 then
        .error (.internal "blossom ichki xato: delta3 slack toq — butunlik buzildi")
      else
        let d := kslack / 2
        return if d < delta.amount then ⟨d, .toS k⟩ else delta
  | _, _, _ => return delta

def deltaExpand (st : State) (delta : Delta) (b : Nat) : Run Delta := do
  let base ← getBase g st b
  let parent ← get (missing "blossomparent") (2 * g.nvertex) st.blossomparent b
  let label ← getLabel g st b
  let dual ← get (missing "dualvar") (2 * g.nvertex) st.dualvar b
  return if base.isSome ∧ parent = none ∧ label = .t ∧ dual < delta.amount then
    ⟨dual, .expand b⟩ else delta

def findDelta (st : State) : Run Delta := do
  let least ← leastDual g st
  let delta ← (List.range g.nvertex).foldlM (deltaToFree g st) ⟨least, .optimum⟩
  let delta ← (List.range (2 * g.nvertex)).foldlM (deltaToS g st) delta
  (List.range' g.nvertex g.nvertex).foldlM (deltaExpand g st) delta

def shiftVertex (delta : Int) (st : State) (v : Nat) : Run State := do
  let b ← getInblossom g st v
  let label ← getLabel g st b
  let dual ← get (missing "dualvar") (2 * g.nvertex) st.dualvar v
  let shifted := match label with
    | .s => dual - delta
    | .t => dual + delta
    | _ => dual
  let dualvar ← put (missing "dualvar") (2 * g.nvertex) st.dualvar v shifted
  return { st with dualvar }

def shiftBlossom (delta : Int) (st : State) (b : Nat) : Run State := do
  let base ← getBase g st b
  let parent ← get (missing "blossomparent") (2 * g.nvertex) st.blossomparent b
  let label ← getLabel g st b
  let dual ← get (missing "dualvar") (2 * g.nvertex) st.dualvar b
  let shifted :=
    if base.isSome ∧ parent = none then
      match label with
      | .s => dual + delta
      | .t => dual - delta
      | _ => dual
    else dual
  let dualvar ← put (missing "dualvar") (2 * g.nvertex) st.dualvar b shifted
  return { st with dualvar }

def shiftDuals (st : State) (delta : Int) : Run State := do
  let st ← (List.range g.nvertex).foldlM (shiftVertex g delta) st
  (List.range' g.nvertex g.nvertex).foldlM (shiftBlossom g delta) st

/-- What follows a dual change that is not the last one. -/
def followDelta (st : State) : DeltaKind → Run State
  | .optimum => return st
  | .toFree k => do
      let st ← allow g st k
      let i ← g.getEdgeU k
      let b ← getInblossom g st i
      let label ← getLabel g st b
      let j ← g.getEdgeV k
      let i := if label = .free then j else i
      return { st with queue := i :: st.queue }
  | .toS k => do
      let st ← allow g st k
      let i ← g.getEdgeU k
      return { st with queue := i :: st.queue }
  | .expand b => expandBlossom g false g.limit st b

/-- The inner loop of a stage; `true` when it ended by augmenting the matching. -/
def searchPath : Nat → State → Run (State × Bool)
  | 0, _ => .error tooDeep
  | fuel + 1, st => do
      let (st, augmented) ← scanQueue g g.limit st
      if augmented then return (st, true)
      else do
        let delta ← findDelta g st
        let st ← shiftDuals g st delta.amount
        if delta.kind = .optimum then return (st, false)
        else do
          let st ← followDelta g st delta.kind
          searchPath fuel st

/-- A stage starts with all labels gone and every single vertex an S-vertex. -/
def clearLabels (st : State) : State :=
  { st with
    label := fun _ => .free
    bestedge := fun _ => none
    blossombestedges := fun b => if g.nvertex ≤ b then none else st.blossombestedges b
    allowedge := fun _ => false
    queue := [] }

def labelSingle (st : State) (v : Nat) : Run State := do
  let mate ← get (missing "mate") g.nvertex st.mate v
  match mate with
  | some _ => return st
  | none => do
      let b ← getInblossom g st v
      let label ← getLabel g st b
      if label = .free then assignLabelS g st v none else return st

/-- At the end of a stage the S-blossoms without a dual are opened. -/
def expandTight (st : State) (b : Nat) : Run State := do
  let parent ← get (missing "blossomparent") (2 * g.nvertex) st.blossomparent b
  let base ← getBase g st b
  let label ← getLabel g st b
  let dual ← get (missing "dualvar") (2 * g.nvertex) st.dualvar b
  if parent = none ∧ base.isSome ∧ label = .s ∧ dual = 0 then expandBlossom g true g.limit st b
  else return st

def runStages : Nat → State → Run State
  | 0, st => return st
  | stages + 1, st => do
      let st ← (List.range g.nvertex).foldlM (labelSingle g) (clearLabels g st)
      let (st, augmented) ← searchPath g g.limit st
      if augmented then do
        let st ← (List.range' g.nvertex g.nvertex).foldlM (expandTight g) st
        runStages stages st
      else return st

def readMate (st : State) (v : Nat) : Run (Option Nat) := do
  let m ← get (missing "mate") g.nvertex st.mate v
  match m with
  | none => return none
  | some p => do
      let w ← g.getEndpoint p
      return some w

/-- The last check of the source. -/
def assertSymmetric (result : List (Option Nat)) (v : Nat) : Run Unit := do
  let m ← need (missing "result") result[v]?
  match m with
  | none => return ()
  | some m => do
      let back ← need (missing "result") result[m]?
      if back = some v then return ()
      else .error (.internal "blossom ichki xato: matching simmetrik emas")

end Algorithm

def validateEdge (nvertex : Nat) (e : WeightedEdge) : Run Unit :=
  if nvertex ≤ e.u ∨ nvertex ≤ e.v ∨ e.u = e.v then
    .error (.internal s!"blossom: yaroqsiz qirra ({e.u}, {e.v})")
  else if e.weight < 0 then
    .error (.internal "blossom: manfiy og'irlik qo'llab-quvvatlanmaydi")
  else return ()

def buildGraph (vertexCount : Nat) (edges : List WeightedEdge) : Graph where
  nvertex := vertexCount
  nedge := edges.length
  edgeU k := (edges[k]?.map WeightedEdge.u).getD 0
  edgeV k := (edges[k]?.map WeightedEdge.v).getD 0
  edgeW k := (edges[k]?.map fun e => e.weight * 2).getD 0

def maxWeight (edges : List WeightedEdge) : Int :=
  edges.foldl (fun w e => if w < e.weight * 2 then e.weight * 2 else w) 0

def initialState (g : Graph) (maxweight : Int) : State where
  mate _ := none
  label _ := .free
  labelend _ := none
  inblossom v := v
  blossomparent _ := none
  blossomchilds _ := none
  blossombase b := if b < g.nvertex then some b else none
  blossomendps _ := none
  bestedge _ := none
  blossombestedges _ := none
  unusedblossoms := (List.range' g.nvertex g.nvertex).reverse
  dualvar b := if b < g.nvertex then maxweight else 0
  allowedge _ := false
  queue := []

/-- `maximumWeightMatching`: the mate of every vertex. -/
def maximumWeightMatching (vertexCount : Nat) (edges : List WeightedEdge) :
    Run (List (Option Nat)) :=
  if vertexCount = 0 then return []
  else do
    edges.forM (validateEdge vertexCount)
    if edges.length = 0 then return List.replicate vertexCount none
    else do
      let g := buildGraph vertexCount edges
      let st ← runStages g g.nvertex (initialState g (maxWeight edges))
      let result ← (List.range g.nvertex).mapM (readMate g st)
      (List.range g.nvertex).forM (assertSymmetric result)
      return result

end Farzin.Blossom
