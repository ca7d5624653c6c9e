import Farzin.SwissBracketsCover
import Farzin.SwissEngine
import Farzin.SwissPlaces

set_option autoImplicit false

/- Different matchings of a bracket have different weights, and the engine does not look at the
order of its players. -/
namespace Farzin.Swiss

open Blossom (WeightedEdge)

section Graph

/-- The edges of a bracket's graph, in the order in which `pairBracket` lists them. -/
def bracketGraph (withDummy : Bool) : List BracketSlot → List BracketEdge
  | [] => []
  | si :: later =>
      (later.filter fun sj => canMeet si.player sj.player).map (BracketEdge.real si) ++
        (if withDummy && si.player.pabEligible then [.dummy si] else []) ++
        bracketGraph withDummy later

/-- The edge as the matcher gets it. -/
def BracketEdge.weighted (scheme : WeightScheme) (split : Int) (size : Nat) (edge : BracketEdge) :
    Except PairingError WeightedEdge := do
  let weight ← edgeWeight scheme split edge
  return match edge with
    | .real u v => ⟨u.bsn, v.bsn, weight⟩
    | .dummy u => ⟨u.bsn, size, weight⟩

/-- The graph is the one that `pairBracket` builds. -/
theorem bracketEdges_graph (scheme : WeightScheme) (split size : Nat) (withDummy : Bool)
    (slots : List BracketSlot) :
    bracketEdges scheme split size withDummy slots =
      (bracketGraph withDummy slots).mapM (BracketEdge.weighted scheme split size) := by
  induction slots with
  | nil => rfl
  | cons si later ih =>
      have real : realEdges scheme split si later =
          ((later.filter fun sj => canMeet si.player sj.player).map (BracketEdge.real si)).mapM
            (BracketEdge.weighted scheme split size) := by
        rw [realEdges, List.mapM_map]
        rfl
      have dummy : (pure (dummyEdges scheme size withDummy si) : Except PairingError _) =
          (if withDummy && si.player.pabEligible then [BracketEdge.dummy si] else []).mapM
            (BracketEdge.weighted scheme split size) := by
        unfold dummyEdges
        split <;> rfl
      rw [bracketEdges, bracketGraph, List.mapM_append, List.mapM_append, ← real, ← dummy, ih]
      simp

theorem mem_bracketGraph {withDummy : Bool} {slots : List BracketSlot} {edge : BracketEdge}
    (ordered : slots.Pairwise fun a b => a.bsn < b.bsn)
    (listed : edge ∈ bracketGraph withDummy slots) :
    edge.Ordered ∧ (∀ slot ∈ edge.ends, slot ∈ slots) ∧ (edge.isDummy = true → withDummy = true) := by
  induction slots with
  | nil => cases listed
  | cons si later ih =>
      obtain ⟨first, rest⟩ := List.pairwise_cons.mp ordered
      rw [bracketGraph, List.mem_append, List.mem_append] at listed
      rcases listed with (real | dummy) | others
      · obtain ⟨sj, inside, rfl⟩ := List.mem_map.mp real
        have there : sj ∈ later := (List.mem_filter.mp inside).1
        refine ⟨first sj there, ?_, by simp [BracketEdge.isDummy]⟩
        intro slot isEnd
        simp only [BracketEdge.ends, List.mem_cons, List.not_mem_nil, or_false] at isEnd
        rcases isEnd with rfl | rfl
        · exact List.mem_cons_self
        · exact List.mem_cons_of_mem si there
      · split at dummy
        · rename_i both
          rw [List.mem_singleton.mp dummy]
          refine ⟨trivial, ?_, fun _ => (Bool.and_eq_true_iff.mp both).1⟩
          intro slot isEnd
          rw [List.mem_singleton.mp isEnd]
          exact List.mem_cons_self
        · cases dummy
      · obtain ⟨low, ends, dummies⟩ := ih rest others
        exact ⟨low, fun slot isEnd => List.mem_cons_of_mem si (ends slot isEnd), dummies⟩

end Graph

/-- A matching by edges of the given list. -/
structure MatchingOf (graph : List BracketEdge) (slots : List BracketSlot)
    (edges : List BracketEdge) : Prop extends BracketMatching slots edges where
  listed : ∀ edge ∈ edges, edge ∈ graph

/-- Every player is paired, or has the bye. -/
structure Perfect (slots : List BracketSlot) (edges : List BracketEdge) : Prop where
  everyone : ∀ slot ∈ slots, slot ∈ edges.flatMap BracketEdge.ends
  bye : ∃ edge ∈ edges, edge.isDummy = true

/-- No other matching weighs more. -/
structure Heaviest (scheme : WeightScheme) (split : Int) (graph : List BracketEdge)
    (slots : List BracketSlot) (edges : List BracketEdge) : Prop where
  matching : MatchingOf graph slots edges
  most : ∀ others, MatchingOf graph slots others → ∀ weight weight',
    matchingWeight scheme split edges = .ok weight →
      matchingWeight scheme split others = .ok weight' → weight' ≤ weight

section Matchings

variable {params : WeightSchemeParams} {slots : List BracketSlot} {edges others : List BracketEdge}
  {split : Int}

/-- A place is used by one edge only. -/
theorem BracketMatching.edge_unique (matching : BracketMatching slots edges)
    {first second : BracketEdge} (left : first ∈ edges) (right : second ∈ edges) {place : Nat}
    (usedLeft : place ∈ first.places) (usedRight : place ∈ second.places) : first = second := by
  by_contra apart
  have symmetric : Std.Symm (Function.onFun List.Disjoint BracketEdge.places) :=
    ⟨fun _ _ apart => apart.symm⟩
  have disjoint := (List.nodup_flatMap.mp matching.distinct).2.forall left right apart
  exact disjoint usedLeft usedRight

theorem BracketMatching.nodup (matching : BracketMatching slots edges) : edges.Nodup := by
  have distinct := matching.disjoint
  clear matching
  induction edges with
  | nil => exact List.nodup_nil
  | cons edge edges ih =>
      rw [List.flatMap_cons, List.map_append] at distinct
      obtain ⟨_, rest, apart⟩ := List.nodup_append.mp distinct
      refine List.nodup_cons.mpr ⟨fun again => ?_, ih rest⟩
      have named : ∃ slot, slot ∈ edge.ends := by cases edge <;> exact ⟨_, List.mem_cons_self⟩
      obtain ⟨slot, isEnd⟩ := named
      exact apart slot.bsn (List.mem_map_of_mem isEnd) slot.bsn
        (List.mem_map_of_mem (List.mem_flatMap.mpr ⟨edge, again, isEnd⟩)) rfl

/-- A place that a real edge of one matching uses and the bye of the other would be shown. -/
theorem dummy_of_places (fits : BracketFits params slots) (left : BracketMatching slots edges)
    (right : BracketMatching slots others) (orderedLeft : ∀ edge ∈ edges, edge.Ordered)
    (orderedRight : ∀ edge ∈ others, edge.Ordered)
    (same : ∀ place < slots.length,
      placeCode params split edges place = placeCode params split others place)
    (everyone : ∀ slot ∈ slots, slot ∈ others.flatMap BracketEdge.ends) {u : BracketSlot}
    (listed : .dummy u ∈ edges) : .dummy u ∈ others := by
  have inside := left.inside _ listed u List.mem_cons_self
  have used : u.bsn ∈ (BracketEdge.dummy u).places := List.mem_cons_self
  obtain ⟨edge, there, isEnd⟩ := List.mem_flatMap.mp (everyone u inside)
  cases edge with
  | dummy u' => rwa [List.mem_singleton.mp isEnd]
  | real a b =>
      have back := real_of_places fits right left orderedRight orderedLeft
        (fun place below => (same place below).symm) there
      have also : u.bsn ∈ (BracketEdge.real a b).places := List.mem_map_of_mem isEnd
      have equal := left.edge_unique listed back used also
      cases equal

/-- Matchings that agree on the TB level are the same. -/
theorem same_edges {withDummy : Bool} (fits : BracketFits params slots)
    (left : MatchingOf (bracketGraph withDummy slots) slots edges)
    (right : MatchingOf (bracketGraph withDummy slots) slots others)
    (closed : withDummy = true → Perfect slots edges ∧ Perfect slots others)
    (same : total params split edges .tb = total params split others .tb) :
    edges.Perm others := by
  have increasing : slots.Pairwise fun a b => a.bsn < b.bsn := by
    rw [← List.pairwise_map, fits.positions]
    exact List.pairwise_lt_range
  have orderedLeft : ∀ edge ∈ edges, edge.Ordered := fun edge listed =>
    (mem_bracketGraph increasing (left.listed edge listed)).1
  have orderedRight : ∀ edge ∈ others, edge.Ordered := fun edge listed =>
    (mem_bracketGraph increasing (right.listed edge listed)).1
  have shown := same_places fits left.toBracketMatching right.toBracketMatching orderedLeft
    orderedRight same
  have shown' : ∀ place < slots.length,
      placeCode params split others place = placeCode params split edges place :=
    fun place below => (shown place below).symm
  apply (List.perm_ext_iff_of_nodup left.nodup right.nodup).mpr
  intro edge
  cases edge with
  | real u v =>
      exact ⟨real_of_places fits left.toBracketMatching right.toBracketMatching orderedLeft
          orderedRight shown,
        real_of_places fits right.toBracketMatching left.toBracketMatching orderedRight
          orderedLeft shown'⟩
  | dummy u =>
      constructor
      · intro listed
        have perfect := closed ((mem_bracketGraph increasing (left.listed _ listed)).2.2 rfl)
        exact dummy_of_places fits left.toBracketMatching right.toBracketMatching orderedLeft
          orderedRight shown perfect.2.everyone listed
      · intro listed
        have perfect := closed ((mem_bracketGraph increasing (right.listed _ listed)).2.2 rfl)
        exact dummy_of_places fits right.toBracketMatching left.toBracketMatching orderedRight
          orderedLeft shown' perfect.1.everyone listed

/-- Weights compare as the totals do. -/
theorem weights_compare (fits : BracketFits params slots) (left : BracketMatching slots edges)
    (right : BracketMatching slots others) (split : Int) :
    ∃ weight weight', matchingWeight (weightScheme params) split edges = .ok weight ∧
      matchingWeight (weightScheme params) split others = .ok weight' ∧
      (weight < weight' ↔ totals params split edges < totals params split others) ∧
      (weight = weight' ↔ totals params split edges = totals params split others) := by
  have dominates := units_dominate params (spanOf_nonneg fits)
  refine ⟨_, _, matchingWeight_ok fits split left.inside, matchingWeight_ok fits split right.inside,
    ?_⟩
  exact dominates.compare _ _ fun level _ => abs_total_sub_le fits left right split level

theorem tb_of_totals (same : totals params split edges = totals params split others) :
    total params split edges .tb = total params split others .tb :=
  List.map_inj_left.mp same .tb (by decide)

theorem MatchingOf.relist {graph listing : List BracketEdge}
    (matching : MatchingOf listing slots edges) (perm : listing.Perm graph) :
    MatchingOf graph slots edges where
  toBracketMatching := matching.toBracketMatching
  listed edge inside := perm.mem_iff.mp (matching.listed edge inside)

theorem total_pair (edges : List BracketEdge) : total params split edges .pair = edges.length := by
  have ones : edges.map (fun edge => contribution params split edge .pair) =
      List.replicate edges.length 1 := by
    apply List.eq_replicate_iff.mpr
    refine ⟨List.length_map .., ?_⟩
    intro digit listed
    obtain ⟨edge, _, rfl⟩ := List.mem_map.mp listed
    cases edge <;> rfl
  rw [total, ones, List.sum_replicate, nsmul_eq_mul, mul_one]

/-- Every real edge has two ends and every bye one. -/
theorem length_ends (edges : List BracketEdge) :
    (edges.flatMap BracketEdge.ends).length + edges.countP BracketEdge.isDummy =
      2 * edges.length := by
  induction edges with
  | nil => rfl
  | cons edge edges ih =>
      rw [List.flatMap_cons, List.length_append, List.countP_cons, List.length_cons]
      cases edge <;> simp only [BracketEdge.ends, BracketEdge.isDummy, List.length_cons,
        List.length_nil, if_true, if_false, Bool.false_eq_true] <;> omega

/-- A matching uses slots of the bracket, none of them twice. -/
theorem BracketMatching.ends_subperm (matching : BracketMatching slots edges) :
    (edges.flatMap BracketEdge.ends).Subperm slots := by
  apply List.Nodup.subperm (List.Nodup.of_map _ matching.disjoint)
  intro slot isEnd
  obtain ⟨edge, listed, here⟩ := List.mem_flatMap.mp isEnd
  exact matching.inside edge listed slot here

/-- Where somebody can be paired with everyone, a heaviest matching does so. -/
theorem Heaviest.perfect (fits : BracketFits params slots) {graph : List BracketEdge}
    (heaviest : Heaviest (weightScheme params) split graph slots edges)
    (full : MatchingOf graph slots others) (perfect : Perfect slots others) :
    Perfect slots edges := by
  have matching := heaviest.matching.toBracketMatching
  have atLeast : others.length ≤ edges.length := by
    by_contra fewer
    obtain ⟨weight, weight', mine, other, below, _⟩ :=
      weights_compare fits matching full.toBracketMatching split
    have less : totals params split edges < totals params split others := by
      change total params split edges .pair :: _ < total params split others .pair :: _
      rw [List.cons_lt_cons_iff, total_pair, total_pair]
      exact .inl (by omega)
    have most := heaviest.most others full weight weight' mine other
    have strict := below.mpr less
    omega
  have slotsNodup : slots.Nodup := by
    apply List.Nodup.of_map BracketSlot.bsn
    rw [fits.positions]
    exact List.nodup_range
  have covers : slots.length ≤ (others.flatMap BracketEdge.ends).length :=
    (List.Nodup.subperm slotsNodup perfect.everyone).length_le
  have given : 0 < others.countP BracketEdge.isDummy := by
    obtain ⟨edge, listed, isDummy⟩ := perfect.bye
    exact List.countP_pos_iff.mpr ⟨edge, listed, isDummy⟩
  have mine := length_ends edges
  have theirs := length_ends others
  have room := matching.ends_subperm.length_le
  have oneBye := matching.oneBye
  have byes : 0 < edges.countP BracketEdge.isDummy := by omega
  constructor
  · intro slot inside
    have whole := matching.ends_subperm.perm_of_length_le (by omega)
    exact whole.mem_iff.mpr inside
  · exact List.countP_pos_iff.mp byes

end Matchings

/-- A bracket of a round: some of its active players, none of them twice. -/
structure Bracket where
  states : List PlayerPairingState
  roundNumber : Int
  totalRounds : Int
  initialColor : Color
  slots0 : List SwissPlayer
  carriedCount : Nat
  withDummy : Bool
  drawn : slots0.Subperm (prepareSwissPlayers states roundNumber totalRounds)

namespace Bracket

variable (bracket : Bracket)

def players : List SwissPlayer :=
  prepareSwissPlayers bracket.states bracket.roundNumber bracket.totalRounds

def params : WeightSchemeParams :=
  schemeParams bracket.players bracket.roundNumber bracket.initialColor

def scheme : WeightScheme := weightScheme bracket.params

def slots : List BracketSlot := bracketSlots bracket.slots0 bracket.carriedCount

def split : Nat := bracketSplit bracket.carriedCount bracket.slots0.length

def graph : List BracketEdge := bracketGraph bracket.withDummy bracket.slots

theorem slots_length : bracket.slots.length = bracket.slots0.length := by
  rw [slots, bracketSlots, List.length_mapIdx]

theorem slot_player {slot : BracketSlot} (inside : slot ∈ bracket.slots) :
    slot.player ∈ bracket.players := by
  apply bracket.drawn.subset
  exact List.mem_of_getElem? (bracketSlots_player inside)

/-- The scheme of a round is made for all of its brackets. -/
theorem fits : BracketFits bracket.params bracket.slots where
  size := by
    rw [bracket.slots_length]
    exact bracket.drawn.length_le
  range := by
    unfold params schemeParams
    dsimp only
    cases known : (bracket.players.map SwissPlayer.scoreX2) with
    | nil => exact le_rfl
    | cons score scores =>
        obtain ⟨low, least⟩ := Option.isSome_iff_exists.mp
          (List.isSome_min?_of_mem (List.mem_cons_self (a := score) (l := scores)))
        obtain ⟨high, greatest⟩ := Option.isSome_iff_exists.mp
          (List.isSome_max?_of_mem (List.mem_cons_self (a := score) (l := scores)))
        rw [least, greatest]
        exact (List.min?_eq_some_iff.mp least).2 high (List.max?_eq_some_iff.mp greatest).1
  scores := by
    intro slot inside
    have listed : slot.player.scoreX2 ∈ bracket.players.map SwissPlayer.scoreX2 :=
      List.mem_map_of_mem (bracket.slot_player inside)
    obtain ⟨low, least⟩ := Option.isSome_iff_exists.mp (List.isSome_min?_of_mem listed)
    obtain ⟨high, greatest⟩ := Option.isSome_iff_exists.mp (List.isSome_max?_of_mem listed)
    unfold params schemeParams
    dsimp only
    rw [least, greatest]
    exact ⟨(List.min?_eq_some_iff.mp least).2 _ listed,
      (List.max?_eq_some_iff.mp greatest).2 _ listed⟩
  unplayed := by
    intro slot inside
    obtain ⟨i, here, same⟩ := List.mem_mapIdx.mp (bracket.slot_player inside)
    rw [← same]
    change (bracket.roundNumber - 1 - _).toNat ≤ (bracket.roundNumber - 1).toNat
    omega
  positions := by
    rw [bracket.slots_length]
    exact bracketSlots_bsn _ _

end Bracket

section Order

/-- What the order of the players looks at. -/
def orderKey (p : PlayerPairingState) : Int × Int := (scoreX2Of p.points, p.pairingNumber)

theorem beforeOrEqual_antisymm {a b : PlayerPairingState} (left : beforeOrEqual a b)
    (right : beforeOrEqual b a) : orderKey a = orderKey b := by
  unfold beforeOrEqual at left right
  unfold orderKey
  rw [Prod.mk.injEq]
  omega

theorem sortPlayers_sorted (players : List PlayerPairingState) :
    (sortPlayers players).Pairwise beforeOrEqual := by
  have total : Std.Total beforeOrEqual := ⟨fun a b => by unfold beforeOrEqual; omega⟩
  have trans : IsTrans PlayerPairingState beforeOrEqual :=
    ⟨fun a b c left right => by unfold beforeOrEqual at left right ⊢; omega⟩
  exact List.pairwise_insertionSort beforeOrEqual players

/-- Sorted players show the same keys in every order of the request. -/
theorem sortPlayers_keys {players others : List PlayerPairingState} (same : players.Perm others) :
    (sortPlayers players).map orderKey = (sortPlayers others).map orderKey := by
  have sorted : ∀ list : List PlayerPairingState, ((sortPlayers list).map orderKey).Pairwise
      fun a b => b.1 < a.1 ∨ a.1 = b.1 ∧ a.2 ≤ b.2 := fun list =>
    List.pairwise_map.mpr (sortPlayers_sorted list)
  have perm : ((sortPlayers players).map orderKey).Perm ((sortPlayers others).map orderKey) :=
    ((List.perm_insertionSort _ _).trans (same.trans (List.perm_insertionSort _ _).symm)).map _
  apply perm.eq_of_pairwise _ (sorted players) (sorted others)
  intro a b _ _ left right
  apply Prod.ext <;> omega

/-- Whether a pairing number is repeated only depends on the numbers. -/
theorem repeatedNumber_numbers (seen : List Int) {players others : List PlayerPairingState}
    (same : players.map PlayerPairingState.pairingNumber =
      others.map PlayerPairingState.pairingNumber) :
    repeatedNumber seen players = repeatedNumber seen others := by
  induction players generalizing seen others with
  | nil => rw [List.map_eq_nil_iff.mp same.symm]
  | cons p players ih =>
      cases others with
      | nil => cases same
      | cons q others =>
          obtain ⟨number, rest⟩ := List.cons.inj same
          rw [repeatedNumber, repeatedNumber, number, ih _ rest]

theorem repeatedNumber_distinct {seen : List Int} {players : List PlayerPairingState}
    (none : repeatedNumber seen players = none) :
    (players.map PlayerPairingState.pairingNumber).Nodup ∧
      ∀ p ∈ players, p.pairingNumber ∉ seen := by
  induction players generalizing seen with
  | nil => exact ⟨List.nodup_nil, fun p listed => by cases listed⟩
  | cons p players ih =>
      rw [repeatedNumber] at none
      split at none
      · cases none
      rename_i new
      obtain ⟨distinct, unseen⟩ := ih none
      constructor
      · refine List.nodup_cons.mpr ⟨fun again => ?_, distinct⟩
        obtain ⟨q, listed, same⟩ := List.mem_map.mp again
        exact unseen q listed (by rw [same]; exact List.mem_cons_self)
      · intro q listed
        rcases List.mem_cons.mp listed with rfl | later
        · exact new
        · exact fun known => unseen q later (List.mem_cons_of_mem _ known)

/-- Players with different numbers have one order. -/
theorem sortPlayers_eq {players others : List PlayerPairingState} (same : players.Perm others)
    (none : repeatedNumber [] (sortPlayers players) = none) :
    sortPlayers players = sortPlayers others := by
  have perm : (sortPlayers players).Perm (sortPlayers others) :=
    (List.perm_insertionSort _ _).trans (same.trans (List.perm_insertionSort _ _).symm)
  apply perm.eq_of_pairwise _ (sortPlayers_sorted players) (sortPlayers_sorted others)
  intro a b left right before after
  apply List.inj_on_of_nodup_map (repeatedNumber_distinct none).1 left (perm.mem_iff.mpr right)
  exact congrArg Prod.snd (beforeOrEqual_antisymm before after)

theorem compute_order (request : PairingRequest) (players : List PlayerPairingState)
    (same : players.Perm request.players) :
    compute { request with players := players } = compute request := by
  have numbers : (sortPlayers players).map PlayerPairingState.pairingNumber =
      (sortPlayers request.players).map PlayerPairingState.pairingNumber := by
    have keys := congrArg (List.map Prod.snd) (sortPlayers_keys same)
    rwa [List.map_map, List.map_map] at keys
  have repeated := repeatedNumber_numbers [] numbers
  unfold compute
  dsimp only
  cases known : repeatedNumber [] (sortPlayers players) with
  | some number => rw [← repeated, known]
  | none => rw [← repeated, known, sortPlayers_eq same known]

end Order

/-- Any two matchings of a bracket have different weights (perfect ones where there is a bye), so
the heaviest one does not depend on the order of the edges; and the engine returns the same for
every order of the players. -/
theorem pairing_unique :
    (∀ bracket : Bracket,
      (∀ first second, MatchingOf bracket.graph bracket.slots first →
        MatchingOf bracket.graph bracket.slots second →
        (bracket.withDummy = true → Perfect bracket.slots first ∧ Perfect bracket.slots second) →
        ¬ first.Perm second →
        ∃ weight weight', matchingWeight bracket.scheme bracket.split first = .ok weight ∧
          matchingWeight bracket.scheme bracket.split second = .ok weight' ∧ weight ≠ weight') ∧
      ∀ listing listing' first second, listing.Perm bracket.graph → listing'.Perm bracket.graph →
        Heaviest bracket.scheme bracket.split listing bracket.slots first →
        Heaviest bracket.scheme bracket.split listing' bracket.slots second →
        (bracket.withDummy = true → ∃ edges, MatchingOf bracket.graph bracket.slots edges ∧
          Perfect bracket.slots edges) →
        first.Perm second) ∧
    ∀ (request : PairingRequest) (players : List PlayerPairingState),
      players.Perm request.players →
        compute { request with players := players } = compute request := by
  refine ⟨fun bracket => ⟨?_, ?_⟩, compute_order⟩
  · intro first second left right closed apart
    obtain ⟨weight, weight', mine, other, _, equal⟩ := weights_compare bracket.fits
      left.toBracketMatching right.toBracketMatching bracket.split
    refine ⟨weight, weight', mine, other, fun same => apart ?_⟩
    exact same_edges bracket.fits left right closed (tb_of_totals (equal.mp same))
  · intro listing listing' first second perm perm' left right possible
    have ownLeft := left.matching.relist perm
    have ownRight := right.matching.relist perm'
    obtain ⟨weight, weight', mine, other, _, equal⟩ := weights_compare bracket.fits
      ownLeft.toBracketMatching ownRight.toBracketMatching bracket.split
    have upper := left.most second (ownRight.relist perm.symm) weight weight' mine other
    have lower := right.most first (ownLeft.relist perm'.symm) weight' weight other mine
    have same : weight = weight' := by omega
    apply same_edges bracket.fits ownLeft ownRight _ (tb_of_totals (equal.mp same))
    intro dummy
    obtain ⟨edges, full, perfect⟩ := possible dummy
    exact ⟨left.perfect bracket.fits (full.relist perm.symm) perfect,
      right.perfect bracket.fits (full.relist perm'.symm) perfect⟩

/-- The three players, in one bracket with a bye. -/
def threeBracket : Bracket where
  states := threeSlots.map fun slot => slot.player.state
  roundNumber := 1
  totalRounds := 5
  initialColor := .white
  slots0 := prepareSwissPlayers (threeSlots.map fun slot => slot.player.state) 1 5
  carriedCount := 0
  withDummy := true
  drawn := List.Subperm.refl _

theorem threeBracket_slots : threeBracket.slots = threeSlots := by decide +kernel

theorem threeBracket_matching (place : Nat) (either : place = 1 ∨ place = 2) :
    MatchingOf threeBracket.graph threeBracket.slots (threeMatching place) ∧
      Perfect threeBracket.slots (threeMatching place) := by
  rw [threeBracket_slots]
  rcases either with rfl | rfl
  · exact ⟨⟨threeMatching_matches.1, by decide +kernel⟩, by decide +kernel, by decide +kernel⟩
  · exact ⟨⟨threeMatching_matches.2, by decide +kernel⟩, by decide +kernel, by decide +kernel⟩

def threeRequest : PairingRequest where
  roundId := "round-1"
  roundNumber := 1
  totalRounds := 5
  players := threeBracket.states
  initialColor := none

theorem threeBracket_unique :
    (∃ weight weight', matchingWeight threeBracket.scheme threeBracket.split (threeMatching 1) =
        .ok weight ∧
      matchingWeight threeBracket.scheme threeBracket.split (threeMatching 2) = .ok weight' ∧
      weight ≠ weight') ∧
    compute { threeRequest with players := threeRequest.players.reverse } =
      compute threeRequest := by
  have first := threeBracket_matching 1 (.inl rfl)
  have second := threeBracket_matching 2 (.inr rfl)
  have apart : ¬ (threeMatching 1).Perm (threeMatching 2) := by decide +kernel
  exact ⟨(pairing_unique.1 threeBracket).1 _ _ first.1 second.1 (fun _ => ⟨first.2, second.2⟩) apart,
    pairing_unique.2 threeRequest _ (List.reverse_perm _)⟩

end Farzin.Swiss
