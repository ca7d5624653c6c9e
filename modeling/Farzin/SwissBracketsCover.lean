import Farzin.BlossomListed
import Farzin.MateLists
import Farzin.SwissBrackets
import Mathlib.Data.List.SplitBy

set_option autoImplicit false

/- What the brackets return covers the players: everyone is paired, floats or has the bye,
and every pair may meet. -/
namespace Farzin.Swiss

open Blossom (WeightedEdge Adjacent maximumWeightMatching)
open Checked MateLists

/-- A failure other than a pairing that breaks an absolute criterion. -/
def NotIntegrity : PairingError → Prop
  | .integrity .. => False
  | _ => True

theorem internal_notIntegrity (e : PairingError) (internal : Blossom.Internal e) :
    NotIntegrity e := by
  cases e with
  | impossible => trivial
  | integrity => exact internal
  | internal => trivial

section Weights

variable (scheme : WeightScheme)

@[simp] theorem WeightScheme.vp_fails (exp : Int) (what : String) :
    Fails NotIntegrity (scheme.vp exp what) := by
  unfold WeightScheme.vp
  split
  · exact .ok trivial
  · exact .error trivial

@[simp] theorem WeightScheme.tb_fails (exp : Int) : Fails NotIntegrity (scheme.tb exp) := by
  unfold WeightScheme.tb
  split
  · exact .ok trivial
  · exact .error trivial

@[simp] theorem WeightScheme.vpIf_fails (applies : Prop) [Decidable applies] (exp : Int)
    (what : String) : Fails NotIntegrity (scheme.vpIf applies exp what) := by
  simp [WeightScheme.vpIf]

@[simp] theorem WeightScheme.floatPenalty_fails (down up : SwissPlayer) (dX2 : Int) :
    Fails NotIntegrity (scheme.floatPenalty down up dX2) := by
  simp [WeightScheme.floatPenalty]

@[simp] theorem WeightScheme.mixedPenalty_fails (pu pv : SwissPlayer) (dX2 : Int) :
    Fails NotIntegrity (scheme.mixedPenalty pu pv dX2) := by
  simp [WeightScheme.mixedPenalty]

@[simp] theorem WeightScheme.orderBonus_fails (u v : BracketSlot) (split : Int) :
    Fails NotIntegrity (scheme.orderBonus u v split) := by
  simp [WeightScheme.orderBonus]

theorem WeightScheme.realEdgeWeight_fails (u v : BracketSlot) (split : Int) :
    Fails NotIntegrity (scheme.realEdgeWeight u v split) := by
  simp [WeightScheme.realEdgeWeight]

end Weights

/-- Both players of every pair. -/
def sides (pairs : List (SwissPlayer × SwissPlayer)) : List SwissPlayer :=
  pairs.flatMap fun pair => [pair.1, pair.2]

/-- Everyone is listed once, the pairs may meet and the bye may be given. -/
structure Sound (players : List SwissPlayer) (result : BracketResult) : Prop where
  once : (sides result.pairs ++ (result.floaters ++ result.pab.toList)).Perm players
  meets : ∀ pair ∈ result.pairs, canMeet pair.1 pair.2 = true
  eligible : ∀ p, result.pab = some p → p.pabEligible = true

section Edges

/-- What an edge of a bracket stands for: a pair that may meet, or a bye. -/
def Edge (players : List SwissPlayer) (withDummy : Bool) (u v : Nat) : Prop :=
  u < v ∧ ∃ a, players[u]? = some a ∧
    ((∃ b, players[v]? = some b ∧ canMeet a b = true) ∨
      v = players.length ∧ withDummy = true ∧ a.pabEligible = true)

variable {players : List SwissPlayer} {withDummy : Bool}

theorem bracketSlots_get (players : List SwissPlayer) (carriedCount i : Nat) :
    (bracketSlots players carriedCount)[i]? =
      players[i]?.map fun player => ⟨player, i, decide (i < carriedCount)⟩ := by
  simp [bracketSlots]

theorem bracketSlots_player {carriedCount : Nat} {slot : BracketSlot}
    (listed : slot ∈ bracketSlots players carriedCount) :
    players[slot.bsn]? = some slot.player := by
  obtain ⟨i, here⟩ := List.mem_iff_getElem?.mp listed
  rw [bracketSlots_get] at here
  obtain ⟨player, found, same⟩ := Option.map_eq_some_iff.mp here
  rw [← same]
  exact found

theorem bracketSlots_bsn (players : List SwissPlayer) (carriedCount : Nat) :
    (bracketSlots players carriedCount).map BracketSlot.bsn = List.range players.length := by
  apply List.ext_getElem?
  intro i
  rw [List.getElem?_map, bracketSlots_get, Option.map_map]
  by_cases inside : i < players.length
  · rw [List.getElem?_eq_getElem inside, List.getElem?_range inside]
    rfl
  · rw [List.getElem?_eq_none (by omega), List.getElem?_eq_none (by simpa using inside)]
    rfl

theorem bracketSlots_ordered (players : List SwissPlayer) (carriedCount : Nat) :
    (bracketSlots players carriedCount).Pairwise fun a b => a.bsn < b.bsn := by
  rw [← List.pairwise_map, bracketSlots_bsn]
  exact List.pairwise_lt_range

theorem realEdges_yields (scheme : WeightScheme) (split : Nat) (si : BracketSlot)
    (later : List BracketSlot) :
    Yields NotIntegrity (fun edges => ∀ e ∈ edges, ∃ sj ∈ later,
      canMeet si.player sj.player = true ∧ e.u = si.bsn ∧ e.v = sj.bsn)
      (realEdges scheme split si later) := by
  unfold realEdges
  apply Yields.mapM_all
  intro sj listed
  obtain ⟨here, meets⟩ := List.mem_filter.mp listed
  apply (scheme.realEdgeWeight_fails _ sj split).after
  intro weight
  exact .ok ⟨sj, here, meets, rfl, rfl⟩

/-- Every edge of a bracket joins two of its slots that may meet, or stands for a bye. -/
theorem bracketEdges_yields (scheme : WeightScheme) (split : Nat) (later : List BracketSlot)
    (known : ∀ slot ∈ later, players[slot.bsn]? = some slot.player)
    (ordered : later.Pairwise fun a b => a.bsn < b.bsn) :
    Yields NotIntegrity (fun edges => ∀ e ∈ edges, Edge players withDummy e.u e.v)
      (bracketEdges scheme split players.length withDummy later) := by
  induction later with
  | nil => exact .ok fun e listed => by cases listed
  | cons si later ih =>
      obtain ⟨first, rest⟩ := List.pairwise_cons.mp ordered
      have here := known si List.mem_cons_self
      unfold bracketEdges
      apply (realEdges_yields scheme split si later).bind
      intro real pairs
      apply (ih (fun slot listed => known slot (List.mem_cons_of_mem si listed)) rest).bind
      intro edges others
      apply Yields.ok
      intro e listed
      rcases List.mem_append.mp listed with listed | listed
      · rcases List.mem_append.mp listed with listed | listed
        · obtain ⟨sj, there, meets, low, high⟩ := pairs e listed
          rw [low, high]
          exact ⟨first sj there, si.player, here, .inl ⟨sj.player,
            known sj (List.mem_cons_of_mem si there), meets⟩⟩
        · unfold dummyEdges at listed
          split at listed
          · rename_i offered
            rw [Bool.and_eq_true] at offered
            rw [List.mem_singleton.mp listed]
            exact ⟨(List.getElem?_eq_some_iff.mp here).1, si.player, here,
              .inr ⟨rfl, offered.1, offered.2⟩⟩
          · cases listed
      · exact others e listed

end Edges

section Reading

/-- The mates of a result, as a function. -/
def mateOf (mates : List (Option Nat)) (v : Nat) : Option Nat := (mates[v]?).join

/-- What has been read off the mates of some slots. -/
structure Reading (players : List SwissPlayer) (mate : Nat → Option Nat) (isLast : Bool)
    (vertices : List Nat) (found result : BracketResult) : Prop where
  sides : sides result.pairs =
    sides found.pairs ++ (pairEnds players.length mate vertices).filterMap (players[·]?)
  floaters : result.floaters =
    found.floaters ++ (singles mate vertices).filterMap (players[·]?)
  pab : result.pab =
    ((outers players.length mate vertices).filterMap (players[·]?)).getLast?.or found.pab
  meets : ∀ pair ∈ result.pairs, pair ∈ found.pairs ∨
    ∃ v w, mate v = some w ∧ v < w ∧ players[v]? = some pair.1 ∧ players[w]? = some pair.2
  last : isLast = true → singles mate vertices = []

section Slot

variable {players : List SwissPlayer} {isLast : Bool} {found result : BracketResult}
  {mate : Nat → Option Nat} {v : Nat} {vertices : List Nat} {player : SwissPlayer}

theorem Reading.nil : Reading players mate isLast [] found found where
  sides := (List.append_nil _).symm
  floaters := (List.append_nil _).symm
  pab := rfl
  meets _ listed := .inl listed
  last _ := rfl

theorem Reading.single (here : players[v]? = some player) (alone : mate v = none)
    (early : isLast = false)
    (rest : Reading players mate isLast vertices
      { found with floaters := found.floaters ++ [player] } result) :
    Reading players mate isLast (v :: vertices) found result where
  sides := by
    rw [pairEnds_other (by simp [isFirst, alone])]
    exact rest.sides
  floaters := by
    rw [singles_single alone, List.filterMap_cons_some here, rest.floaters, List.append_assoc]
    rfl
  pab := by
    rw [outers_other (by simp [isOuter, alone])]
    exact rest.pab
  meets := rest.meets
  last late := by rw [early] at late; cases late

theorem Reading.outer (here : players[v]? = some player) (matched : mate v = some players.length)
    (rest : Reading players mate isLast vertices { found with pab := some player } result) :
    Reading players mate isLast (v :: vertices) found result where
  sides := by
    rw [pairEnds_other (by simp [isFirst, matched])]
    exact rest.sides
  floaters := by
    rw [singles_other matched]
    exact rest.floaters
  pab := by
    rw [rest.pab, outers_outer (by simp [isOuter, matched]), List.filterMap_cons_some here,
      List.getLast?_cons]
    cases ((outers players.length mate vertices).filterMap (players[·]?)).getLast? with
    | none => rfl
    | some last => rfl
  meets := rest.meets
  last late := by
    rw [singles_other matched]
    exact rest.last late

theorem Reading.first {w : Nat} {other : SwissPlayer} (here : players[v]? = some player)
    (matched : mate v = some w) (below : v < w) (there : players[w]? = some other)
    (rest : Reading players mate isLast vertices
      { found with pairs := found.pairs ++ [(player, other)] } result) :
    Reading players mate isLast (v :: vertices) found result where
  sides := by
    have inside := (List.getElem?_eq_some_iff.mp there).1
    rw [rest.sides, pairEnds_first (isFirst_iff.mpr ⟨w, matched, below, inside⟩),
      List.filterMap_append]
    have both : (ends mate v).filterMap (players[·]?) = [player, other] := by
      simp [ends, matched, here, there]
    rw [both]
    simp [Swiss.sides]
  floaters := by
    rw [singles_other matched]
    exact rest.floaters
  pab := by
    have inside := (List.getElem?_eq_some_iff.mp there).1
    rw [outers_other (by simp [isOuter, matched, inside])]
    exact rest.pab
  meets pair listed := by
    rcases rest.meets pair listed with before | later
    · rcases List.mem_append.mp before with before | now
      · exact .inl before
      · rw [List.mem_singleton.mp now]
        exact .inr ⟨v, w, matched, below, here, there⟩
    · exact .inr later
  last late := by
    rw [singles_other matched]
    exact rest.last late

theorem Reading.second {w : Nat} (here : players[v]? = some player)
    (matched : mate v = some w) (above : w ≤ v)
    (rest : Reading players mate isLast vertices found result) :
    Reading players mate isLast (v :: vertices) found result where
  sides := by
    rw [pairEnds_other (by simp only [isFirst, matched, Option.any_some]; simp; omega)]
    exact rest.sides
  floaters := by
    rw [singles_other matched]
    exact rest.floaters
  pab := by
    have inside := (List.getElem?_eq_some_iff.mp here).1
    rw [outers_other (by simp only [isOuter, matched, Option.any_some]; simp; omega)]
    exact rest.pab
  meets := rest.meets
  last late := by
    rw [singles_other matched]
    exact rest.last late

end Slot

variable {players : List SwissPlayer} {mates : List (Option Nat)} {isLast withDummy : Bool}
  {carriedCount : Nat}

/-- The loop over the slots reads off every mate. -/
theorem readMatching_yields (slots : List BracketSlot) (found : BracketResult)
    (known : ∀ slot ∈ slots, players[slot.bsn]? = some slot.player) :
    Yields NotIntegrity (fun result => ∀ r, result = some r →
        Reading players (mateOf mates) isLast (slots.map BracketSlot.bsn) found r)
      (readMatching (bracketSlots players carriedCount) mates isLast withDummy slots found) := by
  induction slots generalizing found with
  | nil =>
      apply Yields.ok
      intro r same
      cases same
      exact .nil
  | cons slot slots ih =>
      have here := known slot List.mem_cons_self
      have later := fun slot listed => known slot (List.mem_cons_of_mem _ listed)
      unfold readMatching
      cases stored : mates[slot.bsn]? with
      | none => exact .error trivial
      | some mate =>
          have read : mateOf mates slot.bsn = mate := by rw [mateOf, stored]; rfl
          cases mate with
          | none =>
              cases isLast with
              | true =>
                  apply Yields.ok
                  intro r same
                  cases same
              | false =>
                  apply (ih _ later).mono
                  intro result rest r same
                  exact .single here read rfl (rest r same)
          | some m =>
              dsimp only
              split
              · rename_i outer
                apply (ih _ later).mono
                intro result rest r same
                rw [show m = players.length by simpa [bracketSlots] using outer.2] at read
                exact .outer here read (rest r same)
              · split
                · rename_i below
                  rw [bracketSlots_get]
                  cases there : players[m]? with
                  | none => exact .error trivial
                  | some other =>
                      apply (ih _ later).mono
                      intro result rest r same
                      exact .first here read below there (rest r same)
                · rename_i above
                  apply (ih _ later).mono
                  intro result rest r same
                  exact .second here read (by omega) (rest r same)

end Reading

section Brackets

variable {players : List SwissPlayer} {isLast withDummy : Bool}

theorem filterMap_range (players : List SwissPlayer) :
    (List.range players.length).filterMap (players[·]?) = players := by
  induction players with
  | nil => rfl
  | cons player players ih =>
      rw [List.length_cons, List.range_succ_eq_map, List.filterMap_cons, List.filterMap_map]
      exact congrArg (player :: ·) ih

/-- What holds of the mates that the matching of a bracket returns. -/
structure BracketMates (players : List SwissPlayer) (withDummy : Bool)
    (mate : Nat → Option Nat) : Prop where
  symmetric : Symmetric mate
  edge : ∀ v w, mate v = some w → v < w → Edge players withDummy v w

namespace BracketMates

variable {mate : Nat → Option Nat} (bracket : BracketMates players withDummy mate)

include bracket

theorem meets {v w : Nat} {a b : SwissPlayer} (matched : mate v = some w) (below : v < w)
    (here : players[v]? = some a) (there : players[w]? = some b) : canMeet a b = true := by
  obtain ⟨_, a', here', meets | bye⟩ := bracket.edge v w matched below
  · obtain ⟨b', there', may⟩ := meets
    rw [here] at here'
    rw [there] at there'
    cases here'
    cases there'
    exact may
  · have inside := (List.getElem?_eq_some_iff.mp there).1
    omega

theorem outer_bye {v w : Nat} {a : SwissPlayer} (matched : mate v = some w)
    (outer : players.length ≤ w) (here : players[v]? = some a) :
    w = players.length ∧ withDummy = true ∧ a.pabEligible = true := by
  have inside := (List.getElem?_eq_some_iff.mp here).1
  obtain ⟨_, a', here', meets | bye⟩ := bracket.edge v w matched (by omega)
  · obtain ⟨b, there, _⟩ := meets
    have := (List.getElem?_eq_some_iff.mp there).1
    omega
  · rw [here] at here'
    cases here'
    exact bye

end BracketMates

theorem ListedMates.bracket {vertexCount : Nat} {edges : List WeightedEdge}
    {mates : List (Option Nat)} (listed : Blossom.ListedMates vertexCount edges mates)
    (known : ∀ e ∈ edges, Edge players withDummy e.u e.v) :
    BracketMates players withDummy (mateOf mates) := by
  have read : ∀ v w, mateOf mates v = some w → mates[v]? = some (some w) := by
    intro v w mate
    exact Option.join_eq_some_iff.mp mate
  have ordered : ∀ v w, mateOf mates v = some w →
      Edge players withDummy v w ∨ Edge players withDummy w v := by
    intro v w mate
    obtain ⟨e, here, ⟨one, two⟩ | ⟨one, two⟩⟩ := listed.adjacent v w (read v w mate)
    · left
      rw [← one, ← two]
      exact known e here
    · right
      rw [← one, ← two]
      exact known e here
  refine ⟨⟨?_, ?_⟩, ?_⟩
  · intro v w mate
    exact Option.join_eq_some_iff.mpr (listed.symmetric v w (read v w mate))
  · intro v w mate same
    rcases ordered v w mate with edge | edge
    · have := edge.1
      omega
    · have := edge.1
      omega
  · intro v w mate below
    rcases ordered v w mate with edge | edge
    · exact edge
    · have := edge.1
      omega

/-- The result that is read off a matching of the bracket is sound. -/
theorem Reading.sound {mate : Nat → Option Nat} {r : BracketResult}
    (bracket : BracketMates players withDummy mate)
    (reading : Reading players mate isLast (List.range players.length) ⟨[], [], none⟩ r) :
    Sound players r ∧ (isLast = true → r.floaters = []) ∧
      (withDummy = false → r.pab = none) := by
  have outerBye : ∀ v ∈ outers players.length mate (List.range players.length),
      ∃ a, players[v]? = some a ∧ withDummy = true ∧ a.pabEligible = true := by
    intro v listed
    obtain ⟨here, outer⟩ := List.mem_filter.mp listed
    obtain ⟨w, matched, beyond⟩ := isOuter_iff.mp outer
    have found := List.getElem?_eq_getElem (List.mem_range.mp here)
    have bye := bracket.outer_bye matched beyond found
    exact ⟨_, found, bye.2⟩
  have bound : ∀ v ∈ List.range players.length, ∀ w, mate v = some w → w ≤ players.length := by
    intro v here w matched
    by_cases inside : w < players.length
    · omega
    · have found := List.getElem?_eq_getElem (List.mem_range.mp here)
      have := (bracket.outer_bye matched (by omega) found).1
      omega
  have few := outers_length bracket.symmetric List.nodup_range bound
  have pab : r.pab.toList =
      (outers players.length mate (List.range players.length)).filterMap (players[·]?) := by
    rw [reading.pab, Option.or_none]
    match listed : outers players.length mate (List.range players.length) with
    | [] => rfl
    | [v] =>
        obtain ⟨a, found, _⟩ := outerBye v (by rw [listed]; exact List.mem_cons_self)
        rw [List.filterMap_cons_some found]
        rfl
    | _ :: _ :: _ =>
        rw [listed] at few
        exact absurd few (by simp)
  refine ⟨⟨?_, ?_, ?_⟩, ?_, ?_⟩
  · rw [reading.sides, reading.floaters, pab]
    have covered := (pairEnds_perm (n := players.length) bracket.symmetric).filterMap (players[·]?)
    rw [List.filterMap_append, List.filterMap_append, filterMap_range] at covered
    exact covered
  · intro pair listed
    rcases reading.meets pair listed with before | ⟨v, w, matched, below, here, there⟩
    · cases before
    · exact bracket.meets matched below here there
  · intro p given
    have listed : p ∈ r.pab.toList := by rw [given]; exact List.mem_cons_self
    rw [pab] at listed
    obtain ⟨v, outer, found⟩ := List.mem_filterMap.mp listed
    obtain ⟨a, found', _, eligible⟩ := outerBye v outer
    rw [found] at found'
    cases found'
    exact eligible
  · intro late
    rw [reading.floaters, reading.last late]
    rfl
  · intro without
    cases given : r.pab with
    | none => rfl
    | some p =>
        have listed : p ∈ r.pab.toList := by rw [given]; exact List.mem_cons_self
        rw [pab] at listed
        obtain ⟨v, outer, _⟩ := List.mem_filterMap.mp listed
        obtain ⟨a, _, offered, _⟩ := outerBye v outer
        rw [without] at offered
        cases offered

/-- A bracket that is completed is sound; only the last one has no floaters and may give a
bye. -/
abbrev Completed (players : List SwissPlayer) (isLast withDummy : Bool)
    (result : Option BracketResult) : Prop :=
  ∀ r, result = some r → Sound players r ∧ (isLast = true → r.floaters = []) ∧
    (withDummy = false → r.pab = none)

theorem matchBracket_yields (scheme : WeightScheme) (carriedCount : Nat) :
    Yields NotIntegrity (Completed players isLast withDummy)
      (matchBracket players carriedCount scheme isLast withDummy) := by
  unfold matchBracket
  apply (bracketEdges_yields scheme _ _
    (fun slot listed => bracketSlots_player listed)
    (bracketSlots_ordered players carriedCount)).bind
  intro edges known
  have mated := Blossom.maximumWeightMatching_listed
    (players.length + if withDummy = true then 1 else 0) edges
  apply (mated.excuse internal_notIntegrity).bind
  intro mates listed
  have bracket := ListedMates.bracket listed known
  apply (readMatching_yields (bracketSlots players carriedCount) ⟨[], [], none⟩
    fun slot listed => bracketSlots_player listed).bind
  intro result reading
  cases result with
  | none =>
      apply Yields.ok
      intro r same
      cases same
  | some found =>
      have sound := reading found rfl
      rw [bracketSlots_bsn] at sound
      apply Yields.ok
      intro r same
      split at same
      · cases same
      · cases same
        exact sound.sound bracket

theorem sides_zip {first second : List SwissPlayer} (same : first.length = second.length) :
    (sides (first.zip second)).Perm (first ++ second) := by
  induction first generalizing second with
  | nil =>
      rw [List.length_eq_zero_iff.mp same.symm]
      exact .nil
  | cons a first ih =>
      cases second with
      | nil => cases same
      | cons b second =>
          have rest := ih (Nat.succ.inj same)
          change (a :: b :: sides (first.zip second)).Perm (a :: (first ++ b :: second))
          exact ((rest.cons b).trans List.perm_middle.symm).cons a

theorem straight_sound {scheme : WeightScheme} {pairs : List (SwissPlayer × SwissPlayer)}
    (even : players.length % 2 = 0) (straight : tryStraightCandidate players scheme = some pairs) :
    Sound players ⟨pairs, [], none⟩ := by
  unfold tryStraightCandidate at straight
  dsimp only at straight
  split at straight
  · rename_i fits
    cases straight
    refine ⟨?_, ?_, ?_⟩
    · have half : (players.take (players.length / 2)).length =
          (players.drop (players.length / 2)).length := by
        rw [List.length_take, List.length_drop]
        omega
      have covered := sides_zip half
      rw [List.take_append_drop] at covered
      simpa using covered
    · intro pair listed
      have fit := List.all_eq_true.mp fits pair listed
      unfold straightPair at fit
      exact (Bool.and_eq_true_iff.mp fit).1
    · intro p given
      cases given
  · cases straight

theorem pairBracket_yields (scheme : WeightScheme) (carriedCount : Nat) :
    Yields NotIntegrity (Completed players isLast withDummy)
      (pairBracket players carriedCount scheme isLast withDummy) := by
  unfold pairBracket
  split
  · rename_i empty
    apply Yields.ok
    intro r same
    split at same
    · cases same
    · cases same
      rw [List.length_eq_zero_iff.mp empty]
      exact ⟨⟨.nil, fun _ listed => (List.not_mem_nil listed).elim, fun _ given => by cases given⟩,
        fun _ => rfl, fun _ => rfl⟩
  · dsimp only
    split
    · rename_i pairs straight
      apply Yields.ok
      intro r same
      cases same
      split at straight
      · rename_i plain
        exact ⟨straight_sound plain.2.2.1 straight, fun _ => rfl, fun _ => rfl⟩
      · cases straight
    · exact matchBracket_yields scheme carriedCount

/-- Everyone is in one pair or has the bye, the pairs may meet and the bye may be given. -/
structure Covered (players : List SwissPlayer) (pairs : List (SwissPlayer × SwissPlayer))
    (pab : Option SwissPlayer) : Prop where
  once : (sides pairs ++ pab.toList).Perm players
  meets : ∀ pair ∈ pairs, canMeet pair.1 pair.2 = true
  eligible : ∀ p, pab = some p → p.pabEligible = true

theorem Covered.inside {players : List SwissPlayer} {pairs : List (SwissPlayer × SwissPlayer)}
    {pab : Option SwissPlayer} (covered : Covered players pairs pab)
    {pair : SwissPlayer × SwissPlayer} (listed : pair ∈ pairs) :
    pair.1 ∈ players ∧ pair.2 ∈ players := by
  have inside : ∀ p ∈ [pair.1, pair.2], p ∈ players := by
    intro p side
    apply covered.once.mem_iff.mp
    exact List.mem_append_left _ (List.mem_flatMap.mpr ⟨pair, listed, side⟩)
  exact ⟨inside pair.1 List.mem_cons_self, inside pair.2 (List.mem_cons_of_mem _ List.mem_cons_self)⟩

/-- The pairs so far and the pairs of the brackets to come cover everyone. -/
theorem attemptFrom_yields (scheme : WeightScheme) (needPab : Bool)
    (groups : List (List SwissPlayer)) (carried : List SwissPlayer) (found : BracketResult)
    (filled : groups ≠ []) (notYet : found.pab = none)
    (meets : ∀ pair ∈ found.pairs, canMeet pair.1 pair.2 = true) :
    Yields NotIntegrity (fun result => ∀ r, result = some r →
        Covered (sides found.pairs ++ (carried ++ groups.flatten)) r.pairs r.pab)
      (attemptFrom scheme needPab groups carried found) := by
  induction groups generalizing carried found with
  | nil => exact absurd rfl filled
  | cons residents rest ih =>
      unfold attemptFrom
      apply (pairBracket_yields scheme carried.length).bind
      intro result completed
      cases result with
      | none =>
          apply Yields.ok
          intro r same
          cases same
      | some result =>
          obtain ⟨sound, bottom, plain⟩ := completed result rfl
          have both : ∀ pair ∈ found.pairs ++ result.pairs, canMeet pair.1 pair.2 = true := by
            intro pair listed
            rcases List.mem_append.mp listed with before | now
            · exact meets pair before
            · exact sound.meets pair now
          have joined : sides (found.pairs ++ result.pairs) =
              sides found.pairs ++ sides result.pairs := List.flatMap_append
          cases rest with
          | nil =>
              have once := sound.once
              rw [bottom rfl, List.nil_append] at once
              apply Yields.ok
              intro r same
              cases same
              refine ⟨?_, both, ?_⟩
              · rw [notYet, Option.or_none, joined, List.append_assoc, List.flatten_cons,
                  List.flatten_nil, List.append_nil]
                exact once.append_left _
              · intro p given
                rw [notYet, Option.or_none] at given
                exact sound.eligible p given
          | cons next rest =>
              have once := sound.once
              rw [plain rfl, Option.toList_none, List.append_nil] at once
              have notStill : (result.pab.or found.pab) = none := by
                rw [plain rfl, notYet]
                rfl
              apply (ih result.floaters
                { found with pairs := found.pairs ++ result.pairs, pab := result.pab.or found.pab }
                (List.cons_ne_nil next rest) notStill both).mono
              intro later covered r same
              have here := covered r same
              refine ⟨here.once.trans ?_, here.meets, here.eligible⟩
              have order : sides (found.pairs ++ result.pairs) ++
                  (result.floaters ++ (next :: rest).flatten) =
                  sides found.pairs ++ ((sides result.pairs ++ result.floaters) ++
                    (next :: rest).flatten) := by
                rw [joined]
                simp only [List.append_assoc]
              change (sides (found.pairs ++ result.pairs) ++
                (result.floaters ++ (next :: rest).flatten)).Perm _
              rw [order, List.flatten_cons (l := residents), ← List.append_assoc carried]
              exact (once.append_right _).append_left _

theorem mergeLastTwo_yields (groups : List (List SwissPlayer)) :
    Yields NotIntegrity (fun merged => merged.flatten = groups.flatten ∧ merged ≠ [])
      (mergeLastTwo groups) := by
  unfold mergeLastTwo
  split
  · rename_i last beforeLast head turned
    have order : groups = head.reverse ++ [beforeLast, last] := by
      rw [← List.reverse_reverse groups, turned]
      simp
    apply Yields.ok
    rw [order]
    exact ⟨by simp, by simp⟩
  · exact .error trivial

theorem pairGroups_yields (scheme : WeightScheme) (needPab : Bool) (roundId : RoundId)
    (count fuel : Nat) (groups : List (List SwissPlayer)) (mergeCount : Nat)
    (filled : groups ≠ []) :
    Yields NotIntegrity (fun outcome => Covered groups.flatten outcome.pairs outcome.pab)
      (pairGroups scheme needPab roundId count fuel groups mergeCount) := by
  induction fuel generalizing groups mergeCount with
  | zero => exact .error trivial
  | succ fuel ih =>
      unfold pairGroups
      apply (attemptFrom_yields scheme needPab groups [] ⟨[], [], none⟩ filled rfl
        fun _ listed => (List.not_mem_nil listed).elim).bind
      intro outcome covered
      cases outcome with
      | some found => exact .ok (covered found rfl)
      | none =>
          dsimp only
          split
          · exact .error trivial
          · apply (mergeLastTwo_yields groups).bind
            intro merged ⟨same, filled⟩
            rw [← same]
            exact ih merged _ filled

/-- The pairs and the bye of a round cover the players. -/
theorem pairAllBrackets_yields (scheme : WeightScheme) (needPab : Bool) (roundId : RoundId)
    (filled : players ≠ []) :
    Yields NotIntegrity (fun outcome => Covered players outcome.pairs outcome.pab)
      (pairAllBrackets players scheme needPab roundId) := by
  have joined : (groupByScore players).flatten = players := List.flatten_splitBy _ _
  have groups : groupByScore players ≠ [] := by
    intro none
    rw [none] at joined
    exact filled joined.symm
  have covered := pairGroups_yields scheme needPab roundId players.length
    ((groupByScore players).length + 1) (groupByScore players) 0 groups
  rw [joined] at covered
  exact covered

end Brackets

end Farzin.Swiss
