import Farzin.SwissBracketsCover
import Farzin.SwissColorBounds
import Farzin.SwissEngine

set_option autoImplicit false

/- What the engine returns from consistent states: everyone is paired once with somebody new and
within the colour bounds, so the final check never fails. -/
namespace Farzin.Swiss

open Checked

/-- The states of a round: players known apart, opponents in both directions, and a colour left
for everyone. -/
structure Consistent (players : List PlayerPairingState) : Prop where
  distinct : (players.map PlayerPairingState.playerId).Nodup
  mutually : ∀ p ∈ players, ∀ q ∈ players,
    q.playerId ∈ p.opponentIds → p.playerId ∈ q.opponentIds
  playable : ∀ p ∈ players, Playable p.colorHistory

section Prepared

/-- A player as the engine prepares it. -/
structure Prepared (p : SwissPlayer) : Prop where
  colorDiff : p.colorDiff = colorDifference p.state.colorHistory
  pref : p.pref = colorPreferenceOf p.state.colorHistory
  pabEligible : p.pabEligible = !p.state.hasReceivedBye

theorem prepareSwissPlayers_prepared {states : List PlayerPairingState}
    {roundNumber totalRounds : Int} {p : SwissPlayer}
    (listed : p ∈ prepareSwissPlayers states roundNumber totalRounds) : Prepared p := by
  obtain ⟨i, inside, same⟩ := List.mem_mapIdx.mp listed
  rw [← same]
  exact ⟨rfl, rfl, rfl⟩

theorem prepareSwissPlayers_states (states : List PlayerPairingState)
    (roundNumber totalRounds : Int) :
    (prepareSwissPlayers states roundNumber totalRounds).map SwissPlayer.state = states := by
  apply List.ext_getElem?
  intro i
  unfold prepareSwissPlayers
  rw [List.getElem?_map, List.getElem?_mapIdx, Option.map_map]
  exact Option.map_id_apply

theorem prepareSwissPlayers_topscorer {states : List PlayerPairingState}
    {roundNumber totalRounds : Int} (early : roundNumber < totalRounds) {p : SwissPlayer}
    (listed : p ∈ prepareSwissPlayers states roundNumber totalRounds) : p.isTopscorer = false := by
  obtain ⟨i, inside, same⟩ := List.mem_mapIdx.mp listed
  rw [← same]
  have apart : roundNumber ≠ totalRounds := by omega
  simp [prepareSwissPlayer, apart]

theorem colorOutcomeFlags_allowed {p : SwissPlayer} (prepared : Prepared p) {got : Color}
    (allowed : Allowed p.state.colorHistory got) : colorOutcomeFlags p got = ⟨false, false⟩ := by
  unfold colorOutcomeFlags
  dsimp only
  rw [prepared.colorDiff]
  congr 1
  · exact decide_eq_false (Nat.not_lt.mpr allowed.1)
  · exact decide_eq_false allowed.2

end Prepared

section Coloring

variable {a b : SwissPlayer} {initialColor : Color}

theorem canMeet_iff : canMeet a b = true ↔ b.state.playerId ∉ a.state.opponentIds ∧
    ¬(a.isTopscorer = false ∧ b.isTopscorer = false ∧ a.pref.strength = .absolute ∧
      b.pref.strength = .absolute ∧ a.pref.color = b.pref.color) := by
  unfold canMeet
  split
  · rename_i met
    simp [met]
  · rename_i new
    split
    · rename_i same
      simp [same]
    · rename_i apart
      exact ⟨fun _ => ⟨new, apart⟩, fun _ => rfl⟩

/-- A preference that is satisfied if it is absolute gives an allowed colour. -/
theorem allowed_of_satisfied {p : SwissPlayer} (prepared : Prepared p)
    (playable : Playable p.state.colorHistory) {got : Color}
    (satisfied : p.pref.strength = .absolute → p.pref.color = some got) :
    Allowed p.state.colorHistory got := by
  rw [prepared.pref] at satisfied
  by_cases absolute : (colorPreferenceOf p.state.colorHistory).strength = .absolute
  · exact playable.absolute absolute (satisfied absolute)
  · exact relative_allowed absolute got

/-- The colours of a pair that may meet stay within the bounds, unless a topscorer plays. -/
theorem colorPair_allowed (initialColor : Color) (preparedA : Prepared a) (preparedB : Prepared b)
    (playableA : Playable a.state.colorHistory) (playableB : Playable b.state.colorHistory)
    (meets : canMeet a b = true) (plainA : a.isTopscorer = false) (plainB : b.isTopscorer = false) :
    Allowed (colorPair initialColor (a, b)).white.state.colorHistory .white ∧
      Allowed (colorPair initialColor (a, b)).black.state.colorHistory .black := by
  have apart : ¬((toAllocationSide a).pref.strength = .absolute ∧
      (toAllocationSide b).pref.strength = .absolute ∧
      (toAllocationSide a).pref.color = (toAllocationSide b).pref.color) :=
    fun same => (canMeet_iff.mp meets).2 ⟨plainA, plainB, same⟩
  have colored : ∀ p : SwissPlayer, Prepared p → (toAllocationSide p).pref.strength = .absolute →
      ∃ color, (toAllocationSide p).pref.color = some color := by
    intro p prepared absolute
    change p.pref.strength = _ at absolute
    change ∃ color, p.pref.color = _
    rw [prepared.pref] at absolute ⊢
    exact absolute_color absolute
  have satisfied := allocateColors_satisfies initialColor
    (colored a preparedA) (colored b preparedB) apart
  unfold colorPair
  dsimp only
  unfold firstColor at satisfied
  split
  · rename_i first
    rw [if_pos first] at satisfied
    exact ⟨allowed_of_satisfied preparedA playableA satisfied.1,
      allowed_of_satisfied preparedB playableB satisfied.2⟩
  · rename_i second
    rw [if_neg second] at satisfied
    exact ⟨allowed_of_satisfied preparedB playableB satisfied.2,
      allowed_of_satisfied preparedA playableA satisfied.1⟩

theorem colorPair_sides (initialColor : Color) (pair : SwissPlayer × SwissPlayer) :
    (colorPair initialColor pair).sides.Perm [pair.1, pair.2] := by
  unfold colorPair
  dsimp only
  split
  · exact .refl _
  · exact .swap _ _ _

theorem sortBoards_sides (initialColor : Color) (pairs : List (SwissPlayer × SwissPlayer)) :
    ((sortBoards (pairs.map (colorPair initialColor))).flatMap ColoredPair.sides).Perm
      (sides pairs) := by
  have sorted : (sortBoards (pairs.map (colorPair initialColor))).Perm
      (pairs.map (colorPair initialColor)) := List.perm_insertionSort _ _
  refine (sorted.flatMap_right _).trans ?_
  rw [List.flatMap_map]
  exact List.Perm.flatMap_left pairs fun pair _ => colorPair_sides initialColor pair

end Coloring

section Verification

variable {roundId : RoundId}

/-- The ids of some players. -/
abbrev ids (players : List SwissPlayer) : List PlayerId :=
  players.map fun p => p.state.playerId

theorem take_new {place : String} {seen : List PlayerId} {p : SwissPlayer}
    (new : p.state.playerId ∉ seen) :
    take roundId place seen p = .ok (p.state.playerId :: seen) := if_neg new

/-- What the check asks of one pair. -/
structure PairFits (pair : ColoredPair) : Prop where
  prepared : ∀ p ∈ pair.sides, Prepared p
  newWhite : pair.black.state.playerId ∉ pair.white.state.opponentIds
  newBlack : pair.white.state.playerId ∉ pair.black.state.opponentIds
  allowed : pair.white.isTopscorer = false → pair.black.isTopscorer = false →
    Allowed pair.white.state.colorHistory .white ∧ Allowed pair.black.state.colorHistory .black

theorem verifyColor_allowed {p : SwissPlayer} {got : Color} (prepared : Prepared p)
    (allowed : Allowed p.state.colorHistory got) : verifyColor roundId p got = .ok () := by
  unfold verifyColor
  rw [colorOutcomeFlags_allowed prepared allowed]
  rfl

theorem PairFits.colors {pair : ColoredPair} (fits : PairFits pair) :
    verifyColors roundId pair = .ok () := by
  unfold verifyColors
  split
  · rfl
  · rename_i plain
    rw [Bool.or_eq_true, not_or, Bool.not_eq_true, Bool.not_eq_true] at plain
    have allowed := fits.allowed plain.1 plain.2
    rw [verifyColor_allowed (fits.prepared _ List.mem_cons_self) allowed.1, ok_bind]
    exact verifyColor_allowed
      (fits.prepared _ (List.mem_cons_of_mem _ List.mem_cons_self)) allowed.2

theorem PairFits.pair {pair : ColoredPair} (fits : PairFits pair) {seen : List PlayerId}
    (apart : (ids pair.sides ++ seen).Nodup) :
    verifyPair roundId seen pair =
      .ok (pair.black.state.playerId :: pair.white.state.playerId :: seen) := by
  change (pair.white.state.playerId :: pair.black.state.playerId :: seen).Nodup at apart
  obtain ⟨white, rest⟩ := List.nodup_cons.mp apart
  obtain ⟨black, _⟩ := List.nodup_cons.mp rest
  have whiteNew : pair.white.state.playerId ∉ seen := fun here =>
    white (List.mem_cons_of_mem _ here)
  have blackNew : pair.black.state.playerId ∉ pair.white.state.playerId :: seen := by
    intro here
    rcases List.mem_cons.mp here with same | here
    · exact white (by rw [same]; exact List.mem_cons_self)
    · exact black here
  have repeats : verifyRepeat roundId pair = .ok () :=
    if_neg (not_or.mpr ⟨fits.newWhite, fits.newBlack⟩)
  unfold verifyPair
  rw [take_new whiteNew, ok_bind, take_new blackNew, ok_bind, repeats, ok_bind, fits.colors]
  rfl

/-- The loop over the pairs sees all their players. -/
theorem verifyPairs_ok (roundId : RoundId) (pairs : List ColoredPair) (seen : List PlayerId)
    (fits : ∀ pair ∈ pairs, PairFits pair)
    (apart : (ids (pairs.flatMap ColoredPair.sides) ++ seen).Nodup) :
    ∃ after, pairs.foldlM (verifyPair roundId) seen = .ok after ∧
      after.Perm (ids (pairs.flatMap ColoredPair.sides) ++ seen) := by
  induction pairs generalizing seen with
  | nil => exact ⟨seen, rfl, .refl _⟩
  | cons pair pairs ih =>
      rw [List.flatMap_cons] at apart
      have split : ids (pair.sides ++ pairs.flatMap ColoredPair.sides) ++ seen =
          pair.white.state.playerId :: pair.black.state.playerId ::
            (ids (pairs.flatMap ColoredPair.sides) ++ seen) := rfl
      rw [split] at apart
      have moved : (pair.white.state.playerId :: pair.black.state.playerId ::
          (ids (pairs.flatMap ColoredPair.sides) ++ seen)).Perm
          (ids (pairs.flatMap ColoredPair.sides) ++
            pair.black.state.playerId :: pair.white.state.playerId :: seen) := by
        refine (List.Perm.swap _ _ _).trans ?_
        refine ((List.perm_middle (a := pair.white.state.playerId)).symm.cons _).trans ?_
        exact (List.perm_middle (a := pair.black.state.playerId)).symm
      have first : (ids pair.sides ++ seen).Nodup :=
        List.Nodup.sublist (((List.sublist_append_right _ seen).cons_cons _).cons_cons _) apart
      have rest := moved.nodup_iff.mp apart
      obtain ⟨after, ran, seenAll⟩ := ih _ (fun other listed =>
        fits other (List.mem_cons_of_mem pair listed)) rest
      refine ⟨after, ?_, ?_⟩
      · rw [List.foldlM_cons, (fits pair List.mem_cons_self).pair first, ok_bind]
        exact ran
      · rw [List.flatMap_cons, split]
        exact seenAll.trans moved.symm

/-- The final check passes when everyone occurs once, all pairs fit and the bye may be given. -/
theorem verifyAbsoluteCriteria_ok (roundId : RoundId) {players : List SwissPlayer} {pairs : List ColoredPair}
    {pab : Option SwissPlayer} (distinct : (ids players).Nodup)
    (once : (pairs.flatMap ColoredPair.sides ++ pab.toList).Perm players)
    (fits : ∀ pair ∈ pairs, PairFits pair)
    (eligible : ∀ p, pab = some p → p.pabEligible = true) :
    verifyAbsoluteCriteria roundId players pairs pab = .ok () := by
  have everyone : (ids (pairs.flatMap ColoredPair.sides ++ pab.toList)).Perm (ids players) :=
    once.map _
  have apart := everyone.nodup_iff.mpr distinct
  have paired : (ids (pairs.flatMap ColoredPair.sides) ++ []).Nodup := by
    rw [List.append_nil]
    exact List.Nodup.sublist ((List.sublist_append_left _ _).map _) apart
  obtain ⟨seen, ran, seenPairs⟩ := verifyPairs_ok roundId pairs [] fits paired
  rw [List.append_nil] at seenPairs
  have bye : ∃ after, verifyBye roundId seen pab = .ok after ∧ after.Perm (ids players) := by
    cases pab with
    | none =>
        refine ⟨seen, rfl, seenPairs.trans ?_⟩
        rw [Option.toList_none, List.append_nil] at everyone
        exact everyone
    | some p =>
        have last : (ids (pairs.flatMap ColoredPair.sides) ++ [p.state.playerId]).Perm
            (p.state.playerId :: seen) :=
          (List.perm_append_singleton _ _).trans (seenPairs.symm.cons _)
        rw [Option.toList_some, ids, List.map_append] at everyone apart
        have new : p.state.playerId ∉ seen :=
          (List.nodup_cons.mp (last.nodup_iff.mp apart)).1
        refine ⟨p.state.playerId :: seen, ?_, last.symm.trans everyone⟩
        unfold verifyBye
        dsimp only
        rw [take_new new, ok_bind, if_pos (eligible p rfl)]
        rfl
  obtain ⟨all, ranBye, seenAll⟩ := bye
  have length : all.length = players.length := by
    rw [seenAll.length_eq, List.length_map]
  unfold verifyAbsoluteCriteria
  rw [ran, ok_bind, ranBye, ok_bind, if_neg (not_not.mpr length)]
  apply forM_ok
  intro p listed
  exact if_pos (seenAll.mem_iff.mpr (List.mem_map_of_mem listed))

end Verification

section Engine

/-- What a finished round is, for the states it was made from. -/
structure Paired (request : PairingRequest) (result : PairingResult) : Prop where
  inTime : 1 ≤ request.roundNumber ∧ request.roundNumber ≤ request.totalRounds
  once : result.playerIds.Perm ((request.players.filter
    fun p => isActive p request.roundNumber).map PlayerPairingState.playerId)
  pairs : ∀ pairing ∈ result.pairings, ∃ white ∈ request.players, ∃ black ∈ request.players,
    white.playerId = pairing.whitePlayerId ∧ black.playerId = pairing.blackPlayerId ∧
      black.playerId ∉ white.opponentIds ∧ white.playerId ∉ black.opponentIds ∧
      (request.roundNumber < request.totalRounds →
        Allowed white.colorHistory .white ∧ Allowed black.colorHistory .black)
  byes : ∀ bye ∈ result.byes, ∃ p ∈ request.players,
    p.playerId = bye.playerId ∧ p.hasReceivedBye = false

variable {states : List PlayerPairingState} (consistent : Consistent states)

theorem colorPair_cases (initialColor : Color) (a b : SwissPlayer) :
    colorPair initialColor (a, b) = ⟨a, b⟩ ∨ colorPair initialColor (a, b) = ⟨b, a⟩ := by
  unfold colorPair
  dsimp only
  split
  · exact .inl rfl
  · exact .inr rfl

include consistent

theorem pair_fits {a b : SwissPlayer} (initialColor : Color) (preparedA : Prepared a)
    (preparedB : Prepared b) (hereA : a.state ∈ states) (hereB : b.state ∈ states)
    (meets : canMeet a b = true) : PairFits (colorPair initialColor (a, b)) := by
  have newA := (canMeet_iff.mp meets).1
  have newB : a.state.playerId ∉ b.state.opponentIds := fun met =>
    newA (consistent.mutually _ hereB _ hereA met)
  have allowed := colorPair_allowed initialColor preparedA preparedB
    (consistent.playable _ hereA) (consistent.playable _ hereB) meets
  rcases colorPair_cases initialColor a b with first | second
  · rw [first] at allowed ⊢
    refine ⟨?_, newA, newB, allowed⟩
    intro p listed
    rcases List.mem_cons.mp listed with same | listed
    · rw [same]
      exact preparedA
    · rw [List.mem_singleton.mp listed]
      exact preparedB
  · rw [second] at allowed ⊢
    refine ⟨?_, newB, newA, fun plainB plainA => allowed plainA plainB⟩
    intro p listed
    rcases List.mem_cons.mp listed with same | listed
    · rw [same]
      exact preparedB
    · rw [List.mem_singleton.mp listed]
      exact preparedA

omit consistent

/-- The boards of a round, in order. -/
def boardsOf (colored : List ColoredPair) : List Pairing :=
  colored.mapIdx fun index (p : ColoredPair) =>
    { boardNumber := index + 1, whitePlayerId := p.white.state.playerId,
      blackPlayerId := p.black.state.playerId }

theorem boardsOf_ids (colored : List ColoredPair) :
    (boardsOf colored).flatMap (fun p => [p.whitePlayerId, p.blackPlayerId]) =
      ids (colored.flatMap ColoredPair.sides) := by
  have sidesOf : (boardsOf colored).map (fun p => (p.whitePlayerId, p.blackPlayerId)) =
      colored.map fun p => (p.white.state.playerId, p.black.state.playerId) := by
    apply List.ext_getElem?
    intro i
    unfold boardsOf
    rw [List.getElem?_map, List.getElem?_mapIdx, List.getElem?_map, Option.map_map]
    rfl
  have split : ∀ (boards : List Pairing), boards.flatMap
      (fun p => [p.whitePlayerId, p.blackPlayerId]) =
      (boards.map fun p => (p.whitePlayerId, p.blackPlayerId)).flatMap fun p => [p.1, p.2] := by
    intro boards
    rw [List.flatMap_map]
  rw [split, sidesOf, List.flatMap_map, ids, List.map_flatMap]
  rfl

/-- The ids on the boards and in the bye, in the order of the players. -/
theorem boards_playerIds (colored : List ColoredPair) (pab : Option SwissPlayer) :
    (boardsOf colored).flatMap (fun p => [p.whitePlayerId, p.blackPlayerId]) ++
        (pab.map pairingAllocatedBye).toList.map ByeAssignment.playerId =
      ids (colored.flatMap ColoredPair.sides ++ pab.toList) := by
  have byes : (pab.map pairingAllocatedBye).toList.map ByeAssignment.playerId =
      ids pab.toList := by
    cases pab with
    | none => rfl
    | some p => rfl
  rw [boardsOf_ids, byes, ids, ids, ids, List.map_append]

theorem boardsOf_pair {colored : List ColoredPair} {pairing : Pairing}
    (listed : pairing ∈ boardsOf colored) : ∃ pair ∈ colored,
      pairing.whitePlayerId = pair.white.state.playerId ∧
        pairing.blackPlayerId = pair.black.state.playerId := by
  obtain ⟨i, inside, same⟩ := List.mem_mapIdx.mp listed
  rw [← same]
  exact ⟨colored[i], List.getElem_mem inside, rfl, rfl⟩

/-- After the last round nothing is paired. -/
theorem compute_late {request : PairingRequest}
    (late : request.totalRounds < request.roundNumber) :
    Yields NotIntegrity (Paired request) (compute request) := by
  unfold compute
  dsimp only
  rw [if_pos late]
  split
  · exact .error trivial
  · exact .error trivial

/-- The players of a board are players of the round. -/
theorem Covered.board {players : List SwissPlayer} {pairs : List (SwissPlayer × SwissPlayer)}
    {pab : Option SwissPlayer} (covered : Covered players pairs pab) (initialColor : Color)
    {board : ColoredPair} (listed : board ∈ sortBoards (pairs.map (colorPair initialColor))) :
    (board.white ∈ players ∧ board.black ∈ players) ∧
      ∃ pair ∈ pairs, board = colorPair initialColor pair := by
  obtain ⟨⟨a, b⟩, here, rfl⟩ :=
    List.mem_map.mp ((List.perm_insertionSort _ _).mem_iff.mp listed)
  obtain ⟨hereA, hereB⟩ := covered.inside here
  refine ⟨?_, (a, b), here, rfl⟩
  rcases colorPair_cases initialColor a b with first | second
  · rw [first]
    exact ⟨hereA, hereB⟩
  · rw [second]
    exact ⟨hereB, hereA⟩

/-- What a round is for the prepared players that it was made from. -/
structure Seated (players : List SwissPlayer) (result : PairingResult) : Prop where
  once : result.playerIds.Perm (ids players)
  pairs : ∀ pairing ∈ result.pairings, ∃ board : ColoredPair,
    board.white ∈ players ∧ board.black ∈ players ∧
      board.white.state.playerId = pairing.whitePlayerId ∧
      board.black.state.playerId = pairing.blackPlayerId ∧ PairFits board
  byes : ∀ bye ∈ result.byes, ∃ p ∈ players,
    p.state.playerId = bye.playerId ∧ p.pabEligible = true

include consistent in
theorem pairPlayers_yields {players : List SwissPlayer} (roundId : RoundId) (roundNumber : Int)
    (initialColor : Color) (filled : players ≠ []) (distinct : (ids players).Nodup)
    (prepared : ∀ p ∈ players, Prepared p ∧ p.state ∈ states) :
    Yields NotIntegrity (Seated players) (pairPlayers players roundId roundNumber initialColor) := by
  unfold pairPlayers
  dsimp only
  apply (pairAllBrackets_yields _ _ roundId filled).bind
  intro outcome covered
  have fits : ∀ board ∈ sortBoards (outcome.pairs.map (colorPair initialColor)),
      PairFits board := by
    intro board listed
    obtain ⟨-, ⟨a, b⟩, here, rfl⟩ := covered.board initialColor listed
    obtain ⟨hereA, hereB⟩ := covered.inside here
    exact pair_fits consistent initialColor (prepared a hereA).1 (prepared b hereB).1
      (prepared a hereA).2 (prepared b hereB).2 (covered.meets (a, b) here)
  have once : ((sortBoards (outcome.pairs.map (colorPair initialColor))).flatMap
      ColoredPair.sides ++ outcome.pab.toList).Perm players :=
    ((sortBoards_sides initialColor outcome.pairs).append_right _).trans covered.once
  rw [verifyAbsoluteCriteria_ok roundId distinct once fits covered.eligible, ok_bind]
  apply Yields.ok
  refine ⟨?_, ?_, ?_⟩
  · change ((boardsOf _).flatMap _ ++ _).Perm _
    rw [boards_playerIds]
    exact once.map fun p => p.state.playerId
  · intro pairing listed
    obtain ⟨board, here, white, black⟩ := boardsOf_pair listed
    obtain ⟨⟨hereW, hereB⟩, -⟩ := covered.board initialColor here
    exact ⟨board, hereW, hereB, white.symm, black.symm, fits board here⟩
  · intro bye listed
    cases given : outcome.pab with
    | none =>
        rw [given] at listed
        cases listed
    | some p =>
        rw [given] at listed
        rw [List.mem_singleton.mp listed]
        have here : p ∈ players := by
          apply once.mem_iff.mp
          rw [given]
          exact List.mem_append_right _ List.mem_cons_self
        exact ⟨p, here, rfl, covered.eligible p given⟩

/-- A round of consistent states is made, or fails without breaking a criterion. -/
theorem compute_yields {request : PairingRequest} (consistent : Consistent request.players) :
    Yields NotIntegrity (Paired request) (compute request) := by
  unfold compute
  dsimp only
  split
  · exact .error trivial
  rename_i started
  split
  · exact .error trivial
  rename_i inTime
  split
  · exact .error trivial
  split
  · exact .error trivial
  rename_i _ active
  generalize found : (sortPlayers request.players).filter
    (fun p => isActive p request.roundNumber) = activeStates at active ⊢
  generalize request.initialColor.getD .white = initialColor
  have sorted : activeStates.Perm
      (request.players.filter fun p => isActive p request.roundNumber) := by
    rw [← found]
    exact (List.perm_insertionSort _ _).filter _
  have known : ∀ p ∈ activeStates, p ∈ request.players := fun p listed =>
    (List.mem_filter.mp (sorted.mem_iff.mp listed)).1
  generalize made : prepareSwissPlayers activeStates request.roundNumber request.totalRounds =
    players
  have stated : players.map SwissPlayer.state = activeStates := by
    rw [← made]
    exact prepareSwissPlayers_states _ _ _
  have prepared : ∀ p ∈ players, Prepared p ∧ p.state ∈ request.players := by
    intro p listed
    refine ⟨?_, known _ ?_⟩
    · rw [← made] at listed
      exact prepareSwissPlayers_prepared listed
    · rw [← stated]
      exact List.mem_map_of_mem listed
  have idsOf : ids players = activeStates.map PlayerPairingState.playerId := by
    rw [← stated, List.map_map]
    rfl
  have distinct : (ids players).Nodup := by
    rw [idsOf, (sorted.map PlayerPairingState.playerId).nodup_iff]
    exact List.Nodup.sublist (List.filter_sublist.map _) consistent.distinct
  have filled : players ≠ [] := by
    intro none
    rw [none] at stated
    rw [← stated] at active
    exact active rfl
  apply (pairPlayers_yields consistent request.roundId request.roundNumber initialColor filled
    distinct prepared).mono
  intro result seated
  refine ⟨⟨by omega, by omega⟩, ?_, ?_, ?_⟩
  · refine seated.once.trans ?_
    rw [idsOf]
    exact sorted.map _
  · intro pairing listed
    obtain ⟨board, hereW, hereB, white, black, fit⟩ := seated.pairs pairing listed
    refine ⟨_, (prepared _ hereW).2, _, (prepared _ hereB).2, white, black, fit.newWhite,
      fit.newBlack, fun early => ?_⟩
    rw [← made] at hereW hereB
    exact fit.allowed (prepareSwissPlayers_topscorer early hereW)
      (prepareSwissPlayers_topscorer early hereB)
  · intro bye listed
    obtain ⟨p, here, same, eligible⟩ := seated.byes bye listed
    rw [(prepared p here).1.pabEligible] at eligible
    exact ⟨p.state, (prepared p here).2, same, by simpa using eligible⟩

end Engine

end Farzin.Swiss
