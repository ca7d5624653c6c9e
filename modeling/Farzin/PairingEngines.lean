import Farzin.RoundRobinSchedule
import Farzin.SwissSound

set_option autoImplicit false

/- What both engines have in common: a result names every active player once, whatever the states
that it was made from. -/
namespace Farzin

open Checked

/-- The players that can be paired. -/
def PairingRequest.activeIds (request : PairingRequest) : List PlayerId :=
  (request.players.filter fun player => isActive player request.roundNumber).map
    PlayerPairingState.playerId

theorem RoundRobin.seatingOrder_sorted {request : PairingRequest} {seats : List PlayerPairingState}
    (ok : seatingOrder request = .ok seats) : seats = sortByNumber request.players := by
  unfold seatingOrder at ok
  dsimp only at ok
  split at ok
  · cases ok
  · exact (Except.ok.inj ok).symm

theorem RoundRobin.compute_players {legs : Legs} {request : PairingRequest}
    {result : PairingResult} (ok : compute legs request = .ok result) :
    result.playerIds.Perm request.activeIds := by
  obtain ⟨seats, seated, rest⟩ := bind_ok ok
  obtain rfl := seatingOrder_sorted seated
  have length : (sortByNumber request.players).length = request.players.length :=
    (sortByNumber_perm request.players).length_eq
  by_cases few : (sortByNumber request.players).length < 2
  · simp only [few, if_true] at rest
    cases rest
  by_cases outside : request.roundNumber < 1 ∨
      scheduleLengthOf legs (sortByNumber request.players).length < request.roundNumber
  · simp only [few, if_false, outside, if_true] at rest
    cases rest
  by_cases alone : ((sortByNumber request.players).filter fun player =>
      isActive player request.roundNumber).length < 2
  · simp only [few, if_false, outside, alone, if_true] at rest
    cases rest
  simp only [few, if_false, outside, alone] at rest
  have same : result = roundResult request := (Except.ok.inj rest).symm
  rw [same]
  exact roundResult_players request (by omega) (by omega)

theorem Swiss.pairPlayers_players {players : List SwissPlayer} (filled : players ≠ [])
    (roundId : RoundId) (roundNumber : Int) (initialColor : Color) {result : PairingResult}
    (ok : pairPlayers players roundId roundNumber initialColor = .ok result) :
    result.playerIds.Perm (ids players) := by
  unfold pairPlayers at ok
  obtain ⟨outcome, paired, rest⟩ := bind_ok ok
  have covered := (pairAllBrackets_yields _ _ roundId filled).result outcome paired
  obtain ⟨_, _, last⟩ := bind_ok rest
  rw [← Except.ok.inj last]
  change ((boardsOf _).flatMap _ ++ _).Perm _
  rw [boards_playerIds]
  have once := ((sortBoards_sides initialColor outcome.pairs).append_right _).trans covered.once
  exact once.map fun p => p.state.playerId

theorem Swiss.compute_players {request : PairingRequest} {result : PairingResult}
    (ok : compute request = .ok result) : result.playerIds.Perm request.activeIds := by
  unfold compute at ok
  dsimp only at ok
  split at ok
  · cases ok
  split at ok
  · cases ok
  split at ok
  · cases ok
  split at ok
  · cases ok
  rename_i active
  have sorted : ((sortPlayers request.players).filter fun p =>
      isActive p request.roundNumber).Perm
        (request.players.filter fun p => isActive p request.roundNumber) :=
    (List.perm_insertionSort _ _).filter _
  have stated := prepareSwissPlayers_states
    ((sortPlayers request.players).filter fun p => isActive p request.roundNumber)
    request.roundNumber request.totalRounds
  have filled : prepareSwissPlayers
      ((sortPlayers request.players).filter fun p => isActive p request.roundNumber)
      request.roundNumber request.totalRounds ≠ [] := by
    intro none
    rw [none] at stated
    rw [← stated] at active
    exact active rfl
  have players := pairPlayers_players filled _ _ _ ok
  have named : ids (prepareSwissPlayers
      ((sortPlayers request.players).filter fun p => isActive p request.roundNumber)
      request.roundNumber request.totalRounds) =
        ((sortPlayers request.players).filter fun p => isActive p request.roundNumber).map
          PlayerPairingState.playerId := by
    rw [← stated, List.map_map, stated]
    rfl
  rw [named] at players
  exact players.trans (sorted.map _)

end Farzin
