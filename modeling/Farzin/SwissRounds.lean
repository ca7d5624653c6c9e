import Farzin.SwissSound
import Farzin.SwissUnique

set_option autoImplicit false

/- What the Swiss engine answers is a round (`compute` of `core/pairing/swiss-dutch.engine.ts`). -/
namespace Farzin.Swiss

open Checked

def activeCount (request : PairingRequest) : Nat :=
  (request.players.filter fun p => isActive p request.roundNumber).length

/-- The boards are numbered from one and seat all but the last of an odd number of players. -/
structure Filled (request : PairingRequest) (result : PairingResult) : Prop where
  numbers : result.pairings.map Pairing.boardNumber = List.range' 1 result.pairings.length
  boards : result.pairings.length = activeCount request / 2
  byes : result.byes.length = activeCount request % 2

theorem boardsOf_numbers (colored : List ColoredPair) :
    (boardsOf colored).map Pairing.boardNumber = List.range' 1 (boardsOf colored).length := by
  apply List.ext_getElem
  · rw [List.length_map, List.length_range']
  intro i inside _
  have bound : i < colored.length := by simpa [boardsOf] using inside
  simp [boardsOf, Nat.add_comm]

/-- The form of what `pairPlayers` returns. -/
theorem pairPlayers_form {players : List SwissPlayer} {roundId : RoundId} {roundNumber : Int}
    {initialColor : Color} {result : PairingResult}
    (paired : pairPlayers players roundId roundNumber initialColor = .ok result) :
    (∃ colored, result.pairings = boardsOf colored) ∧ result.byes.length ≤ 1 := by
  unfold pairPlayers at paired
  obtain ⟨outcome, -, rest⟩ := bind_ok paired
  obtain ⟨_, -, rest⟩ := bind_ok rest
  cases rest
  refine ⟨⟨_, rfl⟩, ?_⟩
  cases outcome.pab with
  | none => exact Nat.zero_le 1
  | some p => exact Nat.le_refl 1

theorem compute_form {request : PairingRequest} {result : PairingResult}
    (computed : compute request = .ok result) :
    (∃ colored, result.pairings = boardsOf colored) ∧ result.byes.length ≤ 1 := by
  unfold compute at computed
  dsimp only at computed
  split at computed
  · cases computed
  split at computed
  · cases computed
  split at computed
  · cases computed
  split at computed
  · cases computed
  · exact pairPlayers_form computed

/-- Two players on every board and one for each bye. -/
theorem playerIds_length (result : PairingResult) :
    result.playerIds.length = 2 * result.pairings.length + result.byes.length := by
  have sides : (result.pairings.flatMap fun p => [p.whitePlayerId, p.blackPlayerId]).length =
      2 * result.pairings.length := by
    induction result.pairings with
    | nil => rfl
    | cons p rest ih =>
        rw [List.flatMap_cons, List.length_append, ih, List.length_cons]
        simp only [List.length_cons, List.length_nil]
        omega
  rw [PairingResult.playerIds, List.length_append, sides, List.length_map]

theorem Paired.filled {request : PairingRequest} {result : PairingResult}
    (paired : Paired request result) (computed : compute request = .ok result) :
    Filled request result := by
  obtain ⟨⟨colored, boards⟩, byes⟩ := compute_form computed
  have count := paired.once.length_eq
  rw [playerIds_length, List.length_map] at count
  refine ⟨?_, ?_, ?_⟩
  · rw [boards]
    exact boardsOf_numbers colored
  · unfold activeCount
    omega
  · unfold activeCount
    omega

/-- For consistent players the engine makes a round in which every active player has one place,
nobody meets an opponent again, nobody has a second bye and, before the last round, everybody
gets a colour that is allowed; or it fails, but never because its own check refuses the round. -/
theorem compute_sound (request : PairingRequest) (consistent : Consistent request.players) :
    (∀ result, compute request = .ok result → Paired request result ∧ Filled request result) ∧
      ∀ roundId criterion reason,
        compute request ≠ .error (.integrity roundId criterion reason) := by
  have yields := compute_yields consistent
  refine ⟨fun result computed => ?_, fun roundId criterion reason failed => ?_⟩
  · have paired := yields.result result computed
    exact ⟨paired, paired.filled computed⟩
  · exact yields.failure _ failed

theorem compute_sound_three : ∃ result, compute threeRequest = .ok result ∧
    result.pairings.length = 1 ∧ result.byes.length = 1 := by
  have consistent : Consistent threeRequest.players := by
    refine ⟨by decide, by decide, fun p listed => ?_⟩
    have fresh : p.colorHistory = [] := by
      revert p
      decide
    rw [fresh]
    decide
  have succeeds : (compute threeRequest).toOption.isSome = true := by decide +kernel
  cases computed : compute threeRequest with
  | error e =>
      rw [computed] at succeeds
      cases succeeds
  | ok result =>
      have filled := ((compute_sound threeRequest consistent).1 result computed).2
      have count : activeCount threeRequest = 3 := by decide +kernel
      refine ⟨result, rfl, ?_, ?_⟩
      · rw [filled.boards, count]
      · rw [filled.byes, count]

end Farzin.Swiss
