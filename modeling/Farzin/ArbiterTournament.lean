import Farzin.ArbiterStates
import Farzin.Transition

set_option autoImplicit false

/- A Swiss tournament from round to round. Every round is made by the engine from the entries of
the rounds before it, and each of its pairings gets a result before the next round. Players may
come and go between the rounds. -/
namespace Farzin.Arbiter

open Checked Swiss Transition

/-- What a board may end with: a game that was played, or a forfeit. -/
inductive BoardResult where
  | whiteWin
  | blackWin
  | draw
  | whiteWinForfeit
  | blackWinForfeit
  | doubleForfeit
  deriving DecidableEq, Repr

def BoardResult.value : BoardResult → PairingResultValue
  | .whiteWin => .whiteWin
  | .blackWin => .blackWin
  | .draw => .draw
  | .whiteWinForfeit => .whiteWinForfeit
  | .blackWinForfeit => .blackWinForfeit
  | .doubleForfeit => .doubleForfeit

/-- The registrations of the section when a round is made. -/
structure Field where
  participants : List ParticipantSeed
  distinct : (participants.map ParticipantSeed.registrationId).Nodup

structure Tournament where
  rounds : Nat
  history : List PairingHistoryEntry
  deriving DecidableEq, Repr

/-- One round: who is there, and how its boards end. -/
structure Round where
  roundId : RoundId
  field : Field
  initialColor : Option Color
  results : Nat → BoardResult

def boardEntry (number : Nat) (results : Nat → BoardResult) (p : Pairing) : PairingHistoryEntry :=
  ⟨number, p.whitePlayerId, some p.blackPlayerId, (results p.boardNumber).value⟩

/-- A bye counts as a win at once. -/
def byeEntry (number : Nat) (bye : ByeAssignment) : PairingHistoryEntry :=
  ⟨number, bye.playerId, none, .byeFull⟩

def roundEntries (number : Nat) (results : Nat → BoardResult) (result : PairingResult) :
    List PairingHistoryEntry :=
  result.pairings.map (boardEntry number results) ++ result.byes.map (byeEntry number)

def Tournament.request (t : Tournament) (totalRounds : Int) (round : Round) : PairingRequest where
  roundId := round.roundId
  roundNumber := t.rounds + 1
  totalRounds := totalRounds
  players := buildPairingStates round.field.participants t.history
  initialColor := round.initialColor

/-- A tournament of a fixed number of rounds. -/
def tournament (totalRounds : Int) : System Tournament Round where
  initial t := t = ⟨0, []⟩
  step t round :=
    match compute (t.request totalRounds round) with
    | .error _ => none
    | .ok result =>
        some ⟨t.rounds + 1, t.history ++ roundEntries (t.rounds + 1) round.results result⟩

section Entries

/-- Both entries pair the same two players. -/
def SamePlayers (e f : PairingHistoryEntry) : Prop :=
  ∃ p q, opponentOf p e = some q ∧ opponentOf p f = some q

def AllocatedBye (id : PlayerId) (entry : PairingHistoryEntry) : Prop :=
  entry.blackRegistrationId = none ∧ entry.whiteRegistrationId = id

variable {id : PlayerId} {entry : PairingHistoryEntry}

theorem UnplayedWin.mem (won : UnplayedWin id entry) : id ∈ entryIds entry := by
  unfold UnplayedWin at won
  split at won
  · exact sideOf_mem won.1
  · rcases won with won | won
    · exact sideOf_mem won.1
    · exact sideOf_mem won.1

theorem AllocatedBye.mem (bye : AllocatedBye id entry) : id ∈ entryIds entry := by
  rw [← bye.2]
  exact List.mem_cons_self

/-- A player has at most one entry among entries of different players, and so at most one
colour. -/
theorem colorsOf_apart {entries : List PairingHistoryEntry}
    (apart : entries.Pairwise fun e f => (entryIds e).Disjoint (entryIds f)) (id : PlayerId) :
    colorsOf id entries = [] ∨
      ∃ entry ∈ entries, ∃ color, colorOf id entry = some color ∧ colorsOf id entries = [color] := by
  induction entries with
  | nil => exact .inl rfl
  | cons entry entries ih =>
      obtain ⟨first, rest⟩ := List.pairwise_cons.mp apart
      cases here : colorOf id entry with
      | none =>
          have skipped : colorsOf id (entry :: entries) = colorsOf id entries :=
            List.filterMap_cons_none here
          rw [skipped]
          rcases ih rest with none | ⟨other, listed, found⟩
          · exact .inl none
          · exact .inr ⟨other, List.mem_cons_of_mem entry listed, found⟩
      | some color =>
          right
          refine ⟨entry, List.mem_cons_self, color, here, ?_⟩
          have others : colorsOf id entries = [] := by
            apply List.filterMap_eq_nil_iff.mpr
            intro other listed
            cases there : colorOf id other with
            | none => rfl
            | some _ => exact absurd (colorOf_mem there) (first other listed (colorOf_mem here))
          rw [colorsOf, List.filterMap_cons_some here, ← colorsOf, others]

theorem sideOf_board {number : Nat} {result : PairingResultValue} {white black : PlayerId}
    {side : Side} (here : sideOf ⟨number, white, some black, result⟩ id = some side) :
    id = white ∧ side = .white ∨ id = black ∧ side = .black := by
  unfold sideOf at here
  dsimp only at here
  split at here
  · rename_i same
    exact .inl ⟨same.symm, (Option.some.inj here).symm⟩
  · split at here
    · rename_i same
      exact .inr ⟨(Option.some.inj same).symm, (Option.some.inj here).symm⟩
    · cases here

theorem boardEntry_opponent {number : Nat} {results : Nat → BoardResult} {pairing : Pairing}
    {p q : PlayerId} (met : opponentOf p (boardEntry number results pairing) = some q) :
    p = pairing.whitePlayerId ∧ q = pairing.blackPlayerId ∨
      p = pairing.blackPlayerId ∧ q = pairing.whitePlayerId := by
  obtain ⟨side, here, other⟩ := Option.bind_eq_some_iff.mp met
  rcases sideOf_board here with ⟨same, white⟩ | ⟨same, black⟩
  · rw [white] at other
    exact .inl ⟨same, (Option.some.inj other).symm⟩
  · rw [black] at other
    exact .inr ⟨same, (Option.some.inj other).symm⟩

theorem boardEntry_color {number : Nat} {results : Nat → BoardResult} {pairing : Pairing}
    {p : PlayerId} {color : Color}
    (played : colorOf p (boardEntry number results pairing) = some color) :
    p = pairing.whitePlayerId ∧ color = .white ∨ p = pairing.blackPlayerId ∧ color = .black := by
  obtain ⟨side, here, rest⟩ := Option.bind_eq_some_iff.mp played
  obtain ⟨outcome, _, counted⟩ := Option.bind_eq_some_iff.mp rest
  split at counted
  · have same := Option.some.inj counted
    rcases sideOf_board here with ⟨player, white⟩ | ⟨player, black⟩
    · rw [white] at same
      exact .inl ⟨player, same.symm⟩
    · rw [black] at same
      exact .inr ⟨player, same.symm⟩
  · cases counted

theorem byeEntry_opponent (number : Nat) (bye : ByeAssignment) (p : PlayerId) :
    opponentOf p (byeEntry number bye) = none := by
  unfold opponentOf
  exact Option.bind_eq_none_iff.mpr fun _ _ => rfl

theorem byeEntry_color (number : Nat) (bye : ByeAssignment) (p : PlayerId) :
    colorOf p (byeEntry number bye) = none := by
  unfold colorOf byeEntry
  apply Option.bind_eq_none_iff.mpr
  intro side _
  cases side with
  | white => rfl
  | black => rfl

end Entries

section NewRound

variable {totalRounds : Int} {t : Tournament} {round : Round} {result : PairingResult}

theorem roundEntries_cases {number : Nat} {results : Nat → BoardResult} {entry : PairingHistoryEntry}
    (listed : entry ∈ roundEntries number results result) :
    (∃ pairing ∈ result.pairings, entry = boardEntry number results pairing) ∨
      ∃ bye ∈ result.byes, entry = byeEntry number bye := by
  rcases List.mem_append.mp listed with board | bye
  · obtain ⟨pairing, here, same⟩ := List.mem_map.mp board
    exact .inl ⟨pairing, here, same.symm⟩
  · obtain ⟨given, here, same⟩ := List.mem_map.mp bye
    exact .inr ⟨given, here, same.symm⟩

theorem roundEntries_number {number : Nat} {results : Nat → BoardResult}
    {entry : PairingHistoryEntry} (listed : entry ∈ roundEntries number results result) :
    entry.roundNumber = number := by
  rcases roundEntries_cases listed with ⟨_, _, same⟩ | ⟨_, _, same⟩
  · rw [same]
    rfl
  · rw [same]
    rfl

theorem roundEntries_ids (number : Nat) (results : Nat → BoardResult) (result : PairingResult) :
    (roundEntries number results result).flatMap entryIds = result.playerIds := by
  unfold roundEntries PairingResult.playerIds
  rw [List.flatMap_append, List.flatMap_map, List.flatMap_map]
  congr 1
  exact List.map_eq_flatMap.symm

variable (paired : Paired (t.request totalRounds round) result)

include paired

/-- Nobody has two entries in one round. -/
theorem roundEntries_apart :
    (roundEntries (t.rounds + 1) round.results result).Pairwise fun e f =>
      (entryIds e).Disjoint (entryIds f) := by
  have known : ((t.request totalRounds round).players.map PlayerPairingState.playerId).Nodup := by
    change ((buildPairingStates _ _).map _).Nodup
    rw [buildPairingStates_ids]
    exact round.field.distinct
  have once : result.playerIds.Nodup := by
    apply paired.once.nodup_iff.mpr
    exact List.Nodup.sublist (List.filter_sublist.map _) known
  rw [← roundEntries_ids (t.rounds + 1) round.results] at once
  exact (List.nodup_flatMap.mp once).2

/-- A new pairing is new. -/
theorem roundEntries_new {entry : PairingHistoryEntry}
    (listed : entry ∈ roundEntries (t.rounds + 1) round.results result) {p q : PlayerId}
    (met : opponentOf p entry = some q) {before : PairingHistoryEntry}
    (earlier : before ∈ t.history) : opponentOf p before ≠ some q := by
  intro again
  rcases roundEntries_cases listed with ⟨pairing, here, same⟩ | ⟨bye, _, same⟩
  · obtain ⟨white, hereW, black, hereB, isWhite, isBlack, newW, newB, _⟩ := paired.pairs pairing here
    rw [same] at met
    rcases boardEntry_opponent met with ⟨first, second⟩ | ⟨first, second⟩
    · apply newW
      apply ((buildPairingStates_state hereW).opponents _).mpr
      refine ⟨before, earlier, ?_⟩
      rw [isWhite, isBlack, ← first, ← second]
      exact again
    · apply newB
      apply ((buildPairingStates_state hereB).opponents _).mpr
      refine ⟨before, earlier, ?_⟩
      rw [isWhite, isBlack, ← first, ← second]
      exact again
  · rw [same, byeEntry_opponent] at met
    cases met

/-- A new bye goes to somebody without an unplayed win. -/
theorem roundEntries_bye {entry : PairingHistoryEntry}
    (listed : entry ∈ roundEntries (t.rounds + 1) round.results result) {id : PlayerId}
    (allocated : AllocatedBye id entry) {before : PairingHistoryEntry}
    (earlier : before ∈ t.history) : ¬UnplayedWin id before := by
  intro won
  rcases roundEntries_cases listed with ⟨pairing, _, same⟩ | ⟨bye, here, same⟩
  · rw [same] at allocated
    cases allocated.1
  · obtain ⟨p, known, isBye, eligible⟩ := paired.byes bye here
    have player : p.playerId = id := by
      rw [isBye, ← allocated.2, same]
      rfl
    have had := (buildPairingStates_state known).bye.mpr ⟨before, earlier, by rw [player]; exact won⟩
    rw [eligible] at had
    cases had

/-- A new colour is allowed, but in the last round. -/
theorem roundEntries_allowed (early : (t.request totalRounds round).roundNumber < totalRounds)
    {entry : PairingHistoryEntry}
    (listed : entry ∈ roundEntries (t.rounds + 1) round.results result) {id : PlayerId}
    {color : Color} (played : colorOf id entry = some color) :
    Allowed (colorsOf id (sortEntries t.history)) color := by
  rcases roundEntries_cases listed with ⟨pairing, here, same⟩ | ⟨bye, _, same⟩
  · obtain ⟨white, hereW, black, hereB, isWhite, isBlack, _, _, allowed⟩ := paired.pairs pairing here
    rw [same] at played
    rcases boardEntry_color played with ⟨player, got⟩ | ⟨player, got⟩
    · rw [got, player, ← isWhite, ← (buildPairingStates_state hereW).colors]
      exact (allowed early).1
    · rw [got, player, ← isBlack, ← (buildPairingStates_state hereB).colors]
      exact (allowed early).2
  · rw [same, byeEntry_color] at played
    cases played

end NewRound

section Runs

variable {totalRounds : Int}

/-- What holds after every round. -/
structure Tournament.Sound (totalRounds : Int) (t : Tournament) : Prop where
  ordered : t.history.Pairwise fun a b => a.roundNumber ≤ b.roundNumber
  past : ∀ entry ∈ t.history, entry.roundNumber ≤ t.rounds
  bounded : t.rounds < totalRounds → ∀ id, ColorBounded (colorsOf id t.history)
  once : t.history.Pairwise fun e f => ¬SamePlayers e f
  byes : t.history.Pairwise fun e f => ∀ id, UnplayedWin id e → ¬AllocatedBye id f
  full : ∀ entry ∈ t.history, entry.blackRegistrationId = none → entry.result = .byeFull

namespace Tournament.Sound

theorem start (totalRounds : Int) : Tournament.Sound totalRounds ⟨0, []⟩ where
  ordered := .nil
  past _ listed := (List.not_mem_nil listed).elim
  bounded _ _ := .nil
  once := .nil
  byes := .nil
  full _ listed := (List.not_mem_nil listed).elim

variable {t : Tournament} (sound : t.Sound totalRounds)

include sound

theorem consistent (early : t.rounds < totalRounds) (round : Round) :
    Consistent (t.request totalRounds round).players := by
  apply buildPairingStates_consistent round.field.distinct
  intro id
  rw [sortEntries_ordered sound.ordered]
  exact (sound.bounded early id).playable

/-- The engine makes the next round, or fails without breaking a criterion. -/
theorem next (round : Round) :
    Yields NotIntegrity (Paired (t.request totalRounds round))
      (compute (t.request totalRounds round)) := by
  by_cases early : t.rounds < totalRounds
  · exact compute_yields (sound.consistent early round)
  · exact compute_late (show totalRounds < (t.rounds : Int) + 1 by omega)

theorem step {round : Round} {result : PairingResult}
    (paired : Paired (t.request totalRounds round) result) :
    Tournament.Sound totalRounds ⟨t.rounds + 1,
      t.history ++ roundEntries (t.rounds + 1) round.results result⟩ where
  ordered := by
    refine List.pairwise_append.mpr ⟨sound.ordered, ?_, ?_⟩
    · apply List.pairwise_of_forall_mem_list
      intro a hereA b hereB
      rw [roundEntries_number hereA, roundEntries_number hereB]
    · intro a hereA b hereB
      have before := sound.past a hereA
      rw [roundEntries_number hereB]
      omega
  past entry listed := by
    rcases List.mem_append.mp listed with before | now
    · exact Nat.le_succ_of_le (sound.past entry before)
    · exact Nat.le_of_eq (roundEntries_number now)
  bounded early id := by
    have earlier : (t.rounds : Int) < totalRounds := by
      push_cast at early
      omega
    have bounded := sound.bounded earlier id
    change ColorBounded (colorsOf id (t.history ++ _))
    rw [colorsOf, List.filterMap_append, ← colorsOf, ← colorsOf]
    rcases colorsOf_apart (roundEntries_apart paired) id with none | ⟨entry, listed, color, played, one⟩
    · rw [none, List.append_nil]
      exact bounded
    · rw [one]
      apply bounded.snoc
      have allowed := roundEntries_allowed paired (by push_cast at early; exact early) listed played
      rw [sortEntries_ordered sound.ordered] at allowed
      exact allowed
  once := by
    refine List.pairwise_append.mpr ⟨sound.once, ?_, ?_⟩
    · apply (roundEntries_apart paired).imp
      rintro e f apart ⟨p, q, first, second⟩
      exact apart (opponentOf_mem first) (opponentOf_mem second)
    · rintro e hereE f hereF ⟨p, q, first, second⟩
      exact roundEntries_new paired hereF second hereE first
  byes := by
    refine List.pairwise_append.mpr ⟨sound.byes, ?_, ?_⟩
    · apply (roundEntries_apart paired).imp
      intro e f apart id won bye
      exact apart won.mem bye.mem
    · intro e hereE f hereF id won bye
      exact roundEntries_bye paired hereF bye hereE won
  full entry listed bye := by
    rcases List.mem_append.mp listed with before | now
    · exact sound.full entry before bye
    · rcases roundEntries_cases now with ⟨_, _, same⟩ | ⟨_, _, same⟩
      · rw [same] at bye
        cases bye
      · rw [same]
        rfl

end Tournament.Sound

theorem reachable_sound {t : Tournament} (reached : (tournament totalRounds).Reachable t) :
    t.Sound totalRounds := by
  apply System.ReachableWhile.invariant (Tournament.Sound totalRounds) _ _ reached
  · intro t initial
    rw [show t = ⟨0, []⟩ from initial]
    exact .start totalRounds
  · intro t round after sound _ taken
    change (match compute (t.request totalRounds round) with
      | .error _ => none
      | .ok result => some (⟨t.rounds + 1,
          t.history ++ roundEntries (t.rounds + 1) round.results result⟩ : Tournament)) =
      some after at taken
    cases made : compute (t.request totalRounds round) with
    | error e =>
        rw [made] at taken
        cases taken
    | ok result =>
        rw [made] at taken
        cases taken
        exact sound.step ((sound.next round).result result made)

/-- What a tournament promises after every round. -/
structure Tournament.Fair (totalRounds : Int) (t : Tournament) : Prop where
  colors : t.rounds < totalRounds → ∀ participants, ∀ p ∈ buildPairingStates participants t.history,
    ColorBounded p.colorHistory
  /-- A forfeited pairing counts. -/
  pairsOnce : t.history.Pairwise fun e f => ¬SamePlayers e f
  byesOnce : t.history.Pairwise fun e f => ∀ id, AllocatedBye id e → ¬AllocatedBye id f
  noByeAfterWin : t.history.Pairwise fun e f => ∀ id, UnplayedWin id e → ¬AllocatedBye id f
  intact : ∀ round roundId criterion reason,
    compute (t.request totalRounds round) ≠ .error (.integrity roundId criterion reason)

theorem Tournament.Sound.fair {t : Tournament} (sound : t.Sound totalRounds) :
    t.Fair totalRounds where
  colors early participants p here := by
    rw [(buildPairingStates_state here).colors, sortEntries_ordered sound.ordered]
    exact sound.bounded early p.playerId
  pairsOnce := sound.once
  byesOnce := by
    apply sound.byes.imp_of_mem
    intro e f hereE _ never id bye
    apply never id
    unfold UnplayedWin
    rw [bye.1]
    refine ⟨?_, sound.full e hereE bye.1⟩
    unfold sideOf
    rw [if_pos bye.2]
  noByeAfterWin := sound.byes
  intact round roundId criterion reason failed := (sound.next round).failure _ failed

/-- Whatever the results and whoever comes or goes, the tournament keeps its promises. -/
theorem swiss_tournament (totalRounds : Int) (t : Tournament)
    (reached : (tournament totalRounds).Reachable t) : t.Fair totalRounds :=
  (reachable_sound reached).fair

/-- Five players and one who joins in the second round. -/
def firstField : Field where
  participants := [⟨11, 1, false, none⟩, ⟨12, 2, false, none⟩, ⟨13, 3, false, none⟩,
    ⟨14, 4, false, none⟩, ⟨15, 5, false, none⟩, ⟨16, 6, false, some 2⟩]
  distinct := by decide

/-- The second player has left. -/
def secondField : Field where
  participants := [⟨11, 1, false, none⟩, ⟨12, 2, true, none⟩, ⟨13, 3, false, none⟩,
    ⟨14, 4, false, none⟩, ⟨15, 5, false, none⟩, ⟨16, 6, false, some 2⟩]
  distinct := by decide

def firstRounds : List Round :=
  [⟨"1", firstField, none, fun board => if board = 1 then .whiteWinForfeit else .draw⟩,
    ⟨"2", secondField, none, fun _ => .blackWin⟩]

def afterTwoRounds : Tournament where
  rounds := 2
  history := [⟨1, 11, some 13, .whiteWinForfeit⟩, ⟨1, 14, some 12, .draw⟩, ⟨1, 15, none, .byeFull⟩,
    ⟨2, 11, some 15, .blackWin⟩, ⟨2, 13, some 14, .blackWin⟩, ⟨2, 16, none, .byeFull⟩]

theorem afterTwoRounds_fair : afterTwoRounds.Fair 3 :=
  swiss_tournament 3 afterTwoRounds
    (System.run_reachable ⟨0, []⟩ afterTwoRounds firstRounds
      (show (tournament 3).initial ⟨0, []⟩ from rfl) (by decide +kernel))

end Runs

end Farzin.Arbiter
