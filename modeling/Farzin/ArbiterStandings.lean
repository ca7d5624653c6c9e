import Farzin.ArbiterSection
import Farzin.TieBreaks

set_option autoImplicit false

/- The standings of a section (`buildScoreViews` of `modules/arbiter/result-mapping.ts` and
`recomputeStandings` of `arbiter.service.ts`), computed from its participants and the results of
its pairings. -/
namespace Farzin.Arbiter

open TieBreak (GameRecord PlayerTieBreakInput TieBreakDataError TieBreakKey TieBreakResult)

structure ParticipantScoreView where
  registrationId : PlayerId
  points : Rat
  wins : Nat
  draws : Nat
  losses : Nat
  colorHistory : List Side
  games : List GameRecord
  deriving DecidableEq, Repr

def ParticipantScoreView.gamesPlayed (view : ParticipantScoreView) : Nat := view.games.length

/-- The game that an outcome on one side stands for. -/
def gameRecord (entry : PairingHistoryEntry) (side : Side) (outcome : SideOutcome) :
    GameRecord where
  opponentId := if side = .white then entry.blackRegistrationId
    else some entry.whiteRegistrationId
  color := if outcome.playedOverBoard then some side.color else none
  result := outcome.score
  playedOverBoard := outcome.playedOverBoard

def ParticipantScoreView.score (view : ParticipantScoreView) (entry : PairingHistoryEntry)
    (side : Side) (outcome : SideOutcome) : ParticipantScoreView :=
  { view with
    points := view.points + outcome.score
    wins := if outcome.score = 1 then view.wins + 1 else view.wins
    draws := if outcome.score = 1 / 2 then view.draws + 1 else view.draws
    losses := if outcome.score = 1 ∨ outcome.score = 1 / 2 then view.losses else view.losses + 1
    colorHistory := if outcome.playedOverBoard then view.colorHistory ++ [side]
      else view.colorHistory
    games := view.games ++ [gameRecord entry side outcome] }

/-- An entry without the player, or without a result, does not count. -/
def ParticipantScoreView.add (view : ParticipantScoreView) (entry : PairingHistoryEntry) :
    ParticipantScoreView :=
  match sideOf entry view.registrationId with
  | none => view
  | some side =>
      match outcomeFor entry.result side with
      | none => view
      | some outcome => view.score entry side outcome

def buildScoreView (sorted : List PairingHistoryEntry) (registrationId : PlayerId) :
    ParticipantScoreView :=
  sorted.foldl ParticipantScoreView.add ⟨registrationId, 0, 0, 0, 0, [], []⟩

def buildScoreViews (registrationIds : List PlayerId) (history : List PairingHistoryEntry) :
    List ParticipantScoreView :=
  registrationIds.map (buildScoreView (sortEntries history))

structure StandingRow where
  registrationId : PlayerId
  points : Rat
  rank : Nat
  tieBreakValues : TieBreakResult
  gamesPlayed : Nat
  wins : Nat
  draws : Nat
  losses : Nat
  colorHistory : List Side
  floatHistory : List FloatDirection
  deriving DecidableEq, Repr

def defaultTieBreakOrder : List TieBreakKey :=
  [.buchholz, .buchholzCut1, .sonnebornBerger, .directEncounter, .wins]

/-- Unknown keys are left out, and without a known one the default order counts. -/
def resolveTieBreakOrder (tieBreakOrder : List String) : List TieBreakKey :=
  let known := tieBreakOrder.filterMap fun name =>
    TieBreak.tieBreakKeys.find? fun key => key.name = name
  if known.length > 0 then known else defaultTieBreakOrder

def toSeeds (participants : List Registration) : List ParticipantSeed :=
  participants.map fun p => ⟨p.id, p.pairingNumber.getD 0, p.isWithdrawn, p.joinedAtRound⟩

def tieBreakInput (participants : List Registration) (view : ParticipantScoreView) :
    PlayerTieBreakInput where
  playerId := view.registrationId
  points := view.points
  rating := (participants.find? fun p => p.id = view.registrationId).bind
    Registration.ratingAtEntry
  games := view.games

def calculator : TieBreak.TieBreakOptions := ⟨none⟩

def standingRow (views : Nat) (values : List (PlayerId × TieBreakResult))
    (ranking : List PlayerId) (states : List PlayerPairingState) (view : ParticipantScoreView) :
    StandingRow where
  registrationId := view.registrationId
  points := view.points
  rank := ((ranking.findIdx? fun id => id = view.registrationId).map (· + 1)).getD views
  tieBreakValues := (values.lookup view.registrationId).getD []
  gamesPlayed := view.gamesPlayed
  wins := view.wins
  draws := view.draws
  losses := view.losses
  colorHistory := view.colorHistory
  floatHistory := ((states.find? fun state => state.playerId = view.registrationId).map
    PlayerPairingState.floatHistory).getD []

/-- What `recomputeStandings` computes from what it has read. -/
def standingRows (order : List TieBreakKey) (participants : List Registration)
    (history : List PairingHistoryEntry) : Except TieBreakDataError (List StandingRow) := do
  let views := buildScoreViews (participants.map Registration.id) history
  let states := buildPairingStates (toSeeds participants) history
  let inputs := views.map (tieBreakInput participants)
  let values ← TieBreak.compute calculator inputs order
  let ranking ← TieBreak.rank calculator inputs order
  return views.map (standingRow views.length values ranking states)

namespace Section

variable (s : Section)

/-- Everyone with a number, also who has left. -/
def numberedRegistrations : List Registration :=
  (s.registrations.filter fun r => r.pairingNumber.isSome).insertionSort fun a b =>
    a.pairingNumber.getD 0 ≤ b.pairingNumber.getD 0

end Section

section Games

variable {id : PlayerId} {entry : PairingHistoryEntry}

/-- The game of a player in one entry. -/
def gameOf (id : PlayerId) (entry : PairingHistoryEntry) : Option GameRecord :=
  (sideOf entry id).bind fun side => (outcomeFor entry.result side).map (gameRecord entry side)

theorem add_cases (view : ParticipantScoreView) (entry : PairingHistoryEntry) :
    (gameOf view.registrationId entry = none ∧ view.add entry = view) ∨
      ∃ side outcome, outcomeFor entry.result side = some outcome ∧
        gameOf view.registrationId entry = some (gameRecord entry side outcome) ∧
          view.add entry = view.score entry side outcome := by
  unfold gameOf ParticipantScoreView.add
  cases sideOf entry view.registrationId with
  | none => exact .inl ⟨rfl, rfl⟩
  | some side =>
      cases counted : outcomeFor entry.result side with
      | none =>
          left
          simp [counted]
      | some outcome =>
          right
          exact ⟨side, outcome, counted, by simp [counted], by simp [counted]⟩

/-- What the loop has collected before and after some entries. -/
theorem fold_view (entries : List PairingHistoryEntry) (view : ParticipantScoreView)
    (sum : view.points = (view.games.map GameRecord.result).sum) :
    let after := entries.foldl ParticipantScoreView.add view
    after.registrationId = view.registrationId ∧
      after.games = view.games ++ entries.filterMap (gameOf view.registrationId) ∧
      after.points = (after.games.map GameRecord.result).sum := by
  induction entries generalizing view with
  | nil => simp [sum]
  | cons entry entries ih =>
      rw [List.foldl_cons]
      rcases add_cases view entry with ⟨none, same⟩ | ⟨side, outcome, _, some, scored⟩
      · rw [same, List.filterMap_cons_none none]
        exact ih view sum
      · rw [scored, List.filterMap_cons_some some]
        obtain ⟨named, games, points⟩ := ih (view.score entry side outcome) (by
          simp [ParticipantScoreView.score, gameRecord, sum])
        refine ⟨named, ?_, points⟩
        simpa [ParticipantScoreView.score] using games

theorem buildScoreView_registrationId (sorted : List PairingHistoryEntry) :
    (buildScoreView sorted id).registrationId = id :=
  (fold_view sorted ⟨id, 0, 0, 0, 0, [], []⟩ rfl).1

theorem buildScoreView_games (sorted : List PairingHistoryEntry) :
    (buildScoreView sorted id).games = sorted.filterMap (gameOf id) :=
  (fold_view sorted ⟨id, 0, 0, 0, 0, [], []⟩ rfl).2.1

theorem buildScoreView_points (sorted : List PairingHistoryEntry) :
    (buildScoreView sorted id).points =
      ((buildScoreView sorted id).games.map GameRecord.result).sum :=
  (fold_view sorted ⟨id, 0, 0, 0, 0, [], []⟩ rfl).2.2

end Games

section Accepted

/-- Both sides of the entry take part, and without a second side it is a bye or open. -/
structure EntryFits (ids : List PlayerId) (entry : PairingHistoryEntry) : Prop where
  white : entry.whiteRegistrationId ∈ ids
  black : ∀ black ∈ entry.blackRegistrationId, black ∈ ids
  bye : entry.blackRegistrationId = none → Section.isByeResult entry.result = true

theorem outcomeFor_score {result : PairingResultValue} {side : Side} {outcome : SideOutcome}
    (counted : outcomeFor result side = some outcome) :
    outcome.score = 0 ∨ outcome.score = 1 / 2 ∨ outcome.score = 1 := by
  cases result <;> cases side <;> simp [outcomeFor] at counted <;> subst counted <;> simp

theorem outcomeFor_half {result : PairingResultValue} {side : Side} {outcome : SideOutcome}
    (counted : outcomeFor result side = some outcome) : (outcome.score * 2).den = 1 := by
  rcases outcomeFor_score counted with score | score | score
  · simp [score]
  · simp [score]
  · simp [score]

theorem outcomeFor_bye {result : PairingResultValue} {side : Side} {outcome : SideOutcome}
    (bye : Section.isByeResult result = true)
    (counted : outcomeFor result side = some outcome) : outcome.playedOverBoard = false := by
  cases result <;> cases side <;> simp [outcomeFor, Section.isByeResult] at counted bye <;>
    subst counted <;> rfl

theorem gameOf_some {id : PlayerId} {entry : PairingHistoryEntry} {game : GameRecord}
    (found : gameOf id entry = some game) :
    ∃ side outcome, outcomeFor entry.result side = some outcome ∧
      game = gameRecord entry side outcome := by
  obtain ⟨side, _, rest⟩ := Option.bind_eq_some_iff.mp found
  obtain ⟨outcome, counted, same⟩ := Option.map_eq_some_iff.mp rest
  exact ⟨side, outcome, counted, same.symm⟩

theorem half_sum (values : List Rat) (halves : ∀ value ∈ values, (value * 2).den = 1) :
    (values.sum * 2).den = 1 := by
  have whole : ∃ n : Int, values.sum * 2 = n := by
    induction values with
    | nil => exact ⟨0, by simp⟩
    | cons value values ih =>
        obtain ⟨n, rest⟩ := ih fun other listed => halves other (List.mem_cons_of_mem value listed)
        have own := halves value (List.mem_cons_self)
        refine ⟨(value * 2).num + n, ?_⟩
        rw [List.sum_cons, add_mul, rest, Int.cast_add, Rat.coe_int_num_of_den_eq_one own]
  obtain ⟨n, same⟩ := whole
  rw [same]
  exact Rat.den_intCast n

variable {participants : List Registration} {history : List PairingHistoryEntry}

theorem inputs_ids :
    ((buildScoreViews (participants.map Registration.id) history).map
      (tieBreakInput participants)).map PlayerTieBreakInput.playerId =
        participants.map Registration.id := by
  unfold buildScoreViews
  rw [List.map_map, List.map_map]
  apply (List.map_congr_left fun id _ => ?_).trans (List.map_id _)
  exact buildScoreView_registrationId _

/-- The calculator accepts what the participants have played against each other. -/
theorem inputs_sound (distinct : (participants.map Registration.id).Nodup)
    (fits : ∀ entry ∈ history, EntryFits (participants.map Registration.id) entry) :
    TieBreak.Sound ((buildScoreViews (participants.map Registration.id) history).map
      (tieBreakInput participants)) := by
  have played : ∀ p ∈ (buildScoreViews (participants.map Registration.id) history).map
      (tieBreakInput participants), ∀ game ∈ p.games, ∃ entry ∈ history, ∃ side outcome,
        outcomeFor entry.result side = some outcome ∧ game = gameRecord entry side outcome := by
    intro p listed game inside
    obtain ⟨view, viewed, rfl⟩ := List.mem_map.mp listed
    obtain ⟨id, _, rfl⟩ := List.mem_map.mp viewed
    change game ∈ (buildScoreView (sortEntries history) id).games at inside
    rw [buildScoreView_games] at inside
    obtain ⟨entry, sorted, found⟩ := List.mem_filterMap.mp inside
    exact ⟨entry, mem_sortEntries.mp sorted, gameOf_some found⟩
  refine ⟨by rw [inputs_ids]; exact distinct, ?_, ?_, ?_⟩
  · intro p listed
    have games := played p listed
    obtain ⟨view, viewed, rfl⟩ := List.mem_map.mp listed
    obtain ⟨id, _, rfl⟩ := List.mem_map.mp viewed
    change ((buildScoreView (sortEntries history) id).points * 2).den = 1
    rw [buildScoreView_points]
    apply half_sum
    intro value inside
    obtain ⟨game, recorded, rfl⟩ := List.mem_map.mp inside
    obtain ⟨entry, _, side, outcome, counted, rfl⟩ := games game recorded
    exact outcomeFor_half counted
  · intro p listed game inside opponentId some
    obtain ⟨entry, there, side, outcome, _, rfl⟩ := played p listed game inside
    rw [inputs_ids]
    cases side with
    | white => exact (fits entry there).black opponentId some
    | black =>
        cases some
        exact (fits entry there).white
  · intro p listed game inside board
    obtain ⟨entry, there, side, outcome, counted, rfl⟩ := played p listed game inside
    cases side with
    | black => rfl
    | white =>
        change entry.blackRegistrationId.isSome = true
        cases opponent : entry.blackRegistrationId with
        | some _ => rfl
        | none =>
            have off := outcomeFor_bye ((fits entry there).bye opponent) counted
            change outcome.playedOverBoard = true at board
            rw [off] at board
            cases board

/-- The standings of participants who have only played each other can be computed. -/
theorem standingRows_ok (order : List TieBreakKey)
    (distinct : (participants.map Registration.id).Nodup)
    (fits : ∀ entry ∈ history, EntryFits (participants.map Registration.id) entry) :
    ∃ rows, standingRows order participants history = .ok rows := by
  obtain ⟨ctx, built⟩ := (inputs_sound distinct fits).context
  unfold standingRows TieBreak.compute TieBreak.rank
  simp only [built]
  exact ⟨_, rfl⟩

end Accepted

end Farzin.Arbiter
