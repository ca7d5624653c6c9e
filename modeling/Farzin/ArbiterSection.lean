import Farzin.ArbiterStates
import Farzin.RatingPeriods
import Farzin.Transition

set_option autoImplicit false

/- A Swiss section in the hands of its arbiter (`modules/arbiter/arbiter.service.ts` with
`arbiter.repository.ts`, and `withdraw` of `modules/tournament/tournament.service.ts`). Each
request carries the outcome of its access check; a failed request leaves the section as the
source leaves it. -/
namespace Farzin.Arbiter

open Swiss Transition
open Rating (isTrimmed)

inductive RoundStatus where
  | pending
  | pairingInProgress
  | pairingFailed
  | paired
  | inProgress
  | completed
  deriving DecidableEq, Repr

structure Registration where
  id : PlayerId
  isConfirmed : Bool
  isWithdrawn : Bool
  pairingNumber : Option Int
  ratingAtEntry : Option Int
  createdAt : Int
  joinedAtRound : Option Int
  deriving DecidableEq, Repr

structure PairingRow where
  id : Nat
  boardNumber : Nat
  whiteRegistrationId : PlayerId
  blackRegistrationId : Option PlayerId
  result : PairingResultValue
  deriving DecidableEq, Repr

structure RoundRow where
  id : Nat
  number : Nat
  status : RoundStatus
  pairings : List PairingRow
  deriving DecidableEq, Repr

/-- The rows of a section. `inProgress` is the status of its tournament. -/
structure Section where
  id : String
  inProgress : Bool
  totalRounds : Int
  registrations : List Registration
  rounds : List RoundRow
  nextId : Nat
  deriving DecidableEq, Repr

inductive ArbiterError where
  | notFound
  | tournamentNotInProgress
  | previousRoundNotCompleted (roundId number : Nat) (status : RoundStatus)
  | pairingNumberTaken
  | pairingImpossible (reason : String)
  | pairingIntegrity (roundId : RoundId) (criterion : PairingCriterion) (reason : String)
  | unexpected (message : String)
  | resultNotApplicable (pairingId : Nat) (result : PairingResultValue) (isBye : Bool)
  | resultChangeReasonRequired (pairingId : Nat) (currentResult : PairingResultValue)
  | roundAlreadyCompleted (roundId : Nat)
  | roundHasUnplayedGames (roundId : Nat) (boards : List Nat)
  | withdrawReasonRequired
  | alreadyWithdrawn (registrationId : PlayerId)
  deriving DecidableEq, Repr

def RoundRow.entries (round : RoundRow) : List PairingHistoryEntry :=
  (round.pairings.insertionSort fun a b => a.boardNumber ≤ b.boardNumber).map fun p =>
    ⟨round.number, p.whiteRegistrationId, p.blackRegistrationId, p.result⟩

/-- The round with the higher number. -/
def laterRound (latest : Option RoundRow) (round : RoundRow) : Option RoundRow :=
  match latest with
  | none => some round
  | some best => if best.number < round.number then some round else some best

namespace Section

variable (s : Section)

def latestRound : Option RoundRow := s.rounds.foldl laterRound none

def activeRegistrations : List Registration :=
  s.registrations.filter fun r => r.isConfirmed && !r.isWithdrawn

/-- By rating, the highest first and those without one last, then by age and id. -/
def numberedBefore (a b : Registration) : Bool :=
  match a.ratingAtEntry, b.ratingAtEntry with
  | some ra, some rb => decide (rb < ra) || decide (ra = rb) && older a b
  | some _, none => true
  | none, some _ => false
  | none, none => older a b
where
  older (a b : Registration) : Bool :=
    decide (a.createdAt < b.createdAt) ||
      decide (a.createdAt = b.createdAt) && decide (a.id ≤ b.id)

/-- The number that `assignPairingNumbers` gives to a registration. -/
def assignedNumber (sorted : List Registration) (id : PlayerId) : Option Int :=
  (sorted.findIdx? fun r => r.id = id).map fun index => (index : Int) + 1

def numberRegistration (sorted : List Registration) (r : Registration) : Registration :=
  match assignedNumber sorted r.id with
  | some number => { r with pairingNumber := some number }
  | none => r

/-- `assignPairingNumbers`, when no active registration has a number yet. A number can only be
taken by a registration that is not active any more. -/
def assignPairingNumbers : Option Section :=
  let sorted := s.activeRegistrations.insertionSort fun a b => numberedBefore a b
  let taken := s.registrations.any fun r => match r.pairingNumber with
    | some number => decide (1 ≤ number ∧ number ≤ sorted.length)
    | none => false
  if taken then none
  else some { s with registrations := s.registrations.map (numberRegistration sorted) }

/-- Numbers are given once, before the first round. -/
def withNumbers : Option Section :=
  if s.activeRegistrations.all fun r => r.pairingNumber.isNone then s.assignPairingNumbers
  else some s

/-- `toSeeds` of `numberedRegistrations`. -/
def seeds : List ParticipantSeed :=
  let numbered := s.registrations.filterMap fun r =>
    r.pairingNumber.map fun number =>
      ({ registrationId := r.id, pairingNumber := number, isWithdrawn := r.isWithdrawn,
         joinedAtRound := r.joinedAtRound } : ParticipantSeed)
  numbered.insertionSort fun a b => a.pairingNumber ≤ b.pairingNumber

/-- `completedPairingsForSection`: all pairings, by round and board. -/
def history : List PairingHistoryEntry :=
  (s.rounds.insertionSort fun a b => a.number ≤ b.number).flatMap RoundRow.entries

def players : List PlayerPairingState := buildPairingStates s.seeds s.history

end Section

/-- The rows of a new round; a bye counts as a win at once. -/
def boardRows (firstId : Nat) (result : PairingResult) : List PairingRow :=
  (result.pairings.mapIdx fun index p =>
    { id := firstId + index, boardNumber := p.boardNumber, whiteRegistrationId := p.whitePlayerId,
      blackRegistrationId := some p.blackPlayerId, result := .unplayed }) ++
  result.byes.mapIdx fun index bye =>
    { id := firstId + result.pairings.length + index,
      boardNumber := result.pairings.length + index + 1, whiteRegistrationId := bye.playerId,
      blackRegistrationId := none, result := .byeFull }

namespace Section

variable (s : Section)

def createRoundWithPairings (number : Nat) (result : PairingResult) : Section × RoundRow :=
  let pairings := boardRows (s.nextId + 1) result
  let round : RoundRow := { id := s.nextId, number, status := .paired, pairings }
  ({ s with rounds := s.rounds ++ [round], nextId := s.nextId + 1 + pairings.length }, round)

def request (number : Nat) : PairingRequest where
  roundId := s!"{s.id}#{number}"
  roundNumber := number
  totalRounds := s.totalRounds
  players := s.players
  initialColor := none

/-- The part of `generateRound` from the engine on. -/
def pairRound (number : Nat) : Section × Except ArbiterError RoundRow :=
  match compute (s.request number) with
  | .error (.impossible _ reason) => (s, .error (.pairingImpossible reason))
  | .error (.integrity roundId criterion reason) =>
      (s, .error (.pairingIntegrity roundId criterion reason))
  | .error (.internal message) => (s, .error (.unexpected message))
  | .ok result =>
      let (after, round) := s.createRoundWithPairings number result
      (after, .ok round)

def generateRound (allowed : Bool) : Section × Except ArbiterError RoundRow :=
  if ¬allowed then (s, .error .notFound)
  else if ¬s.inProgress then (s, .error .tournamentNotInProgress)
  else
    match s.latestRound with
    | some latest =>
        if latest.status ≠ .completed then
          (s, .error (.previousRoundNotCompleted latest.id latest.number latest.status))
        else next (latest.number + 1)
    | none => next 1
where
  next (number : Nat) : Section × Except ArbiterError RoundRow :=
    match s.withNumbers with
    | none => (s, .error .pairingNumberTaken)
    | some numbered => numbered.pairRound number

def findPairing (pairingId : Nat) : Option PairingRow :=
  (s.rounds.flatMap RoundRow.pairings).find? fun p => p.id = pairingId

def isByeResult (result : PairingResultValue) : Bool :=
  decide (result ∈ [PairingResultValue.byeFull, .byeHalf, .byeZero])

end Section

/-- A result as its controller passes it on. -/
structure ResultCall where
  allowed : Bool
  pairingId : Nat
  result : PairingResultValue
  enterable : result ≠ .unplayed
  reason : Option String

def ResultCall.blank (call : ResultCall) : Bool :=
  match call.reason with
  | none => true
  | some reason => reason.toList.all isTrimmed

namespace Section

variable (s : Section)

def setResult (pairingId : Nat) (result : PairingResultValue) : Section :=
  { s with rounds := s.rounds.map fun round =>
      { round with pairings := round.pairings.map fun p =>
          if p.id = pairingId then { p with result } else p } }

def enterResult (call : ResultCall) : Section × Except ArbiterError Unit :=
  match s.findPairing call.pairingId with
  | none => (s, .error .notFound)
  | some pairing =>
      let isBye := pairing.blackRegistrationId.isNone
      if ¬call.allowed then (s, .error .notFound)
      else if ¬s.inProgress then (s, .error .tournamentNotInProgress)
      else if isBye ≠ isByeResult call.result then
        (s, .error (.resultNotApplicable call.pairingId call.result isBye))
      else if pairing.result ≠ .unplayed ∧ call.blank then
        (s, .error (.resultChangeReasonRequired call.pairingId pairing.result))
      else (s.setResult call.pairingId call.result, .ok ())

def completeRound (allowed : Bool) (roundId : Nat) : Section × Except ArbiterError Unit :=
  match s.rounds.find? fun round => round.id = roundId with
  | none => (s, .error .notFound)
  | some round =>
      if ¬allowed then (s, .error .notFound)
      else if ¬s.inProgress then (s, .error .tournamentNotInProgress)
      else if round.status = .completed then (s, .error (.roundAlreadyCompleted roundId))
      else
        let unplayed := round.pairings.filter fun p => p.result = .unplayed
        if unplayed ≠ [] then
          (s, .error (.roundHasUnplayedGames roundId (unplayed.map PairingRow.boardNumber)))
        else
          ({ s with rounds := s.rounds.map fun round =>
              if round.id = roundId then { round with status := .completed } else round }, .ok ())

def withdraw (allowed : Bool) (registrationId : PlayerId) (reason : String) :
    Section × Except ArbiterError Unit :=
  if reason.toList.all isTrimmed then (s, .error .withdrawReasonRequired)
  else
    match s.registrations.find? fun r => r.id = registrationId with
    | none => (s, .error .notFound)
    | some registration =>
        if ¬allowed then (s, .error .notFound)
        else if registration.isWithdrawn then (s, .error (.alreadyWithdrawn registrationId))
        else
          ({ s with registrations := s.registrations.map fun r =>
              if r.id = registrationId then { r with isWithdrawn := true } else r }, .ok ())

end Section

/-- A request to the section. -/
inductive Request where
  | generateRound (allowed : Bool)
  | enterResult (call : ResultCall)
  | completeRound (allowed : Bool) (roundId : Nat)
  | withdraw (allowed : Bool) (registrationId : PlayerId) (reason : String)

def Section.serve (s : Section) : Request → Section
  | .generateRound allowed => (s.generateRound allowed).1
  | .enterResult call => (s.enterResult call).1
  | .completeRound allowed roundId => (s.completeRound allowed roundId).1
  | .withdraw allowed registrationId reason => (s.withdraw allowed registrationId reason).1

/-- A section starts without rounds, with any registrations. -/
structure Section.Start (s : Section) : Prop where
  rounds : s.rounds = []
  distinct : (s.registrations.map Registration.id).Nodup

def service : System Section Request where
  initial := Section.Start
  step s request := some (s.serve request)

end Farzin.Arbiter
