import Farzin.ArbiterStandings
import Farzin.Interleaving
import Farzin.RoundRobin
import Mathlib.Logic.Function.Basic

set_option autoImplicit false

/- The requests that arbiters make at the same time on one section (`generateRound`, `enterResult`
and `completeRound` of `modules/arbiter/arbiter.service.ts`), cut at their awaits. Each of them
ends by recomputing the standings, from what it reads at separate awaits. -/
namespace Farzin.Arbiter

open Interleaving
open TieBreak (TieBreakDataError)

inductive PairingSystem where
  | roundRobin
  | doubleRoundRobin
  | swissDutch
  | knockout
  | scheveningen
  | teamSwiss
  deriving DecidableEq, Repr

/-- The engines that there are. -/
def engineOf : PairingSystem → Option (PairingRequest → Except PairingError PairingResult)
  | .roundRobin => some (RoundRobin.compute .single)
  | .doubleRoundRobin => some (RoundRobin.compute .double)
  | .swissDutch => some Swiss.compute
  | .knockout | .scheveningen | .teamSwiss => none

/-- An outbox event. -/
structure RoundCompleted where
  roundId : Nat
  sectionId : String
  roundNumber : Nat
  deriving DecidableEq, Repr

/-- The rows of a section, with its standings by registration. -/
structure ArbiterDb where
  data : Section
  pairingSystem : PairingSystem
  tieBreakOrder : List String
  standings : PlayerId → Option StandingRow
  outbox : List RoundCompleted

/-- The errors that a request can meet only among others, and those of its later awaits. -/
inductive RequestError where
  | arbiter (error : ArbiterError)
  | pairingSystemNotImplemented (pairingSystem : PairingSystem)
  | pairingNumbersPartly (numbered total : Nat)
  | roundNumberTaken (number : Nat)
  | tieBreakData (error : TieBreakDataError)
  deriving DecidableEq, Repr

namespace Section

variable (s : Section)

/-- `assignPairingNumbers`, whatever it finds; the flag says whether it wrote. -/
def assignNumbers : Except RequestError (Section × Bool) :=
  let active := s.activeRegistrations
  let numbered := active.filter fun r => r.pairingNumber.isSome
  if numbered.length = active.length ∧ 0 < active.length then .ok (s, false)
  else if 0 < numbered.length then
    .error (.pairingNumbersPartly numbered.length active.length)
  else
    match s.assignPairingNumbers with
    | none => .error (.arbiter .pairingNumberTaken)
    | some after => .ok (after, decide (0 < active.length))

/-- The request for the next round, from what was read for it. -/
def pairingRequest (number : Nat) (participants : List Registration)
    (history : List PairingHistoryEntry) : PairingRequest where
  roundId := s!"{s.id}#{number}"
  roundNumber := number
  totalRounds := s.totalRounds
  players := buildPairingStates (toSeeds participants) history
  initialColor := none

def pairingError : PairingError → ArbiterError
  | .impossible _ reason => .pairingImpossible reason
  | .integrity roundId criterion reason => .pairingIntegrity roundId criterion reason
  | .internal message => .unexpected message

/-- The transaction that creates a round; its number is unique in the section. -/
def createRound (number : Nat) (result : PairingResult) : Except RequestError Section :=
  if s.rounds.any fun round => round.number = number then .error (.roundNumberTaken number)
  else .ok (s.createRoundWithPairings number result).1

/-- The checks of `enterResult` on the pairing that it has found. -/
def checkResult (call : ResultCall) (pairing : PairingRow) : Except ArbiterError Unit :=
  let isBye := pairing.blackRegistrationId.isNone
  if ¬call.allowed then .error .notFound
  else if ¬s.inProgress then .error .tournamentNotInProgress
  else if isBye ≠ isByeResult call.result then
    .error (.resultNotApplicable call.pairingId call.result isBye)
  else if pairing.result ≠ .unplayed ∧ call.blank then
    .error (.resultChangeReasonRequired call.pairingId pairing.result)
  else .ok ()

/-- The checks of `completeRound` on the round that it has found. -/
def checkRound (allowed : Bool) (round : RoundRow) : Except ArbiterError Unit :=
  if ¬allowed then .error .notFound
  else if ¬s.inProgress then .error .tournamentNotInProgress
  else if round.status = .completed then .error (.roundAlreadyCompleted round.id)
  else
    let unplayed := round.pairings.filter fun p => p.result = .unplayed
    if unplayed ≠ [] then
      .error (.roundHasUnplayedGames round.id (unplayed.map PairingRow.boardNumber))
    else .ok ()

def setCompleted (roundId : Nat) : Section :=
  { s with rounds := s.rounds.map fun round =>
      if round.id = roundId then { round with status := .completed } else round }

def findRound (roundId : Nat) : Option RoundRow := s.rounds.find? fun round => round.id = roundId

end Section

/-- Where a request is, with what it has read so far. The flag of the awaits of `generateRound`
says whether this request has given the pairing numbers; `writeCompleted` keeps the status that the
request has found. -/
inductive ArbiterCall where
  | generateRound (allowed : Bool)
  | latestRound
  | activeRegistrations (number : Nat)
  | assignNumbers (number : Nat)
  | participants (number : Nat) (assigned : Bool)
  | pair (number : Nat) (assigned : Bool) (participants : List Registration)
  | createRound (number : Nat) (assigned : Bool) (result : PairingResult)
  | enterResult (call : ResultCall)
  | checkResult (call : ResultCall) (pairing : PairingRow)
  | writeResult (call : ResultCall)
  | completeRound (allowed : Bool) (roundId : Nat)
  | checkRound (allowed : Bool) (round : RoundRow)
  | writeCompleted (roundId : Nat) (found : RoundStatus)
  | recompute
  | computeRows (participants : List Registration)
  | upsert (participants : List Registration) (history : List PairingHistoryEntry)
      (rows : List StandingRow)

def ArbiterCall.isRequest : ArbiterCall → Bool
  | .generateRound _ | .enterResult _ | .completeRound _ _ => true
  | _ => false

namespace ArbiterDb

variable (s : ArbiterDb)

def withData (data : Section) : ArbiterDb := { s with data }

def upsertStandings (rows : List StandingRow) : ArbiterDb :=
  { s with
    standings := rows.foldl
      (fun standings row => Function.update standings row.registrationId (some row))
      s.standings }

/-- The transaction that completes a round, with its outbox event. -/
def writeCompleted (roundId : Nat) : Except ArbiterError ArbiterDb :=
  match s.data.findRound roundId with
  | none => .error .notFound
  | some round =>
      .ok { s with
        data := s.data.setCompleted roundId
        outbox := s.outbox ++ [⟨roundId, s.data.id, round.number⟩] }

/-- `generateRound` from its read of the history to the result of its engine. -/
def pair (number : Nat) (participants : List Registration) :
    Except RequestError PairingResult :=
  match engineOf s.pairingSystem with
  | none => .error (.pairingSystemNotImplemented s.pairingSystem)
  | some engine =>
      (engine (s.data.pairingRequest number participants s.data.history)).mapError fun error =>
        .arbiter (Section.pairingError error)

def computeRows (participants : List Registration) :
    Except RequestError (List StandingRow) :=
  (standingRows (resolveTieBreakOrder s.tieBreakOrder) participants s.data.history).mapError
    .tieBreakData

def advance : ArbiterCall → ArbiterDb × Option ArbiterCall
  | .generateRound allowed =>
      if ¬allowed ∨ ¬s.data.inProgress ∨ (engineOf s.pairingSystem).isNone then (s, none)
      else (s, some .latestRound)
  | .latestRound =>
      match s.data.latestRound with
      | none => (s, some (.activeRegistrations 1))
      | some latest =>
          if latest.status ≠ .completed then (s, none)
          else (s, some (.activeRegistrations (latest.number + 1)))
  | .activeRegistrations number =>
      if s.data.activeRegistrations.all fun r => r.pairingNumber.isNone then
        (s, some (.assignNumbers number))
      else (s, some (.participants number false))
  | .assignNumbers number =>
      match s.data.assignNumbers with
      | .error _ => (s, none)
      | .ok (data, assigned) => (s.withData data, some (.participants number assigned))
  | .participants number assigned =>
      (s, some (.pair number assigned s.data.numberedRegistrations))
  | .pair number assigned participants =>
      match s.pair number participants with
      | .error _ => (s, none)
      | .ok result => (s, some (.createRound number assigned result))
  | .createRound number _ result =>
      match s.data.createRound number result with
      | .error _ => (s, none)
      | .ok data => (s.withData data, some .recompute)
  | .enterResult call =>
      (s, (s.data.findPairing call.pairingId).map (.checkResult call))
  | .checkResult call pairing =>
      match s.data.checkResult call pairing with
      | .error _ => (s, none)
      | .ok () => (s, some (.writeResult call))
  | .writeResult call =>
      match s.data.findPairing call.pairingId with
      | none => (s, none)
      | some _ => (s.withData (s.data.setResult call.pairingId call.result), some .recompute)
  | .completeRound allowed roundId =>
      (s, (s.data.findRound roundId).map (.checkRound allowed))
  | .checkRound allowed round =>
      match s.data.checkRound allowed round with
      | .error _ => (s, none)
      | .ok () => (s, some (.writeCompleted round.id round.status))
  | .writeCompleted roundId _ =>
      match s.writeCompleted roundId with
      | .error _ => (s, none)
      | .ok after => (after, some .recompute)
  | .recompute =>
      let participants := s.data.numberedRegistrations
      if participants.length = 0 then (s, none) else (s, some (.computeRows participants))
  | .computeRows participants =>
      match s.computeRows participants with
      | .error _ => (s, none)
      | .ok rows => (s, some (.upsert participants s.data.history rows))
  | .upsert _ _ rows => (s.upsertStandings rows, none)

end ArbiterDb

/-- The tournament may be started and stopped meanwhile. -/
inductive ArbiterEvent where
  | setInProgress (inProgress : Bool)
  deriving DecidableEq, Repr

/-- A section without rounds, numbers and standings. -/
structure ArbiterDb.Initial (s : ArbiterDb) : Prop where
  start : s.data.Start
  numbers : ∀ r ∈ s.data.registrations, r.pairingNumber = none
  standings : ∀ id, s.standings id = none
  outbox : s.outbox = []

def arbiterRequests : Program ArbiterDb ArbiterCall ArbiterEvent where
  initial := ArbiterDb.Initial
  arrives _ call := call.isRequest
  advance := ArbiterDb.advance
  event s := fun
    | .setInProgress inProgress => some (s.withData { s.data with inProgress })

end Farzin.Arbiter
