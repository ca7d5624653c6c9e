import Farzin.ArbiterTable
import Farzin.JsText

set_option autoImplicit false

/- What the exports of a section are written from: the rows that `sectionExportData` of
`modules/arbiter/arbiter.repository.ts` reads, and `modules/arbiter/export-mapping.ts`. A timestamp
is in milliseconds, and the day of a date in UTC stands for it. -/
namespace Farzin.Export

open Arbiter (ArbiterDb PairingResultValue PairingSystem)
open JsText

inductive Gender where
  | male
  | female
  deriving DecidableEq, Repr

/-- Points are in tenths, as `DECIMAL(4, 1)` keeps them. -/
structure ExportPlayer where
  registrationId : PlayerId
  startRank : Nat
  lastName : JsString
  firstName : JsString
  gender : Option Gender
  title : Option JsString
  rating : Option Nat
  federation : Option JsString
  fideId : Option JsString
  birthDate : Option JsString
  points : Nat
  rank : Option Nat
  deriving DecidableEq, Repr

structure ExportPairing where
  boardNumber : Nat
  whiteRegistrationId : PlayerId
  blackRegistrationId : Option PlayerId
  result : PairingResultValue
  pgn : Option JsString
  deriving DecidableEq, Repr

def ExportPairing.playerIds (pairing : ExportPairing) : List PlayerId :=
  pairing.whiteRegistrationId :: pairing.blackRegistrationId.toList

structure ExportRound where
  number : Nat
  date : Option JsString
  pairings : List ExportPairing
  deriving DecidableEq, Repr

structure SectionExportData where
  tournamentName : JsString
  sectionName : JsString
  site : Option JsString
  city : Option JsString
  federation : Option JsString
  startDate : Option JsString
  endDate : Option JsString
  tournamentType : Option JsString
  chiefArbiter : Option JsString
  players : List ExportPlayer
  rounds : List ExportRound
  deriving DecidableEq, Repr

structure Day where
  year : Int
  month : Nat
  day : Nat
  deriving DecidableEq, Repr

def padZero (n width : Nat) : JsString :=
  List.replicate (width - (natText n).length) (digitUnit 0) ++ natText n

/-- `toISOString().slice(0, 10)`. -/
def isoDate (d : Day) : JsString :=
  let year :=
    if 0 ≤ d.year ∧ d.year ≤ 9999 then padZero d.year.toNat 4
    else (if d.year < 0 then units "-" else units "+") ++ padZero d.year.natAbs 6
  (year ++ units "-" ++ padZero d.month 2 ++ units "-" ++ padZero d.day 2).take 10

structure SectionContextRow where
  tournamentName : JsString
  venueName : Option JsString
  startDate : Int
  endDate : Int
  name : JsString
  pairingSystem : PairingSystem
  deriving DecidableEq, Repr

structure ExportPlayerRow where
  registrationId : PlayerId
  pairingNumber : Nat
  ratingAtEntry : Option Nat
  titleAtEntry : Option JsString
  firstName : JsString
  lastName : JsString
  gender : Option Gender
  birthDate : Option Day
  fideId : Option JsString
  points : Option Nat
  rank : Option Nat
  deriving DecidableEq, Repr

structure ExportRoundRow where
  number : Nat
  scheduledStartAt : Option Int
  pairings : List ExportPairing
  deriving DecidableEq, Repr

structure SectionExportRows where
  players : List ExportPlayerRow
  rounds : List ExportRoundRow
  deriving DecidableEq, Repr

/-- The columns of a registration and of its player that only the exports read. -/
structure Profile where
  titleAtEntry : Option JsString
  firstName : JsString
  lastName : JsString
  gender : Option Gender
  birthDate : Option Day
  fideId : Option JsString
  deriving DecidableEq, Repr

section Rows

variable (profile : PlayerId → Profile) (pgn : Nat → Option JsString)
  (scheduledStartAt : Nat → Option Int)

/-- The rows of everyone with a number and of all rounds, the columns that only the exports read
handed in by the id of their row. -/
def sectionExportData (s : ArbiterDb) : SectionExportRows where
  players := s.data.numberedRegistrations.map fun r =>
    { registrationId := r.id
      pairingNumber := (r.pairingNumber.getD 0).toNat
      ratingAtEntry := r.ratingAtEntry.map Int.toNat
      titleAtEntry := (profile r.id).titleAtEntry
      firstName := (profile r.id).firstName
      lastName := (profile r.id).lastName
      gender := (profile r.id).gender
      birthDate := (profile r.id).birthDate
      fideId := (profile r.id).fideId
      points := (s.standings r.id).map fun row => ⌊row.points * 10⌋.toNat
      rank := (s.standings r.id).map Arbiter.StandingRow.rank }
  rounds := (s.data.rounds.insertionSort fun a b => a.number ≤ b.number).map fun round =>
    { number := round.number
      scheduledStartAt := scheduledStartAt round.id
      pairings := (round.pairings.insertionSort fun a b => a.boardNumber ≤ b.boardNumber).map
        fun p =>
          { boardNumber := p.boardNumber
            whiteRegistrationId := p.whiteRegistrationId
            blackRegistrationId := p.blackRegistrationId
            result := p.result
            pgn := pgn p.id } }

end Rows

def hostFederation : JsString := units "UZB"

def trfTournamentType : PairingSystem → JsString
  | .swissDutch => units "Individual: Swiss-System"
  | .roundRobin => units "Individual: Round-Robin"
  | .doubleRoundRobin => units "Individual: Double Round-Robin"
  | .knockout => units "Individual: Knock-Out"
  | .scheveningen => units "Team: Scheveningen"
  | .teamSwiss => units "Team: Swiss-System"

section Mapping

-- `formatInTimeZone` of date-fns-tz with the zone Asia/Tashkent and the pattern `yyyy-MM-dd`
variable (tashkentDate : Int → JsString)

/-- A formatted date takes one line. -/
def DatesOneLine : Prop := ∀ date, lineFeed ∉ tashkentDate date

def buildSectionExportData (context : SectionContextRow) (rows : SectionExportRows) :
    SectionExportData where
  tournamentName := context.tournamentName
  sectionName := context.name
  site := context.venueName.map fun venue => venue ++ units ", Tashkent " ++ hostFederation
  city := some (units "Tashkent")
  federation := some hostFederation
  startDate := some (tashkentDate context.startDate)
  endDate := some (tashkentDate context.endDate)
  tournamentType := some (trfTournamentType context.pairingSystem)
  chiefArbiter := none
  players := rows.players.map fun p =>
    { registrationId := p.registrationId
      startRank := p.pairingNumber
      lastName := p.lastName
      firstName := p.firstName
      gender := p.gender
      title := p.titleAtEntry
      rating := p.ratingAtEntry
      federation := some hostFederation
      fideId := p.fideId
      birthDate := p.birthDate.map isoDate
      points := p.points.getD 0
      rank := p.rank }
  rounds := rows.rounds.map fun round =>
    { number := round.number
      date := round.scheduledStartAt.map tashkentDate
      pairings := round.pairings }

end Mapping

end Farzin.Export
