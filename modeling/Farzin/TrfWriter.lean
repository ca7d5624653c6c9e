import Farzin.ExportData
import Mathlib.Data.List.Sort

set_option autoImplicit false

/- The writer of tournament reports (`core/export/trf-writer.ts`), unit by unit. -/
namespace Farzin.Trf

open Arbiter (PairingResultValue)
open Export JsText

inductive Align where
  | left
  | right
  deriving DecidableEq, Repr

/-- A value that does not fit is cut. -/
def fixed (value : JsString) (width : Nat) (align : Align) : JsString :=
  let field := if value.length > width then value.take width else value
  match align with
  | .left => padEnd field width
  | .right => padStart field width

def sexChar : Option Gender → JsString
  | some .male => units "m"
  | some .female => units "w"
  | none => units " "

def fideTitles : List JsString :=
  [units "GM", units "IM", units "FM", units "CM", units "WGM", units "WIM", units "WFM",
    units "WCM"]

def trfTitle (title : Option JsString) : JsString :=
  match title with
  | some title => if title ∈ fideTitles then title else []
  | none => []

def trfDate (isoDate : Option JsString) : JsString :=
  match isoDate with
  | some date => date.map fun u => if u = 45 then 47 else u
  | none => []

/-- The color and the result of one side. No color stands beside a bye. -/
def sideOutcome (result : PairingResultValue) (isWhite : Bool) : JsString × JsString :=
  let color := if isWhite then units "w" else units "b"
  match result with
  | .whiteWin => (color, if isWhite then units "1" else units "0")
  | .blackWin => (color, if isWhite then units "0" else units "1")
  | .draw => (color, units "=")
  | .whiteWinForfeit => (color, if isWhite then units "+" else units "-")
  | .blackWinForfeit => (color, if isWhite then units "-" else units "+")
  | .doubleForfeit => (color, units "-")
  | .byeFull => (units "-", units "U")
  | .byeHalf => (units "-", units "H")
  | .byeZero => (units "-", units "Z")
  -- The writer stops before it comes here.
  | .unplayed => ([], [])

def findPairing (registrationId : PlayerId) (round : ExportRound) : Option ExportPairing :=
  round.pairings.find? fun pairing =>
    pairing.whiteRegistrationId = registrationId ∨
      pairing.blackRegistrationId = some registrationId

/-- A `Map` of the ranks: the last player with an id counts. -/
def startRankById (players : List ExportPlayer) (registrationId : PlayerId) : Option Nat :=
  (players.reverse.find? fun player => player.registrationId = registrationId).map
    ExportPlayer.startRank

def roundBlock (players : List ExportPlayer) (player : ExportPlayer) (round : ExportRound) :
    JsString :=
  match findPairing player.registrationId round with
  | none => units "  0000 - -"
  | some pairing =>
      if pairing.result = .unplayed then units "  0000 - -"
      else
        let isWhite := decide (pairing.whiteRegistrationId = player.registrationId)
        let opponentId :=
          if isWhite then pairing.blackRegistrationId else some pairing.whiteRegistrationId
        let opponent :=
          match opponentId.bind (startRankById players) with
          | none => units "0000"
          | some rank => fixed (natText rank) 4 .right
        let (colorChar, resultChar) := sideOutcome pairing.result isWhite
        units "  " ++ opponent ++ units " " ++ colorChar ++ units " " ++ resultChar

def playerName (player : ExportPlayer) : JsString :=
  player.lastName ++ units ", " ++ player.firstName

def playerLine (players : List ExportPlayer) (player : ExportPlayer) (rounds : List ExportRound) :
    JsString :=
  let parts := [
    units "001",
    fixed (natText player.startRank) 4 .right,
    sexChar player.gender ++ fixed (trfTitle player.title) 3 .right,
    fixed (playerName player) 33 .left,
    fixed (natText (player.rating.getD 0)) 4 .right,
    fixed (player.federation.getD []) 3 .left,
    fixed (player.fideId.getD []) 11 .right,
    fixed (trfDate player.birthDate) 10 .left,
    fixed (tenthsText player.points) 4 .right,
    fixed ((player.rank.map natText).getD []) 4 .right]
  join (units " ") parts ++ rounds.flatMap (roundBlock players player)

def byStartRank (players : List ExportPlayer) : List ExportPlayer :=
  players.insertionSort fun a b => a.startRank ≤ b.startRank

def byNumber (rounds : List ExportRound) : List ExportRound :=
  rounds.insertionSort fun a b => a.number ≤ b.number

def headerLines (data : SectionExportData) : List JsString :=
  [units "012 " ++ data.tournamentName ++ units " - " ++ data.sectionName,
    units "022 " ++ data.city.getD [],
    units "032 " ++ data.federation.getD [],
    units "042 " ++ trfDate data.startDate,
    units "052 " ++ trfDate data.endDate,
    units "062 " ++ natText data.players.length,
    units "072 " ++ natText (data.players.filter fun p => p.rating.isSome).length,
    units "092 " ++ data.tournamentType.getD []] ++
  match data.chiefArbiter with
  | some name => [units "102 " ++ name]
  | none => []

def writeSectionTrf (data : SectionExportData) : JsString :=
  let players := byStartRank data.players
  let rounds := byNumber data.rounds
  let lines := headerLines data ++ players.map fun player => playerLine players player rounds
  join [lineFeed] (lines.map trimEnd) ++ [lineFeed]

end Farzin.Trf
