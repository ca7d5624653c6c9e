import Farzin.Checked
import Farzin.PairingTypes

set_option autoImplicit false

/- The tie-break calculator (`core/tiebreak/tiebreak.calculator.ts`). Scores are counted in half
points, the products of Sonneborn-Berger in quarter points. -/
namespace Farzin.TieBreak

inductive TieBreakKey where
  | buchholz
  | buchholzCut1
  | medianBuchholz
  | sonnebornBerger
  | directEncounter
  | cumulative
  | aro
  | koya
  | wins
  | blackGames
  deriving DecidableEq, Repr

def TieBreakKey.name : TieBreakKey → String
  | .buchholz => "BUCHHOLZ"
  | .buchholzCut1 => "BUCHHOLZ_CUT1"
  | .medianBuchholz => "MEDIAN_BUCHHOLZ"
  | .sonnebornBerger => "SONNEBORN_BERGER"
  | .directEncounter => "DIRECT_ENCOUNTER"
  | .cumulative => "CUMULATIVE"
  | .aro => "ARO"
  | .koya => "KOYA"
  | .wins => "WINS"
  | .blackGames => "BLACK_GAMES"

def tieBreakKeys : List TieBreakKey :=
  [.buchholz, .buchholzCut1, .medianBuchholz, .sonnebornBerger, .directEncounter, .cumulative,
    .aro, .koya, .wins, .blackGames]

/-- What one unit of the value that is shown is inside the calculator. -/
def TieBreakKey.displayDivisor : TieBreakKey → Rat
  | .buchholz | .buchholzCut1 | .medianBuchholz => 2
  | .sonnebornBerger => 4
  | .directEncounter | .cumulative | .koya => 2
  | .aro | .wins | .blackGames => 1

/-- One game of a player; without an opponent it is a bye. -/
structure GameRecord where
  opponentId : Option PlayerId
  color : Option Color
  result : Rat
  playedOverBoard : Bool
  deriving DecidableEq, Repr

/-- The games are in the order of their rounds. -/
structure PlayerTieBreakInput where
  playerId : PlayerId
  points : Rat
  rating : Option Int
  games : List GameRecord
  deriving DecidableEq, Repr

inductive TieBreakDataError where
  | halfPoints (points : Rat)
  | duplicate (playerId : PlayerId)
  | noOpponent (playerId : PlayerId)
  | unknownOpponent (playerId opponentId : PlayerId)
  deriving DecidableEq, Repr

def TieBreakDataError.reason : TieBreakDataError → String
  | .halfPoints points => s!"ochko 0.5 qadamda emas: {points}"
  | .duplicate playerId => s!"dublikat o'yinchi: {playerId}"
  | .noOpponent playerId =>
      s!"{playerId}: taxtada o'ynalgan partiya raqibsiz bo'lishi mumkin emas"
  | .unknownOpponent playerId opponentId => s!"{playerId}: noma'lum raqib {opponentId}"

/-- The values of one player that apply, in the order of the keys. -/
abbrev TieBreakResult := List (TieBreakKey × Rat)

/-- Without a rating for unrated opponents these do not count. -/
structure TieBreakOptions where
  unratedRating : Option Int
  deriving DecidableEq, Repr

structure TieBreakContext where
  players : List PlayerTieBreakInput
  points2 : List (PlayerId × Rat)
  totalRounds : Nat
  deriving DecidableEq, Repr

def toHalfPoints (points : Rat) : Except TieBreakDataError Rat :=
  if (points * 2).den = 1 then .ok (points * 2) else .error (.halfPoints points)

section BuildContext

def addPlayer (points2 : List (PlayerId × Rat)) (p : PlayerTieBreakInput) :
    Except TieBreakDataError (List (PlayerId × Rat)) :=
  if p.playerId ∈ points2.map Prod.fst then .error (.duplicate p.playerId)
  else do
    let own ← toHalfPoints p.points
    return points2 ++ [(p.playerId, own)]

def checkGame (ids : List PlayerId) (playerId : PlayerId) (game : GameRecord) :
    Except TieBreakDataError Unit :=
  match game.opponentId with
  | none => if game.playedOverBoard then .error (.noOpponent playerId) else .ok ()
  | some opponentId =>
      if opponentId ∈ ids then .ok () else .error (.unknownOpponent playerId opponentId)

def buildContext (players : List PlayerTieBreakInput) :
    Except TieBreakDataError TieBreakContext := do
  let points2 ← players.foldlM addPlayer []
  players.forM fun p => p.games.forM (checkGame (points2.map Prod.fst) p.playerId)
  return ⟨players, points2, players.foldl (fun rounds p => max rounds p.games.length) 0⟩

end BuildContext

def result2 (game : GameRecord) : Rat := game.result * 2

/-- The opponent of a game that was played over the board. -/
def metOpponent (game : GameRecord) : Option PlayerId :=
  if game.playedOverBoard then game.opponentId else none

/-- The sum over the games against a met opponent. -/
def sumMet (p : PlayerTieBreakInput) (value : GameRecord → PlayerId → Rat) : Rat :=
  (p.games.map fun game => match metOpponent game with
    | some opponentId => value game opponentId
    | none => 0).sum

namespace TieBreakContext

variable (ctx : TieBreakContext)

def pointsOf (playerId : PlayerId) : Rat := (ctx.points2.lookup playerId).getD 0

/-- The contributions from a round on. An unplayed round counts as one against a virtual opponent:
with the points before it, the opposite result, and draws from there to the end. -/
def contributionsFrom (before2 : Rat) (round : Nat) : List GameRecord → List Rat
  | [] => []
  | game :: rest =>
      let own := match metOpponent game with
        | some opponentId => ctx.pointsOf opponentId
        | none => before2 + (2 - result2 game) + ((ctx.totalRounds : Rat) - round)
      own :: contributionsFrom (before2 + result2 game) (round + 1) rest

def buchholzContributions2 (p : PlayerTieBreakInput) : List Rat :=
  ctx.contributionsFrom 0 1 p.games

def sonnebornBerger4 (p : PlayerTieBreakInput) : Rat :=
  sumMet p fun game opponentId => ctx.pointsOf opponentId * result2 game

/-- The players with as many points. -/
def group (p : PlayerTieBreakInput) : List PlayerTieBreakInput :=
  ctx.players.filter fun q => ctx.pointsOf q.playerId = ctx.pointsOf p.playerId

/-- The opponents that a player has met in its group. -/
def metInGroup (p : PlayerTieBreakInput) : List PlayerId :=
  ((p.games.filterMap metOpponent).filter fun id =>
    id ≠ p.playerId ∧ id ∈ (ctx.group p).map PlayerTieBreakInput.playerId).dedup

/-- The points among the group, where everyone in it has met everyone else. -/
def directEncounter2 (p : PlayerTieBreakInput) : Option Rat :=
  let members := ctx.group p
  if members.all fun q => decide (members.length - 1 ≤ (ctx.metInGroup q).length) then
    some (sumMet p fun game opponentId =>
      if opponentId ≠ p.playerId ∧ opponentId ∈ members.map PlayerTieBreakInput.playerId then
        result2 game
      else 0)
  else none

def koya2 (p : PlayerTieBreakInput) : Rat :=
  sumMet p fun game opponentId =>
    if (ctx.totalRounds : Rat) ≤ ctx.pointsOf opponentId then result2 game else 0

/-- The average rating of the opponents. -/
def aro (options : TieBreakOptions) (p : PlayerTieBreakInput) : Rat :=
  let ratings := (p.games.filterMap metOpponent).filterMap fun opponentId =>
    ((ctx.players.find? fun q => q.playerId = opponentId).bind
      PlayerTieBreakInput.rating).or options.unratedRating
  if ratings.length = 0 then 0 else (ratings.sum : Rat) / ratings.length

end TieBreakContext

/-- Without the lowest and the highest contributions. -/
def buchholzCut (contributions2 : List Rat) (cutLow cutHigh : Nat) : Rat :=
  if contributions2.length ≤ cutLow + cutHigh then 0
  else
    let sorted := contributions2.insertionSort fun a b => a ≤ b
    ((sorted.drop cutLow).take (contributions2.length - cutLow - cutHigh)).sum

/-- The sum of the running scores. -/
def cumulativeFrom (running2 : Rat) : List GameRecord → Rat
  | [] => 0
  | game :: rest => running2 + result2 game + cumulativeFrom (running2 + result2 game) rest

def cumulative2 (p : PlayerTieBreakInput) : Rat := cumulativeFrom 0 p.games

/-- A full point without an opponent is no win. -/
def wins (p : PlayerTieBreakInput) : Nat :=
  p.games.countP fun game => decide (game.result = 1 ∧ game.opponentId.isSome)

def blackGames (p : PlayerTieBreakInput) : Nat :=
  p.games.countP fun game => game.playedOverBoard && decide (game.color = some .black)

section Calculator

variable (options : TieBreakOptions)

/-- A value in the units of the calculator; `none` where the tie-break does not apply. -/
def computeInternal (key : TieBreakKey) (ctx : TieBreakContext) (p : PlayerTieBreakInput) :
    Option Rat :=
  match key with
  | .buchholz => some (ctx.buchholzContributions2 p).sum
  | .buchholzCut1 => some (buchholzCut (ctx.buchholzContributions2 p) 1 0)
  | .medianBuchholz => some (buchholzCut (ctx.buchholzContributions2 p) 1 1)
  | .sonnebornBerger => some (ctx.sonnebornBerger4 p)
  | .directEncounter => ctx.directEncounter2 p
  | .cumulative => some (cumulative2 p)
  | .aro => some (ctx.aro options p)
  | .koya => some (ctx.koya2 p)
  | .wins => some (wins p)
  | .blackGames => some (blackGames p)

/-- The keys without repetitions, each where it comes first. -/
def dedupe (order : List TieBreakKey) : List TieBreakKey :=
  order.foldl (fun out key => if key ∈ out then out else out ++ [key]) []

def compute (players : List PlayerTieBreakInput) (order : List TieBreakKey) :
    Except TieBreakDataError (List (PlayerId × TieBreakResult)) := do
  let ctx ← buildContext players
  return players.map fun p =>
    (p.playerId, (dedupe order).filterMap fun key =>
      (computeInternal options key ctx p).map fun raw => (key, raw / key.displayDivisor))

def comparePlayerId (a b : PlayerId) : Rat :=
  if a < b then -1 else if b < a then 1 else 0

/-- The first key that tells two players apart; one that does not apply to both is skipped. -/
def compareKeys (ctx : TieBreakContext) (a b : PlayerTieBreakInput) : List TieBreakKey → Rat
  | [] => comparePlayerId a.playerId b.playerId
  | key :: rest =>
      match computeInternal options key ctx a, computeInternal options key ctx b with
      | some va, some vb => if va ≠ vb then vb - va else compareKeys ctx a b rest
      | _, _ => compareKeys ctx a b rest

/-- Negative where `a` comes before `b`. -/
def comparePlayers (ctx : TieBreakContext) (keys : List TieBreakKey)
    (a b : PlayerTieBreakInput) : Rat :=
  let pa := ctx.pointsOf a.playerId
  let pb := ctx.pointsOf b.playerId
  if pa ≠ pb then pb - pa else compareKeys options ctx a b keys

def rank (players : List PlayerTieBreakInput) (order : List TieBreakKey) :
    Except TieBreakDataError (List PlayerId) := do
  let ctx ← buildContext players
  let keys := dedupe order
  return (players.insertionSort fun a b => comparePlayers options ctx keys a b ≤ 0).map
    PlayerTieBreakInput.playerId

end Calculator

section Sound

/-- Distinct players with half points, whose opponents are among them. -/
structure Sound (players : List PlayerTieBreakInput) : Prop where
  distinct : (players.map PlayerTieBreakInput.playerId).Nodup
  halves : ∀ p ∈ players, (p.points * 2).den = 1
  opponents : ∀ p ∈ players, ∀ game ∈ p.games, ∀ opponentId ∈ game.opponentId,
    opponentId ∈ players.map PlayerTieBreakInput.playerId
  board : ∀ p ∈ players, ∀ game ∈ p.games, game.playedOverBoard = true →
    game.opponentId.isSome

theorem addPlayers_ok (players : List PlayerTieBreakInput) (points2 : List (PlayerId × Rat))
    (distinct : (points2.map Prod.fst ++ players.map PlayerTieBreakInput.playerId).Nodup)
    (halves : ∀ p ∈ players, (p.points * 2).den = 1) :
    players.foldlM addPlayer points2 =
      .ok (points2 ++ players.map fun p => (p.playerId, p.points * 2)) := by
  induction players generalizing points2 with
  | nil => simp [pure, Except.pure]
  | cons p players ih =>
      have apart := (List.nodup_append.mp distinct).2.2
      have new : p.playerId ∉ points2.map Prod.fst := fun seen =>
        apart _ seen _ (List.mem_cons_self) rfl
      have own : addPlayer points2 p = .ok (points2 ++ [(p.playerId, p.points * 2)]) := by
        rw [addPlayer, if_neg new, toHalfPoints, if_pos (halves p (List.mem_cons_self))]
        rfl
      rw [List.foldlM_cons, own]
      change players.foldlM addPlayer (points2 ++ [(p.playerId, p.points * 2)]) = _
      rw [ih]
      · simp
      · simpa using distinct
      · exact fun q listed => halves q (List.mem_cons_of_mem p listed)

/-- The calculator accepts sound players. -/
theorem Sound.context {players : List PlayerTieBreakInput} (sound : Sound players) :
    ∃ ctx, buildContext players = .ok ctx := by
  have points := addPlayers_ok players [] sound.distinct sound.halves
  rw [List.nil_append] at points
  refine ⟨⟨players, players.map fun p => (p.playerId, p.points * 2),
    players.foldl (fun rounds p => max rounds p.games.length) 0⟩, ?_⟩
  have ids : (players.map fun p => (p.playerId, p.points * 2)).map Prod.fst =
      players.map PlayerTieBreakInput.playerId := by
    rw [List.map_map]
    rfl
  have games : (players.forM fun p => p.games.forM
      (checkGame (players.map PlayerTieBreakInput.playerId) p.playerId)) = .ok () := by
    apply Checked.forM_ok
    intro p listed
    apply Checked.forM_ok
    intro game played
    rw [checkGame]
    split
    · rename_i none
      rw [if_neg]
      intro board
      have met := sound.board p listed game played board
      rw [none] at met
      cases met
    · rename_i opponentId some
      rw [if_pos (sound.opponents p listed game played opponentId some)]
  rw [buildContext, points]
  change ((players.forM fun p => p.games.forM (checkGame
    ((players.map fun p => (p.playerId, p.points * 2)).map Prod.fst) p.playerId)) >>= _) = _
  rw [ids, games]
  rfl

end Sound

end Farzin.TieBreak
