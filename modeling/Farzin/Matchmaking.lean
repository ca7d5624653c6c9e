import Farzin.PlayClock
import Farzin.Transition
import Mathlib.Data.List.Sort
import Mathlib.Data.Rat.Defs
import Mathlib.Logic.Function.Basic

set_option autoImplicit false

/- `play/matchmaking.service.ts`: the queues in Redis and the requests on them, cut at their
awaits. The key of a bucket stands for its pool, and an id for its number. -/
namespace Farzin.Matchmaking

open Play (ChessClockType)

inductive TimeCategory where
  | classical
  | rapid
  | blitz
  | bullet
  deriving DecidableEq, Repr

/-- `core/clock/time-category.ts`. -/
def onlineTimeCategory (baseTimeSeconds incrementSeconds : Nat) : TimeCategory :=
  let effectiveMinutes : Rat := (baseTimeSeconds : Rat) / 60 + incrementSeconds
  if effectiveMinutes < 3 then .bullet
  else if effectiveMinutes ≤ 10 then .blitz
  else if effectiveMinutes < 30 then .rapid
  else .classical

structure MatchmakingConfig where
  initialDelta : Nat
  deltaStep : Nat
  stepIntervalMs : Nat
  maxDelta : Nat
  deriving DecidableEq, Repr

def defaultMatchmakingConfig : MatchmakingConfig where
  initialDelta := 200
  deltaStep := 50
  stepIntervalMs := 10000
  maxDelta := 500

def currentDelta (cfg : MatchmakingConfig) (waitedMs : Int) : Nat :=
  let steps := waitedMs.toNat / cfg.stepIntervalMs
  min (cfg.initialDelta + steps * cfg.deltaStep) cfg.maxDelta

structure PoolId where
  timeCategory : TimeCategory
  clockType : ChessClockType
  baseTimeSeconds : Nat
  incrementSeconds : Nat
  deriving DecidableEq, Repr

/-- The checks of `join` before its first await. -/
def PoolId.accepted (pool : PoolId) : Bool :=
  decide (pool.clockType ≠ .multiStage ∧
    pool.timeCategory = onlineTimeCategory pool.baseTimeSeconds pool.incrementSeconds)

structure QueueMeta where
  u : Nat
  t : Int
  r : Rat
  deriving DecidableEq, Repr

/-- A member of a sorted set with its score. `entry` is the number of the `join` that put it
there, which is bookkeeping. -/
structure Member where
  playerId : Nat
  score : Rat
  entry : Nat
  deriving DecidableEq, Repr

/-- The order of a sorted set: by score, then by member. -/
def Member.upTo (a b : Member) : Prop :=
  a.score < b.score ∨ (a.score = b.score ∧ a.playerId ≤ b.playerId)

instance : DecidableRel Member.upTo := fun a b =>
  inferInstanceAs (Decidable (a.score < b.score ∨ (a.score = b.score ∧ a.playerId ≤ b.playerId)))

structure Redis where
  queue : PoolId → List Member
  metas : PoolId → Nat → Option QueueMeta
  marker : Nat → Option PoolId
  registry : List PoolId

namespace Redis

variable (s : Redis)

def empty : Redis where
  queue _ := []
  metas _ _ := none
  marker _ := none
  registry := []

def setQueue (pool : PoolId) (members : List Member) : Redis :=
  { s with queue := Function.update s.queue pool members }

def setMeta (pool : PoolId) (playerId : Nat) (info : Option QueueMeta) : Redis :=
  { s with metas := Function.update s.metas pool (Function.update (s.metas pool) playerId info) }

def setMarker (playerId : Nat) (pool : Option PoolId) : Redis :=
  { s with marker := Function.update s.marker playerId pool }

/-- `ZSCORE`, with the whole member. -/
def zscore (pool : PoolId) (playerId : Nat) : Option Member :=
  (s.queue pool).find? fun m => m.playerId = playerId

def zadd (pool : PoolId) (member : Member) : Redis :=
  s.setQueue pool
    (((s.queue pool).filter fun m => m.playerId ≠ member.playerId).orderedInsert Member.upTo member)

def zrem (pool : PoolId) (playerId : Nat) : Redis :=
  s.setQueue pool ((s.queue pool).filter fun m => m.playerId ≠ playerId)

/-- `ZRANGEBYSCORE` with `LIMIT 0 10`. -/
def zrangebyscore (pool : PoolId) (low high : Rat) : List Nat :=
  (((s.queue pool).filter fun m => low ≤ m.score ∧ m.score ≤ high).take 10).map Member.playerId

def sadd (pool : PoolId) : Redis :=
  { s with registry := if pool ∈ s.registry then s.registry else s.registry ++ [pool] }

def srem (pool : PoolId) : Redis :=
  { s with registry := s.registry.filter fun p => p ≠ pool }

/-- The `MULTI` of `join`; the keys that it lets expire do so in steps of their own. -/
def enqueue (pool : PoolId) (member : Member) (info : QueueMeta) : Redis :=
  ((s.zadd pool member).setMeta pool member.playerId (some info)).sadd pool

/-- The `MULTI` of `leave`. -/
def dequeue (pool : PoolId) (playerId : Nat) : Redis :=
  ((s.zrem pool playerId).setMeta pool playerId none).setMarker playerId none

/-- `PAIR_SCRIPT`: the members it takes out, if both are there. -/
def pairScript (pool : PoolId) (a b : Nat) : Option (Member × Member × Redis) :=
  match s.zscore pool a, s.zscore pool b with
  | some first, some second => some (first, second, (s.dequeue pool a).dequeue pool b)
  | _, _ => none

end Redis

structure Waiting where
  playerId : Nat
  rating : Rat
  info : QueueMeta
  deriving DecidableEq, Repr

/-- The arguments of `pairAndCreate`. -/
structure Attempt where
  pool : PoolId
  aPlayerId : Nat
  aMeta : QueueMeta
  bPlayerId : Nat
  bMeta : QueueMeta
  deriving DecidableEq, Repr

/-- The game that `pairAndCreate` asks for, with the entries that it was made of. -/
structure MatchedGame where
  pool : PoolId
  whitePlayerId : Nat
  whiteUserId : Nat
  whiteEntry : Nat
  blackPlayerId : Nat
  blackUserId : Nat
  blackEntry : Nat
  isRated : Bool
  deriving DecidableEq, Repr

/-- The player who waited longer has White. -/
def Attempt.game (attempt : Attempt) (a b : Member) : MatchedGame :=
  if attempt.aMeta.t ≤ attempt.bMeta.t then
    { pool := attempt.pool
      whitePlayerId := attempt.aPlayerId
      whiteUserId := attempt.aMeta.u
      whiteEntry := a.entry
      blackPlayerId := attempt.bPlayerId
      blackUserId := attempt.bMeta.u
      blackEntry := b.entry
      isRated := true }
  else
    { pool := attempt.pool
      whitePlayerId := attempt.bPlayerId
      whiteUserId := attempt.bMeta.u
      whiteEntry := b.entry
      blackPlayerId := attempt.aPlayerId
      blackUserId := attempt.aMeta.u
      blackEntry := a.entry
      isRated := true }

/-- Who waits for `pairAndCreate`: `tryMatchFor` with the candidates left, or the loops of
`sweepBucket` at one player, with those passed over and those ahead. -/
inductive Caller where
  | tryMatchFor (pool : PoolId) (playerId : Nat) (info : QueueMeta) (candidates : List Nat)
  | sweepBucket (pool : PoolId) (now : Int) (a : Waiting) (passed : List Waiting) (b : Waiting)
      (ahead : List Waiting) (buckets : List PoolId)
  deriving DecidableEq, Repr

/-- Where a request stands: each constructor is the wait before its next await. -/
inductive Stage where
  | joinFind (userId : Nat) (pool : PoolId)
  | joinRate (userId : Nat) (pool : PoolId) (playerId : Nat)
  | joinMark (userId : Nat) (pool : PoolId) (playerId : Nat) (rating : Rat)
  | joinAdd (pool : PoolId) (playerId : Nat) (info : QueueMeta)
  | joinRange (pool : PoolId) (playerId : Nat) (info : QueueMeta)
  | joinMeta (pool : PoolId) (playerId : Nat) (info : QueueMeta) (candidateId : Nat)
      (candidates : List Nat)
  | leaveFind (userId : Nat)
  | leaveGet (playerId : Nat)
  | leaveRemove (playerId : Nat) (pool : PoolId)
  | sweepRegistry
  | sweepRange (pool : PoolId) (buckets : List PoolId)
  | sweepForget (pool : PoolId) (buckets : List PoolId)
  | sweepMeta (pool : PoolId) (members : List Member) (buckets : List PoolId)
  | pairing (attempt : Attempt) (caller : Caller)
  | creating (game : MatchedGame) (caller : Caller)
  | starting (game : MatchedGame) (gameId : Nat) (caller : Caller)
  deriving DecidableEq, Repr

/-- What can be seen of the requests from outside, in order. -/
inductive Event where
  | joined (call : Nat) (gameId : Option Nat)
  | left (call playerId : Nat)
  | notLeft (call : Nat)
  | created (game : MatchedGame)
  | matched (gameId whiteUserId blackUserId : Nat)
  deriving DecidableEq, Repr

/-- What the other services, the clock and Redis answer to an await. -/
structure Reply where
  player : Option Nat
  rating : Option Rat
  now : Int
  buckets : List PoolId
  gameId : Nat
  deriving DecidableEq, Repr

section Loops

variable (cfg : MatchmakingConfig) (pool : PoolId)

/-- The inner loop of `sweepBucket` up to the next player in the window of `a`. -/
def findPartner (now : Int) (a : Waiting) (passed : List Waiting) :
    List Waiting → Option (List Waiting × Waiting × List Waiting)
  | [] => none
  | b :: ahead =>
      let window := max (currentDelta cfg (now - a.info.t)) (currentDelta cfg (now - b.info.t))
      if |a.rating - b.rating| > window then findPartner now a (passed ++ [b]) ahead
      else some (passed, b, ahead)

def sweepAttempt (now : Int) (a : Waiting) (buckets : List PoolId)
    (found : List Waiting × Waiting × List Waiting) : Stage :=
  .pairing ⟨pool, a.playerId, a.info, found.2.1.playerId, found.2.1.info⟩
    (.sweepBucket pool now a found.1 found.2.1 found.2.2 buckets)

def nextBucket : List PoolId → Option Stage
  | [] => none
  | pool :: buckets => some (.sweepRange pool buckets)

/-- The outer loop of `sweepBucket` over the players it has not come to yet. -/
def sweepFrom (now : Int) (buckets : List PoolId) : List Waiting → Option Stage
  | [] => nextBucket buckets
  | a :: others =>
      match findPartner cfg now a [] others with
      | some found => some (sweepAttempt pool now a buckets found)
      | none => sweepFrom now buckets others

/-- `waiting`: the members whose metadata is there, those who waited longest first. -/
def waitingOf (s : Redis) (members : List Member) : List Waiting :=
  (members.filterMap fun m =>
    (s.metas pool m.playerId).map fun info => ⟨m.playerId, m.score, info⟩).insertionSort
      fun a b => a.info.t ≤ b.info.t

/-- The loop of `tryMatchFor`; `none` is the return of `queued`. -/
def nextCandidate (playerId : Nat) (info : QueueMeta) : List Nat → Option Stage
  | [] => none
  | candidateId :: candidates =>
      if candidateId = playerId then nextCandidate playerId info candidates
      else some (.joinMeta pool playerId info candidateId candidates)

end Loops

/-- The redis, the events and the rest of a request after one await. -/
structure Served where
  redis : Redis
  events : List Event
  stage : Option Stage

/-- `tryMatchFor` goes on, or `join` returns. -/
def proceedJoin (s : Redis) (call : Nat) (pool : PoolId) (playerId : Nat) (info : QueueMeta)
    (candidates : List Nat) : Served :=
  match nextCandidate pool playerId info candidates with
  | some stage => ⟨s, [], some stage⟩
  | none => ⟨s, [.joined call none], none⟩

/-- `pairAndCreate` has returned `null`. -/
def Caller.missed (cfg : MatchmakingConfig) (s : Redis) (call : Nat) : Caller → Served
  | .tryMatchFor pool playerId info candidates =>
      proceedJoin s call pool playerId info candidates
  | .sweepBucket pool now a passed b ahead buckets =>
      match findPartner cfg now a (passed ++ [b]) ahead with
      | some found => ⟨s, [], some (sweepAttempt pool now a buckets found)⟩
      | none => ⟨s, [], sweepFrom cfg pool now buckets (passed ++ b :: ahead)⟩

/-- `pairAndCreate` has returned a game: both players are taken off the list. -/
def Caller.paired (cfg : MatchmakingConfig) (s : Redis) (call : Nat) (game : MatchedGame)
    (gameId : Nat) : Caller → Served
  | .tryMatchFor _ _ _ _ =>
      ⟨s, [.matched gameId game.whiteUserId game.blackUserId, .joined call (some gameId)], none⟩
  | .sweepBucket pool now _ passed _ ahead buckets =>
      ⟨s, [.matched gameId game.whiteUserId game.blackUserId],
        sweepFrom cfg pool now buckets (passed ++ ahead)⟩

/-- The next await of a request and what the code does up to the one after it. -/
def Stage.serve (cfg : MatchmakingConfig) (s : Redis) (call : Nat) (reply : Reply) :
    Stage → Option Served
  | .joinFind userId pool => some ⟨s, [], reply.player.map (.joinRate userId pool)⟩
  | .joinRate userId pool playerId =>
      some ⟨s, [], some (.joinMark userId pool playerId (reply.rating.getD 1500))⟩
  | .joinMark userId pool playerId rating =>
      match s.marker playerId with
      | some _ => some ⟨s, [], none⟩
      | none => some ⟨s.setMarker playerId (some pool), [],
          some (.joinAdd pool playerId ⟨userId, reply.now, rating⟩)⟩
  | .joinAdd pool playerId info =>
      some ⟨s.enqueue pool ⟨playerId, info.r, call⟩ info, [], some (.joinRange pool playerId info)⟩
  | .joinRange pool playerId info =>
      let delta := currentDelta cfg 0
      some (proceedJoin s call pool playerId info
        (s.zrangebyscore pool (info.r - delta) (info.r + delta)))
  | .joinMeta pool playerId info candidateId candidates =>
      match s.metas pool candidateId with
      | none => some (proceedJoin s call pool playerId info candidates)
      | some candidateMeta =>
          some ⟨s, [], some (.pairing ⟨pool, candidateId, candidateMeta, playerId, info⟩
            (.tryMatchFor pool playerId info candidates))⟩
  | .leaveFind _ =>
      match reply.player with
      | none => some ⟨s, [.notLeft call], none⟩
      | some playerId => some ⟨s, [], some (.leaveGet playerId)⟩
  | .leaveGet playerId =>
      match s.marker playerId with
      | none => some ⟨s, [.notLeft call], none⟩
      | some pool => some ⟨s, [], some (.leaveRemove playerId pool)⟩
  | .leaveRemove playerId pool => some ⟨s.dequeue pool playerId, [.left call playerId], none⟩
  | .sweepRegistry =>
      if reply.buckets.isPerm s.registry then some ⟨s, [], nextBucket reply.buckets⟩ else none
  | .sweepRange pool buckets =>
      let members := s.queue pool
      if members.length = 0 then some ⟨s, [], some (.sweepForget pool buckets)⟩
      else if members.length < 2 then some ⟨s, [], nextBucket buckets⟩
      else some ⟨s, [], some (.sweepMeta pool members buckets)⟩
  | .sweepForget pool buckets => some ⟨s.srem pool, [], nextBucket buckets⟩
  | .sweepMeta pool members buckets =>
      some ⟨s, [], sweepFrom cfg pool reply.now buckets (waitingOf pool s members)⟩
  | .pairing attempt caller =>
      match s.pairScript attempt.pool attempt.aPlayerId attempt.bPlayerId with
      | none => some (caller.missed cfg s call)
      | some (a, b, removed) => some ⟨removed, [], some (.creating (attempt.game a b) caller)⟩
  | .creating game caller => some ⟨s, [.created game], some (.starting game reply.gameId caller)⟩
  | .starting game gameId caller => some (caller.paired cfg s call game gameId)

/-- A request arrives, or goes on past its next await, or fails there; or a key expires. -/
inductive Label where
  | join (userId : Nat) (pool : PoolId)
  | leave (userId : Nat)
  | sweep
  | answer (call : Nat) (reply : Reply)
  | fail (call : Nat)
  | expireMarker (playerId : Nat)
  | expireQueue (pool : PoolId)
  | expireMeta (pool : PoolId)
  deriving DecidableEq, Repr

/-- `number` is that of the next request: requests are numbered as they start. -/
structure World where
  redis : Redis
  calls : Nat → Option Stage
  number : Nat
  history : List Event

namespace World

variable (w : World)

def empty : World where
  redis := .empty
  calls _ := none
  number := 0
  history := []

def start (stage : Stage) : World :=
  { w with
    calls := Function.update w.calls w.number (some stage)
    number := w.number + 1 }

def settle (call : Nat) (served : Served) : World where
  redis := served.redis
  calls := Function.update w.calls call served.stage
  number := w.number
  history := w.history ++ served.events

def stop (call : Nat) : World := { w with calls := Function.update w.calls call none }

def step (cfg : MatchmakingConfig) : Label → Option World
  | .join userId pool => if pool.accepted then some (w.start (.joinFind userId pool)) else none
  | .leave userId => some (w.start (.leaveFind userId))
  | .sweep => some (w.start .sweepRegistry)
  | .answer call reply =>
      (w.calls call).bind fun stage => (stage.serve cfg w.redis call reply).map (w.settle call)
  | .fail call => (w.calls call).map fun _ => w.stop call
  | .expireMarker playerId => some { w with redis := w.redis.setMarker playerId none }
  | .expireQueue pool => some { w with redis := w.redis.setQueue pool [] }
  | .expireMeta pool =>
      some { w with redis.metas := Function.update w.redis.metas pool fun _ => none }

end World

/-- Any number of instances on one Redis. -/
def matchmaking (cfg : MatchmakingConfig) : Transition.System World Label where
  initial w := w = .empty
  step w label := w.step cfg label

end Farzin.Matchmaking
