import Farzin.Matchmaking

set_option autoImplicit false

/- What one step of matchmaking can do to queues, markers, history and requests. -/
namespace Farzin.Matchmaking

/-- A stage of `join` before its marker. -/
def Stage.early : Stage → Bool
  | .joinFind _ _ | .joinRate _ _ _ | .joinMark _ _ _ _ => true
  | _ => false

/-- A stage that has no queue entry in hand, or has put it away. -/
def Stage.plain : Stage → Bool
  | .joinFind _ _ | .joinRate _ _ _ | .joinMark _ _ _ _ | .joinAdd _ _ _ | .creating _ _ => false
  | _ => true

/-- A stage of `join` before its place in the queue. -/
def Stage.joining : Stage → Bool
  | .joinFind _ _ | .joinRate _ _ _ | .joinMark _ _ _ _ | .joinAdd _ _ _ => true
  | _ => false

/-- A stage inside the loop of `tryMatchFor` or inside one of a sweep. -/
def Stage.searching : Stage → Bool
  | .joinMeta _ _ _ _ _ | .sweepRange _ _ | .pairing _ _ => true
  | _ => false

def Event.quiet : Event → Bool
  | .left _ _ | .created _ => false
  | _ => true

/-- What an await can do to queues, markers, history and the request itself. -/
inductive Effect (s : Redis) (call : Nat) : Stage → Served → Prop
  | quiet (stage : Stage) (served : Served) (queues : served.redis.queue = s.queue)
      (markers : served.redis.marker = s.marker)
      (events : ∀ event ∈ served.events, event.quiet = true)
      (after : ∀ next ∈ served.stage,
        next.plain = true ∨ (stage.early = true ∧ next.early = true)) :
      Effect s call stage served
  | mark (userId : Nat) (pool : PoolId) (playerId : Nat) (rating : Rat) (info : QueueMeta)
      (unmarked : s.marker playerId = none) :
      Effect s call (.joinMark userId pool playerId rating)
        ⟨s.setMarker playerId (some pool), [], some (.joinAdd pool playerId info)⟩
  | add (pool : PoolId) (playerId : Nat) (info : QueueMeta) :
      Effect s call (.joinAdd pool playerId info)
        ⟨s.enqueue pool ⟨playerId, info.r, call⟩ info, [], some (.joinRange pool playerId info)⟩
  | remove (playerId : Nat) (pool : PoolId) :
      Effect s call (.leaveRemove playerId pool)
        ⟨s.dequeue pool playerId, [.left call playerId], none⟩
  | pair (attempt : Attempt) (caller : Caller) (a b : Member)
      (first : s.zscore attempt.pool attempt.aPlayerId = some a)
      (second : s.zscore attempt.pool attempt.bPlayerId = some b) :
      Effect s call (.pairing attempt caller)
        ⟨(s.dequeue attempt.pool attempt.aPlayerId).dequeue attempt.pool attempt.bPlayerId, [],
          some (.creating (attempt.game a b) caller)⟩
  | create (game : MatchedGame) (caller : Caller) (gameId : Nat) :
      Effect s call (.creating game caller)
        ⟨s, [.created game], some (.starting game gameId caller)⟩

section Serve

variable {cfg : MatchmakingConfig} {s : Redis} {call : Nat}

theorem plain_of_searching {next : Stage} (searching : next.searching = true) :
    next.plain = true := by
  cases next with
  | joinMeta | sweepRange | pairing => rfl
  | _ => cases searching

theorem nextCandidate_searching {pool : PoolId} {playerId : Nat} {info : QueueMeta}
    {candidates : List Nat} {next : Stage}
    (found : nextCandidate pool playerId info candidates = some next) : next.searching = true := by
  induction candidates with
  | nil => cases found
  | cons candidateId candidates ih =>
      rw [nextCandidate] at found
      split at found
      · exact ih found
      · cases found
        rfl

theorem nextBucket_searching {buckets : List PoolId} {next : Stage}
    (found : nextBucket buckets = some next) : next.searching = true := by
  cases buckets with
  | nil => cases found
  | cons pool buckets =>
      cases found
      rfl

theorem sweepFrom_searching {pool : PoolId} {now : Int} {buckets : List PoolId}
    {players : List Waiting} {next : Stage}
    (found : sweepFrom cfg pool now buckets players = some next) : next.searching = true := by
  induction players with
  | nil => exact nextBucket_searching found
  | cons a others ih =>
      rw [sweepFrom] at found
      split at found
      · cases found
        rfl
      · exact ih found

theorem proceedJoin_searching {pool : PoolId} {playerId : Nat} {info : QueueMeta}
    {candidates : List Nat} {next : Stage}
    (found : (proceedJoin s call pool playerId info candidates).stage = some next) :
    next.searching = true := by
  unfold proceedJoin at found
  split at found
  · rename_i stage known
    cases found
    exact nextCandidate_searching known
  · cases found

theorem missed_searching {caller : Caller} {next : Stage}
    (found : (caller.missed cfg s call).stage = some next) : next.searching = true := by
  cases caller with
  | tryMatchFor => exact proceedJoin_searching found
  | sweepBucket =>
      simp only [Caller.missed] at found
      split at found
      · cases found
        rfl
      · exact sweepFrom_searching found

theorem paired_searching {game : MatchedGame} {gameId : Nat} {caller : Caller} {next : Stage}
    (found : (caller.paired cfg s call game gameId).stage = some next) :
    next.searching = true := by
  cases caller with
  | tryMatchFor => cases found
  | sweepBucket => exact sweepFrom_searching found

/-- The request is served without a word on queue entries. -/
structure Served.Quiet (s : Redis) (served : Served) : Prop where
  queues : served.redis.queue = s.queue
  markers : served.redis.marker = s.marker
  events : ∀ event ∈ served.events, event.quiet = true
  after : ∀ next ∈ served.stage, next.plain = true

theorem Served.Quiet.effect {served : Served} (quiet : served.Quiet s) (stage : Stage) :
    Effect s call stage served :=
  .quiet stage served quiet.queues quiet.markers quiet.events
    fun next here => Or.inl (quiet.after next here)

theorem quiet_step (events : List Event) (stage : Option Stage)
    (said : ∀ event ∈ events, event.quiet = true)
    (after : ∀ next ∈ stage, next.plain = true) : Served.Quiet s ⟨s, events, stage⟩ :=
  ⟨rfl, rfl, said, after⟩

theorem proceedJoin_quiet (pool : PoolId) (playerId : Nat) (info : QueueMeta)
    (candidates : List Nat) :
    (proceedJoin s call pool playerId info candidates).Quiet s := by
  unfold proceedJoin
  split
  case h_1 stage found =>
    apply quiet_step
    · simp
    · intro next here
      cases here
      exact plain_of_searching (nextCandidate_searching found)
  case h_2 =>
    apply quiet_step
    · simp [Event.quiet]
    · simp

theorem sweep_quiet {stage : Option Stage} (after : ∀ next, stage = some next → next.plain = true) :
    Served.Quiet s ⟨s, [], stage⟩ := by
  apply quiet_step
  · simp
  · exact after

theorem missed_quiet (caller : Caller) : (caller.missed cfg s call).Quiet s := by
  cases caller with
  | tryMatchFor pool playerId info candidates =>
      exact proceedJoin_quiet pool playerId info candidates
  | sweepBucket pool now a passed b ahead buckets =>
      simp only [Caller.missed]
      split
      · apply sweep_quiet
        intro next here
        cases here
        rfl
      · apply sweep_quiet
        intro next here
        exact plain_of_searching (sweepFrom_searching here)

theorem paired_quiet (game : MatchedGame) (gameId : Nat) (caller : Caller) :
    (caller.paired cfg s call game gameId).Quiet s := by
  cases caller with
  | tryMatchFor =>
      apply quiet_step
      · simp [Event.quiet]
      · simp
  | sweepBucket =>
      apply quiet_step
      · simp [Event.quiet]
      · intro next here
        exact plain_of_searching (sweepFrom_searching here)

/-- One lemma for every await of every request. -/
theorem serve_effect {reply : Reply} {stage : Stage} {served : Served}
    (taken : stage.serve cfg s call reply = some served) : Effect s call stage served := by
  cases stage with
  | joinFind userId pool =>
      cases taken
      refine .quiet _ _ rfl rfl (by simp) fun next here => Or.inr ⟨rfl, ?_⟩
      obtain ⟨playerId, -, rfl⟩ := Option.map_eq_some_iff.mp here
      rfl
  | joinRate userId pool playerId =>
      cases taken
      refine .quiet _ _ rfl rfl (by simp) fun next here => Or.inr ⟨rfl, ?_⟩
      cases here
      rfl
  | joinMark userId pool playerId rating =>
      simp only [Stage.serve] at taken
      split at taken
      · cases taken
        exact (sweep_quiet (by simp)).effect _
      case h_2 unmarked =>
        cases taken
        exact .mark userId pool playerId rating _ unmarked
  | joinAdd pool playerId info =>
      cases taken
      exact .add pool playerId info
  | joinRange pool playerId info =>
      cases taken
      exact (proceedJoin_quiet _ _ _ _).effect _
  | joinMeta pool playerId info candidateId candidates =>
      simp only [Stage.serve] at taken
      split at taken
      · cases taken
        exact (proceedJoin_quiet _ _ _ _).effect _
      · cases taken
        apply Served.Quiet.effect
        apply sweep_quiet
        intro next here
        cases here
        rfl
  | leaveFind | leaveGet =>
      simp only [Stage.serve] at taken
      split at taken
      · cases taken
        exact (quiet_step _ _ (by simp [Event.quiet]) (by simp)).effect _
      · cases taken
        exact (sweep_quiet (by rintro next ⟨⟩; rfl)).effect _
  | leaveRemove playerId pool =>
      cases taken
      exact .remove playerId pool
  | sweepRegistry =>
      simp only [Stage.serve] at taken
      split at taken
      · cases taken
        exact (sweep_quiet fun next here => plain_of_searching (nextBucket_searching here)).effect _
      · cases taken
  | sweepRange pool buckets =>
      simp only [Stage.serve] at taken
      split at taken
      · cases taken
        exact (sweep_quiet (by rintro next ⟨⟩; rfl)).effect _
      · split at taken
        · cases taken
          exact (sweep_quiet fun next here => plain_of_searching (nextBucket_searching here)).effect _
        · cases taken
          exact (sweep_quiet (by rintro next ⟨⟩; rfl)).effect _
  | sweepForget pool buckets =>
      cases taken
      apply Served.Quiet.effect
      exact ⟨rfl, rfl, by simp, fun next here => plain_of_searching (nextBucket_searching here)⟩
  | sweepMeta pool members buckets =>
      cases taken
      exact (sweep_quiet fun next here => plain_of_searching (sweepFrom_searching here)).effect _
  | pairing attempt caller =>
      simp only [Stage.serve] at taken
      split at taken
      · cases taken
        exact (missed_quiet caller).effect _
      case h_2 a b removed claimed =>
        cases taken
        simp only [Redis.pairScript] at claimed
        split at claimed
        case h_1 first second found other =>
          cases claimed
          exact .pair attempt caller _ _ found other
        case h_2 => cases claimed
  | creating game caller =>
      cases taken
      exact .create game caller reply.gameId
  | starting game gameId caller =>
      cases taken
      exact (paired_quiet game gameId caller).effect _

end Serve

section Store

variable {s : Redis} {pool other : PoolId} {playerId : Nat} {m : Member}

theorem mem_enqueue {member : Member} {info : QueueMeta}
    (inside : m ∈ (s.enqueue pool member info).queue other) :
    (other = pool ∧ m = member) ∨ m ∈ s.queue other := by
  change m ∈ Function.update s.queue pool _ other at inside
  by_cases same : other = pool
  · subst same
    rw [Function.update_self, List.mem_orderedInsert] at inside
    rcases inside with new | old
    · exact Or.inl ⟨rfl, new⟩
    · exact Or.inr (List.mem_filter.mp old).1
  · rw [Function.update_of_ne same] at inside
    exact Or.inr inside

theorem mem_dequeue (inside : m ∈ (s.dequeue pool playerId).queue other) :
    m ∈ s.queue other ∧ (other = pool → m.playerId ≠ playerId) := by
  change m ∈ Function.update s.queue pool _ other at inside
  by_cases same : other = pool
  · subst same
    rw [Function.update_self, List.mem_filter] at inside
    exact ⟨inside.1, fun _ => by simpa using inside.2⟩
  · rw [Function.update_of_ne same] at inside
    exact ⟨inside, fun eq => absurd eq same⟩

theorem mem_zscore (found : s.zscore pool playerId = some m) :
    m ∈ s.queue pool ∧ m.playerId = playerId := by
  refine ⟨List.mem_of_find?_eq_some found, ?_⟩
  simpa using List.find?_some found

theorem mem_expired (inside : m ∈ (s.setQueue pool []).queue other) : m ∈ s.queue other := by
  change m ∈ Function.update s.queue pool [] other at inside
  by_cases same : other = pool
  · subst same
    rw [Function.update_self] at inside
    cases inside
  · rw [Function.update_of_ne same] at inside
    exact inside

end Store

/-- What a step does to the world: a new request, an await, the end of a request, or less in
the queues. -/
inductive Move (cfg : MatchmakingConfig) (w : World) : Label → World → Prop
  | start (label : Label) (stage : Stage) (first : stage.plain = true ∨ stage.early = true) :
      Move cfg w label (w.start stage)
  | await (call : Nat) (reply : Reply) (stage : Stage) (served : Served)
      (here : w.calls call = some stage) (effect : Effect w.redis call stage served) :
      Move cfg w (.answer call reply) (w.settle call served)
  | stop (call : Nat) : Move cfg w (.fail call) (w.stop call)
  | unmark (playerId : Nat) :
      Move cfg w (.expireMarker playerId) { w with redis := w.redis.setMarker playerId none }
  | shrink (label : Label) (redis : Redis)
      (queues : ∀ pool, ∀ m ∈ redis.queue pool, m ∈ w.redis.queue pool)
      (markers : redis.marker = w.redis.marker) : Move cfg w label { w with redis := redis }

theorem step_move {cfg : MatchmakingConfig} {w v : World} {label : Label}
    (taken : w.step cfg label = some v) : Move cfg w label v := by
  cases label with
  | join userId pool =>
      simp only [World.step] at taken
      split at taken
      · cases taken
        exact .start _ _ (Or.inr rfl)
      · cases taken
  | leave | sweep =>
      cases taken
      exact .start _ _ (Or.inl rfl)
  | answer call reply =>
      simp only [World.step, Option.bind_eq_some_iff, Option.map_eq_some_iff] at taken
      obtain ⟨stage, here, served, ran, rfl⟩ := taken
      exact .await call reply stage served here (serve_effect ran)
  | fail call =>
      simp only [World.step, Option.map_eq_some_iff] at taken
      obtain ⟨stage, -, rfl⟩ := taken
      exact .stop call
  | expireMarker playerId =>
      cases taken
      exact .unmark playerId
  | expireQueue pool =>
      cases taken
      exact .shrink _ _ (fun other m inside => mem_expired inside) rfl
  | expireMeta pool =>
      cases taken
      exact .shrink _ _ (fun other m inside => inside) rfl

theorem update_calls {calls : Nat → Option Stage} {call other : Nat} {next : Option Stage}
    {stage : Stage} (here : Function.update calls call next other = some stage) :
    (other = call ∧ next = some stage) ∨ (other ≠ call ∧ calls other = some stage) := by
  by_cases same : other = call
  · subst same
    rw [Function.update_self] at here
    exact Or.inl ⟨rfl, here⟩
  · rw [Function.update_of_ne same] at here
    exact Or.inr ⟨same, here⟩

theorem early_joining {stage : Stage} (early : stage.early = true) : stage.joining = true := by
  cases stage with
  | joinFind | joinRate | joinMark => rfl
  | _ => cases early

theorem plain_not_joining {stage : Stage} (plain : stage.plain = true) :
    stage.joining = false := by
  cases stage with
  | joinFind | joinRate | joinMark | joinAdd => cases plain
  | _ => rfl

theorem created_quiet {history events : List Event} {game : MatchedGame}
    (quiet : ∀ event ∈ events, event.quiet = true)
    (inside : .created game ∈ history ++ events) : .created game ∈ history := by
  rcases List.mem_append.mp inside with old | new
  · exact old
  · have impossible := quiet _ new
    cases impossible

end Farzin.Matchmaking
