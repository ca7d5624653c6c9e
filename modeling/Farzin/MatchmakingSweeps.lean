import Farzin.GreedyPairing
import Farzin.MatchmakingRuns

set_option autoImplicit false

/- A sweep of one bucket while nobody else is at work on it. -/
namespace Farzin.Matchmaking

open GreedyPairing (PairsOff)

section Serial

variable (cfg : MatchmakingConfig) (call : Nat)

/-- The sweep of a bucket has returned: the request is over or goes on to another bucket. -/
def bucketDone : Option Stage → Bool
  | none => true
  | some (.sweepRange _ _) => true
  | some _ => false

/-- A sweep goes on with nobody else at work, given the answers to its awaits, until the bucket
is done: what is then in Redis, and what was seen from outside. -/
def sweepAlone : List Reply → Redis → Option Stage → Option (Redis × List Event)
  | replies, s, stage =>
      if bucketDone stage then some (s, [])
      else match replies, stage with
        | reply :: replies, some stage => do
            let served ← stage.serve cfg s call reply
            let (after, events) ← sweepAlone replies served.redis served.stage
            return (after, served.events ++ events)
        | _, _ => none

end Serial

/-- The window of `sweepBucket`. -/
def Waiting.fits (cfg : MatchmakingConfig) (now : Int) (a b : Waiting) : Prop :=
  |a.rating - b.rating| ≤
    max (currentDelta cfg (now - a.info.t)) (currentDelta cfg (now - b.info.t))

section Loops

variable {cfg : MatchmakingConfig} {now : Int} {a b : Waiting}

theorem Waiting.fits_symm (fit : a.fits cfg now b) : b.fits cfg now a := by
  unfold Waiting.fits
  rw [abs_sub_comm, max_comm]
  exact fit

/-- The inner loop passes over the players outside the window and stops at the first one in it. -/
theorem findPartner_some {passed others : List Waiting}
    {found : List Waiting × Waiting × List Waiting}
    (partner : findPartner cfg now a passed others = some found) :
    ∃ before, found.1 = passed ++ before ∧ others = before ++ found.2.1 :: found.2.2 ∧
      a.fits cfg now found.2.1 := by
  induction others generalizing passed with
  | nil => cases partner
  | cons b ahead ih =>
      unfold findPartner at partner
      dsimp only at partner
      split at partner
      · obtain ⟨before, same, parts, fit⟩ := ih partner
        refine ⟨b :: before, ?_, ?_, fit⟩
        · rw [same, List.append_assoc]
          rfl
        · rw [parts]
          rfl
      · rename_i inside
        cases partner
        exact ⟨[], (List.append_nil _).symm, rfl, not_lt.mp inside⟩

theorem findPartner_none {passed others : List Waiting}
    (partner : findPartner cfg now a passed others = none) :
    ∀ b ∈ others, ¬ a.fits cfg now b := by
  induction others generalizing passed with
  | nil =>
      intro b inside
      cases inside
  | cons c ahead ih =>
      unfold findPartner at partner
      dsimp only at partner
      split at partner
      · rename_i outside
        intro b inside
        rcases List.mem_cons.mp inside with rfl | later
        · exact not_le.mpr outside
        · exact ih partner b later
      · cases partner

end Loops

section Simulation

variable {cfg : MatchmakingConfig} {pool : PoolId} {now : Int} {call : Nat}
  {buckets : List PoolId}

theorem nextBucket_done (buckets : List PoolId) : bucketDone (nextBucket buckets) = true := by
  cases buckets <;> rfl

theorem sweepAlone_done {stage : Option Stage} (done : bucketDone stage = true)
    (replies : List Reply) (s : Redis) :
    sweepAlone cfg call replies s stage = some (s, []) := by
  unfold sweepAlone
  rw [if_pos done]

theorem sweepAlone_serve {stage : Stage} {served : Served} {s : Redis} {reply : Reply}
    (goesOn : bucketDone (some stage) = false)
    (taken : stage.serve cfg s call reply = some served) (replies : List Reply) :
    sweepAlone cfg call (reply :: replies) s (some stage) =
      (sweepAlone cfg call replies served.redis served.stage).map fun rest =>
        (rest.1, served.events ++ rest.2) := by
  rw [sweepAlone, if_neg (by simp [goesOn])]
  simp only [taken, Option.bind_eq_bind, Option.bind_some]
  cases sweepAlone cfg call replies served.redis served.stage <;> rfl

def createdGames (events : List Event) : List MatchedGame :=
  events.filterMap fun event => match event with
    | .created game => some game
    | _ => none

/-- A game has the two players of a pair, in one order or the other. -/
def SeatsPair (game : MatchedGame) (pair : Waiting × Waiting) : Prop :=
  (game.whitePlayerId = pair.1.playerId ∧ game.blackPlayerId = pair.2.playerId) ∨
    (game.whitePlayerId = pair.2.playerId ∧ game.blackPlayerId = pair.1.playerId)

theorem attempt_seats (attempt : Attempt) (first second : Member) (a b : Waiting)
    (white : attempt.aPlayerId = a.playerId) (black : attempt.bPlayerId = b.playerId) :
    SeatsPair (attempt.game first second) (a, b) := by
  unfold Attempt.game
  split
  · exact .inl ⟨white, black⟩
  · exact .inr ⟨black, white⟩

/-- Both players of an attempt are waiting: the three awaits of `pairAndCreate` take them out
and create their game. -/
theorem sweepAlone_pair {s : Redis} {a : Waiting} {found : List Waiting × Waiting × List Waiting}
    {first second : Member} (here : s.zscore pool a.playerId = some first)
    (there : s.zscore pool found.2.1.playerId = some second) (r₁ r₂ r₃ : Reply)
    (replies : List Reply) :
    ∃ game id white black, SeatsPair game (a, found.2.1) ∧
      sweepAlone cfg call (r₁ :: r₂ :: r₃ :: replies) s
          (some (sweepAttempt pool now a buckets found)) =
        (sweepAlone cfg call replies
          ((s.dequeue pool a.playerId).dequeue pool found.2.1.playerId)
          (sweepFrom cfg pool now buckets (found.1 ++ found.2.2))).map fun rest =>
            (rest.1, .created game :: .matched id white black :: rest.2) := by
  let attempt : Attempt := ⟨pool, a.playerId, a.info, found.2.1.playerId, found.2.1.info⟩
  let caller : Caller := .sweepBucket pool now a found.1 found.2.1 found.2.2 buckets
  let game := attempt.game first second
  let removed := (s.dequeue pool a.playerId).dequeue pool found.2.1.playerId
  have out : (Stage.pairing attempt caller).serve cfg s call r₁ =
      some ⟨removed, [], some (.creating game caller)⟩ := by
    simp only [Stage.serve, Redis.pairScript, attempt, here, there]
    rfl
  have created : (Stage.creating game caller).serve cfg removed call r₂ =
      some ⟨removed, [.created game], some (.starting game r₂.gameId caller)⟩ := rfl
  have started : (Stage.starting game r₂.gameId caller).serve cfg removed call r₃ =
      some ⟨removed, [.matched r₂.gameId game.whiteUserId game.blackUserId],
        sweepFrom cfg pool now buckets (found.1 ++ found.2.2)⟩ := rfl
  refine ⟨game, r₂.gameId, game.whiteUserId, game.blackUserId,
    attempt_seats attempt first second a found.2.1 rfl rfl, ?_⟩
  change sweepAlone cfg call _ s (some (.pairing attempt caller)) = _
  rw [sweepAlone_serve rfl out, sweepAlone_serve rfl created, sweepAlone_serve rfl started,
    Option.map_map, Option.map_map]
  rfl

theorem three_replies (replies : List Reply) (enough : 3 ≤ replies.length) :
    ∃ r₁ r₂ r₃ rest, replies = r₁ :: r₂ :: r₃ :: rest := by
  match replies, enough with
  | r₁ :: r₂ :: r₃ :: rest, _ => exact ⟨r₁, r₂, r₃, rest, rfl⟩

theorem sublist_middle {α : Type} {before ahead : List α} {b : α} :
    (before ++ ahead).Sublist (before ++ b :: ahead) :=
  (List.sublist_cons_self b ahead).append_left before

/-- A waiting player's entry is in the queue. -/
def Present (s : Redis) (pool : PoolId) (waiting : List Waiting) : Prop :=
  ∀ x ∈ waiting, ∃ m ∈ s.queue pool, m.playerId = x.playerId

theorem dequeue_queue (s : Redis) (pool : PoolId) (playerId : Nat) :
    (s.dequeue pool playerId).queue pool =
      (s.queue pool).filter fun m => m.playerId ≠ playerId :=
  Function.update_self ..

theorem zscore_present {s : Redis} {waiting : List Waiting} (present : Present s pool waiting)
    {x : Waiting} (inside : x ∈ waiting) : ∃ m, s.zscore pool x.playerId = some m := by
  obtain ⟨m, here, same⟩ := present x inside
  unfold Redis.zscore
  rw [← Option.isSome_iff_exists, List.find?_isSome]
  exact ⟨m, here, decide_eq_true same⟩

/-- The players of other ids stay. -/
theorem Present.dequeue {s : Redis} {waiting : List Waiting} (present : Present s pool waiting)
    {playerId : Nat} (others : ∀ x ∈ waiting, x.playerId ≠ playerId) :
    Present (s.dequeue pool playerId) pool waiting := by
  intro x inside
  obtain ⟨m, here, same⟩ := present x inside
  refine ⟨m, ?_, same⟩
  rw [dequeue_queue, List.mem_filter]
  exact ⟨here, decide_eq_true (same ▸ others x inside)⟩

theorem dequeue_pair_queue (s : Redis) (p q : Nat) :
    ((s.dequeue pool p).dequeue pool q).queue pool =
      (s.queue pool).filter fun m => m.playerId ≠ p ∧ m.playerId ≠ q := by
  rw [dequeue_queue, dequeue_queue, List.filter_filter]
  apply List.filter_congr
  intro m _
  rw [Bool.decide_and, Bool.and_comm]

/-- The players that are left when a pair is taken out have other ids than the pair. -/
theorem others_apart {a b : Waiting} {before ahead : List Waiting}
    (single : ((a :: (before ++ b :: ahead)).map Waiting.playerId).Nodup) :
    ((before ++ ahead).map Waiting.playerId).Nodup ∧
      ∀ x ∈ before ++ ahead, x.playerId ≠ a.playerId ∧ x.playerId ≠ b.playerId := by
  rw [List.map_cons, List.nodup_cons] at single
  obtain ⟨alone, single⟩ := single
  rw [List.map_append, List.map_cons, List.nodup_middle, ← List.map_append,
    List.nodup_cons] at single
  obtain ⟨alone', single⟩ := single
  refine ⟨single, fun x inside => ⟨fun same => alone ?_, fun same => alone' ?_⟩⟩
  · rw [← same]
    exact List.mem_map_of_mem (sublist_middle.subset inside)
  · rw [← same]
    exact List.mem_map_of_mem inside

/-- The players that are left are in the queue still when a pair is taken out. -/
theorem Present.dequeue_pair {s : Redis} {a b : Waiting} {before ahead : List Waiting}
    (present : Present s pool (a :: (before ++ b :: ahead)))
    (apart : ∀ x ∈ before ++ ahead, x.playerId ≠ a.playerId ∧ x.playerId ≠ b.playerId) :
    Present ((s.dequeue pool a.playerId).dequeue pool b.playerId) pool (before ++ ahead) := by
  have here : Present s pool (before ++ ahead) := fun x inside =>
    present x (List.mem_cons_of_mem _ (sublist_middle.subset inside))
  exact (here.dequeue fun x inside => (apart x inside).1).dequeue
    fun x inside => (apart x inside).2

/-- The loops of `sweepBucket` pair off the waiting players: each pair gets a game, and exactly
the paired players leave the queue. -/
theorem sweepFrom_pairs (waiting : List Waiting) (s : Redis)
    (present : Present s pool waiting) (single : (waiting.map Waiting.playerId).Nodup)
    (replies : List Reply) (enough : 3 * waiting.length ≤ replies.length) :
    ∃ pairs left after events,
      PairsOff (Waiting.fits cfg now) waiting pairs left ∧
      sweepAlone cfg call replies s (sweepFrom cfg pool now buckets waiting) =
        some (after, events) ∧
      List.Forall₂ SeatsPair (createdGames events) pairs ∧
      after.queue pool = (s.queue pool).filter fun m =>
        m.playerId ∉ (GreedyPairing.members pairs).map Waiting.playerId := by
  induction size : waiting.length using Nat.strongRecOn generalizing waiting s replies with
  | ind size ih =>
      cases waiting with
      | nil =>
          refine ⟨[], [], s, [], .nil, sweepAlone_done (nextBucket_done buckets) _ _, .nil, ?_⟩
          simp [GreedyPairing.members]
      | cons a others =>
          rw [List.length_cons] at enough size
          rw [sweepFrom]
          cases partner : findPartner cfg now a [] others with
          | none =>
              rw [List.map_cons, List.nodup_cons] at single
              obtain ⟨pairs, left, after, events, paired, swept, seats, queue⟩ :=
                ih others.length (by omega) others s
                  (fun x inside => present x (List.mem_cons_of_mem _ inside)) single.2 replies
                  (by omega) rfl
              exact ⟨pairs, a :: left, after, events, .skip (findPartner_none partner) paired,
                swept, seats, queue⟩
          | some found =>
              obtain ⟨before, b, ahead⟩ := found
              obtain ⟨passed, same, parts, fit⟩ := findPartner_some partner
              dsimp only at same parts fit
              rw [List.nil_append] at same
              subst same parts
              obtain ⟨r₁, r₂, r₃, replies, rfl⟩ := three_replies replies (by omega)
              obtain ⟨first, here⟩ := zscore_present present List.mem_cons_self
              obtain ⟨second, there⟩ := @zscore_present pool s _ present b (by simp)
              obtain ⟨single, apart⟩ := others_apart single
              simp only [List.length_append, List.length_cons] at size enough
              obtain ⟨pairs, left, after, events, paired, swept, seats, queue⟩ :=
                ih (before ++ ahead).length (by rw [List.length_append]; omega) (before ++ ahead)
                  _ (present.dequeue_pair apart) single replies
                  (by rw [List.length_append]; omega) rfl
              obtain ⟨game, id, white, black, seated, step⟩ :=
                @sweepAlone_pair cfg pool now call buckets s a (before, b, ahead) first second
                  here there r₁ r₂ r₃ replies
              refine ⟨(a, b) :: pairs, left, after,
                .created game :: .matched id white black :: events, .pair fit paired, ?_,
                .cons seated seats, ?_⟩
              · exact step.trans (by rw [swept, Option.map_some])
              · rw [queue, dequeue_pair_queue, List.filter_filter]
                apply List.filter_congr
                intro m _
                rw [GreedyPairing.members_cons, List.map_cons, List.map_cons]
                rw [← Bool.decide_and, decide_eq_decide, List.mem_cons, List.mem_cons, not_or,
                  not_or, and_comm, and_assoc]

end Simulation

section Queue

variable {cfg : MatchmakingConfig} {s : Redis} {pool : PoolId} {now : Int}

/-- The players of the games, White and Black. -/
def seats (games : List MatchedGame) : List Nat :=
  games.flatMap fun game => [game.whitePlayerId, game.blackPlayerId]

/-- Two members of a bucket are in the wider one of their windows. -/
def InWindow (cfg : MatchmakingConfig) (s : Redis) (pool : PoolId) (now : Int) (a b : Member) :
    Prop :=
  ∃ aMeta bMeta, s.metas pool a.playerId = some aMeta ∧ s.metas pool b.playerId = some bMeta ∧
    |a.score - b.score| ≤
      max (currentDelta cfg (now - aMeta.t)) (currentDelta cfg (now - bMeta.t))

theorem seats_perm {games : List MatchedGame} {pairs : List (Waiting × Waiting)}
    (seated : List.Forall₂ SeatsPair games pairs) :
    (seats games).Perm ((GreedyPairing.members pairs).map Waiting.playerId) := by
  induction seated with
  | nil => exact .nil
  | cons here _ ih =>
      change List.Perm (_ :: _ :: seats _) (_ :: _ :: _)
      rcases here with ⟨white, black⟩ | ⟨white, black⟩
      · rw [white, black]
        exact (ih.cons _).cons _
      · rw [white, black]
        exact .trans (.swap ..) ((ih.cons _).cons _)

theorem mem_waitingOf {members : List Member} {x : Waiting} :
    x ∈ waitingOf pool s members ↔ ∃ m ∈ members, ∃ info,
      s.metas pool m.playerId = some info ∧ x = ⟨m.playerId, m.score, info⟩ := by
  unfold waitingOf
  rw [List.mem_insertionSort, List.mem_filterMap]
  constructor
  · rintro ⟨m, inside, made⟩
    obtain ⟨info, known, rfl⟩ := Option.map_eq_some_iff.mp made
    exact ⟨m, inside, info, known, rfl⟩
  · rintro ⟨m, inside, info, known, rfl⟩
    exact ⟨m, inside, Option.map_eq_some_iff.mpr ⟨info, known, rfl⟩⟩

theorem waitingOf_single {members : List Member}
    (single : (members.map Member.playerId).Nodup) :
    ((waitingOf pool s members).map Waiting.playerId).Nodup := by
  unfold waitingOf
  rw [((List.perm_insertionSort _ _).map Waiting.playerId).nodup_iff]
  apply List.Sublist.nodup _ single
  induction members with
  | nil => exact .slnil
  | cons m members ih =>
      rw [List.map_cons, List.nodup_cons] at single
      cases known : s.metas pool m.playerId with
      | none =>
          rw [List.filterMap_cons_none (by rw [known]; rfl)]
          exact (ih single.2).cons _
      | some info =>
          rw [List.filterMap_cons_some (by rw [known]; rfl)]
          exact (ih single.2).cons_cons _

theorem waitingOf_length (members : List Member) :
    (waitingOf pool s members).length ≤ members.length := by
  unfold waitingOf
  rw [List.length_insertionSort]
  exact List.length_filterMap_le _ _

end Queue

section Run

variable {cfg : MatchmakingConfig} {call : Nat}

/-- Answered in turn, from some of the replies, the call does its bucket, with what is then in
Redis and what was seen from outside. -/
def ComesTo (cfg : MatchmakingConfig) (call : Nat) (replies : List Reply) (w : World)
    (after : Redis) (events : List Event) : Prop :=
  ∃ used v, used <+: replies ∧
    (matchmaking cfg).run w (used.map (Label.answer call)) = some v ∧
    v.redis = after ∧ v.history = w.history ++ events ∧ bucketDone (v.calls call) = true

/-- An answered await is one more step in front of the run. -/
theorem ComesTo.answer {w : World} {after : Redis} {events : List Event} {stage : Stage}
    {reply : Reply} {served : Served} {replies : List Reply}
    (here : w.calls call = some stage)
    (taken : stage.serve cfg w.redis call reply = some served)
    (rest : ComesTo cfg call replies (w.settle call served) after events) :
    ComesTo cfg call (reply :: replies) w after (served.events ++ events) := by
  obtain ⟨used, v, within, ran, redis, history, done⟩ := rest
  refine ⟨reply :: used, v, List.cons_prefix_cons.mpr ⟨rfl, within⟩, ?_, redis, ?_, done⟩
  · have step : (matchmaking cfg).step w (.answer call reply) = some (w.settle call served) := by
      change (w.calls call).bind _ = _
      rw [here, Option.bind_some, taken, Option.map_some]
    rw [List.map_cons, Transition.System.run, step, Option.bind_some]
    exact ran
  · rw [history]
    exact List.append_assoc ..

/-- A sweep alone is a run of the system in which only its call goes on. -/
theorem sweepAlone_run (replies : List Reply) (w : World) {after : Redis} {events : List Event}
    (swept : sweepAlone cfg call replies w.redis (w.calls call) = some (after, events)) :
    ComesTo cfg call replies w after events := by
  induction replies generalizing w events with
  | nil =>
      unfold sweepAlone at swept
      split at swept
      · rename_i done
        cases swept
        exact ⟨[], w, List.nil_prefix, rfl, rfl, (List.append_nil _).symm, done⟩
      · cases swept
  | cons reply replies ih =>
      unfold sweepAlone at swept
      split at swept
      · rename_i done
        cases swept
        exact ⟨[], w, List.nil_prefix, rfl, rfl, (List.append_nil _).symm, done⟩
      · cases stage : w.calls call with
        | none =>
            rw [stage] at swept
            cases swept
        | some stage' =>
            simp only [stage, Option.bind_eq_bind, Option.bind_eq_some_iff] at swept
            obtain ⟨served, taken, ⟨rest, more⟩, later, same⟩ := swept
            cases same
            have here : (w.settle call served).calls call = served.stage :=
              Function.update_self ..
            rw [← here] at later
            exact ComesTo.answer stage taken (ih (w.settle call served) later)

/-- What a sweep of a bucket leaves, told of the members it started from. -/
structure Swept (cfg : MatchmakingConfig) (s after : Redis) (pool : PoolId) (now : Int)
    (games : List MatchedGame) : Prop where
  once : (seats games).Nodup
  inWindow : ∀ game ∈ games, ∃ a ∈ s.queue pool, ∃ b ∈ s.queue pool,
    a.playerId = game.whitePlayerId ∧ b.playerId = game.blackPlayerId ∧ InWindow cfg s pool now a b
  queue : after.queue pool = (s.queue pool).filter fun m => m.playerId ∉ seats games
  maximal : ∀ a ∈ after.queue pool, ∀ b ∈ after.queue pool, a ≠ b → ¬ InWindow cfg s pool now a b

variable {s after : Redis} {pool : PoolId} {now : Int}

/-- With fewer than two members there is nothing to pair. -/
theorem Swept.small (few : (s.queue pool).length < 2) (same : after.queue pool = s.queue pool) :
    Swept cfg s after pool now [] where
  once := .nil
  inWindow := by
    intro game none
    cases none
  queue := by
    rw [same]
    simp [seats]
  maximal := by
    intro a here b there apart _
    rw [same] at here there
    cases members : s.queue pool with
    | nil =>
        rw [members] at here
        cases here
    | cons m rest =>
        rw [members, List.length_cons] at few
        have alone : rest = [] := List.length_eq_zero_iff.mp (by omega)
        rw [members, alone, List.mem_singleton] at here there
        exact apart (here.trans there.symm)

theorem seated_pair {games : List MatchedGame} {pairs : List (Waiting × Waiting)}
    (seated : List.Forall₂ SeatsPair games pairs) {game : MatchedGame} (inside : game ∈ games) :
    ∃ pair ∈ pairs, SeatsPair game pair := by
  induction seated with
  | nil => cases inside
  | cons here _ ih =>
      rcases List.mem_cons.mp inside with rfl | later
      · exact ⟨_, List.mem_cons_self, here⟩
      · obtain ⟨pair, there, seats⟩ := ih later
        exact ⟨pair, List.mem_cons_of_mem _ there, seats⟩

theorem InWindow.symm {a b : Member} (inWindow : InWindow cfg s pool now a b) :
    InWindow cfg s pool now b a := by
  obtain ⟨aMeta, bMeta, aKnown, bKnown, close⟩ := inWindow
  rw [abs_sub_comm, max_comm] at close
  exact ⟨bMeta, aMeta, bKnown, aKnown, close⟩

/-- The waiting player that a member of the bucket is read as. -/
theorem waiting_of_member
    (complete : ∀ m ∈ s.queue pool, ∃ info, s.metas pool m.playerId = some info) {m : Member}
    (inside : m ∈ s.queue pool) :
    ∃ info, s.metas pool m.playerId = some info ∧
      (⟨m.playerId, m.score, info⟩ : Waiting) ∈ waitingOf pool s (s.queue pool) := by
  obtain ⟨info, known⟩ := complete m inside
  exact ⟨info, known, mem_waitingOf.mpr ⟨m, inside, info, known, rfl⟩⟩

/-- The pairs of the waiting list are games of members of the bucket. -/
theorem Swept.of_pairs {pairs : List (Waiting × Waiting)} {left : List Waiting}
    {games : List MatchedGame} (single : ((s.queue pool).map Member.playerId).Nodup)
    (complete : ∀ m ∈ s.queue pool, ∃ info, s.metas pool m.playerId = some info)
    (paired : PairsOff (Waiting.fits cfg now) (waitingOf pool s (s.queue pool)) pairs left)
    (seated : List.Forall₂ SeatsPair games pairs)
    (queue : after.queue pool = (s.queue pool).filter fun m =>
      m.playerId ∉ (GreedyPairing.members pairs).map Waiting.playerId) :
    Swept cfg s after pool now games := by
  have ids := seats_perm seated
  have all := paired.perm
  refine ⟨?_, ?_, ?_, ?_⟩
  · rw [ids.nodup_iff]
    have kept := (all.map Waiting.playerId).nodup_iff.mpr (waitingOf_single single)
    rw [List.map_append] at kept
    exact kept.of_append_left
  · intro game inside
    obtain ⟨pair, here, seat⟩ := seated_pair seated inside
    have both : pair.1 ∈ GreedyPairing.members pairs ∧ pair.2 ∈ GreedyPairing.members pairs :=
      ⟨List.mem_flatMap.mpr ⟨pair, here, by simp⟩, List.mem_flatMap.mpr ⟨pair, here, by simp⟩⟩
    obtain ⟨a, aHere, aMeta, aKnown, first⟩ :=
      mem_waitingOf.mp (all.subset (List.mem_append_left _ both.1))
    obtain ⟨b, bHere, bMeta, bKnown, second⟩ :=
      mem_waitingOf.mp (all.subset (List.mem_append_left _ both.2))
    have fit := paired.fits_of_mem here
    rw [first, second] at fit
    have close : InWindow cfg s pool now a b := ⟨aMeta, bMeta, aKnown, bKnown, fit⟩
    unfold SeatsPair at seat
    rw [first, second] at seat
    rcases seat with ⟨white, black⟩ | ⟨white, black⟩
    · exact ⟨a, aHere, b, bHere, white.symm, black.symm, close⟩
    · exact ⟨b, bHere, a, aHere, white.symm, black.symm, close.symm⟩
  · rw [queue]
    apply List.filter_congr
    intro m _
    simp only [ids.mem_iff]
  · -- A member that stays is among those that found no partner.
    have remains : ∀ m ∈ after.queue pool, m ∈ s.queue pool ∧ ∃ info,
        s.metas pool m.playerId = some info ∧ (⟨m.playerId, m.score, info⟩ : Waiting) ∈ left := by
      intro m inside
      rw [queue, List.mem_filter, decide_eq_true_eq] at inside
      obtain ⟨info, known, waits⟩ := waiting_of_member complete inside.1
      refine ⟨inside.1, info, known, ?_⟩
      rcases List.mem_append.mp (all.mem_iff.mpr waits) with taken | stays
      · exact absurd (List.mem_map_of_mem taken) inside.2
      · exact stays
    intro a aHere b bHere apart inWindow
    obtain ⟨aThere, aMeta, aKnown, aLeft⟩ := remains a aHere
    obtain ⟨bThere, bMeta, bKnown, bLeft⟩ := remains b bHere
    obtain ⟨aMeta', bMeta', aKnown', bKnown', close⟩ := inWindow
    cases aKnown.symm.trans aKnown'
    cases bKnown.symm.trans bKnown'
    apply paired.maximal (fun _ _ fit => Waiting.fits_symm fit) aLeft bLeft _ close
    intro same
    apply apart
    exact List.inj_on_of_nodup_map single aThere bThere (congrArg Waiting.playerId same)

/-- The first await of the sweep, and what follows it. -/
theorem sweep_run {w : World} {buckets : List PoolId} {first : Reply} {replies : List Reply}
    {stage : Option Stage} {events : List Event}
    (sweeping : w.calls call = some (.sweepRange pool buckets))
    (taken : (Stage.sweepRange pool buckets).serve cfg w.redis call first =
      some ⟨w.redis, [], stage⟩)
    (swept : sweepAlone cfg call replies w.redis stage = some (after, events)) :
    ComesTo cfg call (first :: replies) w after events := by
  have next : (w.settle call ⟨w.redis, [], stage⟩).calls call = stage := Function.update_self ..
  have rest : ComesTo cfg call replies (w.settle call ⟨w.redis, [], stage⟩) after events := by
    apply sweepAlone_run
    rw [next]
    exact swept
  exact ComesTo.answer sweeping taken rest

end Run

/-- A sweep of a bucket with complete metadata, when only its own call goes on and every game is
created: it comes to its end, pairs no player twice and none with himself, pairs only members in
the wider one of their windows, takes out just the paired ones, and leaves no two members that
are in such a window. -/
theorem sweep_sound_and_maximal (cfg : MatchmakingConfig) (w : World) (call : Nat) (pool : PoolId)
    (buckets : List PoolId) (first second : Reply) (more : List Reply)
    (sweeping : w.calls call = some (.sweepRange pool buckets))
    (single : ((w.redis.queue pool).map Member.playerId).Nodup)
    (complete : ∀ m ∈ w.redis.queue pool, ∃ info, w.redis.metas pool m.playerId = some info)
    (enough : 3 * (w.redis.queue pool).length ≤ more.length) :
    ∃ used after events, used <+: first :: second :: more ∧
      (matchmaking cfg).run w (used.map (Label.answer call)) = some after ∧
      bucketDone (after.calls call) = true ∧ after.history = w.history ++ events ∧
      Swept cfg w.redis after.redis pool second.now (createdGames events) := by
  by_cases none : (w.redis.queue pool).length = 0
  · have taken : (Stage.sweepRange pool buckets).serve cfg w.redis call first =
        some ⟨w.redis, [], some (.sweepForget pool buckets)⟩ := by
      simp only [Stage.serve, none, if_true]
    have swept : sweepAlone cfg call (second :: more) w.redis
        (some (.sweepForget pool buckets)) = some (w.redis.srem pool, []) := by
      rw [sweepAlone_serve rfl rfl, sweepAlone_done (nextBucket_done buckets)]
      rfl
    obtain ⟨used, after, within, ran, redis, history, done⟩ := sweep_run sweeping taken swept
    refine ⟨used, after, [], within, ran, done, history, Swept.small (by omega) ?_⟩
    rw [redis]
    rfl
  · by_cases few : (w.redis.queue pool).length < 2
    · have taken : (Stage.sweepRange pool buckets).serve cfg w.redis call first =
          some ⟨w.redis, [], nextBucket buckets⟩ := by
        simp only [Stage.serve, none, few, if_true, if_false]
      have swept : sweepAlone cfg call (second :: more) w.redis (nextBucket buckets) =
          some (w.redis, []) := sweepAlone_done (nextBucket_done buckets) _ _
      obtain ⟨used, after, within, ran, redis, history, done⟩ := sweep_run sweeping taken swept
      refine ⟨used, after, [], within, ran, done, history, Swept.small few ?_⟩
      rw [redis]
    · have taken : (Stage.sweepRange pool buckets).serve cfg w.redis call first =
          some ⟨w.redis, [], some (.sweepMeta pool (w.redis.queue pool) buckets)⟩ := by
        simp only [Stage.serve, none, few, if_false]
      have waits : 3 * (waitingOf pool w.redis (w.redis.queue pool)).length ≤ more.length := by
        have shorter := @waitingOf_length w.redis pool (w.redis.queue pool)
        omega
      have present : Present w.redis pool (waitingOf pool w.redis (w.redis.queue pool)) := by
        intro x inside
        obtain ⟨m, here, info, known, rfl⟩ := mem_waitingOf.mp inside
        exact ⟨m, here, rfl⟩
      obtain ⟨pairs, left, redis', events, paired, loops, seated, queue⟩ :=
        sweepFrom_pairs (waitingOf pool w.redis (w.redis.queue pool)) w.redis present
          (waitingOf_single single) more waits
      have swept : sweepAlone cfg call (second :: more) w.redis
          (some (.sweepMeta pool (w.redis.queue pool) buckets)) = some (redis', events) := by
        rw [sweepAlone_serve rfl rfl, loops]
        rfl
      obtain ⟨used, after, within, ran, redis, history, done⟩ := sweep_run sweeping taken swept
      refine ⟨used, after, events, within, ran, done, history, ?_⟩
      rw [← redis] at queue
      exact Swept.of_pairs single complete paired seated queue

/-- Three players wait for a blitz game, and a sweep comes to their bucket. -/
def threeWaiting : World where
  redis :=
    { Redis.empty.setQueue blitzPool [⟨1, 1500, 0⟩, ⟨2, 1600, 1⟩, ⟨3, 2400, 2⟩] with
      metas := Function.update (fun _ _ => none) blitzPool fun playerId =>
        some ⟨playerId, 1000 * playerId, 1500⟩ }
  calls := Function.update (fun _ => none) 3 (some (.sweepRange blitzPool []))
  number := 4
  history := []

theorem threeWaiting_swept :
    ∃ (used : List Reply) (after : World) (events : List Event),
      (matchmaking defaultMatchmakingConfig).run threeWaiting (used.map (Label.answer 3)) =
        some after ∧
      after.history = events ∧
      Swept defaultMatchmakingConfig threeWaiting.redis after.redis blitzPool 5000
        (createdGames events) := by
  obtain ⟨used, after, events, -, ran, -, history, swept⟩ :=
    sweep_sound_and_maximal defaultMatchmakingConfig threeWaiting 3 blitzPool []
      { replyFor 0 with now := 5000 } { replyFor 0 with now := 5000 }
      (List.replicate 9 (replyFor 0)) rfl (by decide) (fun m _ => ⟨_, rfl⟩) (by decide)
  exact ⟨used, after, events, ran, history, swept⟩

end Farzin.Matchmaking
