import Farzin.MatchmakingEntries
import Mathlib.Tactic.IntervalCases

set_option autoImplicit false

/- What matchmaking keeps when every await may be followed by any other request: a queue entry
is played once, always; one bucket for a player and no game after a `leave`, as long as markers
and queues change together. -/
namespace Farzin.Matchmaking

open Transition (System)

/-- A player is in at most one bucket. -/
def OneBucket (s : Redis) : Prop :=
  ∀ playerId pool pool', (∃ m ∈ s.queue pool, m.playerId = playerId) →
    (∃ m ∈ s.queue pool', m.playerId = playerId) → pool = pool'

/-- The game seats the player on this queue entry. -/
def MatchedGame.Seats (game : MatchedGame) (playerId entry : Nat) : Prop :=
  (game.whitePlayerId = playerId ∧ game.whiteEntry = entry) ∨
    (game.blackPlayerId = playerId ∧ game.blackEntry = entry)

/-- After a `leave` that returned `left = true` no game is made of an entry whose `join` had
started before that `leave`. -/
def LeaveFinal (history : List Event) : Prop :=
  history.Pairwise fun earlier later => ∀ call playerId game entry,
    earlier = .left call playerId → later = .created game → game.Seats playerId entry →
      call ≤ entry

namespace World

variable (w : World)

def Queued (playerId entry : Nat) (pool : PoolId) : Prop :=
  ∃ m ∈ w.redis.queue pool, m.playerId = playerId ∧ m.entry = entry

/-- A `join` that has the marker of the player and not yet the place in the queue. -/
def Entering (playerId entry : Nat) : Prop :=
  ∃ pool info, w.calls entry = some (.joinAdd pool playerId info)

/-- The entry is out of its queue for a game that is not yet made. -/
def Claimed (playerId entry : Nat) : Prop :=
  ∃ call game caller, w.calls call = some (.creating game caller) ∧ game.Seats playerId entry

/-- A `leave` takes effect when no `join` of the player is between its marker and its place in
the queue, the player is in no other bucket, and no older entry of the player is already taken
for a game. A `join` takes the marker when no later `leave` of the player has returned
`left = true`. A marker expires when the player neither waits in a queue nor enters one. -/
def Orderly : Label → Prop
  | .answer call _ =>
      match w.calls call with
      | some (.leaveRemove playerId pool) =>
          (∀ entry, ¬ w.Entering playerId entry) ∧
            (∀ entry other, w.Queued playerId entry other → other = pool) ∧
            ∀ entry, w.Claimed playerId entry → call ≤ entry
      | some (.joinMark _ _ playerId _) =>
          w.redis.marker playerId = none → ∀ leave, .left leave playerId ∈ w.history → leave ≤ call
      | _ => True
  | .expireMarker playerId =>
      (∀ entry, ¬ w.Entering playerId entry) ∧ ∀ entry pool, ¬ w.Queued playerId entry pool
  | _ => True

end World

/-- An entry of the player that can still lead to a game. -/
def World.Holds (w : World) (playerId entry : Nat) : Prop :=
  w.Entering playerId entry ∨ (∃ pool, w.Queued playerId entry pool) ∨ w.Claimed playerId entry

/-- Markers and queues agree, and what a `leave` has ended is gone. -/
structure Marked (w : World) : Prop where
  queued : ∀ pool, ∀ m ∈ w.redis.queue pool, w.redis.marker m.playerId = some pool
  entering : ∀ call pool playerId info, w.calls call = some (.joinAdd pool playerId info) →
    w.redis.marker playerId = some pool ∧
      (∀ other, ∀ m ∈ w.redis.queue other, m.playerId ≠ playerId) ∧
      ∀ entry, w.Entering playerId entry → entry = call
  left : ∀ leave playerId, .left leave playerId ∈ w.history →
    ∀ entry, w.Holds playerId entry → leave ≤ entry
  final : LeaveFinal w.history

/-- No marker of a player in a queue or on the way into one, and no queue, has changed. -/
structure Settled (w v : World) : Prop where
  queues : ∀ pool, ∀ m ∈ v.redis.queue pool, m ∈ w.redis.queue pool
  markers : ∀ pool, ∀ m ∈ v.redis.queue pool,
    v.redis.marker m.playerId = w.redis.marker m.playerId
  entering : ∀ call pool playerId info, v.calls call = some (.joinAdd pool playerId info) →
    w.calls call = some (.joinAdd pool playerId info) ∧
      v.redis.marker playerId = w.redis.marker playerId
  claimed : ∀ playerId entry, v.Claimed playerId entry → w.Holds playerId entry

theorem Settled.holds {w v : World} (settled : Settled w v) {playerId entry : Nat}
    (holds : v.Holds playerId entry) : w.Holds playerId entry := by
  rcases holds with ⟨pool, info, here⟩ | ⟨pool, m, inside, owner⟩ | claimed
  · exact Or.inl ⟨pool, info, (settled.entering _ _ _ _ here).1⟩
  · exact Or.inr (Or.inl ⟨pool, m, settled.queues pool m inside, owner⟩)
  · exact settled.claimed playerId entry claimed

/-- What such a step keeps; the history is checked apart. -/
theorem Marked.settled {w v : World} (marked : Marked w) (settled : Settled w v)
    (left : ∀ leave playerId, .left leave playerId ∈ v.history →
      .left leave playerId ∈ w.history ∨ ∀ entry, v.Holds playerId entry → leave ≤ entry)
    (final : LeaveFinal v.history) : Marked v where
  queued pool m inside := by
    rw [settled.markers pool m inside]
    exact marked.queued pool m (settled.queues pool m inside)
  entering call pool playerId info here := by
    obtain ⟨before, marker⟩ := settled.entering call pool playerId info here
    obtain ⟨named, nowhere, only⟩ := marked.entering call pool playerId info before
    refine ⟨marker.trans named, fun other m inside => nowhere other m ?_, fun entry also => ?_⟩
    · exact settled.queues other m inside
    · obtain ⟨pool', info', there⟩ := also
      exact only entry ⟨pool', info', (settled.entering _ _ _ _ there).1⟩
  left leave playerId inside entry holds := by
    rcases left leave playerId inside with old | new
    · exact marked.left leave playerId old entry (settled.holds holds)
    · exact new entry holds
  final := final

theorem LeaveFinal.append {history events : List Event} (final : LeaveFinal history)
    (quiet : ∀ event ∈ events, ∀ game, event ≠ .created game) :
    LeaveFinal (history ++ events) := by
  rw [LeaveFinal, List.pairwise_append]
  refine ⟨final, ?_, ?_⟩
  · apply List.pairwise_of_forall_mem_list
    intro earlier _ later inside call playerId game entry _ created
    exact absurd created (quiet later inside game)
  · intro earlier _ later inside call playerId game entry _ created
    exact absurd created (quiet later inside game)

theorem left_quiet {history events : List Event} {leave playerId : Nat}
    (quiet : ∀ event ∈ events, event.quiet = true)
    (inside : .left leave playerId ∈ history ++ events) : .left leave playerId ∈ history := by
  rcases List.mem_append.mp inside with old | new
  · exact old
  · have impossible := quiet _ new
    cases impossible

namespace Marked

variable {w : World} {call : Nat}

theorem quiet_final {events : List Event} (final : LeaveFinal w.history)
    (quiet : ∀ event ∈ events, event.quiet = true) : LeaveFinal (w.history ++ events) := by
  apply final.append
  rintro event inside game rfl
  have impossible := quiet _ inside
  cases impossible

theorem start (marked : Marked w) {stage : Stage}
    (first : stage.plain = true ∨ stage.early = true) : Marked (w.start stage) := by
  refine Marked.settled (v := w.start stage) marked ?_ (fun _ _ inside => Or.inl inside)
    marked.final
  constructor
  case queues => exact fun pool m inside => inside
  case markers => exact fun pool m inside => rfl
  case entering =>
    intro c pool playerId info here
    rcases update_calls here with ⟨-, eq⟩ | ⟨-, old⟩
    · cases eq
      rcases first with impossible | impossible
      · cases impossible
      · cases impossible
    · exact ⟨old, rfl⟩
  case claimed =>
    rintro playerId entry ⟨c, game, caller, here, seats⟩
    rcases update_calls here with ⟨-, eq⟩ | ⟨-, old⟩
    · cases eq
      rcases first with impossible | impossible
      · cases impossible
      · cases impossible
    · exact Or.inr (Or.inr ⟨c, game, caller, old, seats⟩)

/-- A request that ends, or goes on without an entry in hand, while queues only get shorter. -/
theorem settled_call {served : Served}
    (queues : ∀ pool, ∀ m ∈ served.redis.queue pool, m ∈ w.redis.queue pool)
    (markers : ∀ pool, ∀ m ∈ served.redis.queue pool,
      served.redis.marker m.playerId = w.redis.marker m.playerId)
    (entering : ∀ playerId entry, w.Entering playerId entry →
      served.redis.marker playerId = w.redis.marker playerId)
    (after : ∀ next ∈ served.stage, next.plain = true ∨ next.early = true) :
    Settled w (w.settle call served) where
  queues := queues
  markers := markers
  entering c pool playerId info here := by
    rcases update_calls here with ⟨-, eq⟩ | ⟨-, old⟩
    · rcases after _ eq with impossible | impossible
      · cases impossible
      · cases impossible
    · exact ⟨old, entering playerId c ⟨pool, info, old⟩⟩
  claimed := by
    rintro playerId entry ⟨c, game, caller, here, seats⟩
    rcases update_calls here with ⟨-, eq⟩ | ⟨-, old⟩
    · rcases after _ eq with impossible | impossible
      · cases impossible
      · cases impossible
    · exact Or.inr (Or.inr ⟨c, game, caller, old, seats⟩)

theorem quiet (marked : Marked w) {stage : Stage} {served : Served}
    (queues : served.redis.queue = w.redis.queue) (markers : served.redis.marker = w.redis.marker)
    (events : ∀ event ∈ served.events, event.quiet = true)
    (after : ∀ next ∈ served.stage,
      next.plain = true ∨ (stage.early = true ∧ next.early = true)) :
    Marked (w.settle call served) := by
  apply Marked.settled (v := w.settle call served) marked
  · apply settled_call
    · intro pool m inside
      rw [queues] at inside
      exact inside
    · intro pool m inside
      rw [markers]
    · intro playerId entry entering
      rw [markers]
    · intro next eq
      exact (after next eq).imp_right And.right
  · intro leave playerId inside
    exact Or.inl (left_quiet events inside)
  · exact quiet_final marked.final events

theorem stop (marked : Marked w) : Marked (w.stop call) := by
  have still : Settled w (w.settle call ⟨w.redis, [], none⟩) := by
    apply settled_call
    · exact fun pool m inside => inside
    · exact fun pool m inside => rfl
    · exact fun playerId entry entering => rfl
    · simp
  apply Marked.settled (v := w.stop call) marked
  · exact ⟨still.queues, still.markers, still.entering, still.claimed⟩
  · exact fun leave playerId inside => Or.inl inside
  · exact marked.final

theorem shrink (marked : Marked w) {redis : Redis}
    (queues : ∀ pool, ∀ m ∈ redis.queue pool, m ∈ w.redis.queue pool)
    (markers : redis.marker = w.redis.marker) : Marked { w with redis := redis } := by
  apply Marked.settled (v := { w with redis := redis }) marked
  · constructor
    · exact queues
    · intro pool m inside
      change redis.marker m.playerId = _
      rw [markers]
    · intro c pool playerId info here
      refine ⟨here, ?_⟩
      change redis.marker playerId = _
      rw [markers]
    · exact fun playerId entry claimed => Or.inr (Or.inr claimed)
  · exact fun leave playerId inside => Or.inl inside
  · exact marked.final

theorem unmark (marked : Marked w) {playerId : Nat}
    (orderly : w.Orderly (.expireMarker playerId)) :
    Marked { w with redis := w.redis.setMarker playerId none } := by
  obtain ⟨notEntering, notQueued⟩ := orderly
  apply Marked.settled (v := { w with redis := w.redis.setMarker playerId none }) marked
  · constructor
    · exact fun pool m inside => inside
    · intro pool m inside
      apply Function.update_of_ne
      intro same
      exact notQueued m.entry pool ⟨m, inside, same, rfl⟩
    · intro c pool other info here
      refine ⟨here, Function.update_of_ne ?_ _ _⟩
      rintro rfl
      exact notEntering c ⟨pool, info, here⟩
    · exact fun other entry claimed => Or.inr (Or.inr claimed)
  · exact fun leave other inside => Or.inl inside
  · exact marked.final

theorem remove (marked : Marked w) {playerId : Nat} {pool : PoolId}
    (notEntering : ∀ entry, ¬ w.Entering playerId entry)
    (notElsewhere : ∀ entry other, w.Queued playerId entry other → other = pool)
    (notClaimed : ∀ entry, w.Claimed playerId entry → call ≤ entry) :
    Marked (w.settle call ⟨w.redis.dequeue pool playerId, [.left call playerId], none⟩) := by
  have settled : Settled w
      (w.settle call ⟨w.redis.dequeue pool playerId, [.left call playerId], none⟩) := by
    apply settled_call
    · exact fun other m inside => (mem_dequeue inside).1
    · intro other m inside
      obtain ⟨old, apart⟩ := mem_dequeue inside
      apply Function.update_of_ne
      intro same
      exact apart (notElsewhere m.entry other ⟨m, old, same, rfl⟩) same
    · intro other entry entering
      apply Function.update_of_ne
      rintro rfl
      exact notEntering entry entering
    · simp
  apply marked.settled settled
  · intro leave other inside
    rcases List.mem_append.mp inside with old | new
    · exact Or.inl old
    · right
      simp only [List.mem_singleton, Event.left.injEq] at new
      obtain ⟨rfl, rfl⟩ := new
      intro entry holds
      rcases holds with ⟨pool', info, here⟩ | ⟨pool', m, inside', owner, -⟩ | claimed
      · exact absurd ⟨pool', info, (settled.entering _ _ _ _ here).1⟩ (notEntering entry)
      · obtain ⟨old, apart⟩ := mem_dequeue inside'
        exact absurd owner (apart (notElsewhere m.entry pool' ⟨m, old, owner, rfl⟩))
      · obtain ⟨c, game, caller, here, seats⟩ := claimed
        rcases update_calls here with ⟨-, eq⟩ | ⟨-, old⟩
        · cases eq
        · exact notClaimed entry ⟨c, game, caller, old, seats⟩
  · exact marked.final.append (by simp)

theorem pair (marked : Marked w) {attempt : Attempt} {caller : Caller} {a b : Member}
    (first : w.redis.zscore attempt.pool attempt.aPlayerId = some a)
    (second : w.redis.zscore attempt.pool attempt.bPlayerId = some b) :
    Marked (w.settle call
      ⟨(w.redis.dequeue attempt.pool attempt.aPlayerId).dequeue attempt.pool attempt.bPlayerId, [],
        some (.creating (attempt.game a b) caller)⟩) := by
  obtain ⟨insideA, playerA⟩ := mem_zscore first
  obtain ⟨insideB, playerB⟩ := mem_zscore second
  have markedA := marked.queued _ a insideA
  have markedB := marked.queued _ b insideB
  rw [playerA] at markedA
  rw [playerB] at markedB
  have kept : ∀ {playerId : Nat}, playerId ≠ attempt.aPlayerId → playerId ≠ attempt.bPlayerId →
      ((w.redis.dequeue attempt.pool attempt.aPlayerId).dequeue attempt.pool
        attempt.bPlayerId).marker playerId = w.redis.marker playerId := by
    intro playerId notA notB
    exact (Function.update_of_ne notB _ _).trans (Function.update_of_ne notA _ _)
  apply Marked.settled (v := w.settle call _) marked
  · constructor
    · intro pool m inside
      exact (mem_dequeue (mem_dequeue inside).1).1
    · intro pool m inside
      obtain ⟨between, notB⟩ := mem_dequeue inside
      obtain ⟨old, notA⟩ := mem_dequeue between
      -- A member of another bucket would have the marker of that bucket.
      have here := marked.queued pool m old
      apply kept
      · intro same
        rw [same, markedA] at here
        exact notA (Option.some.inj here).symm same
      · intro same
        rw [same, markedB] at here
        exact notB (Option.some.inj here).symm same
    · intro c pool playerId info here
      rcases update_calls here with ⟨-, eq⟩ | ⟨-, old⟩
      · cases eq
      · refine ⟨old, ?_⟩
        obtain ⟨-, nowhere, -⟩ := marked.entering c pool playerId info old
        apply kept
        · rintro rfl
          exact nowhere _ a insideA playerA
        · rintro rfl
          exact nowhere _ b insideB playerB
    · rintro playerId entry ⟨c, game, caller', here, seats⟩
      rcases update_calls here with ⟨-, eq⟩ | ⟨-, old⟩
      · cases eq
        have queuedA : w.Holds attempt.aPlayerId a.entry :=
          Or.inr (Or.inl ⟨_, a, insideA, playerA, rfl⟩)
        have queuedB : w.Holds attempt.bPlayerId b.entry :=
          Or.inr (Or.inl ⟨_, b, insideB, playerB, rfl⟩)
        unfold Attempt.game at seats
        split at seats
        · rcases seats with ⟨rfl, rfl⟩ | ⟨rfl, rfl⟩
          · exact queuedA
          · exact queuedB
        · rcases seats with ⟨rfl, rfl⟩ | ⟨rfl, rfl⟩
          · exact queuedB
          · exact queuedA
      · exact Or.inr (Or.inr ⟨c, game, caller', old, seats⟩)
  · exact fun leave playerId inside => Or.inl (left_quiet (by simp) inside)
  · exact quiet_final marked.final (by simp)

theorem create (marked : Marked w) {game : MatchedGame} {caller : Caller} {gameId : Nat}
    (here : w.calls call = some (.creating game caller)) :
    Marked (w.settle call ⟨w.redis, [.created game], some (.starting game gameId caller)⟩) := by
  apply Marked.settled (v := w.settle call _) marked
  · apply settled_call
    · exact fun pool m inside => inside
    · exact fun pool m inside => rfl
    · exact fun playerId entry entering => rfl
    · rintro next ⟨⟩
      exact Or.inl rfl
  · intro leave playerId inside
    rcases List.mem_append.mp inside with old | new
    · exact Or.inl old
    · simp at new
  · change LeaveFinal (w.history ++ [.created game])
    rw [LeaveFinal, List.pairwise_append]
    refine ⟨marked.final, List.pairwise_singleton _ _, ?_⟩
    intro earlier inside later only leave playerId other entry wasLeft created seats
    rw [List.mem_singleton] at only
    subst only
    cases created
    subst wasLeft
    exact marked.left leave playerId inside entry
      (Or.inr (Or.inr ⟨call, game, caller, here, seats⟩))

theorem mark (marked : Marked w) {userId playerId : Nat} {pool : PoolId} {rating : Rat}
    {info : QueueMeta} (here : w.calls call = some (.joinMark userId pool playerId rating))
    (unmarked : w.redis.marker playerId = none)
    (orderly : ∀ leave, .left leave playerId ∈ w.history → leave ≤ call) :
    Marked (w.settle call
      ⟨w.redis.setMarker playerId (some pool), [], some (.joinAdd pool playerId info)⟩) := by
  have notQueued : ∀ other, ∀ m ∈ w.redis.queue other, m.playerId ≠ playerId := by
    intro other m inside same
    have named := marked.queued other m inside
    rw [same, unmarked] at named
    cases named
  have notEntering : ∀ entry, ¬ w.Entering playerId entry := by
    rintro entry ⟨other, info', before⟩
    have named := (marked.entering entry other playerId info' before).1
    rw [unmarked] at named
    cases named
  constructor
  case queued =>
    intro other m inside
    exact (Function.update_of_ne (notQueued other m inside) _ _).trans
      (marked.queued other m inside)
  case entering =>
    intro c other player info' now
    rcases update_calls now with ⟨rfl, eq⟩ | ⟨apart, old⟩
    · cases eq
      refine ⟨Function.update_self .., notQueued, ?_⟩
      rintro entry ⟨pool', info'', also⟩
      rcases update_calls also with ⟨same, -⟩ | ⟨-, before⟩
      · exact same
      · exact absurd ⟨pool', info'', before⟩ (notEntering entry)
    · obtain ⟨named, nowhere, only⟩ := marked.entering c other player info' old
      have distinct : player ≠ playerId := by
        rintro rfl
        exact notEntering c ⟨other, info', old⟩
      refine ⟨(Function.update_of_ne distinct _ _).trans named, nowhere, ?_⟩
      rintro entry ⟨pool', info'', also⟩
      rcases update_calls also with ⟨-, eq⟩ | ⟨-, before⟩
      · cases eq
        exact absurd rfl distinct
      · exact only entry ⟨pool', info'', before⟩
  case left =>
    intro leave player inside entry holds
    have old : .left leave player ∈ w.history := left_quiet (by simp) inside
    rcases holds with ⟨other, info', now⟩ | queued | ⟨c, game, caller, now, seats⟩
    · rcases update_calls now with ⟨rfl, eq⟩ | ⟨-, before⟩
      · cases eq
        exact orderly leave old
      · exact marked.left leave player old entry (Or.inl ⟨other, info', before⟩)
    · exact marked.left leave player old entry (Or.inr (Or.inl queued))
    · rcases update_calls now with ⟨-, eq⟩ | ⟨-, before⟩
      · cases eq
      · exact marked.left leave player old entry (Or.inr (Or.inr ⟨c, game, caller, before, seats⟩))
  case final => exact quiet_final marked.final (by simp)

theorem add (marked : Marked w) {pool : PoolId} {playerId : Nat} {info : QueueMeta} {next : Stage}
    (here : w.calls call = some (.joinAdd pool playerId info)) (plain : next.plain = true) :
    Marked (w.settle call
      ⟨w.redis.enqueue pool ⟨playerId, info.r, call⟩ info, [], some next⟩) := by
  obtain ⟨named, nowhere, only⟩ := marked.entering call pool playerId info here
  have entering : ∀ c other player info', (w.settle call
      ⟨w.redis.enqueue pool ⟨playerId, info.r, call⟩ info, [], some next⟩).calls c =
        some (.joinAdd other player info') →
      w.calls c = some (.joinAdd other player info') ∧ player ≠ playerId := by
    intro c other player info' now
    rcases update_calls now with ⟨-, eq⟩ | ⟨apart, old⟩
    · cases eq
      cases plain
    · refine ⟨old, ?_⟩
      rintro rfl
      exact apart (only c ⟨other, info', old⟩)
  constructor
  case queued =>
    intro other m inside
    rcases mem_enqueue inside with ⟨rfl, rfl⟩ | old
    · exact named
    · exact marked.queued other m old
  case entering =>
    intro c other player info' now
    obtain ⟨before, distinct⟩ := entering c other player info' now
    obtain ⟨named', nowhere', only'⟩ := marked.entering c other player info' before
    refine ⟨named', fun pool' m inside => ?_, ?_⟩
    · rcases mem_enqueue inside with ⟨-, rfl⟩ | old
      · exact distinct.symm
      · exact nowhere' pool' m old
    · rintro entry ⟨pool', info'', also⟩
      exact only' entry ⟨pool', info'', (entering _ _ _ _ also).1⟩
  case left =>
    intro leave player inside entry holds
    have old : .left leave player ∈ w.history := left_quiet (by simp) inside
    apply marked.left leave player old entry
    rcases holds with ⟨other, info', now⟩ | ⟨other, m, there, owner⟩ | ⟨c, game, caller, now, seats⟩
    · exact Or.inl ⟨other, info', (entering _ _ _ _ now).1⟩
    · rcases mem_enqueue there with ⟨-, rfl⟩ | before
      · obtain ⟨rfl, rfl⟩ := owner
        exact Or.inl ⟨pool, info, here⟩
      · exact Or.inr (Or.inl ⟨other, m, before, owner⟩)
    · rcases update_calls now with ⟨-, eq⟩ | ⟨-, before⟩
      · cases eq
        cases plain
      · exact Or.inr (Or.inr ⟨c, game, caller, before, seats⟩)
  case final => exact quiet_final marked.final (by simp)

/-- Orderly steps keep markers and queues together. -/
theorem move (marked : Marked w) {cfg : MatchmakingConfig} {label : Label} {v : World}
    (moved : Move cfg w label v) (orderly : w.Orderly label) : Marked v := by
  cases moved with
  | start label stage first => exact marked.start first
  | await call reply stage served here effect =>
      cases effect with
      | quiet _ _ queues markers events after => exact marked.quiet queues markers events after
      | mark userId pool playerId rating info unmarked =>
          simp only [World.Orderly, here] at orderly
          exact marked.mark here unmarked (orderly unmarked)
      | add => exact marked.add here rfl
      | remove playerId pool =>
          simp only [World.Orderly, here] at orderly
          exact marked.remove orderly.1 orderly.2.1 orderly.2.2
      | pair attempt caller a b first second => exact marked.pair first second
      | create => exact marked.create here
  | stop call => exact marked.stop
  | unmark playerId => exact marked.unmark orderly
  | shrink label redis queues markers => exact marked.shrink queues markers

end Marked

theorem empty_marked : Marked .empty where
  queued _ _ inside := by cases inside
  entering _ _ _ _ here := by cases here
  left _ _ inside := by cases inside
  final := List.Pairwise.nil

theorem Marked.oneBucket {w : World} (marked : Marked w) : OneBucket w.redis := by
  rintro playerId pool pool' ⟨m, inside, rfl⟩ ⟨m', inside', same⟩
  have named := marked.queued pool m inside
  have named' := marked.queued pool' m' inside'
  rw [same, named] at named'
  exact Option.some.inj named'

section Runs

variable {cfg : MatchmakingConfig} {w : World}

theorem orderly_marked (reached : (matchmaking cfg).ReachableWhile World.Orderly w) :
    Marked w := by
  apply reached.invariant Marked
  · rintro w rfl
    exact empty_marked
  · intro w label v marked orderly taken
    exact marked.move (step_move taken) orderly

end Runs

/-- In every run a queue entry is played at most once. In every orderly run a player is in at
most one bucket, and a `leave` that returned `left = true` is final. -/
theorem matched_once (cfg : MatchmakingConfig) (labels : List Label) (w : World)
    (ran : (matchmaking cfg).run .empty labels = some w) :
    PlayedOnce w.history ∧
      (System.Guarded World.Orderly (matchmaking cfg) .empty labels →
        OneBucket w.redis ∧ LeaveFinal w.history) := by
  constructor
  · obtain ⟨home, homes⟩ := reachable_homes (System.run_reachable _ _ labels rfl ran)
    exact homes.once
  · intro guarded
    have marked := orderly_marked ⟨_, rfl, System.run_steps _ _ labels ran guarded⟩
    exact ⟨marked.oneBucket, marked.final⟩

/-- What the outside answers to a request of one player. -/
def replyFor (playerId : Nat) : Reply where
  player := some playerId
  rating := none
  now := 0
  buckets := []
  gameId := 1

def answers (call playerId count : Nat) : List Label :=
  List.replicate count (.answer call (replyFor playerId))

def blitzPool : PoolId := ⟨.blitz, .fischerIncrement, 180, 2⟩
def rapidPool : PoolId := ⟨.rapid, .fischerIncrement, 600, 5⟩

/-- A `leave` runs while a `join` has its marker and not yet its place in the queue; the player
then joins another queue. -/
def leaveBeforeQueue : List Label :=
  [.join 1 blitzPool] ++ answers 0 1 3 ++ [.leave 1] ++ answers 1 1 3 ++ answers 0 1 1 ++
    [.join 1 rapidPool] ++ answers 2 1 4

/-- And somebody else finds the place in the first queue. -/
def matchedAfterLeave : List Label :=
  leaveBeforeQueue ++ [.join 2 blitzPool] ++ answers 3 2 8

/-- What the two runs leave in the queues and in the history. -/
theorem leaveBeforeQueue_queues :
    ((matchmaking defaultMatchmakingConfig).run .empty leaveBeforeQueue).map
      (fun w => (w.redis.queue blitzPool, w.redis.queue rapidPool)) =
      some ([⟨1, 1500, 0⟩], [⟨1, 1500, 2⟩]) := by
  decide +kernel

theorem matchedAfterLeave_history :
    ((matchmaking defaultMatchmakingConfig).run .empty matchedAfterLeave).map World.history =
      some [.left 1 1, .created
        { pool := blitzPool
          whitePlayerId := 1
          whiteUserId := 1
          whiteEntry := 0
          blackPlayerId := 2
          blackUserId := 2
          blackEntry := 3
          isRated := true }] := by
  decide +kernel

theorem matchedAfterLeave_broken :
    (∃ w, (matchmaking defaultMatchmakingConfig).run .empty leaveBeforeQueue = some w ∧
      ¬ OneBucket w.redis) ∧
    ∃ w, (matchmaking defaultMatchmakingConfig).run .empty matchedAfterLeave = some w ∧
      ¬ LeaveFinal w.history := by
  constructor
  · obtain ⟨w, ran, queues⟩ := Option.map_eq_some_iff.mp leaveBeforeQueue_queues
    obtain ⟨blitz, rapid⟩ := Prod.mk.inj queues
    refine ⟨w, ran, fun oneBucket => ?_⟩
    have same := oneBucket 1 blitzPool rapidPool (by simp [blitz]) (by simp [rapid])
    cases same
  · obtain ⟨w, ran, history⟩ := Option.map_eq_some_iff.mp matchedAfterLeave_history
    refine ⟨w, ran, fun final => ?_⟩
    rw [history, LeaveFinal, List.pairwise_pair] at final
    have order := final 1 1 _ 0 rfl rfl (Or.inl ⟨rfl, rfl⟩)
    cases order

/-- A player leaves right after the queue is joined. -/
def joinThenLeave : List Label :=
  [.join 1 blitzPool] ++ answers 0 1 4 ++ [.leave 1] ++ answers 1 1 3 ++ answers 0 1 1

theorem blitzPool_accepted : blitzPool.accepted = true := by decide +kernel

theorem joinThenLeave_orderly :
    System.Guarded World.Orderly (matchmaking defaultMatchmakingConfig) .empty joinThenLeave := by
  refine ⟨trivial, fun _ taken => ?_⟩
  simp only [matchmaking, World.step, blitzPool_accepted, if_true, Option.mem_def,
    Option.some.injEq] at taken
  subst taken
  iterate 2
    refine ⟨trivial, fun _ taken => ?_⟩
    cases taken
  refine ⟨fun _ leave inside => (by cases inside), fun _ taken => ?_⟩
  cases taken
  iterate 4
    refine ⟨trivial, fun _ taken => ?_⟩
    cases taken
  refine ⟨⟨?_, ?_, ?_⟩, fun _ taken => ?_⟩
  · rintro entry ⟨pool, info, here⟩
    have small : entry < 2 := by
      iterate 8
        rcases update_calls here with ⟨rfl, -⟩ | ⟨-, here⟩
        · decide
      cases here
    interval_cases entry
    · cases here
    · cases here
  · rintro entry other ⟨m, inside, -, -⟩
    rcases mem_enqueue inside with ⟨same, -⟩ | old
    · exact same
    · cases old
  · rintro entry ⟨call, game, caller, here, -⟩
    have small : call < 2 := by
      iterate 8
        rcases update_calls here with ⟨rfl, -⟩ | ⟨-, here⟩
        · decide
      cases here
    interval_cases call
    · cases here
    · cases here
  · cases taken
    exact ⟨trivial, fun _ _ => trivial⟩

theorem joinThenLeave_final :
    ∃ w, (matchmaking defaultMatchmakingConfig).run .empty joinThenLeave = some w ∧
      PlayedOnce w.history ∧ OneBucket w.redis ∧ LeaveFinal w.history := by
  have ran : ((matchmaking defaultMatchmakingConfig).run .empty joinThenLeave).isSome := by
    decide +kernel
  obtain ⟨w, ran⟩ := Option.isSome_iff_exists.mp ran
  obtain ⟨once, orderly⟩ := matched_once defaultMatchmakingConfig joinThenLeave w ran
  exact ⟨w, ran, once, orderly joinThenLeave_orderly⟩

end Farzin.Matchmaking
