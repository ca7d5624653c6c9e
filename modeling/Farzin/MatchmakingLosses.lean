import Farzin.MatchmakingRegistry

set_option autoImplicit false

/- A player who waits stays in the queue until the player leaves, the queue expires or a game is
made, unless the making of a game fails after its players were taken out. -/
namespace Farzin.Matchmaking

open Transition (System)

/-- The game that a request is about to create, or has created without its clock. -/
def Stage.making : Stage → Option MatchedGame
  | .creating game _ => some game
  | .starting game _ _ => some game
  | _ => none

/-- Both players are in the bucket again, on their entries and with metadata and marker. -/
def Restored (s : Redis) (game : MatchedGame) : Prop :=
  ∀ playerId entry, game.Seats playerId entry →
    (∃ m ∈ s.queue game.pool, m.playerId = playerId ∧ m.entry = entry) ∧
      (s.metas game.pool playerId).isSome ∧ s.marker playerId = some game.pool

namespace World

variable (w : World)

/-- The entry is in its bucket, or with a request that is about to create its game. -/
def Waits (pool : PoolId) (playerId entry : Nat) : Prop :=
  w.Queued playerId entry pool ∨
    ∃ call game caller, w.calls call = some (.creating game caller) ∧ game.pool = pool ∧
      game.Seats playerId entry

/-- The reasons for which an entry may end: its player leaves, or joins the bucket once more; its
game is created; the bucket expires. -/
def Accounts (pool : PoolId) (playerId entry : Nat) : Label → Prop
  | .answer call _ =>
      match w.calls call with
      | some (.leaveRemove player other) => player = playerId ∧ other = pool
      | some (.joinAdd other player _) => player = playerId ∧ other = pool
      | some (.creating game _) => game.pool = pool ∧ game.Seats playerId entry
      | _ => False
  | .expireQueue other => other = pool
  | _ => False

/-- No request fails inside `createGameWithClock`. -/
def Creates : Label → Prop
  | .fail call => (w.calls call).bind Stage.making = none
  | _ => True

instance createsDecidable : (label : Label) → Decidable (w.Creates label)
  | .fail call => inferInstanceAs (Decidable ((w.calls call).bind Stage.making = none))
  | .join _ _ | .leave _ | .sweep | .answer _ _ | .expireMarker _ | .expireQueue _
  | .expireMeta _ => .isTrue trivial

end World

/-- A step loses no waiting player. -/
structure Kept (w : World) (label : Label) (v : World) : Prop where
  accounted : ∀ pool playerId entry, w.Waits pool playerId entry →
    v.Waits pool playerId entry ∨ w.Accounts pool playerId entry label
  restored : ∀ call, label = .fail call → ∀ game ∈ (w.calls call).bind Stage.making,
    Restored v.redis game

/-- A player has one place in a bucket, and a game that waits for its clock is created. -/
structure Ledger (w : World) : Prop where
  single : ∀ pool, ((w.redis.queue pool).map Member.playerId).Nodup
  started : ∀ call game gameId caller, w.calls call = some (.starting game gameId caller) →
    .created game ∈ w.history

section Store

variable {s : Redis} {pool other : PoolId} {playerId : Nat} {m : Member}

theorem enqueue_mem (pool : PoolId) (member : Member) (info : QueueMeta) (inside : m ∈ s.queue other) :
    (other = pool ∧ m.playerId = member.playerId) ∨
      m ∈ (s.enqueue pool member info).queue other := by
  change _ ∨ m ∈ Function.update s.queue pool _ other
  by_cases same : other = pool
  · subst same
    by_cases own : m.playerId = member.playerId
    · exact .inl ⟨rfl, own⟩
    · rw [Function.update_self, List.mem_orderedInsert]
      exact .inr (.inr (List.mem_filter.mpr ⟨inside, by simpa using own⟩))
  · rw [Function.update_of_ne same]
    exact .inr inside

theorem dequeue_mem (pool : PoolId) (playerId : Nat) (inside : m ∈ s.queue other) :
    (other = pool ∧ m.playerId = playerId) ∨ m ∈ (s.dequeue pool playerId).queue other := by
  change _ ∨ m ∈ Function.update s.queue pool _ other
  by_cases same : other = pool
  · subst same
    by_cases own : m.playerId = playerId
    · exact .inl ⟨rfl, own⟩
    · rw [Function.update_self]
      exact .inr (List.mem_filter.mpr ⟨inside, by simpa using own⟩)
  · rw [Function.update_of_ne same]
    exact .inr inside

theorem enqueue_single {member : Member} {info : QueueMeta}
    (single : ((s.queue other).map Member.playerId).Nodup) :
    (((s.enqueue pool member info).queue other).map Member.playerId).Nodup := by
  change ((Function.update s.queue pool _ other).map _).Nodup
  by_cases same : other = pool
  · subst same
    rw [Function.update_self,
      ((List.perm_orderedInsert Member.upTo member _).map Member.playerId).nodup_iff,
      List.map_cons]
    apply List.nodup_cons.mpr
    constructor
    · intro again
      obtain ⟨m, inside, own⟩ := List.mem_map.mp again
      have apart := (List.mem_filter.mp inside).2
      simp [own] at apart
    · exact (List.filter_sublist.map Member.playerId).nodup single
  · rw [Function.update_of_ne same]
    exact single

theorem dequeue_single (single : ((s.queue other).map Member.playerId).Nodup) :
    (((s.dequeue pool playerId).queue other).map Member.playerId).Nodup := by
  change ((Function.update s.queue pool _ other).map _).Nodup
  by_cases same : other = pool
  · subst same
    rw [Function.update_self]
    exact (List.filter_sublist.map Member.playerId).nodup single
  · rw [Function.update_of_ne same]
    exact single

/-- The member that a player has in a bucket. -/
theorem zscore_single (single : ((s.queue pool).map Member.playerId).Nodup) {found : Member}
    (score : s.zscore pool playerId = some found) (inside : m ∈ s.queue pool)
    (own : m.playerId = playerId) : m = found := by
  obtain ⟨there, player⟩ := mem_zscore score
  exact List.inj_on_of_nodup_map single inside there (own.trans player.symm)

end Store

section Making

variable {cfg : MatchmakingConfig} {s : Redis} {call : Nat} {next : Stage}

theorem making_of_searching (searching : next.searching = true) : next.making = none := by
  cases next with
  | joinMeta | sweepRange | pairing => rfl
  | _ => cases searching

/-- A game comes into the hands of a request by `PAIR_SCRIPT`, and waits for its clock after it
was created. -/
theorem serve_making {reply : Reply} {stage : Stage} {served : Served}
    (taken : stage.serve cfg s call reply = some served) (found : served.stage = some next) :
    next.making = none ∨ (∃ game caller, next = .creating game caller) ∨
      ∃ game gameId caller, next = .starting game gameId caller ∧ .created game ∈ served.events := by
  cases stage with
  | pairing attempt caller =>
      simp only [Stage.serve] at taken
      split at taken <;> cases taken
      · exact .inl (making_of_searching (missed_searching found))
      · cases found
        exact .inr (.inl ⟨_, _, rfl⟩)
  | creating game caller =>
      cases taken
      cases found
      exact .inr (.inr ⟨_, _, _, rfl, List.mem_singleton_self _⟩)
  | starting =>
      cases taken
      exact .inl (making_of_searching (paired_searching found))
  | joinFind =>
      cases taken
      obtain ⟨playerId, _, rfl⟩ := Option.map_eq_some_iff.mp found
      exact .inl rfl
  | joinRange =>
      cases taken
      exact .inl (making_of_searching (proceedJoin_searching found))
  | joinMeta =>
      simp only [Stage.serve] at taken
      split at taken <;> cases taken
      · exact .inl (making_of_searching (proceedJoin_searching found))
      · cases found
        exact .inl rfl
  | sweepRegistry =>
      simp only [Stage.serve] at taken
      split at taken <;> cases taken
      exact .inl (making_of_searching (nextBucket_searching found))
  | sweepForget =>
      cases taken
      exact .inl (making_of_searching (nextBucket_searching found))
  | sweepMeta =>
      cases taken
      exact .inl (making_of_searching (sweepFrom_searching found))
  | sweepRange =>
      simp only [Stage.serve] at taken
      split at taken
      · cases taken
        cases found
        exact .inl rfl
      · split at taken <;> cases taken
        · exact .inl (making_of_searching (nextBucket_searching found))
        · cases found
          exact .inl rfl
  | leaveRemove =>
      cases taken
      cases found
  | joinRate | joinAdd =>
      cases taken
      cases found
      exact .inl rfl
  | joinMark | leaveFind | leaveGet =>
      simp only [Stage.serve] at taken
      split at taken
      · cases taken
        cases found
      · cases taken
        cases found
        exact .inl rfl

end Making

section Steps

variable {cfg : MatchmakingConfig} {w v : World} {label : Label}

theorem answer_step {call : Nat} {reply : Reply} (taken : w.step cfg (.answer call reply) = some v) :
    ∃ stage served, w.calls call = some stage ∧ stage.serve cfg w.redis call reply = some served ∧
      v = w.settle call served := by
  simp only [World.step, Option.bind_eq_some_iff, Option.map_eq_some_iff] at taken
  obtain ⟨stage, here, served, ran, rfl⟩ := taken
  exact ⟨stage, served, here, ran, rfl⟩

theorem effect_single {s : Redis} {call : Nat} {stage : Stage} {served : Served}
    (effect : Effect s call stage served)
    (single : ∀ pool, ((s.queue pool).map Member.playerId).Nodup) (pool : PoolId) :
    ((served.redis.queue pool).map Member.playerId).Nodup := by
  cases effect with
  | quiet _ _ queues => rw [queues]; exact single pool
  | mark | create => exact single pool
  | add => exact enqueue_single (single pool)
  | remove => exact dequeue_single (single pool)
  | pair => exact dequeue_single (dequeue_single (single pool))

/-- A request that makes no game starts or ends. -/
theorem Ledger.update (ledger : Ledger w) (call : Nat) {next : Option Stage}
    (plain : next.bind Stage.making = none) (other : Nat) (game : MatchedGame) (gameId : Nat)
    (caller : Caller)
    (found : Function.update w.calls call next other = some (.starting game gameId caller)) :
    .created game ∈ w.history := by
  rcases update_calls found with ⟨_, now⟩ | ⟨_, old⟩
  · rw [now] at plain
    cases plain
  · exact ledger.started other game gameId caller old

theorem Ledger.step (ledger : Ledger w) (taken : w.step cfg label = some v) : Ledger v := by
  cases label with
  | answer call reply =>
      obtain ⟨stage, served, here, ran, rfl⟩ := answer_step taken
      refine ⟨effect_single (serve_effect ran) ledger.single, ?_⟩
      intro other game gameId caller found
      rcases update_calls found with ⟨rfl, now⟩ | ⟨_, old⟩
      · rcases serve_making ran now with none | ⟨_, _, wrong⟩ | ⟨_, _, _, same, created⟩
        · cases none
        · cases wrong
        · cases same
          exact List.mem_append_right _ created
      · exact List.mem_append_left _ (ledger.started other game gameId caller old)
  | join userId pool =>
      simp only [World.step] at taken
      split at taken <;> cases taken
      exact ⟨ledger.single, ledger.update w.number rfl⟩
  | leave | sweep =>
      cases taken
      exact ⟨ledger.single, ledger.update w.number rfl⟩
  | fail call =>
      obtain ⟨stage, _, rfl⟩ := Option.map_eq_some_iff.mp taken
      exact ⟨ledger.single, ledger.update call rfl⟩
  | expireMarker | expireMeta =>
      cases taken
      exact ⟨ledger.single, ledger.started⟩
  | expireQueue pool =>
      cases taken
      refine ⟨fun other => ?_, ledger.started⟩
      change ((Function.update w.redis.queue pool [] other).map _).Nodup
      by_cases same : other = pool
      · rw [same, Function.update_self]
        exact List.nodup_nil
      · rw [Function.update_of_ne same]
        exact ledger.single other

/-- An entry stays with a request that does not act. -/
theorem World.Waits.other {pool : PoolId} {playerId entry : Nat}
    (waits : w.Waits pool playerId entry)
    (queue : w.Queued playerId entry pool → v.Queued playerId entry pool)
    (calls : ∀ call game caller, w.calls call = some (.creating game caller) →
      v.calls call = some (.creating game caller)) : v.Waits pool playerId entry := by
  rcases waits with queued | ⟨call, game, caller, here, seat⟩
  · exact .inl (queue queued)
  · exact .inr ⟨call, game, caller, calls call game caller here, seat⟩

/-- An await takes an entry out of its bucket only for one of the reasons, or for a game. -/
theorem answer_queued {call : Nat} {reply : Reply} {stage : Stage} {served : Served}
    (ledger : Ledger w) (here : w.calls call = some stage)
    (effect : Effect w.redis call stage served) {pool : PoolId} {playerId entry : Nat}
    (queued : w.Queued playerId entry pool) :
    (w.settle call served).Waits pool playerId entry ∨
      w.Accounts pool playerId entry (.answer call reply) := by
  obtain ⟨m, inside, own, named⟩ := queued
  unfold World.Accounts
  dsimp only
  rw [here]
  cases effect with
  | quiet _ _ queues =>
      refine .inl (.inl ⟨m, ?_, own, named⟩)
      change m ∈ served.redis.queue pool
      rw [queues]
      exact inside
  | mark | create => exact .inl (.inl ⟨m, inside, own, named⟩)
  | add other player info =>
      rcases enqueue_mem other ⟨player, info.r, call⟩ info inside with ⟨same, again⟩ | still
      · exact .inr ⟨again.symm.trans own, same.symm⟩
      · exact .inl (.inl ⟨m, still, own, named⟩)
  | remove player other =>
      rcases dequeue_mem other player inside with ⟨same, gone⟩ | still
      · exact .inr ⟨gone.symm.trans own, same.symm⟩
      · exact .inl (.inl ⟨m, still, own, named⟩)
  | pair attempt caller a b first second =>
      have seat : attempt.pool = pool → m = a ∨ m = b →
          (w.settle call ⟨(w.redis.dequeue attempt.pool attempt.aPlayerId).dequeue attempt.pool
            attempt.bPlayerId, [], some (.creating (attempt.game a b) caller)⟩).Waits pool
              playerId entry := by
        intro same either
        refine .inr ⟨call, attempt.game a b, caller, Function.update_self .., ?_, ?_⟩
        · unfold Attempt.game
          split <;> exact same
        · have ownA := (mem_zscore first).2
          have ownB := (mem_zscore second).2
          unfold Attempt.game MatchedGame.Seats
          split <;> rcases either with rfl | rfl <;> simp_all
      rcases dequeue_mem attempt.pool attempt.aPlayerId inside with ⟨same, gone⟩ | between
      · subst same
        exact .inl (seat rfl (.inl (zscore_single (ledger.single _) first inside gone)))
      · rcases dequeue_mem attempt.pool attempt.bPlayerId between with ⟨same, gone⟩ | still
        · subst same
          exact .inl (seat rfl (.inr (zscore_single (ledger.single _) second inside gone)))
        · exact .inl (.inl ⟨m, still, own, named⟩)

/-- No player is lost by a step, unless the making of a game fails. -/
theorem kept_of_creates (ledger : Ledger w) {home : Nat → Home} (homes : Homes w home)
    (taken : w.step cfg label = some v) (creates : w.Creates label) : Kept w label v := by
  have fresh : ∀ call game caller, w.calls call = some (.creating game caller) →
      call ≠ w.number := by
    intro call game caller here
    have below := homes.numbered call _ here
    omega
  constructor
  · intro pool playerId entry waits
    cases label with
    | answer call reply =>
        obtain ⟨stage, served, here, ran, rfl⟩ := answer_step taken
        rcases waits with queued | ⟨other, game, caller, claimed, named, seat⟩
        · exact answer_queued ledger here (serve_effect ran) queued
        · by_cases same : other = call
          · -- The request that has the entry goes on, so its game is created.
            subst same
            right
            unfold World.Accounts
            dsimp only
            rw [claimed]
            exact ⟨named, seat⟩
          · exact .inl (.inr ⟨other, game, caller,
              (Function.update_of_ne same _ _).trans claimed, named, seat⟩)
    | join userId other =>
        simp only [World.step] at taken
        split at taken <;> cases taken
        exact .inl (waits.other id fun call game caller here =>
          (Function.update_of_ne (fresh call game caller here) _ _).trans here)
    | leave | sweep =>
        cases taken
        exact .inl (waits.other id fun call game caller here =>
          (Function.update_of_ne (fresh call game caller here) _ _).trans here)
    | fail call =>
        obtain ⟨stage, _, rfl⟩ := Option.map_eq_some_iff.mp taken
        refine .inl (waits.other id fun other game caller here => ?_)
        have apart : other ≠ call := by
          rintro rfl
          change (w.calls other).bind Stage.making = none at creates
          rw [here] at creates
          cases creates
        exact (Function.update_of_ne apart _ _).trans here
    | expireMarker | expireMeta =>
        cases taken
        exact .inl (waits.other id fun _ _ _ here => here)
    | expireQueue other =>
        cases taken
        by_cases same : other = pool
        · exact .inr same
        · refine .inl (waits.other (fun queued => ?_) fun _ _ _ here => here)
          obtain ⟨m, inside, owner⟩ := queued
          refine ⟨m, ?_, owner⟩
          change m ∈ Function.update w.redis.queue other [] pool
          rw [Function.update_of_ne (Ne.symm same)]
          exact inside
  · rintro call rfl game making
    change (w.calls call).bind Stage.making = none at creates
    rw [creates] at making
    cases making

/-- When the making of a game fails its players are gone: their entries are in no queue. -/
theorem creates_of_kept (ledger : Ledger w) {home : Nat → Home} (homes : Homes w home)
    (taken : w.step cfg label = some v) (kept : Kept w label v) : w.Creates label := by
  cases label with
  | fail call =>
      obtain ⟨stage, here, rfl⟩ := Option.map_eq_some_iff.mp taken
      change (w.calls call).bind Stage.making = none
      cases making : (w.calls call).bind Stage.making with
      | none => rfl
      | some game =>
          obtain ⟨⟨m, inside, _, named⟩, _⟩ := kept.restored call rfl game making
            game.whitePlayerId game.whiteEntry (.inl ⟨rfl, rfl⟩)
          have queued := homes.queued _ m inside
          rw [named] at queued
          rw [here, Option.bind_some] at making
          cases stage with
          | creating other caller =>
              cases making
              rw [(homes.claimed call game caller here).1] at queued
              cases queued
          | starting other gameId caller =>
              cases making
              have played := homes.played game (ledger.started call game gameId caller here)
              rw [played.1] at queued
              cases queued
          | _ => cases making
  | _ => trivial

end Steps

theorem empty_ledger : Ledger .empty where
  single _ := List.nodup_nil
  started _ _ _ _ here := by cases here

/-- A run loses no waiting player, and takes the players of every game that could not be made back
into their bucket, exactly if no request fails inside `createGameWithClock`. -/
theorem waiting_kept_iff (cfg : MatchmakingConfig) (labels : List Label) (w : World)
    (ran : (matchmaking cfg).run .empty labels = some w) :
    System.EveryStep (matchmaking cfg) Kept .empty labels ↔
      System.Guarded World.Creates (matchmaking cfg) .empty labels := by
  apply System.everyStep_iff_guarded (fun w => Ledger w ∧ ∃ home, Homes w home) _ _ .empty w labels
    ran
  · exact ⟨empty_ledger, _, empty_homes⟩
  · intro s label t both taken
    obtain ⟨ledger, home, homes⟩ := both
    exact ⟨ledger.step taken, homes.move (step_move taken)⟩
  · intro s label t both taken
    obtain ⟨ledger, home, homes⟩ := both
    exact ⟨creates_of_kept ledger homes taken, kept_of_creates ledger homes taken⟩

/-- Two players are matched; their game is not created yet. -/
def failedCreation : List Label :=
  [.join 1 blitzPool] ++ answers 0 1 5 ++ [.join 2 blitzPool] ++ answers 1 2 7

theorem failedCreation_claimed :
    ((matchmaking defaultMatchmakingConfig).run .empty failedCreation).map
      (fun w => (((w.calls 1).bind Stage.making).map fun game => game.pool,
        w.redis.queue blitzPool)) = some (some blitzPool, []) := by
  decide +kernel

theorem failedCreation_end :
    ((matchmaking defaultMatchmakingConfig).run .empty (failedCreation ++ [.fail 1])).map
      (fun w => ([w.calls 0, w.calls 1], w.redis.queue blitzPool, w.redis.marker 1, w.history)) =
      some ([none, none], [], none, [.joined 0 none]) := by
  decide +kernel

/-- Both players have left the queue without a game. -/
theorem waiting_lost :
    ¬ System.EveryStep (matchmaking defaultMatchmakingConfig) Kept .empty
        (failedCreation ++ [.fail 1]) ∧
      ∃ w, (matchmaking defaultMatchmakingConfig).run .empty (failedCreation ++ [.fail 1]) = some w ∧
        w.redis.queue blitzPool = [] ∧ w.history = [.joined 0 none] := by
  constructor
  · intro every
    obtain ⟨w, ran, seen⟩ := Option.map_eq_some_iff.mp failedCreation_claimed
    obtain ⟨known, empty⟩ := Prod.mk.inj seen
    obtain ⟨game, making, pool⟩ := Option.map_eq_some_iff.mp known
    obtain ⟨stage, here, _⟩ := Option.bind_eq_some_iff.mp making
    have taken : (matchmaking defaultMatchmakingConfig).step w (.fail 1) = some (w.stop 1) := by
      change (w.calls 1).map (fun _ => w.stop 1) = _
      rw [here, Option.map_some]
    have kept := every.last ran taken
    obtain ⟨⟨m, inside, _⟩, _⟩ := kept.restored 1 rfl game making _ _ (.inl ⟨rfl, rfl⟩)
    change m ∈ w.redis.queue game.pool at inside
    rw [pool, empty] at inside
    cases inside
  · obtain ⟨w, ran, seen⟩ := Option.map_eq_some_iff.mp failedCreation_end
    simp only [Prod.mk.injEq] at seen
    exact ⟨w, ran, seen.2.1, seen.2.2.2⟩

/-- Here the game is created. -/
def createdGame : List Label := failedCreation ++ answers 1 2 2

theorem createdGame_keeps :
    System.EveryStep (matchmaking defaultMatchmakingConfig) Kept .empty createdGame := by
  have ran : ((matchmaking defaultMatchmakingConfig).run .empty createdGame).isSome := by
    decide +kernel
  obtain ⟨w, ran⟩ := Option.isSome_iff_exists.mp ran
  exact (waiting_kept_iff defaultMatchmakingConfig createdGame w ran).mpr (by decide +kernel)

end Farzin.Matchmaking
