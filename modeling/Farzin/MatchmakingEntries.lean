import Farzin.MatchmakingEffects

set_option autoImplicit false

/- A queue entry is in one place at a time, so it is played at most once. -/
namespace Farzin.Matchmaking

def Event.creates (entry : Nat) : Event → Bool
  | .created game => decide (game.whiteEntry = entry ∨ game.blackEntry = entry)
  | _ => false

/-- A queue entry leads to at most one game. -/
def PlayedOnce (history : List Event) : Prop :=
  ∀ entry, history.countP (Event.creates entry) ≤ 1

/-- Where a queue entry is: with its `join`, in a queue, taken out by a request, or in a game. -/
inductive Home where
  | joining
  | queued (pool : PoolId) (playerId : Nat)
  | claimed (call : Nat)
  | played

/-- Every entry is in one place. -/
structure Homes (w : World) (home : Nat → Home) : Prop where
  numbered : ∀ call stage, w.calls call = some stage → call < w.number
  joining : ∀ call stage, w.calls call = some stage → stage.joining = true → home call = .joining
  fresh : ∀ call, w.number ≤ call → home call = .joining
  queued : ∀ pool, ∀ m ∈ w.redis.queue pool, home m.entry = .queued pool m.playerId
  claimed : ∀ call game caller, w.calls call = some (.creating game caller) →
    home game.whiteEntry = .claimed call ∧ home game.blackEntry = .claimed call
  played : ∀ game, .created game ∈ w.history →
    home game.whiteEntry = .played ∧ home game.blackEntry = .played
  once : PlayedOnce w.history

/-- Some entries move to a new place. -/
def relocate (home : Nat → Home) (entries : List Nat) (target : Home) (entry : Nat) : Home :=
  if entry ∈ entries then target else home entry

theorem relocate_moved {home : Nat → Home} {entries : List Nat} {target : Home} {entry : Nat}
    (moved : entry ∈ entries) : relocate home entries target entry = target := if_pos moved

theorem relocate_other {home : Nat → Home} {entries : List Nat} {target found : Home}
    {entry : Nat} (there : home entry = found) (elsewhere : ∀ e ∈ entries, home e ≠ found) :
    relocate home entries target entry = found := by
  rw [relocate, if_neg fun moved => elsewhere entry moved there]
  exact there

theorem quiet_creates {event : Event} (quiet : event.quiet = true) (entry : Nat) :
    event.creates entry = false := by
  cases event with
  | created => cases quiet
  | _ => rfl

theorem PlayedOnce.quiet {history events : List Event} (once : PlayedOnce history)
    (quiet : ∀ event ∈ events, event.quiet = true) : PlayedOnce (history ++ events) := by
  intro entry
  have none : events.countP (Event.creates entry) = 0 := by
    rw [List.countP_eq_zero]
    intro event inside
    rw [quiet_creates (quiet event inside)]
    exact Bool.false_ne_true
  rw [List.countP_append, none]
  exact once entry

namespace Homes

variable {w : World} {home : Nat → Home} {call : Nat}

theorem start (homes : Homes w home) {stage : Stage}
    (first : stage.plain = true ∨ stage.early = true) : Homes (w.start stage) home where
  numbered c next here := by
    change c < w.number + 1
    rcases update_calls here with ⟨rfl, -⟩ | ⟨-, old⟩
    · exact Nat.lt_succ_self _
    · exact Nat.lt_succ_of_lt (homes.numbered c next old)
  joining c next here joins := by
    rcases update_calls here with ⟨rfl, eq⟩ | ⟨-, old⟩
    · exact homes.fresh _ (Nat.le_refl _)
    · exact homes.joining c next old joins
  fresh c later := homes.fresh c (Nat.le_of_succ_le later)
  queued := homes.queued
  claimed c game caller here := by
    rcases update_calls here with ⟨rfl, eq⟩ | ⟨-, old⟩
    · cases eq
      rcases first with impossible | impossible
      · cases impossible
      · cases impossible
    · exact homes.claimed c game caller old
  played := homes.played
  once := homes.once

theorem stop (homes : Homes w home) : Homes (w.stop call) home where
  numbered c next here := by
    rcases update_calls here with ⟨-, eq⟩ | ⟨-, old⟩
    · cases eq
    · exact homes.numbered c next old
  joining c next here joins := by
    rcases update_calls here with ⟨-, eq⟩ | ⟨-, old⟩
    · cases eq
    · exact homes.joining c next old joins
  fresh := homes.fresh
  queued := homes.queued
  claimed c game caller here := by
    rcases update_calls here with ⟨-, eq⟩ | ⟨-, old⟩
    · cases eq
    · exact homes.claimed c game caller old
  played := homes.played
  once := homes.once

theorem shrink (homes : Homes w home) {redis : Redis}
    (queues : ∀ pool, ∀ m ∈ redis.queue pool, m ∈ w.redis.queue pool) :
    Homes { w with redis := redis } home where
  numbered := homes.numbered
  joining := homes.joining
  fresh := homes.fresh
  queued pool m inside := homes.queued pool m (queues pool m inside)
  claimed := homes.claimed
  played := homes.played
  once := homes.once

/-- A request that goes on keeps its number. -/
theorem settle_numbered (homes : Homes w home) {stage : Stage} (served : Served)
    (here : w.calls call = some stage) (c : Nat) (next : Stage)
    (now : (w.settle call served).calls c = some next) : c < w.number := by
  rcases update_calls now with ⟨rfl, -⟩ | ⟨-, old⟩
  · exact homes.numbered c stage here
  · exact homes.numbered c next old

theorem quiet (homes : Homes w home) {stage : Stage} {served : Served}
    (here : w.calls call = some stage) (queues : served.redis.queue = w.redis.queue)
    (events : ∀ event ∈ served.events, event.quiet = true)
    (after : ∀ next ∈ served.stage,
      next.plain = true ∨ (stage.joining = true ∧ next.joining = true)) :
    Homes (w.settle call served) home where
  numbered := homes.settle_numbered served here
  joining c next now joins := by
    rcases update_calls now with ⟨rfl, eq⟩ | ⟨-, old⟩
    · rcases after next eq with plain | ⟨before, -⟩
      · rw [plain_not_joining plain] at joins
        cases joins
      · exact homes.joining c stage here before
    · exact homes.joining c next old joins
  fresh := homes.fresh
  queued pool m inside := by
    change m ∈ served.redis.queue pool at inside
    rw [queues] at inside
    exact homes.queued pool m inside
  claimed c game caller now := by
    rcases update_calls now with ⟨-, eq⟩ | ⟨-, old⟩
    · rcases after _ eq with impossible | ⟨-, impossible⟩
      · cases impossible
      · cases impossible
    · exact homes.claimed c game caller old
  played game inside := homes.played game (created_quiet events inside)
  once := homes.once.quiet events

theorem add (homes : Homes w home) {pool : PoolId} {playerId : Nat} {info : QueueMeta}
    {next : Stage} (here : w.calls call = some (.joinAdd pool playerId info))
    (plain : next.plain = true) :
    Homes (w.settle call ⟨w.redis.enqueue pool ⟨playerId, info.r, call⟩ info, [], some next⟩)
      (relocate home [call] (.queued pool playerId)) := by
  have mine : home call = .joining := homes.joining call _ here rfl
  have elsewhere : ∀ found : Home, found ≠ .joining → ∀ e ∈ [call], home e ≠ found := by
    intro found other e only eq
    rw [List.mem_singleton] at only
    rw [only, mine] at eq
    exact other eq.symm
  have unmoved : ∀ {c : Nat}, c ≠ call → relocate home [call] (.queued pool playerId) c = home c :=
    fun other => if_neg (by simpa using other)
  constructor
  case numbered => exact homes.settle_numbered _ here
  case joining =>
    intro c stage now joins
    rcases update_calls now with ⟨-, eq⟩ | ⟨other, old⟩
    · cases eq
      rw [plain_not_joining plain] at joins
      cases joins
    · rw [unmoved other]
      exact homes.joining c stage old joins
  case fresh =>
    intro c later
    have before := homes.numbered call _ here
    have other : c ≠ call := by
      change w.number ≤ c at later
      omega
    rw [unmoved other]
    exact homes.fresh c later
  case queued =>
    intro other m inside
    rcases mem_enqueue inside with ⟨rfl, rfl⟩ | old
    · exact relocate_moved (List.mem_singleton_self call)
    · exact relocate_other (homes.queued other m old) (elsewhere _ nofun)
  case claimed =>
    intro c game caller now
    rcases update_calls now with ⟨-, eq⟩ | ⟨-, old⟩
    · cases eq
      cases plain
    · obtain ⟨white, black⟩ := homes.claimed c game caller old
      exact ⟨relocate_other white (elsewhere _ nofun), relocate_other black (elsewhere _ nofun)⟩
  case played =>
    intro game inside
    obtain ⟨white, black⟩ := homes.played game (created_quiet (by simp) inside)
    exact ⟨relocate_other white (elsewhere _ nofun), relocate_other black (elsewhere _ nofun)⟩
  case once => exact homes.once.quiet (by simp)

theorem remove (homes : Homes w home) {stage : Stage} {playerId : Nat} {pool : PoolId}
    (here : w.calls call = some stage) :
    Homes (w.settle call ⟨w.redis.dequeue pool playerId, [.left call playerId], none⟩) home where
  numbered := homes.settle_numbered _ here
  joining c next now joins := by
    rcases update_calls now with ⟨-, eq⟩ | ⟨-, old⟩
    · cases eq
    · exact homes.joining c next old joins
  fresh := homes.fresh
  queued other m inside := homes.queued other m (mem_dequeue inside).1
  claimed c game caller now := by
    rcases update_calls now with ⟨-, eq⟩ | ⟨-, old⟩
    · cases eq
    · exact homes.claimed c game caller old
  played game inside := by
    rcases List.mem_append.mp inside with old | new
    · exact homes.played game old
    · simp at new
  once := by
    intro entry
    change (w.history ++ [Event.left call playerId]).countP _ ≤ 1
    rw [List.countP_append]
    exact homes.once entry

/-- Entries that are in a queue or with a request move on, and the request with them. -/
theorem relocated (homes : Homes w home) (served : Served) {entries : List Nat} (target : Home)
    (placed : ∀ e ∈ entries, home e ≠ .joining)
    (after : ∀ next ∈ served.stage, next.joining = false) :
    (∀ c next, (w.settle call served).calls c = some next → next.joining = true →
      relocate home entries target c = .joining) ∧
    (∀ c, (w.settle call served).number ≤ c → relocate home entries target c = .joining) := by
  constructor
  · intro c next now joins
    rcases update_calls now with ⟨-, eq⟩ | ⟨-, old⟩
    · rw [after next eq] at joins
      cases joins
    · exact relocate_other (homes.joining c next old joins) placed
  · intro c later
    exact relocate_other (homes.fresh c later) placed

theorem pair (homes : Homes w home) {attempt : Attempt} {caller : Caller} {a b : Member}
    (here : w.calls call = some (.pairing attempt caller))
    (first : w.redis.zscore attempt.pool attempt.aPlayerId = some a)
    (second : w.redis.zscore attempt.pool attempt.bPlayerId = some b) :
    Homes (w.settle call
      ⟨(w.redis.dequeue attempt.pool attempt.aPlayerId).dequeue attempt.pool attempt.bPlayerId, [],
        some (.creating (attempt.game a b) caller)⟩)
      (relocate home [a.entry, b.entry] (.claimed call)) := by
  obtain ⟨insideA, playerA⟩ := mem_zscore first
  obtain ⟨insideB, playerB⟩ := mem_zscore second
  have homeA := homes.queued _ a insideA
  have homeB := homes.queued _ b insideB
  have elsewhere : ∀ found : Home, (∀ playerId, found ≠ .queued attempt.pool playerId) →
      ∀ e ∈ [a.entry, b.entry], home e ≠ found := by
    intro found other e moved eq
    simp only [List.mem_cons, List.not_mem_nil, or_false] at moved
    rcases moved with rfl | rfl
    · exact other _ (eq.symm.trans homeA)
    · exact other _ (eq.symm.trans homeB)
  obtain ⟨joining, fresh⟩ := homes.relocated
    ⟨(w.redis.dequeue attempt.pool attempt.aPlayerId).dequeue attempt.pool attempt.bPlayerId, [],
      some (.creating (attempt.game a b) caller)⟩
    (.claimed call) (elsewhere .joining nofun) (by rintro next ⟨⟩; rfl)
  constructor
  case numbered => exact homes.settle_numbered _ here
  case joining => exact joining
  case fresh => exact fresh
  case queued =>
    intro other m inside
    obtain ⟨between, notB⟩ := mem_dequeue inside
    obtain ⟨old, notA⟩ := mem_dequeue between
    have there := homes.queued other m old
    apply relocate_other there
    intro e moved eq
    simp only [List.mem_cons, List.not_mem_nil, or_false] at moved
    rcases moved with rfl | rfl
    · obtain ⟨pools, players⟩ := Home.queued.inj (homeA.symm.trans eq)
      exact notA pools.symm (players.symm.trans playerA)
    · obtain ⟨pools, players⟩ := Home.queued.inj (homeB.symm.trans eq)
      exact notB pools.symm (players.symm.trans playerB)
  case claimed =>
    intro c game caller now
    rcases update_calls now with ⟨rfl, eq⟩ | ⟨-, old⟩
    · cases eq
      unfold Attempt.game
      split
      · exact ⟨relocate_moved (by simp), relocate_moved (by simp)⟩
      · exact ⟨relocate_moved (by simp), relocate_moved (by simp)⟩
    · obtain ⟨white, black⟩ := homes.claimed c game caller old
      exact ⟨relocate_other white (elsewhere _ nofun), relocate_other black (elsewhere _ nofun)⟩
  case played =>
    intro game inside
    obtain ⟨white, black⟩ := homes.played game (created_quiet (by simp) inside)
    exact ⟨relocate_other white (elsewhere _ nofun), relocate_other black (elsewhere _ nofun)⟩
  case once => exact homes.once.quiet (by simp)

theorem create (homes : Homes w home) {game : MatchedGame} {caller : Caller} {gameId : Nat}
    (here : w.calls call = some (.creating game caller)) :
    Homes (w.settle call ⟨w.redis, [.created game], some (.starting game gameId caller)⟩)
      (relocate home [game.whiteEntry, game.blackEntry] .played) := by
  obtain ⟨homeWhite, homeBlack⟩ := homes.claimed call game caller here
  have elsewhere : ∀ found : Home, found ≠ .claimed call →
      ∀ e ∈ [game.whiteEntry, game.blackEntry], home e ≠ found := by
    intro found other e moved eq
    simp only [List.mem_cons, List.not_mem_nil, or_false] at moved
    rcases moved with rfl | rfl
    · exact other (eq.symm.trans homeWhite)
    · exact other (eq.symm.trans homeBlack)
  obtain ⟨joining, fresh⟩ := homes.relocated
    ⟨w.redis, [.created game], some (.starting game gameId caller)⟩
    .played (elsewhere .joining nofun) (by rintro next ⟨⟩; rfl)
  constructor
  case numbered => exact homes.settle_numbered _ here
  case joining => exact joining
  case fresh => exact fresh
  case queued =>
    intro other m inside
    exact relocate_other (homes.queued other m inside) (elsewhere _ nofun)
  case claimed =>
    intro c other caller now
    rcases update_calls now with ⟨-, eq⟩ | ⟨apart, old⟩
    · cases eq
    · obtain ⟨white, black⟩ := homes.claimed c other caller old
      have distinct : Home.claimed c ≠ .claimed call := by
        intro eq
        cases eq
        exact apart rfl
      exact ⟨relocate_other white (elsewhere _ distinct),
        relocate_other black (elsewhere _ distinct)⟩
  case played =>
    intro other inside
    rcases List.mem_append.mp inside with old | new
    · obtain ⟨white, black⟩ := homes.played other old
      exact ⟨relocate_other white (elsewhere _ nofun), relocate_other black (elsewhere _ nofun)⟩
    · simp only [List.mem_singleton, Event.created.injEq] at new
      subst new
      exact ⟨relocate_moved (by simp), relocate_moved (by simp)⟩
  case once =>
    intro entry
    change (w.history ++ [Event.created game]).countP _ ≤ 1
    rw [List.countP_append, List.countP_singleton]
    split
    case isTrue uses =>
      -- An entry that is still with a request is in no game of the history.
      have before : w.history.countP (Event.creates entry) = 0 := by
        rw [List.countP_eq_zero]
        intro event inside creates
        cases event with
        | created other =>
            obtain ⟨white, black⟩ := homes.played other inside
            simp only [Event.creates, decide_eq_true_eq] at creates uses
            have atWhite : home entry = .played := by
              rcases creates with rfl | rfl
              · exact white
              · exact black
            have atCall : home entry = .claimed call := by
              rcases uses with rfl | rfl
              · exact homeWhite
              · exact homeBlack
            rw [atWhite] at atCall
            cases atCall
        | _ => cases creates
      omega
    case isFalse =>
      exact homes.once entry

/-- Whatever happens, every entry stays in one place. -/
theorem move (homes : Homes w home) {cfg : MatchmakingConfig} {label : Label} {v : World}
    (moved : Move cfg w label v) : ∃ after, Homes v after := by
  cases moved with
  | start label stage first => exact ⟨home, homes.start first⟩
  | await call reply stage served here effect =>
      cases effect with
      | quiet _ _ queues _ events after =>
          refine ⟨home, homes.quiet here queues events fun next eq => ?_⟩
          exact (after next eq).imp_right fun both =>
            ⟨early_joining both.1, early_joining both.2⟩
      | mark =>
          refine ⟨home, homes.quiet here rfl (by simp) fun next eq => ?_⟩
          cases eq
          exact Or.inr ⟨rfl, rfl⟩
      | add => exact ⟨_, homes.add here rfl⟩
      | remove => exact ⟨home, homes.remove here⟩
      | pair attempt caller a b first second => exact ⟨_, homes.pair here first second⟩
      | create => exact ⟨_, homes.create here⟩
  | stop call => exact ⟨home, homes.stop⟩
  | unmark playerId => exact ⟨home, homes.shrink fun pool m inside => inside⟩
  | shrink label redis queues _ => exact ⟨home, homes.shrink queues⟩

end Homes

theorem empty_homes : Homes .empty fun _ => .joining where
  numbered _ _ here := by cases here
  joining _ _ here := by cases here
  fresh _ _ := rfl
  queued _ _ inside := by cases inside
  claimed _ _ _ here := by cases here
  played _ inside := by cases inside
  once _ := Nat.zero_le 1

theorem reachable_homes {cfg : MatchmakingConfig} {w : World}
    (reached : (matchmaking cfg).Reachable w) : ∃ home, Homes w home := by
  apply reached.invariant fun w => ∃ home, Homes w home
  · rintro w rfl
    exact ⟨_, empty_homes⟩
  · rintro w label v ⟨home, homes⟩ _ taken
    exact homes.move (step_move taken)

end Farzin.Matchmaking
