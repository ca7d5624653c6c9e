import Farzin.EventLoop
import Farzin.PlayClock
import Farzin.PlayPresence
import Mathlib.Data.List.AList

set_option autoImplicit false

/- The timers of running games (`play/game-timers.ts`) and what the gateway does with them
(`play/play.gateway.ts`). A callback asks the service and goes on when the answer is there; in
between anything else may happen. -/
namespace Farzin.Play

open Transition EventLoop

structure ClockPayload where
  whiteMs : Int
  blackMs : Int
  running : Option ClockSide
  deriving DecidableEq, Repr

def FLAG_EPSILON_MS : Int := 100

def CLOCK_TICK_INTERVAL_MS : Int := 5000

def flagDelayMs (clock : ClockPayload) : Option Int :=
  match clock.running with
  | none => none
  | some side =>
      let remainingMs := if side = .w then clock.whiteMs else clock.blackMs
      some (max 0 remainingMs + FLAG_EPSILON_MS)

/-- The callbacks that the gateway hands to its timers. -/
inductive TimerCallback where
  | onFlagTimer (gameId : String)
  | onClockTick (gameId : String)
  | onGraceExpired (gameId : String) (side : ClockSide)
  deriving DecidableEq, Repr

def TimerCallback.gameId : TimerCallback → String
  | .onFlagTimer gameId | .onClockTick gameId | .onGraceExpired gameId _ => gameId

def ClockSide.text : ClockSide → String
  | .w => "w"
  | .b => "b"

def graceKey (gameId : String) (side : ClockSide) : String :=
  gameId ++ ":" ++ side.text

/-- Neither a colon in the game's id nor the side can make two keys meet. -/
theorem graceKey_inj {first second : String} {one two : ClockSide} :
    graceKey first one = graceKey second two ↔ first = second ∧ one = two := by
  constructor
  · intro same
    have chars := congrArg String.toList same
    simp only [graceKey, String.toList_append] at chars
    have lengths : one.text.toList.length = two.text.toList.length := by
      cases one <;> cases two <;> rfl
    obtain ⟨before, sides⟩ := List.append_inj' chars lengths
    refine ⟨String.toList_inj.mp (List.append_inj' before rfl).1, ?_⟩
    cases one <;> cases two <;> first | rfl | exact absurd sides (by decide)
  · rintro ⟨rfl, rfl⟩
    rfl

/-- The order of the entries is not the source's; nothing reads it. -/
abbrev Handles := AList fun _ : String => Nat

structure GameTimers where
  loop : Timers TimerCallback
  flags : Handles
  ticks : Handles
  graces : Handles

namespace GameTimers

def handleOf (t : GameTimers) : TimerCallback → Option Nat
  | .onFlagTimer gameId => t.flags.lookup gameId
  | .onClockTick gameId => t.ticks.lookup gameId
  | .onGraceExpired gameId side => t.graces.lookup (graceKey gameId side)

/-- `set` of a map, or `delete` where there is no handle. -/
def put (handles : Handles) (key : String) : Option Nat → Handles
  | some handle => handles.insert key handle
  | none => handles.erase key

def writeHandle (t : GameTimers) (handle : Option Nat) : TimerCallback → GameTimers
  | .onFlagTimer gameId => { t with flags := put t.flags gameId handle }
  | .onClockTick gameId => { t with ticks := put t.ticks gameId handle }
  | .onGraceExpired gameId side => { t with graces := put t.graces (graceKey gameId side) handle }

def clearTimer (t : GameTimers) (callback : TimerCallback) : GameTimers :=
  match t.handleOf callback with
  | none => t
  | some handle => { t.writeHandle none callback with loop := t.loop.clear handle }

def setTimer (t : GameTimers) (callback : TimerCallback) (after : Int) (repeats : Bool) :
    GameTimers :=
  { t.writeHandle (some t.loop.next) callback with loop := t.loop.start callback after repeats }

def clearFlag (t : GameTimers) (gameId : String) : GameTimers :=
  t.clearTimer (.onFlagTimer gameId)

def scheduleFlag (t : GameTimers) (gameId : String) (delayMs : Int) : GameTimers :=
  (t.clearFlag gameId).setTimer (.onFlagTimer gameId) delayMs false

def startTick (t : GameTimers) (gameId : String) (intervalMs : Int) : GameTimers :=
  if (t.ticks.lookup gameId).isSome then t
  else t.setTimer (.onClockTick gameId) intervalMs true

def stopTick (t : GameTimers) (gameId : String) : GameTimers :=
  t.clearTimer (.onClockTick gameId)

/-- Whether a grace timer was registered, and the timers without it. One that has fired is still
registered. -/
def clearGrace (t : GameTimers) (gameId : String) (side : ClockSide) : Bool × GameTimers :=
  ((t.handleOf (.onGraceExpired gameId side)).isSome, t.clearTimer (.onGraceExpired gameId side))

def scheduleGrace (t : GameTimers) (gameId : String) (side : ClockSide) (delayMs : Int) :
    GameTimers :=
  (t.clearGrace gameId side).2.setTimer (.onGraceExpired gameId side) delayMs false

def clearGame (t : GameTimers) (gameId : String) : GameTimers :=
  ((((t.clearFlag gameId).stopTick gameId).clearGrace gameId .w).2.clearGrace gameId .b).2

def clearAll (loop : Timers TimerCallback) (handles : Handles) : Timers TimerCallback :=
  (handles.entries.map (·.2)).foldl Timers.clear loop

def onModuleDestroy (t : GameTimers) : GameTimers where
  loop := clearAll (clearAll (clearAll t.loop t.flags) t.ticks) t.graces
  flags := ∅
  ticks := ∅
  graces := ∅

@[simp] theorem writeHandle_loop (t : GameTimers) (handle : Option Nat)
    (callback : TimerCallback) : (t.writeHandle handle callback).loop = t.loop := by
  cases callback <;> rfl

theorem lookup_put (handles : Handles) (key other : String) (handle : Option Nat) :
    (put handles key handle).lookup other =
      if other = key then handle else handles.lookup other := by
  cases handle with
  | some handle =>
      rw [put]
      split
      case isTrue same => rw [same, AList.lookup_insert]
      case isFalse apart => rw [AList.lookup_insert_ne apart]
  | none =>
      rw [put]
      split
      case isTrue same => rw [same, AList.lookup_erase]
      case isFalse apart => rw [AList.lookup_erase_ne apart]

/-- Writing the handle of a callback leaves those of all others. -/
theorem writeHandle_handleOf (t : GameTimers) (handle : Option Nat)
    (callback other : TimerCallback) :
    (t.writeHandle handle callback).handleOf other =
      if other = callback then handle else t.handleOf other := by
  cases callback <;> cases other <;>
    simp [writeHandle, handleOf, lookup_put, graceKey_inj]

theorem handleOf_loop (t : GameTimers) (loop : Timers TimerCallback) (callback : TimerCallback) :
    GameTimers.handleOf { t with loop := loop } callback = t.handleOf callback := by
  cases callback <;> rfl

/-- Each pending timer is the registered one, and a registered tick is running. -/
structure Sound (t : GameTimers) : Prop where
  registered : t.loop.Registered t.handleOf
  ticking : ∀ gameId, (t.ticks.lookup gameId).isSome → t.loop.Pending (.onClockTick gameId)
  periodic : ∀ timer ∈ t.loop.pending, ∀ gameId, timer.callback = .onClockTick gameId →
    timer.period ≠ none

theorem clearTimer_handleOf (t : GameTimers) (callback other : TimerCallback) :
    (t.clearTimer callback).handleOf other =
      if other = callback then none else t.handleOf other := by
  unfold clearTimer
  split
  case h_1 absent =>
    split
    case isTrue same => rw [same, absent]
    case isFalse => rfl
  case h_2 => rw [handleOf_loop, writeHandle_handleOf]

theorem clearFlag_now (t : GameTimers) (gameId : String) :
    (t.clearFlag gameId).loop.now = t.loop.now := by
  unfold clearFlag clearTimer
  split <;> rfl

theorem setTimer_handleOf (t : GameTimers) (callback other : TimerCallback) (after : Int)
    (repeats : Bool) :
    (t.setTimer callback after repeats).handleOf other =
      if other = callback then some t.loop.next else t.handleOf other := by
  rw [setTimer, handleOf_loop, writeHandle_handleOf]

/-- What is left pending, whether or not the callback had a timer. -/
theorem Sound.clearTimer_pending {t : GameTimers} (sound : t.Sound) {callback : TimerCallback}
    {timer : Timer TimerCallback} :
    timer ∈ (t.clearTimer callback).loop.pending ↔
      timer ∈ t.loop.pending ∧ timer.callback ≠ callback := by
  unfold clearTimer
  split
  case h_1 absent =>
    refine ⟨fun inside => ⟨inside, fun same => ?_⟩, And.left⟩
    exact sound.registered.unlisted absent ⟨timer, inside, same⟩
  case h_2 handle found =>
    rw [Timers.mem_clear]
    refine and_congr_right fun inside => not_congr ?_
    have listed := sound.registered.listed timer inside
    constructor
    · intro same
      exact sound.registered.apart _ _ handle (same ▸ listed) found
    · intro same
      rw [same, found] at listed
      exact (Option.some.inj listed).symm

theorem Sound.clearTimer {t : GameTimers} (sound : t.Sound) (callback : TimerCallback) :
    (t.clearTimer callback).Sound where
  registered := by
    cases found : t.handleOf callback with
    | none =>
        simp only [GameTimers.clearTimer, found]
        exact sound.registered
    | some handle =>
        have cleared : (t.clearTimer callback).loop = t.loop.clear handle := by
          simp only [GameTimers.clearTimer, found]
        rw [cleared]
        exact sound.registered.clear found (by rw [clearTimer_handleOf, if_pos rfl])
          fun other apart => by rw [clearTimer_handleOf, if_neg apart]
  ticking gameId set := by
    have known := clearTimer_handleOf t callback (.onClockTick gameId)
    change (t.clearTimer callback).ticks.lookup gameId = _ at known
    rw [known] at set
    split at set
    case isTrue => cases set
    case isFalse apart =>
      obtain ⟨timer, inside, same⟩ := sound.ticking gameId set
      exact ⟨timer, sound.clearTimer_pending.mpr ⟨inside, same ▸ apart⟩, same⟩
  periodic timer inside :=
    sound.periodic timer (sound.clearTimer_pending.mp inside).1

theorem Sound.setTimer {t : GameTimers} (sound : t.Sound) {callback : TimerCallback}
    (absent : t.handleOf callback = none) (after : Int) {repeats : Bool}
    (ticks : ∀ gameId, callback = .onClockTick gameId → repeats = true) :
    (t.setTimer callback after repeats).Sound where
  registered :=
    sound.registered.start absent (by rw [setTimer_handleOf, if_pos rfl])
      (fun other apart => by rw [setTimer_handleOf, if_neg apart]) after repeats
  ticking gameId set := by
    have known := setTimer_handleOf t callback (.onClockTick gameId) after repeats
    change (t.setTimer callback after repeats).ticks.lookup gameId = _ at known
    rw [known] at set
    refine Timers.pending_start.mpr ?_
    split at set
    case isTrue same => exact .inr same
    case isFalse => exact .inl (sound.ticking gameId set)
  periodic timer inside gameId named := by
    rcases Timers.mem_start.mp inside with before | rfl
    · exact sound.periodic timer before gameId named
    · simp [ticks gameId named]

theorem Sound.scheduleFlag {t : GameTimers} (sound : t.Sound) (gameId : String) (delayMs : Int) :
    (t.scheduleFlag gameId delayMs).Sound :=
  (sound.clearTimer _).setTimer (by rw [clearTimer_handleOf, if_pos rfl]) delayMs nofun

theorem Sound.scheduleGrace {t : GameTimers} (sound : t.Sound) (gameId : String)
    (side : ClockSide) (delayMs : Int) : (t.scheduleGrace gameId side delayMs).Sound :=
  (sound.clearTimer _).setTimer (by rw [clearTimer_handleOf, if_pos rfl]) delayMs nofun

theorem Sound.startTick {t : GameTimers} (sound : t.Sound) (gameId : String)
    (intervalMs : Int) : (t.startTick gameId intervalMs).Sound := by
  unfold GameTimers.startTick
  split
  case isTrue => exact sound
  case isFalse absent =>
    have none' : t.handleOf (.onClockTick gameId) = none :=
      Option.not_isSome_iff_eq_none.mp absent
    exact sound.setTimer none' intervalMs fun _ _ => rfl

theorem Sound.clearGame {t : GameTimers} (sound : t.Sound) (gameId : String) :
    (t.clearGame gameId).Sound :=
  (((sound.clearTimer _).clearTimer _).clearTimer _).clearTimer _

theorem Sound.clearGame_pending {t : GameTimers} (sound : t.Sound) {gameId : String}
    {timer : Timer TimerCallback} :
    timer ∈ (t.clearGame gameId).loop.pending ↔
      timer ∈ t.loop.pending ∧ timer.callback.gameId ≠ gameId := by
  have flag := sound.clearTimer (.onFlagTimer gameId)
  have tick := flag.clearTimer (.onClockTick gameId)
  have white := tick.clearTimer (.onGraceExpired gameId .w)
  change timer ∈ (((((t.clearTimer _).clearTimer _).clearTimer _).clearTimer _)).loop.pending ↔ _
  rw [white.clearTimer_pending, tick.clearTimer_pending, flag.clearTimer_pending,
    sound.clearTimer_pending]
  constructor
  · rintro ⟨⟨⟨⟨inside, noFlag⟩, noTick⟩, noWhite⟩, noBlack⟩
    refine ⟨inside, ?_⟩
    intro same
    cases called : timer.callback with
    | onFlagTimer game => exact noFlag (by simp_all [TimerCallback.gameId])
    | onClockTick game => exact noTick (by simp_all [TimerCallback.gameId])
    | onGraceExpired game side =>
        cases side with
        | w => exact noWhite (by simp_all [TimerCallback.gameId])
        | b => exact noBlack (by simp_all [TimerCallback.gameId])
  · rintro ⟨inside, other⟩
    refine ⟨⟨⟨⟨inside, ?_⟩, ?_⟩, ?_⟩, ?_⟩ <;>
      exact fun same => other (by rw [same]; rfl)

theorem mem_clearAll {loop : Timers TimerCallback} {handles : Handles}
    {timer : Timer TimerCallback} :
    timer ∈ (clearAll loop handles).pending ↔
      timer ∈ loop.pending ∧ ∀ key, handles.lookup key ≠ some timer.handle := by
  rw [clearAll, Timers.mem_clears]
  refine and_congr_right fun _ => ?_
  constructor
  · intro absent key found
    exact absent (List.mem_map.mpr ⟨⟨key, timer.handle⟩, AList.mem_lookup_iff.mp found, rfl⟩)
  · intro absent listed
    obtain ⟨⟨key, handle⟩, inside, rfl⟩ := List.mem_map.mp listed
    exact absent key (AList.mem_lookup_iff.mpr inside)

theorem Sound.onModuleDestroy_pending {t : GameTimers} (sound : t.Sound) :
    t.onModuleDestroy.loop.pending = [] := by
  refine List.eq_nil_iff_forall_not_mem.mpr fun timer inside => ?_
  obtain ⟨rest, noGrace⟩ := mem_clearAll.mp inside
  obtain ⟨rest, noTick⟩ := mem_clearAll.mp rest
  obtain ⟨inside, noFlag⟩ := mem_clearAll.mp rest
  have listed := sound.registered.listed timer inside
  cases called : timer.callback <;> rw [called] at listed
  case onFlagTimer gameId => exact noFlag gameId listed
  case onClockTick gameId => exact noTick gameId listed
  case onGraceExpired gameId side => exact noGrace (graceKey gameId side) listed

theorem Sound.onModuleDestroy {t : GameTimers} (sound : t.Sound) : t.onModuleDestroy.Sound where
  registered := by
    have none' : ∀ callback, t.onModuleDestroy.handleOf callback = none := by
      intro callback
      cases callback <;> exact AList.lookup_empty _
    constructor
    · simp [sound.onModuleDestroy_pending]
    · simp [sound.onModuleDestroy_pending]
    · simp [none']
    · simp [none']
  ticking gameId set := by
    rw [show t.onModuleDestroy.ticks.lookup gameId = none from AList.lookup_empty _] at set
    cases set
  periodic := by simp [sound.onModuleDestroy_pending]

theorem Sound.fire {t : GameTimers} (sound : t.Sound) {handle : Nat} {callback : TimerCallback}
    {loop : Timers TimerCallback} (fired : t.loop.fire handle = some (callback, loop)) :
    GameTimers.Sound { t with loop := loop } where
  registered := by
    rw [show GameTimers.handleOf { t with loop := loop } = t.handleOf from
      funext fun callback => handleOf_loop t loop callback]
    exact sound.registered.fire fired
  ticking gameId set := by
    have waiting := sound.ticking gameId set
    obtain ⟨timer, inside, named, _, _, ⟨oneShot, rfl⟩ | ⟨period, _, rfl⟩⟩ :=
      Timers.fire_cases fired
    · obtain ⟨tick, ticking, called⟩ := waiting
      refine ⟨tick, Timers.mem_clear.mpr ⟨ticking, fun same => ?_⟩, called⟩
      have one : tick = timer := List.inj_on_of_nodup_map sound.registered.handles ticking inside
        (same.trans named.symm)
      exact sound.periodic tick ticking gameId called (one ▸ oneShot)
    · exact Timers.pending_again.mpr waiting
  periodic timer inside gameId called := by
    obtain ⟨_, _, _, _, _, ⟨_, rfl⟩ | ⟨period, _, rfl⟩⟩ := Timers.fire_cases fired
    · exact sound.periodic timer (Timers.mem_clear.mp inside).1 gameId called
    · obtain ⟨before, was, _, same, periods⟩ := Timers.mem_again inside
      rw [periods]
      exact sound.periodic before was gameId (same ▸ called)

end GameTimers

inductive FlagCheckResult where
  | ended
  | wait (remainingMs : Int)
  | stop
  deriving DecidableEq, Repr

/-- `running` are the callbacks that have fired and still wait for the service. -/
structure GatewayTimers where
  timers : GameTimers
  running : List TimerCallback

inductive GatewayEvent where
  /-- A move is accepted and the game goes on. -/
  | moveMade (gameId : String) (clock : ClockPayload)
  /-- A handler ends the game, or the sweeper tells of an end. -/
  | announceEnd (gameId : String)
  | registerPlayerSocket (gameId : String) (side : ClockSide)
  | onPlayerSocketGone (gameId : String) (side : ClockSide) (category : TimeCategoryValue)
  | fires (handle : Nat)
  | flagChecked (gameId : String) (res : FlagCheckResult)
  /-- The service has no live clock for a game that is not active. -/
  | clockRead (gameId : String) (clock : Option ClockPayload)
  | graceDecided (gameId : String) (side : ClockSide) (ended : Bool)
  /-- The service throws, and the gateway only logs it. -/
  | failed (callback : TimerCallback)
  | passed (ms : Nat)
  | onModuleDestroy
  deriving DecidableEq, Repr

namespace GatewayTimers

def armClockTimers (t : GameTimers) (gameId : String) (clock : ClockPayload) : GameTimers :=
  let scheduled := match flagDelayMs clock with
    | none => t
    | some delay => t.scheduleFlag gameId delay
  scheduled.startTick gameId CLOCK_TICK_INTERVAL_MS

/-- A callback that waits for the service goes on with the answer. -/
def answer (s : GatewayTimers) (callback : TimerCallback) (timers : GameTimers) :
    Option GatewayTimers :=
  if callback ∈ s.running then some ⟨timers, s.running.erase callback⟩ else none

def onFlagTimer (t : GameTimers) (gameId : String) : FlagCheckResult → GameTimers
  | .ended | .stop => t.clearGame gameId
  | .wait remainingMs => t.scheduleFlag gameId (remainingMs + FLAG_EPSILON_MS)

def step (overrideMs : Option Nat) (s : GatewayTimers) : GatewayEvent → Option GatewayTimers
  | .moveMade gameId clock => some { s with timers := armClockTimers s.timers gameId clock }
  | .announceEnd gameId => some { s with timers := s.timers.clearGame gameId }
  | .registerPlayerSocket gameId side =>
      some { s with timers := (s.timers.clearGrace gameId side).2 }
  | .onPlayerSocketGone gameId side category =>
      some { s with timers := s.timers.scheduleGrace gameId side (graceMsFor category overrideMs) }
  | .fires handle =>
      (s.timers.loop.fire handle).map fun (callback, loop) =>
        ⟨{ s.timers with loop := loop }, s.running ++ [callback]⟩
  | .flagChecked gameId res => s.answer (.onFlagTimer gameId) (onFlagTimer s.timers gameId res)
  | .clockRead gameId clock =>
      s.answer (.onClockTick gameId) (if clock.isNone then s.timers.stopTick gameId else s.timers)
  | .graceDecided gameId side ended =>
      s.answer (.onGraceExpired gameId side)
        (if ended then s.timers.clearGame gameId else s.timers)
  | .failed callback => s.answer callback s.timers
  | .passed ms => some { s with timers := { s.timers with loop := s.timers.loop.passed ms } }
  | .onModuleDestroy => some { s with timers := s.timers.onModuleDestroy }

def start : GatewayTimers := ⟨⟨⟨0, 0, []⟩, ∅, ∅, ∅⟩, []⟩

end GatewayTimers

def gatewayTimers (overrideMs : Option Nat) : System GatewayTimers GatewayEvent where
  initial s := s = GatewayTimers.start
  step := GatewayTimers.step overrideMs

namespace GatewayEvent

/-- The event may start a timer of the game. -/
def Schedules (gameId : String) : GatewayEvent → Prop
  | .moveMade game _ | .onPlayerSocketGone game _ _ | .flagChecked game (.wait _) =>
      game = gameId
  | _ => False

/-- The event clears all timers of the game. -/
def Clears (gameId : String) : GatewayEvent → Prop
  | .announceEnd game | .flagChecked game .ended | .flagChecked game .stop
  | .graceDecided game _ true => game = gameId
  | .onModuleDestroy => True
  | _ => False

end GatewayEvent

namespace GatewayTimers

variable {overrideMs : Option Nat} {s t u : GatewayTimers} {event : GatewayEvent}

theorem answer_cases {callback : TimerCallback} {timers : GameTimers}
    (answered : s.answer callback timers = some t) :
    callback ∈ s.running ∧ t = ⟨timers, s.running.erase callback⟩ := by
  unfold answer at answered
  split at answered
  case isTrue waiting => exact ⟨waiting, (Option.some.inj answered).symm⟩
  case isFalse => cases answered

/-- What an event does to the timers, whatever waits for the service. -/
inductive Change (before : GameTimers) (event : GatewayEvent) : GameTimers → Prop where
  | armed (gameId : String) (clock : ClockPayload) (made : event = .moveMade gameId clock) :
      Change before event (armClockTimers before gameId clock)
  | rescheduled (gameId : String) (remainingMs : Int)
      (waits : event = .flagChecked gameId (.wait remainingMs)) :
      Change before event (before.scheduleFlag gameId (remainingMs + FLAG_EPSILON_MS))
  | grace (gameId : String) (side : ClockSide) (category : TimeCategoryValue) (delayMs : Int)
      (gone : event = .onPlayerSocketGone gameId side category) :
      Change before event (before.scheduleGrace gameId side delayMs)
  | cleared (gameId : String) (clears : event.Clears gameId) :
      Change before event (before.clearGame gameId)
  | stopped (callback : TimerCallback) (noFlag : ∀ gameId, callback ≠ .onFlagTimer gameId) :
      Change before event (before.clearTimer callback)
  | fired (handle : Nat) (callback : TimerCallback) (loop : Timers TimerCallback)
      (taken : before.loop.fire handle = some (callback, loop)) (named : event = .fires handle) :
      Change before event { before with loop := loop }
  | passed (ms : Nat) : Change before event { before with loop := before.loop.passed ms }
  | destroyed (all : event = .onModuleDestroy) : Change before event before.onModuleDestroy
  | same : Change before event before

theorem step_change (taken : s.step overrideMs event = some t) :
    Change s.timers event t.timers := by
  cases event with
  | moveMade gameId clock =>
      cases taken
      exact .armed gameId clock rfl
  | announceEnd gameId =>
      cases taken
      exact .cleared gameId rfl
  | registerPlayerSocket gameId side =>
      cases taken
      exact .stopped (.onGraceExpired gameId side) nofun
  | onPlayerSocketGone gameId side category =>
      cases taken
      exact .grace gameId side category _ rfl
  | fires handle =>
      obtain ⟨⟨callback, loop⟩, fired, rfl⟩ := Option.map_eq_some_iff.mp taken
      exact .fired handle callback loop fired rfl
  | flagChecked gameId res =>
      obtain ⟨_, rfl⟩ := answer_cases taken
      cases res with
      | ended => exact .cleared gameId rfl
      | wait remainingMs => exact .rescheduled gameId remainingMs rfl
      | stop => exact .cleared gameId rfl
  | clockRead gameId clock =>
      obtain ⟨_, rfl⟩ := answer_cases taken
      cases clock with
      | none => exact .stopped (.onClockTick gameId) nofun
      | some _ => exact .same
  | graceDecided gameId side ended =>
      obtain ⟨_, rfl⟩ := answer_cases taken
      cases ended with
      | false => exact .same
      | true => exact .cleared gameId rfl
  | failed callback =>
      obtain ⟨_, rfl⟩ := answer_cases taken
      exact .same
  | passed ms =>
      cases taken
      exact .passed ms
  | onModuleDestroy =>
      cases taken
      exact .destroyed rfl

theorem armClockTimers_sound {timers : GameTimers} (sound : timers.Sound) (gameId : String)
    (clock : ClockPayload) : (armClockTimers timers gameId clock).Sound := by
  unfold armClockTimers
  refine GameTimers.Sound.startTick ?_ gameId _
  split
  · exact sound
  · exact sound.scheduleFlag gameId _

theorem Change.sound {before after : GameTimers} (change : Change before event after)
    (sound : before.Sound) : after.Sound := by
  cases change with
  | armed gameId clock => exact armClockTimers_sound sound gameId clock
  | rescheduled gameId => exact sound.scheduleFlag gameId _
  | grace gameId side _ delayMs => exact sound.scheduleGrace gameId side delayMs
  | cleared gameId => exact sound.clearGame gameId
  | stopped callback => exact sound.clearTimer callback
  | fired _ _ _ taken => exact sound.fire taken
  | passed ms =>
      exact ⟨sound.registered.passed ms, sound.ticking, sound.periodic⟩
  | destroyed => exact sound.onModuleDestroy
  | same => exact sound

theorem start_sound : GatewayTimers.start.timers.Sound where
  registered := by
    have absent : ∀ callback, GatewayTimers.start.timers.handleOf callback = none := by
      intro callback
      cases callback <;> exact AList.lookup_empty _
    constructor
    · exact nofun
    · exact List.nodup_nil
    · simp [absent]
    · simp [absent]
  ticking gameId set := by
    rw [show start.timers.ticks.lookup gameId = none from AList.lookup_empty _] at set
    cases set
  periodic := nofun

theorem reachable_sound (reached : (gatewayTimers overrideMs).Reachable s) : s.timers.Sound :=
  reached.invariant (·.timers.Sound) (fun _ initial => initial ▸ start_sound)
    fun _ _ _ sound _ taken => (step_change taken).sound sound

/-- No timer of the game is pending. -/
def Quiet (timers : GameTimers) (gameId : String) : Prop :=
  ∀ timer ∈ timers.loop.pending, timer.callback.gameId ≠ gameId

theorem Quiet.setTimer {timers : GameTimers} {gameId : String} (quiet : Quiet timers gameId)
    (callback : TimerCallback) (other : callback.gameId ≠ gameId) (after : Int)
    (repeats : Bool) : Quiet (timers.setTimer callback after repeats) gameId := by
  intro timer inside
  rcases Timers.mem_start.mp inside with before | rfl
  · exact quiet timer before
  · exact other

theorem Quiet.clearTimer {timers : GameTimers} {gameId : String} (quiet : Quiet timers gameId)
    (sound : timers.Sound) (callback : TimerCallback) :
    Quiet (timers.clearTimer callback) gameId :=
  fun timer inside => quiet timer (sound.clearTimer_pending.mp inside).1

theorem Quiet.scheduleFlag {timers : GameTimers} {game gameId : String}
    (quiet : Quiet timers gameId) (sound : timers.Sound) (other : game ≠ gameId) (delayMs : Int) :
    Quiet (timers.scheduleFlag game delayMs) gameId :=
  Quiet.setTimer (quiet.clearTimer sound _) (.onFlagTimer game) other delayMs false

theorem Quiet.startTick {timers : GameTimers} {game gameId : String}
    (quiet : Quiet timers gameId) (other : game ≠ gameId) (intervalMs : Int) :
    Quiet (timers.startTick game intervalMs) gameId := by
  unfold GameTimers.startTick
  split
  · exact quiet
  · exact quiet.setTimer (.onClockTick game) other intervalMs true

/-- Only an event that schedules for the game starts a timer of it. -/
theorem Change.quiet {before after : GameTimers} (change : Change before event after)
    (sound : before.Sound) {gameId : String} (idle : ¬ event.Schedules gameId)
    (quiet : Quiet before gameId) : Quiet after gameId := by
  cases change with
  | armed game clock made =>
      subst made
      refine Quiet.startTick ?_ idle _
      split
      · exact quiet
      · exact quiet.scheduleFlag sound idle _
  | rescheduled game remainingMs waits =>
      subst waits
      exact quiet.scheduleFlag sound idle _
  | grace game side category delayMs gone =>
      subst gone
      exact Quiet.setTimer (quiet.clearTimer sound _) (.onGraceExpired game side) idle delayMs
        false
  | cleared game =>
      exact fun timer inside => quiet timer (sound.clearGame_pending.mp inside).1
  | stopped callback => exact quiet.clearTimer sound callback
  | fired handle callback loop taken =>
      intro timer inside
      obtain ⟨_, _, _, _, _, ⟨_, rfl⟩ | ⟨period, _, rfl⟩⟩ := Timers.fire_cases taken
      · exact quiet timer (Timers.mem_clear.mp inside).1
      · obtain ⟨earlier, was, _, same, _⟩ := Timers.mem_again inside
        exact same ▸ quiet earlier was
  | passed => exact quiet
  | destroyed =>
      intro timer inside
      rw [sound.onModuleDestroy_pending] at inside
      cases inside
  | same => exact quiet

theorem step_clears (sound : s.timers.Sound) {gameId : String} (clears : event.Clears gameId)
    (taken : s.step overrideMs event = some t) : Quiet t.timers gameId := by
  have cleared : Quiet (s.timers.clearGame gameId) gameId :=
    fun timer inside => (sound.clearGame_pending.mp inside).2
  cases event <;> try exact clears.elim
  case announceEnd game =>
    obtain rfl : game = gameId := clears
    cases taken
    exact cleared
  case flagChecked game res =>
    obtain ⟨_, rfl⟩ := answer_cases taken
    cases res with
    | ended =>
        obtain rfl : game = gameId := clears
        exact cleared
    | wait _ => exact clears.elim
    | stop =>
        obtain rfl : game = gameId := clears
        exact cleared
  case graceDecided game side ended =>
    obtain ⟨_, rfl⟩ := answer_cases taken
    cases ended with
    | false => exact clears.elim
    | true =>
        obtain rfl : game = gameId := clears
        exact cleared
  case onModuleDestroy =>
    cases taken
    intro timer inside
    rw [sound.onModuleDestroy_pending] at inside
    cases inside

/-- In every state that the gateway can reach there are no timers but the registered ones, at
most one for each purpose, and a registered tick is running. Once the timers of a game are
cleared, none of them is pending until one is scheduled for the game again, whatever happens to
other games and whatever the callbacks that are still running do. -/
theorem timers_registered (reached : (gatewayTimers overrideMs).Reachable s) :
    (s.timers.loop.pending.map (·.callback)).Nodup ∧
      (∀ timer ∈ s.timers.loop.pending, s.timers.handleOf timer.callback = some timer.handle) ∧
      (∀ gameId, (s.timers.ticks.lookup gameId).isSome ↔
        s.timers.loop.Pending (.onClockTick gameId)) ∧
      ∀ gameId event t u, event.Clears gameId → s.step overrideMs event = some t →
        (gatewayTimers overrideMs).Steps (fun _ event => ¬ event.Schedules gameId) t u →
        ∀ timer ∈ u.timers.loop.pending, timer.callback.gameId ≠ gameId := by
  have sound := reachable_sound reached
  refine ⟨sound.registered.once, sound.registered.listed, ?_, ?_⟩
  · refine fun gameId => ⟨sound.ticking gameId, ?_⟩
    rintro ⟨timer, inside, called⟩
    have listed := sound.registered.listed timer inside
    rw [called] at listed
    exact Option.isSome_iff_exists.mpr ⟨_, listed⟩
  · intro gameId event t u clears taken later
    refine (later.preserve (fun s => s.timers.Sound ∧ Quiet s.timers gameId) ?_ ?_).2
    · rintro s event t ⟨sound, quiet⟩ idle taken
      have change := step_change taken
      exact ⟨change.sound sound, change.quiet sound idle quiet⟩
    · exact ⟨(step_change taken).sound sound, step_clears sound clears taken⟩

/-- A blitz game after a move and the loss of White's connection. -/
theorem timers_registered_blitz :
    ∃ s, (gatewayTimers none).run GatewayTimers.start
        [.moveMade "g1" ⟨300000, 295000, some .b⟩, .onPlayerSocketGone "g1" .w .blitz] = some s ∧
      s.timers.loop.pending.map (·.callback) =
        [.onFlagTimer "g1", .onClockTick "g1", .onGraceExpired "g1" .w] ∧
      (s.timers.loop.pending.map (·.callback)).Nodup :=
  let events : List GatewayEvent :=
    [.moveMade "g1" ⟨300000, 295000, some .b⟩, .onPlayerSocketGone "g1" .w .blitz]
  have reached : (gatewayTimers none).Reachable _ :=
    System.run_reachable GatewayTimers.start _ events rfl rfl
  ⟨_, rfl, rfl, (timers_registered reached).1⟩

/-- The flag timer of the game is pending, or its check is under way. -/
def Watched (s : GatewayTimers) (gameId : String) : Prop :=
  s.timers.loop.Pending (.onFlagTimer gameId) ∨ .onFlagTimer gameId ∈ s.running

theorem clearTimer_keeps {timers : GameTimers} (sound : timers.Sound)
    {callback other : TimerCallback} (apart : other ≠ callback)
    (pending : timers.loop.Pending other) : (timers.clearTimer callback).loop.Pending other := by
  obtain ⟨timer, inside, rfl⟩ := pending
  exact ⟨timer, sound.clearTimer_pending.mpr ⟨inside, apart⟩, rfl⟩

theorem scheduleFlag_keeps {timers : GameTimers} (sound : timers.Sound) {game gameId : String}
    (delayMs : Int) (pending : timers.loop.Pending (.onFlagTimer gameId)) :
    (timers.scheduleFlag game delayMs).loop.Pending (.onFlagTimer gameId) := by
  refine Timers.pending_start.mpr ?_
  by_cases same : gameId = game
  · exact .inr (congrArg _ same)
  · exact .inl (clearTimer_keeps sound (fun eq => same (TimerCallback.onFlagTimer.inj eq)) pending)

theorem startTick_mem {timers : GameTimers} {game : String} {timer : Timer TimerCallback}
    (intervalMs : Int) (inside : timer ∈ timers.loop.pending) :
    timer ∈ (timers.startTick game intervalMs).loop.pending := by
  unfold GameTimers.startTick
  split
  · exact inside
  · exact Timers.mem_start.mpr (.inl inside)

/-- What keeps a pending flag timer, apart from its own firing. -/
theorem Change.flag {before after : GameTimers} (change : Change before event after)
    (sound : before.Sound) {gameId : String} (open' : ¬ event.Clears gameId)
    (pending : before.loop.Pending (.onFlagTimer gameId)) :
    after.loop.Pending (.onFlagTimer gameId) ∨ ∃ handle loop, event = .fires handle ∧
      before.loop.fire handle = some (.onFlagTimer gameId, loop) := by
  cases change with
  | armed game clock =>
      have scheduled : (match flagDelayMs clock with
          | none => before
          | some delay => before.scheduleFlag game delay).loop.Pending (.onFlagTimer gameId) := by
        split
        · exact pending
        · exact scheduleFlag_keeps sound _ pending
      obtain ⟨timer, inside, called⟩ := scheduled
      exact .inl ⟨timer, startTick_mem _ inside, called⟩
  | rescheduled => exact .inl (scheduleFlag_keeps sound _ pending)
  | grace game side category delayMs =>
      exact .inl (Timers.pending_start.mpr (.inl (clearTimer_keeps sound nofun pending)))
  | cleared game clears =>
      have other : gameId ≠ game := by
        rintro rfl
        exact open' clears
      obtain ⟨timer, inside, called⟩ := pending
      refine .inl ⟨timer, sound.clearGame_pending.mpr ⟨inside, ?_⟩, called⟩
      rw [called]
      exact other
  | stopped callback noFlag =>
      exact .inl (clearTimer_keeps sound (fun same => noFlag gameId same.symm) pending)
  | fired handle callback loop taken named =>
      obtain ⟨timer, inside, called⟩ := pending
      obtain ⟨fired, was, handed, calls, _, ⟨_, rfl⟩ | ⟨period, _, rfl⟩⟩ := Timers.fire_cases taken
      · by_cases same : timer.handle = handle
        · refine .inr ⟨handle, before.loop.clear handle, named, ?_⟩
          have one : timer = fired :=
            List.inj_on_of_nodup_map sound.registered.handles inside was (same.trans handed.symm)
          rw [taken, ← calls, ← one, called]
        · exact .inl ⟨timer, Timers.mem_clear.mpr ⟨inside, same⟩, called⟩
      · exact .inl (Timers.pending_again.mpr ⟨timer, inside, called⟩)
  | passed => exact .inl pending
  | destroyed all => exact (open' (all ▸ trivial)).elim
  | same => exact .inl pending

/-- A check that is under way ends by an answer, or by a failure. -/
theorem step_running (taken : s.step overrideMs event = some t) {gameId : String}
    (running : .onFlagTimer gameId ∈ s.running) :
    .onFlagTimer gameId ∈ t.running ∨ (∃ res, event = .flagChecked gameId res) ∨
      event = .failed (.onFlagTimer gameId) := by
  have other : ∀ callback timers, s.answer callback timers = some t →
      callback ≠ .onFlagTimer gameId → .onFlagTimer gameId ∈ t.running := by
    intro callback timers answered apart
    obtain ⟨_, rfl⟩ := answer_cases answered
    exact (List.mem_erase_of_ne apart.symm).mpr running
  cases event with
  | moveMade | announceEnd | registerPlayerSocket | onPlayerSocketGone | passed
  | onModuleDestroy =>
      cases taken
      exact .inl running
  | fires handle =>
      obtain ⟨⟨callback, loop⟩, _, rfl⟩ := Option.map_eq_some_iff.mp taken
      exact .inl (List.mem_append_left _ running)
  | flagChecked game res =>
      by_cases same : game = gameId
      · exact .inr (.inl ⟨res, by rw [same]⟩)
      · exact .inl (other _ _ taken fun eq => same (TimerCallback.onFlagTimer.inj eq))
  | clockRead => exact .inl (other _ _ taken nofun)
  | graceDecided => exact .inl (other _ _ taken nofun)
  | failed callback =>
      by_cases same : callback = .onFlagTimer gameId
      · exact .inr (.inr (by rw [same]))
      · exact .inl (other _ _ taken same)

theorem Watched.step {gameId : String} (watched : s.Watched gameId) (sound : s.timers.Sound)
    (taken : s.step overrideMs event = some t) (open' : ¬ event.Clears gameId)
    (answered : event ≠ .failed (.onFlagTimer gameId)) : t.Watched gameId := by
  rcases watched with pending | running
  · rcases (step_change taken).flag sound open' pending with kept | ⟨handle, loop, rfl, fired⟩
    · exact .inl kept
    · obtain ⟨⟨callback, loop'⟩, fired', rfl⟩ := Option.map_eq_some_iff.mp taken
      obtain ⟨rfl, _⟩ := Prod.mk.inj (Option.some.inj (fired.symm.trans fired'))
      exact .inr (List.mem_append_right _ (List.mem_singleton.mpr rfl))
  · rcases step_running taken running with still | ⟨res, rfl⟩ | rfl
    · exact .inr still
    · obtain ⟨_, rfl⟩ := answer_cases taken
      cases res with
      | ended => exact absurd rfl open'
      | stop => exact absurd rfl open'
      | wait remainingMs => exact .inl (Timers.pending_start.mpr (.inr rfl))
    · exact absurd rfl answered

/-- After a move that starts a clock the end of the time is watched for: the flag timer is due
when the side to move has used up its time and the reserve on top, and from then on the timer is
pending or its check is under way, until the game's timers are cleared or a check fails. -/
theorem flag_watch_kept (reached : (gatewayTimers overrideMs).Reachable s) {gameId : String}
    {clock : ClockPayload} {side : ClockSide} (running : clock.running = some side)
    (made : s.step overrideMs (.moveMade gameId clock) = some t) :
    (∃ timer ∈ t.timers.loop.pending, timer.callback = .onFlagTimer gameId ∧
      timer.due = s.timers.loop.now + delayOf
        (max 0 (if side = .w then clock.whiteMs else clock.blackMs) + FLAG_EPSILON_MS)) ∧
      ∀ u, (gatewayTimers overrideMs).Steps (fun _ event => ¬ event.Clears gameId ∧
          event ≠ .failed (.onFlagTimer gameId)) t u →
        u.timers.loop.Pending (.onFlagTimer gameId) ∨ .onFlagTimer gameId ∈ u.running := by
  have sound := reachable_sound reached
  have started : ∃ timer ∈ t.timers.loop.pending, timer.callback = .onFlagTimer gameId ∧
      timer.due = s.timers.loop.now + delayOf
        (max 0 (if side = .w then clock.whiteMs else clock.blackMs) + FLAG_EPSILON_MS) := by
    cases made
    simp only [armClockTimers, flagDelayMs, running]
    refine ⟨_, startTick_mem _ (Timers.mem_start.mpr (.inr rfl)), rfl, ?_⟩
    rw [GameTimers.clearFlag_now]
  refine ⟨started, fun u later => ?_⟩
  refine (later.preserve (fun s => s.timers.Sound ∧ s.Watched gameId) ?_ ?_).2
  · rintro s event t ⟨sound, watched⟩ ⟨open', answered⟩ taken
    exact ⟨(step_change taken).sound sound, watched.step sound taken open' answered⟩
  · obtain ⟨timer, inside, called, _⟩ := started
    exact ⟨(step_change made).sound sound, .inl ⟨timer, inside, called⟩⟩

theorem flag_watch_kept_blitz :
    ∃ t, GatewayTimers.start.step none (.moveMade "g1" ⟨300000, 295000, some .b⟩) = some t ∧
      ∃ timer ∈ t.timers.loop.pending,
        timer.callback = .onFlagTimer "g1" ∧ timer.due = 295100 := by
  have reached : (gatewayTimers none).Reachable GatewayTimers.start := ⟨_, rfl, .refl⟩
  let clock : ClockPayload := ⟨300000, 295000, some .b⟩
  have running : clock.running = some .b := rfl
  obtain ⟨timer, inside, called, due⟩ := (flag_watch_kept reached running rfl).1
  exact ⟨_, rfl, timer, inside, called, due.trans (by decide)⟩

end GatewayTimers

end Farzin.Play
