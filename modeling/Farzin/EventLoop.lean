import Mathlib.Data.List.Nodup
import Mathlib.Data.List.Sublists

set_option autoImplicit false

/- The timers of an event loop: one-shot timers and intervals under handles that are never given
out twice. Which of several due timers fires first is left open. -/
namespace Farzin.EventLoop

structure Timer (Callback : Type) where
  handle : Nat
  due : Nat
  /-- An interval comes back after its period; a one-shot timer has none. -/
  period : Option Nat
  callback : Callback
  deriving DecidableEq, Repr

structure Timers (Callback : Type) where
  now : Nat
  next : Nat
  pending : List (Timer Callback)
  deriving DecidableEq, Repr

def TIMEOUT_MAX : Int := 2147483647

/-- A delay that a timer cannot hold becomes one millisecond. -/
def delayOf (after : Int) : Nat :=
  if 1 ≤ after ∧ after ≤ TIMEOUT_MAX then after.toNat else 1

namespace Timers

variable {Callback : Type}

/-- The new timer has the handle `next`. -/
def start (timers : Timers Callback) (callback : Callback) (after : Int) (repeats : Bool) :
    Timers Callback :=
  { timers with
    next := timers.next + 1
    pending := timers.pending ++
      [⟨timers.next, timers.now + delayOf after,
        if repeats then some (delayOf after) else none, callback⟩] }

/-- A handle that is not pending is cleared without effect. -/
def clear (timers : Timers Callback) (handle : Nat) : Timers Callback :=
  { timers with pending := timers.pending.filter fun timer => timer.handle ≠ handle }

def passed (timers : Timers Callback) (ms : Nat) : Timers Callback :=
  { timers with now := timers.now + ms }

/-- An interval stays under its handle. -/
def again (timers : Timers Callback) (handle period : Nat) : Timers Callback :=
  { timers with
    pending := timers.pending.map fun timer =>
      if timer.handle = handle then { timer with due := timers.now + period } else timer }

/-- The timer fires if it is due, and its callback is handed over. -/
def fire (timers : Timers Callback) (handle : Nat) : Option (Callback × Timers Callback) :=
  match timers.pending.find? (·.handle = handle) with
  | none => none
  | some timer =>
      if timer.due ≤ timers.now then
        some (timer.callback, match timer.period with
          | none => timers.clear handle
          | some period => timers.again handle period)
      else none

/-- What is pending under a callback. -/
def Pending (timers : Timers Callback) (callback : Callback) : Prop :=
  ∃ timer ∈ timers.pending, timer.callback = callback

@[simp] theorem start_next (timers : Timers Callback) (callback : Callback) (after : Int)
    (repeats : Bool) : (timers.start callback after repeats).next = timers.next + 1 := rfl

@[simp] theorem clear_next (timers : Timers Callback) (handle : Nat) :
    (timers.clear handle).next = timers.next := rfl

@[simp] theorem passed_next (timers : Timers Callback) (ms : Nat) :
    (timers.passed ms).next = timers.next := rfl

@[simp] theorem again_next (timers : Timers Callback) (handle period : Nat) :
    (timers.again handle period).next = timers.next := rfl

@[simp] theorem passed_pending (timers : Timers Callback) (ms : Nat) :
    (timers.passed ms).pending = timers.pending := rfl

theorem mem_start {timers : Timers Callback} {callback : Callback} {after : Int}
    {repeats : Bool} {timer : Timer Callback} :
    timer ∈ (timers.start callback after repeats).pending ↔ timer ∈ timers.pending ∨
      timer = ⟨timers.next, timers.now + delayOf after,
        if repeats then some (delayOf after) else none, callback⟩ := by
  simp [start]

theorem mem_clear {timers : Timers Callback} {handle : Nat} {timer : Timer Callback} :
    timer ∈ (timers.clear handle).pending ↔ timer ∈ timers.pending ∧ timer.handle ≠ handle := by
  simp [clear]

/-- Handle and callback of a pending timer survive the round of an interval. -/
theorem mem_again {timers : Timers Callback} {handle period : Nat} {timer : Timer Callback}
    (inside : timer ∈ (timers.again handle period).pending) :
    ∃ before ∈ timers.pending, timer.handle = before.handle ∧
      timer.callback = before.callback ∧ timer.period = before.period := by
  obtain ⟨before, was, rfl⟩ := List.mem_map.mp inside
  refine ⟨before, was, ?_⟩
  split
  · exact ⟨rfl, rfl, rfl⟩
  · exact ⟨rfl, rfl, rfl⟩

theorem pending_start {timers : Timers Callback} {callback other : Callback} {after : Int}
    {repeats : Bool} :
    (timers.start callback after repeats).Pending other ↔
      timers.Pending other ∨ other = callback := by
  simp only [Pending, mem_start, or_and_right, exists_or, exists_eq_left]
  exact or_congr_right eq_comm

theorem pending_again {timers : Timers Callback} {handle period : Nat} {callback : Callback} :
    (timers.again handle period).Pending callback ↔ timers.Pending callback := by
  constructor
  · rintro ⟨timer, inside, rfl⟩
    obtain ⟨before, was, _, same, _⟩ := mem_again inside
    exact ⟨before, was, same.symm⟩
  · rintro ⟨timer, inside, rfl⟩
    refine ⟨_, List.mem_map_of_mem inside, ?_⟩
    split <;> rfl

/-- What a firing can be: the timer was due, and either it is gone or it is an interval. -/
theorem fire_cases {timers after : Timers Callback} {handle : Nat} {callback : Callback}
    (fired : timers.fire handle = some (callback, after)) :
    ∃ timer ∈ timers.pending, timer.handle = handle ∧ timer.callback = callback ∧
      timer.due ≤ timers.now ∧
      ((timer.period = none ∧ after = timers.clear handle) ∨
        ∃ period, timer.period = some period ∧ after = timers.again handle period) := by
  unfold fire at fired
  split at fired
  · cases fired
  case h_2 timer found =>
    have inside := List.mem_of_find?_eq_some found
    have named : timer.handle = handle := by simpa using List.find?_some found
    split at fired
    case isFalse => cases fired
    case isTrue due =>
      obtain ⟨rfl, rfl⟩ := Prod.mk.inj (Option.some.inj fired)
      refine ⟨timer, inside, named, rfl, due, ?_⟩
      cases repeats : timer.period with
      | none => exact .inl ⟨rfl, rfl⟩
      | some period => exact .inr ⟨period, rfl, rfl⟩

/-- Clearing a list of handles one after the other. -/
theorem mem_clears {handles : List Nat} {timers : Timers Callback} {timer : Timer Callback} :
    timer ∈ (handles.foldl clear timers).pending ↔
      timer ∈ timers.pending ∧ timer.handle ∉ handles := by
  induction handles generalizing timers with
  | nil => simp
  | cons handle handles ih => simp [ih, mem_clear, and_assoc]

/-! ### Registries

A registry gives each callback the handle of the timer it was last started under. -/

/-- Every pending timer is the registered one of its callback. A registered handle may be stale:
a one-shot timer that has fired is not taken out of the registry. -/
structure Registered (timers : Timers Callback) (handleOf : Callback → Option Nat) : Prop where
  listed : ∀ timer ∈ timers.pending, handleOf timer.callback = some timer.handle
  handles : (timers.pending.map (·.handle)).Nodup
  apart : ∀ first second handle, handleOf first = some handle → handleOf second = some handle →
    first = second
  given : ∀ callback handle, handleOf callback = some handle → handle < timers.next

namespace Registered

variable {timers : Timers Callback} {handleOf registry : Callback → Option Nat}

/-- A callback has one pending timer at most. -/
theorem once (registered : Registered timers handleOf) :
    (timers.pending.map (·.callback)).Nodup := by
  have distinct := registered.handles
  rw [List.nodup_map_iff_inj_on (List.Nodup.of_map _ distinct)]
  intro first inside second inside' same
  apply List.inj_on_of_nodup_map distinct inside inside'
  have one := registered.listed first inside
  rw [same, registered.listed second inside'] at one
  exact (Option.some.inj one).symm

theorem unlisted (registered : Registered timers handleOf) {callback : Callback}
    (absent : handleOf callback = none) : ¬ timers.Pending callback := by
  rintro ⟨timer, inside, rfl⟩
  rw [registered.listed timer inside] at absent
  cases absent

theorem passed (registered : Registered timers handleOf) (ms : Nat) :
    Registered (timers.passed ms) handleOf :=
  ⟨registered.listed, registered.handles, registered.apart, registered.given⟩

/-- A timer may be started for a callback that is not registered. -/
theorem start (registered : Registered timers handleOf) {callback : Callback}
    (absent : handleOf callback = none) (set : registry callback = some timers.next)
    (others : ∀ other, other ≠ callback → registry other = handleOf other) (after : Int)
    (repeats : Bool) : Registered (timers.start callback after repeats) registry := by
  have old : ∀ other handle, registry other = some handle →
      (other = callback ∧ handle = timers.next) ∨ handleOf other = some handle := by
    intro other handle found
    by_cases same : other = callback
    · subst same
      exact .inl ⟨rfl, Option.some.inj (found.symm.trans set)⟩
    · exact .inr (others other same ▸ found)
  constructor
  case listed =>
    intro timer inside
    rcases mem_start.mp inside with before | rfl
    · have found := registered.listed timer before
      rwa [others]
      intro same
      rw [same, absent] at found
      cases found
    · exact set
  case handles =>
    simp only [Timers.start, List.map_append, List.map_cons, List.map_nil]
    rw [List.nodup_append]
    refine ⟨registered.handles, List.nodup_singleton _, ?_⟩
    rintro handle inside _ (_ | ⟨_, ⟨⟩⟩) rfl
    obtain ⟨timer, before, same⟩ := List.mem_map.mp inside
    have bound := registered.given _ _ (registered.listed timer before)
    exact absurd same (Nat.ne_of_lt bound)
  case apart =>
    intro first second handle one two
    rcases old first handle one with ⟨rfl, rfl⟩ | one'
    · rcases old second _ two with ⟨rfl, _⟩ | two'
      · rfl
      · exact absurd (registered.given _ _ two') (Nat.lt_irrefl _)
    · rcases old second handle two with ⟨_, rfl⟩ | two'
      · exact absurd (registered.given _ _ one') (Nat.lt_irrefl _)
      · exact registered.apart first second handle one' two'
  case given =>
    intro other handle found
    rcases old other handle found with ⟨_, rfl⟩ | before
    · exact Nat.lt_succ_self _
    · exact Nat.lt_succ_of_lt (registered.given other handle before)

/-- Timers may be cleared with the entries that name them. -/
theorem remove (registered : Registered timers handleOf) {after : Timers Callback}
    (next : after.next = timers.next) (kept : after.pending.Sublist timers.pending)
    (others : ∀ callback handle, registry callback = some handle →
      handleOf callback = some handle)
    (named : ∀ timer ∈ after.pending, registry timer.callback = some timer.handle) :
    Registered after registry where
  listed := named
  handles := (kept.map _).nodup registered.handles
  apart first second handle one two :=
    registered.apart first second handle (others _ _ one) (others _ _ two)
  given callback handle found := next ▸ registered.given callback handle (others _ _ found)

/-- Clearing the handle of one callback and taking its entry out. -/
theorem clear (registered : Registered timers handleOf) {callback : Callback} {handle : Nat}
    (found : handleOf callback = some handle) (erased : registry callback = none)
    (others : ∀ other, other ≠ callback → registry other = handleOf other) :
    Registered (timers.clear handle) registry := by
  refine registered.remove rfl List.filter_sublist ?_ ?_
  · intro other handle' found'
    by_cases same : other = callback
    · rw [same, erased] at found'
      cases found'
    · rwa [others other same] at found'
  · intro timer inside
    obtain ⟨before, off⟩ := mem_clear.mp inside
    have listed := registered.listed timer before
    rwa [others]
    intro same
    rw [same, found] at listed
    exact off (Option.some.inj listed).symm

/-- A firing leaves the registry as it is. -/
theorem fire (registered : Registered timers handleOf) {handle : Nat} {callback : Callback}
    {after : Timers Callback} (fired : timers.fire handle = some (callback, after)) :
    Registered after handleOf := by
  obtain ⟨timer, inside, _, _, _, ⟨_, rfl⟩ | ⟨period, _, rfl⟩⟩ := fire_cases fired
  · exact registered.remove rfl List.filter_sublist (fun _ _ found => found)
      fun timer kept => registered.listed timer (mem_clear.mp kept).1
  · constructor
    case listed =>
      intro timer kept
      obtain ⟨before, was, handle, callback, _⟩ := mem_again kept
      rw [handle, callback]
      exact registered.listed before was
    case handles =>
      have same : (timers.again handle period).pending.map (·.handle) =
          timers.pending.map (·.handle) := by
        simp only [again, List.map_map]
        apply List.map_congr_left
        intro timer _
        simp only [Function.comp_apply]
        split <;> rfl
      rw [same]
      exact registered.handles
    case apart => exact registered.apart
    case given => exact registered.given

end Registered

end Timers

end Farzin.EventLoop
