import Farzin.Table
import Mathlib.Algebra.Order.Ring.Int
import Mathlib.Data.List.Sort
import Mathlib.Data.Rat.Defs

set_option autoImplicit false

/- The rows of the transactional outbox and what one poll of its publisher does to them
(`shared/outbox/outbox.service.ts`, `shared/outbox/outbox.publisher.ts`). -/
namespace Farzin.Outbox

/-- The event types that the outbox allows. -/
inductive OutboxEventType where
  | paymentCompleted
  | refundIssued
  | roundCompleted
  | ratingRecomputed
  | fairPlayCaseOpened
  deriving DecidableEq, Repr

/-- A field of a JSON object, as far as it is read. -/
inductive JsonField where
  | text (value : String)
  | number (value : Rat)
  | other
  deriving DecidableEq, Repr

/-- A payload that is no object has no fields. -/
abbrev Payload := List (String × JsonField)

inductive OutboxStatus where
  | pending
  | processing
  | published
  | failed
  deriving DecidableEq, Repr

structure OutboxEvent where
  id : Nat
  eventType : OutboxEventType
  aggregateType : String
  aggregateId : String
  payload : Payload
  status : OutboxStatus
  attempts : Nat
  lastError : Option String
  availableAt : Int
  publishedAt : Option Int
  deriving DecidableEq, Repr

def batchSize : Nat := 100

def maxAttempts : Nat := 10

def retentionMs : Int := 7 * 24 * 60 * 60 * 1000

def maxBackoffMs : Int := 5 * 60 * 1000

def backoffDelayMs (attempts : Nat) : Int := min (1000 * 2 ^ min attempts 10) maxBackoffMs

/-- The row that `enqueue` inserts. -/
def newEvent (id : Nat) (eventType : OutboxEventType) (aggregateType aggregateId : String)
    (payload : Payload) (now : Int) : OutboxEvent where
  id := id
  eventType := eventType
  aggregateType := aggregateType
  aggregateId := aggregateId
  payload := payload
  status := .pending
  attempts := 0
  lastError := none
  availableAt := now
  publishedAt := none

def OutboxEvent.due (e : OutboxEvent) (now : Int) : Bool :=
  e.status = .pending && e.availableAt ≤ now

/-- The events that a poll reads. -/
def dueEvents (events : List OutboxEvent) (now : Int) : List OutboxEvent :=
  ((events.filter fun e => e.due now).insertionSort fun a b => a.id ≤ b.id).take batchSize

/-- What a poll writes to the row of an event. -/
inductive Mark where
  | published (time : Int)
  | failed (attempts : Nat) (error : String) (time : Int)
  deriving DecidableEq, Repr

def Mark.isPublished : Mark → Bool
  | .published _ => true
  | .failed _ _ _ => false

def OutboxEvent.mark (e : OutboxEvent) : Mark → OutboxEvent
  | .published now => { e with status := .published, publishedAt := some now }
  | .failed attempts error now =>
      { e with
        attempts := attempts
        lastError := some error
        status := if maxAttempts ≤ attempts then .failed else .pending
        availableAt := now + backoffDelayMs attempts }

/-- The mark for an event as its poll has read it. -/
def OutboxEvent.markFor (e : OutboxEvent) (result : Except String Unit) (now : Int) : Mark :=
  match result with
  | .ok () => .published now
  | .error error => .failed (e.attempts + 1) error now

/-- What the daily cleanup keeps. -/
def OutboxEvent.retained (e : OutboxEvent) (now : Int) : Bool :=
  !(e.status = .published && e.publishedAt.any fun time => time < now - retentionMs)

section Lemmas

@[simp] theorem mark_id (e : OutboxEvent) (m : Mark) : (e.mark m).id = e.id := by
  cases m <;> rfl

theorem backoffDelayMs_le (attempts : Nat) : backoffDelayMs attempts ≤ maxBackoffMs :=
  min_le_right _ _

theorem dueEvents_mem {events : List OutboxEvent} {now : Int} {e : OutboxEvent}
    (read : e ∈ dueEvents events now) : e ∈ events ∧ e.due now = true := by
  have sorted := List.mem_of_mem_take read
  exact List.mem_filter.mp ((List.perm_insertionSort _ _).mem_iff.mp sorted)

theorem dueEvents_unique {events : List OutboxEvent} (unique : Table.Unique OutboxEvent.id events)
    (now : Int) : Table.Unique OutboxEvent.id (dueEvents events now) := by
  have filtered : Table.Unique OutboxEvent.id (events.filter fun e => e.due now) :=
    List.Nodup.sublist (List.filter_sublist.map _) unique
  have sorted : Table.Unique OutboxEvent.id
      ((events.filter fun e => e.due now).insertionSort fun a b => a.id ≤ b.id) :=
    ((List.perm_insertionSort _ _).map _).nodup_iff.mpr filtered
  exact List.Nodup.sublist ((List.take_sublist _ _).map _) sorted

/-- An event that is due is read, unless as many as a poll takes are due before it. -/
theorem dueEvents_reads {events : List OutboxEvent} (unique : Table.Unique OutboxEvent.id events)
    {now : Int} {e : OutboxEvent} (stored : e ∈ events) (due : e.due now = true)
    (turn : (events.countP fun other => other.due now && decide (other.id < e.id)) < batchSize) :
    e ∈ dueEvents events now := by
  have sorted := List.pairwise_insertionSort (fun a b : OutboxEvent => a.id ≤ b.id)
    (events.filter fun e => e.due now)
  have perm := List.perm_insertionSort (fun a b : OutboxEvent => a.id ≤ b.id)
    (events.filter fun e => e.due now)
  have listed := perm.mem_iff.mpr (List.mem_filter.mpr ⟨stored, due⟩)
  have distinct : Table.Unique OutboxEvent.id
      ((events.filter fun e => e.due now).insertionSort fun a b => a.id ≤ b.id) :=
    (perm.map _).nodup_iff.mpr (List.Nodup.sublist (List.filter_sublist.map _) unique)
  have count := perm.countP_eq fun other => decide (other.id < e.id)
  unfold dueEvents
  generalize (events.filter fun e => e.due now).insertionSort (fun a b => a.id ≤ b.id) = sortedDue
    at sorted listed distinct count ⊢
  obtain ⟨before, after, rfl⟩ := List.append_of_mem listed
  -- Whatever stands before the event has a smaller id.
  have smaller : before.countP (fun other => decide (other.id < e.id)) = before.length := by
    apply List.countP_eq_length.mpr
    intro other there
    have below := (List.pairwise_append.mp sorted).2.2 other there e List.mem_cons_self
    have apart : other.id ≠ e.id := by
      rw [Table.Unique, List.map_append, List.nodup_append] at distinct
      exact distinct.2.2 _ (List.mem_map_of_mem there) _ (List.mem_map_of_mem List.mem_cons_self)
    apply decide_eq_true
    omega
  have few : before.length < batchSize := by
    rw [List.countP_append, smaller, List.countP_filter] at count
    have order : events.countP (fun other => decide (other.id < e.id) && other.due now) =
        events.countP fun other => other.due now && decide (other.id < e.id) := by
      congr 1
      funext other
      exact Bool.and_comm _ _
    omega
  rw [List.take_append]
  apply List.mem_append_right
  obtain ⟨n, room⟩ := Nat.exists_eq_add_of_lt few
  rw [show batchSize - before.length = n + 1 by omega, List.take_succ_cons]
  exact List.mem_cons_self

end Lemmas

end Farzin.Outbox
