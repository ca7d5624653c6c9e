import Farzin.Notifications
import Farzin.Transition

set_option autoImplicit false

/- The publisher of the outbox with the handlers that it calls (`poll` and `cleanup` of
`shared/outbox/outbox.publisher.ts`). A poll runs under the advisory lock and delivers its events
one after the other. What handlers write stays when the poll is rolled back, and the handler that
runs then may go on. -/
namespace Farzin.Outbox

open Transition

/-- The event emitter: what it makes of the outcome of a handler that it has registered, and what
`emitAsync` makes of the outcomes of all of them. -/
structure Emitter where
  wrap : Except String Unit → Except String Unit
  emitAsync : List (Except String Unit) → Except String Unit

/-- A delivery of an event by a poll. Every event type has one handler. -/
structure Delivery where
  number : Nat
  poll : Nat
  event : OutboxEvent
  handler : Handler
  answers : List Answer
  deriving DecidableEq, Repr

/-- An event that its poll has delivered and marked. -/
structure Settled where
  event : OutboxEvent
  outcome : Except String Unit
  answers : List Answer
  mark : Mark
  deriving DecidableEq, Repr

/-- A poll with the events that it has read. -/
structure Poll where
  serial : Nat
  batch : List OutboxEvent
  settled : List Settled
  remaining : List OutboxEvent
  deriving DecidableEq, Repr

structure Completed where
  eventId : Nat
  outcome : Except String Unit
  deriving DecidableEq, Repr

/-- The tables, the poll that holds the lock and the handlers that run. All deliveries that have
come to an end are kept, and the failures that polls have recorded. -/
structure Publisher where
  events : List OutboxEvent
  issued : List Nat
  poll : Option Poll
  polls : Nat
  deliveries : List Delivery
  nextDelivery : Nat
  box : Mailbox
  completed : List Completed
  failures : List Nat
  directory : Directory
  now : Int

/-- The row of an event after a poll that has settled these. -/
def writeMarks (settled : List Settled) (e : OutboxEvent) : OutboxEvent :=
  match settled.find? fun w => w.event.id = e.id with
  | some w => e.mark w.mark
  | none => e

def failedIds (settled : List Settled) : List Nat :=
  (settled.filter fun w => !w.mark.isPublished).map fun w => w.event.id

def Handler.completed (eventId : Nat) : Handler → List Completed
  | .done outcome => [⟨eventId, outcome⟩]
  | _ => []

inductive PublisherLabel where
  | enqueue (id : Nat) (eventType : OutboxEventType) (aggregateType aggregateId : String)
      (payload : Payload)
  | beginPoll
  | emit
  | handle (number : Nat) (answer : Answer)
  | deliver (number : Nat) (result : DispatchResult)
  | settle
  | commit
  | rollback
  /-- The process that ran the handler has stopped. -/
  | abandon (number : Nat)
  | cleanup
  | setDirectory (directory : Directory)
  | wait (ms : Nat)

namespace Publisher

variable (s : Publisher)

def findDelivery (number : Nat) : Option Delivery :=
  Table.findUnique Delivery.number s.deliveries number

/-- Another poll holds the lock, or the events that are due are read. -/
def beginPoll : Publisher :=
  match s.poll with
  | some _ => s
  | none =>
      let batch := dueEvents s.events s.now
      { s with poll := some ⟨s.polls, batch, [], batch⟩, polls := s.polls + 1 }

/-- The delivery that a poll waits for. -/
def current (p : Poll) : Option Delivery := s.deliveries.find? fun d => d.poll = p.serial

def emit : Option Publisher :=
  match s.poll with
  | none => none
  | some p =>
      match p.remaining, s.current p with
      | e :: _, none => some { s with
          deliveries := s.deliveries ++ [⟨s.nextDelivery, p.serial, e, .listen, []⟩]
          nextDelivery := s.nextDelivery + 1 }
      | _, _ => none

/-- The handler of a delivery has gone on. -/
def goOn (d : Delivery) (box : Mailbox) (handler : Handler) (answers : List Answer) : Publisher :=
  { s with
    box := box
    deliveries := Table.updateWhere (fun other => other.number = d.number)
      (fun _ => { d with handler := handler, answers := answers }) s.deliveries
    completed := s.completed ++ handler.completed d.event.id }

def handle (adapters : Adapters) (number : Nat) (answer : Answer) : Option Publisher :=
  match s.findDelivery number with
  | none => none
  | some d =>
      match d.handler with
      | .dispatch _ | .done _ => none
      | handler =>
          let (box, next) := handler.handle adapters s.directory s.now s.box d.event answer
          let answers := if handler.queries d.event then d.answers ++ [answer] else d.answers
          some (s.goOn d box next answers)

def deliver (number : Nat) (result : DispatchResult) : Option Publisher :=
  match s.findDelivery number with
  | none => none
  | some d =>
      match d.handler with
      | .dispatch rows =>
          let (box, next) := Handler.deliver s.now s.box result (.dispatch rows)
          some (s.goOn d box next d.answers)
      | _ => none

/-- `emitAsync` has ended, and its event is marked. -/
def settle (emitter : Emitter) : Option Publisher :=
  match s.poll with
  | none => none
  | some p =>
      match p.remaining, s.current p with
      | e :: rest, some d =>
          match d.handler with
          | .done outcome =>
              let result := emitter.emitAsync [emitter.wrap outcome]
              let w : Settled := ⟨e, outcome, d.answers, e.markFor result s.now⟩
              some { s with
                poll := some { p with settled := p.settled ++ [w], remaining := rest }
                deliveries := s.deliveries.filter fun other => other.poll ≠ p.serial }
          | _ => none
      | _, _ => none

/-- A poll commits when all its events are marked. -/
def commit : Option Publisher :=
  match s.poll with
  | none => none
  | some p =>
      match p.remaining with
      | [] => some { s with
          poll := none
          events := s.events.map (writeMarks p.settled)
          failures := s.failures ++ failedIds p.settled }
      | _ :: _ => none

def abandon (number : Nat) : Option Publisher :=
  match s.findDelivery number with
  | none => none
  | some d =>
      if s.poll.any fun p => d.poll = p.serial then none
      else some { s with deliveries := s.deliveries.filter fun other => other.number ≠ number }

def step (emitter : Emitter) (adapters : Adapters) : PublisherLabel → Option Publisher
  | .enqueue id eventType aggregateType aggregateId payload =>
      if id ∈ s.issued then none
      else some { s with
        events := s.events ++ [newEvent id eventType aggregateType aggregateId payload s.now]
        issued := s.issued ++ [id] }
  | .beginPoll => some s.beginPoll
  | .emit => s.emit
  | .handle number answer => s.handle adapters number answer
  | .deliver number result => s.deliver number result
  | .settle => s.settle emitter
  | .commit => s.commit
  | .rollback => s.poll.map fun _ => { s with poll := none }
  | .abandon number => s.abandon number
  | .cleanup => some { s with events := s.events.filter fun e => e.retained s.now }
  | .setDirectory directory => some { s with directory := directory }
  | .wait ms => some { s with now := s.now + ms }

end Publisher

/-- Empty tables, and nothing runs. -/
structure Publisher.Initial (s : Publisher) : Prop where
  events : s.events = []
  poll : s.poll = none
  deliveries : s.deliveries = []
  rows : s.box.rows = []
  failures : s.failures = []

def publisher (emitter : Emitter) (adapters : Adapters) : System Publisher PublisherLabel where
  initial := Publisher.Initial
  step s label := s.step emitter adapters label

section Steps

variable {emitter : Emitter} {adapters : Adapters} {s t : Publisher}

theorem enqueue_step {id : Nat} {eventType : OutboxEventType} {aggregateType aggregateId : String}
    {payload : Payload} (taken : s.step emitter adapters
      (.enqueue id eventType aggregateType aggregateId payload) = some t) :
    id ∉ s.issued ∧ t = { s with
      events := s.events ++ [newEvent id eventType aggregateType aggregateId payload s.now]
      issued := s.issued ++ [id] } := by
  rw [Publisher.step] at taken
  split at taken
  · cases taken
  · rename_i fresh
    cases taken
    exact ⟨fresh, rfl⟩

theorem beginPoll_cases (s : Publisher) :
    s.beginPoll = s ∨ s.poll = none ∧ s.beginPoll = { s with
      poll := some ⟨s.polls, dueEvents s.events s.now, [], dueEvents s.events s.now⟩
      polls := s.polls + 1 } := by
  unfold Publisher.beginPoll
  split
  · exact .inl rfl
  · rename_i none
    exact .inr ⟨none, rfl⟩

theorem current_mem {p : Poll} {d : Delivery} (found : s.current p = some d) :
    d ∈ s.deliveries ∧ d.poll = p.serial := by
  have its := List.find?_some found
  exact ⟨List.mem_of_find?_eq_some found, of_decide_eq_true its⟩

theorem emit_step (taken : s.emit = some t) :
    ∃ p e rest, s.poll = some p ∧ p.remaining = e :: rest ∧ s.current p = none ∧ t = { s with
      deliveries := s.deliveries ++ [⟨s.nextDelivery, p.serial, e, .listen, []⟩]
      nextDelivery := s.nextDelivery + 1 } := by
  unfold Publisher.emit at taken
  split at taken
  · cases taken
  · rename_i p held
    split at taken
    · rename_i e rest next none
      cases taken
      exact ⟨p, e, rest, held, next, none, rfl⟩
    · cases taken

theorem goOn_mem {d other : Delivery} {box : Mailbox} {handler : Handler} {answers : List Answer}
    (listed : other ∈ (s.goOn d box handler answers).deliveries) :
    other ∈ s.deliveries ∧ other.number ≠ d.number ∨
      other = { d with handler := handler, answers := answers } := by
  obtain ⟨before, known, same⟩ := Table.mem_updateWhere.mp listed
  split at same
  · exact .inr same
  · rename_i apart
    rw [same]
    exact .inl ⟨known, of_decide_eq_false (by simpa using apart)⟩

theorem handle_step {number : Nat} {answer : Answer}
    (taken : s.handle adapters number answer = some t) :
    ∃ d ∈ s.deliveries, d.handler.finished = false ∧
      t = s.goOn d (d.handler.handle adapters s.directory s.now s.box d.event answer).1
        (d.handler.handle adapters s.directory s.now s.box d.event answer).2
        (if d.handler.queries d.event then d.answers ++ [answer] else d.answers) := by
  unfold Publisher.handle at taken
  split at taken
  · cases taken
  · rename_i d found
    split at taken
    · cases taken
    · cases taken
    · rename_i noDispatch unfinished
      cases taken
      refine ⟨d, Table.findUnique_mem found, ?_, rfl⟩
      cases handler : d.handler with
      | done outcome => exact absurd handler (unfinished outcome)
      | listen | readContext | recipients | existing | insert | dispatch => rfl

theorem deliver_step {number : Nat} {result : DispatchResult}
    (taken : s.deliver number result = some t) :
    ∃ d ∈ s.deliveries, ∃ rows, d.handler = .dispatch rows ∧
      t = s.goOn d (Handler.deliver s.now s.box result (.dispatch rows)).1
        (Handler.deliver s.now s.box result (.dispatch rows)).2 d.answers := by
  unfold Publisher.deliver at taken
  split at taken
  · cases taken
  · rename_i d found
    split at taken
    · rename_i rows handler
      cases taken
      exact ⟨d, Table.findUnique_mem found, rows, handler, rfl⟩
    · cases taken

theorem settle_step (taken : s.settle emitter = some t) :
    ∃ p e rest d outcome, s.poll = some p ∧ p.remaining = e :: rest ∧ s.current p = some d ∧
      d.handler = .done outcome ∧ t = { s with
        poll := some { p with
          settled := p.settled ++ [⟨e, outcome, d.answers,
            e.markFor (emitter.emitAsync [emitter.wrap outcome]) s.now⟩]
          remaining := rest }
        deliveries := s.deliveries.filter fun other => other.poll ≠ p.serial } := by
  unfold Publisher.settle at taken
  split at taken
  · cases taken
  · rename_i p held
    split at taken
    · rename_i e rest d next found
      split at taken
      · rename_i outcome ended
        cases taken
        exact ⟨p, e, rest, d, outcome, held, next, found, ended, rfl⟩
      · cases taken
    · cases taken

/-- A poll that commits has settled all it has read. -/
theorem commit_step (taken : s.commit = some t) :
    ∃ p, s.poll = some p ∧ p.remaining = [] ∧ t = { s with
      poll := none
      events := s.events.map (writeMarks p.settled)
      failures := s.failures ++ failedIds p.settled } := by
  unfold Publisher.commit at taken
  split at taken
  · cases taken
  · rename_i p held
    split at taken
    · rename_i none
      cases taken
      exact ⟨p, held, none, rfl⟩
    · cases taken

theorem abandon_step {number : Nat} (taken : s.abandon number = some t) :
    ∃ d ∈ s.deliveries, d.number = number ∧ (s.poll.any fun p => d.poll = p.serial) = false ∧
      t = { s with deliveries := s.deliveries.filter fun other => other.number ≠ number } := by
  unfold Publisher.abandon at taken
  split at taken
  · cases taken
  · rename_i d found
    split at taken
    · cases taken
    · rename_i stopped
      cases taken
      exact ⟨d, Table.findUnique_mem found, Table.findUnique_key found,
        Bool.eq_false_of_not_eq_true stopped, rfl⟩

end Steps

end Farzin.Outbox
