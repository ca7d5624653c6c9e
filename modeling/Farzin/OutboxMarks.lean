import Farzin.OutboxDelivery

set_option autoImplicit false

/- What the marks of the outbox rows say, whatever fails: a published event has been delivered, and
the attempts of an event are the failures that have been recorded for it. -/
namespace Farzin.Outbox

open Transition

def Answer.isHeld : Answer → Bool
  | .held => true
  | .failed _ | .lost _ => false

/-- The emitter reports success for the outcome of a handler. -/
def Emitter.passes (emitter : Emitter) (outcome : Except String Unit) : Prop :=
  emitter.emitAsync [emitter.wrap outcome] = .ok ()

/-- A handler succeeds exactly when the database has answered all its calls. -/
def Answered (answers : List Answer) : Handler → Prop
  | .done outcome => outcome = .ok () ↔ ∀ a ∈ answers, a.isHeld = true
  | _ => ∀ a ∈ answers, a.isHeld = true

structure Delivery.Sound (s : Publisher) (d : Delivery) : Prop where
  serial : d.poll < s.polls
  number : d.number < s.nextDelivery
  finished : ∀ c ∈ d.handler.completed d.event.id, c ∈ s.completed
  answered : Answered d.answers d.handler

structure Settled.Sound (emitter : Emitter) (s : Publisher) (w : Settled) : Prop where
  completed : ⟨w.event.id, w.outcome⟩ ∈ s.completed
  answered : w.outcome = .ok () ↔ ∀ a ∈ w.answers, a.isHeld = true
  marked : ∃ time ≤ s.now,
    w.mark = w.event.markFor (emitter.emitAsync [emitter.wrap w.outcome]) time

structure Poll.Sound (emitter : Emitter) (s : Publisher) (p : Poll) : Prop where
  serial : p.serial < s.polls
  split : p.settled.map Settled.event ++ p.remaining = p.batch
  stored : ∀ e ∈ p.batch, e ∈ s.events ∧ e.status = .pending
  unique : Table.Unique OutboxEvent.id p.batch
  own : ∀ d ∈ s.deliveries, d.poll = p.serial → p.remaining.head? = some d.event
  settled : ∀ w ∈ p.settled, w.Sound emitter s

structure OutboxEvent.Sound (emitter : Emitter) (s : Publisher) (e : OutboxEvent) : Prop where
  published : e.status = .published →
    ∃ outcome, ⟨e.id, outcome⟩ ∈ s.completed ∧ emitter.passes outcome
  counted : e.attempts = s.failures.count e.id
  bounded : e.attempts ≤ maxAttempts
  failed : e.status = .failed ↔ e.attempts = maxAttempts
  known : e.status ≠ .processing
  soon : e.status = .pending → e.availableAt ≤ s.now + maxBackoffMs

structure Publisher.Sound (emitter : Emitter) (s : Publisher) : Prop where
  unique : Table.Unique OutboxEvent.id s.events
  issued : ∀ e ∈ s.events, e.id ∈ s.issued
  failures : ∀ id ∈ s.failures, id ∈ s.issued
  numbers : Table.Unique Delivery.number s.deliveries
  deliveries : ∀ d ∈ s.deliveries, d.Sound s
  poll : ∀ p, s.poll = some p → p.Sound emitter s
  events : ∀ e ∈ s.events, e.Sound emitter s

/-- Time passes, and more deliveries come to their end. -/
structure Later (s t : Publisher) : Prop where
  polls : s.polls ≤ t.polls
  numbers : s.nextDelivery ≤ t.nextDelivery
  completed : s.completed ⊆ t.completed
  now : s.now ≤ t.now

section Later

variable {emitter : Emitter} {s t : Publisher}

theorem Delivery.Sound.later {d : Delivery} (sound : d.Sound s) (later : Later s t) : d.Sound t where
  serial := Nat.lt_of_lt_of_le sound.serial later.polls
  number := Nat.lt_of_lt_of_le sound.number later.numbers
  finished c listed := later.completed (sound.finished c listed)
  answered := sound.answered

theorem Settled.Sound.later {w : Settled} (sound : w.Sound emitter s) (later : Later s t) :
    w.Sound emitter t where
  completed := later.completed sound.completed
  answered := sound.answered
  marked := by
    obtain ⟨time, before, mark⟩ := sound.marked
    exact ⟨time, before.trans later.now, mark⟩

theorem OutboxEvent.Sound.later {e : OutboxEvent} (sound : e.Sound emitter s) (later : Later s t)
    (failures : t.failures = s.failures) : e.Sound emitter t where
  published status := by
    obtain ⟨outcome, completed, passes⟩ := sound.published status
    exact ⟨outcome, later.completed completed, passes⟩
  counted := by
    rw [failures]
    exact sound.counted
  bounded := sound.bounded
  failed := sound.failed
  known := sound.known
  soon status := by
    have before := sound.soon status
    have now := later.now
    omega

/-- A poll goes on while its rows stay and its own delivery is the one at its head. -/
theorem Poll.Sound.later {p : Poll} (sound : p.Sound emitter s) (later : Later s t)
    (stored : ∀ e ∈ s.events, e.status = .pending → e ∈ t.events)
    (own : ∀ d ∈ t.deliveries, d.poll = p.serial → p.remaining.head? = some d.event) :
    p.Sound emitter t where
  serial := Nat.lt_of_lt_of_le sound.serial later.polls
  split := sound.split
  stored e read := by
    obtain ⟨inside, pending⟩ := sound.stored e read
    exact ⟨stored e inside pending, pending⟩
  unique := sound.unique
  own := own
  settled w listed := (sound.settled w listed).later later

end Later

section Marks

variable {emitter : Emitter} {s : Publisher}

theorem failedIds_count {settled : List Settled}
    (unique : Table.Unique OutboxEvent.id (settled.map Settled.event)) {w : Settled}
    (listed : w ∈ settled) :
    (failedIds settled).count w.event.id = if w.mark.isPublished then 0 else 1 := by
  rw [Table.Unique, List.map_map] at unique
  have distinct : (failedIds settled).Nodup :=
    List.Nodup.sublist (List.filter_sublist.map fun w : Settled => w.event.id) unique
  split
  · rename_i published
    apply List.count_eq_zero.mpr
    intro among
    obtain ⟨other, inside, same⟩ := List.mem_map.mp among
    obtain ⟨known, failed⟩ := List.mem_filter.mp inside
    have equal : other = w := List.inj_on_of_nodup_map unique known listed same
    rw [equal, published] at failed
    cases failed
  · rename_i failed
    apply List.count_eq_one_of_mem distinct
    exact List.mem_map.mpr ⟨w, List.mem_filter.mpr ⟨listed, by simpa using failed⟩, rfl⟩

theorem failedIds_other {settled : List Settled} {id : Nat}
    (other : ∀ w ∈ settled, w.event.id ≠ id) : (failedIds settled).count id = 0 := by
  apply List.count_eq_zero.mpr
  intro among
  obtain ⟨w, inside, same⟩ := List.mem_map.mp among
  exact other w (List.mem_filter.mp inside).1 same

/-- The row of an event that is not in the poll stays, and a row that it has settled is marked. -/
theorem writeMarks_cases (settled : List Settled) (e : OutboxEvent) :
    ((∀ w ∈ settled, w.event.id ≠ e.id) ∧ writeMarks settled e = e) ∨
      ∃ w ∈ settled, w.event.id = e.id ∧ writeMarks settled e = e.mark w.mark := by
  unfold writeMarks
  cases found : settled.find? fun w => w.event.id = e.id with
  | none =>
      left
      refine ⟨fun w listed same => ?_, rfl⟩
      have differs := List.find?_eq_none.mp found w listed
      exact differs (decide_eq_true same)
  | some w =>
      right
      have same := List.find?_some found
      exact ⟨w, List.mem_of_find?_eq_some found, by simpa using same, rfl⟩

@[simp] theorem writeMarks_id (settled : List Settled) (e : OutboxEvent) :
    (writeMarks settled e).id = e.id := by
  rcases writeMarks_cases settled e with ⟨_, same⟩ | ⟨w, _, _, same⟩
  · rw [same]
  · rw [same, mark_id]

/-- Whatever mark its delivery has led to, a pending row that is marked is sound. -/
theorem marked_sound {e : OutboxEvent} (sound : e.Sound emitter s) (pending : e.status = .pending)
    {settled : List Settled} (unique : Table.Unique OutboxEvent.id (settled.map Settled.event))
    {w : Settled} (listed : w ∈ settled) (its : w.event = e) (settles : w.Sound emitter s)
    (events : List OutboxEvent) :
    (e.mark w.mark).Sound emitter { s with
      poll := none, events := events, failures := s.failures ++ failedIds settled } := by
  have below : e.attempts ≠ maxAttempts := by
    intro last
    have failed := sound.failed.mpr last
    rw [pending] at failed
    cases failed
  have bounded := sound.bounded
  have count := failedIds_count unique listed
  have counted := sound.counted
  obtain ⟨time, before, marked⟩ := settles.marked
  rw [its] at count marked
  cases result : emitter.emitAsync [emitter.wrap w.outcome] with
  | ok done =>
      rw [result] at marked
      rw [marked] at count ⊢
      constructor
      case published =>
        intro _
        have completed := settles.completed
        rw [its] at completed
        exact ⟨w.outcome, completed, result⟩
      case counted =>
        change e.attempts = (s.failures ++ failedIds settled).count e.id
        rw [List.count_append, count]
        exact counted
      case bounded => exact bounded
      case failed => exact iff_of_false (fun status => by cases status) below
      case known =>
        intro processing
        cases processing
      case soon =>
        intro published
        cases published
  | error error =>
      rw [result] at marked
      rw [marked] at count ⊢
      constructor
      case published =>
        intro status
        change (if maxAttempts ≤ e.attempts + 1 then _ else _) = _ at status
        split at status <;> cases status
      case counted =>
        change e.attempts + 1 = (s.failures ++ failedIds settled).count e.id
        rw [List.count_append, count, counted]
        rfl
      case bounded =>
        change e.attempts + 1 ≤ maxAttempts
        omega
      case failed =>
        change (if maxAttempts ≤ e.attempts + 1 then OutboxStatus.failed else .pending) = .failed ↔
          e.attempts + 1 = maxAttempts
        split
        · exact iff_of_true rfl (by omega)
        · exact iff_of_false (by decide) (by omega)
      case known =>
        change (if maxAttempts ≤ e.attempts + 1 then OutboxStatus.failed else .pending) ≠ _
        split <;> decide
      case soon =>
        intro _
        have delay := backoffDelayMs_le (e.attempts + 1)
        change time + backoffDelayMs (e.attempts + 1) ≤ s.now + maxBackoffMs
        omega

/-- A row that no mark is written to stays sound. -/
theorem unmarked_sound {e : OutboxEvent} (sound : e.Sound emitter s) {settled : List Settled}
    (other : ∀ w ∈ settled, w.event.id ≠ e.id) (events : List OutboxEvent) :
    e.Sound emitter { s with
      poll := none, events := events, failures := s.failures ++ failedIds settled } where
  published := sound.published
  counted := by
    change e.attempts = (s.failures ++ failedIds settled).count e.id
    rw [List.count_append, failedIds_other other]
    exact sound.counted
  bounded := sound.bounded
  failed := sound.failed
  known := sound.known
  soon := sound.soon

end Marks

section Steps

variable {emitter : Emitter} {adapters : Adapters} {s t : Publisher}

/-- A poll whose events are all settled has settled each of its batch, and no event twice. -/
theorem Poll.Sound.ended {p : Poll} (poll : p.Sound emitter s) (none : p.remaining = []) :
    p.settled.map Settled.event = p.batch ∧
      Table.Unique OutboxEvent.id (p.settled.map Settled.event) := by
  have split := poll.split
  rw [none, List.append_nil] at split
  refine ⟨split, ?_⟩
  rw [split]
  exact poll.unique

theorem commit_sound (sound : s.Sound emitter) (taken : s.commit = some t) : t.Sound emitter := by
  obtain ⟨p, held, none, rfl⟩ := commit_step taken
  have poll := sound.poll p held
  obtain ⟨split, unique⟩ := poll.ended none
  have ids : (s.events.map (writeMarks p.settled)).map OutboxEvent.id =
      s.events.map OutboxEvent.id := by
    rw [List.map_map]
    apply List.map_congr_left
    intro e _
    exact writeMarks_id p.settled e
  constructor
  case unique =>
    change ((s.events.map (writeMarks p.settled)).map OutboxEvent.id).Nodup
    rw [ids]
    exact sound.unique
  case issued =>
    intro e listed
    obtain ⟨before, stored, rfl⟩ := List.mem_map.mp listed
    rw [writeMarks_id]
    exact sound.issued before stored
  case failures =>
    intro id listed
    rcases List.mem_append.mp listed with old | new
    · exact sound.failures id old
    · obtain ⟨w, inside, rfl⟩ := List.mem_map.mp new
      have known := (List.mem_filter.mp inside).1
      have read : w.event ∈ p.batch := split ▸ List.mem_map_of_mem known
      exact sound.issued w.event (poll.stored w.event read).1
  case numbers => exact sound.numbers
  case deliveries =>
    intro d listed
    exact (sound.deliveries d listed).later
      ⟨Nat.le_refl _, Nat.le_refl _, fun _ same => same, le_refl _⟩
  case poll =>
    intro q running
    cases running
  case events =>
    intro e listed
    obtain ⟨before, stored, rfl⟩ := List.mem_map.mp listed
    rcases writeMarks_cases p.settled before with ⟨other, same⟩ | ⟨w, known, id, same⟩
    · rw [same]
      exact unmarked_sound (sound.events before stored) other _
    · have read : w.event ∈ p.batch := split ▸ List.mem_map_of_mem known
      obtain ⟨inside, pending⟩ := poll.stored w.event read
      have its : w.event = before :=
        List.inj_on_of_nodup_map sound.unique inside stored id
      rw [its] at pending
      rw [same]
      exact marked_sound (sound.events before stored) pending unique known its
        (poll.settled w known) _

theorem enqueue_sound (sound : s.Sound emitter) {id : Nat} {eventType : OutboxEventType}
    {aggregateType aggregateId : String} {payload : Payload}
    (taken : (s.step emitter adapters (.enqueue id eventType aggregateType aggregateId payload)) =
      some t) : t.Sound emitter := by
  obtain ⟨fresh, rfl⟩ := enqueue_step taken
  have later : Later s { s with
      events := s.events ++ [newEvent id eventType aggregateType aggregateId payload s.now]
      issued := s.issued ++ [id] } :=
    ⟨Nat.le_refl _, Nat.le_refl _, fun _ same => same, le_refl _⟩
  constructor
  case unique =>
    apply sound.unique.insert
    apply Table.findUnique_eq_none.mpr
    intro e stored same
    change e.id = id at same
    rw [← same] at fresh
    exact fresh (sound.issued e stored)
  case issued =>
    intro e listed
    rcases List.mem_append.mp listed with old | new
    · exact List.mem_append_left _ (sound.issued e old)
    · rw [List.mem_singleton.mp new]
      exact List.mem_append_right _ (List.mem_singleton_self _)
  case failures => exact fun other listed => List.mem_append_left _ (sound.failures other listed)
  case numbers => exact sound.numbers
  case deliveries => exact fun d listed => (sound.deliveries d listed).later later
  case poll =>
    intro p held
    have poll := sound.poll p held
    exact poll.later later (fun e stored _ => List.mem_append_left _ stored) poll.own
  case events =>
    intro e listed
    rcases List.mem_append.mp listed with old | new
    · exact (sound.events e old).later later rfl
    · rw [List.mem_singleton.mp new]
      constructor
      case published =>
        intro status
        cases status
      case counted =>
        change 0 = s.failures.count id
        exact (List.count_eq_zero.mpr fun among => fresh (sound.failures id among)).symm
      case bounded => exact Nat.zero_le _
      case failed =>
        exact iff_of_false (fun status => by cases status) (show 0 ≠ maxAttempts by decide)
      case known =>
        intro status
        cases status
      case soon =>
        intro _
        change s.now ≤ s.now + maxBackoffMs
        have positive : 0 ≤ maxBackoffMs := by decide
        omega

theorem beginPoll_sound (sound : s.Sound emitter) : s.beginPoll.Sound emitter := by
  rcases beginPoll_cases s with same | ⟨_, same⟩
  · rw [same]
    exact sound
  · rw [same]
    have later : Later s { s with
        poll := some ⟨s.polls, dueEvents s.events s.now, [], dueEvents s.events s.now⟩
        polls := s.polls + 1 } :=
      ⟨Nat.le_succ _, Nat.le_refl _, fun _ same => same, le_refl _⟩
    constructor
    case unique => exact sound.unique
    case issued => exact sound.issued
    case failures => exact sound.failures
    case numbers => exact sound.numbers
    case deliveries => exact fun d listed => (sound.deliveries d listed).later later
    case poll =>
      intro p held
      cases held
      constructor
      case serial => exact Nat.lt_succ_self _
      case split => rfl
      case stored =>
        intro e read
        obtain ⟨stored, due⟩ := dueEvents_mem read
        exact ⟨stored, of_decide_eq_true ((Bool.and_eq_true _ _).mp due).1⟩
      case unique => exact dueEvents_unique sound.unique s.now
      case own =>
        intro d listed its
        have before := (sound.deliveries d listed).serial
        rw [its] at before
        exact absurd before (Nat.lt_irrefl _)
      case settled =>
        intro w none
        cases none
    case events => exact fun e listed => (sound.events e listed).later later rfl

theorem emit_sound (sound : s.Sound emitter) (taken : s.emit = some t) : t.Sound emitter := by
  obtain ⟨p, e, rest, held, next, _, rfl⟩ := emit_step taken
  have poll := sound.poll p held
  have later : Later s { s with
      deliveries := s.deliveries ++ [⟨s.nextDelivery, p.serial, e, .listen, []⟩]
      nextDelivery := s.nextDelivery + 1 } :=
    ⟨Nat.le_refl _, Nat.le_succ _, fun _ same => same, le_refl _⟩
  constructor
  case unique => exact sound.unique
  case issued => exact sound.issued
  case failures => exact sound.failures
  case numbers =>
    apply sound.numbers.insert
    apply Table.findUnique_eq_none.mpr
    intro d known
    exact Nat.ne_of_lt (sound.deliveries d known).number
  case deliveries =>
    intro d listed
    rcases List.mem_append.mp listed with old | new
    · exact (sound.deliveries d old).later later
    · rw [List.mem_singleton.mp new]
      refine ⟨poll.serial, Nat.lt_succ_self _, fun c none => ?_, fun a none => ?_⟩
      · cases none
      · cases none
  case poll =>
    intro q running
    rw [held] at running
    cases running
    apply poll.later later fun e stored _ => stored
    intro d listed its
    rcases List.mem_append.mp listed with old | new
    · exact poll.own d old its
    · rw [List.mem_singleton.mp new, next]
      rfl
  case events => exact fun e listed => (sound.events e listed).later later rfl

theorem goOn_sound (sound : s.Sound emitter) {d : Delivery} (listed : d ∈ s.deliveries)
    {box : Mailbox} {handler : Handler} {answers : List Answer}
    (answered : Answered answers handler) : (s.goOn d box handler answers).Sound emitter := by
  have later : Later s (s.goOn d box handler answers) :=
    ⟨Nat.le_refl _, Nat.le_refl _, fun _ same => List.mem_append_left _ same, le_refl _⟩
  constructor
  case unique => exact sound.unique
  case issued => exact sound.issued
  case failures => exact sound.failures
  case numbers =>
    apply sound.numbers.rewrite
    intro other its
    exact (of_decide_eq_true its).symm
  case deliveries =>
    intro other known
    rcases goOn_mem known with ⟨old, _⟩ | rfl
    · exact (sound.deliveries other old).later later
    · have before := sound.deliveries d listed
      exact ⟨before.serial, before.number, fun c ends => List.mem_append_right _ ends, answered⟩
  case poll =>
    intro p held
    have poll := sound.poll p held
    apply poll.later later fun e stored _ => stored
    intro other known its
    rcases goOn_mem known with ⟨old, _⟩ | rfl
    · exact poll.own other old its
    · exact poll.own d listed its
  case events => exact fun e stored => (sound.events e stored).later later rfl

/-- An answer ends a handler only by its success. -/
theorem answered_cases (adapters : Adapters) (directory : Directory) (now : Int) (box : Mailbox)
    (e : OutboxEvent) {handler : Handler} (unfinished : handler.finished = false) :
    (handler.answered adapters directory now box e).2.finished = false ∨
      (handler.answered adapters directory now box e).2 = succeeded := by
  cases handler with
  | listen =>
      rw [Handler.answered]
      repeat' split
      all_goals first | exact .inl rfl | exact .inr rfl
  | recipients | existing =>
      rw [Handler.answered]
      dsimp only
      split
      · exact .inr rfl
      · exact .inl rfl
  | readContext | insert | dispatch => exact .inl rfl
  | done outcome => cases unfinished

theorem answered_of_held {answers : List Answer} (held : ∀ a ∈ answers, a.isHeld = true)
    {handler : Handler} (next : handler.finished = false ∨ handler = succeeded) :
    Answered answers handler := by
  rcases next with unfinished | rfl
  · cases handler with
    | done outcome => cases unfinished
    | listen | readContext | recipients | existing | insert | dispatch => exact held
  · exact iff_of_true rfl held

theorem unfinished_held {answers : List Answer} {handler : Handler}
    (answered : Answered answers handler) (unfinished : handler.finished = false) :
    ∀ a ∈ answers, a.isHeld = true := by
  cases handler with
  | done outcome => cases unfinished
  | listen | readContext | recipients | existing | insert | dispatch => exact answered

/-- A handler goes on with an answer, or ends with its error. -/
theorem handle_answered (directory : Directory) (now : Int) (box : Mailbox) (e : OutboxEvent)
    {handler : Handler} {answers : List Answer} (answer : Answer)
    (unfinished : handler.finished = false) (held : ∀ a ∈ answers, a.isHeld = true) :
    Answered (if handler.queries e then answers ++ [answer] else answers)
      (handler.handle adapters directory now box e answer).2 := by
  have next := answered_cases adapters directory now box e unfinished
  unfold Handler.handle
  cases queries : handler.queries e with
  | false => exact answered_of_held held next
  | true =>
      rw [if_pos rfl]
      cases answer with
      | held =>
          apply answered_of_held _ next
          intro a listed
          rcases List.mem_append.mp listed with old | new
          · exact held a old
          · rw [List.mem_singleton.mp new]
            rfl
      | failed error | lost error =>
          apply iff_of_false
          · intro same
            cases same
          · intro all
            have last := all _ (List.mem_append_right _ (List.mem_singleton_self _))
            cases last

theorem handle_sound (sound : s.Sound emitter) {number : Nat} {answer : Answer}
    (taken : s.handle adapters number answer = some t) : t.Sound emitter := by
  obtain ⟨d, listed, unfinished, rfl⟩ := handle_step taken
  have held := unfinished_held (sound.deliveries d listed).answered unfinished
  exact goOn_sound sound listed (handle_answered _ _ _ _ _ unfinished held)

theorem deliver_sound (sound : s.Sound emitter) {number : Nat} {result : DispatchResult}
    (taken : s.deliver number result = some t) : t.Sound emitter := by
  obtain ⟨d, listed, rows, handler, rfl⟩ := deliver_step taken
  have answered := (sound.deliveries d listed).answered
  rw [handler] at answered
  apply goOn_sound sound listed
  apply answered_of_held answered
  cases rows with
  | nil => exact .inr rfl
  | cons row rows => exact .inl rfl

/-- Without some of the deliveries, everything else as it was. -/
theorem without_sound (sound : s.Sound emitter) (kept : Delivery → Bool) :
    ({ s with deliveries := s.deliveries.filter kept } : Publisher).Sound emitter := by
  have later : Later s { s with deliveries := s.deliveries.filter kept } :=
    ⟨Nat.le_refl _, Nat.le_refl _, fun _ same => same, le_refl _⟩
  constructor
  case unique => exact sound.unique
  case issued => exact sound.issued
  case failures => exact sound.failures
  case numbers => exact List.Nodup.sublist (List.filter_sublist.map _) sound.numbers
  case deliveries =>
    exact fun d listed => (sound.deliveries d (List.mem_filter.mp listed).1).later later
  case poll =>
    intro p held
    have poll := sound.poll p held
    exact poll.later later (fun e stored _ => stored)
      fun d listed => poll.own d (List.mem_filter.mp listed).1
  case events => exact fun e stored => (sound.events e stored).later later rfl

theorem settle_sound (sound : s.Sound emitter) (taken : s.settle emitter = some t) :
    t.Sound emitter := by
  obtain ⟨p, e, rest, d, outcome, held, next, found, ended, rfl⟩ := settle_step taken
  have poll := sound.poll p held
  obtain ⟨listed, its⟩ := current_mem found
  have head := poll.own d listed its
  rw [next] at head
  have event : e = d.event := Option.some.inj head
  have delivery := sound.deliveries d listed
  have without := without_sound sound fun other => decide (other.poll ≠ p.serial)
  refine ⟨without.unique, without.issued, without.failures, without.numbers, ?_, ?_, ?_⟩
  · intro other known
    have before := without.deliveries other known
    exact ⟨before.serial, before.number, before.finished, before.answered⟩
  · intro q running
    cases running
    constructor
    case serial => exact poll.serial
    case split =>
      have split := poll.split
      rw [next] at split
      rw [← split, List.map_append, List.append_assoc]
      rfl
    case stored => exact poll.stored
    case unique => exact poll.unique
    case own =>
      intro other known same
      have apart := (List.mem_filter.mp known).2
      exact absurd same (of_decide_eq_true apart)
    case settled =>
      intro w inside
      rcases List.mem_append.mp inside with old | new
      · have before := poll.settled w old
        exact ⟨before.completed, before.answered, before.marked⟩
      · rw [List.mem_singleton.mp new]
        have completed := delivery.finished
        have answered := delivery.answered
        rw [ended] at completed answered
        refine ⟨?_, answered, s.now, le_refl _, rfl⟩
        rw [event]
        exact completed _ (List.mem_singleton_self _)
  · intro other stored
    have before := without.events other stored
    exact ⟨before.published, before.counted, before.bounded, before.failed, before.known,
      before.soon⟩

theorem abandon_sound (sound : s.Sound emitter) {number : Nat}
    (taken : s.abandon number = some t) : t.Sound emitter := by
  obtain ⟨_, _, _, _, rfl⟩ := abandon_step taken
  exact without_sound sound _

/-- The poll ends, rows that are not pending go, or time passes. -/
theorem kept_sound (sound : s.Sound emitter) (kept : OutboxEvent → Bool)
    (pending : ∀ e : OutboxEvent, e.status = .pending → kept e = true) (poll : Option Poll)
    (less : ∀ p, poll = some p → s.poll = some p) (directory : Directory) (ms : Nat) :
    ({ s with
      events := s.events.filter kept
      poll := poll
      directory := directory
      now := s.now + ms } : Publisher).Sound emitter := by
  have later : Later s { s with
      events := s.events.filter kept
      poll := poll
      directory := directory
      now := s.now + ms } :=
    ⟨Nat.le_refl _, Nat.le_refl _, fun _ same => same, Int.le_add_of_nonneg_right (by omega)⟩
  constructor
  case unique => exact List.Nodup.sublist (List.filter_sublist.map _) sound.unique
  case issued => exact fun e stored => sound.issued e (List.mem_filter.mp stored).1
  case failures => exact sound.failures
  case numbers => exact sound.numbers
  case deliveries => exact fun d listed => (sound.deliveries d listed).later later
  case poll =>
    intro p held
    have before := sound.poll p (less p held)
    exact before.later later
      (fun e stored waits => List.mem_filter.mpr ⟨stored, pending e waits⟩) before.own
  case events =>
    exact fun e stored => (sound.events e (List.mem_filter.mp stored).1).later later rfl

theorem step_sound (sound : s.Sound emitter) {label : PublisherLabel}
    (taken : s.step emitter adapters label = some t) : t.Sound emitter := by
  have all (poll : Option Poll) (less : ∀ p, poll = some p → s.poll = some p)
      (directory : Directory) (ms : Nat) : ({ s with
        poll := poll, directory := directory, now := s.now + ms } : Publisher).Sound emitter := by
    have kept := kept_sound sound (fun _ => true) (fun _ _ => rfl) poll less directory ms
    rw [List.filter_true] at kept
    exact kept
  cases label with
  | enqueue id eventType aggregateType aggregateId payload => exact enqueue_sound sound taken
  | beginPoll =>
      cases taken
      exact beginPoll_sound sound
  | emit => exact emit_sound sound taken
  | handle number answer => exact handle_sound sound taken
  | deliver number result => exact deliver_sound sound taken
  | settle => exact settle_sound sound taken
  | commit => exact commit_sound sound taken
  | rollback =>
      obtain ⟨p, _, rfl⟩ := Option.map_eq_some_iff.mp taken
      have ended := all none (fun p none => by cases none) s.directory 0
      rw [Int.natCast_zero, Int.add_zero] at ended
      exact ended
  | abandon number => exact abandon_sound sound taken
  | cleanup =>
      cases taken
      have cleaned := kept_sound sound (fun e => e.retained s.now)
        (fun e pending => by simp [OutboxEvent.retained, pending]) s.poll (fun _ same => same)
        s.directory 0
      rw [Int.natCast_zero, Int.add_zero] at cleaned
      exact cleaned
  | setDirectory directory =>
      cases taken
      have read := all s.poll (fun _ same => same) directory 0
      rw [Int.natCast_zero, Int.add_zero] at read
      exact read
  | wait ms =>
      cases taken
      exact all s.poll (fun _ same => same) s.directory ms

theorem Publisher.Initial.sound (initial : s.Initial) : s.Sound emitter := by
  constructor
  case unique =>
    rw [initial.events]
    exact List.nodup_nil
  case issued => simp [initial.events]
  case failures => simp [initial.failures]
  case numbers =>
    rw [initial.deliveries]
    exact List.nodup_nil
  case deliveries => simp [initial.deliveries]
  case poll => simp [initial.poll]
  case events => simp [initial.events]

end Steps

/-- Reachable by steps of any kind. -/
theorem reachable_sound {emitter : Emitter} {adapters : Adapters}
    {guard : Publisher → PublisherLabel → Prop} {s : Publisher}
    (reached : (publisher emitter adapters).ReachableWhile guard s) : s.Sound emitter := by
  apply reached.invariant (Publisher.Sound emitter)
  · intro s initial
    exact initial.sound
  · intro s label t sound _ taken
    exact step_sound sound taken

end Farzin.Outbox
