import Farzin.OutboxOrder

set_option autoImplicit false

/- Whether an event that waits for its retry is overtaken by a later one of its aggregate. As a poll
takes the events that are due by their ids, nothing else breaks the order of publication. -/
namespace Farzin.Outbox

open Transition

/-- A delivery has failed, and the event waits for its retry. -/
def OutboxEvent.PutOff (e : OutboxEvent) : Prop := e.status = .pending ∧ 0 < e.attempts

instance decidablePutOff (e : OutboxEvent) : Decidable e.PutOff :=
  inferInstanceAs (Decidable (e.status = .pending ∧ 0 < e.attempts))

/-- No event is put off while the poll publishes a later one of its aggregate. -/
def Chronicle.NoneOvertaken (c : Chronicle) : PublisherLabel → Prop
  | .commit => ∀ p ∈ c.publisher.poll, ∀ w ∈ p.settled, w.mark.isPublished →
      ∀ e ∈ c.publisher.events, e.aggregate = w.event.aggregate → e.id < w.event.id →
        ¬ (writeMarks p.settled e).PutOff
  | _ => True

instance decidableNoneOvertaken (c : Chronicle) :
    (label : PublisherLabel) → Decidable (c.NoneOvertaken label)
  | .commit => inferInstanceAs (Decidable (∀ p ∈ c.publisher.poll, ∀ w ∈ p.settled,
      w.mark.isPublished → ∀ e ∈ c.publisher.events, e.aggregate = w.event.aggregate →
        e.id < w.event.id → ¬ (writeMarks p.settled e).PutOff))
  | .enqueue _ _ _ _ _ | .beginPoll | .emit | .handle _ _ | .deliver _ _ | .settle | .rollback
  | .abandon _ | .cleanup | .setDirectory _ | .wait _ => .isTrue trivial

/-- The events of an aggregate get ascending ids, as those of one clock do. -/
def Chronicle.Ascends (c : Chronicle) : PublisherLabel → Prop
  | .enqueue id _ aggregateType aggregateId _ =>
      ∀ e ∈ c.enqueued, e.aggregate = (aggregateType, aggregateId) → e.id < id
  | _ => True

instance decidableAscends (c : Chronicle) :
    (label : PublisherLabel) → Decidable (c.Ascends label)
  | .enqueue id _ aggregateType aggregateId _ => inferInstanceAs (Decidable
      (∀ e ∈ c.enqueued, e.aggregate = (aggregateType, aggregateId) → e.id < id))
  | .beginPoll | .emit | .handle _ _ | .deliver _ _ | .settle | .commit | .rollback | .abandon _
  | .cleanup | .setDirectory _ | .wait _ => .isTrue trivial

/-- An event that comes before another of its aggregate stands before it in every batch that has
read the other one, unless it has been put off. -/
structure Chronicle.Ordered (c : Chronicle) : Prop where
  ascending : c.enqueued.Pairwise fun first second =>
    first.aggregate = second.aggregate → first.id < second.id
  due : ∀ e ∈ c.publisher.events, e.attempts = 0 → e.availableAt ≤ c.publisher.now
  read : ∀ p ∈ c.publisher.poll, ∀ front other back, p.batch = front ++ other :: back →
    ∀ e ∈ c.publisher.events, e.status = .pending → e.aggregate = other.aggregate →
      e.id < other.id → e ∈ front ∨ e ∉ p.batch ∧ 0 < e.attempts

section Batches

variable {events : List OutboxEvent} {now : Int}

theorem dueEvents_of_due {e other : OutboxEvent} {front back : List OutboxEvent}
    (batch : dueEvents events now = front ++ other :: back) (stored : e ∈ events)
    (due : e.due now = true) (before : e.id < other.id) : e ∈ front := by
  have sorted := List.pairwise_insertionSort (fun a b : OutboxEvent => a.id ≤ b.id)
    (events.filter fun e => e.due now)
  have listed := (List.perm_insertionSort (fun a b : OutboxEvent => a.id ≤ b.id)
    (events.filter fun e => e.due now)).mem_iff.mpr (List.mem_filter.mpr ⟨stored, due⟩)
  have whole := List.take_append_drop batchSize
    ((events.filter fun e => e.due now).insertionSort fun a b => a.id ≤ b.id)
  unfold dueEvents at batch
  rw [batch, List.append_assoc, List.cons_append] at whole
  rw [← whole] at sorted listed
  rcases List.mem_append.mp listed with earlier | later
  · exact earlier
  · -- what comes after the other one has no smaller id
    exfalso
    have last := (List.pairwise_append.mp sorted).2.1
    rcases List.mem_cons.mp later with rfl | further
    · exact lt_irrefl _ before
    · have most := List.rel_of_pairwise_cons last further
      omega

/-- An event that has never failed is due, and so it is read in its turn. -/
theorem dueEvents_order (waiting : ∀ e ∈ events, e.attempts = 0 → e.availableAt ≤ now)
    {e other : OutboxEvent} {front back : List OutboxEvent}
    (batch : dueEvents events now = front ++ other :: back) (stored : e ∈ events)
    (pending : e.status = .pending) (before : e.id < other.id) :
    e ∈ front ∨ e ∉ dueEvents events now ∧ 0 < e.attempts := by
  by_cases due : e.due now = true
  · exact .inl (dueEvents_of_due batch stored due before)
  · refine .inr ⟨fun read => due (dueEvents_mem read).2, Nat.pos_of_ne_zero fun none => due ?_⟩
    have ready := waiting e stored none
    simp [OutboxEvent.due, pending, ready]

end Batches

section Steps

variable {emitter : Emitter} {adapters : Adapters} {c : Chronicle} {next : Publisher}

theorem Chronicle.Ordered.moved (ordered : c.Ordered) (endings : List Ending)
    (events : next.events ⊆ c.publisher.events) (now : c.publisher.now ≤ next.now)
    (polls : ∀ p ∈ next.poll, ∃ q ∈ c.publisher.poll, q.batch = p.batch) :
    Chronicle.Ordered ⟨next, c.enqueued, endings⟩ where
  ascending := ordered.ascending
  due e stored none := (ordered.due e (events stored) none).trans now
  read p held front other back batch e stored := by
    obtain ⟨q, before, same⟩ := polls p held
    rw [← same] at batch ⊢
    exact ordered.read q before front other back batch e (events stored)

theorem Chronicle.Ordered.enqueue (ordered : c.Ordered) (sound : c.Sound emitter) {id : Nat}
    {eventType : OutboxEventType} {aggregateType aggregateId : String} {payload : Payload}
    (ascends : c.Ascends (.enqueue id eventType aggregateType aggregateId payload))
    (issued : List Nat) :
    Chronicle.Ordered ⟨{ c.publisher with
        events := c.publisher.events ++
          [newEvent id eventType aggregateType aggregateId payload c.publisher.now]
        issued := issued },
      c.enqueued ++ [newEvent id eventType aggregateType aggregateId payload c.publisher.now],
      c.endings⟩ where
  ascending := by
    refine List.pairwise_append.mpr ⟨ordered.ascending, List.pairwise_singleton _ _, ?_⟩
    intro first old second new aggregate
    rw [List.mem_singleton.mp new] at aggregate ⊢
    exact ascends first old aggregate
  due e stored none := by
    rcases List.mem_append.mp stored with old | new
    · exact ordered.due e old none
    · rw [List.mem_singleton.mp new]
      exact le_rfl
  read p held front other back batch e stored pending aggregate before := by
    rcases List.mem_append.mp stored with old | new
    · exact ordered.read p held front other back batch e old pending aggregate before
    · -- the new event comes after all of its aggregate
      exfalso
      rw [List.mem_singleton.mp new] at aggregate before
      have row := ((sound.publisher.poll p held).stored other (by simp [batch])).1
      obtain ⟨first, enqueued, same, its⟩ := sound.rows other row
      have later := ascends first enqueued (its.trans aggregate.symm)
      rw [same] at later
      exact lt_asymm before later

theorem Chronicle.Ordered.beginPoll (ordered : c.Ordered) (endings : List Ending) :
    Chronicle.Ordered ⟨c.publisher.beginPoll, c.enqueued, endings⟩ := by
  rcases beginPoll_cases c.publisher with same | ⟨_, begun⟩
  · rw [same]
    exact ordered.moved endings (fun _ stored => stored) le_rfl fun p held => ⟨p, held, rfl⟩
  · rw [begun]
    refine ⟨ordered.ascending, ordered.due, ?_⟩
    intro p held front other back batch e stored pending _ before
    cases held
    exact dueEvents_order ordered.due batch stored pending before

/-- A commit leaves no poll, and whatever it marks as failed counts the attempt. -/
theorem Chronicle.Ordered.commit (ordered : c.Ordered) (sound : c.Sound emitter)
    (taken : c.publisher.commit = some next) (endings : List Ending) :
    Chronicle.Ordered ⟨next, c.enqueued, endings⟩ := by
  obtain ⟨p, held, -, rfl⟩ := commit_step taken
  refine ⟨ordered.ascending, fun e marked none => ?_, fun _ none => by cases none⟩
  obtain ⟨before, stored, rfl⟩ := List.mem_map.mp marked
  rcases writeMarks_cases p.settled before with ⟨_, same⟩ | ⟨w, listed, _, same⟩
  · rw [same] at none ⊢
    exact ordered.due before stored none
  · obtain ⟨time, _, mark⟩ := ((sound.publisher.poll p held).settled w listed).marked
    rw [same, mark] at none ⊢
    unfold OutboxEvent.markFor at none ⊢
    split
    · rename_i passed
      rw [passed] at none
      exact ordered.due before stored none
    · rename_i error failed
      rw [failed] at none
      cases none

/-- No other step makes a poll read anything. -/
theorem batch_step {label : PublisherLabel} {s t : Publisher}
    (taken : s.step emitter adapters label = some t)
    (new : ∀ id eventType aggregateType aggregateId payload,
      label ≠ .enqueue id eventType aggregateType aggregateId payload)
    (ends : label ≠ .commit) (begins : label ≠ .beginPoll) :
    s.now ≤ t.now ∧ ∀ p ∈ t.poll, ∃ q ∈ s.poll, q.batch = p.batch := by
  cases label with
  | enqueue id eventType aggregateType aggregateId payload => exact absurd rfl (new _ _ _ _ _)
  | commit => exact absurd rfl ends
  | beginPoll => exact absurd rfl begins
  | emit =>
      obtain ⟨_, _, _, _, _, _, rfl⟩ := emit_step taken
      exact ⟨le_rfl, fun p held => ⟨p, held, rfl⟩⟩
  | handle number answer =>
      obtain ⟨_, _, _, rfl⟩ := handle_step taken
      exact ⟨le_rfl, fun p held => ⟨p, held, rfl⟩⟩
  | deliver number result =>
      obtain ⟨_, _, _, _, rfl⟩ := deliver_step taken
      exact ⟨le_rfl, fun p held => ⟨p, held, rfl⟩⟩
  | settle =>
      obtain ⟨p, _, _, _, _, held, _, _, _, rfl⟩ := settle_step taken
      refine ⟨le_rfl, fun q same => ⟨p, held, ?_⟩⟩
      cases same
      rfl
  | rollback =>
      obtain ⟨_, _, rfl⟩ := Option.map_eq_some_iff.mp taken
      exact ⟨le_rfl, fun _ none => by cases none⟩
  | abandon number =>
      obtain ⟨_, _, _, _, rfl⟩ := abandon_step taken
      exact ⟨le_rfl, fun p held => ⟨p, held, rfl⟩⟩
  | cleanup | setDirectory =>
      cases taken
      exact ⟨le_rfl, fun p held => ⟨p, held, rfl⟩⟩
  | wait ms =>
      cases taken
      exact ⟨by simp, fun p held => ⟨p, held, rfl⟩⟩

theorem Chronicle.Ordered.step (ordered : c.Ordered) (sound : c.Sound emitter)
    {label : PublisherLabel} (ascends : c.Ascends label)
    (taken : c.publisher.step emitter adapters label = some next) :
    Chronicle.Ordered ⟨next, c.enqueued ++ label.enqueues c.publisher.now,
      c.endings ++ c.publisher.endings label⟩ := by
  by_cases new : ∃ id eventType aggregateType aggregateId payload,
      label = .enqueue id eventType aggregateType aggregateId payload
  · obtain ⟨id, eventType, aggregateType, aggregateId, payload, rfl⟩ := new
    obtain ⟨_, rfl⟩ := enqueue_step taken
    simp only [Publisher.endings, PublisherLabel.enqueues, List.append_nil]
    exact ordered.enqueue sound ascends _
  · push Not at new
    by_cases ends : label = .commit
    · subst ends
      simp only [PublisherLabel.enqueues, List.append_nil]
      exact ordered.commit sound taken _
    · obtain ⟨enqueues, endings⟩ := quiet c.publisher new ends
      rw [enqueues, endings, List.append_nil, List.append_nil]
      by_cases begins : label = .beginPoll
      · subst begins
        cases taken
        exact ordered.beginPoll c.endings
      · obtain ⟨_, events, _⟩ := rows_step taken new ends
        obtain ⟨now, polls⟩ := batch_step taken new ends begins
        exact ordered.moved c.endings events.subset now polls

end Steps

section Order

variable {emitter : Emitter} {c : Chronicle}

/-- Of two events one comes first. -/
theorem pair_sublist {α : Type} {l : List α} {a b : α} (first : a ∈ l) (second : b ∈ l)
    (apart : a ≠ b) : [a, b].Sublist l ∨ [b, a].Sublist l := by
  obtain ⟨front, back, rfl⟩ := List.append_of_mem first
  rcases List.mem_append.mp second with before | after
  · right
    exact (List.singleton_sublist.mpr before).append
      (List.singleton_sublist.mpr List.mem_cons_self)
  · left
    rcases List.mem_cons.mp after with same | later
    · exact absurd same.symm apart
    · exact ((List.singleton_sublist.mpr later).cons_cons a).trans
        (List.sublist_append_right front _)

/-- Within an aggregate the events come in the order of their ids. -/
theorem Chronicle.Ordered.before_iff (ordered : c.Ordered) (sound : c.Sound emitter)
    {e other : OutboxEvent} (stored : e ∈ c.publisher.events) (there : other ∈ c.publisher.events)
    (aggregate : e.aggregate = other.aggregate) :
    [e.id, other.id].Sublist c.publisher.issued ↔ e.id < other.id := by
  obtain ⟨first, enqueued, firstId, firstAggregate⟩ := sound.rows e stored
  obtain ⟨second, known, secondId, secondAggregate⟩ := sound.rows other there
  have together : first.aggregate = second.aggregate := by
    rw [firstAggregate, aggregate, secondAggregate]
  rw [← firstId, ← secondId, sound.before_iff enqueued known]
  constructor
  · intro listed
    have pair := ordered.ascending.sublist listed
    exact List.rel_of_pairwise_cons pair (List.mem_singleton_self second) together
  · intro less
    have apart : first ≠ second := by
      rintro rfl
      exact lt_irrefl _ less
    rcases pair_sublist enqueued known apart with listed | listed
    · exact listed
    · have pair := ordered.ascending.sublist listed
      have more := List.rel_of_pairwise_cons pair (List.mem_singleton_self first) together.symm
      exact absurd less (Nat.lt_asymm more)

/-- An event that its poll has failed, but not for good, is put off. -/
theorem putOff_of_failed (sound : c.Sound emitter) {p : Poll} (held : c.publisher.poll = some p)
    {w : Settled} (listed : w ∈ p.settled) (goesOn : w.ending = none) :
    (writeMarks p.settled w.event).PutOff := by
  have same : writeMarks p.settled w.event = w.event.mark w.mark := by
    rcases writeMarks_cases p.settled w.event with ⟨other, _⟩ | ⟨its, known, id, same⟩
    · exact absurd rfl (other w listed)
    · have alone : its = w := List.inj_on_of_nodup_map (sound.unique held) known listed id
      rw [same, alone]
  rw [same]
  refine ⟨(mark_pending w.event).mpr goesOn, ?_⟩
  obtain ⟨time, _, mark⟩ := ((sound.publisher.poll p held).settled w listed).marked
  unfold Settled.ending at goesOn
  rw [mark] at goesOn ⊢
  unfold OutboxEvent.markFor at goesOn ⊢
  split
  · rename_i passed
    rw [passed] at goesOn
    cases goesOn
  · exact Nat.succ_pos _

/-- What a poll has not read, it does not mark. -/
theorem writeMarks_unread (sound : c.Sound emitter) {p : Poll} (held : c.publisher.poll = some p)
    {e : OutboxEvent} (stored : e ∈ c.publisher.events) (unread : e ∉ p.batch) :
    writeMarks p.settled e = e := by
  rcases writeMarks_cases p.settled e with ⟨_, same⟩ | ⟨w, listed, id, _⟩
  · exact same
  · have poll := sound.publisher.poll p held
    have read : w.event ∈ p.batch := by
      rw [← poll.split]
      exact List.mem_append_left _ (List.mem_map_of_mem listed)
    have row := (poll.stored w.event read).1
    have its : w.event = e := List.inj_on_of_nodup_map sound.publisher.unique row stored id
    rw [its] at read
    exact absurd read unread

/-- Where none is overtaken, each earlier event of the aggregate has been read and settled first. -/
theorem permits_of_noneOvertaken (sound : c.Sound emitter) (ordered : c.Ordered)
    (none : c.NoneOvertaken .commit) : c.Permits .commit := by
  intro p held w listed published e stored pending aggregate ids
  obtain ⟨row, _, _⟩ := sound.settled held listed
  have before := (ordered.before_iff sound stored row aggregate).mp ids
  have stays := none p held w listed published e stored aggregate before
  obtain ⟨front, back, split⟩ := List.append_of_mem listed
  have batch : p.batch = front.map Settled.event ++
      w.event :: (back.map Settled.event ++ p.remaining) := by
    rw [← (sound.publisher.poll p held).split, split]
    simp
  rcases ordered.read p held _ w.event _ batch e stored pending aggregate before with
    read | ⟨unread, failed⟩
  · obtain ⟨other, earlier, rfl⟩ := List.mem_map.mp read
    have settled : other ∈ p.settled := by
      rw [split]
      exact List.mem_append_left _ earlier
    refine ⟨other, ?_, rfl, ?_⟩
    · have unique := sound.unique held
      rw [split, Table.Unique, List.map_append, List.nodup_append] at unique
      rw [split, List.takeWhile_append_of_pos]
      · exact List.mem_append_left _ earlier
      · intro first inFront
        apply decide_eq_true
        exact unique.2.2 _ (List.mem_map_of_mem inFront) _ (List.mem_map_of_mem List.mem_cons_self)
    · rw [Option.isSome_iff_ne_none]
      intro goesOn
      exact stays (putOff_of_failed sound held settled goesOn)
  · rw [writeMarks_unread sound held stored unread] at stays
    exact absurd ⟨pending, failed⟩ stays

/-- An event that is overtaken has not ended in its poll. -/
theorem noneOvertaken_of_permits (sound : c.Sound emitter) (ordered : c.Ordered)
    (permitted : c.Permits .commit) : c.NoneOvertaken .commit := by
  intro p held w listed published e stored aggregate before off
  obtain ⟨row, _, _⟩ := sound.settled held listed
  have ids := (ordered.before_iff sound stored row aggregate).mpr before
  have waits := (waits_commit sound held (sound.unique held) e.id).mp
    ⟨writeMarks p.settled e, List.mem_map_of_mem stored, writeMarks_id _ _, off.1⟩
  obtain ⟨⟨known, there, id, pending⟩, still⟩ := waits
  have same : known = e := List.inj_on_of_nodup_map sound.publisher.unique there stored id
  rw [same] at pending
  obtain ⟨other, earlier, its, ends⟩ :=
    permitted p held w listed published e stored pending aggregate ids
  rw [still other ((List.takeWhile_sublist _).subset earlier) its] at ends
  cases ends

/-- While the ids of every aggregate ascend, its events are published in the order in which they
were enqueued, but for those that have failed for good, exactly when no poll that commits has
published an event while an earlier one of its aggregate was put off. -/
theorem published_in_order_iff (emitter : Emitter) (adapters : Adapters) (start after : Chronicle)
    (labels : List PublisherLabel) (initial : start.Initial)
    (ran : (chronicle emitter adapters).run start labels = some after)
    (ascends : System.Guarded Chronicle.Ascends (chronicle emitter adapters) start labels) :
    System.Always (chronicle emitter adapters) Chronicle.InOrder start labels ↔
      System.Guarded Chronicle.NoneOvertaken (chronicle emitter adapters) start labels := by
  have begins : start.Sound emitter ∧ start.Ordered := by
    refine ⟨initial.sound, ?_, ?_, ?_⟩
    · rw [initial.enqueued]
      exact List.Pairwise.nil
    · simp [initial.publisher.events]
    · simp [initial.publisher.poll]
  have kept (guard : Chronicle → PublisherLabel → Prop) (c : Chronicle) (label : PublisherLabel)
      (t : Chronicle) (holds : c.Sound emitter ∧ c.Ordered)
      (allowed : c.Ascends label ∧ guard c label)
      (taken : (chronicle emitter adapters).step c label = some t) :
      t.Sound emitter ∧ t.Ordered := by
    obtain ⟨next, moved, rfl⟩ := Option.map_eq_some_iff.mp taken
    exact ⟨holds.1.step moved, holds.2.step holds.1 allowed.1 moved⟩
  rw [inOrder_iff_permits emitter adapters start after labels initial ran]
  constructor
  · intro permitted
    apply (ascends.and permitted).under _ (kept Chronicle.Permits) _ begins
    intro c label holds allowed
    cases label with
    | commit => exact noneOvertaken_of_permits holds.1 holds.2 allowed.2
    | enqueue | beginPoll | emit | handle | deliver | settle | rollback | abandon | cleanup
    | setDirectory | wait => trivial
  · intro none
    apply (ascends.and none).under _ (kept Chronicle.NoneOvertaken) _ begins
    intro c label holds allowed
    cases label with
    | commit => exact permits_of_noneOvertaken holds.1 holds.2 allowed.2
    | enqueue | beginPoll | emit | handle | deliver | settle | rollback | abandon | cleanup
    | setDirectory | wait => trivial

end Order

section Runs

/-- The invoice `i` is of the first player. -/
def invoiceOfOne : Directory :=
  { sectionOfTwo with
    invoiceRecipient := fun id => if id = "i" then some ⟨some 1, "INV-1"⟩ else none }

def newChronicle : Chronicle := ⟨{ noEvents with directory := invoiceOfOne }, [], []⟩

theorem newChronicle_initial : newChronicle.Initial := ⟨⟨rfl, rfl, rfl, rfl, rfl⟩, rfl, rfl, rfl⟩

def enqueuePayment : PublisherLabel :=
  .enqueue 0 .paymentCompleted "Payment" "p"
    [("paymentId", .text "p"), ("invoiceId", .text "i"), ("provider", .text "CLICK"),
      ("amountTiyin", .text "5000000"), ("currency", .text "UZS")]

def enqueueRefund : PublisherLabel :=
  .enqueue 1 .refundIssued "Payment" "p"
    [("paymentId", .text "p"), ("invoiceId", .text "i"), ("amountTiyin", .text "5000000"),
      ("currency", .text "UZS"), ("reason", .text "tournament cancelled")]

/-- The handler tells the player and comes to its end. -/
def delivered (number : Nat) : List PublisherLabel :=
  [.emit, .handle number .held, .handle number .held, .handle number .held, .handle number .held,
    .deliver number .sent, .deliver number .logged, .settle]

/-- One poll delivers the payment and then its refund. -/
def bothDelivered : List PublisherLabel :=
  [enqueuePayment, enqueueRefund, .beginPoll] ++ delivered 0 ++ delivered 1 ++ [.commit]

/-- The delivery of the payment fails and is put off; that of the refund goes on. -/
def paymentPutOff : List PublisherLabel :=
  [enqueuePayment, enqueueRefund, .beginPoll, .emit, .handle 0 (.failed "connection closed"),
    .settle] ++ delivered 1 ++ [.commit]

theorem bothDelivered_in_order :
    System.Always (chronicle strictEmitter inAppOnly) Chronicle.InOrder newChronicle
      bothDelivered := by
  have ran : ((chronicle strictEmitter inAppOnly).run newChronicle bothDelivered).map
      Chronicle.endings = some [⟨0, true⟩, ⟨1, true⟩] := by decide +kernel
  obtain ⟨after, ran, _⟩ := Option.map_eq_some_iff.mp ran
  exact (published_in_order_iff strictEmitter inAppOnly newChronicle after bothDelivered
    newChronicle_initial ran (by decide +kernel)).mpr (by decide +kernel)

theorem refund_published_first :
    ∃ after, (chronicle strictEmitter inAppOnly).run newChronicle paymentPutOff = some after ∧
      after.endings = [⟨1, true⟩] ∧ after.publisher.events.map OutboxEvent.status =
        [.pending, .published] ∧ ¬ after.InOrder := by
  have ran : ((chronicle strictEmitter inAppOnly).run newChronicle paymentPutOff).map
      (fun c => (c.endings, c.publisher.events.map OutboxEvent.status,
        c.enqueued.map fun e => (e.id, e.aggregate))) =
      some ([⟨1, true⟩], [.pending, .published],
        [(0, ("Payment", "p")), (1, ("Payment", "p"))]) := by decide +kernel
  obtain ⟨after, ran, same⟩ := Option.map_eq_some_iff.mp ran
  simp only [Prod.mk.injEq] at same
  obtain ⟨endings, statuses, enqueued⟩ := same
  refine ⟨after, ran, endings, statuses, fun inOrder => ?_⟩
  obtain ⟨first, rest, whole, one, others⟩ := List.map_eq_cons_iff.mp enqueued
  obtain ⟨second, more, its, two, _⟩ := List.map_eq_cons_iff.mp others
  rw [Prod.mk.injEq] at one two
  have listed : [first, second].Sublist after.enqueued := by
    rw [whole, its]
    exact ((List.nil_sublist more).cons_cons second).cons_cons first
  obtain ⟨x, earlier, _⟩ := inOrder first (listed.subset (by simp)) second
    (listed.subset (by simp)) listed (one.2.trans two.2.symm) (by simp [endings, two.1])
  simp [endings, two.1] at earlier

end Runs

end Farzin.Outbox
