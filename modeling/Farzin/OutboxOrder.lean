import Farzin.OutboxGuarantee

set_option autoImplicit false

/- The order in which the events of one aggregate are published. The publisher is followed by a
chronicle of what has been enqueued and of how events have ended, each in its order. -/
namespace Farzin.Outbox

open Transition

def OutboxEvent.aggregate (e : OutboxEvent) : String × String := (e.aggregateType, e.aggregateId)

/-- An event ends when it is published or has failed for good. -/
structure Ending where
  eventId : Nat
  isPublished : Bool
  deriving DecidableEq, Repr

def Settled.ending (w : Settled) : Option Ending :=
  match w.mark with
  | .published _ => some ⟨w.event.id, true⟩
  | .failed attempts _ _ => if maxAttempts ≤ attempts then some ⟨w.event.id, false⟩ else none

/-- The endings that a step commits, in the order in which the poll has come to them. -/
def Publisher.endings (s : Publisher) : PublisherLabel → List Ending
  | .commit => (s.poll.elim [] Poll.settled).filterMap Settled.ending
  | _ => []

def PublisherLabel.enqueues (now : Int) : PublisherLabel → List OutboxEvent
  | .enqueue id eventType aggregateType aggregateId payload =>
      [newEvent id eventType aggregateType aggregateId payload now]
  | _ => []

structure Chronicle where
  publisher : Publisher
  enqueued : List OutboxEvent
  endings : List Ending

structure Chronicle.Initial (c : Chronicle) : Prop where
  publisher : c.publisher.Initial
  issued : c.publisher.issued = []
  enqueued : c.enqueued = []
  endings : c.endings = []

def chronicle (emitter : Emitter) (adapters : Adapters) : System Chronicle PublisherLabel where
  initial := Chronicle.Initial
  step c label := (c.publisher.step emitter adapters label).map fun next =>
    ⟨next, c.enqueued ++ label.enqueues c.publisher.now, c.endings ++ c.publisher.endings label⟩

/-- Whatever has been published came after the end of every event of its aggregate that had been
enqueued before it. -/
def Chronicle.InOrder (c : Chronicle) : Prop :=
  ∀ first ∈ c.enqueued, ∀ second ∈ c.enqueued, [first, second].Sublist c.enqueued →
    first.aggregate = second.aggregate → ⟨second.id, true⟩ ∈ c.endings →
      ∃ x ∈ c.endings.takeWhile fun x => x ≠ ⟨second.id, true⟩, x.eventId = first.id

/-- A poll may only publish an event when each one of its aggregate that waits since before it has
ended earlier in the same poll. -/
def Chronicle.Permits (c : Chronicle) : PublisherLabel → Prop
  | .commit => ∀ p ∈ c.publisher.poll, ∀ w ∈ p.settled, w.mark.isPublished →
      ∀ e ∈ c.publisher.events, e.status = .pending → e.aggregate = w.event.aggregate →
        [e.id, w.event.id].Sublist c.publisher.issued →
          ∃ other ∈ p.settled.takeWhile fun other => other.event.id ≠ w.event.id,
            other.event.id = e.id ∧ other.ending.isSome
  | _ => True

/-- The row of an event is pending. -/
def Publisher.Waits (s : Publisher) (id : Nat) : Prop :=
  ∃ e ∈ s.events, e.id = id ∧ e.status = .pending

structure Chronicle.Sound (emitter : Emitter) (c : Chronicle) : Prop where
  publisher : c.publisher.Sound emitter
  issued : c.enqueued.map OutboxEvent.id = c.publisher.issued
  distinct : c.publisher.issued.Nodup
  rows : ∀ e ∈ c.publisher.events, ∃ first ∈ c.enqueued,
    first.id = e.id ∧ first.aggregate = e.aggregate
  known : ∀ x ∈ c.endings, x.eventId ∈ c.publisher.issued
  ended : ∀ e ∈ c.enqueued, (∃ x ∈ c.endings, x.eventId = e.id) ↔ ¬ c.publisher.Waits e.id

section Endings

variable {w : Settled} {x : Ending}

theorem ending_event (ends : w.ending = some x) : x.eventId = w.event.id := by
  unfold Settled.ending at ends
  split at ends
  · cases ends
    rfl
  · split at ends
    · cases ends
      rfl
    · cases ends

theorem ending_published : w.ending = some ⟨w.event.id, true⟩ ↔ w.mark.isPublished := by
  unfold Settled.ending
  cases w.mark with
  | published time => exact iff_of_true rfl rfl
  | failed attempts error time =>
      apply iff_of_false
      · dsimp only
        split
        · intro same
          cases same
        · intro same
          cases same
      · exact Bool.false_ne_true

/-- A mark leaves a row pending exactly when it is no end. -/
theorem mark_pending (e : OutboxEvent) :
    (e.mark w.mark).status = .pending ↔ w.ending = none := by
  unfold Settled.ending
  cases w.mark with
  | published time => exact iff_of_false (fun same => by cases same) (fun same => by cases same)
  | failed attempts error time =>
      change (if maxAttempts ≤ attempts then OutboxStatus.failed else .pending) = .pending ↔ _
      dsimp only
      split
      · exact iff_of_false (fun same => by cases same) (fun same => by cases same)
      · exact iff_of_true rfl rfl

theorem takeWhile_agree {α : Type} {p q : α → Bool} (l : List α) (agree : ∀ a ∈ l, p a = q a) :
    l.takeWhile p = l.takeWhile q := by
  induction l with
  | nil => rfl
  | cons a l ih =>
      rw [List.takeWhile_cons, List.takeWhile_cons, agree a List.mem_cons_self,
        ih fun b listed => agree b (List.mem_cons_of_mem a listed)]

/-- The endings before that of a published event are those of what its poll settled earlier. -/
theorem endings_before {settled : List Settled}
    (unique : Table.Unique (fun w : Settled => w.event.id) settled) (listed : w ∈ settled)
    (published : w.mark.isPublished) :
    (settled.filterMap Settled.ending).takeWhile (fun x => x ≠ ⟨w.event.id, true⟩) =
      (settled.takeWhile fun other => other.event.id ≠ w.event.id).filterMap Settled.ending := by
  rw [List.takeWhile_filterMap]
  congr 1
  apply takeWhile_agree
  intro other there
  by_cases same : other.event.id = w.event.id
  · have its : other = w := List.inj_on_of_nodup_map unique there listed same
    rw [its, ending_published.mpr published]
    simp
  · cases ends : other.ending with
    | none => simp [same]
    | some x =>
        have event := ending_event ends
        have apart : x ≠ ⟨w.event.id, true⟩ := by
          rintro rfl
          exact same event.symm
        simp [same, apart]

end Endings

section Steps

variable {emitter : Emitter} {adapters : Adapters} {s t : Publisher}

/-- Only a new event and a commit change which events are issued or pending. -/
theorem rows_step {label : PublisherLabel} (taken : s.step emitter adapters label = some t)
    (new : ∀ id eventType aggregateType aggregateId payload,
      label ≠ .enqueue id eventType aggregateType aggregateId payload)
    (ends : label ≠ .commit) :
    t.issued = s.issued ∧ t.events.Sublist s.events ∧ ∀ id, t.Waits id ↔ s.Waits id := by
  have same (events : t.events = s.events) (issued : t.issued = s.issued) :
      t.issued = s.issued ∧ t.events.Sublist s.events ∧ ∀ id, t.Waits id ↔ s.Waits id := by
    refine ⟨issued, by rw [events], fun id => ?_⟩
    rw [Publisher.Waits, Publisher.Waits, events]
  cases label with
  | enqueue id eventType aggregateType aggregateId payload => exact absurd rfl (new _ _ _ _ _)
  | commit => exact absurd rfl ends
  | beginPoll =>
      cases taken
      rcases beginPoll_cases s with idle | ⟨_, begun⟩
      · exact same (by rw [idle]) (by rw [idle])
      · exact same (by rw [begun]) (by rw [begun])
  | emit =>
      obtain ⟨_, _, _, _, _, _, rfl⟩ := emit_step taken
      exact same rfl rfl
  | handle number answer =>
      obtain ⟨_, _, _, rfl⟩ := handle_step taken
      exact same rfl rfl
  | deliver number result =>
      obtain ⟨_, _, _, _, rfl⟩ := deliver_step taken
      exact same rfl rfl
  | settle =>
      obtain ⟨_, _, _, _, _, _, _, _, _, rfl⟩ := settle_step taken
      exact same rfl rfl
  | rollback =>
      obtain ⟨_, _, rfl⟩ := Option.map_eq_some_iff.mp taken
      exact same rfl rfl
  | abandon number =>
      obtain ⟨_, _, _, _, rfl⟩ := abandon_step taken
      exact same rfl rfl
  | cleanup =>
      cases taken
      refine ⟨rfl, List.filter_sublist, fun id => ⟨?_, ?_⟩⟩
      · rintro ⟨e, kept, its, pending⟩
        exact ⟨e, (List.mem_filter.mp kept).1, its, pending⟩
      · rintro ⟨e, stored, its, pending⟩
        refine ⟨e, List.mem_filter.mpr ⟨stored, ?_⟩, its, pending⟩
        simp [OutboxEvent.retained, pending]
  | setDirectory directory | wait ms =>
      cases taken
      exact same rfl rfl

/-- Every other step goes unnoticed. -/
theorem quiet (s : Publisher) {label : PublisherLabel}
    (new : ∀ id eventType aggregateType aggregateId payload,
      label ≠ .enqueue id eventType aggregateType aggregateId payload)
    (ends : label ≠ .commit) : label.enqueues s.now = [] ∧ s.endings label = [] := by
  cases label with
  | enqueue id eventType aggregateType aggregateId payload => exact absurd rfl (new _ _ _ _ _)
  | commit => exact absurd rfl ends
  | beginPoll | emit | handle | deliver | settle | rollback | abandon | cleanup | setDirectory
  | wait => exact ⟨rfl, rfl⟩

end Steps

section Order

variable {emitter : Emitter} {adapters : Adapters} {c : Chronicle}

theorem Chronicle.Sound.find (sound : c.Sound emitter) {first second : OutboxEvent}
    (stored : first ∈ c.enqueued) (there : second ∈ c.enqueued) (same : first.id = second.id) :
    first = second := by
  have distinct := sound.distinct
  rw [← sound.issued] at distinct
  exact List.inj_on_of_nodup_map distinct stored there same

/-- Events come one before the other as their ids do. -/
theorem Chronicle.Sound.before_iff (sound : c.Sound emitter) {first second : OutboxEvent}
    (stored : first ∈ c.enqueued) (there : second ∈ c.enqueued) :
    [first.id, second.id].Sublist c.publisher.issued ↔ [first, second].Sublist c.enqueued := by
  rw [← sound.issued]
  constructor
  · intro ids
    obtain ⟨pair, listed, same⟩ := List.sublist_map_iff.mp ids
    obtain ⟨a, rest, rfl, firstId, more⟩ := List.map_eq_cons_iff.mp same.symm
    obtain ⟨b, others, rfl, secondId, done⟩ := List.map_eq_cons_iff.mp more
    rw [List.map_eq_nil_iff] at done
    subst done
    have one := sound.find (listed.subset (by simp)) stored firstId
    have other := sound.find (listed.subset (by simp)) there secondId
    rw [← one, ← other]
    exact listed
  · intro listed
    exact listed.map OutboxEvent.id

/-- What a poll has settled waits until its commit, so that it has not ended before. -/
theorem Chronicle.Sound.settled (sound : c.Sound emitter) {p : Poll}
    (held : c.publisher.poll = some p) {w : Settled} (listed : w ∈ p.settled) :
    w.event ∈ c.publisher.events ∧ w.event.status = .pending ∧
      ∀ x ∈ c.endings, x.eventId ≠ w.event.id := by
  have poll := sound.publisher.poll p held
  have read : w.event ∈ p.batch := by
    rw [← poll.split]
    exact List.mem_append_left _ (List.mem_map_of_mem listed)
  obtain ⟨stored, pending⟩ := poll.stored w.event read
  refine ⟨stored, pending, fun x ended same => ?_⟩
  obtain ⟨first, enqueued, id, _⟩ := sound.rows w.event stored
  apply (sound.ended first enqueued).mp ⟨x, ended, by rw [same, id]⟩
  exact ⟨w.event, stored, id.symm, pending⟩

theorem Chronicle.Sound.enqueue (sound : c.Sound emitter) {id : Nat}
    {eventType : OutboxEventType} {aggregateType aggregateId : String} {payload : Payload}
    {next : Publisher} (taken : c.publisher.step emitter adapters
      (.enqueue id eventType aggregateType aggregateId payload) = some next) :
    Chronicle.Sound emitter ⟨next, c.enqueued ++
      [newEvent id eventType aggregateType aggregateId payload c.publisher.now], c.endings⟩ := by
  have after := enqueue_sound sound.publisher taken
  obtain ⟨fresh, rfl⟩ := enqueue_step taken
  refine ⟨after, ?_, ?_, ?_, ?_, ?_⟩
  · simp only [List.map_append, sound.issued, List.map_cons, List.map_nil]
    rfl
  · refine List.nodup_append.mpr ⟨sound.distinct, List.nodup_singleton _, ?_⟩
    intro a old b new same
    rw [List.mem_singleton] at new
    rw [same, new] at old
    exact fresh old
  · intro e stored
    rcases List.mem_append.mp stored with old | new
    · obtain ⟨first, enqueued, its⟩ := sound.rows e old
      exact ⟨first, List.mem_append_left _ enqueued, its⟩
    · exact ⟨e, List.mem_append_right _ new, rfl, rfl⟩
  · exact fun x ended => List.mem_append_left _ (sound.known x ended)
  · intro e listed
    rcases List.mem_append.mp listed with old | new
    · rw [sound.ended e old]
      apply not_congr
      have other : e.id ≠ id := by
        rintro rfl
        apply fresh
        rw [← sound.issued]
        exact List.mem_map_of_mem old
      constructor
      · rintro ⟨row, stored, its, pending⟩
        exact ⟨row, List.mem_append_left _ stored, its, pending⟩
      · rintro ⟨row, stored, its, pending⟩
        rcases List.mem_append.mp stored with before | same
        · exact ⟨row, before, its, pending⟩
        · rw [List.mem_singleton.mp same] at its
          exact absurd its.symm other
    · rw [List.mem_singleton.mp new]
      apply iff_of_false
      · rintro ⟨x, ended, same⟩
        have known := sound.known x ended
        rw [same] at known
        exact fresh known
      · intro idle
        exact idle ⟨_, List.mem_append_right _ (List.mem_singleton_self _), rfl, rfl⟩

/-- After a commit, an event waits if it did before and its poll has not ended it. -/
theorem waits_commit (sound : c.Sound emitter) {p : Poll} (held : c.publisher.poll = some p)
    (unique : Table.Unique (fun w : Settled => w.event.id) p.settled) (id : Nat) :
    (∃ e ∈ c.publisher.events.map (writeMarks p.settled), e.id = id ∧ e.status = .pending) ↔
      c.publisher.Waits id ∧ ∀ w ∈ p.settled, w.event.id = id → w.ending = none := by
  constructor
  · rintro ⟨e, marked, its, pending⟩
    obtain ⟨before, stored, rfl⟩ := List.mem_map.mp marked
    rw [writeMarks_id] at its
    rcases writeMarks_cases p.settled before with ⟨other, same⟩ | ⟨w, listed, event, same⟩
    · rw [same] at pending
      refine ⟨⟨before, stored, its, pending⟩, fun w listed event => ?_⟩
      exact absurd (event.trans its.symm) (other w listed)
    · rw [same, mark_pending] at pending
      obtain ⟨row, waits, _⟩ := sound.settled held listed
      refine ⟨⟨w.event, row, event.trans its, waits⟩, fun other there named => ?_⟩
      have alone : other = w :=
        List.inj_on_of_nodup_map unique there listed (by rw [named, event, its])
      rw [alone]
      exact pending
  · rintro ⟨⟨e, stored, its, pending⟩, still⟩
    refine ⟨writeMarks p.settled e, List.mem_map_of_mem stored, by rw [writeMarks_id, its], ?_⟩
    rcases writeMarks_cases p.settled e with ⟨_, same⟩ | ⟨w, listed, event, same⟩
    · rw [same]
      exact pending
    · rw [same, mark_pending]
      exact still w listed (event.trans its)

/-- A poll settles each event of its batch once. -/
theorem Chronicle.Sound.unique (sound : c.Sound emitter) {p : Poll}
    (held : c.publisher.poll = some p) :
    Table.Unique (fun w : Settled => w.event.id) p.settled := by
  have poll := sound.publisher.poll p held
  have distinct := poll.unique
  rw [← poll.split, Table.Unique, List.map_append, List.map_map] at distinct
  exact distinct.of_append_left

theorem endings_commit {p : Poll} (held : c.publisher.poll = some p) :
    c.publisher.endings .commit = p.settled.filterMap Settled.ending := by
  rw [Publisher.endings, held]
  rfl

theorem Chronicle.Sound.commit (sound : c.Sound emitter) {next : Publisher}
    (taken : c.publisher.commit = some next) :
    Chronicle.Sound emitter ⟨next, c.enqueued, c.endings ++ c.publisher.endings .commit⟩ := by
  have after := commit_sound sound.publisher taken
  obtain ⟨p, held, -, rfl⟩ := commit_step taken
  have unique := sound.unique held
  have new := endings_commit held
  rw [new]
  refine ⟨after, sound.issued, sound.distinct, ?_, ?_, ?_⟩
  · intro e marked
    obtain ⟨before, stored, rfl⟩ := List.mem_map.mp marked
    obtain ⟨first, enqueued, id, aggregate⟩ := sound.rows before stored
    refine ⟨first, enqueued, by rw [writeMarks_id, id], ?_⟩
    rw [aggregate]
    rcases writeMarks_cases p.settled before with ⟨_, same⟩ | ⟨w, _, _, same⟩
    · rw [same]
    · rw [same]
      cases w.mark <;> rfl
  · intro x listed
    rcases List.mem_append.mp listed with old | ended
    · exact sound.known x old
    · obtain ⟨w, settled, ends⟩ := List.mem_filterMap.mp ended
      rw [ending_event ends]
      exact sound.publisher.issued w.event (sound.settled held settled).1
  · intro e enqueued
    change _ ↔ ¬ ∃ row ∈ c.publisher.events.map (writeMarks p.settled), _
    rw [waits_commit sound held unique]
    constructor
    · rintro ⟨x, listed, its⟩ ⟨waits, still⟩
      rcases List.mem_append.mp listed with old | ended
      · exact (sound.ended e enqueued).mp ⟨x, old, its⟩ waits
      · obtain ⟨w, settled, ends⟩ := List.mem_filterMap.mp ended
        have event := ending_event ends
        rw [still w settled (by rw [← event, its])] at ends
        cases ends
    · intro idle
      by_cases waits : c.publisher.Waits e.id
      · have some : ∃ w ∈ p.settled, w.event.id = e.id ∧ w.ending ≠ none := by
          by_contra never
          push Not at never
          exact idle ⟨waits, never⟩
        obtain ⟨w, settled, event, ends⟩ := some
        obtain ⟨x, ending⟩ := Option.ne_none_iff_exists'.mp ends
        refine ⟨x, List.mem_append_right _ (List.mem_filterMap.mpr ⟨w, settled, ending⟩), ?_⟩
        rw [ending_event ending, event]
      · obtain ⟨x, old, its⟩ := (sound.ended e enqueued).mpr waits
        exact ⟨x, List.mem_append_left _ old, its⟩

theorem Chronicle.Sound.step (sound : c.Sound emitter) {label : PublisherLabel} {next : Publisher}
    (taken : c.publisher.step emitter adapters label = some next) :
    Chronicle.Sound emitter ⟨next, c.enqueued ++ label.enqueues c.publisher.now,
      c.endings ++ c.publisher.endings label⟩ := by
  by_cases new : ∃ id eventType aggregateType aggregateId payload,
      label = .enqueue id eventType aggregateType aggregateId payload
  · obtain ⟨id, eventType, aggregateType, aggregateId, payload, rfl⟩ := new
    have after := sound.enqueue taken
    simpa only [Publisher.endings, PublisherLabel.enqueues, List.append_nil] using after
  · by_cases ends : label = .commit
    · subst ends
      have after := sound.commit taken
      simpa only [PublisherLabel.enqueues, List.append_nil] using after
    · push Not at new
      obtain ⟨issued, events, waits⟩ := rows_step taken new ends
      obtain ⟨enqueues, endings⟩ := quiet c.publisher new ends
      rw [enqueues, endings, List.append_nil, List.append_nil]
      refine ⟨step_sound sound.publisher taken, ?_, ?_, ?_, ?_, ?_⟩
      · exact sound.issued.trans issued.symm
      · change next.issued.Nodup
        rw [issued]
        exact sound.distinct
      · exact fun e stored => sound.rows e (events.subset stored)
      · intro x ended
        change x.eventId ∈ next.issued
        rw [issued]
        exact sound.known x ended
      · intro e enqueued
        change _ ↔ ¬ next.Waits e.id
        rw [waits e.id]
        exact sound.ended e enqueued

/-- A commit keeps the order exactly when it is permitted. -/
theorem commit_inOrder_iff (sound : c.Sound emitter) (inOrder : c.InOrder) {next : Publisher}
    (taken : c.publisher.commit = some next) :
    Chronicle.InOrder ⟨next, c.enqueued, c.endings ++ c.publisher.endings .commit⟩ ↔
      c.Permits .commit := by
  obtain ⟨p, held, -, rfl⟩ := commit_step taken
  have unique := sound.unique held
  have new := endings_commit held
  -- What came before the end of an event that this poll has published.
  have before (w : Settled) (listed : w ∈ p.settled) (published : w.mark.isPublished) :
      (c.endings ++ p.settled.filterMap Settled.ending).takeWhile
          (fun x => x ≠ ⟨w.event.id, true⟩) =
        c.endings ++
          (p.settled.takeWhile fun other => other.event.id ≠ w.event.id).filterMap
            Settled.ending := by
    rw [List.takeWhile_append_of_pos, endings_before unique listed published]
    intro x ended
    apply decide_eq_true
    rintro rfl
    exact (sound.settled held listed).2.2 _ ended rfl
  rw [new]
  constructor
  · intro kept q same w listed published e stored pending aggregate ids
    rw [Option.mem_def, held] at same
    cases same
    obtain ⟨row, waits, _⟩ := sound.settled held listed
    obtain ⟨first, enqueued, firstId, firstAggregate⟩ := sound.rows e stored
    obtain ⟨second, there, secondId, secondAggregate⟩ := sound.rows w.event row
    rw [← firstId, ← secondId] at ids
    have ends := ending_published.mpr published
    obtain ⟨x, earlier, its⟩ := kept first enqueued second there
      ((sound.before_iff enqueued there).mp ids)
      (by rw [firstAggregate, aggregate, secondAggregate])
      (by
        rw [secondId]
        exact List.mem_append_right _ (List.mem_filterMap.mpr ⟨w, listed, ends⟩))
    rw [secondId, before w listed published] at earlier
    rcases List.mem_append.mp earlier with old | now
    · apply absurd _ ((sound.ended first enqueued).mp ⟨x, old, its⟩)
      exact ⟨e, stored, firstId.symm, pending⟩
    · obtain ⟨other, settled, ending⟩ := List.mem_filterMap.mp now
      refine ⟨other, settled, ?_, by rw [ending]; rfl⟩
      rw [← ending_event ending, its, firstId]
  · intro permitted first enqueued second there listed aggregate ended
    rcases List.mem_append.mp ended with old | now
    · obtain ⟨x, earlier, its⟩ := inOrder first enqueued second there listed aggregate old
      refine ⟨x, ?_, its⟩
      rw [List.takeWhile_append]
      split
      · exact List.mem_append_left _ ((List.takeWhile_sublist _).subset earlier)
      · exact earlier
    · obtain ⟨w, settled, ending⟩ := List.mem_filterMap.mp now
      have event : second.id = w.event.id := ending_event ending
      have published : w.mark.isPublished := by
        rw [← ending_published, ending, event]
      change ∃ x ∈ (c.endings ++ p.settled.filterMap Settled.ending).takeWhile
        (fun x => x ≠ ⟨second.id, true⟩), x.eventId = first.id
      rw [event, before w settled published]
      by_cases waits : c.publisher.Waits first.id
      · obtain ⟨e, stored, id, pending⟩ := waits
        obtain ⟨origin, known, originId, originAggregate⟩ := sound.rows e stored
        have same := sound.find known enqueued (originId.trans id)
        obtain ⟨start, begun, startId, startAggregate⟩ :=
          sound.rows w.event (sound.settled held settled).1
        have twin := sound.find begun there (startId.trans event.symm)
        obtain ⟨other, earlier, its, ends⟩ := permitted p held w settled published e stored pending
          (by rw [← originAggregate, same, aggregate, ← twin, startAggregate])
          (by
            rw [id, ← event]
            exact (sound.before_iff enqueued there).mpr listed)
        obtain ⟨x, last⟩ := Option.isSome_iff_exists.mp ends
        refine ⟨x, List.mem_append_right _ (List.mem_filterMap.mpr ⟨other, earlier, last⟩), ?_⟩
        rw [ending_event last, its, id]
      · obtain ⟨x, old, its⟩ := (sound.ended first enqueued).mpr waits
        exact ⟨x, List.mem_append_left _ old, its⟩

/-- A new event comes after all others and has not ended. -/
theorem enqueue_inOrder (sound : c.Sound emitter) (inOrder : c.InOrder) (e : OutboxEvent)
    (fresh : e.id ∉ c.publisher.issued) (next : Publisher) :
    Chronicle.InOrder ⟨next, c.enqueued ++ [e], c.endings⟩ := by
  intro first _ second there listed aggregate ended
  have known := sound.known _ ended
  have other : second ≠ e := by
    rintro rfl
    exact fresh known
  have old : [first, second].Sublist c.enqueued := by
    obtain ⟨front, back, same, one, last⟩ := List.sublist_append_iff.mp listed
    cases back with
    | nil =>
        rw [same, List.append_nil]
        exact one
    | cons a back =>
        have tail : second ∈ a :: back := by
          have final := congrArg List.getLast? same
          rw [List.getLast?_append] at final
          cases taken : (a :: back).getLast? with
          | none => simp at taken
          | some z =>
              rw [taken] at final
              cases final
              exact List.mem_of_getLast? taken
        exact absurd (List.mem_singleton.mp (last.subset tail)) other
  exact inOrder first (old.subset (by simp)) second (old.subset (by simp)) old aggregate ended

theorem inOrder_iff (sound : c.Sound emitter) (inOrder : c.InOrder) {label : PublisherLabel}
    {next : Publisher} (taken : c.publisher.step emitter adapters label = some next) :
    Chronicle.InOrder ⟨next, c.enqueued ++ label.enqueues c.publisher.now,
      c.endings ++ c.publisher.endings label⟩ ↔ c.Permits label := by
  by_cases new : ∃ id eventType aggregateType aggregateId payload,
      label = .enqueue id eventType aggregateType aggregateId payload
  · obtain ⟨id, eventType, aggregateType, aggregateId, payload, rfl⟩ := new
    apply iff_of_true _ trivial
    have after := enqueue_inOrder sound inOrder (newEvent id eventType aggregateType aggregateId
      payload c.publisher.now) (enqueue_step taken).1 next
    simpa only [Publisher.endings, PublisherLabel.enqueues, List.append_nil] using after
  · by_cases ends : label = .commit
    · subst ends
      have after := commit_inOrder_iff sound inOrder taken
      simpa only [PublisherLabel.enqueues, List.append_nil] using after
    · push Not at new
      obtain ⟨enqueues, endings⟩ := quiet c.publisher new ends
      rw [enqueues, endings, List.append_nil, List.append_nil]
      apply iff_of_true inOrder
      cases label with
      | commit => exact absurd rfl ends
      | enqueue | beginPoll | emit | handle | deliver | settle | rollback | abandon | cleanup
      | setDirectory | wait => trivial

theorem Chronicle.Initial.sound (initial : c.Initial) : c.Sound emitter where
  publisher := initial.publisher.sound
  issued := by
    rw [initial.enqueued, initial.issued]
    rfl
  distinct := by
    rw [initial.issued]
    exact List.nodup_nil
  rows := by simp [initial.publisher.events]
  known := by simp [initial.endings]
  ended := by simp [initial.enqueued]

/-- The events of every aggregate are published in the order in which they were enqueued, but for
those that have failed for good, exactly when no poll that commits has published an event while
an earlier one of its aggregate went on waiting. -/
theorem inOrder_iff_permits (emitter : Emitter) (adapters : Adapters) (start after : Chronicle)
    (labels : List PublisherLabel) (initial : start.Initial)
    (ran : (chronicle emitter adapters).run start labels = some after) :
    System.Always (chronicle emitter adapters) Chronicle.InOrder start labels ↔
      System.Guarded Chronicle.Permits (chronicle emitter adapters) start labels := by
  apply System.always_iff_guarded (Chronicle.Sound emitter) Chronicle.InOrder _ _ start after
    labels ran
  · exact initial.sound
  · intro first listed
    rw [initial.enqueued] at listed
    cases listed
  · intro c label t sound taken
    obtain ⟨next, moved, rfl⟩ := Option.map_eq_some_iff.mp taken
    exact sound.step moved
  · intro c label t sound inOrder taken
    obtain ⟨next, moved, rfl⟩ := Option.map_eq_some_iff.mp taken
    exact inOrder_iff sound inOrder moved

end Order

end Farzin.Outbox
