import Farzin.OutboxGuarantee

set_option autoImplicit false

/- Which failures of the listeners the publisher learns of, when the emitter wraps every handler so
that its errors are logged and go no further. -/
namespace Farzin.Outbox

open Transition

/-- A handler that is registered without options is wrapped so that its errors are suppressed, and
`emitAsync` rejects only when a wrapped handler does. -/
structure Emitter.Suppressing (emitter : Emitter) : Prop where
  suppresses : ∀ outcome, emitter.wrap outcome = .ok ()
  rejects : ∀ (outcomes : List (Except String Unit)) (error : String),
    emitter.emitAsync outcomes = .error error → ∃ outcome ∈ outcomes, outcome ≠ .ok ()

/-- An event becomes published only by a delivery whose handler has ended without an error. -/
def PublishedBySuccess (s : Publisher) (_ : PublisherLabel) (t : Publisher) : Prop :=
  ∀ e ∈ t.events, e.status = .published →
    (∃ before ∈ s.events, before.id = e.id ∧ before.status = .published) ∨
      ∃ p, s.poll = some p ∧ ∃ w ∈ p.settled, w.event.id = e.id ∧ w.outcome = .ok ()

/-- When a poll commits, no call of the handlers that it has waited for has failed. -/
def CallsHeld (s : Publisher) : PublisherLabel → Prop
  | .commit => ∀ p ∈ s.poll, ∀ w ∈ p.settled, ∀ a ∈ w.answers, a.isHeld = true
  | _ => True

instance decidableCallsHeld (s : Publisher) :
    (label : PublisherLabel) → Decidable (CallsHeld s label)
  | .commit => inferInstanceAs (Decidable
      (∀ p ∈ s.poll, ∀ w ∈ p.settled, ∀ a ∈ w.answers, a.isHeld = true))
  | .enqueue _ _ _ _ _ | .beginPoll | .emit | .handle _ _ | .deliver _ _ | .settle | .rollback
  | .abandon _ | .cleanup | .setDirectory _ | .wait _ => .isTrue trivial

section Listeners

variable {emitter : Emitter} {adapters : Adapters} {s t : Publisher}

/-- A failure looks like a success. -/
theorem Emitter.Suppressing.passes (suppressing : emitter.Suppressing)
    (outcome : Except String Unit) : emitter.passes outcome := by
  unfold Emitter.passes
  cases result : emitter.emitAsync [emitter.wrap outcome] with
  | ok done => rfl
  | error error =>
      obtain ⟨wrapped, listed, failed⟩ := suppressing.rejects _ error result
      rw [List.mem_singleton.mp listed] at failed
      exact absurd (suppressing.suppresses outcome) failed

/-- Every event that a poll has settled is marked as published. -/
theorem settled_published (suppressing : emitter.Suppressing) {w : Settled}
    (sound : w.Sound emitter s) (e : OutboxEvent) : (e.mark w.mark).status = .published := by
  obtain ⟨time, _, mark⟩ := sound.marked
  rw [mark, suppressing.passes w.outcome]
  rfl

/-- Only a commit publishes. -/
theorem published_before {label : PublisherLabel} (other : label ≠ .commit)
    (taken : s.step emitter adapters label = some t) {e : OutboxEvent} (stored : e ∈ t.events)
    (published : e.status = .published) : e ∈ s.events := by
  cases label with
  | commit => exact absurd rfl other
  | enqueue id eventType aggregateType aggregateId payload =>
      obtain ⟨_, rfl⟩ := enqueue_step taken
      rcases List.mem_append.mp stored with old | new
      · exact old
      · rw [List.mem_singleton.mp new] at published
        cases published
  | beginPoll =>
      cases taken
      rcases beginPoll_cases s with same | ⟨_, same⟩
      · rw [same] at stored
        exact stored
      · rw [same] at stored
        exact stored
  | emit =>
      obtain ⟨_, _, _, _, _, _, rfl⟩ := emit_step taken
      exact stored
  | handle number answer =>
      obtain ⟨_, _, _, rfl⟩ := handle_step taken
      exact stored
  | deliver number result =>
      obtain ⟨_, _, _, _, rfl⟩ := deliver_step taken
      exact stored
  | settle =>
      obtain ⟨_, _, _, _, _, _, _, _, _, rfl⟩ := settle_step taken
      exact stored
  | rollback =>
      obtain ⟨_, _, rfl⟩ := Option.map_eq_some_iff.mp taken
      exact stored
  | abandon number =>
      obtain ⟨_, _, _, _, rfl⟩ := abandon_step taken
      exact stored
  | cleanup =>
      cases taken
      exact (List.mem_filter.mp stored).1
  | setDirectory directory | wait ms =>
      cases taken
      exact stored

/-- A commit publishes whatever its poll has settled, so their calls decide. -/
theorem commit_published_iff (suppressing : emitter.Suppressing) (sound : s.Sound emitter)
    (taken : s.commit = some t) :
    PublishedBySuccess s .commit t ↔ CallsHeld s .commit := by
  obtain ⟨p, held, none, rfl⟩ := commit_step taken
  have poll := sound.poll p held
  obtain ⟨split, unique⟩ := poll.ended none
  constructor
  · intro success q running w listed
    rw [Option.mem_def, held] at running
    cases running
    have read : w.event ∈ p.batch := split ▸ List.mem_map_of_mem listed
    obtain ⟨stored, pending⟩ := poll.stored w.event read
    have published : (writeMarks p.settled w.event).status = .published := by
      rcases writeMarks_cases p.settled w.event with ⟨other, _⟩ | ⟨its, known, _, same⟩
      · exact absurd rfl (other w listed)
      · rw [same]
        exact settled_published suppressing (poll.settled its known) w.event
    have became := success _ (List.mem_map_of_mem stored) published
    rw [writeMarks_id] at became
    rcases became with ⟨before, there, id, status⟩ | ⟨q, same, other, known, id, succeeded⟩
    · have event : before = w.event := List.inj_on_of_nodup_map sound.unique there stored id
      rw [event, pending] at status
      cases status
    · rw [held] at same
      cases same
      rw [Table.Unique, List.map_map] at unique
      have its : other = w := List.inj_on_of_nodup_map unique known listed id
      rw [its] at succeeded
      exact (poll.settled w listed).answered.mp succeeded
  · intro calls e stored published
    obtain ⟨before, there, rfl⟩ := List.mem_map.mp stored
    rcases writeMarks_cases p.settled before with ⟨_, same⟩ | ⟨w, listed, id, _⟩
    · rw [same] at published ⊢
      exact .inl ⟨before, there, rfl, published⟩
    · right
      rw [writeMarks_id]
      have succeeded := (poll.settled w listed).answered.mpr (calls p held w listed)
      exact ⟨p, held, w, listed, id, succeeded⟩

theorem published_iff (suppressing : emitter.Suppressing) (sound : s.Sound emitter)
    {label : PublisherLabel} (taken : s.step emitter adapters label = some t) :
    PublishedBySuccess s label t ↔ CallsHeld s label := by
  by_cases commits : label = .commit
  · rw [commits] at taken ⊢
    exact commit_published_iff suppressing sound taken
  · apply iff_of_true
    · intro e stored published
      exact .inl ⟨e, published_before commits taken stored published, rfl, published⟩
    · cases label with
      | commit => exact absurd rfl commits
      | enqueue | beginPoll | emit | handle | deliver | settle | rollback | abandon | cleanup
      | setDirectory | wait => trivial

/-- In a run, an event becomes published only by a delivery that has succeeded, exactly when no
call of a handler has failed in a poll that commits: a failure is never retried. -/
theorem published_by_success_iff (emitter : Emitter) (adapters : Adapters)
    (suppressing : emitter.Suppressing) (start t : Publisher) (labels : List PublisherLabel)
    (initial : start.Initial) (ran : (publisher emitter adapters).run start labels = some t) :
    System.EveryStep (publisher emitter adapters) PublishedBySuccess start labels ↔
      System.Guarded CallsHeld (publisher emitter adapters) start labels := by
  apply System.everyStep_iff_guarded (Publisher.Sound emitter)
  · intro s label t sound taken
    exact step_sound sound taken
  · intro s label t sound taken
    exact published_iff suppressing sound taken
  · exact ran
  · exact initial.sound

end Listeners

section Runs

/-- Errors are logged, and the first error that is left is reported. -/
def loggingEmitter : Emitter where
  wrap _ := .ok ()
  emitAsync outcomes := (outcomes.find? fun outcome => outcome ≠ .ok ()).getD (.ok ())

theorem loggingEmitter_suppressing : loggingEmitter.Suppressing := by
  constructor
  · intro outcome
    rfl
  · intro outcomes error rejected
    change (outcomes.find? fun outcome => outcome ≠ .ok ()).getD (.ok ()) = .error error at rejected
    cases found : outcomes.find? fun outcome => outcome ≠ .ok () with
    | none =>
        rw [found] at rejected
        cases rejected
    | some first =>
        have failed := List.find?_some found
        exact ⟨first, List.mem_of_find?_eq_some found, of_decide_eq_true failed⟩

/-- The recipients of an event cannot be read. -/
def unreadRun : List PublisherLabel :=
  [enqueueRound, .beginPoll, .emit, .handle 0 (.failed "connection closed"), .settle]

/-- The event is published without an attempt that counts, and nobody is notified. -/
theorem failed_listener_published :
    loggingEmitter.Suppressing ∧
      ((publisher loggingEmitter inAppOnly).run noEvents (unreadRun ++ [.commit])).map (fun s =>
        (s.events.map fun e => (e.status, e.attempts), s.box.rows, s.completed)) =
          some ([(.published, 0)], [], [⟨0, .error "connection closed"⟩]) ∧
      ¬ System.EveryStep (publisher loggingEmitter inAppOnly) PublishedBySuccess noEvents
        (unreadRun ++ [.commit]) := by
  refine ⟨loggingEmitter_suppressing, by decide +kernel, fun every => ?_⟩
  have ends : (((publisher loggingEmitter inAppOnly).run noEvents unreadRun).bind fun s =>
      s.commit.map fun t => (s.events.map OutboxEvent.status, (s.poll.map fun p =>
        p.settled.map Settled.outcome), t.events.map OutboxEvent.status)) =
      some ([.pending], some [.error "connection closed"], [.published]) := by decide +kernel
  obtain ⟨s, ran, rest⟩ := Option.bind_eq_some_iff.mp ends
  obtain ⟨t, taken, same⟩ := Option.map_eq_some_iff.mp rest
  obtain ⟨before, rest⟩ := Prod.mk.inj same
  obtain ⟨polled, after⟩ := Prod.mk.inj rest
  have status : OutboxStatus.published ∈ t.events.map OutboxEvent.status := by
    rw [after]
    exact List.mem_singleton_self _
  obtain ⟨e, stored, published⟩ := List.mem_map.mp status
  rcases every.last ran taken e stored published with ⟨old, there, _, its⟩ |
    ⟨p, held, w, listed, _, succeeded⟩
  · have among := List.mem_map_of_mem (f := OutboxEvent.status) there
    rw [before, its] at among
    cases List.mem_singleton.mp among
  · rw [held] at polled
    have outcomes : p.settled.map Settled.outcome = [.error "connection closed"] :=
      Option.some.inj polled
    have among := List.mem_map_of_mem (f := Settled.outcome) listed
    rw [outcomes, succeeded] at among
    cases List.mem_singleton.mp among

theorem redeliveredRun_success :
    System.EveryStep (publisher loggingEmitter inAppOnly) PublishedBySuccess noEvents
      redeliveredRun := by
  have ends : ((publisher loggingEmitter inAppOnly).run noEvents redeliveredRun).map (fun s =>
      s.events.map OutboxEvent.status) = some [.published] := by decide +kernel
  obtain ⟨t, ran, _⟩ := Option.map_eq_some_iff.mp ends
  exact (published_by_success_iff loggingEmitter inAppOnly loggingEmitter_suppressing noEvents t
    redeliveredRun noEvents_initial ran).mpr (by decide +kernel)

end Runs

end Farzin.Outbox
