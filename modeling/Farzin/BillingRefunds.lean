import Farzin.BillingRequestsRefinement
import Farzin.Interleaving

set_option autoImplicit false

/- `refund` of `billing/billing.service.ts`, cut at its awaits: the check of the status, the
provider's answer, the read and the conditional update of `applyRefund`. The money goes back at
the provider, two steps before the database says so. -/
namespace Farzin.Billing

open Transition

/-- What the adapter's `refund` does: it resolves with or without acceptance, or throws. -/
inductive ProviderAnswer where
  | accepted
  | rejected
  | failed
  deriving DecidableEq, Repr

/-- A refund request, by the await it stands at. -/
inductive RefundCall where
  | asking (payment : Payment)
  | answered (payment : Payment)
  | recording (input : ApplyRefundInput) (payment : Payment)
  deriving DecidableEq, Repr

def RefundCall.paymentId : RefundCall → Nat
  | .asking payment => payment.id
  | .answered payment => payment.id
  | .recording _ payment => payment.id

/-- The provider has accepted this request. -/
def RefundCall.isAccepted : RefundCall → Bool
  | .asking _ => false
  | _ => true

/-- `accepted` lists the payments whose refund the provider has accepted, once for each time.
A request that ends on an error stays in `stopped`. -/
structure Refunds where
  store : Store
  calls : List RefundCall
  stopped : List RefundCall
  accepted : List Nat
  deriving DecidableEq, Repr

inductive RefundLabel where
  | request (paymentId : Nat)
  | answer (i : Nat) (answer : ProviderAnswer)
  /-- The `i`-th request enters `applyRefund`, which reads the payment. -/
  | read (i : Nat)
  /-- The conditional update of `applyRefund`, with the writes that go with it. -/
  | record (i : Nat)
  /-- The `i`-th request ends early, as when its process or its transaction is lost. -/
  | stop (i : Nat)
  /-- Any other request to the database. -/
  | other (label : StoreLabel)
  deriving DecidableEq, Repr

namespace Refunds

def finish (r : Refunds) (i : Nat) : Refunds :=
  { r with calls := r.calls.eraseIdx i }

def fail (r : Refunds) (i : Nat) (call : RefundCall) : Refunds :=
  { r with calls := r.calls.eraseIdx i, stopped := r.stopped ++ [call] }

def advance (r : Refunds) (i : Nat) (call : RefundCall) : Refunds :=
  { r with calls := r.calls.set i call }

def step (r : Refunds) : RefundLabel → Option Refunds
  | .request paymentId =>
      match refundRequest r.store.db paymentId with
      | .ok (some payment) => some { r with calls := r.calls ++ [.asking payment] }
      | _ => some r
  | .answer i answer =>
      match r.calls[i]? with
      | some (.asking payment) =>
          match answer with
          | .accepted =>
              some { r.advance i (.answered payment) with accepted := payment.id :: r.accepted }
          -- REFUND_REJECTED, or whatever the adapter throws.
          | .rejected | .failed => some (r.finish i)
      | _ => none
  | .read i =>
      match r.calls[i]? with
      | some (.answered payment) =>
          match refundInput payment true with
          | .error _ => some (r.fail i (.answered payment))
          | .ok input =>
              match readForRefund r.store.db input.paymentId with
              | .ok (some row) => some (r.advance i (.recording input row))
              | .ok none => some (r.finish i)
              | .error _ => some (r.fail i (.answered payment))
      | _ => none
  | .record i =>
      match r.calls[i]? with
      | some (.recording input payment) =>
          match commitRefund r.store.db input payment with
          | .ok (db, _) => some { r.finish i with store := { r.store with db := db } }
          | .error _ => some (r.fail i (.recording input payment))
      | _ => none
  | .stop i => r.calls[i]?.map fun call => r.fail i call
  | .other label =>
      match label with
      | .beginRefund _ => none
      | _ => (r.store.step label).map fun store => { r with store := store }

/-- Nothing has been paid yet, and no refund has been asked for. -/
structure Initial (r : Refunds) : Prop where
  store : r.store.Initial
  calls : r.calls = []
  stopped : r.stopped = []
  accepted : r.accepted = []

end Refunds

def refunding : System Refunds RefundLabel := ⟨Refunds.Initial, Refunds.step⟩

/-- Money goes back at most once for each payment. -/
def Refunds.PaidBackOnce (r : Refunds) : Prop :=
  ∀ paymentId, r.accepted.count paymentId ≤ 1

/-- A refund the provider has accepted that the database does not show. -/
def Refunds.Unrecorded (r : Refunds) (paymentId : Nat) : Prop :=
  ∃ call ∈ r.calls ++ r.stopped, call.isAccepted = true ∧ call.paymentId = paymentId

instance Refunds.decidableUnrecorded (r : Refunds) (paymentId : Nat) :
    Decidable (r.Unrecorded paymentId) :=
  inferInstanceAs (Decidable
    (∃ call ∈ r.calls ++ r.stopped, call.isAccepted = true ∧ call.paymentId = paymentId))

/-- The provider accepts a refund only while the payment stands PAID and no refund of it that it
accepted before is still on its way to the database or lost. -/
def SoleAcceptance (r : Refunds) : RefundLabel → Prop
  | .answer i .accepted => ∀ call ∈ r.calls[i]?,
      r.store.db.statusOf call.paymentId = some .paid ∧ ¬ r.Unrecorded call.paymentId
  | _ => True

instance decidableSoleAcceptance (r : Refunds) (label : RefundLabel) :
    Decidable (SoleAcceptance r label) := by
  unfold SoleAcceptance
  split <;> infer_instance

/-- Nothing pays a payment back but a refund, and nothing takes that back. -/
structure StatusesHeld (db after : Db) : Prop where
  paid : ∀ id, db.statusOf id = some .paid → after.statusOf id = some .paid
  refunded : ∀ id, after.statusOf id = some .refunded ↔ db.statusOf id = some .refunded

theorem StatusesHeld.same {db after : Db} (same : ∀ id, after.statusOf id = db.statusOf id) :
    StatusesHeld db after where
  paid := by
    intro id known
    rw [same]
    exact known
  refunded := by
    intro id
    rw [same]

/-- A transaction in flight that is not a refund's, as its read found the payment. -/
def Transaction.IsSuccess : Transaction → Prop
  | .success _ payment => canTransitionPayment payment.status .paid = true
  | .refund _ _ => False

theorem unpaid_ne {status : PaymentStatusValue}
    (allowed : canTransitionPayment status .paid = true) : status ≠ .paid ∧ status ≠ .refunded := by
  cases status <;> first | decide | cases allowed

theorem began_success {db : Db} {label : StoreLabel} {transaction : Transaction}
    (read : Began db label transaction) (notRefund : ∀ input, label ≠ .beginRefund input) :
    transaction.IsSuccess := by
  cases read with
  | success input payment found allowed => exact allowed
  | refund input payment found paid => exact absurd rfl (notRefund input)

/-- The steps of the other requests leave PAID and REFUNDED payments as they are. -/
theorem other_step {s t : Store} {label : StoreLabel}
    (ids : Table.Unique Payment.id s.db.payments)
    (successes : ∀ transaction ∈ s.inFlight, transaction.IsSuccess)
    (notRefund : ∀ input, label ≠ .beginRefund input) (taken : s.step label = some t) :
    (∀ transaction ∈ t.inFlight, transaction.IsSuccess) ∧ StatusesHeld s.db t.db := by
  have erased : ∀ i, ∀ transaction ∈ s.inFlight.eraseIdx i, transaction.IsSuccess :=
    fun i transaction inside => successes transaction (List.mem_of_mem_eraseIdx inside)
  cases step_effect s label t taken with
  | idle => exact ⟨successes, .same fun _ => rfl⟩
  | created row status fresh _ =>
      refine ⟨successes, ?_, ?_⟩
      · intro id known
        rw [statusOf_create s.db row fresh id]
        by_cases same : row.id = id
        · rw [← same, Db.statusOf, fresh] at known
          cases known
        · rw [if_neg same]
          exact known
      · intro id
        rw [statusOf_create s.db row fresh id]
        by_cases same : row.id = id
        · rw [if_pos same, status, ← same, Db.statusOf, fresh]
          simp
        · rw [if_neg same]
  | referenced paymentId providerRef =>
      exact ⟨successes, .same fun id => statusOf_checkout s.db paymentId providerRef id⟩
  | began _ transaction read =>
      refine ⟨?_, .same fun _ => rfl⟩
      intro other inside
      rcases List.mem_append.mp inside with old | new
      · exact successes other old
      · rw [List.mem_singleton.mp new]
        exact began_success read notRefund
  | rolledBack i => exact ⟨erased i, .same fun _ => rfl⟩
  | lost i => exact ⟨erased i, .same fun _ => rfl⟩
  | paid i input payment here wins =>
      have allowed : canTransitionPayment payment.status .paid = true :=
        successes _ (List.mem_of_getElem? here)
      have unpaid := unpaid_ne allowed
      have won := commitSuccess_won ids input payment wins.1
      refine ⟨erased i, ?_, ?_⟩
      · intro id known
        rw [won.statuses]
        by_cases moved : id = payment.id ∧ s.db.statusOf id = some payment.status
        · rw [if_pos moved]
        · rw [if_neg moved]
          exact known
      · intro id
        rw [won.statuses]
        by_cases moved : id = payment.id ∧ s.db.statusOf id = some payment.status
        · rw [if_pos moved, moved.2]
          simp [unpaid.2]
        · rw [if_neg moved]
  | refunded i input payment here => exact (successes _ (List.mem_of_getElem? here)).elim

namespace Refunds

/-- A payment whose refund has been asked for is PAID until the refund is recorded. -/
def Settled (r : Refunds) (paymentId : Nat) : Prop :=
  r.store.db.statusOf paymentId = some .paid ∨ r.store.db.statusOf paymentId = some .refunded

/-- The provider's list holds exactly the payments that are REFUNDED or whose accepted refund
the database does not show. -/
structure Sound (r : Refunds) : Prop where
  ids : Table.Unique Payment.id r.store.db.payments
  successes : ∀ transaction ∈ r.store.inFlight, transaction.IsSuccess
  settled : ∀ call ∈ r.calls ++ r.stopped, r.Settled call.paymentId
  unrecorded : ∀ id, r.Unrecorded id → id ∈ r.accepted
  refunded : ∀ id, r.store.db.statusOf id = some .refunded → id ∈ r.accepted
  accounted : ∀ id ∈ r.accepted,
    r.store.db.statusOf id = some .refunded ∨ r.Unrecorded id

theorem initial_sound (r : Refunds) (initial : r.Initial) : r.Sound where
  ids := initial.store.ids
  successes := by
    rw [initial.store.inFlight]
    intro transaction inside
    cases inside
  settled := by
    rw [initial.calls, initial.stopped]
    intro call inside
    cases inside
  unrecorded := by
    intro id ⟨call, inside, _⟩
    rw [initial.calls, initial.stopped] at inside
    cases inside
  refunded := by
    intro id known
    rw [Db.statusOf, Option.map_eq_some_iff] at known
    obtain ⟨payment, found, status⟩ := known
    exact absurd status (initial.store.unpaid payment (Table.findUnique_mem found)).2
  accounted := by
    rw [initial.accepted]
    intro id inside
    cases inside

section Sound

variable {r : Refunds}

/-- Requests may move on or end, as long as an accepted one is not forgotten. -/
theorem Sound.move (sound : r.Sound) (t : Refunds) (store : t.store = r.store)
    (accepted : t.accepted = r.accepted)
    (old : ∀ call ∈ t.calls ++ t.stopped, ∃ before ∈ r.calls ++ r.stopped,
      before.paymentId = call.paymentId ∧ (call.isAccepted = true → before.isAccepted = true))
    (kept : ∀ call ∈ r.calls ++ r.stopped, call.isAccepted = true →
      r.store.db.statusOf call.paymentId = some .refunded ∨ t.Unrecorded call.paymentId) :
    t.Sound where
  ids := by
    rw [store]
    exact sound.ids
  successes := by
    rw [store]
    exact sound.successes
  settled := by
    intro call inside
    obtain ⟨before, listed, same, _⟩ := old call inside
    have settled := sound.settled before listed
    rw [same] at settled
    rw [Settled, store]
    exact settled
  unrecorded := by
    intro id ⟨call, inside, took, same⟩
    obtain ⟨before, listed, own, was⟩ := old call inside
    rw [accepted]
    exact sound.unrecorded id ⟨before, listed, was took, own.trans same⟩
  refunded := by
    rw [store, accepted]
    exact sound.refunded
  accounted := by
    rw [store, accepted]
    intro id inside
    rcases sound.accounted id inside with done | ⟨call, listed, took, rfl⟩
    · exact .inl done
    · exact kept call listed took

/-- What the database does to a payment, it does to a REFUNDED one at most by an accepted
refund. -/
theorem Sound.write (sound : r.Sound) (store : Store)
    (ids : Table.Unique Payment.id store.db.payments)
    (successes : ∀ transaction ∈ store.inFlight, transaction.IsSuccess)
    (settled : ∀ id, r.Settled id → Settled { r with store := store } id)
    (kept : ∀ id, r.store.db.statusOf id = some .refunded →
      store.db.statusOf id = some .refunded)
    (refunded : ∀ id, store.db.statusOf id = some .refunded →
      r.store.db.statusOf id = some .refunded ∨ id ∈ r.accepted) :
    Sound { r with store := store } where
  ids := ids
  successes := successes
  settled := fun call inside => settled _ (sound.settled call inside)
  unrecorded := sound.unrecorded
  refunded := by
    intro id known
    rcases refunded id known with before | listed
    · exact sound.refunded id before
    · exact listed
  accounted := by
    intro id inside
    rcases sound.accounted id inside with done | waiting
    · exact .inl (kept id done)
    · exact .inr waiting

theorem mem_calls {i : Nat} {call : RefundCall} (here : r.calls[i]? = some call) :
    call ∈ r.calls ++ r.stopped :=
  List.mem_append_left _ (List.mem_of_getElem? here)

/-- A call is the one at an index, or stays when that one is taken out. -/
theorem mem_others {i : Nat} {call other : RefundCall} (here : r.calls[i]? = some call)
    (listed : other ∈ r.calls ++ r.stopped) :
    other = call ∨ other ∈ (r.finish i).calls ++ (r.finish i).stopped := by
  rcases List.mem_append.mp listed with current | past
  · rcases Interleaving.mem_or_erased here current with own | stays
    · exact .inl own
    · exact .inr (List.mem_append_left _ stays)
  · exact .inr (List.mem_append_right _ past)

theorem mem_finish {i : Nat} {call : RefundCall}
    (inside : call ∈ (r.finish i).calls ++ (r.finish i).stopped) :
    call ∈ r.calls ++ r.stopped := by
  rcases List.mem_append.mp inside with current | past
  · exact List.mem_append_left _ (List.mem_of_mem_eraseIdx current)
  · exact List.mem_append_right _ past

/-- A request may end once its refund shows in the database, or when it had none. -/
theorem Sound.finish (sound : r.Sound) {i : Nat} {call : RefundCall}
    (here : r.calls[i]? = some call)
    (done : call.isAccepted = true → r.store.db.statusOf call.paymentId = some .refunded) :
    (r.finish i).Sound := by
  refine sound.move _ rfl rfl ?_ ?_
  · intro other inside
    exact ⟨other, mem_finish inside, rfl, id⟩
  · intro other listed took
    rcases mem_others here listed with rfl | stays
    · exact .inl (done took)
    · exact .inr ⟨other, stays, took, rfl⟩

theorem Sound.fail (sound : r.Sound) {i : Nat} {call : RefundCall}
    (here : r.calls[i]? = some call) : (r.fail i call).Sound := by
  refine sound.move _ rfl rfl ?_ ?_
  · intro other inside
    refine ⟨other, ?_, rfl, id⟩
    rcases List.mem_append.mp inside with current | past
    · exact List.mem_append_left _ (List.mem_of_mem_eraseIdx current)
    · rcases List.mem_append.mp past with before | new
      · exact List.mem_append_right _ before
      · rw [List.mem_singleton.mp new]
        exact mem_calls here
  · intro other listed took
    refine .inr ⟨other, ?_, took, rfl⟩
    rcases mem_others here listed with rfl | stays
    · exact List.mem_append_right _ (List.mem_append_right _ (List.mem_singleton_self _))
    · rcases List.mem_append.mp stays with current | past
      · exact List.mem_append_left _ current
      · exact List.mem_append_right _ (List.mem_append_left _ past)

theorem mem_advance {i : Nat} {call other : RefundCall} (rest : RefundCall)
    (here : r.calls[i]? = some call) (listed : other ∈ r.calls ++ r.stopped) :
    other = call ∨ other ∈ (r.advance i rest).calls ++ (r.advance i rest).stopped := by
  rcases List.mem_append.mp listed with current | past
  · rcases Interleaving.mem_or_erased here current with own | stays
    · exact .inl own
    · -- Taking the new call out again leaves the same others.
      rw [← List.eraseIdx_set_eq (a := rest)] at stays
      exact .inr (List.mem_append_left _ (List.mem_of_mem_eraseIdx stays))
  · exact .inr (List.mem_append_right _ past)

theorem advanced {i : Nat} {call : RefundCall} (rest : RefundCall)
    (here : r.calls[i]? = some call) :
    rest ∈ (r.advance i rest).calls ++ (r.advance i rest).stopped := by
  have inside : i < r.calls.length := (List.getElem?_eq_some_iff.mp here).1
  refine List.mem_append_left _ (List.mem_of_getElem? (i := i) ?_)
  exact List.getElem?_set_self inside

theorem mem_before {i : Nat} {rest other : RefundCall}
    (inside : other ∈ (r.advance i rest).calls ++ (r.advance i rest).stopped) :
    other = rest ∨ other ∈ r.calls ++ r.stopped := by
  rcases List.mem_append.mp inside with current | past
  · rcases List.mem_or_eq_of_mem_set current with old | new
    · exact .inr (List.mem_append_left _ old)
    · exact .inl new
  · exact .inr (List.mem_append_right _ past)

/-- An accepted request goes on with the same payment. -/
theorem Sound.advance (sound : r.Sound) {i : Nat} {call rest : RefundCall}
    (here : r.calls[i]? = some call) (took : call.isAccepted = true)
    (goes : rest.isAccepted = true) (same : call.paymentId = rest.paymentId) :
    (r.advance i rest).Sound := by
  refine sound.move _ rfl rfl ?_ ?_
  · intro other inside
    rcases mem_before inside with rfl | old
    · exact ⟨call, mem_calls here, same, fun _ => took⟩
    · exact ⟨other, old, rfl, id⟩
  · intro other listed accepted
    rcases mem_advance rest here listed with rfl | stays
    · exact .inr ⟨rest, advanced rest here, goes, same.symm⟩
    · exact .inr ⟨other, stays, accepted, rfl⟩

/-- The provider's acceptance is listed before anything else learns of it. -/
theorem Sound.accept (sound : r.Sound) {i : Nat} {payment : Payment}
    (here : r.calls[i]? = some (.asking payment)) :
    Sound { r.advance i (.answered payment) with accepted := payment.id :: r.accepted } where
  ids := sound.ids
  successes := sound.successes
  settled := by
    intro call inside
    rcases mem_before inside with rfl | old
    · exact sound.settled (.asking payment) (mem_calls here)
    · exact sound.settled call old
  unrecorded := by
    intro id ⟨call, inside, took, same⟩
    rcases mem_before inside with rfl | old
    · rw [← same]
      exact List.mem_cons_self
    · exact List.mem_cons_of_mem _ (sound.unrecorded id ⟨call, old, took, same⟩)
  refunded := fun id known => List.mem_cons_of_mem _ (sound.refunded id known)
  accounted := by
    intro id inside
    rcases List.mem_cons.mp inside with rfl | before
    · exact .inr ⟨.answered payment, advanced _ here, rfl, rfl⟩
    · rcases sound.accounted id before with done | ⟨call, listed, took, same⟩
      · exact .inl done
      · rcases mem_advance (.answered payment) here listed with rfl | stays
        · cases took
        · exact .inr ⟨call, stays, took, same⟩

/-- A request starts for a payment that is PAID. -/
theorem Sound.request (sound : r.Sound) {payment : Payment}
    (paid : r.store.db.statusOf payment.id = some .paid) :
    Sound { r with calls := r.calls ++ [.asking payment] } := by
  have members : ∀ call ∈ (r.calls ++ [.asking payment]) ++ r.stopped,
      call = .asking payment ∨ call ∈ r.calls ++ r.stopped := by
    intro call inside
    simp only [List.mem_append, List.mem_singleton] at inside ⊢
    tauto
  refine ⟨sound.ids, sound.successes, ?_, ?_, sound.refunded, ?_⟩
  · intro call inside
    rcases members call inside with rfl | old
    · exact .inl paid
    · exact sound.settled call old
  · intro id ⟨call, inside, took, same⟩
    rcases members call inside with rfl | old
    · cases took
    · exact sound.unrecorded id ⟨call, old, took, same⟩
  · intro id inside
    rcases sound.accounted id inside with done | ⟨call, listed, took, same⟩
    · exact .inl done
    · refine .inr ⟨call, ?_, took, same⟩
      simp only [List.mem_append, List.mem_singleton] at listed ⊢
      tauto

end Sound

end Refunds

theorem readForRefund_none {db : Db} {paymentId : Nat}
    (read : readForRefund db paymentId = .ok none) : db.statusOf paymentId = some .refunded := by
  obtain ⟨row, found, ⟨_, impossible⟩ | ⟨status, _⟩⟩ := readForRefund_ok read
  · cases impossible
  · rw [Db.statusOf, found, Option.map_some, status]

theorem readForRefund_paid {db : Db} {paymentId : Nat} {payment : Payment}
    (read : readForRefund db paymentId = .ok (some payment)) :
    payment.id = paymentId ∧ db.statusOf payment.id = some .paid := by
  obtain ⟨found, status⟩ := readForRefund_some read
  have named : payment.id = paymentId := Table.findUnique_key found
  refine ⟨named, ?_⟩
  rw [named, Db.statusOf, found, Option.map_some, status]

/-- The conditional update misses only a payment that is not PAID. -/
theorem paid_counted {db : Db} {id : Nat} (known : db.statusOf id = some .paid) :
    db.payments.countP (casCondition id .paid) ≠ 0 := by
  rw [Db.statusOf, Option.map_eq_some_iff] at known
  obtain ⟨payment, found, status⟩ := known
  have named : payment.id = id := Table.findUnique_key found
  have counted : 0 < db.payments.countP (casCondition id .paid) := by
    rw [List.countP_pos_iff]
    refine ⟨payment, Table.findUnique_mem found, ?_⟩
    simp [casCondition, named, status]
  omega

namespace Refunds

section Step

variable {r t : Refunds}

theorem read_sound (sound : r.Sound) {i : Nat} (taken : r.step (.read i) = some t) : t.Sound := by
  simp only [step] at taken
  split at taken
  · rename_i payment here
    split at taken
    · cases taken
      exact sound.fail here
    · rename_i input built
      have named : input.paymentId = payment.id := (refundInput_built built).1
      split at taken
      · rename_i row read
        cases taken
        have same : row.id = input.paymentId := (readForRefund_paid read).1
        exact sound.advance here rfl rfl (named.symm.trans same.symm)
      · rename_i read
        cases taken
        apply sound.finish here
        intro _
        show r.store.db.statusOf payment.id = some .refunded
        rw [← named]
        exact readForRefund_none read
      · cases taken
        exact sound.fail here
  · cases taken

/-- The update that wins writes REFUNDED; one that loses finds it written. -/
theorem record_sound (sound : r.Sound) {i : Nat} (taken : r.step (.record i) = some t) :
    t.Sound := by
  simp only [step] at taken
  split at taken
  · rename_i input payment here
    have settled : r.Settled payment.id :=
      sound.settled (.recording input payment) (mem_calls here)
    unfold commitRefund at taken
    by_cases lost : r.store.db.payments.countP (casCondition payment.id .paid) = 0
    · simp only [if_pos lost] at taken
      cases taken
      apply sound.finish here
      intro _
      rcases settled with paid | done
      · exact absurd lost (paid_counted paid)
      · exact done
    · simp only [if_neg lost] at taken
      by_cases missing : (r.store.db.findInvoiceById payment.invoiceId).isNone
      · simp only [if_pos missing] at taken
        cases taken
        exact sound.fail here
      · simp only [if_neg missing] at taken
        cases taken
        have won := commitRefund_won sound.ids input payment (Nat.pos_of_ne_zero lost)
        have listed : payment.id ∈ r.accepted :=
          sound.unrecorded payment.id ⟨_, mem_calls here, rfl, rfl⟩
        have written : Sound { r with
            store := { r.store with db := r.store.db.unsettle input payment } } := by
          apply sound.write
          · exact sound.ids.update _ _ fun _ => rfl
          · exact sound.successes
          · intro id before
            unfold Settled
            rw [won.statuses]
            by_cases same : id = payment.id ∧ r.store.db.statusOf id = some .paid
            · exact .inr (if_pos same)
            · rw [if_neg same]
              exact before
          · intro id before
            rw [won.statuses, before]
            simp
          · intro id after
            rw [won.statuses] at after
            by_cases same : id = payment.id ∧ r.store.db.statusOf id = some .paid
            · rw [same.1]
              exact .inr listed
            · rw [if_neg same] at after
              exact .inl after
        apply Sound.finish written here
        intro _
        show (r.store.db.unsettle input payment).statusOf payment.id = some .refunded
        rw [won.statuses, if_pos ⟨rfl, won.status⟩]
  · cases taken

theorem other_sound (sound : r.Sound) {label : StoreLabel}
    (taken : r.step (.other label) = some t) : t.Sound := by
  have moved : (∀ input, label ≠ .beginRefund input) ∧
      ∃ store, r.store.step label = some store ∧ t = { r with store := store } := by
    simp only [step] at taken
    split at taken
    · cases taken
    · rename_i notRefund
      rw [Option.map_eq_some_iff] at taken
      obtain ⟨store, stepped, rfl⟩ := taken
      exact ⟨notRefund, store, stepped, rfl⟩
  obtain ⟨notRefund, store, stepped, rfl⟩ := moved
  obtain ⟨successes, held⟩ := other_step sound.ids sound.successes notRefund stepped
  apply sound.write store (step_ids sound.ids stepped) successes
  · intro id settled
    rcases settled with paid | done
    · exact .inl (held.paid id paid)
    · exact .inr ((held.refunded id).mpr done)
  · intro id known
    exact (held.refunded id).mpr known
  · intro id known
    exact .inl ((held.refunded id).mp known)

theorem step_sound (label : RefundLabel) (sound : r.Sound) (taken : r.step label = some t) :
    t.Sound := by
  cases label with
  | request paymentId =>
      simp only [step] at taken
      split at taken
      · rename_i payment loaded
        cases taken
        exact sound.request (readForRefund_paid loaded).2
      · cases taken
        exact sound
  | answer i answer =>
      simp only [step] at taken
      split at taken
      · rename_i payment here
        split at taken
        · cases taken
          exact sound.accept here
        all_goals
          cases taken
          apply sound.finish here
          intro took
          cases took
      · cases taken
  | read i => exact read_sound sound taken
  | record i => exact record_sound sound taken
  | stop i =>
      simp only [step, Option.map_eq_some_iff] at taken
      obtain ⟨call, here, rfl⟩ := taken
      exact sound.fail here
  | other label => exact other_sound sound taken

/-- What the database and the requests say decides whether a refund was accepted before. -/
theorem Sound.not_accepted_iff (sound : r.Sound) {paymentId : Nat}
    (settled : r.Settled paymentId) :
    paymentId ∉ r.accepted ↔
      r.store.db.statusOf paymentId = some .paid ∧ ¬ r.Unrecorded paymentId := by
  constructor
  · intro first
    refine ⟨?_, fun waiting => first (sound.unrecorded paymentId waiting)⟩
    rcases settled with paid | done
    · exact paid
    · exact absurd (sound.refunded paymentId done) first
  · intro ⟨paid, idle⟩ listed
    rcases sound.accounted paymentId listed with done | waiting
    · rw [paid] at done
      cases done
    · exact idle waiting

theorem paidBackOnce_cons (paymentId : Nat) (once : r.PaidBackOnce)
    (accepted : t.accepted = paymentId :: r.accepted) :
    t.PaidBackOnce ↔ paymentId ∉ r.accepted := by
  constructor
  · intro still
    have bound := still paymentId
    rw [accepted, List.count_cons_self] at bound
    exact List.count_eq_zero.mp (by omega)
  · intro first other
    rw [accepted, List.count_cons]
    by_cases same : paymentId = other
    · rw [← same, List.count_eq_zero.mpr first]
      simp
    · have bound := once other
      simpa [same] using bound

/-- Only the provider's acceptance sends money. -/
theorem step_accepted (label : RefundLabel) (taken : r.step label = some t) :
    t.accepted = r.accepted ∨
      ∃ i payment, label = .answer i .accepted ∧ r.calls[i]? = some (.asking payment) ∧
        t.accepted = payment.id :: r.accepted := by
  cases label with
  | request paymentId =>
      simp only [step] at taken
      split at taken <;> cases taken <;> exact .inl rfl
  | answer i answer =>
      simp only [step] at taken
      split at taken
      · rename_i payment here
        split at taken <;> cases taken
        · exact .inr ⟨i, payment, rfl, here, rfl⟩
        · exact .inl rfl
        · exact .inl rfl
      · cases taken
  | read i =>
      simp only [step] at taken
      split at taken
      · split at taken
        · cases taken
          exact .inl rfl
        · split at taken <;> cases taken <;> exact .inl rfl
      · cases taken
  | record i =>
      simp only [step] at taken
      split at taken
      · split at taken <;> cases taken <;> exact .inl rfl
      · cases taken
  | stop i =>
      simp only [step, Option.map_eq_some_iff] at taken
      obtain ⟨_, _, rfl⟩ := taken
      exact .inl rfl
  | other label =>
      simp only [step] at taken
      split at taken
      · cases taken
      · rw [Option.map_eq_some_iff] at taken
        obtain ⟨_, _, rfl⟩ := taken
        exact .inl rfl

/-- A step keeps the promise exactly when an acceptance it makes is the payment's first. -/
theorem step_paidBackOnce (label : RefundLabel) (sound : r.Sound) (once : r.PaidBackOnce)
    (taken : r.step label = some t) : t.PaidBackOnce ↔ SoleAcceptance r label := by
  rcases step_accepted label taken with same | ⟨i, payment, rfl, here, accepted⟩
  · have still : t.PaidBackOnce := by
      intro paymentId
      rw [same]
      exact once paymentId
    refine iff_of_true still ?_
    unfold SoleAcceptance
    split
    · rename_i i
      intro call there
      simp only [step] at taken
      split at taken
      · cases taken
        exact absurd same (List.cons_ne_self _ _)
      · cases taken
    · trivial
  · have settled : r.Settled payment.id := sound.settled (.asking payment) (mem_calls here)
    rw [paidBackOnce_cons payment.id once accepted, sound.not_accepted_iff settled]
    constructor
    · intro sole call there
      rw [Option.mem_def, here] at there
      cases there
      exact sole
    · intro sole
      exact sole _ here

end Step

end Refunds

/-- However refund requests for the payments overlap and whatever the provider answers, money
goes back at most once for each payment, in every state of a run, exactly when every acceptance
in it was the only one. -/
theorem paid_back_once_iff (r t : Refunds) (labels : List RefundLabel) (initial : r.Initial)
    (ran : refunding.run r labels = some t) :
    System.Always refunding Refunds.PaidBackOnce r labels ↔
      System.Guarded SoleAcceptance refunding r labels := by
  apply System.always_iff_guarded Refunds.Sound Refunds.PaidBackOnce _ _ r t labels ran
  · exact Refunds.initial_sound r initial
  · intro paymentId
    rw [initial.accepted]
    exact Nat.zero_le 1
  · intro r label t sound taken
    exact Refunds.step_sound label sound taken
  · intro r label t sound once taken
    exact Refunds.step_paidBackOnce label sound once taken

def refundsStart : Refunds := ⟨cashStore, [], [], []⟩

theorem refundsStart_initial : refundsStart.Initial :=
  ⟨⟨by decide, by decide, rfl, rfl⟩, rfl, rfl, rfl⟩

/-- The payment is confirmed. -/
def confirming : List RefundLabel :=
  [.other (.beginSuccess ⟨1, cashEntries, none⟩), .other (.commit 0)]

/-- The first request ends before the provider answers, the second one is carried out, and the
third finds nothing left to do. -/
def refundRetried : List RefundLabel :=
  confirming ++ [.request 1, .stop 0, .request 1, .answer 0 .accepted, .read 0, .record 0,
    .request 1]

theorem refundRetried_once :
    System.Always refunding Refunds.PaidBackOnce refundsStart refundRetried := by
  have ran : (refunding.run refundsStart refundRetried).isSome = true := by decide +kernel
  obtain ⟨t, ended⟩ := Option.isSome_iff_exists.mp ran
  exact (paid_back_once_iff refundsStart t refundRetried refundsStart_initial ended).mpr
    (by decide +kernel)

/-- Two requests for one payment both pass the status check before either is recorded. -/
def refundTwice : List RefundLabel :=
  confirming ++ [.request 1, .request 1, .answer 0 .accepted, .answer 1 .accepted]

theorem two_refunds_accepted :
    ∃ t, refunding.Reachable t ∧ t.accepted = [1, 1] ∧ ¬ t.PaidBackOnce := by
  have ran : (refunding.run refundsStart refundTwice).map Refunds.accepted = some [1, 1] := by
    decide +kernel
  obtain ⟨t, ended, both⟩ := Option.map_eq_some_iff.mp ran
  refine ⟨t, System.run_reachable _ _ _ refundsStart_initial ended, both, fun once => ?_⟩
  have bound := once 1
  rw [both] at bound
  exact absurd bound (by decide)

end Farzin.Billing
