import Farzin.BillingStore
import Farzin.Transition
import Mathlib.Data.List.Dedup

set_option autoImplicit false

/- Any interleaving of the payment transactions. The ledger table is compared with a
journal of bookings, one for every status change that was won. -/
namespace Farzin.Billing

/-- The database and the transactions that are between their read and their commit. -/
structure Store where
  db : Db
  inFlight : List Transaction
  deriving DecidableEq, Repr

inductive StoreLabel where
  | createPayment (row : Payment)
  | saveCheckout (paymentId : Nat) (providerRef : String)
  | beginSuccess (input : ApplyPaymentSuccessInput)
  | beginRefund (input : ApplyRefundInput)
  | commit (i : Nat)
  | rollback (i : Nat)
  deriving DecidableEq, Repr

/-- The transaction a label commits, if it is a commit. -/
def StoreLabel.commits : StoreLabel → Option Nat
  | .commit i => some i
  | _ => none

/-- A call that fails or finds its work already done leaves the store as it was. -/
def Store.step (s : Store) : StoreLabel → Option Store
  | .createPayment row =>
      if row.status = .created ∧ row.providerTransactionId = none then
        match createPaymentIdempotent s.db row with
        | .ok (db, _, _) => some { s with db := db }
        | .error _ => some s
      else none
  | .saveCheckout paymentId providerRef =>
      match setProviderCheckout s.db paymentId providerRef with
      | .ok db => some { s with db := db }
      | .error _ => some s
  | .beginSuccess input =>
      match readForSuccess s.db input.paymentId with
      | .ok (some payment) => some { s with inFlight := s.inFlight ++ [.success input payment] }
      | _ => some s
  | .beginRefund input =>
      match readForRefund s.db input.paymentId with
      | .ok (some payment) => some { s with inFlight := s.inFlight ++ [.refund input payment] }
      | _ => some s
  | .commit i =>
      s.inFlight[i]?.map fun transaction =>
        match transaction.commit s.db with
        | .ok (db, _) => ⟨db, s.inFlight.eraseIdx i⟩
        | .error _ => ⟨s.db, s.inFlight.eraseIdx i⟩
  | .rollback i => s.inFlight[i]?.map fun _ => { s with inFlight := s.inFlight.eraseIdx i }

/-- Payments exist, nothing has been paid or booked yet, nothing is in flight. -/
structure Store.Initial (s : Store) : Prop where
  ids : Table.Unique Payment.id s.db.payments
  unpaid : ∀ p ∈ s.db.payments, p.status ≠ .paid ∧ p.status ≠ .refunded
  ledger : s.db.ledger = []
  inFlight : s.inFlight = []

def transactions : Transition.System Store StoreLabel := ⟨Store.Initial, Store.step⟩

/-- The entries of a call are those its callers build from the payment's amount: for a
success under some provider, for a refund by reversing the payment's own entries. -/
def BuiltByCaller (s : Store) : StoreLabel → Prop
  | .beginSuccess input => ∃ payment provider,
      s.db.findPaymentById input.paymentId = some payment ∧
        buildEntryFeePaymentEntries provider payment.amount = .ok input.entries
  | .beginRefund input => ∃ payment entries,
      s.db.findPaymentById input.paymentId = some payment ∧
        buildEntryFeePaymentEntries payment.provider payment.amount = .ok entries ∧
          reverseLedgerEntries entries = .ok input.entries
  | _ => True

def rowTotal (rows : List LedgerRow) (direction : LedgerEntryDirection) : Int :=
  sumByDirection (rows.map LedgerRow.entry) direction

/-- The distinct transaction ids of a payment's ledger rows. -/
def Db.transactionsOf (db : Db) (paymentId : Nat) : List Nat :=
  ((db.ledger.filter fun row => row.paymentId = paymentId).map LedgerRow.transactionId).dedup

def Db.transactionsFor (db : Db) (paymentId : Nat) (reason : BookingReason) : List Nat :=
  ((db.ledger.filter fun row => row.paymentId = paymentId ∧ row.reason = reason).map
    LedgerRow.transactionId).dedup

def Db.statusOf (db : Db) (paymentId : Nat) : Option PaymentStatusValue :=
  (db.findPaymentById paymentId).map Payment.status

/-- How many transactions of each kind a payment has booked, by its status. -/
def bookings : PaymentStatusValue → BookingReason → Nat
  | .paid, .paymentSucceeded => 1
  | .refunded, .paymentSucceeded => 1
  | .refunded, .refundRequested => 1
  | _, _ => 0

/-- Ledger and payment statuses tell the same story. -/
structure LedgerAgrees (db : Db) : Prop where
  transaction : ∀ t,
    rowTotal (db.ledger.filter fun row => row.transactionId = t) .debit =
      rowTotal (db.ledger.filter fun row => row.transactionId = t) .credit
  whole : rowTotal db.ledger .debit = rowTotal db.ledger .credit
  count : ∀ id p, db.findPaymentById id = some p → (db.transactionsOf id).length =
    if p.status = .paid then 1 else if p.status = .refunded then 2 else 0
  kinds : ∀ id p reason, db.findPaymentById id = some p →
    (db.transactionsFor id reason).length = bookings p.status reason

/-- One ledger transaction, before it is spread over rows. -/
structure Booking where
  transactionId : Nat
  paymentId : Nat
  reason : BookingReason
  currency : String
  entries : List LedgerEntryInput

def Booking.rows (b : Booking) : List LedgerRow :=
  b.entries.map fun e => ⟨b.transactionId, b.paymentId, e, b.currency, b.reason⟩

/-- The bookings behind the ledger rows: each balanced, each with an id of its own, and
of each payment exactly those its status calls for. -/
structure Journaled (db : Db) (journal : List Booking) : Prop where
  rows : db.ledger = journal.flatMap Booking.rows
  fresh : ∀ b ∈ journal, b.transactionId < db.transactionCount
  distinct : (journal.map Booking.transactionId).Nodup
  balanced : ∀ b ∈ journal, Balanced b.entries
  owned : ∀ b ∈ journal, db.statusOf b.paymentId ≠ none
  booked : ∀ id status reason, db.statusOf id = some status →
    (journal.countP fun b => b.paymentId = id ∧ b.reason = reason) = bookings status reason

section Rows

/-- A row condition that only looks at its booking selects whole bookings. -/
theorem filter_rows (journal : List Booking) (condition : LedgerRow → Bool)
    (selects : Booking → Bool)
    (agrees : ∀ b, ∀ row ∈ b.rows, condition row = selects b) :
    (journal.flatMap Booking.rows).filter condition =
      (journal.filter selects).flatMap Booking.rows := by
  induction journal with
  | nil => rfl
  | cons b journal ih =>
      rw [List.flatMap_cons, List.filter_append, ih, List.filter_cons]
      by_cases chosen : selects b = true
      · have all : b.rows.filter condition = b.rows :=
          List.filter_eq_self.mpr fun row inside => (agrees b row inside).trans chosen
        rw [if_pos chosen, List.flatMap_cons, all]
      · have none : b.rows.filter condition = [] := by
          rw [List.filter_eq_nil_iff]
          intro row inside
          rw [agrees b row inside]
          exact chosen
        rw [if_neg chosen, none, List.nil_append]

theorem rowTotal_rows (b : Booking) (direction : LedgerEntryDirection) :
    rowTotal b.rows direction = sumByDirection b.entries direction := by
  rw [rowTotal, Booking.rows, List.map_map]
  congr 1
  exact List.map_id _

theorem rowTotal_append (left right : List LedgerRow) (direction : LedgerEntryDirection) :
    rowTotal (left ++ right) direction = rowTotal left direction + rowTotal right direction := by
  simp only [rowTotal, sumByDirection, List.map_append, List.sum_append]

/-- Balanced bookings add up to balanced rows. -/
theorem rowTotal_balanced (journal : List Booking) (balanced : ∀ b ∈ journal, Balanced b.entries) :
    rowTotal (journal.flatMap Booking.rows) .debit =
      rowTotal (journal.flatMap Booking.rows) .credit := by
  induction journal with
  | nil => rfl
  | cons b journal ih =>
      have rest := ih fun other inside => balanced other (List.mem_cons_of_mem _ inside)
      have first := (balanced b List.mem_cons_self).equal
      rw [List.flatMap_cons, rowTotal_append, rowTotal_append, rest, rowTotal_rows, rowTotal_rows,
        first]

theorem mem_rows_ids (journal : List Booking) (balanced : ∀ b ∈ journal, Balanced b.entries)
    (t : Nat) :
    t ∈ (journal.flatMap Booking.rows).map LedgerRow.transactionId ↔
      t ∈ journal.map Booking.transactionId := by
  simp only [List.mem_map, List.mem_flatMap]
  constructor
  · intro ⟨row, ⟨b, inside, member⟩, same⟩
    rw [Booking.rows, List.mem_map] at member
    obtain ⟨e, _, rfl⟩ := member
    exact ⟨b, inside, same⟩
  · intro ⟨b, inside, same⟩
    have nonempty := (balanced b inside).atLeastTwo
    have positive : 0 < b.entries.length := by omega
    obtain ⟨e, member⟩ := List.exists_mem_of_length_pos positive
    exact ⟨_, ⟨b, inside, List.mem_map.mpr ⟨e, member, rfl⟩⟩, same⟩

/-- Distinct ids among the rows are counted by the bookings. -/
theorem ids_length (journal : List Booking) (balanced : ∀ b ∈ journal, Balanced b.entries)
    (distinct : (journal.map Booking.transactionId).Nodup) :
    ((journal.flatMap Booking.rows).map LedgerRow.transactionId).dedup.length =
      journal.length := by
  have perm : ((journal.flatMap Booking.rows).map LedgerRow.transactionId).dedup.Perm
      (journal.map Booking.transactionId) := by
    rw [List.perm_ext_iff_of_nodup (List.nodup_dedup _) distinct]
    intro t
    rw [List.mem_dedup]
    exact mem_rows_ids journal balanced t
  rw [perm.length_eq, List.length_map]

/-- The ids of the selected rows are counted by the selected bookings. -/
theorem selected_ids_length (journal : List Booking)
    (balanced : ∀ b ∈ journal, Balanced b.entries)
    (distinct : (journal.map Booking.transactionId).Nodup) (condition : LedgerRow → Bool)
    (selects : Booking → Bool) (agrees : ∀ b, ∀ row ∈ b.rows, condition row = selects b) :
    (((journal.flatMap Booking.rows).filter condition).map LedgerRow.transactionId).dedup.length =
      journal.countP selects := by
  rw [filter_rows journal condition selects agrees, ids_length, List.countP_eq_length_filter]
  · intro b inside
    exact balanced b (List.mem_of_mem_filter inside)
  · exact distinct.sublist (List.filter_sublist.map _)

end Rows

theorem countP_kinds (journal : List Booking) (id : Nat) :
    (journal.countP fun b => b.paymentId = id) =
      (journal.countP fun b => b.paymentId = id ∧ b.reason = .paymentSucceeded) +
        journal.countP fun b => b.paymentId = id ∧ b.reason = .refundRequested := by
  induction journal with
  | nil => rfl
  | cons b journal ih =>
      rw [List.countP_cons, List.countP_cons, List.countP_cons, ih]
      by_cases owned : b.paymentId = id
      · cases kind : b.reason <;> simp [owned] <;> omega
      · simp [owned]

/-- A journaled ledger agrees with the statuses. -/
theorem Journaled.agrees {db : Db} {journal : List Booking} (journaled : Journaled db journal) :
    LedgerAgrees db where
  transaction := by
    intro t
    rw [journaled.rows, filter_rows journal _ fun b => b.transactionId = t]
    · exact rowTotal_balanced _ fun b inside => journaled.balanced b (List.mem_of_mem_filter inside)
    · intro b row inside
      rw [Booking.rows, List.mem_map] at inside
      obtain ⟨e, _, rfl⟩ := inside
      rfl
  whole := by
    rw [journaled.rows]
    exact rowTotal_balanced journal journaled.balanced
  count := by
    intro id p found
    have known : db.statusOf id = some p.status := by rw [Db.statusOf, found, Option.map_some]
    have success := journaled.booked id p.status .paymentSucceeded known
    have refund := journaled.booked id p.status .refundRequested known
    rw [Db.transactionsOf, journaled.rows,
      selected_ids_length journal journaled.balanced journaled.distinct _
        (fun b => b.paymentId = id), countP_kinds, success, refund]
    · cases p.status <;> rfl
    · intro b row inside
      rw [Booking.rows, List.mem_map] at inside
      obtain ⟨e, _, rfl⟩ := inside
      rfl
  kinds := by
    intro id p reason found
    rw [Db.transactionsFor, journaled.rows,
      selected_ids_length journal journaled.balanced journaled.distinct _
        (fun b => b.paymentId = id ∧ b.reason = reason)]
    · apply journaled.booked id p.status reason
      rw [Db.statusOf, found, Option.map_some]
    · intro b row inside
      rw [Booking.rows, List.mem_map] at inside
      obtain ⟨e, _, rfl⟩ := inside
      rfl

end Farzin.Billing
