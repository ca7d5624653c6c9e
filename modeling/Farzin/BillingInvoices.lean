import Farzin.BillingRequestsRefinement

set_option autoImplicit false

/- How often an invoice is paid. The idempotency key guards one payment; nothing at the
commit of a success looks at the invoice's other payments. -/
namespace Farzin.Billing

def isPaidOf (invoiceId : Nat) (p : Payment) : Bool := p.invoiceId = invoiceId ∧ p.status = .paid

def Db.paidCount (db : Db) (invoiceId : Nat) : Nat := db.payments.countP (isPaidOf invoiceId)

/-- At most one payment of an invoice is PAID, and the invoice is PAID exactly then. -/
def InvoicesSettled (db : Db) : Prop :=
  ∀ invoice ∈ db.invoices, db.paidCount invoice.id ≤ 1 ∧
    (invoice.status = .paid ↔ db.paidCount invoice.id = 1)

instance (db : Db) : Decidable (InvoicesSettled db) := by
  unfold InvoicesSettled
  infer_instance

/-- Whatever a transaction in flight has read still fits the stored payment. -/
def Transaction.Fits (db : Db) : Transaction → Prop
  | .success _ payment => db.termsOf payment.id = some payment.terms ∧
      canTransitionPayment payment.status .paid = true
  | .refund _ payment => db.termsOf payment.id = some payment.terms

theorem Transaction.Fits.keep {db after : Db} {t : Transaction} (fits : t.Fits db)
    (kept : TermsKept db after) : t.Fits after := by
  cases t with
  | success input payment => exact ⟨kept _ _ fits.1, fits.2⟩
  | refund input payment => exact kept _ _ fits

structure Store.Fitting (s : Store) : Prop where
  ids : Table.Unique Payment.id s.db.payments
  invoiceIds : Table.Unique Invoice.id s.db.invoices
  inFlight : ∀ t ∈ s.inFlight, t.Fits s.db

theorem began_fits {db : Db} {label : StoreLabel} {t : Transaction} (read : Began db label t) :
    t.Fits db := by
  cases read with
  | success input payment found allowed =>
      have id := Table.findUnique_key found
      exact ⟨termsOf_found (by rw [id]; exact found), allowed⟩
  | refund input payment found paid =>
      have id := Table.findUnique_key found
      exact termsOf_found (by rw [id]; exact found)

theorem step_invoiceIds {s t : Store} {label : StoreLabel}
    (unique : Table.Unique Invoice.id s.db.invoices) (taken : s.step label = some t) :
    Table.Unique Invoice.id t.db.invoices := by
  cases step_effect s label t taken with
  | idle => exact unique
  | created => exact unique
  | referenced => exact unique
  | began => exact unique
  | rolledBack => exact unique
  | lost => exact unique
  | paid => exact unique.update _ _ fun _ => rfl
  | refunded => exact unique.update _ _ fun _ => rfl

theorem step_fitting {s t : Store} {label : StoreLabel} (fitting : s.Fitting)
    (taken : s.step label = some t) : t.Fitting where
  ids := step_ids fitting.ids taken
  invoiceIds := step_invoiceIds fitting.invoiceIds taken
  inFlight := by
    have kept := step_terms taken
    cases step_effect s label t taken with
    | idle => exact fitting.inFlight
    | created => exact fun t inside => (fitting.inFlight t inside).keep kept
    | referenced => exact fun t inside => (fitting.inFlight t inside).keep kept
    | began _ transaction read =>
        intro other inside
        rw [List.mem_append, List.mem_singleton] at inside
        rcases inside with old | rfl
        · exact fitting.inFlight other old
        · exact began_fits read
    | rolledBack => exact fun t inside => fitting.inFlight t (List.mem_of_mem_eraseIdx inside)
    | lost => exact fun t inside => fitting.inFlight t (List.mem_of_mem_eraseIdx inside)
    | paid =>
        exact fun t inside => (fitting.inFlight t (List.mem_of_mem_eraseIdx inside)).keep kept
    | refunded =>
        exact fun t inside => (fitting.inFlight t (List.mem_of_mem_eraseIdx inside)).keep kept

/-- A won status update moves the count of the payment's invoice by that payment alone. -/
theorem paidCount_cas {db : Db} (unique : Table.Unique Payment.id db.payments) (payment : Payment)
    (expected target : PaymentStatusValue) (change : Payment → Payment)
    (terms : ∀ p, (change p).terms = p.terms) (sets : ∀ p, (change p).status = target)
    (fits : db.termsOf payment.id = some payment.terms)
    (counted : 0 < db.payments.countP (casCondition payment.id expected)) (invoiceId : Nat) :
    (db.casPayment payment.id expected change).paidCount invoiceId +
        (if invoiceId = payment.invoiceId ∧ expected = .paid then 1 else 0) =
      db.paidCount invoiceId +
        (if invoiceId = payment.invoiceId ∧ target = .paid then 1 else 0) := by
  obtain ⟨row, inside, holds⟩ := List.countP_pos_iff.mp counted
  simp only [casCondition, Bool.and_eq_true, decide_eq_true_eq] at holds
  obtain ⟨named, status⟩ := holds
  obtain ⟨stored, found, same⟩ := termsOf_some fits
  have isRow : stored = row := by
    have here := unique.find inside
    rw [named, ← Db.findPaymentById, found] at here
    exact Option.some.inj here
  subst isRow
  have invoice : stored.invoiceId = payment.invoiceId := congrArg PaymentTerms.invoiceId same
  have changed : (change stored).invoiceId = payment.invoiceId :=
    (congrArg PaymentTerms.invoiceId (terms stored)).trans invoice
  have only : ∀ other ∈ db.payments,
      casCondition payment.id expected other = true ↔ other.id = stored.id := by
    intro other member
    simp only [casCondition, Bool.and_eq_true, decide_eq_true_eq, ← named]
    constructor
    · exact fun both => both.1
    · intro sameId
      have equal := List.inj_on_of_nodup_map unique member inside sameId
      exact ⟨sameId, by rw [equal, status]⟩
  have moved := unique.countP_update inside (casCondition payment.id expected) change
    (isPaidOf invoiceId) only
  simp only [isPaidOf, invoice, changed, status, sets, decide_eq_true_eq] at moved
  simp only [eq_comm (a := invoiceId)]
  exact moved

/-- The invoices after one of them has its status set. -/
theorem mem_setInvoiceStatus {db : Db} {invoiceId : Nat} {status : PaymentStatusValue}
    {invoice : Invoice} (inside : invoice ∈ (db.setInvoiceStatus invoiceId status).invoices) :
    ∃ before ∈ db.invoices, invoice.id = before.id ∧
      invoice.status = if before.id = invoiceId then status else before.status := by
  obtain ⟨before, member, rfl⟩ := Table.mem_updateWhere.mp inside
  refine ⟨before, member, ?_⟩
  by_cases same : before.id = invoiceId
  · simp [same]
  · simp [same]

theorem setInvoiceStatus_mem {db : Db} (invoiceId : Nat) (status : PaymentStatusValue)
    {before : Invoice} (member : before ∈ db.invoices) :
    ∃ invoice ∈ (db.setInvoiceStatus invoiceId status).invoices, invoice.id = before.id ∧
      invoice.status = if before.id = invoiceId then status else before.status := by
  refine ⟨_, Table.mem_updateWhere.mpr ⟨before, member, rfl⟩, ?_⟩
  by_cases same : before.id = invoiceId
  · simp [same]
  · simp [same]

/-- What deciding one invoice's status does to the whole property. -/
theorem settled_after {db : Db} (after : Db) (invoiceId : Nat) (status : PaymentStatusValue)
    (settled : InvoicesSettled db)
    (invoices : after.invoices = (db.setInvoiceStatus invoiceId status).invoices)
    (others : ∀ id, id ≠ invoiceId → after.paidCount id = db.paidCount id) :
    InvoicesSettled after ↔ ∀ invoice ∈ db.invoices, invoice.id = invoiceId →
      after.paidCount invoiceId ≤ 1 ∧ (status = .paid ↔ after.paidCount invoiceId = 1) := by
  constructor
  · intro holds before member same
    obtain ⟨invoice, inside, id, now⟩ := setInvoiceStatus_mem invoiceId status member
    have here := holds invoice (by rw [invoices]; exact inside)
    rw [now, id, if_pos same, same] at here
    exact here
  · intro holds invoice inside
    rw [invoices] at inside
    obtain ⟨before, member, id, now⟩ := mem_setInvoiceStatus inside
    rw [now, id]
    by_cases same : before.id = invoiceId
    · rw [if_pos same, same]
      exact holds before member same
    · rw [if_neg same, others before.id same]
      exact settled before member

/-- If the `i`-th transaction is a success about to win its update, its invoice is not PAID. -/
def Store.OpenFor (s : Store) (i : Nat) : Prop :=
  ∀ input payment, s.inFlight[i]? = some (.success input payment) →
    (Transaction.success input payment).Wins s.db →
      ∀ invoice ∈ s.db.invoices, invoice.id = payment.invoiceId → invoice.status ≠ .paid

/-- A success keeps the property exactly when its invoice was not PAID before. -/
theorem settle_iff {s : Store} (fitting : s.Fitting) (settled : InvoicesSettled s.db)
    {input : ApplyPaymentSuccessInput} {payment : Payment}
    (fits : (Transaction.success input payment).Fits s.db)
    (wins : (Transaction.success input payment).Wins s.db) :
    InvoicesSettled (s.db.settle input payment) ↔
      ∀ invoice ∈ s.db.invoices, invoice.id = payment.invoiceId → invoice.status ≠ .paid := by
  have moved := paidCount_cas fitting.ids payment payment.status .paid (markPaid input)
    (fun _ => rfl) (fun _ => rfl) fits.1 wins.1
  have unpaid : payment.status ≠ .paid := by
    intro paid
    have allowed := fits.2
    rw [paid] at allowed
    cases allowed
  have counts : ∀ id, (s.db.settle input payment).paidCount id =
      s.db.paidCount id + if id = payment.invoiceId then 1 else 0 := by
    intro id
    have here := moved id
    simp only [unpaid, and_false, if_false, and_true] at here
    exact here
  rw [settled_after (s.db.settle input payment) payment.invoiceId .paid settled rfl
    fun id other => by rw [counts, if_neg other]; rfl]
  apply forall_congr'
  intro invoice
  apply forall_congr'
  intro member
  apply forall_congr'
  intro same
  have before := settled invoice member
  rw [same] at before
  rw [counts, if_pos rfl, ne_eq, before.2]
  constructor
  · intro after
    omega
  · intro free
    exact ⟨by omega, fun _ => by omega, fun _ => rfl⟩

/-- A refund always keeps it: the payment was the only one PAID. -/
theorem unsettle_settled {s : Store} (fitting : s.Fitting) (settled : InvoicesSettled s.db)
    {input : ApplyRefundInput} {payment : Payment}
    (fits : (Transaction.refund input payment).Fits s.db)
    (wins : (Transaction.refund input payment).Wins s.db) :
    InvoicesSettled (s.db.unsettle input payment) := by
  have moved := paidCount_cas fitting.ids payment .paid .refunded markRefunded
    (fun _ => rfl) (fun _ => rfl) fits wins.1
  have counts : ∀ id, (s.db.unsettle input payment).paidCount id +
      (if id = payment.invoiceId then 1 else 0) = s.db.paidCount id := by
    intro id
    have here := moved id
    simp only [and_true, reduceCtorEq, and_false, if_false, Nat.add_zero] at here
    exact here
  rw [settled_after (s.db.unsettle input payment) payment.invoiceId .refunded settled rfl]
  · intro invoice member same
    have before := settled invoice member
    have here := counts payment.invoiceId
    rw [same] at before
    rw [if_pos rfl] at here
    refine ⟨by omega, ?_, ?_⟩
    · intro impossible
      cases impossible
    · intro one
      omega
  · intro id other
    have here := counts id
    rw [if_neg other] at here
    exact here

theorem create_paidCount (db : Db) (row : Payment) (status : row.status = .created) (id : Nat) :
    Db.paidCount { db with payments := db.payments ++ [row] } id = db.paidCount id := by
  rw [Db.paidCount, List.countP_append, List.countP_singleton, isPaidOf, status, Db.paidCount]
  simp

theorem checkout_paidCount (db : Db) (paymentId : Nat) (providerRef : String) (id : Nat) :
    Db.paidCount { db with
      payments := Table.updateWhere (fun p => p.id = paymentId) (attachReference providerRef)
        db.payments } id = db.paidCount id :=
  Table.countP_update_same _ (attachReference providerRef) _ _ fun _ => rfl

/-- One step of the store keeps the property exactly when it commits no success onto a
PAID invoice. -/
theorem step_settled_iff {s t : Store} {label : StoreLabel} (fitting : s.Fitting)
    (settled : InvoicesSettled s.db) (taken : s.step label = some t) :
    InvoicesSettled t.db ↔ ∀ i, label.commits = some i → s.OpenFor i := by
  have other : label.commits = none → ∀ i, label.commits = some i → s.OpenFor i := by
    intro none i some
    rw [none] at some
    cases some
  cases step_effect s label t taken with
  | idle _ call => exact iff_of_true settled (other call)
  | created row status =>
      refine iff_of_true ?_ (other rfl)
      intro invoice member
      rw [create_paidCount s.db row status]
      exact settled invoice member
  | referenced paymentId providerRef =>
      refine iff_of_true ?_ (other rfl)
      intro invoice member
      rw [checkout_paidCount s.db paymentId providerRef]
      exact settled invoice member
  | began _ transaction read =>
      refine iff_of_true settled (other ?_)
      cases read <;> rfl
  | rolledBack i => exact iff_of_true settled (other rfl)
  | lost i transaction here loses =>
      refine iff_of_true settled ?_
      intro k same input payment found wins
      cases same
      rw [here, Option.some.injEq] at found
      rw [found] at loses
      exact absurd wins loses
  | paid i input payment here wins =>
      have fits := fitting.inFlight _ (List.mem_of_getElem? here)
      rw [settle_iff fitting settled fits wins]
      constructor
      · intro free k same input' payment' found _
        cases same
        rw [here] at found
        cases found
        exact free
      · intro free
        exact free i rfl input payment here wins
  | refunded i input payment here wins =>
      have fits := fitting.inFlight _ (List.mem_of_getElem? here)
      refine iff_of_true (unsettle_settled fitting settled fits wins) ?_
      intro k same input' payment' found _
      cases same
      rw [here] at found
      cases found

/-- A commit of a success that is about to take effect finds its invoice not PAID. -/
def SettlesOpenInvoice (s : Service) (label : ServiceLabel) : Prop :=
  ∀ i, label.commits = some i → s.store.OpenFor i

namespace Service

/-- What a request step needs for its whole run: its requests and the store's fit. -/
structure Sound (s : Service) : Prop where
  backed : s.Backed
  fitting : s.store.Fitting

theorem step_sound (configured : PaymentProvider → Bool) (s : Service) (label : ServiceLabel)
    (t : Service) (sound : s.Sound) (taken : s.step configured label = some t) : t.Sound := by
  obtain ⟨backed, moved⟩ := step_move configured s label t sound.backed taken
  refine ⟨backed, ?_⟩
  rcases moved with ⟨same, _⟩ | ⟨move, _, moved, _⟩
  · rw [same]
    exact sound.fitting
  · exact step_fitting sound.fitting moved

theorem step_settled (configured : PaymentProvider → Bool) (s : Service) (label : ServiceLabel)
    (t : Service) (sound : s.Sound) (settled : InvoicesSettled s.store.db)
    (taken : s.step configured label = some t) :
    InvoicesSettled t.store.db ↔ SettlesOpenInvoice s label := by
  rcases (step_move configured s label t sound.backed taken).2 with
    ⟨same, none⟩ | ⟨move, _, moved, commits⟩
  · rw [same]
    refine iff_of_true settled ?_
    intro i some
    rw [none] at some
    cases some
  · rw [SettlesOpenInvoice, ← commits]
    exact step_settled_iff sound.fitting settled moved

theorem initial_sound (s : Service) (initial : s.Initial) : s.Sound where
  backed := initial_backed s initial
  fitting := {
    ids := initial.store.ids
    invoiceIds := initial.invoiceIds
    inFlight := by
      rw [initial.store.inFlight]
      intro t inside
      cases inside }

theorem initial_settled (s : Service) (initial : s.Initial) : InvoicesSettled s.store.db := by
  intro invoice member
  have none : s.store.db.paidCount invoice.id = 0 := by
    rw [Db.paidCount, List.countP_eq_zero]
    intro p inside paid
    simp only [isPaidOf, decide_eq_true_eq] at paid
    exact (initial.store.unpaid p inside).1 paid.2
  rw [none]
  refine ⟨Nat.zero_le 1, ?_, ?_⟩
  · intro paid
    exact absurd paid (initial.unpaid invoice member)
  · intro impossible
    cases impossible

end Service

/-- In a run of requests every state has its invoices settled if and only if no success
takes effect on an invoice that is already PAID. -/
theorem invoice_paid_once_iff (configured : PaymentProvider → Bool) (s t : Service)
    (initial : s.Initial) (labels : List ServiceLabel)
    (ran : (service configured).run s labels = some t) :
    (service configured).Always (fun s => InvoicesSettled s.store.db) s labels ↔
      Transition.System.Guarded SettlesOpenInvoice (service configured) s labels :=
  Transition.System.always_iff_guarded Service.Sound (fun s => InvoicesSettled s.store.db)
    (Service.step_sound configured) (Service.step_settled configured) s t labels ran
    (Service.initial_sound s initial) (Service.initial_settled s initial)

/-- One open invoice and nothing else. -/
def openInvoice : Service where
  store := {
    db := {
      invoices := [⟨7, 1, 500, "UZS", .created⟩]
      payments := []
      registrations := [⟨3, some 7, false⟩]
      ledger := []
      transactionCount := 0 }
    inFlight := [] }
  requests := []

theorem openInvoice_initial : openInvoice.Initial :=
  ⟨⟨by decide, by decide, rfl, rfl⟩, by decide, by decide, rfl⟩

/-- Two payments are initiated under different keys before either is confirmed. -/
def twoPayments : List ServiceLabel :=
  [.initiatePayment 7 .manual "first", .checkKey 0, .insert 0 1, .saveCheckout 0 "MANUAL-1",
    .initiatePayment 7 .manual "second", .checkKey 0, .insert 0 2, .saveCheckout 0 "MANUAL-2",
    .confirmManual 1, .applySuccess 0, .commit 0]

/-- Confirming the second payment as well pays the invoice twice. -/
theorem invoice_paid_twice :
    openInvoice.Initial ∧ ∃ s, (service fun p => p = .manual).run openInvoice
      (twoPayments ++ [.confirmManual 2, .applySuccess 0, .commit 0]) = some s ∧
        s.store.db.paidCount 7 = 2 ∧ ¬ InvoicesSettled s.store.db := by
  refine ⟨openInvoice_initial, _, rfl, rfl, ?_⟩
  decide

theorem settlesOpen_other (s : Service) (label : ServiceLabel) (none : label.commits = none) :
    SettlesOpenInvoice s label := by
  intro i some
  rw [none] at some
  cases some

/-- Up to the first confirmation the same run is in order. -/
theorem twoPayments_settled :
    (service fun p => p = .manual).Always (fun s => InvoicesSettled s.store.db) openInvoice
      twoPayments := by
  apply (invoice_paid_once_iff _ openInvoice _ openInvoice_initial twoPayments rfl).mpr
  iterate 10
    refine ⟨settlesOpen_other _ _ rfl, fun _ taken => ?_⟩
    cases taken
  refine ⟨?_, fun _ _ => trivial⟩
  intro i same input payment here _ invoice member _
  cases same
  cases here
  rw [List.mem_singleton.mp member]
  decide

end Farzin.Billing
