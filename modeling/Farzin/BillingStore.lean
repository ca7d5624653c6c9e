import Farzin.BillingLedger
import Farzin.Table

set_option autoImplicit false

/- The payment status machine (`billing/payment-status.machine.ts`) and the two payment
transactions of `billing/billing.repository.ts`. A transaction reads its payment first
and later runs the conditional update together with all its other writes. -/
namespace Farzin.Billing

/-- `PaymentStatus` of the schema; invoices use the same enumeration. -/
inductive PaymentStatusValue where
  | created
  | pending
  | paid
  | failed
  | expired
  | cancelled
  | refundRequested
  | refunded
  deriving DecidableEq, Repr

def PaymentStatusValue.name : PaymentStatusValue → String
  | .created => "CREATED"
  | .pending => "PENDING"
  | .paid => "PAID"
  | .failed => "FAILED"
  | .expired => "EXPIRED"
  | .cancelled => "CANCELLED"
  | .refundRequested => "REFUND_REQUESTED"
  | .refunded => "REFUNDED"

def transitions : PaymentStatusValue → List PaymentStatusValue
  | .created => [.pending, .paid, .cancelled, .expired]
  | .pending => [.paid, .failed, .expired, .cancelled]
  | .paid => [.refundRequested]
  | .refundRequested => [.refunded, .paid]
  | .failed => []
  | .expired => []
  | .cancelled => []
  | .refunded => []

def canTransitionPayment (source target : PaymentStatusValue) : Bool :=
  (transitions source).contains target

inductive BillingError where
  | notFound (entity : String) (id : Option Nat)
  | businessRule (code message : String)
  | conflict (message : String)
  | ledgerImbalance (error : LedgerImbalanceError)
  /-- A unique index of the database rejected the write. -/
  | uniqueViolation
  deriving DecidableEq, Repr

def assertPaymentTransition (source target : PaymentStatusValue) : Except BillingError Unit :=
  if canTransitionPayment source target then .ok ()
  else .error (.businessRule "ILLEGAL_PAYMENT_TRANSITION"
    s!"To'lov holati {source.name} dan {target.name} ga o'ta olmaydi")

def assertRefundPath (source : PaymentStatusValue) : Except BillingError Unit := do
  assertPaymentTransition source .refundRequested
  assertPaymentTransition .refundRequested .refunded

structure Invoice where
  id : Nat
  userId : Nat
  totalAmount : Int
  currency : String
  status : PaymentStatusValue
  deriving DecidableEq, Repr

structure Payment where
  id : Nat
  invoiceId : Nat
  provider : PaymentProvider
  status : PaymentStatusValue
  amount : Int
  currency : String
  idempotencyKey : String
  providerTransactionId : Option String
  deriving DecidableEq, Repr

structure Registration where
  id : Nat
  invoiceId : Option Nat
  isConfirmed : Bool
  deriving DecidableEq, Repr

/-- What a ledger transaction books. -/
inductive BookingReason where
  | paymentSucceeded
  | refundRequested
  deriving DecidableEq, Repr

structure LedgerRow where
  transactionId : Nat
  paymentId : Nat
  entry : LedgerEntryInput
  currency : String
  reason : BookingReason
  deriving DecidableEq, Repr

/-- The billing tables. Fresh transaction ids are drawn from a counter, since random
ids never repeat. -/
structure Db where
  invoices : List Invoice
  payments : List Payment
  registrations : List Registration
  ledger : List LedgerRow
  transactionCount : Nat
  deriving DecidableEq, Repr

def Db.findPaymentById (db : Db) (id : Nat) : Option Payment :=
  Table.findUnique Payment.id db.payments id

def Db.findInvoiceById (db : Db) (id : Nat) : Option Invoice :=
  Table.findUnique Invoice.id db.invoices id

def Db.findPaymentByIdempotencyKey (db : Db) (key : String) : Option Payment :=
  Table.findUnique Payment.idempotencyKey db.payments key

def Db.findPaymentByProviderTx (db : Db) (provider : PaymentProvider) (transaction : String) :
    Option Payment :=
  db.payments.find? fun p => p.provider = provider ∧ p.providerTransactionId = some transaction

/-- The unique index on provider and provider transaction id, before a write to `id`. -/
def Db.transactionTaken (db : Db) (id : Nat) (provider : PaymentProvider)
    (transaction : Option String) : Bool :=
  transaction.isSome && db.payments.any fun p =>
    p.id ≠ id && p.provider = provider && p.providerTransactionId = transaction

structure ApplyPaymentSuccessInput where
  paymentId : Nat
  entries : List LedgerEntryInput
  providerTransactionId : Option String
  deriving DecidableEq, Repr

structure ApplyRefundInput where
  paymentId : Nat
  entries : List LedgerEntryInput
  deriving DecidableEq, Repr

/-- `createMany` of the rows of one ledger transaction, under a fresh id. -/
def Db.book (db : Db) (payment : Payment) (reason : BookingReason)
    (entries : List LedgerEntryInput) : Db :=
  { db with
    ledger := db.ledger ++ entries.map fun e =>
      ⟨db.transactionCount, payment.id, e, payment.currency, reason⟩
    transactionCount := db.transactionCount + 1 }

def Db.setInvoiceStatus (db : Db) (invoiceId : Nat) (status : PaymentStatusValue) : Db :=
  { db with
    invoices := Table.updateWhere (fun i => i.id = invoiceId) (fun i => { i with status := status })
      db.invoices }

def Db.confirmRegistrations (db : Db) (invoiceId : Nat) : Db :=
  { db with
    registrations := Table.updateWhere (fun r => r.invoiceId = some invoiceId)
      (fun r => { r with isConfirmed := true }) db.registrations }

/-- The row a status update by id and expected status looks for. -/
def casCondition (id : Nat) (expected : PaymentStatusValue) (p : Payment) : Bool :=
  p.id = id && p.status = expected

def Db.casPayment (db : Db) (id : Nat) (expected : PaymentStatusValue)
    (change : Payment → Payment) : Db :=
  { db with payments := Table.updateWhere (casCondition id expected) change db.payments }

/-- Inserts a CREATED payment, or returns the one that already has the key. The row's id
is fresh, and the foreign key wants its invoice to exist. -/
def createPaymentIdempotent (db : Db) (row : Payment) : Except BillingError (Db × Payment × Bool) :=
  match db.findPaymentByIdempotencyKey row.idempotencyKey with
  | some existing => .ok (db, existing, false)
  | none =>
      if (db.findPaymentById row.id).isSome then .error .uniqueViolation
      else if (db.findInvoiceById row.invoiceId).isNone then
        .error (.notFound "Invoice" (some row.invoiceId))
      else .ok ({ db with payments := db.payments ++ [row] }, row, true)

def attachReference (providerRef : String) (p : Payment) : Payment :=
  { p with providerTransactionId := some providerRef }

/-- Stores the provider's reference of a checkout. -/
def setProviderCheckout (db : Db) (paymentId : Nat) (providerRef : String) :
    Except BillingError Db :=
  match db.findPaymentById paymentId with
  | none => .error (.notFound "Payment" (some paymentId))
  | some payment =>
      if db.transactionTaken paymentId payment.provider (some providerRef) then
        .error .uniqueViolation
      else
        .ok { db with
          payments := Table.updateWhere (fun p => p.id = paymentId) (attachReference providerRef)
            db.payments }

/-- The first half of `applyPaymentSuccess`: `none` for a payment already PAID. -/
def readForSuccess (db : Db) (paymentId : Nat) : Except BillingError (Option Payment) :=
  match db.findPaymentById paymentId with
  | none => .error (.notFound "Payment" (some paymentId))
  | some payment =>
      if payment.status = .paid then .ok none
      else do
        assertPaymentTransition payment.status .paid
        return some payment

def markPaid (input : ApplyPaymentSuccessInput) (p : Payment) : Payment :=
  { p with
    status := .paid
    providerTransactionId := input.providerTransactionId.or p.providerTransactionId }

/-- All writes of a success that has won its status update. -/
def Db.settle (db : Db) (input : ApplyPaymentSuccessInput) (payment : Payment) : Db :=
  (((db.casPayment payment.id payment.status (markPaid input)).setInvoiceStatus
    payment.invoiceId .paid).confirmRegistrations payment.invoiceId).book payment
      .paymentSucceeded input.entries

/-- The second half of `applyPaymentSuccess`, for the payment as it was read. -/
def commitSuccess (db : Db) (input : ApplyPaymentSuccessInput) (payment : Payment) :
    Except BillingError (Db × Bool) :=
  if db.payments.countP (casCondition payment.id payment.status) = 0 then .ok (db, false)
  else if db.transactionTaken payment.id payment.provider input.providerTransactionId then
    .error .uniqueViolation
  else if (db.findInvoiceById payment.invoiceId).isNone then
    .error (.notFound "Invoice" (some payment.invoiceId))
  else .ok (db.settle input payment, true)

/-- The first half of `applyRefund`: `none` for a payment already REFUNDED. -/
def readForRefund (db : Db) (paymentId : Nat) : Except BillingError (Option Payment) :=
  match db.findPaymentById paymentId with
  | none => .error (.notFound "Payment" (some paymentId))
  | some payment =>
      if payment.status = .refunded then .ok none
      else do
        assertRefundPath payment.status
        return some payment

def markRefunded (p : Payment) : Payment := { p with status := .refunded }

/-- All writes of a refund that has won its status update. -/
def Db.unsettle (db : Db) (input : ApplyRefundInput) (payment : Payment) : Db :=
  ((db.casPayment payment.id .paid markRefunded).setInvoiceStatus
    payment.invoiceId .refunded).book payment .refundRequested input.entries

/-- The second half of `applyRefund`; the update expects PAID, whatever was read. -/
def commitRefund (db : Db) (input : ApplyRefundInput) (payment : Payment) :
    Except BillingError (Db × Bool) :=
  if db.payments.countP (casCondition payment.id .paid) = 0 then .ok (db, false)
  else if (db.findInvoiceById payment.invoiceId).isNone then
    .error (.notFound "Invoice" (some payment.invoiceId))
  else .ok (db.unsettle input payment, true)

/-- A transaction that has read its payment and has not committed yet. -/
inductive Transaction where
  | success (input : ApplyPaymentSuccessInput) (payment : Payment)
  | refund (input : ApplyRefundInput) (payment : Payment)
  deriving DecidableEq, Repr

def Transaction.commit (db : Db) : Transaction → Except BillingError (Db × Bool)
  | .success input payment => commitSuccess db input payment
  | .refund input payment => commitRefund db input payment

end Farzin.Billing
