import Farzin.BillingAgreement

set_option autoImplicit false

/- The requests of `billing/billing.service.ts`, cut at their awaits. A request that the
permission check turns away does nothing and has no label here. -/
namespace Farzin.Billing

def PaymentProvider.name : PaymentProvider → String
  | .click => "CLICK"
  | .payme => "PAYME"
  | .uzum => "UZUM"
  | .bankTransfer => "BANK_TRANSFER"
  | .manual => "MANUAL"

/-- The checks of `initiatePayment` between the key lookup and the insert. The invoice is
the one loaded at the start of the request. -/
def assertOpen (configured : PaymentProvider → Bool) (invoice : Invoice)
    (provider : PaymentProvider) : Except BillingError Unit :=
  if invoice.status ≠ .created ∧ invoice.status ≠ .pending then
    .error (.conflict "Invoys to'lovga ochiq emas")
  else if configured provider then .ok ()
  else .error (.businessRule "PROVIDER_NOT_CONFIGURED"
    (s!"{provider.name} provayderi hali sozlanmagan — " ++
      "sandbox/merchant hisob ma'lumotlari kutilmoqda"))

/-- The payment row `initiatePayment` inserts, under a fresh id. -/
def newPayment (id : Nat) (invoice : Invoice) (provider : PaymentProvider) (key : String) :
    Payment where
  id := id
  invoiceId := invoice.id
  provider := provider
  status := .created
  amount := invoice.totalAmount
  currency := invoice.currency
  idempotencyKey := key
  providerTransactionId := none

def entryFeeEntries (provider : PaymentProvider) (amountTiyin : Int) :
    Except BillingError (List LedgerEntryInput) :=
  (buildEntryFeePaymentEntries provider amountTiyin).mapError .ledgerImbalance

/-- `confirmManualPayment` up to its call of `applyPaymentSuccess`. -/
def confirmManualPayment (db : Db) (paymentId : Nat) :
    Except BillingError ApplyPaymentSuccessInput :=
  match db.findPaymentById paymentId with
  | none => .error (.notFound "Payment" (some paymentId))
  | some payment =>
      if payment.provider ≠ .manual then
        .error (.businessRule "MANUAL_CONFIRM_ONLY"
          ("Qo'lda tasdiq faqat MANUAL provayder to'lovi uchun — " ++
            "onlayn to'lov webhook orqali tasdiqlanadi"))
      else do
        let entries ← entryFeeEntries .manual payment.amount
        return ⟨paymentId, entries, none⟩

inductive EventStatus where
  | paid
  | failed
  | cancelled
  deriving DecidableEq, Repr

/-- A webhook that the adapter has verified. -/
structure NormalizedWebhookEvent where
  providerTransactionId : String
  paymentId : Option Nat
  status : EventStatus
  amountTiyin : Int
  currency : String
  deriving DecidableEq, Repr

def findEventPayment (db : Db) (provider : PaymentProvider) (event : NormalizedWebhookEvent) :
    Option Payment :=
  (db.findPaymentByProviderTx provider event.providerTransactionId).or
    (event.paymentId.bind db.findPaymentById)

/-- `webhook` up to its call of `applyPaymentSuccess`; `none` when it makes no call. The
entries are built for the provider that called, not for the payment's own. -/
def webhook (db : Db) (providerCode : PaymentProvider) (event : NormalizedWebhookEvent) :
    Except BillingError (Option ApplyPaymentSuccessInput) :=
  match findEventPayment db providerCode event with
  | none => .error (.notFound "Payment" none)
  | some payment =>
      if event.status ≠ .paid then .ok none
      else if payment.amount ≠ event.amountTiyin ∨ payment.currency ≠ event.currency then
        .error (.businessRule "AMOUNT_MISMATCH" "Webhook summasi to'lov bilan mos emas")
      else do
        let entries ← entryFeeEntries providerCode payment.amount
        return some ⟨payment.id, entries, some event.providerTransactionId⟩

/-- `refund` up to the provider call; `none` for a payment already REFUNDED. -/
def refundRequest (db : Db) (paymentId : Nat) : Except BillingError (Option Payment) :=
  match db.findPaymentById paymentId with
  | none => .error (.notFound "Payment" (some paymentId))
  | some payment =>
      if payment.status = .refunded then .ok none
      else do
        assertRefundPath payment.status
        return some payment

/-- `refund` between the provider's answer and its call of `applyRefund`. -/
def refundInput (payment : Payment) (accepted : Bool) : Except BillingError ApplyRefundInput :=
  if accepted then do
    let entries ← entryFeeEntries payment.provider payment.amount
    let reversed ← (reverseLedgerEntries entries).mapError .ledgerImbalance
    return ⟨payment.id, reversed⟩
  else .error (.businessRule "REFUND_REJECTED" "Provayder refund so'rovini rad etdi")

/-- Where a request is, with what it has loaded so far. -/
inductive Request where
  | initiating (invoice : Invoice) (provider : PaymentProvider) (key : String)
  | creating (invoice : Invoice) (provider : PaymentProvider) (key : String)
  | checkingOut (paymentId : Nat)
  | succeeding (input : ApplyPaymentSuccessInput)
  | refunding (payment : Payment)
  deriving DecidableEq, Repr

structure Service where
  store : Store
  requests : List Request
  deriving DecidableEq, Repr

inductive ServiceLabel where
  | initiatePayment (invoiceId : Nat) (provider : PaymentProvider) (key : String)
  | confirmManual (paymentId : Nat)
  | webhook (providerCode : PaymentProvider) (event : NormalizedWebhookEvent)
  | refund (paymentId : Nat)
  /-- The `i`-th request looks up its idempotency key and checks the loaded invoice. -/
  | checkKey (i : Nat)
  | insert (i : Nat) (paymentId : Nat)
  | saveCheckout (i : Nat) (providerRef : String)
  | applySuccess (i : Nat)
  /-- The provider has answered the `i`-th request, a refund. -/
  | applyRefund (i : Nat) (accepted : Bool)
  /-- The `i`-th request ends early, on an error outside the database. -/
  | abandon (i : Nat)
  | commit (i : Nat)
  | rollback (i : Nat)
  deriving DecidableEq, Repr

/-- The transaction a label commits, if it is a commit. -/
def ServiceLabel.commits : ServiceLabel → Option Nat
  | .commit i => some i
  | _ => none

namespace Service

def accept (s : Service) (request : Request) : Service :=
  { s with requests := s.requests ++ [request] }

def finish (s : Service) (i : Nat) : Service :=
  { s with requests := s.requests.eraseIdx i }

def advance (s : Service) (i : Nat) (request : Request) : Service :=
  { s with requests := s.requests.set i request }

/-- The `i`-th request ends by taking a step of the store. -/
def hand (s : Service) (i : Nat) (label : StoreLabel) : Option Service :=
  (s.store.step label).map fun store => ⟨store, s.requests.eraseIdx i⟩

def step (configured : PaymentProvider → Bool) (s : Service) : ServiceLabel → Option Service
  | .initiatePayment invoiceId provider key =>
      match s.store.db.findInvoiceById invoiceId with
      | none => some s
      | some invoice => some (s.accept (.initiating invoice provider key))
  | .confirmManual paymentId =>
      match confirmManualPayment s.store.db paymentId with
      | .error _ => some s
      | .ok input => some (s.accept (.succeeding input))
  | .webhook providerCode event =>
      match Billing.webhook s.store.db providerCode event with
      | .ok (some input) => some (s.accept (.succeeding input))
      | _ => some s
  | .refund paymentId =>
      match refundRequest s.store.db paymentId with
      | .ok (some payment) => some (s.accept (.refunding payment))
      | _ => some s
  | .checkKey i =>
      match s.requests[i]? with
      | some (.initiating invoice provider key) =>
          -- A key already used ends the request, by replay or by conflict.
          if (s.store.db.findPaymentByIdempotencyKey key).isSome then some (s.finish i)
          else match assertOpen configured invoice provider with
            | .error _ => some (s.finish i)
            | .ok () => some (s.advance i (.creating invoice provider key))
      | _ => none
  | .insert i paymentId =>
      match s.requests[i]? with
      | some (.creating invoice provider key) =>
          let row := newPayment paymentId invoice provider key
          match createPaymentIdempotent s.store.db row with
          | .ok (_, _, true) => (s.store.step (.createPayment row)).map fun store =>
              ⟨store, s.requests.set i (.checkingOut paymentId)⟩
          | _ => some (s.finish i)
      | _ => none
  | .saveCheckout i providerRef =>
      match s.requests[i]? with
      | some (.checkingOut paymentId) => s.hand i (.saveCheckout paymentId providerRef)
      | _ => none
  | .applySuccess i =>
      match s.requests[i]? with
      | some (.succeeding input) => s.hand i (.beginSuccess input)
      | _ => none
  | .applyRefund i accepted =>
      match s.requests[i]? with
      | some (.refunding payment) =>
          match refundInput payment accepted with
          | .error _ => some (s.finish i)
          | .ok input => s.hand i (.beginRefund input)
      | _ => none
  | .abandon i => s.requests[i]?.map fun _ => s.finish i
  | .commit i => (s.store.step (.commit i)).map fun store => { s with store := store }
  | .rollback i => (s.store.step (.rollback i)).map fun store => { s with store := store }

end Service

end Farzin.Billing
