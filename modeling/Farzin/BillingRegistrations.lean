import Farzin.BillingAgreement
import Farzin.BillingRequests
import Farzin.Interleaving

set_option autoImplicit false

/- Invoices of registrations (`createInvoiceForRegistration` of `billing/billing.service.ts` and
`createInvoice` of the repository), with the requests that pay them. Each call acts on the
tables at its awaits only. -/
namespace Farzin.Billing

open Interleaving

/-- `FRZ-YYYY-NNNNNN`: the numbers of one year are ordered as their sequence numbers. -/
structure InvoiceNumber where
  year : Nat
  sequence : Nat
  fourDigits : 2000 ≤ year ∧ year ≤ 9999
  sixDigits : 1 ≤ sequence ∧ sequence ≤ 999999
  deriving DecidableEq, Repr

/-- `none` is the `RangeError`. -/
def formatInvoiceNumber (year sequence : Nat) : Option InvoiceNumber :=
  if fourDigits : 2000 ≤ year ∧ year ≤ 9999 then
    if sixDigits : 1 ≤ sequence ∧ sequence ≤ 999999 then
      some ⟨year, sequence, fourDigits, sixDigits⟩
    else none
  else none

def nextInvoiceSequence (lastNumber : Option InvoiceNumber) : Nat :=
  match lastNumber with
  | none => 1
  | some last => last.sequence + 1

/-- What `findRegistrationBilling` reads apart from the columns that billing writes itself. -/
structure RegistrationTerms where
  playerId : Nat
  isWithdrawn : Bool
  tournamentId : Nat
  entryFeeAmount : Option Int
  entryFeeCurrency : String
  clubId : Option Nat
  regionId : Option Nat
  federationId : Option Nat
  deriving DecidableEq, Repr

structure RegistrationBillingView where
  registration : Registration
  terms : RegistrationTerms
  deriving DecidableEq, Repr

structure CreateInvoiceInput where
  userId : Nat
  tournamentId : Nat
  registrationId : Nat
  subtotalTiyin : Int
  taxTiyin : Int
  totalTiyin : Int
  currency : String
  deriving DecidableEq, Repr

/-- The number of a new invoice, with the audit row that says for which registration it was
created. -/
structure InvoiceCreated where
  invoiceId : Nat
  number : InvoiceNumber
  registrationId : Nat
  tournamentId : Nat
  totalAmount : Int
  currency : String
  deriving DecidableEq, Repr

structure Desk where
  db : Db
  terms : Nat → Option RegistrationTerms
  created : List InvoiceCreated
  year : Nat

def PaymentStatusValue.isLive (status : PaymentStatusValue) : Bool :=
  status = .created || status = .pending || status = .paid

/-- The checks of `createInvoiceForRegistration` on the registration; the fee to be paid. -/
def assertInvoiceable (view : RegistrationBillingView) : Except BillingError Int :=
  let fee := view.terms.entryFeeAmount.getD 0
  if view.terms.isWithdrawn then
    .error (.businessRule "REGISTRATION_WITHDRAWN" "Chiqarilgan ro'yxat uchun invoys yaratilmaydi")
  else if view.registration.isConfirmed then
    .error (.conflict "Ro'yxat allaqachon tasdiqlangan — to'lov talab qilinmaydi")
  else if fee ≤ 0 then
    .error (.businessRule "NO_ENTRY_FEE" "Turnirda start puli yo'q — invoys kerak emas")
  else .ok fee

def assertNoLiveInvoice (existing : Option Invoice) : Except BillingError Unit :=
  match existing with
  | some invoice =>
      if invoice.status.isLive then
        .error (.conflict "Bu ro'yxat uchun amaldagi invoys allaqachon bor")
      else .ok ()
  | none => .ok ()

/-- The tax is 0 at this stage. -/
def invoiceInput (userId : Nat) (view : RegistrationBillingView) (fee : Int) :
    CreateInvoiceInput where
  userId := userId
  tournamentId := view.terms.tournamentId
  registrationId := view.registration.id
  subtotalTiyin := fee
  taxTiyin := 0
  totalTiyin := fee
  currency := view.terms.entryFeeCurrency

namespace Desk

def findRegistration (s : Desk) (id : Nat) : Option Registration :=
  Table.findUnique Registration.id s.db.registrations id

def findRegistrationBilling (s : Desk) (registrationId : Nat) : Option RegistrationBillingView :=
  (s.findRegistration registrationId).bind fun registration =>
    (s.terms registrationId).map fun terms => ⟨registration, terms⟩

/-- The largest number of the year. -/
def lastNumber (s : Desk) (year : Nat) : Option InvoiceNumber :=
  let numbers := (s.created.map InvoiceCreated.number).filter fun n => n.year = year
  numbers.foldl (fun last n => match last with
    | none => some n
    | some m => if m.sequence < n.sequence then some n else some m) none

def numberTaken (s : Desk) (number : InvoiceNumber) : Bool :=
  s.created.any fun c => c.number = number

def referTo (invoiceId : Nat) (r : Registration) : Registration :=
  { r with invoiceId := some invoiceId }

/-- All writes of `createInvoice`: the invoice, the registration that refers to it and the audit
row. -/
def withInvoice (s : Desk) (input : CreateInvoiceInput) (number : InvoiceNumber)
    (invoiceId : Nat) : Desk :=
  { s with
    db := { s.db with
      invoices := s.db.invoices ++
        [⟨invoiceId, input.userId, input.totalTiyin, input.currency, .created⟩]
      registrations := Table.updateWhere (fun r => r.id = input.registrationId)
        (referTo invoiceId) s.db.registrations }
    created := s.created ++ [⟨invoiceId, number, input.registrationId, input.tournamentId,
      input.totalTiyin, input.currency⟩] }

/-- The id is a fresh one, and the update wants the registration to be there. -/
def insertInvoice (s : Desk) (input : CreateInvoiceInput) (number : InvoiceNumber)
    (invoiceId : Nat) : Except BillingError Desk :=
  if s.numberTaken number ∨ (s.db.findInvoiceById invoiceId).isSome then .error .uniqueViolation
  else if (s.findRegistration input.registrationId).isNone then
    .error (.notFound "Registration" (some input.registrationId))
  else .ok (s.withInvoice input number invoiceId)

/-- A new registration; one without an entry fee needs no payment. -/
def register (s : Desk) (id : Nat) (terms : RegistrationTerms) : Desk :=
  { s with
    db := { s.db with
      registrations := s.db.registrations ++ [⟨id, none, terms.entryFeeAmount.isNone⟩] }
    terms := Function.update s.terms id (some terms) }

end Desk

/-- Where a call is, with what it has read so far. An invoice or payment that is to be inserted
has its random id from the beginning. -/
inductive DeskCall where
  | createInvoice (userId registrationId invoiceId : Nat)
  | findExisting (input : CreateInvoiceInput) (referred invoiceId : Nat)
  | readNumber (input : CreateInvoiceInput) (invoiceId attempt : Nat)
  | insertInvoice (input : CreateInvoiceInput) (invoiceId attempt : Nat) (number : InvoiceNumber)
  | initiatePayment (invoiceId paymentId : Nat) (provider : PaymentProvider) (key : String)
  | checkKey (invoice : Invoice) (paymentId : Nat) (provider : PaymentProvider) (key : String)
  | insertPayment (invoice : Invoice) (paymentId : Nat) (provider : PaymentProvider)
      (key : String)
  | saveCheckout (paymentId : Nat) (provider : PaymentProvider)
  | confirmManual (paymentId : Nat)
  | webhook (providerCode : PaymentProvider) (event : NormalizedWebhookEvent)
  | beginSuccess (input : ApplyPaymentSuccessInput)
  | commitSuccess (input : ApplyPaymentSuccessInput) (payment : Payment)
  deriving DecidableEq, Repr

/-- The calls with which a request begins. -/
def DeskCall.isRequest : DeskCall → Bool
  | .createInvoice .. | .initiatePayment .. | .confirmManual .. | .webhook .. => true
  | _ => false

inductive DeskEvent where
  | register (id : Nat) (terms : RegistrationTerms)
  /-- A withdrawal, or a change of the tournament. -/
  | change (id : Nat) (terms : RegistrationTerms)
  | newYear (year : Nat)
  deriving DecidableEq, Repr

def maxAttempts : Nat := 3

/-- What the calls rely on outside the database: the permission checks, the adapters that are
configured, and the reference that an adapter gives a checkout. -/
structure Surroundings where
  mayInvoice : Nat → RegistrationBillingView → Bool
  mayPay : Invoice → Bool
  configured : PaymentProvider → Bool
  providerRef : PaymentProvider → Nat → String

section Program

variable (surroundings : Surroundings)

/-- The part of `createInvoiceForRegistration` before it looks at the existing invoice. -/
def Desk.createInvoice (s : Desk) (userId registrationId invoiceId : Nat) : Option DeskCall :=
  match s.findRegistrationBilling registrationId with
  | none => none
  | some view =>
      if surroundings.mayInvoice userId view then
        match assertInvoiceable view with
        | .error _ => none
        | .ok fee =>
            let input := invoiceInput userId view fee
            match view.registration.invoiceId with
            | none => some (.readNumber input invoiceId 1)
            | some referred => some (.findExisting input referred invoiceId)
      else none

def Desk.advance (s : Desk) : DeskCall → Desk × Option DeskCall
  | .createInvoice userId registrationId invoiceId =>
      (s, s.createInvoice surroundings userId registrationId invoiceId)
  | .findExisting input referred invoiceId =>
      match assertNoLiveInvoice (s.db.findInvoiceById referred) with
      | .error _ => (s, none)
      | .ok () => (s, some (.readNumber input invoiceId 1))
  | .readNumber input invoiceId attempt =>
      let sequence := nextInvoiceSequence (s.lastNumber s.year)
      (s, (formatInvoiceNumber s.year sequence).map (.insertInvoice input invoiceId attempt))
  | .insertInvoice input invoiceId attempt number =>
      match s.insertInvoice input number invoiceId with
      | .ok after => (after, none)
      | .error .uniqueViolation =>
          if attempt < maxAttempts then (s, some (.readNumber input invoiceId (attempt + 1)))
          else (s, none)
      | .error _ => (s, none)
  | .initiatePayment invoiceId paymentId provider key =>
      match s.db.findInvoiceById invoiceId with
      | none => (s, none)
      | some invoice =>
          if surroundings.mayPay invoice then
            (s, some (.checkKey invoice paymentId provider key))
          else (s, none)
  | .checkKey invoice paymentId provider key =>
      if (s.db.findPaymentByIdempotencyKey key).isSome then (s, none)
      else match assertOpen surroundings.configured invoice provider with
        | .error _ => (s, none)
        | .ok () => (s, some (.insertPayment invoice paymentId provider key))
  | .insertPayment invoice paymentId provider key =>
      match createPaymentIdempotent s.db (newPayment paymentId invoice provider key) with
      | .ok (db, _, true) => ({ s with db := db }, some (.saveCheckout paymentId provider))
      | _ => (s, none)
  | .saveCheckout paymentId provider =>
      match setProviderCheckout s.db paymentId (surroundings.providerRef provider paymentId) with
      | .ok db => ({ s with db := db }, none)
      | .error _ => (s, none)
  | .confirmManual paymentId =>
      match confirmManualPayment s.db paymentId with
      | .ok input => (s, some (.beginSuccess input))
      | .error _ => (s, none)
  | .webhook providerCode event =>
      match Billing.webhook s.db providerCode event with
      | .ok (some input) => (s, some (.beginSuccess input))
      | _ => (s, none)
  | .beginSuccess input =>
      match readForSuccess s.db input.paymentId with
      | .ok (some payment) => (s, some (.commitSuccess input payment))
      | _ => (s, none)
  | .commitSuccess input payment =>
      match Billing.commitSuccess s.db input payment with
      | .ok (db, _) => ({ s with db := db }, none)
      | .error _ => (s, none)

def Desk.event (s : Desk) : DeskEvent → Option Desk
  | .register id terms =>
      if (s.findRegistration id).isSome then none else some (s.register id terms)
  | .change id terms => some { s with terms := Function.update s.terms id (some terms) }
  | .newYear year => some { s with year := year }

/-- A database without any row. -/
structure Desk.Initial (s : Desk) : Prop where
  invoices : s.db.invoices = []
  payments : s.db.payments = []
  registrations : s.db.registrations = []
  created : s.created = []

def registrationDesk : Program Desk DeskCall DeskEvent where
  initial := Desk.Initial
  arrives _ call := call.isRequest
  advance := Desk.advance surroundings
  event := Desk.event

end Program

end Farzin.Billing
