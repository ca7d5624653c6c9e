import Farzin.Outbox

set_option autoImplicit false

/- Notifications of outbox events: the listeners of
`modules/notification/listeners/outbox.listeners.ts` with `notifyUsers` of
`notification.service.ts` and `createBatchIdempotent` of `notification.repository.ts`, cut at their
database calls. -/
namespace Farzin.Outbox

inductive Channel where
  | sms
  | push
  | telegram
  | email
  | inApp
  deriving DecidableEq, Repr

/-- The templates of outbox events. -/
inductive TemplateKey where
  | roundCompleted
  | paymentCompleted
  | refundIssued
  | fairPlayCaseOpened
  deriving DecidableEq, Repr

structure RecipientUser where
  id : Nat
  email : Option String
  emailVerified : Bool
  locale : String
  deleted : Bool
  deriving DecidableEq, Repr

structure ChannelAdapter where
  enabled : Bool
  canDeliverTo : RecipientUser → Bool

/-- The adapters by channel. -/
abbrev Adapters := Channel → Option ChannelAdapter

def eligibleChannels (requested : List Channel) (adapters : Adapters) (user : RecipientUser) :
    List Channel :=
  requested.filter fun channel => (adapters channel).any fun adapter =>
    adapter.enabled && adapter.canDeliverTo user

structure InvoiceRecipient where
  userId : Option Nat
  invoiceNumber : String
  deriving DecidableEq, Repr

structure SectionContext where
  sectionName : String
  tournamentName : String
  deriving DecidableEq, Repr

/-- What the listeners read from the tables of other modules. -/
structure Directory where
  sectionUserIds : String → List Nat
  sectionContext : String → Option SectionContext
  invoiceRecipient : String → Option InvoiceRecipient
  superAdminUserIds : List Nat
  users : List RecipientUser
  distinct : Table.Unique RecipientUser.id users

namespace Directory

variable (directory : Directory)

def confirmedSectionUserIds (sectionId : String) : List Nat :=
  (directory.sectionUserIds sectionId).eraseDups

def recipientsByIds (userIds : List Nat) : List RecipientUser :=
  directory.users.filter fun user => decide (user.id ∈ userIds) && !user.deleted

end Directory

/-- A row; its payload is stored together with the id of its event. The batch is the number of the
`createMany` that has inserted it. -/
structure Notification where
  id : Nat
  userId : Nat
  channel : Channel
  templateKey : TemplateKey
  eventId : Nat
  payload : Payload
  sentAt : Option Int
  failedAt : Option Int
  failureReason : Option String
  createdAt : Int
  batch : Nat
  deriving DecidableEq, Repr

/-- The notifications table, with counters for fresh ids and for the batches. -/
structure Mailbox where
  rows : List Notification
  nextId : Nat
  batches : Nat
  deriving DecidableEq, Repr

structure NotifyRequest where
  templateKey : TemplateKey
  payload : Payload
  userIds : List Nat
  channels : List Channel
  deriving DecidableEq, Repr

/-- A row to be inserted: a user and a channel. -/
abbrev NewRow := Nat × Channel

def notifyRows (request : NotifyRequest) (adapters : Adapters) (users : List RecipientUser) :
    List NewRow :=
  users.flatMap fun user => (eligibleChannels request.channels adapters user).map fun channel =>
    (user.id, channel)

namespace Mailbox

variable (box : Mailbox)

/-- The users that have notifications of the event by this template. -/
def alreadyNotified (eventId : Nat) (templateKey : TemplateKey) : List Nat :=
  (box.rows.filter fun n => n.templateKey = templateKey && n.eventId = eventId).map
    Notification.userId

/-- The rows of one `createMany`. -/
def created (eventId : Nat) (request : NotifyRequest) (fresh : List NewRow) (now : Int) :
    List Notification :=
  fresh.mapIdx fun index row =>
    { id := box.nextId + index, userId := row.1, channel := row.2,
      templateKey := request.templateKey, eventId, payload := request.payload,
      sentAt := none, failedAt := none, failureReason := none, createdAt := now,
      batch := box.batches }

def insert (eventId : Nat) (request : NotifyRequest) (fresh : List NewRow) (now : Int) :
    Mailbox where
  rows := box.rows ++ box.created eventId request fresh now
  nextId := box.nextId + fresh.length
  batches := box.batches + 1

def change (id : Nat) (change : Notification → Notification) : Mailbox :=
  { box with rows := Table.updateWhere (fun n => n.id = id) change box.rows }

end Mailbox

def Notification.markSent (now : Int) (n : Notification) : Notification :=
  { n with sentAt := some now, failedAt := none, failureReason := none }

def Notification.markFailed (now : Int) (reason : String) (n : Notification) : Notification :=
  { n with failedAt := some now, failureReason := some (String.ofList (reason.toList.take 500)) }

/-- How the delivery of one row ends; an error is stored with the row, or only logged. -/
inductive DispatchResult where
  | sent
  | failed (reason : String)
  | logged
  deriving DecidableEq, Repr

def Mailbox.dispatched (box : Mailbox) (id : Nat) (now : Int) : DispatchResult → Mailbox
  | .sent => box.change id (Notification.markSent now)
  | .failed reason => box.change id (Notification.markFailed now reason)
  | .logged => box

section Payloads

def text (source : Payload) (key : String) : Option String :=
  match source.lookup key with
  | some (.text value) => if value = "" then none else some value
  | _ => none

def number (source : Payload) (key : String) : Option Rat :=
  match source.lookup key with
  | some (.number value) => some value
  | _ => none

def roundCompletedRequest (sectionId : String) (roundNumber : Rat) (context : Option SectionContext)
    (userIds : List Nat) : NotifyRequest where
  templateKey := .roundCompleted
  payload :=
    [("roundNumber", .number roundNumber), ("sectionId", .text sectionId),
      ("sectionName", .text ((context.map SectionContext.sectionName).getD "—")),
      ("tournamentName", .text ((context.map SectionContext.tournamentName).getD "—"))]
  userIds := userIds
  channels := [.inApp, .email]

/-- Only a refund comes with its reason. -/
def invoiceRequest (templateKey : TemplateKey) (source : Payload) (invoiceId : String)
    (invoiceNumber : String) (userId : Nat) : NotifyRequest where
  templateKey := templateKey
  payload :=
    [("invoiceId", .text invoiceId), ("invoiceNumber", .text invoiceNumber),
      ("amountTiyin", .text ((text source "amountTiyin").getD "")),
      ("currency", .text ((text source "currency").getD ""))] ++
    if templateKey = .refundIssued then [("reason", .text ((text source "reason").getD "—"))]
    else []
  userIds := [userId]
  channels := [.inApp, .email]

def caseOpenedRequest (caseId : String) (userIds : List Nat) : NotifyRequest where
  templateKey := .fairPlayCaseOpened
  payload := [("caseId", .text caseId)]
  userIds := userIds
  channels := [.inApp]

end Payloads

/-- What a listener does first with its event. A payload without the fields it needs is skipped. -/
inductive Listening where
  | skip
  | readSection (sectionId : String) (roundNumber : Rat)
  | readInvoice (templateKey : TemplateKey) (invoiceId : String)
  | readSuperAdmins (caseId : String)
  deriving DecidableEq, Repr

def listening (e : OutboxEvent) : Listening :=
  match e.eventType with
  | .roundCompleted =>
      match text e.payload "sectionId", number e.payload "roundNumber" with
      | some sectionId, some roundNumber => .readSection sectionId roundNumber
      | _, _ => .skip
  | .paymentCompleted => invoice .paymentCompleted
  | .refundIssued => invoice .refundIssued
  | .ratingRecomputed => .skip
  | .fairPlayCaseOpened =>
      match text e.payload "caseId" with
      | some caseId => .readSuperAdmins caseId
      | none => .skip
where
  invoice (templateKey : TemplateKey) : Listening :=
    match text e.payload "invoiceId" with
    | some invoiceId => .readInvoice templateKey invoiceId
    | none => .skip

/-- Where a handler is; `dispatch` has the rows that are still to be delivered. -/
inductive Handler where
  | listen
  | readContext (sectionId : String) (roundNumber : Rat) (userIds : List Nat)
  | recipients (request : NotifyRequest)
  | existing (request : NotifyRequest) (rows : List NewRow)
  | insert (request : NotifyRequest) (fresh : List NewRow)
  | dispatch (rows : List Notification)
  | done (outcome : Except String Unit)
  deriving DecidableEq, Repr

def Handler.finished : Handler → Bool
  | .done _ => true
  | _ => false

/-- The answer of the database to a call. What was called is done also when its answer is lost. -/
inductive Answer where
  | held
  | failed (error : String)
  | lost (error : String)
  deriving DecidableEq, Repr

/-- Whether a handler calls the database before it goes on. The calls of the delivery are apart,
since their errors go no further. -/
def Handler.queries (e : OutboxEvent) : Handler → Bool
  | .listen => listening e ≠ .skip
  | .recipients request => request.userIds ≠ []
  | .readContext _ _ _ | .existing _ _ | .insert _ _ => true
  | .dispatch _ | .done _ => false

def succeeded : Handler := .done (.ok ())

section Handling

variable (adapters : Adapters) (directory : Directory) (now : Int)

/-- A call that the database has answered. -/
def Handler.answered (box : Mailbox) (e : OutboxEvent) : Handler → Mailbox × Handler
  | .listen =>
      match listening e with
      | .skip => (box, succeeded)
      | .readSection sectionId roundNumber =>
          (box, .readContext sectionId roundNumber (directory.confirmedSectionUserIds sectionId))
      | .readInvoice templateKey invoiceId =>
          match directory.invoiceRecipient invoiceId with
          | some ⟨some userId, invoiceNumber⟩ =>
              let request := invoiceRequest templateKey e.payload invoiceId invoiceNumber userId
              (box, .recipients request)
          | _ => (box, succeeded)
      | .readSuperAdmins caseId =>
          (box, .recipients (caseOpenedRequest caseId directory.superAdminUserIds.eraseDups))
  | .readContext sectionId roundNumber userIds =>
      let context := directory.sectionContext sectionId
      (box, .recipients (roundCompletedRequest sectionId roundNumber context userIds))
  | .recipients request =>
      let rows := notifyRows request adapters (directory.recipientsByIds request.userIds)
      (box, if rows = [] then succeeded else .existing request rows)
  | .existing request rows =>
      let notified := box.alreadyNotified e.id request.templateKey
      let fresh := rows.filter fun row => decide (row.1 ∉ notified)
      (box, if fresh = [] then succeeded else .insert request fresh)
  | .insert request fresh =>
      (box.insert e.id request fresh now, .dispatch (box.created e.id request fresh now))
  | .dispatch rows => (box, .dispatch rows)
  | .done outcome => (box, .done outcome)

/-- A call of the database, and what the handler does with its answer. -/
def Handler.handle (box : Mailbox) (e : OutboxEvent) (handler : Handler) (answer : Answer) :
    Mailbox × Handler :=
  let (written, next) := handler.answered adapters directory now box e
  match handler.queries e, answer with
  | true, .failed error => (box, .done (.error error))
  | true, .lost error => (written, .done (.error error))
  | _, _ => (written, next)

/-- The delivery of the next row, or the end of the handler. -/
def Handler.deliver (box : Mailbox) (result : DispatchResult) : Handler → Mailbox × Handler
  | .dispatch (row :: rows) => (box.dispatched row.id now result, .dispatch rows)
  | .dispatch [] => (box, succeeded)
  | handler => (box, handler)

end Handling

end Farzin.Outbox
