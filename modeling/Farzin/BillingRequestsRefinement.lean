import Farzin.BillingRequests

set_option autoImplicit false

/- The requests only ever touch the database through the payment transactions, and the
entries they hand over are built from the payment they name. -/
namespace Farzin.Billing

/-- What a payment row never changes. -/
structure PaymentTerms where
  invoiceId : Nat
  provider : PaymentProvider
  amount : Int
  currency : String
  deriving DecidableEq, Repr

def Payment.terms (p : Payment) : PaymentTerms := ⟨p.invoiceId, p.provider, p.amount, p.currency⟩

def Db.termsOf (db : Db) (paymentId : Nat) : Option PaymentTerms :=
  (db.findPaymentById paymentId).map Payment.terms

def TermsKept (db after : Db) : Prop :=
  ∀ id terms, db.termsOf id = some terms → after.termsOf id = some terms

theorem TermsKept.refl (db : Db) : TermsKept db db := fun _ _ known => known

theorem termsOf_update (db after : Db) (condition : Payment → Bool) (change : Payment → Payment)
    (ids : ∀ p, (change p).id = p.id) (terms : ∀ p, (change p).terms = p.terms)
    (updated : after.payments = Table.updateWhere condition change db.payments) (id : Nat) :
    after.termsOf id = db.termsOf id := by
  rw [Db.termsOf, Db.findPaymentById, updated, Table.findUnique_updateWhere _ _ _ ids,
    Option.map_map, Db.termsOf, Db.findPaymentById]
  congr 1
  funext p
  simp only [Function.comp_apply]
  split
  · exact terms p
  · rfl

theorem TermsKept.update {db after : Db} (condition : Payment → Bool) (change : Payment → Payment)
    (ids : ∀ p, (change p).id = p.id) (terms : ∀ p, (change p).terms = p.terms)
    (updated : after.payments = Table.updateWhere condition change db.payments) :
    TermsKept db after := by
  intro id known found
  rw [termsOf_update db after condition change ids terms updated id]
  exact found

theorem create_terms {db : Db} (row : Payment) (fresh : db.findPaymentById row.id = none) :
    TermsKept db { db with payments := db.payments ++ [row] } := by
  intro id terms known
  have other : ¬ row.id = id := by
    intro same
    rw [Db.termsOf, ← same, fresh] at known
    cases known
  rw [Db.termsOf, Db.findPaymentById, Table.findUnique_insert db.payments row id fresh,
    if_neg other]
  exact known

/-- No step of the store rewrites the terms of a payment. -/
theorem step_terms {s t : Store} {label : StoreLabel} (taken : s.step label = some t) :
    TermsKept s.db t.db := by
  cases step_effect s label t taken with
  | idle => exact .refl _
  | created row _ fresh _ => exact create_terms row fresh
  | referenced paymentId providerRef =>
      exact .update _ (attachReference providerRef) (fun _ => rfl) (fun _ => rfl) rfl
  | began => exact .refl _
  | rolledBack => exact .refl _
  | lost => exact .refl _
  | paid i input payment =>
      exact .update (casCondition payment.id payment.status) (markPaid input)
        (fun _ => rfl) (fun _ => rfl) rfl
  | refunded i input payment =>
      exact .update (casCondition payment.id .paid) markRefunded (fun _ => rfl) (fun _ => rfl) rfl

/-- Payment ids stay unique under every step of the store. -/
theorem step_ids {s t : Store} {label : StoreLabel} (unique : Table.Unique Payment.id s.db.payments)
    (taken : s.step label = some t) : Table.Unique Payment.id t.db.payments := by
  cases step_effect s label t taken with
  | idle => exact unique
  | created row _ fresh _ => exact unique.insert row fresh
  | referenced => exact unique.update _ _ fun _ => rfl
  | began => exact unique
  | rolledBack => exact unique
  | lost => exact unique
  | paid => exact unique.update _ _ fun _ => rfl
  | refunded => exact unique.update _ _ fun _ => rfl

/-- What a request has in hand still fits the payment it is about. -/
def Request.Backed (db : Db) : Request → Prop
  | .succeeding input => ∃ payment provider, db.findPaymentById input.paymentId = some payment ∧
      buildEntryFeePaymentEntries provider payment.amount = .ok input.entries
  | .refunding payment => db.termsOf payment.id = some payment.terms
  | _ => True

theorem termsOf_some {db : Db} {id : Nat} {terms : PaymentTerms} (known : db.termsOf id = some terms) :
    ∃ payment, db.findPaymentById id = some payment ∧ payment.terms = terms := by
  rw [Db.termsOf, Option.map_eq_some_iff] at known
  exact known

theorem termsOf_found {db : Db} {id : Nat} {payment : Payment}
    (found : db.findPaymentById id = some payment) : db.termsOf id = some payment.terms := by
  rw [Db.termsOf, found, Option.map_some]

theorem Request.Backed.keep {db after : Db} {request : Request} (backed : request.Backed db)
    (kept : TermsKept db after) : request.Backed after := by
  cases request with
  | succeeding input =>
      obtain ⟨payment, provider, found, built⟩ := backed
      obtain ⟨later, now, same⟩ := termsOf_some (kept _ _ (termsOf_found found))
      have amount : later.amount = payment.amount := congrArg PaymentTerms.amount same
      refine ⟨later, provider, now, ?_⟩
      rw [amount]
      exact built
  | refunding payment => exact kept _ _ backed
  | initiating invoice provider key => trivial
  | creating invoice provider key => trivial
  | checkingOut paymentId => trivial

theorem mapError_ok {α ε δ : Type} {result : Except ε α} {value : α} {wrap : ε → δ}
    (ok : result.mapError wrap = .ok value) : result = .ok value := by
  cases result with
  | error _ => cases ok
  | ok _ =>
      cases ok
      rfl

theorem confirmManualPayment_backed {db : Db} {paymentId : Nat}
    {input : ApplyPaymentSuccessInput} (ok : confirmManualPayment db paymentId = .ok input) :
    (Request.succeeding input).Backed db := by
  unfold confirmManualPayment at ok
  cases found : db.findPaymentById paymentId with
  | none =>
      rw [found] at ok
      cases ok
  | some payment =>
      rw [found] at ok
      by_cases online : payment.provider ≠ .manual
      · simp only [if_pos online] at ok
        cases ok
      · simp only [if_neg online] at ok
        cases built : entryFeeEntries .manual payment.amount with
        | error _ =>
            rw [built] at ok
            cases ok
        | ok entries =>
            rw [built] at ok
            cases ok
            exact ⟨payment, .manual, found, mapError_ok built⟩

theorem findEventPayment_found {db : Db} (unique : Table.Unique Payment.id db.payments)
    {provider : PaymentProvider} {event : NormalizedWebhookEvent} {payment : Payment}
    (found : findEventPayment db provider event = some payment) :
    db.findPaymentById payment.id = some payment := by
  rw [findEventPayment, Option.or_eq_some_iff] at found
  rcases found with byTransaction | ⟨_, byId⟩
  · exact unique.find (List.mem_of_find?_eq_some byTransaction)
  · rw [Option.bind_eq_some_iff] at byId
    obtain ⟨id, _, here⟩ := byId
    exact unique.find (Table.findUnique_mem here)

theorem webhook_backed {db : Db} (unique : Table.Unique Payment.id db.payments)
    {providerCode : PaymentProvider} {event : NormalizedWebhookEvent}
    {input : ApplyPaymentSuccessInput} (ok : webhook db providerCode event = .ok (some input)) :
    (Request.succeeding input).Backed db := by
  unfold webhook at ok
  cases found : findEventPayment db providerCode event with
  | none =>
      rw [found] at ok
      cases ok
  | some payment =>
      simp only [found] at ok
      by_cases ignored : event.status ≠ .paid
      · rw [if_pos ignored] at ok
        cases ok
      · rw [if_neg ignored] at ok
        by_cases mismatch : payment.amount ≠ event.amountTiyin ∨ payment.currency ≠ event.currency
        · rw [if_pos mismatch] at ok
          cases ok
        · rw [if_neg mismatch] at ok
          cases built : entryFeeEntries providerCode payment.amount with
          | error _ =>
              rw [built] at ok
              cases ok
          | ok entries =>
              rw [built] at ok
              cases ok
              exact ⟨payment, providerCode, findEventPayment_found unique found, mapError_ok built⟩

theorem refundRequest_backed {db : Db} {paymentId : Nat} {payment : Payment}
    (ok : refundRequest db paymentId = .ok (some payment)) :
    (Request.refunding payment).Backed db := by
  have found := (readForRefund_some ok).1
  have id := Table.findUnique_key found
  exact termsOf_found (by rw [id]; exact found)

/-- The refund entries reverse those of the payment's own provider. -/
theorem refundInput_built {payment : Payment} {accepted : Bool} {input : ApplyRefundInput}
    (ok : refundInput payment accepted = .ok input) :
    input.paymentId = payment.id ∧ ∃ entries,
      buildEntryFeePaymentEntries payment.provider payment.amount = .ok entries ∧
        reverseLedgerEntries entries = .ok input.entries := by
  unfold refundInput at ok
  by_cases rejected : accepted = true
  · rw [if_pos rejected] at ok
    cases built : entryFeeEntries payment.provider payment.amount with
    | error _ =>
        rw [built] at ok
        cases ok
    | ok entries =>
        rw [built] at ok
        simp only [bind, Except.bind] at ok
        cases reversed : (reverseLedgerEntries entries).mapError BillingError.ledgerImbalance with
        | error _ =>
            rw [reversed] at ok
            cases ok
        | ok opposite =>
            rw [reversed] at ok
            cases ok
            exact ⟨rfl, entries, mapError_ok built, mapError_ok reversed⟩
  · rw [if_neg rejected] at ok
    cases ok

namespace Service

structure Backed (s : Service) : Prop where
  ids : Table.Unique Payment.id s.store.db.payments
  requests : ∀ request ∈ s.requests, request.Backed s.store.db

/-- What a step of a request does to the store: nothing, or one step of a transaction
with the entries its caller builds. Only a commit is a commit. -/
def StoreMove (s : Service) (label : ServiceLabel) (t : Service) : Prop :=
  (t.store = s.store ∧ label.commits = none) ∨
    ∃ move, BuiltByCaller s.store move ∧ s.store.step move = some t.store ∧
      move.commits = label.commits

theorem Backed.accept {s : Service} (backed : s.Backed) {request : Request}
    (fits : request.Backed s.store.db) : (s.accept request).Backed where
  ids := backed.ids
  requests := by
    intro other inside
    rw [Service.accept, List.mem_append, List.mem_singleton] at inside
    rcases inside with old | rfl
    · exact backed.requests other old
    · exact fits

theorem Backed.finish {s : Service} (backed : s.Backed) (i : Nat) : (s.finish i).Backed where
  ids := backed.ids
  requests := fun other inside => backed.requests other (List.mem_of_mem_eraseIdx inside)

theorem Backed.advance {s : Service} (backed : s.Backed) (i : Nat) {request : Request}
    (fits : request.Backed s.store.db) : (s.advance i request).Backed where
  ids := backed.ids
  requests := by
    intro other inside
    rcases List.mem_or_eq_of_mem_set inside with old | rfl
    · exact backed.requests other old
    · exact fits

/-- A request that ends with a call whose entries it built takes one step of the store. -/
theorem hand_move {s t : Service} {label : ServiceLabel} (backed : s.Backed) {i : Nat}
    (move : StoreLabel) (built : BuiltByCaller s.store move) (same : move.commits = label.commits)
    (handed : s.hand i move = some t) : t.Backed ∧ StoreMove s label t := by
  rw [Service.hand, Option.map_eq_some_iff] at handed
  obtain ⟨store, taken, rfl⟩ := handed
  refine ⟨⟨step_ids backed.ids taken, ?_⟩, .inr ⟨move, built, taken, same⟩⟩
  intro request inside
  exact (backed.requests request (List.mem_of_mem_eraseIdx inside)).keep (step_terms taken)

theorem store_move {s : Service} {label : ServiceLabel} (backed : s.Backed) (move : StoreLabel)
    {store : Store} (built : BuiltByCaller s.store move) (same : move.commits = label.commits)
    (taken : s.store.step move = some store) :
    Backed { s with store := store } ∧ StoreMove s label { s with store := store } := by
  refine ⟨⟨step_ids backed.ids taken, ?_⟩, .inr ⟨move, built, taken, same⟩⟩
  intro request inside
  exact (backed.requests request inside).keep (step_terms taken)

theorem insert_move {s t : Service} (backed : s.Backed) (i paymentId : Nat) {invoice : Invoice}
    {provider : PaymentProvider} {key : String}
    (taken : (match createPaymentIdempotent s.store.db (newPayment paymentId invoice provider key) with
      | .ok (_, _, true) =>
          (s.store.step (.createPayment (newPayment paymentId invoice provider key))).map
            fun store => (⟨store, s.requests.set i (.checkingOut paymentId)⟩ : Service)
      | _ => some (s.finish i)) = some t) :
    t.Backed ∧ StoreMove s (.insert i paymentId) t := by
  split at taken
  · rw [Option.map_eq_some_iff] at taken
    obtain ⟨store, inserted, rfl⟩ := taken
    refine ⟨⟨step_ids backed.ids inserted, ?_⟩, .inr ⟨.createPayment _, trivial, inserted, rfl⟩⟩
    intro request inside
    rcases List.mem_or_eq_of_mem_set inside with old | rfl
    · exact (backed.requests request old).keep (step_terms inserted)
    · trivial
  · cases taken
    exact ⟨backed.finish i, .inl ⟨rfl, rfl⟩⟩

/-- One step of a request, on the store. -/
theorem step_move (configured : PaymentProvider → Bool) (s : Service) (label : ServiceLabel)
    (t : Service) (backed : s.Backed) (taken : s.step configured label = some t) :
    t.Backed ∧ StoreMove s label t := by
  cases label with
  | initiatePayment invoiceId provider key =>
      simp only [Service.step] at taken
      split at taken <;> cases taken
      · exact ⟨backed, .inl ⟨rfl, rfl⟩⟩
      · exact ⟨backed.accept trivial, .inl ⟨rfl, rfl⟩⟩
  | confirmManual paymentId =>
      simp only [Service.step] at taken
      split at taken
      · cases taken
        exact ⟨backed, .inl ⟨rfl, rfl⟩⟩
      · rename_i input loaded
        cases taken
        exact ⟨backed.accept (confirmManualPayment_backed loaded), .inl ⟨rfl, rfl⟩⟩
  | webhook providerCode event =>
      simp only [Service.step] at taken
      split at taken
      · rename_i input loaded
        cases taken
        exact ⟨backed.accept (webhook_backed backed.ids loaded), .inl ⟨rfl, rfl⟩⟩
      · cases taken
        exact ⟨backed, .inl ⟨rfl, rfl⟩⟩
  | refund paymentId =>
      simp only [Service.step] at taken
      split at taken
      · rename_i payment loaded
        cases taken
        exact ⟨backed.accept (refundRequest_backed loaded), .inl ⟨rfl, rfl⟩⟩
      · cases taken
        exact ⟨backed, .inl ⟨rfl, rfl⟩⟩
  | checkKey i =>
      simp only [Service.step] at taken
      split at taken
      · split at taken
        · cases taken
          exact ⟨backed.finish i, .inl ⟨rfl, rfl⟩⟩
        · split at taken <;> cases taken
          · exact ⟨backed.finish i, .inl ⟨rfl, rfl⟩⟩
          · exact ⟨backed.advance i trivial, .inl ⟨rfl, rfl⟩⟩
      · cases taken
  | insert i paymentId =>
      simp only [Service.step] at taken
      split at taken
      · exact insert_move backed i paymentId taken
      · cases taken
  | saveCheckout i providerRef =>
      simp only [Service.step] at taken
      split at taken
      · exact hand_move backed (.saveCheckout _ providerRef) trivial rfl taken
      · cases taken
  | applySuccess i =>
      simp only [Service.step] at taken
      split at taken
      · rename_i input here
        exact hand_move backed (.beginSuccess input)
          (backed.requests _ (List.mem_of_getElem? here)) rfl taken
      · cases taken
  | applyRefund i accepted =>
      simp only [Service.step] at taken
      split at taken
      · rename_i payment here
        split at taken
        · cases taken
          exact ⟨backed.finish i, .inl ⟨rfl, rfl⟩⟩
        · rename_i input answered
          obtain ⟨named, entries, built, reversed⟩ := refundInput_built answered
          obtain ⟨row, found, terms⟩ :=
            termsOf_some (backed.requests _ (List.mem_of_getElem? here))
          have provider : row.provider = payment.provider := congrArg PaymentTerms.provider terms
          have amount : row.amount = payment.amount := congrArg PaymentTerms.amount terms
          refine hand_move backed (.beginRefund input) ⟨row, entries, ?_, ?_, reversed⟩ rfl taken
          · rw [named]
            exact found
          · rw [provider, amount]
            exact built
      · cases taken
  | abandon i =>
      simp only [Service.step, Option.map_eq_some_iff] at taken
      obtain ⟨_, _, rfl⟩ := taken
      exact ⟨backed.finish i, .inl ⟨rfl, rfl⟩⟩
  | commit i =>
      simp only [Service.step, Option.map_eq_some_iff] at taken
      obtain ⟨store, committed, rfl⟩ := taken
      exact store_move backed (.commit i) trivial rfl committed
  | rollback i =>
      simp only [Service.step, Option.map_eq_some_iff] at taken
      obtain ⟨store, rolled, rfl⟩ := taken
      exact store_move backed (.rollback i) trivial rfl rolled

/-- No request is running and the store is initial. -/
structure Initial (s : Service) : Prop where
  store : s.store.Initial
  invoiceIds : Table.Unique Invoice.id s.store.db.invoices
  unpaid : ∀ invoice ∈ s.store.db.invoices, invoice.status ≠ .paid
  requests : s.requests = []

theorem initial_backed (s : Service) (initial : s.Initial) : s.Backed where
  ids := initial.store.ids
  requests := by
    rw [initial.requests]
    intro request inside
    cases inside

end Service

def service (configured : PaymentProvider → Bool) : Transition.System Service ServiceLabel :=
  ⟨Service.Initial, Service.step configured⟩

/-- The requests refine the transactions: whatever state they reach, its store is reached
by transactions with the entries their callers build. -/
theorem service_refines (configured : PaymentProvider → Bool) (s : Service)
    (reached : (service configured).Reachable s) :
    transactions.ReachableWhile BuiltByCaller s.store := by
  have backed : ∀ s, (service configured).Reachable s → s.Backed := fun s reached =>
    reached.invariant Service.Backed Service.initial_backed fun s label t backed _ taken =>
      (Service.step_move configured s label t backed taken).1
  refine reached.simulate Service.store Service.Backed backed (fun s initial => initial.store) ?_
  intro s label t here _ taken
  rcases (Service.step_move configured s label t here taken).2 with ⟨same, _⟩ | ⟨move, built, moved, _⟩
  · rw [same]
  · exact .single ⟨move, built, moved⟩

end Farzin.Billing
