import Farzin.BillingJournal

set_option autoImplicit false

/- Every step keeps the journal: a status change that is won books exactly once. -/
namespace Farzin.Billing

section Effects

theorem readForSuccess_some {db : Db} {paymentId : Nat} {payment : Payment}
    (read : readForSuccess db paymentId = .ok (some payment)) :
    db.findPaymentById paymentId = some payment ∧
      canTransitionPayment payment.status .paid = true := by
  unfold readForSuccess at read
  cases found : db.findPaymentById paymentId with
  | none =>
      rw [found] at read
      cases read
  | some row =>
      rw [found] at read
      by_cases paid : row.status = .paid
      · simp only [paid, if_true] at read
        cases read
      · by_cases allowed : canTransitionPayment row.status .paid = true
        · simp only [paid, if_false, assertPaymentTransition, allowed, if_true, bind, Except.bind,
            pure, Except.pure, Except.ok.injEq, Option.some.injEq] at read
          subst read
          exact ⟨rfl, allowed⟩
        · simp only [paid, if_false, assertPaymentTransition, allowed, bind, Except.bind] at read
          cases read

/-- `applyRefund` goes on with a payment that is PAID, and stops at one that is REFUNDED. -/
theorem readForRefund_ok {db : Db} {paymentId : Nat} {result : Option Payment}
    (read : readForRefund db paymentId = .ok result) :
    ∃ row, db.findPaymentById paymentId = some row ∧
      (row.status = .paid ∧ result = some row ∨ row.status = .refunded ∧ result = none) := by
  unfold readForRefund at read
  cases found : db.findPaymentById paymentId with
  | none =>
      rw [found] at read
      cases read
  | some row =>
      rw [found] at read
      refine ⟨row, rfl, ?_⟩
      cases status : row.status <;>
        simp [status, assertRefundPath, assertPaymentTransition, canTransitionPayment, transitions,
          bind, Except.bind, pure, Except.pure] at read
      · exact .inl ⟨rfl, read.symm⟩
      · exact .inr ⟨rfl, read.symm⟩

theorem readForRefund_some {db : Db} {paymentId : Nat} {payment : Payment}
    (read : readForRefund db paymentId = .ok (some payment)) :
    db.findPaymentById paymentId = some payment ∧ payment.status = .paid := by
  obtain ⟨row, found, ⟨status, same⟩ | ⟨_, impossible⟩⟩ := readForRefund_ok read
  · cases same
    exact ⟨found, status⟩
  · cases impossible

/-- The commit finds its row as expected and no constraint in its way. -/
def Transaction.Wins (db : Db) : Transaction → Prop
  | .success input payment =>
      0 < db.payments.countP (casCondition payment.id payment.status) ∧
        db.transactionTaken payment.id payment.provider input.providerTransactionId = false ∧
        (db.findInvoiceById payment.invoiceId).isSome
  | .refund _ payment =>
      0 < db.payments.countP (casCondition payment.id .paid) ∧
        (db.findInvoiceById payment.invoiceId).isSome

def Transaction.writes (db : Db) : Transaction → Db
  | .success input payment => db.settle input payment
  | .refund input payment => db.unsettle input payment

/-- A commit that wins makes all its writes; any other writes nothing. -/
theorem commit_cases (db : Db) (t : Transaction) :
    (t.Wins db ∧ t.commit db = .ok (t.writes db, true)) ∨
      (¬ t.Wins db ∧ (t.commit db = .ok (db, false) ∨ ∃ error, t.commit db = .error error)) := by
  cases t with
  | success input payment =>
      simp only [Transaction.Wins, Transaction.commit, Transaction.writes, commitSuccess]
      by_cases lost : db.payments.countP (casCondition payment.id payment.status) = 0
      · exact .inr ⟨fun wins => by omega, .inl (if_pos lost)⟩
      · rw [if_neg lost]
        cases taken :
            db.transactionTaken payment.id payment.provider input.providerTransactionId with
        | true => exact .inr ⟨fun wins => by simp at wins, .inr ⟨_, rfl⟩⟩
        | false =>
            cases found : db.findInvoiceById payment.invoiceId with
            | none => exact .inr ⟨fun wins => by simp at wins, .inr ⟨_, rfl⟩⟩
            | some invoice => exact .inl ⟨⟨Nat.pos_of_ne_zero lost, rfl, rfl⟩, rfl⟩
  | refund input payment =>
      simp only [Transaction.Wins, Transaction.commit, Transaction.writes, commitRefund]
      by_cases lost : db.payments.countP (casCondition payment.id .paid) = 0
      · exact .inr ⟨fun wins => by omega, .inl (if_pos lost)⟩
      · rw [if_neg lost]
        cases found : db.findInvoiceById payment.invoiceId with
        | none => exact .inr ⟨fun wins => by simp at wins, .inr ⟨_, rfl⟩⟩
        | some invoice => exact .inl ⟨⟨Nat.pos_of_ne_zero lost, rfl⟩, rfl⟩

theorem createPaymentIdempotent_ok {db after : Db} {row payment : Payment} {created : Bool}
    (ok : createPaymentIdempotent db row = .ok (after, payment, created)) :
    (created = false ∧ after = db ∧
        db.findPaymentByIdempotencyKey row.idempotencyKey = some payment) ∨
      (created = true ∧ payment = row ∧ db.findPaymentById row.id = none ∧
        (db.findInvoiceById row.invoiceId).isSome ∧
        after = { db with payments := db.payments ++ [row] }) := by
  unfold createPaymentIdempotent at ok
  cases keyed : db.findPaymentByIdempotencyKey row.idempotencyKey with
  | some existing =>
      simp only [keyed] at ok
      cases ok
      exact .inl ⟨rfl, rfl, rfl⟩
  | none =>
      simp only [keyed] at ok
      cases found : db.findPaymentById row.id with
      | some old =>
          simp only [found, Option.isSome_some, if_true] at ok
          cases ok
      | none =>
          cases invoice : db.findInvoiceById row.invoiceId with
          | none =>
              simp [found, invoice] at ok
          | some _ =>
              simp only [found, invoice, Option.isSome_none, Option.isNone_some,
                Bool.false_eq_true, if_false] at ok
              cases ok
              exact .inr ⟨rfl, rfl, rfl, rfl, rfl⟩

theorem setProviderCheckout_ok {db after : Db} {paymentId : Nat} {providerRef : String}
    (ok : setProviderCheckout db paymentId providerRef = .ok after) :
    after = { db with
      payments := Table.updateWhere (fun p => p.id = paymentId) (attachReference providerRef)
        db.payments } := by
  unfold setProviderCheckout at ok
  cases found : db.findPaymentById paymentId with
  | none =>
      rw [found] at ok
      cases ok
  | some payment =>
      rw [found] at ok
      by_cases taken : db.transactionTaken paymentId payment.provider (some providerRef) = true
      · simp only [taken, if_true] at ok
        cases ok
      · simp only [taken] at ok
        cases ok
        rfl

/-- The transaction a call leaves in flight, with what its read has established. -/
inductive Began (db : Db) : StoreLabel → Transaction → Prop
  | success (input : ApplyPaymentSuccessInput) (payment : Payment)
      (found : db.findPaymentById input.paymentId = some payment)
      (allowed : canTransitionPayment payment.status .paid = true) :
      Began db (.beginSuccess input) (.success input payment)
  | refund (input : ApplyRefundInput) (payment : Payment)
      (found : db.findPaymentById input.paymentId = some payment)
      (paid : payment.status = .paid) :
      Began db (.beginRefund input) (.refund input payment)

/-- Everything a step of the store can do. -/
inductive Store.Effect (s : Store) : StoreLabel → Store → Prop
  | idle (label : StoreLabel) (call : label.commits = none) : Effect s label s
  | created (row : Payment) (status : row.status = .created)
      (fresh : s.db.findPaymentById row.id = none)
      (invoice : (s.db.findInvoiceById row.invoiceId).isSome) :
      Effect s (.createPayment row)
        { s with db := { s.db with payments := s.db.payments ++ [row] } }
  | referenced (paymentId : Nat) (providerRef : String) :
      Effect s (.saveCheckout paymentId providerRef)
        { s with db := { s.db with
            payments := Table.updateWhere (fun p => p.id = paymentId) (attachReference providerRef)
              s.db.payments } }
  | began (label : StoreLabel) (t : Transaction) (read : Began s.db label t) :
      Effect s label { s with inFlight := s.inFlight ++ [t] }
  | rolledBack (i : Nat) : Effect s (.rollback i) { s with inFlight := s.inFlight.eraseIdx i }
  | lost (i : Nat) (t : Transaction) (here : s.inFlight[i]? = some t) (loses : ¬ t.Wins s.db) :
      Effect s (.commit i) { s with inFlight := s.inFlight.eraseIdx i }
  | paid (i : Nat) (input : ApplyPaymentSuccessInput) (payment : Payment)
      (here : s.inFlight[i]? = some (.success input payment))
      (wins : (Transaction.success input payment).Wins s.db) :
      Effect s (.commit i) ⟨s.db.settle input payment, s.inFlight.eraseIdx i⟩
  | refunded (i : Nat) (input : ApplyRefundInput) (payment : Payment)
      (here : s.inFlight[i]? = some (.refund input payment))
      (wins : (Transaction.refund input payment).Wins s.db) :
      Effect s (.commit i) ⟨s.db.unsettle input payment, s.inFlight.eraseIdx i⟩

theorem step_effect (s : Store) (label : StoreLabel) (t : Store)
    (taken : s.step label = some t) : s.Effect label t := by
  cases label with
  | createPayment row =>
      simp only [Store.step] at taken
      by_cases proper : row.status = .created ∧ row.providerTransactionId = none
      · rw [if_pos proper] at taken
        cases done : createPaymentIdempotent s.db row with
        | error _ =>
            rw [done] at taken
            cases taken
            exact .idle _ rfl
        | ok result =>
            obtain ⟨after, payment, created⟩ := result
            rw [done] at taken
            cases taken
            rcases createPaymentIdempotent_ok done with ⟨_, rfl, _⟩ | ⟨_, _, fresh, invoice, rfl⟩
            · exact .idle _ rfl
            · exact .created row proper.1 fresh invoice
      · rw [if_neg proper] at taken
        cases taken
  | saveCheckout paymentId providerRef =>
      simp only [Store.step] at taken
      cases done : setProviderCheckout s.db paymentId providerRef with
      | error _ =>
          rw [done] at taken
          cases taken
          exact .idle _ rfl
      | ok after =>
          rw [done] at taken
          cases taken
          rw [setProviderCheckout_ok done]
          exact .referenced paymentId providerRef
  | beginSuccess input =>
      simp only [Store.step] at taken
      split at taken
      · rename_i payment read
        cases taken
        have facts := readForSuccess_some read
        exact .began _ _ (.success input payment facts.1 facts.2)
      · cases taken
        exact .idle _ rfl
  | beginRefund input =>
      simp only [Store.step] at taken
      split at taken
      · rename_i payment read
        cases taken
        have facts := readForRefund_some read
        exact .began _ _ (.refund input payment facts.1 facts.2)
      · cases taken
        exact .idle _ rfl
  | commit i =>
      simp only [Store.step, Option.map_eq_some_iff] at taken
      obtain ⟨transaction, here, rfl⟩ := taken
      rcases commit_cases s.db transaction with ⟨wins, done⟩ | ⟨loses, done | ⟨_, done⟩⟩
      · rw [done]
        cases transaction with
        | success input payment => exact .paid i input payment here wins
        | refund input payment => exact .refunded i input payment here wins
      · rw [done]
        exact .lost i transaction here loses
      · rw [done]
        exact .lost i transaction here loses
  | rollback i =>
      simp only [Store.step, Option.map_eq_some_iff] at taken
      obtain ⟨_, _, rfl⟩ := taken
      exact .rolledBack i

end Effects

section Statuses

theorem statusOf_checkout (db : Db) (paymentId : Nat) (providerRef : String) (id : Nat) :
    Db.statusOf { db with
      payments := Table.updateWhere (fun p => p.id = paymentId) (attachReference providerRef)
        db.payments } id =
      db.statusOf id := by
  rw [Db.statusOf, Db.findPaymentById, Table.findUnique_updateWhere _ (attachReference providerRef) _
    (fun _ => rfl), Option.map_map, Db.statusOf, Db.findPaymentById]
  congr 1
  funext p
  simp only [Function.comp_apply]
  split <;> rfl

theorem statusOf_create (db : Db) (row : Payment) (fresh : db.findPaymentById row.id = none)
    (id : Nat) :
    Db.statusOf { db with payments := db.payments ++ [row] } id =
      if row.id = id then some row.status else db.statusOf id := by
  rw [Db.statusOf, Db.findPaymentById, Table.findUnique_insert db.payments row id fresh]
  by_cases same : row.id = id
  · rw [if_pos same, if_pos same, Option.map_some]
  · rw [if_neg same, if_neg same]
    rfl

/-- A conditional update moves the status of the one payment it names, if it is as expected. -/
theorem statusOf_cas (db : Db) (id : Nat) (expected target : PaymentStatusValue)
    (change : Payment → Payment) (keeps : ∀ p, (change p).id = p.id)
    (sets : ∀ p, (change p).status = target) (other : Nat) :
    (db.casPayment id expected change).statusOf other =
      if other = id ∧ db.statusOf other = some expected then some target
      else db.statusOf other := by
  rw [Db.statusOf, Db.findPaymentById, Db.casPayment,
    Table.findUnique_updateWhere _ _ _ keeps, Db.statusOf, Db.findPaymentById]
  cases found : Table.findUnique Payment.id db.payments other with
  | none => simp
  | some p =>
      have key := Table.findUnique_key found
      subst key
      simp only [Option.map_some, casCondition, Bool.and_eq_true, decide_eq_true_eq,
        Option.some.injEq]
      split
      · rw [sets]
      · rfl

/-- The update counts a row exactly when the named payment has the expected status. -/
theorem cas_counts {db : Db} (unique : Table.Unique Payment.id db.payments) (id : Nat)
    (expected : PaymentStatusValue) (counted : 0 < db.payments.countP (casCondition id expected)) :
    db.statusOf id = some expected := by
  obtain ⟨row, inside, holds⟩ := List.countP_pos_iff.mp counted
  simp only [casCondition, Bool.and_eq_true, decide_eq_true_eq] at holds
  obtain ⟨named, status⟩ := holds
  rw [Db.statusOf, Db.findPaymentById, ← named, unique.find inside, Option.map_some, status]

end Statuses

/-- A journal only depends on the ledger table and on the statuses. -/
theorem Journaled.same {db after : Db} {journal : List Booking} (journaled : Journaled db journal)
    (ledger : after.ledger = db.ledger) (count : after.transactionCount = db.transactionCount)
    (statuses : ∀ id, after.statusOf id = db.statusOf id) : Journaled after journal where
  rows := ledger.trans journaled.rows
  fresh := by
    rw [count]
    exact journaled.fresh
  distinct := journaled.distinct
  balanced := journaled.balanced
  owned := by
    intro b inside
    rw [statuses]
    exact journaled.owned b inside
  booked := by
    intro id status reason known
    rw [statuses] at known
    exact journaled.booked id status reason known

theorem bookings_unpaid {status : PaymentStatusValue}
    (allowed : canTransitionPayment status .paid = true) (reason : BookingReason) :
    bookings status reason = 0 := by
  cases status <;> cases reason <;> first | rfl | cases allowed

theorem bookings_paid {status : PaymentStatusValue}
    (allowed : canTransitionPayment status .paid = true) (reason : BookingReason) :
    bookings .paid reason = bookings status reason + if reason = .paymentSucceeded then 1 else 0 := by
  rw [bookings_unpaid allowed]
  cases reason <;> rfl

theorem bookings_refunded (reason : BookingReason) :
    bookings .refunded reason = bookings .paid reason + if reason = .refundRequested then 1 else 0 := by
  cases reason <;> rfl

/-- A new payment has booked nothing. -/
theorem Journaled.create {db : Db} {journal : List Booking} (journaled : Journaled db journal)
    (row : Payment) (fresh : db.findPaymentById row.id = none) (status : row.status = .created) :
    Journaled { db with payments := db.payments ++ [row] } journal where
  rows := journaled.rows
  fresh := journaled.fresh
  distinct := journaled.distinct
  balanced := journaled.balanced
  owned := by
    intro b inside
    rw [statusOf_create db row fresh]
    split
    · exact Option.some_ne_none _
    · exact journaled.owned b inside
  booked := by
    intro id known reason found
    rw [statusOf_create db row fresh] at found
    by_cases same : row.id = id
    · rw [if_pos same, status, Option.some.injEq] at found
      subst found
      have unknown : db.statusOf id = none := by
        rw [Db.statusOf, ← same, fresh, Option.map_none]
      have nothing : (journal.countP fun b => b.paymentId = id ∧ b.reason = reason) = 0 := by
        rw [List.countP_eq_zero]
        intro b inside
        have owned := journaled.owned b inside
        simp only [decide_eq_true_eq]
        intro both
        rw [both.1] at owned
        exact owned unknown
      rw [nothing]
      cases reason <;> rfl
    · rw [if_neg same] at found
      exact journaled.booked id known reason found

/-- A won status change together with its booking. -/
theorem Journaled.book {db after : Db} {journal : List Booking} (journaled : Journaled db journal)
    (payment : Payment) (expected target : PaymentStatusValue) (reason : BookingReason)
    (entries : List LedgerEntryInput) (balanced : Balanced entries)
    (won : db.statusOf payment.id = some expected)
    (moves : ∀ kind, bookings target kind =
      bookings expected kind + if kind = reason then 1 else 0)
    (ledger : after.ledger = db.ledger ++ entries.map fun e =>
      ⟨db.transactionCount, payment.id, e, payment.currency, reason⟩)
    (count : after.transactionCount = db.transactionCount + 1)
    (statuses : ∀ id, after.statusOf id =
      if id = payment.id ∧ db.statusOf id = some expected then some target else db.statusOf id) :
    Journaled after
      (journal ++ [⟨db.transactionCount, payment.id, reason, payment.currency, entries⟩]) where
  rows := by
    rw [ledger, journaled.rows, List.flatMap_append, List.flatMap_singleton]
    rfl
  fresh := by
    intro b inside
    rw [List.mem_append, List.mem_singleton] at inside
    rw [count]
    rcases inside with old | rfl
    · have := journaled.fresh b old
      omega
    · exact Nat.lt_succ_self _
  distinct := by
    rw [List.map_append, List.map_singleton]
    apply List.nodup_append.mpr
    refine ⟨journaled.distinct, List.nodup_singleton _, ?_⟩
    intro t old t' new same
    obtain ⟨b, inside, rfl⟩ := List.mem_map.mp old
    rw [List.mem_singleton] at new
    have below := journaled.fresh b inside
    rw [new] at same
    dsimp only at same
    omega
  balanced := by
    intro b inside
    rw [List.mem_append, List.mem_singleton] at inside
    rcases inside with old | rfl
    · exact journaled.balanced b old
    · exact balanced
  owned := by
    intro b inside
    rw [List.mem_append, List.mem_singleton] at inside
    rw [statuses]
    split
    · exact Option.some_ne_none _
    · rcases inside with old | rfl
      · exact journaled.owned b old
      · rw [won]
        exact Option.some_ne_none _
  booked := by
    intro id status kind known
    rw [statuses] at known
    rw [List.countP_append, List.countP_singleton]
    by_cases same : id = payment.id
    · subst same
      rw [if_pos ⟨rfl, won⟩, Option.some.injEq] at known
      subst known
      rw [journaled.booked _ expected kind won, moves kind]
      by_cases kinds : kind = reason
      · simp [kinds]
      · have apart : ¬ reason = kind := fun equal => kinds equal.symm
        simp [kinds, apart]
    · rw [if_neg (fun both => same both.1)] at known
      rw [journaled.booked id status kind known]
      have other : ¬ payment.id = id := fun equal => same equal.symm
      simp [other]

/-- A transaction in flight carries balanced entries, and a success read a status from
which PAID may follow. -/
def Transaction.Ready : Transaction → Prop
  | .success input payment =>
      Balanced input.entries ∧ canTransitionPayment payment.status .paid = true
  | .refund input _ => Balanced input.entries

structure Store.Consistent (s : Store) : Prop where
  ids : Table.Unique Payment.id s.db.payments
  journal : ∃ journal, Journaled s.db journal
  inFlight : ∀ t ∈ s.inFlight, t.Ready

theorem initial_consistent (s : Store) (initial : s.Initial) : s.Consistent where
  ids := initial.ids
  journal := by
    refine ⟨[], initial.ledger, ?_, List.nodup_nil, ?_, ?_, ?_⟩
    · simp
    · simp
    · simp
    · intro id status reason known
      rw [Db.statusOf, Option.map_eq_some_iff] at known
      obtain ⟨p, found, rfl⟩ := known
      have unpaid := initial.unpaid p (Table.findUnique_mem found)
      cases status : p.status <;> cases reason <;> simp_all [bookings]
  inFlight := by
    rw [initial.inFlight]
    intro t inside
    cases inside

section Commits

/-- What a winning commit does to the payments. -/
structure Won (db after : Db) (id : Nat) (expected target : PaymentStatusValue) : Prop where
  status : db.statusOf id = some expected
  statuses : ∀ other, after.statusOf other =
    if other = id ∧ db.statusOf other = some expected then some target else db.statusOf other

theorem commitSuccess_won {db : Db} (unique : Table.Unique Payment.id db.payments)
    (input : ApplyPaymentSuccessInput) (payment : Payment)
    (counted : 0 < db.payments.countP (casCondition payment.id payment.status)) :
    Won db (db.settle input payment) payment.id payment.status .paid where
  status := cas_counts unique payment.id payment.status counted
  statuses := statusOf_cas db payment.id payment.status .paid (markPaid input)
    (fun _ => rfl) (fun _ => rfl)

theorem commitRefund_won {db : Db} (unique : Table.Unique Payment.id db.payments)
    (input : ApplyRefundInput) (payment : Payment)
    (counted : 0 < db.payments.countP (casCondition payment.id .paid)) :
    Won db (db.unsettle input payment) payment.id .paid .refunded where
  status := cas_counts unique payment.id .paid counted
  statuses := statusOf_cas db payment.id .paid .refunded markRefunded
    (fun _ => rfl) (fun _ => rfl)

end Commits

/-- One move of the payment-status machine, or the two-step refund path at once. -/
def StatusMove (source target : PaymentStatusValue) : Prop :=
  canTransitionPayment source target = true ∨
    (canTransitionPayment source .refundRequested = true ∧
      canTransitionPayment .refundRequested target = true)

/-- No payment disappears, and each keeps its status or makes one move. -/
def StatusesMove (db after : Db) : Prop :=
  ∀ id status, db.statusOf id = some status →
    ∃ fresh, after.statusOf id = some fresh ∧ (fresh = status ∨ StatusMove status fresh)

theorem StatusesMove.same {db after : Db} (same : ∀ id, after.statusOf id = db.statusOf id) :
    StatusesMove db after := by
  intro id status known
  exact ⟨status, (same id).trans known, .inl rfl⟩

theorem Won.moves {db after : Db} {id : Nat} {expected target : PaymentStatusValue}
    (won : Won db after id expected target) (allowed : StatusMove expected target) :
    StatusesMove db after := by
  intro other status known
  by_cases hit : other = id ∧ db.statusOf other = some expected
  · have same : status = expected := by
      rw [hit.2] at known
      exact (Option.some.inj known).symm
    refine ⟨target, by rw [won.statuses, if_pos hit], .inr ?_⟩
    rw [same]
    exact allowed
  · exact ⟨status, by rw [won.statuses, if_neg hit, known], .inl rfl⟩

theorem Store.Consistent.inFlight_erase {s : Store} (consistent : s.Consistent) (i : Nat) :
    ∀ t ∈ s.inFlight.eraseIdx i, t.Ready :=
  fun t inside => consistent.inFlight t (List.mem_of_mem_eraseIdx inside)

/-- A call whose entries its caller built leaves a transaction that is ready to book. -/
theorem began_ready {s : Store} {label : StoreLabel} {t : Transaction} (read : Began s.db label t)
    (built : BuiltByCaller s label) : t.Ready := by
  cases read with
  | success input payment found allowed =>
      obtain ⟨_, _, _, entries⟩ := built
      exact ⟨buildEntryFeePaymentEntries_balanced entries, allowed⟩
  | refund input payment found paid =>
      obtain ⟨_, _, _, _, reversed⟩ := built
      exact reverseLedgerEntries_balanced reversed

/-- One step of any call keeps the store consistent and moves statuses along the machine. -/
theorem step_consistent (s : Store) (label : StoreLabel) (t : Store) (consistent : s.Consistent)
    (built : BuiltByCaller s label) (taken : s.step label = some t) :
    t.Consistent ∧ StatusesMove s.db t.db := by
  obtain ⟨journal, journaled⟩ := consistent.journal
  cases step_effect s label t taken with
  | idle => exact ⟨consistent, .same fun _ => rfl⟩
  | created row status fresh _ =>
      refine ⟨⟨?_, ⟨journal, journaled.create row fresh status⟩, consistent.inFlight⟩, ?_⟩
      · exact consistent.ids.insert row fresh
      · intro id old known
        have other : ¬ row.id = id := by
          intro same
          rw [Db.statusOf, ← same, fresh] at known
          cases known
        exact ⟨old, by rw [statusOf_create s.db row fresh, if_neg other, known], .inl rfl⟩
  | referenced paymentId providerRef =>
      have statuses := statusOf_checkout s.db paymentId providerRef
      refine ⟨⟨?_, ⟨journal, journaled.same rfl rfl statuses⟩, consistent.inFlight⟩, .same statuses⟩
      exact consistent.ids.update _ _ fun _ => rfl
  | began _ transaction read =>
      refine ⟨⟨consistent.ids, consistent.journal, ?_⟩, .same fun _ => rfl⟩
      intro other inside
      rw [List.mem_append, List.mem_singleton] at inside
      rcases inside with old | rfl
      · exact consistent.inFlight other old
      · exact began_ready read built
  | rolledBack i =>
      exact ⟨⟨consistent.ids, consistent.journal, consistent.inFlight_erase i⟩, .same fun _ => rfl⟩
  | lost i =>
      exact ⟨⟨consistent.ids, consistent.journal, consistent.inFlight_erase i⟩, .same fun _ => rfl⟩
  | paid i input payment here wins =>
      have ready := consistent.inFlight _ (List.mem_of_getElem? here)
      have won := commitSuccess_won consistent.ids input payment wins.1
      refine ⟨⟨?_, ⟨_, journaled.book payment payment.status .paid .paymentSucceeded input.entries
        ready.1 won.status (bookings_paid ready.2) rfl rfl won.statuses⟩,
        consistent.inFlight_erase i⟩, won.moves (.inl ready.2)⟩
      exact consistent.ids.update _ _ fun _ => rfl
  | refunded i input payment here wins =>
      have ready := consistent.inFlight _ (List.mem_of_getElem? here)
      have won := commitRefund_won consistent.ids input payment wins.1
      refine ⟨⟨?_, ⟨_, journaled.book payment .paid .refunded .refundRequested input.entries
        ready won.status bookings_refunded rfl rfl won.statuses⟩,
        consistent.inFlight_erase i⟩, won.moves (.inr ⟨rfl, rfl⟩)⟩
      exact consistent.ids.update _ _ fun _ => rfl

theorem reachable_consistent {s : Store} (reached : transactions.ReachableWhile BuiltByCaller s) :
    s.Consistent :=
  reached.invariant Store.Consistent initial_consistent fun s label t consistent built taken =>
    (step_consistent s label t consistent built taken).1

theorem terminal_stays {status fresh : PaymentStatusValue} (terminal : transitions status = [])
    (moved : fresh = status ∨ StatusMove status fresh) : fresh = status := by
  rcases moved with same | step | ⟨step, _⟩
  · exact same
  · simp [canTransitionPayment, terminal] at step
  · simp [canTransitionPayment, terminal] at step

/-- A terminal status survives every further run. -/
theorem terminal_kept {s t : Store} (reached : transactions.ReachableWhile BuiltByCaller s)
    (steps : transactions.Steps BuiltByCaller s t) (id : Nat) (status : PaymentStatusValue)
    (known : s.db.statusOf id = some status) (terminal : transitions status = []) :
    t.db.statusOf id = some status := by
  apply reached.keep Store.Consistent (fun u => u.db.statusOf id = some status)
    (fun _ => reachable_consistent) ?_ steps known
  intro u label v consistent before built taken
  obtain ⟨fresh, now, moved⟩ := (step_consistent u label v consistent built taken).2 id status before
  rw [now, terminal_stays terminal moved]

/-- In every reachable state ledger and statuses agree; every step moves statuses along
the machine; a terminal status is never left. -/
theorem ledger_agrees_with_status (s : Store)
    (reached : transactions.ReachableWhile BuiltByCaller s) :
    LedgerAgrees s.db ∧
      (∀ label t, BuiltByCaller s label → transactions.step s label = some t →
        StatusesMove s.db t.db) ∧
      (∀ t, transactions.Steps BuiltByCaller s t → ∀ id status,
        s.db.statusOf id = some status → transitions status = [] →
          t.db.statusOf id = some status) := by
  have consistent := reachable_consistent reached
  obtain ⟨journal, journaled⟩ := consistent.journal
  refine ⟨journaled.agrees, ?_, ?_⟩
  · intro label t built taken
    exact (step_consistent s label t consistent built taken).2
  · intro t steps id status known terminal
    exact terminal_kept reached steps id status known terminal

/-- One open invoice and one cash payment for it. -/
def cashStore : Store where
  db := {
    invoices := [⟨7, 1, 500, "UZS", .created⟩]
    payments := [⟨1, 7, .manual, .created, 500, "UZS", "k", none⟩]
    registrations := [⟨3, some 7, false⟩]
    ledger := []
    transactionCount := 0 }
  inFlight := []

def cashEntries : List LedgerEntryInput :=
  [⟨.cashManual, .debit, 500⟩, ⟨.liabilityOrganizerPayable, .credit, 500⟩]

def cashRefund : List LedgerEntryInput :=
  [⟨.cashManual, .credit, 500⟩, ⟨.liabilityOrganizerPayable, .debit, 500⟩]

/-- Two confirmations that overlap, then a refund. -/
def cashRun : List StoreLabel :=
  [.beginSuccess ⟨1, cashEntries, none⟩, .beginSuccess ⟨1, cashEntries, none⟩, .commit 0,
    .commit 0, .beginRefund ⟨1, cashRefund⟩, .commit 0]

theorem cashRun_agrees : ∃ s, transactions.run cashStore cashRun = some s ∧
    s.db.statusOf 1 = some .refunded ∧ (s.db.transactionsOf 1).length = 2 ∧ LedgerAgrees s.db := by
  refine ⟨_, rfl, rfl, rfl, (ledger_agrees_with_status _ ⟨cashStore, ?_, ?_⟩).1⟩
  · exact ⟨by decide, by decide, rfl, rfl⟩
  · apply Transition.System.run_steps cashStore _ cashRun rfl
    refine ⟨⟨_, .manual, rfl, rfl⟩, fun _ taken => ?_⟩
    cases taken
    refine ⟨⟨_, .manual, rfl, rfl⟩, fun _ taken => ?_⟩
    cases taken
    refine ⟨trivial, fun _ taken => ?_⟩
    cases taken
    refine ⟨trivial, fun _ taken => ?_⟩
    cases taken
    refine ⟨⟨_, cashEntries, rfl, rfl, rfl⟩, fun _ taken => ?_⟩
    cases taken
    exact ⟨trivial, fun _ _ => trivial⟩

end Farzin.Billing
