import Farzin.BillingRequestsRefinement

set_option autoImplicit false

/- What every account of a payment holds. A success debits the cash account of the provider that
reported it, a refund credits that of the provider stored on the payment. -/
namespace Farzin.Billing

open Transition

/-- Debits minus credits of one account. -/
def accountBalance (entries : List LedgerEntryInput) (account : LedgerAccountCode) : Int :=
  sumByDirection (entries.filter fun e => e.account = account) .debit -
    sumByDirection (entries.filter fun e => e.account = account) .credit

def Db.entriesOf (db : Db) (paymentId : Nat) : List LedgerEntryInput :=
  (db.ledger.filter fun row => row.paymentId = paymentId).map LedgerRow.entry

/-- A refund nets every account to zero. -/
def RefundsNetZero (db : Db) : Prop :=
  ∀ paymentId, db.statusOf paymentId = some .refunded →
    ∀ account, accountBalance (db.entriesOf paymentId) account = 0

instance Transaction.decidableWins (db : Db) (transaction : Transaction) :
    Decidable (transaction.Wins db) := by
  unfold Transaction.Wins
  split <;> infer_instance

/-- A refund that goes through finds the success booked to the cash account of the provider
stored on the payment. -/
def Transaction.OwnCash (db : Db) : Transaction → Prop
  | .success _ _ => True
  | .refund input payment => (Transaction.refund input payment).Wins db →
      ⟨cashAccountForProvider payment.provider, .debit, payment.amount⟩ ∈
        db.entriesOf payment.id

instance Transaction.decidableOwnCash (db : Db) (transaction : Transaction) :
    Decidable (transaction.OwnCash db) := by
  unfold Transaction.OwnCash
  split <;> infer_instance

/-- The same of the transaction that a step commits, if it commits one. -/
def CommitsOwnCash (s : Store) : Option Nat → Prop
  | none => True
  | some i => ∀ transaction ∈ s.inFlight[i]?, transaction.OwnCash s.db

instance decidableCommitsOwnCash (s : Store) (commits : Option Nat) :
    Decidable (CommitsOwnCash s commits) := by
  unfold CommitsOwnCash
  split <;> infer_instance

section Balances

theorem accountBalance_append (left right : List LedgerEntryInput) (account : LedgerAccountCode) :
    accountBalance (left ++ right) account =
      accountBalance left account + accountBalance right account := by
  simp only [accountBalance, List.filter_append, sumByDirection, List.map_append, List.sum_append]
  omega

/-- What `buildEntryFeePaymentEntries` books for a provider. -/
def entryFee (provider : PaymentProvider) (amount : Int) : List LedgerEntryInput :=
  [⟨cashAccountForProvider provider, .debit, amount⟩,
    ⟨.liabilityOrganizerPayable, .credit, amount⟩]

def reversed (entries : List LedgerEntryInput) : List LedgerEntryInput :=
  entries.map fun e => { e with direction := e.direction.reverse }

theorem accountBalance_reversed (entries : List LedgerEntryInput) (account : LedgerAccountCode) :
    accountBalance (reversed entries) account = -accountBalance entries account := by
  have selected : (reversed entries).filter (fun e => e.account = account) =
      reversed (entries.filter fun e => e.account = account) := by
    rw [reversed, reversed, List.filter_map]
    rfl
  rw [accountBalance, selected, reversed, sumByDirection_reverse, sumByDirection_reverse,
    accountBalance]
  show sumByDirection _ .credit - sumByDirection _ .debit = _
  omega

theorem cashAccountForProvider_injective {one other : PaymentProvider}
    (same : cashAccountForProvider one = cashAccountForProvider other) : one = other := by
  cases one <;> cases other <;> first | rfl | cases same

theorem cash_is_no_liability (provider : PaymentProvider) :
    cashAccountForProvider provider ≠ .liabilityOrganizerPayable := by
  cases provider <;> decide

/-- The entries of a success hold the amount on the provider's cash account. -/
theorem entryFee_cash (provider : PaymentProvider) (amount : Int) (account : LedgerAccountCode)
    (cash : account ≠ .liabilityOrganizerPayable) :
    accountBalance (entryFee provider amount) account =
      if cashAccountForProvider provider = account then amount else 0 := by
  by_cases same : cashAccountForProvider provider = account
  · simp [accountBalance, entryFee, sumByDirection, same, Ne.symm cash]
  · simp [accountBalance, entryFee, sumByDirection, same, Ne.symm cash]

theorem entryFee_own (provider source : PaymentProvider) (amount : Int) :
    ⟨cashAccountForProvider provider, .debit, amount⟩ ∈ entryFee source amount ↔
      provider = source := by
  constructor
  · intro inside
    simp only [entryFee, List.mem_cons, List.not_mem_nil, or_false] at inside
    rcases inside with same | impossible
    · exact cashAccountForProvider_injective (congrArg LedgerEntryInput.account same)
    · cases congrArg LedgerEntryInput.direction impossible
  · rintro rfl
    exact List.mem_cons_self

/-- A reversal empties every account exactly when it takes from where the money went. -/
theorem reversal_nets_zero (provider source : PaymentProvider) (amount : Int)
    (positive : 0 < amount) :
    (∀ account, accountBalance (entryFee source amount ++ reversed (entryFee provider amount))
      account = 0) ↔ provider = source := by
  constructor
  · intro zero
    have cash := cash_is_no_liability provider
    have own := zero (cashAccountForProvider provider)
    rw [accountBalance_append, accountBalance_reversed, entryFee_cash _ _ _ cash,
      entryFee_cash _ _ _ cash, if_pos rfl] at own
    by_cases same : cashAccountForProvider source = cashAccountForProvider provider
    · exact (cashAccountForProvider_injective same).symm
    · rw [if_neg same] at own
      omega
  · rintro rfl account
    rw [accountBalance_append, accountBalance_reversed]
    omega

theorem buildEntryFee_entries {provider : PaymentProvider} {amount : Int}
    {entries : List LedgerEntryInput}
    (built : buildEntryFeePaymentEntries provider amount = .ok entries) :
    entries = entryFee provider amount ∧ 0 < amount := by
  obtain ⟨rfl, balanced⟩ := (buildLedgerTransaction_ok _ _).mp built
  exact ⟨rfl, balanced.positive _ List.mem_cons_self⟩

theorem reverseLedgerEntries_entries {entries opposite : List LedgerEntryInput}
    (built : reverseLedgerEntries entries = .ok opposite) : opposite = reversed entries :=
  ((buildLedgerTransaction_ok _ _).mp built).1

end Balances

/-- What a payment's ledger holds when its success came from `source`. -/
def Payment.booked (p : Payment) (source : PaymentProvider) : List LedgerEntryInput :=
  match p.status with
  | .paid => entryFee source p.amount
  | .refunded => entryFee source p.amount ++ reversed (entryFee p.provider p.amount)
  | _ => []

/-- The ledger of a payment is what its status says, under the provider that reported it. -/
structure Payment.Posted (db : Db) (p : Payment) : Prop where
  entries : ∃ source, db.entriesOf p.id = p.booked source
  positive : p.status = .paid ∨ p.status = .refunded → 0 < p.amount

/-- A transaction in flight will book what its caller built from the payment it has read. -/
def Transaction.Built (db : Db) : Transaction → Prop
  | .success input payment => canTransitionPayment payment.status .paid = true ∧
      db.termsOf payment.id = some payment.terms ∧ 0 < payment.amount ∧
      ∃ source, input.entries = entryFee source payment.amount
  | .refund input payment => db.termsOf payment.id = some payment.terms ∧
      input.entries = reversed (entryFee payment.provider payment.amount)

structure Store.Posted (s : Store) : Prop where
  ids : Table.Unique Payment.id s.db.payments
  payments : ∀ p ∈ s.db.payments, p.Posted s.db
  owned : ∀ row ∈ s.db.ledger, (s.db.findPaymentById row.paymentId).isSome
  inFlight : ∀ transaction ∈ s.inFlight, transaction.Built s.db

theorem initial_posted (s : Store) (initial : s.Initial) : s.Posted where
  ids := initial.ids
  payments := by
    intro p inside
    have unpaid := initial.unpaid p inside
    refine ⟨⟨.manual, ?_⟩, ?_⟩
    · rw [Db.entriesOf, initial.ledger, Payment.booked]
      split
      · rename_i status
        exact absurd status unpaid.1
      · rename_i status
        exact absurd status unpaid.2
      · rfl
    · intro paid
      rcases paid with status | status
      · exact absurd status unpaid.1
      · exact absurd status unpaid.2
  owned := by
    rw [initial.ledger]
    intro row inside
    cases inside
  inFlight := by
    rw [initial.inFlight]
    intro transaction inside
    cases inside

section Steps

theorem Transaction.Built.keep {db after : Db} {transaction : Transaction}
    (built : transaction.Built db) (kept : TermsKept db after) : transaction.Built after := by
  cases transaction with
  | success input payment => exact ⟨built.1, kept _ _ built.2.1, built.2.2⟩
  | refund input payment => exact ⟨kept _ _ built.1, built.2⟩

theorem entriesOf_book (db : Db) (payment : Payment) (reason : BookingReason)
    (entries : List LedgerEntryInput) (id : Nat) :
    (db.book payment reason entries).entriesOf id =
      db.entriesOf id ++ if payment.id = id then entries else [] := by
  rw [Db.entriesOf, Db.book, List.filter_append, List.map_append, Db.entriesOf]
  congr 1
  by_cases same : payment.id = id
  · rw [if_pos same, List.filter_eq_self.mpr]
    · rw [List.map_map]
      exact List.map_id _
    · intro row inside
      obtain ⟨e, _, rfl⟩ := List.mem_map.mp inside
      exact decide_eq_true same
  · rw [if_neg same, List.filter_eq_nil_iff.mpr]
    · rfl
    · intro row inside
      obtain ⟨e, _, rfl⟩ := List.mem_map.mp inside
      simpa using same

theorem entriesOf_settle (db : Db) (input : ApplyPaymentSuccessInput) (payment : Payment)
    (id : Nat) : (db.settle input payment).entriesOf id =
      db.entriesOf id ++ if payment.id = id then input.entries else [] :=
  entriesOf_book _ payment .paymentSucceeded input.entries id

theorem entriesOf_unsettle (db : Db) (input : ApplyRefundInput) (payment : Payment)
    (id : Nat) : (db.unsettle input payment).entriesOf id =
      db.entriesOf id ++ if payment.id = id then input.entries else [] :=
  entriesOf_book _ payment .refundRequested input.entries id

/-- A call reads the payment whose entries its caller has built. -/
theorem began_built {s : Store} {label : StoreLabel} {transaction : Transaction}
    (read : Began s.db label transaction) (built : BuiltByCaller s label) :
    transaction.Built s.db := by
  cases read with
  | success input payment found allowed =>
      obtain ⟨row, source, known, entries⟩ := built
      rw [found] at known
      cases known
      obtain ⟨same, positive⟩ := buildEntryFee_entries entries
      refine ⟨allowed, ?_, positive, source, same⟩
      rw [Table.findUnique_key found]
      exact termsOf_found found
  | refund input payment found paid =>
      obtain ⟨row, entries, known, built, opposite⟩ := built
      rw [found] at known
      cases known
      refine ⟨?_, ?_⟩
      · rw [Table.findUnique_key found]
        exact termsOf_found found
      · rw [reverseLedgerEntries_entries opposite, (buildEntryFee_entries built).1]

/-- The payment row behind a transaction has the terms that the transaction has read. -/
theorem termsOf_row {db : Db} (ids : Table.Unique Payment.id db.payments) {p payment : Payment}
    (inside : p ∈ db.payments) (same : p.id = payment.id)
    (terms : db.termsOf payment.id = some payment.terms) :
    p.provider = payment.provider ∧ p.amount = payment.amount := by
  have found : db.findPaymentById payment.id = some p := by
    rw [← same]
    exact ids.find inside
  rw [termsOf_found found] at terms
  have equal : p.terms = payment.terms := Option.some.inj terms
  exact ⟨congrArg PaymentTerms.provider equal, congrArg PaymentTerms.amount equal⟩

/-- The row of a payment whose conditional update has won is the one it expected. -/
theorem won_row {db : Db} (ids : Table.Unique Payment.id db.payments) {p : Payment} {id : Nat}
    {expected : PaymentStatusValue} (inside : p ∈ db.payments) (same : p.id = id)
    (known : db.statusOf id = some expected) : p.status = expected := by
  rw [← same, Db.statusOf, Db.findPaymentById, ids.find inside, Option.map_some] at known
  exact Option.some.inj known

theorem unpaid_booked {p : Payment} (source : PaymentProvider)
    (allowed : canTransitionPayment p.status .paid = true) : p.booked source = [] := by
  unfold Payment.booked
  cases status : p.status <;> rw [status] at allowed <;> first | rfl | cases allowed

theorem TermsKept.known {db after : Db} (kept : TermsKept db after) {id : Nat}
    (known : (db.findPaymentById id).isSome) : (after.findPaymentById id).isSome := by
  obtain ⟨payment, found⟩ := Option.isSome_iff_exists.mp known
  obtain ⟨later, now, _⟩ := termsOf_some (kept _ _ (termsOf_found found))
  rw [now]
  rfl

/-- What is booked belongs to a payment that is there, like every row before it. -/
theorem owned_book {db updated : Db} {payment : Payment} {reason : BookingReason}
    {entries : List LedgerEntryInput}
    (owned : ∀ row ∈ db.ledger, (db.findPaymentById row.paymentId).isSome)
    (ledger : updated.ledger = db.ledger)
    (kept : TermsKept db (updated.book payment reason entries))
    (terms : db.termsOf payment.id = some payment.terms) :
    ∀ row ∈ (updated.book payment reason entries).ledger,
      ((updated.book payment reason entries).findPaymentById row.paymentId).isSome := by
  intro row inside
  rcases List.mem_append.mp inside with old | new
  · rw [ledger] at old
    exact kept.known (owned row old)
  · obtain ⟨e, _, rfl⟩ := List.mem_map.mp new
    obtain ⟨later, now, _⟩ := termsOf_some (kept _ _ terms)
    show (Db.findPaymentById _ payment.id).isSome
    rw [now]
    rfl

theorem Store.Posted.create {s : Store} (posted : s.Posted) {row : Payment}
    (status : row.status = .created) (fresh : s.db.findPaymentById row.id = none) :
    Store.Posted { s with db := { s.db with payments := s.db.payments ++ [row] } } where
  ids := posted.ids.insert row fresh
  payments := by
    intro p inside
    rcases List.mem_append.mp inside with old | new
    · exact ⟨(posted.payments p old).entries, (posted.payments p old).positive⟩
    · rw [List.mem_singleton.mp new]
      refine ⟨⟨.manual, ?_⟩, ?_⟩
      · have unknown : (s.db.ledger.filter fun r => r.paymentId = row.id) = [] := by
          rw [List.filter_eq_nil_iff]
          intro r listed same
          have owned := posted.owned r listed
          rw [of_decide_eq_true same, fresh] at owned
          cases owned
        rw [Payment.booked, status, Db.entriesOf, unknown]
        rfl
      · intro paid
        rw [status] at paid
        rcases paid with impossible | impossible <;> cases impossible
  owned := fun r listed => (create_terms row fresh).known (posted.owned r listed)
  inFlight := fun transaction inside => (posted.inFlight transaction inside).keep
    (create_terms row fresh)

theorem Store.Posted.reference {s : Store} (posted : s.Posted) (paymentId : Nat)
    (providerRef : String) (kept : TermsKept s.db { s.db with
      payments := Table.updateWhere (fun p => p.id = paymentId) (attachReference providerRef)
        s.db.payments }) :
    Store.Posted { s with db := { s.db with
      payments := Table.updateWhere (fun p => p.id = paymentId) (attachReference providerRef)
        s.db.payments } } where
  ids := posted.ids.update _ _ fun _ => rfl
  payments := by
    intro p inside
    obtain ⟨row, listed, rfl⟩ := Table.mem_updateWhere.mp inside
    have before := posted.payments row listed
    split
    · exact ⟨before.entries, before.positive⟩
    · exact ⟨before.entries, before.positive⟩
  owned := fun r listed => kept.known (posted.owned r listed)
  inFlight := fun transaction inside => (posted.inFlight transaction inside).keep kept

theorem Store.Posted.settle {s : Store} (posted : s.Posted) {i : Nat}
    {input : ApplyPaymentSuccessInput} {payment : Payment}
    (here : s.inFlight[i]? = some (.success input payment))
    (counted : 0 < s.db.payments.countP (casCondition payment.id payment.status))
    (kept : TermsKept s.db (s.db.settle input payment)) :
    Store.Posted ⟨s.db.settle input payment, s.inFlight.eraseIdx i⟩ where
  ids := posted.ids.update _ _ fun _ => rfl
  payments := by
    obtain ⟨allowed, terms, positive, source, entries⟩ :=
      posted.inFlight _ (List.mem_of_getElem? here)
    have known := cas_counts posted.ids payment.id payment.status counted
    intro p inside
    obtain ⟨row, listed, rfl⟩ := Table.mem_updateWhere.mp inside
    have before := posted.payments row listed
    by_cases same : row.id = payment.id
    · -- The unpaid row has booked nothing so far.
      have status : row.status = payment.status := won_row posted.ids listed same known
      have amount : row.amount = payment.amount := (termsOf_row posted.ids listed same terms).2
      obtain ⟨other, nothing⟩ := before.entries
      rw [unpaid_booked other (by rw [status]; exact allowed)] at nothing
      have expected : casCondition payment.id payment.status row = true := by
        simp [casCondition, same, status]
      rw [if_pos expected]
      refine ⟨⟨source, ?_⟩, fun _ => ?_⟩
      · show (s.db.settle input payment).entriesOf row.id = entryFee source row.amount
        rw [entriesOf_settle, if_pos same.symm, nothing, entries, amount]
        rfl
      · show 0 < row.amount
        rw [amount]
        exact positive
    · have other : ¬ casCondition payment.id payment.status row = true := by
        simp [casCondition, same]
      rw [if_neg other]
      refine ⟨?_, before.positive⟩
      rw [entriesOf_settle, if_neg (Ne.symm same), List.append_nil]
      exact before.entries
  owned := owned_book posted.owned rfl kept (posted.inFlight _ (List.mem_of_getElem? here)).2.1
  inFlight := fun transaction inside =>
    (posted.inFlight transaction (List.mem_of_mem_eraseIdx inside)).keep kept

theorem Store.Posted.unsettle {s : Store} (posted : s.Posted) {i : Nat}
    {input : ApplyRefundInput} {payment : Payment}
    (here : s.inFlight[i]? = some (.refund input payment))
    (counted : 0 < s.db.payments.countP (casCondition payment.id .paid))
    (kept : TermsKept s.db (s.db.unsettle input payment)) :
    Store.Posted ⟨s.db.unsettle input payment, s.inFlight.eraseIdx i⟩ where
  ids := posted.ids.update _ _ fun _ => rfl
  payments := by
    obtain ⟨terms, entries⟩ := posted.inFlight _ (List.mem_of_getElem? here)
    have known := cas_counts posted.ids payment.id .paid counted
    intro p inside
    obtain ⟨row, listed, rfl⟩ := Table.mem_updateWhere.mp inside
    have before := posted.payments row listed
    by_cases same : row.id = payment.id
    · -- The PAID row has booked its success so far.
      have status : row.status = .paid := won_row posted.ids listed same known
      obtain ⟨provider, amount⟩ := termsOf_row posted.ids listed same terms
      obtain ⟨source, success⟩ := before.entries
      rw [Payment.booked, status] at success
      have expected : casCondition payment.id .paid row = true := by
        simp [casCondition, same, status]
      rw [if_pos expected]
      refine ⟨⟨source, ?_⟩, fun _ => before.positive (.inl status)⟩
      show (s.db.unsettle input payment).entriesOf row.id =
        entryFee source row.amount ++ reversed (entryFee row.provider row.amount)
      rw [entriesOf_unsettle, if_pos same.symm, success, entries, provider, amount]
    · have other : ¬ casCondition payment.id .paid row = true := by
        simp [casCondition, same]
      rw [if_neg other]
      refine ⟨?_, before.positive⟩
      rw [entriesOf_unsettle, if_neg (Ne.symm same), List.append_nil]
      exact before.entries
  owned := owned_book posted.owned rfl kept (posted.inFlight _ (List.mem_of_getElem? here)).1
  inFlight := fun transaction inside =>
    (posted.inFlight transaction (List.mem_of_mem_eraseIdx inside)).keep kept

/-- Every step leaves each payment's ledger as its status says. -/
theorem step_posted {s t : Store} {label : StoreLabel} (posted : s.Posted)
    (built : BuiltByCaller s label) (taken : s.step label = some t) : t.Posted := by
  have kept := step_terms taken
  have erased : ∀ i, Store.Posted { s with inFlight := s.inFlight.eraseIdx i } := fun i =>
    ⟨posted.ids, posted.payments, posted.owned, fun transaction inside =>
      posted.inFlight transaction (List.mem_of_mem_eraseIdx inside)⟩
  cases step_effect s label t taken with
  | idle => exact posted
  | created row status fresh => exact posted.create status fresh
  | referenced paymentId providerRef => exact posted.reference paymentId providerRef kept
  | began _ transaction read =>
      refine ⟨posted.ids, posted.payments, posted.owned, ?_⟩
      intro other inside
      rcases List.mem_append.mp inside with old | new
      · exact posted.inFlight other old
      · rw [List.mem_singleton.mp new]
        exact began_built read built
  | rolledBack i => exact erased i
  | lost i => exact erased i
  | paid i input payment here wins => exact posted.settle here wins.1 kept
  | refunded i input payment here wins => exact posted.unsettle here wins.1 kept

theorem RefundsNetZero.same {db after : Db} (zero : RefundsNetZero db)
    (ledger : after.ledger = db.ledger)
    (statuses : ∀ id, after.statusOf id = some .refunded → db.statusOf id = some .refunded) :
    RefundsNetZero after := by
  intro id known account
  rw [Db.entriesOf, ledger]
  exact zero id (statuses id known) account

/-- A success books nothing for a payment that is REFUNDED. -/
theorem settle_netZero {s : Store} (posted : s.Posted) {input : ApplyPaymentSuccessInput}
    {payment : Payment}
    (counted : 0 < s.db.payments.countP (casCondition payment.id payment.status))
    (zero : RefundsNetZero s.db) : RefundsNetZero (s.db.settle input payment) := by
  have won := commitSuccess_won posted.ids input payment counted
  intro id known account
  rw [won.statuses] at known
  by_cases same : id = payment.id
  · rw [same, won.status, if_pos ⟨rfl, rfl⟩] at known
    cases known
  · rw [if_neg (fun both => same both.1)] at known
    rw [entriesOf_settle, if_neg (Ne.symm same), List.append_nil]
    exact zero id known account

/-- A refund leaves every account at zero exactly when it reverses the success's own entries. -/
theorem unsettle_netZero {s : Store} (posted : s.Posted) {i : Nat} {input : ApplyRefundInput}
    {payment : Payment} (here : s.inFlight[i]? = some (.refund input payment))
    (counted : 0 < s.db.payments.countP (casCondition payment.id .paid))
    (zero : RefundsNetZero s.db) :
    RefundsNetZero (s.db.unsettle input payment) ↔
      ⟨cashAccountForProvider payment.provider, .debit, payment.amount⟩ ∈
        s.db.entriesOf payment.id := by
  have won := commitRefund_won posted.ids input payment counted
  obtain ⟨terms, entries⟩ := posted.inFlight _ (List.mem_of_getElem? here)
  obtain ⟨row, found, _⟩ := termsOf_some terms
  have listed : row ∈ s.db.payments := Table.findUnique_mem found
  have same : row.id = payment.id := Table.findUnique_key found
  have before := posted.payments row listed
  have status : row.status = .paid := won_row posted.ids listed same won.status
  obtain ⟨provider, amount⟩ := termsOf_row posted.ids listed same terms
  have positive : 0 < payment.amount := by
    rw [← amount]
    exact before.positive (.inl status)
  obtain ⟨source, success⟩ := before.entries
  rw [Payment.booked, status, same] at success
  simp only [amount] at success
  have after : (s.db.unsettle input payment).entriesOf payment.id =
      entryFee source payment.amount ++
        reversed (entryFee payment.provider payment.amount) := by
    rw [entriesOf_unsettle, if_pos rfl, success, entries]
  have decides := reversal_nets_zero payment.provider source payment.amount positive
  rw [success, entryFee_own, ← decides, ← after]
  constructor
  · intro nets
    apply nets
    rw [won.statuses, if_pos ⟨rfl, won.status⟩]
  · intro own id known account
    by_cases this : id = payment.id
    · rw [this]
      exact own account
    · rw [won.statuses, if_neg (fun both => this both.1)] at known
      rw [entriesOf_unsettle, if_neg (Ne.symm this), List.append_nil]
      exact zero id known account

/-- A step keeps refunds at zero exactly when a refund that it commits finds its own cash. -/
theorem step_netZero {s t : Store} {label : StoreLabel} (posted : s.Posted)
    (zero : RefundsNetZero s.db) (taken : s.step label = some t) :
    RefundsNetZero t.db ↔ CommitsOwnCash s label.commits := by
  cases step_effect s label t taken with
  | idle _ call =>
      rw [call]
      exact iff_of_true zero trivial
  | created row status fresh =>
      refine iff_of_true (zero.same rfl ?_) trivial
      intro id known
      rw [statusOf_create s.db row fresh id] at known
      by_cases new : row.id = id
      · rw [if_pos new, status] at known
        cases known
      · rw [if_neg new] at known
        exact known
  | referenced paymentId providerRef =>
      refine iff_of_true (zero.same rfl ?_) trivial
      intro id known
      rw [statusOf_checkout s.db paymentId providerRef id] at known
      exact known
  | began _ transaction read =>
      refine iff_of_true zero ?_
      cases read with
      | success => trivial
      | refund => trivial
  | rolledBack i => exact iff_of_true zero trivial
  | lost i transaction here loses =>
      refine iff_of_true zero ?_
      intro other there
      rw [Option.mem_def, here] at there
      cases there
      cases transaction with
      | success => trivial
      | refund => exact fun wins => absurd wins loses
  | paid i input payment here wins =>
      refine iff_of_true (settle_netZero posted wins.1 zero) ?_
      intro other there
      rw [Option.mem_def, here] at there
      cases there
      trivial
  | refunded i input payment here wins =>
      rw [unsettle_netZero posted here wins.1 zero]
      constructor
      · intro own other there
        rw [Option.mem_def, here] at there
        cases there
        exact fun _ => own
      · intro own
        exact own _ here wins

end Steps

/-- Whatever requests, webhooks and provider answers there are, and in whatever order, every
account of each refunded payment is at zero, in every state of a run, exactly when each refund
that goes through in it finds the success on the cash account of the payment's own provider. -/
theorem refunds_net_zero_iff (configured : PaymentProvider → Bool) (s t : Service)
    (labels : List ServiceLabel) (initial : s.Initial)
    (ran : (service configured).run s labels = some t) :
    System.Always (service configured) (fun s => RefundsNetZero s.store.db) s labels ↔
      System.Guarded (fun s label => CommitsOwnCash s.store label.commits) (service configured) s
        labels := by
  apply System.always_iff_guarded (fun s => s.Backed ∧ s.store.Posted)
    (fun s => RefundsNetZero s.store.db) _ _ s t labels ran
  · exact ⟨Service.initial_backed s initial, initial_posted s.store initial.store⟩
  · intro id known
    rw [Db.statusOf, Option.map_eq_some_iff] at known
    obtain ⟨payment, found, status⟩ := known
    exact absurd status (initial.store.unpaid payment (Table.findUnique_mem found)).2
  · intro s label t both taken
    obtain ⟨backed, posted⟩ := both
    obtain ⟨still, move⟩ := Service.step_move configured s label t backed taken
    refine ⟨still, ?_⟩
    rcases move with ⟨same, _⟩ | ⟨move, built, moved, _⟩
    · rw [same]
      exact posted
    · exact step_posted posted built moved
  · intro s label t both zero taken
    obtain ⟨backed, posted⟩ := both
    rcases (Service.step_move configured s label t backed taken).2 with
      ⟨same, call⟩ | ⟨move, _, moved, commits⟩
    · rw [same, call]
      exact iff_of_true zero trivial
    · rw [← commits]
      exact step_netZero posted zero moved

/-- One open invoice and one payment of it through Click. -/
def clickService : Service where
  store := {
    db := {
      invoices := [⟨7, 1, 500, "UZS", .created⟩]
      payments := [⟨1, 7, .click, .created, 500, "UZS", "k", none⟩]
      registrations := []
      ledger := []
      transactionCount := 0 }
    inFlight := [] }
  requests := []

theorem clickService_initial : clickService.Initial :=
  ⟨⟨by decide, by decide, rfl, rfl⟩, by decide, by decide, rfl⟩

/-- A provider reports the payment by its id, and the payment is refunded. -/
def reportedBy (provider : PaymentProvider) : List ServiceLabel :=
  [.webhook provider ⟨"t", some 1, .paid, 500, "UZS"⟩, .applySuccess 0, .commit 0, .refund 1,
    .applyRefund 0 true, .commit 0]

theorem reportedByClick_zero : System.Always (service fun _ => true)
    (fun s => RefundsNetZero s.store.db) clickService (reportedBy .click) := by
  have ran : ((service fun _ => true).run clickService (reportedBy .click)).isSome = true := by
    decide +kernel
  obtain ⟨t, ended⟩ := Option.isSome_iff_exists.mp ran
  exact (refunds_net_zero_iff (fun _ => true) clickService t (reportedBy .click)
    clickService_initial ended).mpr (by decide +kernel)

/-- Reported by Payme, the refund leaves Payme's cash too high and Click's too low. -/
theorem reportedByPayme_not_zero :
    ∃ s, (service fun _ => true).Reachable s ∧ s.store.db.statusOf 1 = some .refunded ∧
      accountBalance (s.store.db.entriesOf 1) .cashPayme = 500 ∧
      accountBalance (s.store.db.entriesOf 1) .cashClick = -500 ∧
      ¬ RefundsNetZero s.store.db := by
  have ran : ((service fun _ => true).run clickService (reportedBy .payme)).map
      (fun s => (s.store.db.statusOf 1, accountBalance (s.store.db.entriesOf 1) .cashPayme,
        accountBalance (s.store.db.entriesOf 1) .cashClick)) =
      some (some .refunded, 500, -500) := by
    decide +kernel
  obtain ⟨s, ended, facts⟩ := Option.map_eq_some_iff.mp ran
  simp only [Prod.mk.injEq] at facts
  obtain ⟨status, payme, click⟩ := facts
  refine ⟨s, System.run_reachable _ _ _ clickService_initial ended, status, payme, click, ?_⟩
  intro zero
  rw [zero 1 status .cashPayme] at payme
  cases payme

end Farzin.Billing
