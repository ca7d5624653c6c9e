import Mathlib.Algebra.BigOperators.Group.List.Basic
import Mathlib.Algebra.Order.Ring.Int

set_option autoImplicit false

/- The pure double-entry ledger (`core/billing/ledger.ts`). Amounts are tiyin, kept as
unbounded integers in the source too. -/
namespace Farzin.Billing

inductive LedgerAccountCode where
  | cashClick
  | cashPayme
  | cashUzum
  | cashBankTransfer
  | cashManual
  | revenueEntryFee
  | revenueSubscription
  | revenueCommission
  | liabilityOrganizerPayable
  | liabilityTaxPayable
  | expenseProviderFee
  deriving DecidableEq, Repr

def LedgerAccountCode.code : LedgerAccountCode → String
  | .cashClick => "cash.click"
  | .cashPayme => "cash.payme"
  | .cashUzum => "cash.uzum"
  | .cashBankTransfer => "cash.bank_transfer"
  | .cashManual => "cash.manual"
  | .revenueEntryFee => "revenue.entry_fee"
  | .revenueSubscription => "revenue.subscription"
  | .revenueCommission => "revenue.commission"
  | .liabilityOrganizerPayable => "liability.organizer_payable"
  | .liabilityTaxPayable => "liability.tax_payable"
  | .expenseProviderFee => "expense.provider_fee"

inductive LedgerEntryDirection where
  | debit
  | credit
  deriving DecidableEq, Repr

inductive PaymentProvider where
  | click
  | payme
  | uzum
  | bankTransfer
  | manual
  deriving DecidableEq, Repr

structure LedgerEntryInput where
  account : LedgerAccountCode
  direction : LedgerEntryDirection
  amountTiyin : Int
  deriving DecidableEq, Repr

structure LedgerImbalanceError where
  message : String
  debitTotalTiyin : Int
  creditTotalTiyin : Int
  deriving DecidableEq, Repr

def sumByDirection (entries : List LedgerEntryInput) (direction : LedgerEntryDirection) : Int :=
  (entries.map fun e => if e.direction = direction then e.amountTiyin else 0).sum

def imbalance (message : String) (entries : List LedgerEntryInput) : LedgerImbalanceError :=
  ⟨message, sumByDirection entries .debit, sumByDirection entries .credit⟩

/-- The source also rejects an account outside the chart; the type of accounts has none. -/
def buildLedgerTransaction (entries : List LedgerEntryInput) :
    Except LedgerImbalanceError (List LedgerEntryInput) :=
  if entries.length < 2 then
    .error (imbalance
      s!"Ledger tranzaksiyasi kamida 2 yozuv talab qiladi, berildi: {entries.length}" entries)
  else
    match entries.find? fun e => decide (e.amountTiyin ≤ 0) with
    | some e => .error (imbalance
        s!"Ledger yozuvi miqdori musbat bo'lishi shart: {e.account.code} = {e.amountTiyin}" entries)
    | none =>
        if sumByDirection entries .debit = sumByDirection entries .credit then .ok entries
        else .error (imbalance "Balanslanmagan ledger tranzaksiyasi" entries)

def LedgerEntryDirection.reverse : LedgerEntryDirection → LedgerEntryDirection
  | .debit => .credit
  | .credit => .debit

def reverseLedgerEntries (entries : List LedgerEntryInput) :
    Except LedgerImbalanceError (List LedgerEntryInput) :=
  buildLedgerTransaction (entries.map fun e => { e with direction := e.direction.reverse })

def cashAccountForProvider : PaymentProvider → LedgerAccountCode
  | .click => .cashClick
  | .payme => .cashPayme
  | .uzum => .cashUzum
  | .bankTransfer => .cashBankTransfer
  | .manual => .cashManual

def buildEntryFeePaymentEntries (provider : PaymentProvider) (amountTiyin : Int) :
    Except LedgerImbalanceError (List LedgerEntryInput) :=
  buildLedgerTransaction
    [⟨cashAccountForProvider provider, .debit, amountTiyin⟩,
      ⟨.liabilityOrganizerPayable, .credit, amountTiyin⟩]

/-- What every recorded transaction must satisfy. -/
structure Balanced (entries : List LedgerEntryInput) : Prop where
  atLeastTwo : 2 ≤ entries.length
  positive : ∀ e ∈ entries, 0 < e.amountTiyin
  equal : sumByDirection entries .debit = sumByDirection entries .credit

/-- The builder is exactly a check: it returns its argument or fails. -/
theorem buildLedgerTransaction_ok (entries built : List LedgerEntryInput) :
    buildLedgerTransaction entries = .ok built ↔ built = entries ∧ Balanced entries := by
  unfold buildLedgerTransaction
  by_cases short : entries.length < 2
  · rw [if_pos short]
    constructor
    · intro impossible
      cases impossible
    · intro ⟨_, balanced⟩
      exact absurd balanced.atLeastTwo (by omega)
  · rw [if_neg short]
    cases found : entries.find? fun e => decide (e.amountTiyin ≤ 0) with
    | some e =>
        have nonpositive : e.amountTiyin ≤ 0 := by simpa using List.find?_some found
        constructor
        · intro impossible
          cases impossible
        · intro ⟨_, balanced⟩
          have positive := balanced.positive e (List.mem_of_find?_eq_some found)
          omega
    | none =>
        rw [List.find?_eq_none] at found
        have positive : ∀ e ∈ entries, 0 < e.amountTiyin := by
          intro e inside
          have := found e inside
          simp only [decide_eq_true_eq] at this
          omega
        by_cases equal : sumByDirection entries .debit = sumByDirection entries .credit
        · simp only [equal, if_true, Except.ok.injEq]
          exact ⟨fun same => ⟨same.symm, by omega, positive, equal⟩, fun both => both.1.symm⟩
        · simp only [equal, if_false, reduceCtorEq, false_iff]
          exact fun both => equal both.2.equal

theorem reverse_direction_iff (direction other : LedgerEntryDirection) :
    direction.reverse = other ↔ direction = other.reverse := by
  cases direction <;> cases other <;> decide

/-- Reversing swaps the two totals. -/
theorem sumByDirection_reverse (entries : List LedgerEntryInput)
    (direction : LedgerEntryDirection) :
    sumByDirection (entries.map fun e => { e with direction := e.direction.reverse }) direction =
      sumByDirection entries direction.reverse := by
  simp only [sumByDirection, List.map_map, Function.comp_def, reverse_direction_iff]

theorem Balanced.reverse {entries : List LedgerEntryInput} (balanced : Balanced entries) :
    Balanced (entries.map fun e => { e with direction := e.direction.reverse }) := by
  refine ⟨?_, ?_, ?_⟩
  · rw [List.length_map]
    exact balanced.atLeastTwo
  · intro e inside
    rw [List.mem_map] at inside
    obtain ⟨original, member, rfl⟩ := inside
    exact balanced.positive original member
  · rw [sumByDirection_reverse, sumByDirection_reverse]
    exact balanced.equal.symm

/-- A positive amount always yields entries, and they reverse without failing. -/
theorem buildEntryFeePaymentEntries_ok (provider : PaymentProvider) (amountTiyin : Int)
    (positive : 0 < amountTiyin) :
    ∃ entries, buildEntryFeePaymentEntries provider amountTiyin = .ok entries ∧
      Balanced entries := by
  have balanced : Balanced [⟨cashAccountForProvider provider, .debit, amountTiyin⟩,
      ⟨.liabilityOrganizerPayable, .credit, amountTiyin⟩] := by
    refine ⟨Nat.le_refl 2, ?_, by simp [sumByDirection]⟩
    intro e inside
    simp only [List.mem_cons, List.not_mem_nil, or_false] at inside
    rcases inside with rfl | rfl <;> exact positive
  exact ⟨_, (buildLedgerTransaction_ok _ _).mpr ⟨rfl, balanced⟩, balanced⟩

theorem buildEntryFeePaymentEntries_balanced {provider : PaymentProvider} {amountTiyin : Int}
    {entries : List LedgerEntryInput}
    (built : buildEntryFeePaymentEntries provider amountTiyin = .ok entries) :
    Balanced entries := by
  obtain ⟨rfl, balanced⟩ := (buildLedgerTransaction_ok _ _).mp built
  exact balanced

theorem reverseLedgerEntries_balanced {entries reversed : List LedgerEntryInput}
    (built : reverseLedgerEntries entries = .ok reversed) : Balanced reversed := by
  obtain ⟨rfl, balanced⟩ := (buildLedgerTransaction_ok _ _).mp built
  exact balanced

end Farzin.Billing
