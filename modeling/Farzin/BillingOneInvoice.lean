import Farzin.BillingInvoices
import Farzin.BillingRegistrations

set_option autoImplicit false

/- One live invoice per registration. The check for a live invoice and the insert are separate
awaits, and a registration refers to one invoice only. -/
namespace Farzin.Billing

open Interleaving Transition

/-- The invoice is CREATED, PENDING or PAID. -/
def Db.Live (db : Db) (invoiceId : Nat) : Prop :=
  ∃ invoice ∈ db.invoices, invoice.id = invoiceId ∧ invoice.status.isLive = true

def Db.Paid (db : Db) (invoiceId : Nat) : Prop :=
  ∃ invoice ∈ db.invoices, invoice.id = invoiceId ∧ invoice.status = .paid

def Db.Confirmed (db : Db) (registrationId : Nat) : Prop :=
  ∃ registration ∈ db.registrations, registration.id = registrationId ∧
    registration.isConfirmed = true

instance (db : Db) (invoiceId : Nat) : Decidable (db.Live invoiceId) := by
  unfold Db.Live
  infer_instance

instance (db : Db) (invoiceId : Nat) : Decidable (db.Paid invoiceId) := by
  unfold Db.Paid
  infer_instance

instance (db : Db) (registrationId : Nat) : Decidable (db.Confirmed registrationId) := by
  unfold Db.Confirmed
  infer_instance

/-- At most one invoice created for a registration is live, and one that is PAID has its
registration confirmed. -/
structure Desk.OneLive (s : Desk) : Prop where
  alone : ∀ one ∈ s.created, ∀ other ∈ s.created, one.registrationId = other.registrationId →
    s.db.Live one.invoiceId → s.db.Live other.invoiceId → one.invoiceId = other.invoiceId
  confirmed : ∀ one ∈ s.created, s.db.Paid one.invoiceId → s.db.Confirmed one.registrationId

/-- The registration for which the call is about to insert an invoice. -/
def Desk.insertsFor (s : Desk) : DeskCall → Option Nat
  | .insertInvoice input invoiceId _ number =>
      if s.numberTaken number = false ∧ s.db.findInvoiceById invoiceId = none ∧
          (s.findRegistration input.registrationId).isSome then
        some input.registrationId
      else none
  | _ => none

/-- An invoice is inserted only while none that was created for its registration is live. -/
def InsertsAlone (s : Desk) (call : DeskCall) : Prop :=
  ∀ registrationId ∈ s.insertsFor call, ∀ one ∈ s.created,
    one.registrationId = registrationId → ¬ s.db.Live one.invoiceId

instance (s : Desk) (call : DeskCall) : Decidable (InsertsAlone s call) := by
  unfold InsertsAlone
  infer_instance

/-- How invoices, the rows that say what they were created for, and registrations fit. Nothing
but a payment changes the status of an invoice. -/
structure Desk.Sound (s : Desk) : Prop where
  invoiceIds : Table.Unique Invoice.id s.db.invoices
  registrationIds : Table.Unique Registration.id s.db.registrations
  recorded : s.created.map InvoiceCreated.invoiceId = s.db.invoices.map Invoice.id
  statuses : ∀ invoice ∈ s.db.invoices, invoice.status = .created ∨ invoice.status = .paid
  placed : ∀ one ∈ s.created, ∃ registration ∈ s.db.registrations,
    registration.id = one.registrationId ∧ registration.invoiceId.isSome
  referred : ∀ registration ∈ s.db.registrations, ∀ invoiceId ∈ registration.invoiceId,
    ∃ one ∈ s.created, one.invoiceId = invoiceId ∧ one.registrationId = registration.id

/-- What one await of a call does to the tables. -/
inductive DeskEffect (s : Desk) (call : DeskCall) : Desk → Prop where
  | idle (none : s.insertsFor call = none) : DeskEffect s call s
  | payments (rows : List Payment) (none : s.insertsFor call = none) :
      DeskEffect s call { s with db := { s.db with payments := rows } }
  | inserted (input : CreateInvoiceInput) (invoiceId : Nat) (number : InvoiceNumber)
      (fresh : s.db.findInvoiceById invoiceId = none)
      (known : (s.findRegistration input.registrationId).isSome)
      (inserts : s.insertsFor call = some input.registrationId) :
      DeskEffect s call (s.withInvoice input number invoiceId)
  | settled (input : ApplyPaymentSuccessInput) (payment : Payment)
      (none : s.insertsFor call = none) :
      DeskEffect s call { s with db := s.db.settle input payment }

section Effects

variable {surroundings : Surroundings} {s : Desk}

theorem insertInvoice_effect (input : CreateInvoiceInput) (invoiceId attempt : Nat)
    (number : InvoiceNumber) :
    DeskEffect s (.insertInvoice input invoiceId attempt number)
      (s.advance surroundings (.insertInvoice input invoiceId attempt number)).1 := by
  rw [Desk.advance, Desk.insertInvoice]
  by_cases taken : s.numberTaken number ∨ (s.db.findInvoiceById invoiceId).isSome
  · rw [if_pos taken]
    have refused : s.insertsFor (.insertInvoice input invoiceId attempt number) = none := by
      rw [Desk.insertsFor, if_neg]
      rintro ⟨free, fresh, _⟩
      simp [free, fresh] at taken
    dsimp only
    split
    · exact .idle refused
    · exact .idle refused
  · rw [if_neg taken]
    push Not at taken
    have fresh : s.db.findInvoiceById invoiceId = none := Option.not_isSome_iff_eq_none.mp taken.2
    by_cases missing : (s.findRegistration input.registrationId).isNone
    · rw [if_pos missing]
      apply DeskEffect.idle
      rw [Desk.insertsFor, if_neg]
      rintro ⟨_, _, known⟩
      rw [Option.isNone_iff_eq_none.mp missing] at known
      cases known
    · rw [if_neg missing]
      have known : (s.findRegistration input.registrationId).isSome := by
        simpa [Option.isSome_iff_ne_none] using missing
      apply DeskEffect.inserted input invoiceId number fresh known
      rw [Desk.insertsFor, if_pos]
      exact ⟨Bool.eq_false_iff.mpr taken.1, fresh, known⟩

theorem commitSuccess_effect (input : ApplyPaymentSuccessInput) (payment : Payment) :
    DeskEffect s (.commitSuccess input payment)
      (s.advance surroundings (.commitSuccess input payment)).1 := by
  rw [Desk.advance]
  rcases commit_cases s.db (.success input payment) with ⟨_, won⟩ | ⟨_, same | ⟨error, failed⟩⟩
  · change Billing.commitSuccess s.db input payment = .ok (s.db.settle input payment, true) at won
    rw [won]
    exact .settled input payment rfl
  · change Billing.commitSuccess s.db input payment = .ok (s.db, false) at same
    rw [same]
    exact .idle rfl
  · change Billing.commitSuccess s.db input payment = .error error at failed
    rw [failed]
    exact .idle rfl

theorem advance_effect (call : DeskCall) :
    DeskEffect s call (s.advance surroundings call).1 := by
  cases call with
  | createInvoice | readNumber => exact .idle rfl
  | insertInvoice input invoiceId attempt number =>
      exact insertInvoice_effect input invoiceId attempt number
  | commitSuccess input payment => exact commitSuccess_effect input payment
  | insertPayment invoice paymentId provider key =>
      rw [Desk.advance]
      split
      · rename_i db payment inserted
        rcases createPaymentIdempotent_ok inserted with ⟨no, _⟩ | ⟨_, _, _, _, rfl⟩
        · cases no
        · exact .payments _ rfl
      · exact .idle rfl
  | saveCheckout paymentId provider =>
      rw [Desk.advance]
      split
      · rename_i db saved
        rw [setProviderCheckout_ok saved]
        exact .payments _ rfl
      · exact .idle rfl
  | initiatePayment | checkKey =>
      rw [Desk.advance]
      split
      · exact .idle rfl
      · split <;> exact .idle rfl
  | findExisting | confirmManual | webhook | beginSuccess =>
      rw [Desk.advance]
      split <;> exact .idle rfl

end Effects

section Invariant

variable {s t : Desk}

theorem Desk.Sound.created_live (sound : s.Sound) {one : InvoiceCreated}
    (listed : one ∈ s.created) : s.db.Live one.invoiceId := by
  have named : one.invoiceId ∈ s.db.invoices.map Invoice.id := by
    rw [← sound.recorded]
    exact List.mem_map_of_mem listed
  obtain ⟨invoice, inside, id⟩ := List.mem_map.mp named
  refine ⟨invoice, inside, id, ?_⟩
  rcases sound.statuses invoice inside with status | status
  · simp [status, PaymentStatusValue.isLive]
  · simp [status, PaymentStatusValue.isLive]

/-- The registration of an invoice refers to it while no other was created for it. -/
theorem refers (sound : s.Sound) (holds : s.OneLive) {one : InvoiceCreated}
    (listed : one ∈ s.created) : ∃ registration ∈ s.db.registrations,
      registration.id = one.registrationId ∧ registration.invoiceId = some one.invoiceId := by
  obtain ⟨registration, inside, id, some⟩ := sound.placed one listed
  obtain ⟨invoiceId, refers⟩ := Option.isSome_iff_exists.mp some
  obtain ⟨other, created, rfl, same⟩ := sound.referred registration inside invoiceId refers
  have equal := holds.alone one listed other created (by rw [same, id])
    (sound.created_live listed) (sound.created_live created)
  exact ⟨registration, inside, id, by rw [refers, equal]⟩

section Settle

variable (input : ApplyPaymentSuccessInput) (payment : Payment)

/-- A confirmation keeps the registrations, with the invoices they refer to. -/
theorem confirm_mem (db : Db) {before : Registration} (inside : before ∈ db.registrations) :
    ∃ registration ∈ (db.settle input payment).registrations,
      registration.id = before.id ∧ registration.invoiceId = before.invoiceId ∧
        registration.isConfirmed =
          (before.isConfirmed || decide (before.invoiceId = some payment.invoiceId)) := by
  refine ⟨_, Table.mem_updateWhere.mpr ⟨before, inside, rfl⟩, ?_⟩
  by_cases refers : before.invoiceId = some payment.invoiceId
  · simp [refers]
  · simp [refers]

theorem mem_confirm {db : Db} {registration : Registration}
    (inside : registration ∈ (db.settle input payment).registrations) :
    ∃ before ∈ db.registrations, registration.id = before.id ∧
      registration.invoiceId = before.invoiceId := by
  obtain ⟨before, member, rfl⟩ := Table.mem_updateWhere.mp inside
  refine ⟨before, member, ?_⟩
  by_cases refers : before.invoiceId = some payment.invoiceId
  · simp [refers]
  · simp [refers]

theorem settle_sound (sound : s.Sound) :
    Desk.Sound { s with db := s.db.settle input payment } where
  invoiceIds := sound.invoiceIds.update _ _ fun _ => rfl
  registrationIds := sound.registrationIds.update _ _ fun _ => rfl
  recorded := by
    have keys : (s.db.settle input payment).invoices.map Invoice.id =
        s.db.invoices.map Invoice.id := Table.rewrite_keys _ _ _ fun _ _ => rfl
    rw [keys]
    exact sound.recorded
  statuses := by
    intro invoice inside
    obtain ⟨before, member, _, status⟩ := mem_setInvoiceStatus inside
    rw [status]
    split
    · exact .inr rfl
    · exact sound.statuses before member
  placed := by
    intro one listed
    obtain ⟨before, member, id, some⟩ := sound.placed one listed
    obtain ⟨registration, inside, same, invoice, _⟩ := confirm_mem input payment s.db member
    exact ⟨registration, inside, by rw [same, id], by rw [invoice]; exact some⟩
  referred := by
    intro registration inside invoiceId refers
    obtain ⟨before, member, id, invoice⟩ := mem_confirm input payment inside
    rw [invoice] at refers
    rw [id]
    exact sound.referred before member invoiceId refers

/-- A success confirms the registration of its invoice, since that refers to it. -/
theorem settle_oneLive (sound : s.Sound) (holds : s.OneLive) :
    Desk.OneLive { s with db := s.db.settle input payment } where
  alone one listed other created same _ _ :=
    holds.alone one listed other created same (sound.created_live listed)
      (sound.created_live created)
  confirmed := by
    intro one listed paid
    obtain ⟨invoice, inside, id, status⟩ := paid
    obtain ⟨before, member, named, now⟩ := mem_setInvoiceStatus inside
    by_cases own : one.invoiceId = payment.invoiceId
    · obtain ⟨row, present, registered, refers⟩ := refers sound holds listed
      obtain ⟨registration, there, same, _, confirmed⟩ := confirm_mem input payment s.db present
      refine ⟨registration, there, by rw [same, registered], ?_⟩
      rw [confirmed, refers, own]
      simp
    · rw [if_neg (by rw [← named, id]; exact own)] at now
      have paidBefore : s.db.Paid one.invoiceId :=
        ⟨before, member, by rw [← named, id], by rw [← now, status]⟩
      obtain ⟨row, present, registered, already⟩ := holds.confirmed one listed paidBefore
      obtain ⟨registration, there, same, _, confirmed⟩ := confirm_mem input payment s.db present
      refine ⟨registration, there, by rw [same, registered], ?_⟩
      rw [confirmed, already]
      rfl

end Settle

section Insert

variable (input : CreateInvoiceInput) (number : InvoiceNumber) (invoiceId : Nat)

theorem refer_mem {before : Registration} (inside : before ∈ s.db.registrations) :
    ∃ registration ∈ (s.withInvoice input number invoiceId).db.registrations,
      registration.id = before.id ∧ registration.isConfirmed = before.isConfirmed ∧
        registration.invoiceId =
          if before.id = input.registrationId then some invoiceId else before.invoiceId := by
  refine ⟨_, Table.mem_updateWhere.mpr ⟨before, inside, rfl⟩, ?_⟩
  by_cases own : before.id = input.registrationId
  · simp [own, Desk.referTo]
  · simp [own]

theorem mem_refer {registration : Registration}
    (inside : registration ∈ (s.withInvoice input number invoiceId).db.registrations) :
    ∃ before ∈ s.db.registrations, registration.id = before.id ∧
      registration.invoiceId =
        if before.id = input.registrationId then some invoiceId else before.invoiceId := by
  obtain ⟨before, member, rfl⟩ := Table.mem_updateWhere.mp inside
  refine ⟨before, member, ?_⟩
  by_cases own : before.id = input.registrationId
  · simp [own, Desk.referTo]
  · simp [own]

theorem insert_sound (sound : s.Sound) (fresh : s.db.findInvoiceById invoiceId = none)
    (known : (s.findRegistration input.registrationId).isSome) :
    (s.withInvoice input number invoiceId).Sound where
  invoiceIds := sound.invoiceIds.insert _ fresh
  registrationIds := sound.registrationIds.update _ _ fun _ => rfl
  recorded := by
    simp only [Desk.withInvoice, List.map_append, sound.recorded, List.map_cons, List.map_nil]
  statuses := by
    intro invoice inside
    rcases List.mem_append.mp inside with old | new
    · exact sound.statuses invoice old
    · rw [List.mem_singleton.mp new]
      exact .inl rfl
  placed := by
    intro one listed
    rcases List.mem_append.mp listed with old | new
    · obtain ⟨before, member, id, some⟩ := sound.placed one old
      obtain ⟨registration, inside, same, _, refers⟩ := refer_mem input number invoiceId member
      refine ⟨registration, inside, by rw [same, id], ?_⟩
      rw [refers]
      split
      · rfl
      · exact some
    · obtain ⟨before, found⟩ := Option.isSome_iff_exists.mp known
      have id : before.id = input.registrationId := Table.findUnique_key found
      obtain ⟨registration, inside, same, _, refers⟩ :=
        refer_mem input number invoiceId (Table.findUnique_mem found)
      rw [List.mem_singleton.mp new]
      refine ⟨registration, inside, by rw [same, id], ?_⟩
      rw [refers, if_pos id]
      rfl
  referred := by
    intro registration inside referred refers
    obtain ⟨before, member, id, invoice⟩ := mem_refer input number invoiceId inside
    rw [invoice] at refers
    split at refers
    · rename_i own
      cases refers
      exact ⟨_, List.mem_append_right _ (List.mem_singleton_self _), rfl, by rw [id, own]⟩
    · obtain ⟨one, listed, same, placed⟩ := sound.referred before member referred refers
      exact ⟨one, List.mem_append_left _ listed, same, by rw [placed, id]⟩

/-- What an insert finds decides whether its registration still has one live invoice. -/
theorem insert_oneLive (sound : s.Sound) (holds : s.OneLive)
    (fresh : s.db.findInvoiceById invoiceId = none)
    (known : (s.findRegistration input.registrationId).isSome) :
    (s.withInvoice input number invoiceId).OneLive ↔
      ∀ one ∈ s.created, one.registrationId = input.registrationId →
        ¬ s.db.Live one.invoiceId := by
  have after := insert_sound input number invoiceId sound fresh known
  have absent : ∀ invoice ∈ s.db.invoices, invoice.id ≠ invoiceId :=
    Table.findUnique_eq_none.mp fresh
  constructor
  · intro holds one own same live
    obtain ⟨invoice, member, id, _⟩ := live
    have equal := holds.alone one (List.mem_append_left _ own) _
      (List.mem_append_right _ (List.mem_singleton_self _)) same
      (after.created_live (List.mem_append_left _ own))
      (after.created_live (List.mem_append_right _ (List.mem_singleton_self _)))
    exact absent invoice member (by rw [id, equal])
  · intro none
    refine ⟨?_, ?_⟩
    · intro one listed other created same _ _
      rcases List.mem_append.mp listed with old | new
      · rcases List.mem_append.mp created with oldOther | newOther
        · exact holds.alone one old other oldOther same (sound.created_live old)
            (sound.created_live oldOther)
        · rw [List.mem_singleton.mp newOther] at same
          exact absurd (sound.created_live old) (none one old same)
      · rcases List.mem_append.mp created with oldOther | newOther
        · rw [List.mem_singleton.mp new] at same
          exact absurd (sound.created_live oldOther) (none other oldOther same.symm)
        · rw [List.mem_singleton.mp new, List.mem_singleton.mp newOther]
    · intro one listed paid
      obtain ⟨invoice, inside, id, status⟩ := paid
      rcases List.mem_append.mp inside with before | inserted
      · rcases List.mem_append.mp listed with old | new
        · obtain ⟨row, present, registered, already⟩ :=
            holds.confirmed one old ⟨invoice, before, id, status⟩
          obtain ⟨registration, there, same, confirmed, _⟩ :=
            refer_mem input number invoiceId present
          exact ⟨registration, there, by rw [same, registered], by rw [confirmed, already]⟩
        · rw [List.mem_singleton.mp new] at id
          exact absurd id (absent invoice before)
      · rw [List.mem_singleton.mp inserted] at status
        cases status

end Insert

theorem effect_sound {call : DeskCall} (sound : s.Sound) (effect : DeskEffect s call t) :
    t.Sound := by
  cases effect with
  | idle => exact sound
  | payments => exact ⟨sound.1, sound.2, sound.3, sound.4, sound.5, sound.6⟩
  | inserted input invoiceId number fresh known =>
      exact insert_sound input number invoiceId sound fresh known
  | settled input payment => exact settle_sound input payment sound

theorem effect_oneLive {call : DeskCall} (sound : s.Sound) (holds : s.OneLive)
    (effect : DeskEffect s call t) : t.OneLive ↔ InsertsAlone s call := by
  cases effect with
  | idle none => simp [InsertsAlone, none, holds]
  | payments rows none =>
      have kept : Desk.OneLive { s with db := { s.db with payments := rows } } :=
        ⟨holds.alone, holds.confirmed⟩
      simp [InsertsAlone, none, kept]
  | inserted input invoiceId number fresh known inserts =>
      rw [insert_oneLive input number invoiceId sound holds fresh known]
      simp [InsertsAlone, inserts]
  | settled input payment none =>
      have kept := settle_oneLive input payment sound holds
      simp [InsertsAlone, none, kept]

theorem register_kept {id : Nat} {terms : RegistrationTerms} (fresh : s.findRegistration id = none)
    (sound : s.Sound) : (s.register id terms).Sound ∧ (s.OneLive → (s.register id terms).OneLive) := by
  refine ⟨⟨sound.invoiceIds, sound.registrationIds.insert _ fresh, sound.recorded, sound.statuses,
    ?_, ?_⟩, fun holds => ⟨holds.alone, ?_⟩⟩
  · intro one listed
    obtain ⟨registration, inside, placed⟩ := sound.placed one listed
    exact ⟨registration, List.mem_append_left _ inside, placed⟩
  · intro registration inside invoiceId refers
    rcases List.mem_append.mp inside with old | new
    · exact sound.referred registration old invoiceId refers
    · rw [List.mem_singleton.mp new] at refers
      cases refers
  · intro one listed paid
    obtain ⟨registration, inside, confirmed⟩ := holds.confirmed one listed paid
    exact ⟨registration, List.mem_append_left _ inside, confirmed⟩

theorem event_kept {event : DeskEvent} (sound : s.Sound) (happened : s.event event = some t) :
    t.Sound ∧ (s.OneLive → t.OneLive) := by
  cases event with
  | register id terms =>
      rw [Desk.event] at happened
      split at happened
      · cases happened
      · rename_i free
        cases happened
        exact register_kept (Option.not_isSome_iff_eq_none.mp free) sound
  | change id terms =>
      cases happened
      exact ⟨⟨sound.1, sound.2, sound.3, sound.4, sound.5, sound.6⟩,
        fun holds => ⟨holds.alone, holds.confirmed⟩⟩
  | newYear year =>
      cases happened
      exact ⟨⟨sound.1, sound.2, sound.3, sound.4, sound.5, sound.6⟩,
        fun holds => ⟨holds.alone, holds.confirmed⟩⟩

theorem Desk.Initial.sound (initial : s.Initial) : s.Sound := by
  constructor
  · rw [initial.invoices]
    exact List.nodup_nil
  · rw [initial.registrations]
    exact List.nodup_nil
  · rw [initial.created, initial.invoices]
    rfl
  · simp [initial.invoices]
  · simp [initial.created]
  · simp [initial.registrations]

theorem Desk.Initial.oneLive (initial : s.Initial) : s.OneLive := by
  constructor
  · simp [initial.created]
  · simp [initial.created]

end Invariant

theorem registrationDesk_outline (surroundings : Surroundings) :
    Outline (registrationDesk surroundings) (fun _ _ => True) Desk.Sound (fun _ _ => True) where
  starts _ initial := initial.sound
  enters _ _ _ _ := trivial
  acts _ call sound _ _ := effect_sound sound (advance_effect call)
  continues _ _ _ _ _ _ _ := trivial
  stable _ _ _ _ _ _ _ := trivial
  events _ _ _ sound happened := ⟨(event_kept sound happened).1, fun _ _ => trivial⟩

/-- In a run from an empty database, every registration has at most one live invoice in every
state, and is confirmed when it is PAID, if and only if no invoice is inserted while one that was
created for its registration is live. -/
theorem one_live_invoice_iff (surroundings : Surroundings) (s t : Pool Desk DeskCall)
    (labels : List (Interleaving.Label DeskCall DeskEvent))
    (initial : (registrationDesk surroundings).system.initial s)
    (ran : (registrationDesk surroundings).system.run s labels = some t) :
    (registrationDesk surroundings).system.Always (fun pool => pool.shared.OneLive) s labels ↔
      System.Guarded (Advancing InsertsAlone) (registrationDesk surroundings).system s labels := by
  refine (registrationDesk_outline surroundings).always_iff Desk.OneLive ?_ ?_ ?_ initial ran
  · intro s initial
    exact initial.oneLive
  · intro s call sound _ holds
    exact effect_oneLive sound holds (advance_effect call)
  · intro s event t sound holds happened
    exact (event_kept sound happened).2 holds

section Runs

/-- Every user may invoice and pay, in cash. -/
def cashDesk : Surroundings where
  mayInvoice _ _ := true
  mayPay _ := true
  configured p := p = .manual
  providerRef _ _ := "MANUAL-1"

def emptyDesk : Desk where
  db := ⟨[], [], [], [], 0⟩
  terms _ := none
  created := []
  year := 2026

theorem emptyDesk_initial : (registrationDesk cashDesk).system.initial ⟨emptyDesk, []⟩ :=
  ⟨⟨rfl, rfl, rfl, rfl⟩, rfl⟩

def someTerms : RegistrationTerms where
  playerId := 4
  isWithdrawn := false
  tournamentId := 9
  entryFeeAmount := some 5000000
  entryFeeCurrency := "UZS"
  clubId := none
  regionId := none
  federationId := none

/-- Two requests read the registration before either of them inserts its invoice; the second
draws its number again. -/
def twoInvoices : List (Interleaving.Label DeskCall DeskEvent) :=
  [.event (.register 3 someTerms), .arrive (.createInvoice 1 3 7), .arrive (.createInvoice 2 3 8),
    .advance 0, .advance 0, .advance 0, .advance 0, .advance 0, .advance 0, .advance 0, .advance 0]

/-- The invoice is paid in cash, and the payment confirmed. -/
def payInCash (invoiceId paymentId : Nat) (key : String) :
    List (Interleaving.Label DeskCall DeskEvent) :=
  [.arrive (.initiatePayment invoiceId paymentId .manual key), .advance 0, .advance 0, .advance 0,
    .advance 0, .arrive (.confirmManual paymentId), .advance 0, .advance 0, .advance 0]

/-- The first of two invoices is paid, and its registration refers to the second. -/
theorem paid_without_confirmation :
    ∃ pool, (registrationDesk cashDesk).system.run ⟨emptyDesk, []⟩
        (twoInvoices ++ payInCash 7 50 "first") = some pool ∧
      pool.shared.db.Live 7 ∧ pool.shared.db.Live 8 ∧ pool.shared.db.Paid 7 ∧
        ¬ pool.shared.db.Confirmed 3 ∧ ¬ pool.shared.OneLive := by
  refine ⟨_, rfl, by decide, by decide, by decide, by decide, fun one => ?_⟩
  have same := one.alone _ (.head _) _ (.tail _ (.head _)) rfl (by decide) (by decide)
  cases same

/-- The second request comes when the first has its invoice, and is refused. -/
def oneInvoice : List (Interleaving.Label DeskCall DeskEvent) :=
  [.event (.register 3 someTerms), .arrive (.createInvoice 1 3 7), .advance 0, .advance 0,
    .advance 0, .arrive (.createInvoice 2 3 8), .advance 0, .advance 0] ++ payInCash 7 50 "first"

theorem oneInvoice_alone :
    (registrationDesk cashDesk).system.Always (fun pool => pool.shared.OneLive) ⟨emptyDesk, []⟩
      oneInvoice :=
  (one_live_invoice_iff cashDesk _ _ oneInvoice emptyDesk_initial rfl).mpr (by decide +kernel)

end Runs

end Farzin.Billing
