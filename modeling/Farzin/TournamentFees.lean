import Farzin.TournamentCapacity

set_option autoImplicit false

/- Whether a registration that waits for its payment can be paid: billing makes no invoice where
the tournament asks for no fee. -/
namespace Farzin.Registrations

open Interleaving Transition

/-- Neither confirmed nor withdrawn. -/
def RegistrationRow.Waiting (r : RegistrationRow) : Prop :=
  r.isConfirmed = false ∧ r.isWithdrawn = false

instance decidableWaiting (r : RegistrationRow) : Decidable r.Waiting :=
  inferInstanceAs (Decidable (_ ∧ _))

/-- The fee is set and positive. -/
def Charged (entryFeeAmount : Option Int) : Prop := ∃ fee ∈ entryFeeAmount, 0 < fee

instance decidableCharged : (entryFeeAmount : Option Int) → Decidable (Charged entryFeeAmount)
  | none => .isFalse fun charged => by
      obtain ⟨fee, impossible, _⟩ := charged
      cases impossible
  | some fee => decidable_of_iff (0 < fee)
      ⟨fun positive => ⟨fee, rfl, positive⟩, fun charged => by
        obtain ⟨_, same, positive⟩ := charged
        cases same
        exact positive⟩

namespace Db

variable (s : Db)

/-- The entry fee of the tournament of a section. -/
def feeOf (sectionId : Nat) : Option Int := do
  let inSection ← s.findSectionById sectionId
  let t ← s.findById inSection.tournamentId
  t.entryFeeAmount

/-- Every registration that waits belongs to a tournament whose fee is set and positive, and
billing accepts it for an invoice. -/
def Payable : Prop :=
  ∀ r ∈ s.registrations, r.Waiting → ∃ view fee, s.findRegistrationBilling r.id = some view ∧
    view.terms.entryFeeAmount = some fee ∧ 0 < fee ∧ Billing.assertInvoiceable view = .ok fee

/-- The same in terms of the fees alone. -/
def FeesSet : Prop := ∀ r ∈ s.registrations, r.Waiting → Charged (s.feeOf r.sectionId)

end Db

/-- The section belongs to the tournament. -/
def Db.InTournament (s : Db) (sectionId id : Nat) : Prop :=
  ∃ inSection ∈ s.findSectionById sectionId, inSection.tournamentId = id

instance decidableInTournament (s : Db) (sectionId id : Nat) :
    Decidable (s.InTournament sectionId id) :=
  inferInstanceAs (Decidable (∃ inSection ∈ s.findSectionById sectionId,
    inSection.tournamentId = id))

/-- The tournament has been read. -/
def RegisterStage.hasRead : RegisterStage → Bool
  | .findSection | .findTournament _ => false
  | .findPlayer _ _ | .findRegistration _ _ _ | .countActive _ _ _ _ | .readRating _ _ _ _
  | .create _ _ => true

/-- A `register` that has read the tournament and not ended. -/
def Call.Registers (s : Db) (id : Nat) : Call → Prop
  | .register who stage _ => stage.hasRead = true ∧ s.InTournament who.sectionId id
  | _ => False

instance decidableRegisters (s : Db) (id : Nat) : (call : Call) → Decidable (call.Registers s id)
  | .register who stage _ =>
      inferInstanceAs (Decidable (stage.hasRead = true ∧ s.InTournament who.sectionId id))
  | .create _ | .findSlug _ _ | .createTournament _ _ | .update _ _ _ | .updateTournament _ _
  | .changeStatus _ _ | .storeStatus _ _ | .createSection _ _ _ | .listSections _ _
  | .insertSection _ _ | .registerMany _ _ | .withdraw _ | .findSectionOf _ _
  | .findTournamentOf _ _ _ | .findOwnPlayer _ _ | .withdrawRegistration _ _ =>
      inferInstanceAs (Decidable False)

/-- Nobody waits in the tournament, and nobody is about to be registered there. -/
def Db.Empty (s : Db) (inFlight : List Call) (id : Nat) : Prop :=
  (∀ r ∈ s.registrations, r.Waiting → ¬ s.InTournament r.sectionId id) ∧
    ∀ call ∈ inFlight, ¬ call.Registers s id

instance decidableEmpty (s : Db) (inFlight : List Call) (id : Nat) :
    Decidable (s.Empty inFlight id) :=
  inferInstanceAs (Decidable ((∀ r ∈ s.registrations, r.Waiting → ¬ s.InTournament r.sectionId id) ∧
    ∀ call ∈ inFlight, ¬ call.Registers s id))

/-- An update takes the fee away only from a tournament where nobody is. -/
def Call.Spares (s : Db) (inFlight : List Call) : Call → Prop
  | .updateTournament id input => input.entryFeeAmount = some none → s.Empty inFlight id
  | _ => True

instance decidableSpares (s : Db) (inFlight : List Call) :
    (call : Call) → Decidable (call.Spares s inFlight)
  | .updateTournament id input =>
      inferInstanceAs (Decidable (input.entryFeeAmount = some none → s.Empty inFlight id))
  | .create _ | .findSlug _ _ | .createTournament _ _ | .update _ _ _ | .register _ _ _
  | .changeStatus _ _ | .storeStatus _ _ | .createSection _ _ _ | .listSections _ _
  | .insertSection _ _ | .registerMany _ _ | .withdraw _ | .findSectionOf _ _
  | .findTournamentOf _ _ _ | .findOwnPlayer _ _ | .withdrawRegistration _ _ => .isTrue trivial

/-- The fee that a request gives, if it gives one. -/
def Call.fee : Call → Field
  | .create input | .findSlug input _ | .createTournament input _ => input.entryFeeAmount
  | .update _ _ input | .updateTournament _ input => input.entryFeeAmount
  | _ => none

/-- No request gives a fee of nothing, and none takes a fee away from those who still have to pay
it. -/
def FeesStay (pool : Pool Office Call) : Label Call OfficeEvent → Prop
  | .arrive call => call.fee ≠ some (some 0)
  | .advance index => ∀ call ∈ pool.inFlight[index]?, call.Spares pool.shared.db pool.inFlight
  | _ => True

instance decidableFeesStay (pool : Pool Office Call) :
    (label : Label Call OfficeEvent) → Decidable (FeesStay pool label)
  | .arrive call => inferInstanceAs (Decidable (call.fee ≠ some (some 0)))
  | .advance index => inferInstanceAs (Decidable
      (∀ call ∈ pool.inFlight[index]?, call.Spares pool.shared.db pool.inFlight))
  | .abandon _ => .isTrue trivial
  | .event _ => .isTrue trivial

section Fees

variable {s : Db}

/-- Every registration has a section and a tournament. -/
theorem Db.Consistent.place (consistent : s.Consistent) {r : RegistrationRow}
    (inside : r ∈ s.registrations) :
    ∃ inSection t, s.findSectionById r.sectionId = some inSection ∧
      s.findById inSection.tournamentId = some t := by
  obtain ⟨inSection, found⟩ := Option.isSome_iff_exists.mp (consistent.ofSection r inside)
  have listed := Table.findUnique_mem found
  obtain ⟨t, here⟩ := Option.isSome_iff_exists.mp (consistent.ofTournament inSection listed)
  exact ⟨inSection, t, found, here⟩

theorem feeOf_eq {sectionId : Nat} {inSection : SectionRow} {t : TournamentRow}
    (found : s.findSectionById sectionId = some inSection)
    (here : s.findById inSection.tournamentId = some t) :
    s.feeOf sectionId = t.entryFeeAmount := by
  simp [Db.feeOf, found, here]

/-- Billing accepts a registration that waits exactly when there is a fee to pay. -/
theorem assertInvoiceable_ok {view : Billing.RegistrationBillingView}
    (unconfirmed : view.registration.isConfirmed = false)
    (active : view.terms.isWithdrawn = false) {fee : Int}
    (set : view.terms.entryFeeAmount = some fee) (positive : 0 < fee) :
    Billing.assertInvoiceable view = .ok fee := by
  unfold Billing.assertInvoiceable
  simp [unconfirmed, active, set, positive]

theorem payable_iff (consistent : s.Consistent) : s.Payable ↔ s.FeesSet := by
  refine forall₂_congr fun r inside => ?_
  refine imp_congr_right fun waiting => ?_
  obtain ⟨inSection, t, found, here⟩ := consistent.place inside
  have own : s.findRegistrationById r.id = some r := consistent.registrationKey.find inside
  have billing : s.findRegistrationBilling r.id =
      some ⟨⟨r.id, r.invoiceId, r.isConfirmed⟩, ⟨r.playerId, r.isWithdrawn, t.id, t.entryFeeAmount,
        t.entryFeeCurrency, t.clubId, t.regionId, t.federationId⟩⟩ := by
    simp [Db.findRegistrationBilling, own, found, here]
  rw [feeOf_eq found here, billing]
  constructor
  · rintro ⟨view, fee, same, set, positive, -⟩
    cases same
    exact ⟨fee, set, positive⟩
  · rintro ⟨fee, set, positive⟩
    exact ⟨_, fee, rfl, set, positive, assertInvoiceable_ok waiting.1 waiting.2 set positive⟩

theorem findById_rewrite (condition : TournamentRow → Bool)
    (change : TournamentRow → TournamentRow) (id : ∀ t, (change t).id = t.id) (k : Nat) :
    ({ s with tournaments := Table.updateWhere condition change s.tournaments }).findById k =
      (s.findById k).map fun t => if condition t then change t else t :=
  Table.findUnique_updateWhere condition change s.tournaments id k

/-- A fee that is charged belongs to a tournament and a section that are stored. -/
theorem charged_place {sectionId : Nat} (charged : Charged (s.feeOf sectionId)) :
    ∃ inSection t, s.findSectionById sectionId = some inSection ∧
      s.findById inSection.tournamentId = some t ∧ Charged t.entryFeeAmount := by
  obtain ⟨fee, given, positive⟩ := charged
  rw [Db.feeOf, Option.mem_def, Option.bind_eq_bind, Option.bind_eq_some_iff] at given
  obtain ⟨inSection, found, given⟩ := given
  rw [Option.bind_eq_bind, Option.bind_eq_some_iff] at given
  obtain ⟨t, here, given⟩ := given
  exact ⟨inSection, t, found, here, fee, given, positive⟩

/-- No fee is nothing. -/
def PositiveFee (entryFeeAmount : Option Int) : Prop := ∀ fee ∈ entryFeeAmount, 0 < fee

theorem PositiveFee.charged {entryFeeAmount : Option Int} (positive : PositiveFee entryFeeAmount)
    (set : entryFeeAmount.isNone = false) : Charged entryFeeAmount := by
  cases entryFeeAmount with
  | none => cases set
  | some fee => exact ⟨fee, rfl, positive fee rfl⟩

/-- The fees that a write brings along are positive. -/
def Write.Positive : Write → Prop
  | .tournament row => PositiveFee row.entryFeeAmount
  | .update _ input => ∀ fee ∈ input.entryFeeAmount, PositiveFee fee
  | _ => True

/-- The write takes no fee away from a section. -/
def Write.Leaves (s : Db) (sectionId : Nat) : Write → Prop
  | .update id input => input.entryFeeAmount = some none → ¬ s.InTournament sectionId id
  | _ => True

theorem edit_charged {t : TournamentRow} (charged : Charged t.entryFeeAmount)
    {input : UpdateTournament} (positive : ∀ fee ∈ input.entryFeeAmount, PositiveFee fee)
    (given : input.entryFeeAmount ≠ some none) : Charged (t.edit input).entryFeeAmount := by
  change Charged (input.entryFeeAmount.getD t.entryFeeAmount)
  cases field : input.entryFeeAmount with
  | none => exact charged
  | some fee =>
      apply (positive fee field).charged
      cases fee with
      | none => exact absurd field given
      | some amount => rfl

theorem charged_update {sectionId id : Nat} {input : UpdateTournament}
    (charged : Charged (s.feeOf sectionId)) (positive : Write.Positive (.update id input))
    (leaves : Write.Leaves s sectionId (.update id input)) :
    Charged ((s.apply (.update id input)).feeOf sectionId) := by
  obtain ⟨inSection, t, found, here, fee⟩ := charged_place charged
  have after := findById_rewrite (s := s) (fun t => t.id = id) (·.edit input) (fun _ => rfl)
    inSection.tournamentId
  rw [here, Option.map_some] at after
  rw [feeOf_eq (s := s.apply (.update id input)) found after]
  have key : t.id = inSection.tournamentId := Table.findUnique_key here
  split
  · rename_i own
    apply edit_charged fee positive
    intro taken
    exact leaves taken ⟨inSection, found, key.symm.trans (of_decide_eq_true own)⟩
  · exact fee

/-- A fee that is charged stays so under every write that leaves it. -/
theorem charged_apply (consistent : s.Consistent) {write : Write} (sound : write.Sound s)
    {sectionId : Nat} (charged : Charged (s.feeOf sectionId)) (positive : write.Positive)
    (leaves : write.Leaves s sectionId) : Charged ((s.apply write).feeOf sectionId) := by
  cases write with
  | update id input => exact charged_update charged positive leaves
  | tournament row =>
      obtain ⟨inSection, t, found, here, fee⟩ := charged_place charged
      have there := Table.findUnique_added consistent.tournamentIds sound here
      rw [feeOf_eq (s := s.apply (.tournament row)) found there]
      exact fee
  | tournamentSection row =>
      obtain ⟨inSection, t, found, here, fee⟩ := charged_place charged
      have there := Table.findUnique_added consistent.sectionIds sound.1 found
      rw [feeOf_eq (s := s.apply (.tournamentSection row)) there here]
      exact fee
  | status id status =>
      obtain ⟨inSection, t, found, here, fee⟩ := charged_place charged
      have after := findById_rewrite (s := s) (fun t => t.id = id) (fun t => { t with status })
        (fun _ => rfl) inSection.tournamentId
      rw [here, Option.map_some] at after
      rw [feeOf_eq (s := s.apply (.status id status)) found after]
      split
      · exact fee
      · exact fee
  | registration | withdrawal | confirmation | invoice => exact charged

/-- The fees of all tournaments are positive, and everybody who waits has one to pay. -/
structure Db.Priced (s : Db) : Prop where
  consistent : s.Consistent
  positive : ∀ t ∈ s.tournaments, PositiveFee t.entryFeeAmount
  set : s.FeesSet

/-- A registration that is inserted to wait finds a fee. -/
def Write.Paid (s : Db) : Write → Prop
  | .registration row => row.isConfirmed = false → Charged (s.feeOf row.sectionId)
  | _ => True

/-- A registration that waits after a write has waited before, or is new. -/
theorem waiting_apply {write : Write} {r : RegistrationRow}
    (inside : r ∈ (s.apply write).registrations) (waiting : r.Waiting) :
    (∃ old ∈ s.registrations, old.Waiting ∧ old.sectionId = r.sectionId) ∨
      write = .registration r := by
  have rewritten (condition : RegistrationRow → Bool) (change : RegistrationRow → RegistrationRow)
      (keeps : ∀ r, (change r).sectionId = r.sectionId ∧ ((change r).Waiting → r.Waiting))
      (listed : r ∈ Table.updateWhere condition change s.registrations) :
      ∃ old ∈ s.registrations, old.Waiting ∧ old.sectionId = r.sectionId := by
    obtain ⟨old, here, rfl⟩ := Table.mem_updateWhere.mp listed
    refine ⟨old, here, ?_⟩
    by_cases changed : condition old = true
    · rw [if_pos changed] at waiting ⊢
      exact ⟨(keeps old).2 waiting, (keeps old).1.symm⟩
    · rw [if_neg changed] at waiting ⊢
      exact ⟨waiting, rfl⟩
  cases write with
  | registration row =>
      rcases List.mem_append.mp inside with old | added
      · exact .inl ⟨r, old, waiting, rfl⟩
      · rw [List.mem_singleton.mp added]
        exact .inr rfl
  | withdrawal id reason =>
      refine .inl (rewritten (fun r => r.id = id) (·.withdrawn reason) (fun _ => ⟨rfl, ?_⟩) inside)
      intro waits
      cases waits.2
  | confirmation id =>
      refine .inl (rewritten (fun r => r.id = id) (fun r => { r with isConfirmed := true })
        (fun _ => ⟨rfl, ?_⟩) inside)
      intro waits
      cases waits.1
  | invoice id invoiceId =>
      exact .inl (rewritten (fun r => r.id = id) (fun r => { r with invoiceId := some invoiceId })
        (fun _ => ⟨rfl, fun waits => waits⟩) inside)
  | tournament | update | status | tournamentSection => exact .inl ⟨r, inside, waiting, rfl⟩

theorem positive_apply (fees : ∀ t ∈ s.tournaments, PositiveFee t.entryFeeAmount) {write : Write}
    (positive : write.Positive) :
    ∀ t ∈ (s.apply write).tournaments, PositiveFee t.entryFeeAmount := by
  cases write with
  | tournament row =>
      intro t listed
      rcases List.mem_append.mp listed with old | new
      · exact fees t old
      · rw [List.mem_singleton.mp new]
        exact positive
  | update id input =>
      intro t listed
      obtain ⟨old, here, rfl⟩ := Table.mem_updateWhere.mp listed
      split
      · change PositiveFee (input.entryFeeAmount.getD old.entryFeeAmount)
        cases field : input.entryFeeAmount with
        | none => exact fees old here
        | some fee => exact positive fee field
      · exact fees old here
  | status id status =>
      intro t listed
      obtain ⟨old, here, rfl⟩ := Table.mem_updateWhere.mp listed
      split
      · exact fees old here
      · exact fees old here
  | tournamentSection | registration | withdrawal | confirmation | invoice => exact fees

theorem priced_apply (priced : s.Priced) {write : Write} (sound : write.Sound s)
    (positive : write.Positive) (paid : write.Paid s)
    (leaves : ∀ r ∈ s.registrations, r.Waiting → write.Leaves s r.sectionId) :
    (s.apply write).Priced where
  consistent := consistent_apply priced.consistent sound
  positive := positive_apply priced.positive positive
  set r inside waiting := by
    rcases waiting_apply inside waiting with ⟨old, here, waited, same⟩ | rfl
    · have charged := priced.set old here waited
      have kept := leaves old here waited
      rw [same] at charged kept
      exact charged_apply priced.consistent sound charged positive kept
    · exact charged_apply priced.consistent sound (paid waiting.1) positive trivial

end Fees

section Requests

variable {s : Db} {ports : Ports}

/-- What a `register` has read of the fee of its tournament. -/
def Call.FeeRead (s : Db) : Call → Prop
  | .register who (.findTournament inSection) _ => s.findSectionById who.sectionId = some inSection
  | .register who (.findPlayer inSection t) _ | .register who (.findRegistration inSection t _) _
  | .register who (.countActive inSection _ t _) _
  | .register who (.readRating inSection t _ _) _ =>
      s.findSectionById who.sectionId = some inSection ∧
        (t.entryFeeAmount.isNone = false → Charged (s.feeOf who.sectionId))
  | .register who (.create input _) _ => input.sectionId = who.sectionId ∧
      (input.isConfirmed = false → Charged (s.feeOf who.sectionId))
  | _ => True

/-- A request in flight gives a positive fee, if any, and has read the fee of its tournament. -/
structure Call.Priced (s : Db) (call : Call) : Prop where
  fee : ∀ amount ∈ call.fee, PositiveFee amount
  read : call.FeeRead s

theorem feeRead_next (priced : s.Priced) {who : Registrant} {before stage : RegisterStage}
    {bulk : Option Bulk} (read : Call.FeeRead s (.register who before bulk))
    (moved : RegisterNext s who before stage) : Call.FeeRead s (.register who stage bulk) := by
  cases moved with
  | sectionFound inSection found => exact found
  | tournamentFound inSection t found =>
      have place : s.findSectionById who.sectionId = some inSection := read
      refine ⟨place, fun set => ?_⟩
      rw [feeOf_eq place found]
      exact (priced.positive t (Table.findUnique_mem found)).charged set
  | playerFound | limited | unlimited | roomLeft => exact read
  | ratingRead inSection t player counted input place confirmed =>
      refine ⟨place, fun waits => read.2 ?_⟩
      rw [← confirmed]
      exact waits

theorem feeRead_apply (priced : s.Priced) {write : Write} (sound : write.Sound s)
    (positive : write.Positive) {call : Call} (read : call.FeeRead s)
    (leaves : ∀ who stage bulk, call = .register who stage bulk → stage.hasRead = true →
      write.Leaves s who.sectionId) : call.FeeRead (s.apply write) := by
  have kept {id : Nat} {inSection : SectionRow}
      (found : s.findSectionById id = some inSection) :
      (s.apply write).findSectionById id = some inSection :=
    findSection_apply priced.consistent sound found
  cases call with
  | register who stage bulk =>
      cases stage with
      | findSection => trivial
      | findTournament inSection => exact kept read
      | findPlayer inSection t | findRegistration inSection t player
      | countActive inSection most t player | readRating inSection t player counted =>
          refine ⟨kept read.1, fun set => ?_⟩
          exact charged_apply priced.consistent sound (read.2 set) positive
            (leaves who _ bulk rfl rfl)
      | create input counted =>
          refine ⟨read.1, fun waits => ?_⟩
          exact charged_apply priced.consistent sound (read.2 waits) positive
            (leaves who _ bulk rfl rfl)
  | create | findSlug | createTournament | update | updateTournament | changeStatus | storeStatus
  | createSection | listSections | insertSection | registerMany | withdraw | findSectionOf
  | findTournamentOf | findOwnPlayer | withdrawRegistration => trivial

/-- The fee that a request writes is the one that it has given. -/
theorem act_positive {call : Call} {write : Write} (writes : (act s ports call).1 = some write)
    (given : ∀ amount ∈ call.fee, PositiveFee amount) : write.Positive := by
  cases call with
  | createTournament input context =>
      change (createTournament s input context).1 = some write at writes
      unfold createTournament at writes
      dsimp only at writes
      repeat' split at writes
      all_goals cases writes
      change PositiveFee (input.entryFeeAmount.getD none)
      cases field : input.entryFeeAmount with
      | none =>
          intro fee none
          cases none
      | some fee => exact given fee field
  | updateTournament id input =>
      change (updateTournament s id input).1 = some write at writes
      unfold updateTournament at writes
      repeat' split at writes
      all_goals cases writes
      exact given
  | register who stage bulk =>
      simp only [act] at writes
      split at writes
      · cases writes
      · rename_i made result done
        dsimp only at writes
        subst writes
        obtain ⟨_, _, row, _, rfl, _⟩ := registerStep_write done
        trivial
  | registerMany => cases writes
  | create | findSlug | update | changeStatus | storeStatus | createSection | listSections
  | insertSection | withdraw | findSectionOf | findTournamentOf | findOwnPlayer
  | withdrawRegistration =>
      simp only [act, create, update, changeStatus, storeStatus, createSection, insertSection,
        findOwnPlayer] at writes
      repeat' split at writes
      all_goals cases writes
      all_goals trivial

/-- An update of a tournament comes from the request that gives its fee. -/
theorem act_update {call : Call} {id : Nat} {input : UpdateTournament}
    (writes : (act s ports call).1 = some (.update id input)) :
    call = .updateTournament id input := by
  cases call with
  | updateTournament other given =>
      change (updateTournament s other given).1 = _ at writes
      unfold updateTournament at writes
      repeat' split at writes
      all_goals cases writes
      rfl
  | register who stage bulk =>
      simp only [act] at writes
      split at writes
      · cases writes
      · rename_i made result done
        dsimp only at writes
        subst writes
        obtain ⟨_, _, _, _, same, _⟩ := registerStep_write done
        cases same
  | registerMany => cases writes
  | create | findSlug | createTournament | update | changeStatus | storeStatus | createSection
  | listSections | insertSection | withdraw | findSectionOf | findTournamentOf | findOwnPlayer
  | withdrawRegistration =>
      simp only [act, create, createTournament, update, changeStatus, storeStatus, createSection,
        insertSection, findOwnPlayer] at writes
      repeat' split at writes
      all_goals cases writes

/-- A request that goes on gives the fee that it has given before. -/
theorem act_fee {call rest : Call} (goesOn : (act s ports call).2.call = some rest) :
    rest.fee = none ∨ rest.fee = call.fee := by
  cases call with
  | register who stage bulk =>
      simp only [act] at goesOn
      split at goesOn
      · cases goesOn
        exact .inl rfl
      · obtain ⟨_, _, rfl⟩ := settle_call goesOn
        exact .inl rfl
  | registerMany who playerIds =>
      obtain ⟨_, _, rfl⟩ := nextPlayer_call goesOn
      exact .inl rfl
  | create | findSlug | createTournament | update | updateTournament | changeStatus | storeStatus
  | createSection | listSections | insertSection | withdraw | findSectionOf | findTournamentOf
  | findOwnPlayer | withdrawRegistration =>
      simp only [act, create, createTournament, update, updateTournament, changeStatus,
        storeStatus, createSection, insertSection, findOwnPlayer] at goesOn
      repeat' split at goesOn
      all_goals cases goesOn
      all_goals first | exact .inl rfl | exact .inr rfl

theorem Call.Priced.next (priced : s.Priced) {call rest : Call} (own : call.Priced s)
    (goesOn : (act s ports call).2.call = some rest) : rest.Priced s where
  fee := by
    rcases act_fee goesOn with none | same
    · rw [none]
      intro amount given
      cases given
    · rw [same]
      exact own.fee
  read := by
    cases rest with
    | register who stage bulk =>
        rcases act_register goesOn with rfl | ⟨before, rfl, moved⟩
        · trivial
        · exact feeRead_next priced own.read moved
    | create | findSlug | createTournament | update | updateTournament | changeStatus
    | storeStatus | createSection | listSections | insertSection | registerMany | withdraw
    | findSectionOf | findTournamentOf | findOwnPlayer | withdrawRegistration => trivial

/-- A registration that waits has read a fee, as it is confirmed where there is none. -/
theorem act_paid {call : Call} {write : Write} (own : call.Priced s)
    (writes : (act s ports call).1 = some write) : write.Paid s := by
  cases write with
  | registration row =>
      obtain ⟨who, input, counted, bulk, rfl, place, confirmed⟩ := act_registration writes
      obtain ⟨same, charged⟩ := own.read
      intro waits
      rw [place, same]
      exact charged (confirmed.symm.trans waits)
  | tournament | update | status | tournamentSection | withdrawal | confirmation | invoice =>
      trivial

/-- An update that spares everybody leaves the fee of each section where someone is. -/
theorem act_leaves {call : Call} {write : Write} {inFlight : List Call}
    (spares : call.Spares s inFlight) (writes : (act s ports call).1 = some write) :
    (∀ r ∈ s.registrations, r.Waiting → write.Leaves s r.sectionId) ∧
      ∀ who stage bulk, .register who stage bulk ∈ inFlight → stage.hasRead = true →
        write.Leaves s who.sectionId := by
  cases write with
  | update id input =>
      cases act_update writes
      constructor
      · intro r inside waiting taken
        exact (spares taken).1 r inside waiting
      · intro who stage bulk listed read taken place
        exact (spares taken).2 _ listed ⟨read, place⟩
  | tournament | status | tournamentSection | registration | withdrawal | confirmation
  | invoice => exact ⟨fun _ _ _ => trivial, fun _ _ _ _ _ => trivial⟩

end Requests

section Runs

variable {pool after : Pool Office Call}

theorem payable_of_priced {s : Db} (priced : s.Priced) : s.Payable :=
  (payable_iff priced.consistent).mpr priced.set

/-- The tables and every request in flight are as they should be. -/
abbrev Priced : Pool Office Call → Prop :=
  Holds (fun s => s.db.Priced) fun s call => call.Priced s.db

theorem positive_admitted {fee : Field} (admitted : admittedFee fee = true)
    (something : fee ≠ some (some 0)) : ∀ amount ∈ fee, PositiveFee amount := by
  rintro amount rfl fee rfl
  have least : 0 ≤ fee := of_decide_eq_true admitted
  have other : fee ≠ 0 := fun same => something (by rw [same])
  omega

theorem priced_arrives {s : Office} {call : Call} (arrives : office.arrives s call = true)
    (something : call.fee ≠ some (some 0)) : call.Priced s.db := by
  cases call with
  | create input => exact ⟨positive_admitted arrives something, trivial⟩
  | update allowed id input => exact ⟨positive_admitted arrives something, trivial⟩
  | register who stage bulk =>
      cases stage with
      | findSection => exact ⟨fun _ none => (by cases none), trivial⟩
      | findTournament | findPlayer | findRegistration | countActive | readRating | create =>
          cases bulk <;> cases arrives
  | changeStatus | createSection | registerMany | withdraw =>
      exact ⟨fun _ none => (by cases none), trivial⟩
  | findSlug | createTournament | updateTournament | storeStatus | listSections | insertSection
  | findSectionOf | findTournamentOf | findOwnPlayer | withdrawRegistration => cases arrives

/-- What billing and the other modules do takes no fee away. -/
theorem priced_event (priced : Priced pool) {event : OfficeEvent} {s : Office}
    (happened : office.event pool.shared event = some s) : Priced ⟨s, pool.inFlight⟩ := by
  have written (write : Write) (sound : write.Sound pool.shared.db) (positive : write.Positive)
      (paid : write.Paid pool.shared.db)
      (leaves : ∀ sectionId, write.Leaves pool.shared.db sectionId) :
      Priced ⟨pool.shared.write (some write), pool.inFlight⟩ := by
    refine ⟨priced_apply priced.1 sound positive paid fun r _ _ => leaves r.sectionId, ?_⟩
    intro call listed
    have own := priced.2 call listed
    exact ⟨own.fee, feeRead_apply priced.1 sound positive own.read
      fun who _ _ _ _ => leaves who.sectionId⟩
  cases event with
  | ports ports =>
      cases happened
      exact priced
  | confirm id =>
      cases happened
      exact written (.confirmation id) trivial trivial trivial fun _ => trivial
  | invoice id invoiceId =>
      cases happened
      exact written (.invoice id invoiceId) trivial trivial trivial fun _ => trivial

theorem priced_advance (priced : Priced pool) {index : Nat} {call : Call}
    (here : pool.inFlight[index]? = some call)
    (spares : call.Spares pool.shared.db pool.inFlight) :
    Priced ⟨(office.advance pool.shared call).1,
      pool.inFlight.eraseIdx index ++ (office.advance pool.shared call).2.toList⟩ := by
  have own := priced.2 call (List.mem_of_getElem? here)
  change Priced ⟨pool.shared.write (act pool.shared.db pool.shared.ports call).1,
    pool.inFlight.eraseIdx index ++
      (act pool.shared.db pool.shared.ports call).2.call.toList⟩
  have next (rest : Call)
      (goesOn : (act pool.shared.db pool.shared.ports call).2.call = some rest) :
      rest.Priced pool.shared.db := Call.Priced.next priced.1 own goesOn
  cases writes : (act pool.shared.db pool.shared.ports call).1 with
  | none => exact priced.advanced priced.1 next fun _ _ before => before
  | some write =>
      have sound := act_sound writes
      have positive := act_positive writes own.fee
      obtain ⟨waiting, registering⟩ := act_leaves spares writes
      apply priced.advanced
      · exact priced_apply priced.1 sound positive (act_paid own writes) waiting
      · intro rest goesOn
        have kept := next rest goesOn
        refine ⟨kept.fee, feeRead_apply priced.1 sound positive kept.read ?_⟩
        rintro who stage bulk rfl read
        rcases act_register goesOn with rfl | ⟨before, rfl, _⟩
        · cases read
        · -- a register takes no fee away, whoever else is there
          have free : Call.Spares pool.shared.db [.register who stage bulk]
            (.register who before bulk) := trivial
          exact (act_leaves free writes).2 who stage bulk (List.mem_singleton_self _) read
      · intro other listed before
        refine ⟨before.fee, feeRead_apply priced.1 sound positive before.read ?_⟩
        rintro who stage bulk rfl read
        exact registering who stage bulk listed read

theorem priced_step (priced : Priced pool) {label : Label Call OfficeEvent}
    (stay : FeesStay pool label) (taken : office.step pool label = some after) :
    Priced after := by
  cases label with
  | arrive call =>
      rw [Program.step] at taken
      split at taken
      · rename_i arrives
        cases taken
        exact priced.arrived (priced_arrives arrives stay)
      · cases taken
  | advance index =>
      obtain ⟨call, here, rfl⟩ := advance_step taken
      exact priced_advance priced here (stay call here)
  | abandon index =>
      rw [Program.step, Option.map_eq_some_iff] at taken
      obtain ⟨_, _, rfl⟩ := taken
      exact priced.abandoned index
  | event event =>
      rw [Program.step, Option.map_eq_some_iff] at taken
      obtain ⟨s, happened, rfl⟩ := taken
      exact priced_event priced happened

theorem priced_initial (initial : office.system.initial pool) : Priced pool := by
  obtain ⟨⟨tournaments, sections, registrations⟩, none⟩ := initial
  refine ⟨⟨?_, ?_, ?_⟩, ?_⟩
  · constructor <;> simp [tournaments, sections, registrations, Table.Unique]
  · simp [tournaments]
  · simp [Db.FeesSet, registrations]
  · simp [none]

end Runs

/-- Whatever requests are made, every registration that waits can be paid, as long as no request
gives a fee of nothing and none takes a fee away from a tournament where someone waits or is
about to be registered. -/
theorem waiting_stays_payable (pool : Pool Office Call)
    (reached : office.system.ReachableWhile FeesStay pool) : pool.shared.db.Payable := by
  have priced : Priced pool := by
    apply reached.invariant Priced
    · intro s initial
      exact priced_initial initial
    · intro s label t priced stay taken
      exact priced_step priced stay taken
  exact payable_of_priced priced.1

/-- The fee is set to nothing, which is not the same as left out. -/
def freeOfCharge : List (Label Call OfficeEvent) :=
  announced (some (some 0)) ++ registering 1 :: List.replicate 7 (.advance 0)

/-- The fee is taken away while a player has still to pay it. -/
def feeTakenAway : List (Label Call OfficeEvent) :=
  announced (some (some 5000000)) ++ registering 1 :: List.replicate 7 (.advance 0) ++
    [.arrive (.update true 1 ⟨none, none, some none⟩), .advance 0, .advance 0]

/-- The registrations that wait, with the fees of their tournaments. -/
def Db.waiting (s : Db) : List (Nat × Option Int) :=
  (s.registrations.filter fun r => r.Waiting).map fun r => (r.id, s.feeOf r.sectionId)

theorem waiting_charged {s : Db} (consistent : s.Consistent) (payable : s.Payable)
    {entry : Nat × Option Int} (waits : entry ∈ s.waiting) : Charged entry.2 := by
  obtain ⟨r, inside, rfl⟩ := List.mem_map.mp waits
  obtain ⟨listed, waiting⟩ := List.mem_filter.mp inside
  exact (payable_iff consistent).mp payable r listed (of_decide_eq_true waiting)

theorem freeOfCharge_waiting :
    (office.system.run nothingYet freeOfCharge).map
      (fun pool => (pool.inFlight, pool.shared.db.waiting)) = some ([], [(3, some 0)]) := by
  decide +kernel

theorem feeTakenAway_waiting :
    (office.system.run nothingYet feeTakenAway).map
      (fun pool => (pool.inFlight, pool.shared.db.waiting)) = some ([], [(3, none)]) := by
  decide +kernel

theorem nothingYet_initial : office.system.initial nothingYet := ⟨⟨rfl, rfl, rfl⟩, rfl⟩

theorem unpayable_of_waiting {labels : List (Label Call OfficeEvent)} {fee : Option Int}
    (free : ¬ Charged fee)
    (seen : (office.system.run nothingYet labels).map
      (fun pool => (pool.inFlight, pool.shared.db.waiting)) = some ([], [(3, fee)])) :
    ∃ pool, office.system.run nothingYet labels = some pool ∧ pool.inFlight = [] ∧
      ¬ pool.shared.db.Payable := by
  obtain ⟨pool, ran, seen⟩ := Option.map_eq_some_iff.mp seen
  obtain ⟨rest, waits⟩ := Prod.mk.inj seen
  refine ⟨pool, ran, rest, fun payable => ?_⟩
  have reached := System.run_reachable nothingYet pool labels nothingYet_initial ran
  have consistent := (office_outline.always reached).1
  have entry : (3, fee) ∈ pool.shared.db.waiting := by
    rw [waits]
    exact List.mem_singleton_self _
  exact free (waiting_charged consistent payable entry)

theorem waiting_unpayable :
    office.system.initial nothingYet ∧
      (∃ pool, office.system.run nothingYet freeOfCharge = some pool ∧ pool.inFlight = [] ∧
        ¬ pool.shared.db.Payable) ∧
      ∃ pool, office.system.run nothingYet feeTakenAway = some pool ∧ pool.inFlight = [] ∧
        ¬ pool.shared.db.Payable :=
  ⟨nothingYet_initial, unpayable_of_waiting (by decide) freeOfCharge_waiting,
    unpayable_of_waiting (by decide) feeTakenAway_waiting⟩

/-- Here the fee is only raised. -/
def feeRaised : List (Label Call OfficeEvent) :=
  announced (some (some 5000000)) ++ registering 1 :: List.replicate 7 (.advance 0) ++
    [.arrive (.update true 1 ⟨none, none, some (some 6000000)⟩), .advance 0, .advance 0]

theorem feeRaised_payable :
    ∃ pool, office.system.run nothingYet feeRaised = some pool ∧
      pool.shared.db.waiting = [(3, some 6000000)] ∧ pool.shared.db.Payable := by
  have ran : (office.system.run nothingYet feeRaised).map
      (fun pool => pool.shared.db.waiting) = some [(3, some 6000000)] := by decide +kernel
  obtain ⟨pool, ran, waits⟩ := Option.map_eq_some_iff.mp ran
  have stay : System.Guarded FeesStay office.system nothingYet feeRaised := by decide +kernel
  have steps := System.run_steps nothingYet pool feeRaised ran stay
  exact ⟨pool, ran, waits, waiting_stays_payable pool ⟨nothingYet, nothingYet_initial, steps⟩⟩

end Farzin.Registrations
