import Farzin.ArbiterRounds
import Farzin.BillingOneInvoice

set_option autoImplicit false

/- The players of a section from their registration to the rounds (`register`, `withdraw` and
`changeStatus` of `modules/tournament/tournament.service.ts`, `generateRound` of
`modules/arbiter/arbiter.service.ts`), while the billing desk takes their entry fees. The requests
of the arbiter come one after the other here. -/
namespace Farzin.Arbiter

open Interleaving Transition
open Billing (Desk DeskCall DeskEvent RegistrationTerms Surroundings registrationDesk)
open Rating (isTrimmed)

inductive TournamentStatus where
  | draft
  | registrationOpen
  | registrationClosed
  | inProgress
  | completed
  | cancelled
  deriving DecidableEq, Repr

def allowedTransitions : TournamentStatus → List TournamentStatus
  | .draft => [.registrationOpen, .cancelled]
  | .registrationOpen => [.registrationClosed, .cancelled]
  | .registrationClosed => [.inProgress, .cancelled]
  | .inProgress => [.completed, .cancelled]
  | .completed => []
  | .cancelled => []

def canTransition (source target : TournamentStatus) : Bool :=
  (allowedTransitions source).contains target

/-- A section of a tournament. The desk has the rest of the columns of its registrations; both
see the same `isConfirmed`. -/
structure Entrants where
  status : TournamentStatus
  data : Section
  pairingSystem : PairingSystem
  maxPlayers : Option Nat
  desk : Pool Desk DeskCall

inductive EntrantError where
  | notFound
  | registrationNotOpen (status : TournamentStatus)
  | alreadyRegistered (playerId : Nat)
  | sectionFull (maxPlayers : Nat)
  | uniqueViolation
  | invalidStatusTransition (source target : TournamentStatus)
  | cancelReasonRequired
  deriving DecidableEq, Repr

/-- A registration with the random id of its row and the rating that was read for it. -/
structure RegisterCall where
  allowed : Bool
  playerFound : Bool
  id : PlayerId
  terms : RegistrationTerms
  ratingAtEntry : Option Int
  createdAt : Int
  deriving DecidableEq, Repr

/-- A registration without an entry fee needs no payment. -/
def RegisterCall.row (call : RegisterCall) : Registration where
  id := call.id
  isConfirmed := call.terms.entryFeeAmount.isNone
  isWithdrawn := false
  pairingNumber := none
  ratingAtEntry := call.ratingAtEntry
  createdAt := call.createdAt
  joinedAtRound := none

/-- Either no active player has a number, or all of them have one. -/
def Section.NumberedTogether (s : Section) : Prop :=
  (∀ r ∈ s.activeRegistrations, r.pairingNumber.isNone) ∨
    ∀ r ∈ s.activeRegistrations, r.pairingNumber.isSome

instance (s : Section) : Decidable s.NumberedTogether :=
  inferInstanceAs (Decidable (_ ∨ _))

namespace Entrants

variable (s : Entrants)

def playerOf (id : PlayerId) : Option Nat :=
  (s.desk.shared.terms id).map RegistrationTerms.playerId

def countActiveRegistrations : Nat :=
  s.data.registrations.countP fun r => !r.isWithdrawn

def addRegistration (call : RegisterCall) : Entrants :=
  { s with
    data := { s.data with registrations := s.data.registrations ++ [call.row] }
    desk := { s.desk with
      shared := s.desk.shared.register call.id { call.terms with isWithdrawn := false } } }

def register (call : RegisterCall) : Except EntrantError Entrants :=
  if ¬call.allowed then .error .notFound
  else if s.status ≠ .registrationOpen then .error (.registrationNotOpen s.status)
  else if ¬call.playerFound then .error .notFound
  else if s.data.registrations.any fun r => s.playerOf r.id = some call.terms.playerId then
    .error (.alreadyRegistered call.terms.playerId)
  else if s.maxPlayers.any fun most => most ≤ s.countActiveRegistrations then
    .error (.sectionFull (s.maxPlayers.getD 0))
  else if s.data.registrations.any fun r => r.id = call.id then .error .uniqueViolation
  else .ok (s.addRegistration call)

def changeStatus (allowed : Bool) (status : TournamentStatus) (reason : Option String) :
    Except EntrantError Entrants :=
  if ¬allowed then .error .notFound
  else if ¬canTransition s.status status then
    .error (.invalidStatusTransition s.status status)
  else if status = .cancelled ∧ reason.all fun text => text.toList.all isTrimmed then
    .error .cancelReasonRequired
  else .ok { s with
    status := status
    data := { s.data with inProgress := status = .inProgress } }

/-- The rows after a step of the desk; a payment may have confirmed registrations. -/
def withDesk (desk : Pool Desk DeskCall) : Entrants :=
  { s with
    desk := desk
    data := { s.data with
      registrations := s.data.registrations.map fun r =>
        { r with isConfirmed :=
            (desk.shared.findRegistration r.id).any Billing.Registration.isConfirmed } } }

def markWithdrawn (id : PlayerId) : Pool Desk DeskCall :=
  { s.desk with
    shared := { s.desk.shared with
      terms := Function.update s.desk.shared.terms id
        ((s.desk.shared.terms id).map fun terms => { terms with isWithdrawn := true }) } }

def withdraw (allowed : Bool) (registrationId : PlayerId) (reason : String) : Entrants :=
  match s.data.withdraw allowed registrationId reason with
  | (_, .error _) => s
  | (data, .ok ()) => { s with data := data, desk := s.markWithdrawn registrationId }

/-- The number of the next round, with its engine. -/
def nextRound (allowed : Bool) :
    Except RequestError (Nat × (PairingRequest → Except PairingError PairingResult)) :=
  if ¬allowed then .error (.arbiter .notFound)
  else if ¬s.data.inProgress then .error (.arbiter .tournamentNotInProgress)
  else
    match engineOf s.pairingSystem with
    | none => .error (.pairingSystemNotImplemented s.pairingSystem)
    | some engine =>
        match s.data.latestRound with
        | none => .ok (1, engine)
        | some latest =>
            if latest.status ≠ .completed then
              .error (.arbiter (.previousRoundNotCompleted latest.id latest.number latest.status))
            else .ok (latest.number + 1, engine)

/-- Numbers are given when no active player has one. -/
def withNumbers : Except RequestError Section :=
  if s.data.activeRegistrations.all fun r => r.pairingNumber.isNone then
    s.data.assignNumbers.map Prod.fst
  else .ok s.data

def requestFor (data : Section) (number : Nat) : PairingRequest :=
  data.pairingRequest number data.numberedRegistrations data.history

/-- The players that `generateRound` gives to its engine, unless it fails before. -/
def givenPlayers (allowed : Bool) : Except RequestError (List PlayerPairingState) := do
  let (number, _) ← s.nextRound allowed
  let data ← s.withNumbers
  return (requestFor data number).players

/-- The numbers stay when the engine or the insert fails. -/
def generateRound (allowed : Bool) : Entrants × Except RequestError Unit :=
  match s.nextRound allowed with
  | .error error => (s, .error error)
  | .ok (number, engine) =>
      match s.withNumbers with
      | .error error => (s, .error error)
      | .ok data =>
          match engine (requestFor data number) with
          | .error error => ({ s with data := data }, .error (.arbiter (Section.pairingError error)))
          | .ok result =>
              match data.createRound number result with
              | .error error => ({ s with data := data }, .error error)
              | .ok after => ({ s with data := after }, .ok ())

end Entrants

/-- The desk moves by its own calls; registrations and withdrawals are not among them. -/
def deskMoves : Interleaving.Label DeskCall DeskEvent → Bool
  | .event (.register _ _) | .event (.change _ _) => false
  | _ => true

inductive EntrantLabel where
  | register (call : RegisterCall)
  | changeStatus (allowed : Bool) (status : TournamentStatus) (reason : Option String)
  | desk (label : Interleaving.Label DeskCall DeskEvent)
  | withdraw (allowed : Bool) (registrationId : PlayerId) (reason : String)
  | assignPairingNumbers
  | generateRound (allowed : Bool)
  | enterResult (call : ResultCall)
  | completeRound (allowed : Bool) (roundId : Nat)

/-- A tournament that nobody has entered. -/
structure Entrants.Initial (s : Entrants) : Prop where
  status : s.status = .draft
  stopped : s.data.inProgress = false
  registrations : s.data.registrations = []
  rounds : s.data.rounds = []
  desk : s.desk.shared.Initial
  calls : s.desk.inFlight = []

/-- A request that fails is a step that changes nothing, or only gives numbers. -/
def Entrants.step (surroundings : Surroundings) (s : Entrants) :
    EntrantLabel → Option Entrants
  | .register call => some ((s.register call).toOption.getD s)
  | .changeStatus allowed status reason =>
      some ((s.changeStatus allowed status reason).toOption.getD s)
  | .desk label =>
      if deskMoves label then
        ((registrationDesk surroundings).step s.desk label).map s.withDesk
      else none
  | .withdraw allowed registrationId reason => some (s.withdraw allowed registrationId reason)
  | .assignPairingNumbers =>
      match s.data.assignNumbers with
      | .error _ => some s
      | .ok (data, _) => some { s with data := data }
  | .generateRound allowed => some (s.generateRound allowed).1
  | .enterResult call => some { s with data := (s.data.enterResult call).1 }
  | .completeRound allowed roundId =>
      some { s with data := (s.data.completeRound allowed roundId).1 }

def entrants (surroundings : Surroundings) : System Entrants EntrantLabel :=
  ⟨Entrants.Initial, Entrants.step surroundings⟩

/-- Whoever is confirmed and has not left when a round is generated, is given to the engine. -/
def NobodyLeftOut (s : Entrants) (label : EntrantLabel) (_after : Entrants) : Prop :=
  match label with
  | .generateRound allowed => ∀ players, s.givenPlayers allowed = .ok players →
      ∀ r ∈ s.data.activeRegistrations, r.id ∈ players.map PlayerPairingState.playerId
  | _ => True

/-- A request that passes the checks for the next round finds the active players numbered
together. -/
def RoundsNumbered (s : Entrants) : EntrantLabel → Prop
  | .generateRound allowed => (s.nextRound allowed).isOk → s.data.NumberedTogether
  | _ => True

instance (s : Entrants) : (label : EntrantLabel) → Decidable (RoundsNumbered s label)
  | .generateRound allowed =>
      inferInstanceAs (Decidable ((s.nextRound allowed).isOk → s.data.NumberedTogether))
  | .register _ | .changeStatus _ _ _ | .desk _ | .withdraw _ _ _ | .assignPairingNumbers
  | .enterResult _ | .completeRound _ _ => .isTrue trivial

section Given

variable {s : Entrants}

theorem numberedRegistrations_ids {data : Section} {id : PlayerId} :
    id ∈ data.numberedRegistrations.map Registration.id ↔
      ∃ r ∈ data.registrations, r.pairingNumber.isSome ∧ r.id = id := by
  have numbered (r : Registration) : r ∈ data.numberedRegistrations ↔
      r ∈ data.registrations ∧ r.pairingNumber.isSome = true :=
    (List.perm_insertionSort _ _).mem_iff.trans List.mem_filter
  constructor
  · intro listed
    obtain ⟨r, here, same⟩ := List.mem_map.mp listed
    have kept := (numbered r).mp here
    exact ⟨r, kept.1, kept.2, same⟩
  · rintro ⟨r, here, number, same⟩
    exact List.mem_map.mpr ⟨r, (numbered r).mpr ⟨here, number⟩, same⟩

theorem active_listed {data : Section} {r : Registration} (active : r ∈ data.activeRegistrations) :
    r ∈ data.registrations := (List.mem_filter.mp active).1

theorem assignedNumber_listed {sorted : List Registration} {r : Registration}
    (listed : r ∈ sorted) : ∃ number, Section.assignedNumber sorted r.id = some number := by
  unfold Section.assignedNumber
  cases found : sorted.findIdx? fun other => other.id = r.id with
  | some index => exact ⟨_, rfl⟩
  | none =>
      have differs := List.findIdx?_eq_none_iff.mp found r listed
      simp at differs

/-- Whoever is active when numbers are given has one afterwards. -/
theorem assignPairingNumbers_active {data after : Section}
    (given : data.assignPairingNumbers = some after) {r : Registration}
    (active : r ∈ data.activeRegistrations) :
    r.id ∈ after.numberedRegistrations.map Registration.id := by
  unfold Section.assignPairingNumbers at given
  dsimp only at given
  split at given
  · cases given
  · cases given
    have listed := (List.perm_insertionSort (fun a b => Section.numberedBefore a b)
      data.activeRegistrations).mem_iff.mpr active
    obtain ⟨number, assigned⟩ := assignedNumber_listed listed
    apply numberedRegistrations_ids.mpr
    refine ⟨_, List.mem_map_of_mem (active_listed active), ?_, numberRegistration_id _ r⟩
    rw [Section.numberRegistration, assigned]
    rfl

theorem assignNumbers_active {data after : Section} {written : Bool}
    (unnumbered : ∀ r ∈ data.activeRegistrations, r.pairingNumber.isNone)
    (given : data.assignNumbers = .ok (after, written)) {r : Registration}
    (active : r ∈ data.activeRegistrations) :
    r.id ∈ after.numberedRegistrations.map Registration.id := by
  have none : (data.activeRegistrations.filter fun r => r.pairingNumber.isSome) = [] := by
    apply List.filter_eq_nil_iff.mpr
    intro other listed
    have without := unnumbered other listed
    simpa using without
  have some : 0 < data.activeRegistrations.length := List.length_pos_of_mem active
  unfold Section.assignNumbers at given
  dsimp only at given
  rw [none, List.length_nil, if_neg (by omega), if_neg (by omega)] at given
  split at given
  · cases given
  · rename_i numbered
    cases given
    exact assignPairingNumbers_active numbered active

theorem givenPlayers_ids {allowed : Bool} {players : List PlayerPairingState}
    (given : s.givenPlayers allowed = .ok players) :
    (s.nextRound allowed).isOk ∧ ∃ data, s.withNumbers = .ok data ∧
      players.map PlayerPairingState.playerId =
        data.numberedRegistrations.map Registration.id := by
  obtain ⟨⟨number, engine⟩, next, rest⟩ := Checked.bind_ok given
  obtain ⟨data, numbered, last⟩ := Checked.bind_ok rest
  cases last
  refine ⟨by rw [next]; rfl, data, numbered, ?_⟩
  exact pairingRequest_ids data number _ _

/-- The engine gets every active player exactly if they are numbered together. -/
theorem given_iff (distinct : (s.data.registrations.map Registration.id).Nodup) (allowed : Bool) :
    NobodyLeftOut s (.generateRound allowed) s ↔ RoundsNumbered s (.generateRound allowed) := by
  by_cases unnumbered : ∀ r ∈ s.data.activeRegistrations, r.pairingNumber.isNone
  · apply iff_of_true
    · intro players given r active
      obtain ⟨_, data, numbered, ids⟩ := givenPlayers_ids given
      rw [ids]
      rw [Entrants.withNumbers, if_pos (List.all_eq_true.mpr unnumbered)] at numbered
      cases assigned : s.data.assignNumbers with
      | error error =>
          rw [assigned] at numbered
          cases numbered
      | ok result =>
          rw [assigned] at numbered
          cases numbered
          exact assignNumbers_active unnumbered assigned active
    · intro _
      exact .inl unnumbered
  · have kept : s.withNumbers = .ok s.data := by
      rw [Entrants.withNumbers, if_neg]
      intro all
      exact unnumbered (List.all_eq_true.mp all)
    constructor
    · intro everyone next
      right
      intro r active
      cases here : s.nextRound allowed with
      | error error =>
          rw [here] at next
          cases next
      | ok plan =>
          have given : s.givenPlayers allowed = .ok (Entrants.requestFor s.data plan.1).players := by
            rw [Entrants.givenPlayers, here, Checked.ok_bind, kept]
            rfl
          have listed := everyone _ given r active
          rw [Entrants.requestFor, pairingRequest_ids] at listed
          obtain ⟨other, there, number, same⟩ := numberedRegistrations_ids.mp listed
          have equal := List.inj_on_of_nodup_map distinct there (active_listed active) same
          rw [← equal]
          exact number
    · intro together players given r active
      obtain ⟨next, data, numbered, ids⟩ := givenPlayers_ids given
      rw [kept] at numbered
      cases numbered
      rw [ids]
      rcases together next with none | all
      · exact (unnumbered none).elim
      · exact numberedRegistrations_ids.mpr ⟨r, active_listed active, all r active, rfl⟩

end Given

section Ids

variable {s : Entrants}

def Section.ids (data : Section) : List PlayerId := data.registrations.map Registration.id

theorem withdraw_ids (data : Section) (allowed : Bool) (registrationId : PlayerId)
    (reason : String) : (data.withdraw allowed registrationId reason).1.ids = data.ids := by
  unfold Section.withdraw
  split
  · rfl
  · split
    · rfl
    · split
      · rfl
      · split
        · rfl
        · unfold Section.ids
          rw [List.map_map]
          apply List.map_congr_left
          intro r _
          change (if r.id = registrationId then _ else r).id = r.id
          split <;> rfl

theorem enterResult_ids (data : Section) (call : ResultCall) :
    (data.enterResult call).1.ids = data.ids := by
  unfold Section.enterResult
  split
  · rfl
  · dsimp only
    repeat' split
    all_goals rfl

theorem completeRound_ids (data : Section) (allowed : Bool) (roundId : Nat) :
    (data.completeRound allowed roundId).1.ids = data.ids := by
  unfold Section.completeRound
  split
  · rfl
  · dsimp only
    repeat' split
    all_goals rfl

theorem createRound_ids {data after : Section} {number : Nat} {result : PairingResult}
    (created : data.createRound number result = .ok after) : after.ids = data.ids := by
  unfold Section.createRound at created
  split at created
  · cases created
  · cases created
    rfl

theorem withNumbers_ids {data : Section} (numbered : s.withNumbers = .ok data) :
    data.ids = s.data.ids := by
  unfold Entrants.withNumbers at numbered
  split at numbered
  · cases given : s.data.assignNumbers with
    | error error =>
        rw [given] at numbered
        cases numbered
    | ok result =>
        rw [given] at numbered
        cases numbered
        exact (assignNumbers_keeps given).2.2
  · cases numbered
    rfl

theorem generateRound_ids (allowed : Bool) : (s.generateRound allowed).1.data.ids = s.data.ids := by
  unfold Entrants.generateRound
  split
  · rfl
  · split
    · rfl
    · rename_i data numbered
      have same := withNumbers_ids numbered
      split
      · exact same
      · split
        · exact same
        · rename_i created
          exact (createRound_ids created).trans same

theorem register_ids {call : RegisterCall} {t : Entrants} (done : s.register call = .ok t) :
    call.id ∉ s.data.ids ∧ t.data.ids = s.data.ids ++ [call.id] := by
  unfold Entrants.register at done
  repeat' split at done
  all_goals cases done
  rename_i fresh
  constructor
  · intro listed
    obtain ⟨r, here, same⟩ := List.mem_map.mp listed
    exact fresh (List.any_eq_true.mpr ⟨r, here, decide_eq_true same⟩)
  · exact List.map_append

theorem changeStatus_ids {allowed : Bool} {status : TournamentStatus} {reason : Option String}
    {t : Entrants} (done : s.changeStatus allowed status reason = .ok t) :
    t.data.ids = s.data.ids := by
  unfold Entrants.changeStatus at done
  repeat' split at done
  all_goals cases done
  rfl

theorem withDesk_ids (desk : Pool Desk DeskCall) : (s.withDesk desk).data.ids = s.data.ids := by
  unfold Entrants.withDesk Section.ids
  rw [List.map_map]
  rfl

/-- No step gives an id twice. -/
theorem step_distinct {surroundings : Surroundings} {label : EntrantLabel} {t : Entrants}
    (distinct : s.data.ids.Nodup) (taken : s.step surroundings label = some t) :
    t.data.ids.Nodup := by
  cases label with
  | register call =>
      cases taken
      cases done : s.register call with
      | error error => exact distinct
      | ok after =>
          obtain ⟨fresh, ids⟩ := register_ids done
          change after.data.ids.Nodup
          rw [ids, ← List.concat_eq_append]
          exact distinct.concat fresh
  | changeStatus allowed status reason =>
      cases taken
      cases done : s.changeStatus allowed status reason with
      | error error => exact distinct
      | ok after =>
          change after.data.ids.Nodup
          rw [changeStatus_ids done]
          exact distinct
  | desk label =>
      rw [Entrants.step] at taken
      split at taken
      · obtain ⟨desk, _, rfl⟩ := Option.map_eq_some_iff.mp taken
        rw [withDesk_ids]
        exact distinct
      · cases taken
  | withdraw allowed registrationId reason =>
      cases taken
      have ids := withdraw_ids s.data allowed registrationId reason
      unfold Entrants.withdraw
      split
      · exact distinct
      · rename_i data left
        rw [left] at ids
        change data.ids.Nodup
        rw [ids]
        exact distinct
  | assignPairingNumbers =>
      rw [Entrants.step] at taken
      split at taken
      · cases taken
        exact distinct
      · rename_i data written given
        cases taken
        change data.ids.Nodup
        rw [Section.ids, (assignNumbers_keeps given).2.2]
        exact distinct
  | generateRound allowed =>
      cases taken
      rw [generateRound_ids]
      exact distinct
  | enterResult call =>
      cases taken
      change (s.data.enterResult call).1.ids.Nodup
      rw [enterResult_ids]
      exact distinct
  | completeRound allowed roundId =>
      cases taken
      change (s.data.completeRound allowed roundId).1.ids.Nodup
      rw [completeRound_ids]
      exact distinct

end Ids

/-- In a run from a tournament that nobody has entered, the engine is given every confirmed player
who has not left whenever a round is generated, if and only if the active players are numbered
together each time. -/
theorem nobody_left_out_iff (surroundings : Surroundings) (s t : Entrants)
    (labels : List EntrantLabel) (initial : s.Initial)
    (ran : (entrants surroundings).run s labels = some t) :
    System.EveryStep (entrants surroundings) NobodyLeftOut s labels ↔
      System.Guarded RoundsNumbered (entrants surroundings) s labels := by
  apply System.everyStep_iff_guarded (fun s => s.data.ids.Nodup) _ _ s t labels ran
  · rw [Section.ids, initial.registrations]
    exact List.nodup_nil
  · intro s label t distinct taken
    exact step_distinct distinct taken
  · intro s label t distinct _
    cases label with
    | generateRound allowed => exact given_iff distinct allowed
    | register | changeStatus | desk | withdraw | assignPairingNumbers | enterResult
    | completeRound => exact Iff.rfl

section Runs

def noEntrants : Entrants where
  status := .draft
  data := { id := "A", inProgress := false, totalRounds := 2, registrations := [], rounds := [],
            nextId := 0 }
  pairingSystem := .doubleRoundRobin
  maxPlayers := some 4
  desk := ⟨Billing.emptyDesk, []⟩

theorem noEntrants_initial : noEntrants.Initial := ⟨rfl, rfl, rfl, rfl, ⟨rfl, rfl, rfl, rfl⟩, rfl⟩

def entered (id : PlayerId) : EntrantLabel :=
  .register ⟨true, true, id, { Billing.someTerms with playerId := id }, some (2000 - id), id⟩

/-- An invoice for the registration, paid in cash. -/
def invoiced (id : PlayerId) (key : String) : List (Interleaving.Label DeskCall DeskEvent) :=
  [.arrive (.createInvoice id id id), .advance 0, .advance 0, .advance 0] ++
    Billing.payInCash id id key

def paid (id : PlayerId) (key : String) : List EntrantLabel := (invoiced id key).map .desk

/-- Three players enter. -/
def opened : List EntrantLabel :=
  [.changeStatus true .registrationOpen none, entered 1, entered 2, entered 3]

def started : List EntrantLabel :=
  [.changeStatus true .registrationClosed none, .changeStatus true .inProgress none,
    .generateRound true]

/-- Two of three players pay in time, and the third pays when the first round is over. -/
def paidLate : List EntrantLabel :=
  opened ++ paid 1 "first" ++ paid 2 "second" ++ started ++
    [.enterResult (drawn 1), .completeRound true 0] ++ paid 3 "third"

/-- All three pay in time, and one of them leaves. -/
def paidInTime : List EntrantLabel :=
  opened ++ paid 1 "first" ++ paid 2 "second" ++ paid 3 "third" ++ started ++
    [.enterResult (drawn 1), .withdraw true 3 "kasallik", .completeRound true 0,
      .generateRound true]

/-- The second round is created for two of three confirmed players. -/
theorem late_payer_left_out :
    ((entrants Billing.cashDesk).run noEntrants (paidLate ++ [.generateRound true])).map
        (fun t => t.data.rounds.length) = some 2 ∧
      ¬ System.EveryStep (entrants Billing.cashDesk) NobodyLeftOut noEntrants
        (paidLate ++ [.generateRound true]) := by
  refine ⟨by decide +kernel, fun every => ?_⟩
  have late : ((entrants Billing.cashDesk).run noEntrants paidLate).map (fun s =>
      (s.data.activeRegistrations.map Registration.id, (s.givenPlayers true).toOption.map
        fun players => players.map PlayerPairingState.playerId)) =
      some ([1, 2, 3], some [1, 2]) := by decide +kernel
  obtain ⟨s, ran, same⟩ := Option.map_eq_some_iff.mp late
  obtain ⟨active, given⟩ := Prod.mk.inj same
  have everyone : NobodyLeftOut s (.generateRound true) (s.generateRound true).1 :=
    every.last ran rfl
  cases called : s.givenPlayers true with
  | error error =>
      rw [called] at given
      cases given
  | ok players =>
      rw [called] at given
      have ids : players.map PlayerPairingState.playerId = [1, 2] := Option.some.inj given
      have third : 3 ∈ s.data.activeRegistrations.map Registration.id := by rw [active]; decide
      obtain ⟨r, listed, number⟩ := List.mem_map.mp third
      have member := everyone players called r listed
      rw [ids, number] at member
      revert member
      decide

theorem paidInTime_all : System.EveryStep (entrants Billing.cashDesk) NobodyLeftOut noEntrants
    paidInTime := by
  have ends : ((entrants Billing.cashDesk).run noEntrants paidInTime).map
      (fun t => t.data.rounds.length) = some 2 := by decide +kernel
  obtain ⟨t, ran, _⟩ := Option.map_eq_some_iff.mp ends
  exact (nobody_left_out_iff Billing.cashDesk noEntrants t paidInTime noEntrants_initial ran).mpr
    (by decide +kernel)

end Runs

end Farzin.Arbiter
