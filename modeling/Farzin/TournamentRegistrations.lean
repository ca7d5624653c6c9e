import Farzin.RatingPeriods
import Farzin.TournamentLifecycle
import Mathlib.Data.Rat.Floor

set_option autoImplicit false

/- The requests of `modules/tournament/tournament.service.ts` on tournaments, their sections and
the registrations there, cut at their awaits. What RBAC says of an actor comes with his request;
the other modules answer through their ports. The audit records are left out: nothing reads them
here. -/
namespace Farzin.Registrations

open Arbiter (EntrantError TournamentStatus)
open FairPlay (trim)
open Interleaving
open Rating (PlayEnvironment TimeCategory)
open Tournament (StatusRequest checkStatusChange)

structure TournamentRow where
  id : Nat
  slug : String
  clubId : Option Nat
  regionId : Option Nat
  federationId : Option Nat
  status : TournamentStatus
  startDate : Int
  endDate : Int
  entryFeeAmount : Option Int
  entryFeeCurrency : String
  deriving DecidableEq, Repr

structure SectionRow where
  id : Nat
  tournamentId : Nat
  name : String
  environment : PlayEnvironment
  timeCategory : TimeCategory
  maxPlayers : Option Nat
  deriving DecidableEq, Repr

structure RegistrationRow where
  id : Nat
  sectionId : Nat
  playerId : Nat
  ratingAtEntry : Option Int
  titleAtEntry : Option String
  isConfirmed : Bool
  isWithdrawn : Bool
  withdrawnReason : Option String
  invoiceId : Option Nat
  deriving DecidableEq, Repr

structure Db where
  tournaments : List TournamentRow
  sections : List SectionRow
  registrations : List RegistrationRow
  nextId : Nat
  deriving DecidableEq, Repr

structure PlayerSummary where
  id : Nat
  title : Option String
  deriving DecidableEq, Repr

structure OrgContext where
  clubId : Option Nat
  regionId : Option Nat
  federationId : Option Nat
  deriving DecidableEq, Repr

/-- `ORG_PORT`, `PLAYER_PORT` and `RATING_PORT`, as they answer at the moment. -/
structure Ports where
  findClubContext : Nat → Option OrgContext
  findRegionContext : Nat → Option OrgContext
  findPlayerById : Nat → Option PlayerSummary
  findSummaryByUserId : Nat → Option PlayerSummary
  getCurrentRating : Nat → PlayEnvironment → TimeCategory → Option Rat

/-- A domain error of the service, or one of the language or the database. -/
inductive TournamentError where
  | notFound (resource : String) (id : Option Nat)
  | businessRule (code message : String)
  | conflict (message : String)
  | typeError
  | outOfRange
  | uniqueViolation
  | recordNotFound
  deriving DecidableEq, Repr

/-- The code and the message of a `DomainError`. -/
def TournamentError.domain : TournamentError → Option (String × String)
  | .notFound resource _ => some ("NOT_FOUND", s!"{resource} topilmadi")
  | .businessRule code message => some (code, message)
  | .conflict message => some ("CONFLICT", message)
  | .typeError => none
  | .outOfRange => none
  | .uniqueViolation => none
  | .recordNotFound => none

/-- A field of a request body that may be left out, be null or have a value. -/
abbrev Field := Option (Option Int)

/-- `@IsOptional`, `@IsInt`, `@Min(0)`. -/
def admittedFee : Field → Bool
  | some (some amount) => decide (0 ≤ amount)
  | _ => true

structure CreateTournament where
  allowed : Bool
  slug : String
  clubId : Option Nat
  regionId : Option Nat
  federationId : Option Nat
  startDate : Int
  endDate : Int
  entryFeeAmount : Field
  deriving DecidableEq, Repr

structure UpdateTournament where
  startDate : Option Int
  endDate : Option Int
  entryFeeAmount : Field
  deriving DecidableEq, Repr

structure CreateSection where
  name : String
  environment : Option PlayEnvironment
  timeCategory : TimeCategory
  totalRounds : Int
  baseTimeSeconds : Int
  maxPlayers : Option Nat
  deriving DecidableEq, Repr

/-- Who registers whom, and where; without a target the actor himself. -/
structure Registrant where
  allowed : Bool
  actorUserId : Nat
  sectionId : Nat
  targetPlayerId : Option Nat
  deriving DecidableEq, Repr

/-- `ownAllowed` is what RBAC says when the registration is the actor's own. -/
structure Withdrawal where
  ownAllowed : Bool
  otherAllowed : Bool
  actorUserId : Nat
  registrationId : Nat
  reason : String
  deriving DecidableEq, Repr

structure CreateRegistration where
  sectionId : Nat
  playerId : Nat
  titleAtEntry : Option String
  ratingAtEntry : Option Int
  isConfirmed : Bool
  deriving DecidableEq, Repr

/-- `register` before its next await. It keeps how many registrations it has counted, if it has. -/
inductive RegisterStage where
  | findSection
  | findTournament (inSection : SectionRow)
  | findPlayer (inSection : SectionRow) (tournament : TournamentRow)
  | findRegistration (inSection : SectionRow) (tournament : TournamentRow) (player : PlayerSummary)
  | countActive (inSection : SectionRow) (most : Nat) (tournament : TournamentRow)
      (player : PlayerSummary)
  | readRating (inSection : SectionRow) (tournament : TournamentRow) (player : PlayerSummary)
      (counted : Option Nat)
  | create (input : CreateRegistration) (counted : Option Nat)
  deriving DecidableEq, Repr

/-- The result of `registerMany`. -/
structure BulkReport where
  registered : List Nat
  failed : List (Nat × String × String)
  requested : Nat
  deriving DecidableEq, Repr

/-- The loop of `registerMany`: whose turn it is, who is left, and the report so far. -/
structure Bulk where
  current : Nat
  remaining : List Nat
  report : BulkReport
  deriving DecidableEq, Repr

/-- A request before its next await. -/
inductive Call where
  | create (input : CreateTournament)
  | findSlug (input : CreateTournament) (context : OrgContext)
  | createTournament (input : CreateTournament) (context : OrgContext)
  | update (allowed : Bool) (id : Nat) (input : UpdateTournament)
  | updateTournament (id : Nat) (input : UpdateTournament)
  | changeStatus (id : Nat) (request : StatusRequest)
  | storeStatus (id : Nat) (status : TournamentStatus)
  | createSection (allowed : Bool) (tournamentId : Nat) (input : CreateSection)
  | listSections (tournamentId : Nat) (input : CreateSection)
  | insertSection (tournamentId : Nat) (input : CreateSection)
  | register (who : Registrant) (stage : RegisterStage) (bulk : Option Bulk)
  | registerMany (who : Registrant) (playerIds : List Nat)
  | withdraw (request : Withdrawal)
  | findSectionOf (request : Withdrawal) (registration : RegistrationRow)
  | findTournamentOf (request : Withdrawal) (registration : RegistrationRow)
      (inSection : SectionRow)
  | findOwnPlayer (request : Withdrawal) (registration : RegistrationRow)
  | withdrawRegistration (id : Nat) (reason : String)
  deriving DecidableEq, Repr

inductive Answer where
  | tournament (row : TournamentRow)
  | tournamentSection (row : SectionRow)
  | registration (row : RegistrationRow)
  | bulk (report : BulkReport)
  deriving DecidableEq, Repr

inductive Outcome where
  | next (call : Call)
  | answer (result : Except TournamentError Answer)

def Outcome.call : Outcome → Option Call
  | .next call => some call
  | .answer _ => none

/-- What one await writes; the last two are writes of billing. -/
inductive Write where
  | tournament (row : TournamentRow)
  | update (id : Nat) (input : UpdateTournament)
  | status (id : Nat) (status : TournamentStatus)
  | tournamentSection (row : SectionRow)
  | registration (row : RegistrationRow)
  | withdrawal (id : Nat) (reason : String)
  | confirmation (registrationId : Nat)
  | invoice (registrationId invoiceId : Nat)
  deriving DecidableEq, Repr

def TournamentRow.edit (row : TournamentRow) (input : UpdateTournament) : TournamentRow :=
  { row with
    startDate := input.startDate.getD row.startDate
    endDate := input.endDate.getD row.endDate
    entryFeeAmount := input.entryFeeAmount.getD row.entryFeeAmount }

def RegistrationRow.withdrawn (row : RegistrationRow) (reason : String) : RegistrationRow :=
  { row with
    isWithdrawn := true
    withdrawnReason := some reason }

namespace Db

variable (s : Db)

def findById (id : Nat) : Option TournamentRow := Table.findUnique TournamentRow.id s.tournaments id

def findSectionById (id : Nat) : Option SectionRow := Table.findUnique SectionRow.id s.sections id

def findRegistrationById (id : Nat) : Option RegistrationRow :=
  Table.findUnique RegistrationRow.id s.registrations id

def findRegistration (sectionId playerId : Nat) : Option RegistrationRow :=
  s.registrations.find? fun r => r.sectionId = sectionId && r.playerId = playerId

def countActiveRegistrations (sectionId : Nat) : Nat :=
  s.registrations.countP fun r => r.sectionId = sectionId && !r.isWithdrawn

def apply : Write → Db
  | .tournament row =>
      { s with
        tournaments := s.tournaments ++ [row]
        nextId := s.nextId + 1 }
  | .update id input =>
      { s with
        tournaments := Table.updateWhere (fun t => t.id = id) (·.edit input) s.tournaments }
  | .status id status =>
      { s with
        tournaments := Table.updateWhere (fun t => t.id = id) (fun t => { t with status })
          s.tournaments }
  | .tournamentSection row =>
      { s with
        sections := s.sections ++ [row]
        nextId := s.nextId + 1 }
  | .registration row =>
      { s with
        registrations := s.registrations ++ [row]
        nextId := s.nextId + 1 }
  | .withdrawal id reason =>
      { s with
        registrations := Table.updateWhere (fun r => r.id = id) (·.withdrawn reason)
          s.registrations }
  | .confirmation id =>
      { s with
        registrations := Table.updateWhere (fun r => r.id = id)
          (fun r => { r with isConfirmed := true }) s.registrations }
  | .invoice id invoiceId =>
      { s with
        registrations := Table.updateWhere (fun r => r.id = id)
          (fun r => { r with invoiceId := some invoiceId }) s.registrations }

/-- The billing context of a registration: what `findRegistrationBilling` of billing reads. -/
def findRegistrationBilling (registrationId : Nat) : Option Billing.RegistrationBillingView := do
  let r ← s.findRegistrationById registrationId
  let inSection ← s.findSectionById r.sectionId
  let t ← s.findById inSection.tournamentId
  return ⟨⟨r.id, r.invoiceId, r.isConfirmed⟩, ⟨r.playerId, r.isWithdrawn, t.id, t.entryFeeAmount,
    t.entryFeeCurrency, t.clubId, t.regionId, t.federationId⟩⟩

end Db

section Service

variable (s : Db) (ports : Ports)

def refuse (reason : TournamentError) : Option Write × Outcome := (none, .answer (.error reason))

def goOn (call : Call) : Option Write × Outcome := (none, .next call)

/-- A BIGINT column holds the amount. -/
def storableFee (amount : Option Int) : Bool := amount.all fun tiyin => decide (tiyin < 2 ^ 63)

/-- `resolveOrgContext`. -/
def resolveOrgContext (input : CreateTournament) : Except TournamentError OrgContext :=
  match input.clubId, input.regionId with
  | some clubId, _ =>
      match ports.findClubContext clubId with
      | none => .error (.notFound "Club" (some clubId))
      | some context => .ok context
  | none, some regionId =>
      match ports.findRegionContext regionId with
      | none => .error (.notFound "Region" (some regionId))
      | some context => .ok context
  | none, none => .ok ⟨none, none, input.federationId⟩

def create (input : CreateTournament) : Option Write × Outcome :=
  match resolveOrgContext ports input with
  | .error reason => refuse reason
  | .ok context =>
      if ¬input.allowed then refuse (.notFound "Tournament" none)
      else if input.endDate < input.startDate then
        refuse (.businessRule "INVALID_DATE_RANGE" "endDate startDate dan oldin")
      else goOn (.findSlug input context)

/-- `createTournament` of the repository. It turns every fee that is not left out into a BigInt,
which null is not. -/
def createTournament (input : CreateTournament) (context : OrgContext) : Option Write × Outcome :=
  if input.entryFeeAmount = some none then refuse .typeError
  else
    let row : TournamentRow :=
      { id := s.nextId
        slug := input.slug
        clubId := context.clubId
        regionId := context.regionId
        federationId := context.federationId
        status := .draft
        startDate := input.startDate
        endDate := input.endDate
        entryFeeAmount := input.entryFeeAmount.getD none
        entryFeeCurrency := "UZS" }
    if ¬storableFee row.entryFeeAmount then refuse .outOfRange
    else if s.tournaments.any fun t => t.slug = row.slug then refuse .uniqueViolation
    else (some (.tournament row), .answer (.ok (.tournament row)))

def update (allowed : Bool) (id : Nat) (input : UpdateTournament) : Option Write × Outcome :=
  match s.findById id with
  | none => refuse (.notFound "Tournament" (some id))
  | some t =>
      if ¬allowed then refuse (.notFound "Tournament" (some id))
      else if t.status ≠ .draft ∧ t.status ≠ .registrationOpen then
        refuse (.businessRule "TOURNAMENT_NOT_EDITABLE"
          "Turnir faqat DRAFT yoki REGISTRATION_OPEN holatida tahrirlanadi")
      else if input.endDate.getD t.endDate < input.startDate.getD t.startDate then
        refuse (.businessRule "INVALID_DATE_RANGE" "endDate startDate dan oldin")
      else goOn (.updateTournament id input)

/-- `updateTournament` of the repository: a fee of null takes the fee away. -/
def updateTournament (id : Nat) (input : UpdateTournament) : Option Write × Outcome :=
  match s.findById id with
  | none => refuse .recordNotFound
  | some t =>
      if ¬storableFee (t.edit input).entryFeeAmount then refuse .outOfRange
      else (some (.update id input), .answer (.ok (.tournament (t.edit input))))

def statusName : TournamentStatus → String
  | .draft => "DRAFT"
  | .registrationOpen => "REGISTRATION_OPEN"
  | .registrationClosed => "REGISTRATION_CLOSED"
  | .inProgress => "IN_PROGRESS"
  | .completed => "COMPLETED"
  | .cancelled => "CANCELLED"

def statusError (id : Nat) : EntrantError → TournamentError
  | .invalidStatusTransition source target => .businessRule "INVALID_STATUS_TRANSITION"
      s!"Turnir holati {statusName source} dan {statusName target} ga o'tkazilmaydi"
  | .cancelReasonRequired => .businessRule "CANCEL_REASON_REQUIRED"
      "Turnirni bekor qilish uchun sabab majburiy"
  | _ => .notFound "Tournament" (some id)

def changeStatus (id : Nat) (request : StatusRequest) : Option Write × Outcome :=
  match s.findById id with
  | none => refuse (.notFound "Tournament" (some id))
  | some t =>
      match checkStatusChange request t.status with
      | .error reason => refuse (statusError id reason)
      | .ok _ => goOn (.storeStatus id request.status)

def storeStatus (id : Nat) (status : TournamentStatus) : Option Write × Outcome :=
  match s.findById id with
  | none => refuse .recordNotFound
  | some t => (some (.status id status), .answer (.ok (.tournament { t with status })))

def createSection (allowed : Bool) (tournamentId : Nat) (input : CreateSection) :
    Option Write × Outcome :=
  match s.findById tournamentId with
  | none => refuse (.notFound "Tournament" (some tournamentId))
  | some t =>
      if ¬allowed then refuse (.notFound "Tournament" (some tournamentId))
      else if t.status ≠ .draft then
        refuse (.businessRule "SECTION_ONLY_IN_DRAFT"
          "Seksiya faqat DRAFT holatidagi turnirga qo'shiladi")
      else if input.totalRounds < 1 then
        refuse (.businessRule "INVALID_TOTAL_ROUNDS" "totalRounds kamida 1")
      else if input.baseTimeSeconds ≤ 0 then
        refuse (.businessRule "INVALID_BASE_TIME" "baseTimeSeconds musbat bo'lishi shart")
      else goOn (.listSections tournamentId input)

def Db.sectionNamed (tournamentId : Nat) (name : String) : Bool :=
  s.sections.any fun other => other.tournamentId = tournamentId && other.name = name

def insertSection (tournamentId : Nat) (input : CreateSection) : Option Write × Outcome :=
  let row : SectionRow :=
    { id := s.nextId
      tournamentId
      name := input.name
      environment := input.environment.getD .otb
      timeCategory := input.timeCategory
      maxPlayers := input.maxPlayers }
  if (s.findById tournamentId).isNone then refuse .recordNotFound
  else if s.sectionNamed tournamentId input.name then refuse .uniqueViolation
  else (some (.tournamentSection row), .answer (.ok (.tournamentSection row)))

/-- `register` goes on, or ends with what it writes. -/
inductive RegisterStep where
  | next (stage : RegisterStage)
  | done (write : Option Write) (result : Except TournamentError RegistrationRow)

def RegisterStep.refuse (reason : TournamentError) : RegisterStep := .done none (.error reason)

/-- A rating is rounded to the nearest integer, a half upwards. -/
def round (rating : Rat) : Int := ⌊rating + 1 / 2⌋

/-- What `register` does between two awaits. -/
def registerStep (who : Registrant) : RegisterStage → RegisterStep
  | .findSection =>
      match s.findSectionById who.sectionId with
      | none => .refuse (.notFound "TournamentSection" (some who.sectionId))
      | some inSection => .next (.findTournament inSection)
  | .findTournament inSection =>
      match s.findById inSection.tournamentId with
      | none => .refuse (.notFound "Tournament" (some inSection.tournamentId))
      | some t =>
          if ¬who.allowed then .refuse (.notFound "TournamentSection" (some who.sectionId))
          else if t.status ≠ .registrationOpen then
            .refuse (.businessRule "REGISTRATION_NOT_OPEN" "Turnirda ro'yxatga olish ochiq emas")
          else .next (.findPlayer inSection t)
  | .findPlayer inSection t =>
      let found := match who.targetPlayerId with
        | some playerId => ports.findPlayerById playerId
        | none => ports.findSummaryByUserId who.actorUserId
      match found with
      | none => .refuse (.notFound "Player" who.targetPlayerId)
      | some player => .next (.findRegistration inSection t player)
  | .findRegistration inSection t player =>
      match s.findRegistration who.sectionId player.id with
      | some _ => .refuse (.conflict "O'yinchi bu seksiyada allaqachon ro'yxatdan o'tgan")
      | none =>
          match inSection.maxPlayers with
          | some most => .next (.countActive inSection most t player)
          | none => .next (.readRating inSection t player none)
  | .countActive inSection most t player =>
      let active := s.countActiveRegistrations who.sectionId
      if most ≤ active then .refuse (.businessRule "SECTION_FULL" "Seksiya to'lgan")
      else .next (.readRating inSection t player (some active))
  | .readRating inSection t player counted =>
      let current := ports.getCurrentRating player.id inSection.environment inSection.timeCategory
      .next (.create
        { sectionId := who.sectionId
          playerId := player.id
          titleAtEntry := player.title
          ratingAtEntry := current.map round
          isConfirmed := t.entryFeeAmount.isNone } counted)
  | .create input _ =>
      if (s.findRegistration input.sectionId input.playerId).isSome then .refuse .uniqueViolation
      else if (s.findSectionById input.sectionId).isNone then .refuse .recordNotFound
      else
        let row : RegistrationRow :=
          { id := s.nextId
            sectionId := input.sectionId
            playerId := input.playerId
            ratingAtEntry := input.ratingAtEntry
            titleAtEntry := input.titleAtEntry
            isConfirmed := input.isConfirmed
            isWithdrawn := false
            withdrawnReason := none
            invoiceId := none }
        .done (some (.registration row)) (.ok row)

/-- The next turn of the loop of `registerMany`. -/
def nextPlayer (who : Registrant) (report : BulkReport) : List Nat → Outcome
  | [] => .answer (.ok (.bulk report))
  | playerId :: rest =>
      .next (.register { who with targetPlayerId := some playerId } .findSection
        (some ⟨playerId, rest, report⟩))

/-- The error that `registerMany` throws on: no section, or no permission. -/
def TournamentError.stopsBulk : TournamentError → Bool
  | .notFound resource _ => resource = "TournamentSection"
  | _ => false

/-- The end of a `register`, which inside `registerMany` only ends a turn of the loop. -/
def settle (who : Registrant) (result : Except TournamentError RegistrationRow) :
    Option Bulk → Outcome
  | none => .answer (result.map .registration)
  | some bulk =>
      match result with
      | .ok row =>
          nextPlayer who
            { bulk.report with registered := bulk.report.registered ++ [row.id] } bulk.remaining
      | .error reason =>
          if reason.stopsBulk then .answer (.error reason)
          else match reason.domain with
            | none => .answer (.error reason)
            | some (code, message) =>
                nextPlayer who
                  { bulk.report with
                    failed := bulk.report.failed ++ [(bulk.current, code, message)] }
                  bulk.remaining

def findOwnPlayer (request : Withdrawal) (registration : RegistrationRow) :
    Option Write × Outcome :=
  let isOwn := (ports.findSummaryByUserId request.actorUserId).any fun player =>
    player.id = registration.playerId
  let allowed := if isOwn then request.ownAllowed else request.otherAllowed
  if ¬allowed then refuse (.notFound "Registration" (some request.registrationId))
  else if registration.isWithdrawn then refuse (.conflict "Ro'yxat allaqachon chiqarilgan")
  else goOn (.withdrawRegistration request.registrationId (trim request.reason))

/-- What a request does between two awaits. -/
def act : Call → Option Write × Outcome
  | .create input => create ports input
  | .findSlug input context =>
      if s.tournaments.any fun t => t.slug = input.slug then refuse (.conflict "Bu slug band")
      else goOn (.createTournament input context)
  | .createTournament input context => createTournament s input context
  | .update allowed id input => update s allowed id input
  | .updateTournament id input => updateTournament s id input
  | .changeStatus id request => changeStatus s id request
  | .storeStatus id status => storeStatus s id status
  | .createSection allowed tournamentId input => createSection s allowed tournamentId input
  | .listSections tournamentId input =>
      if s.sectionNamed tournamentId input.name then
        refuse (.conflict "Bu nomdagi seksiya allaqachon bor")
      else goOn (.insertSection tournamentId input)
  | .insertSection tournamentId input => insertSection s tournamentId input
  | .register who stage bulk =>
      match registerStep s ports who stage with
      | .next stage => goOn (.register who stage bulk)
      | .done write result => (write, settle who result bulk)
  | .registerMany who playerIds =>
      (none, nextPlayer who ⟨[], [], playerIds.length⟩ playerIds.eraseDups)
  | .withdraw request =>
      if trim request.reason = "" then
        refuse (.businessRule "WITHDRAW_REASON_REQUIRED"
          "Ro'yxatdan chiqarish uchun sabab majburiy")
      else match s.findRegistrationById request.registrationId with
        | none => refuse (.notFound "Registration" (some request.registrationId))
        | some registration => goOn (.findSectionOf request registration)
  | .findSectionOf request registration =>
      match s.findSectionById registration.sectionId with
      | none => refuse (.notFound "Registration" (some request.registrationId))
      | some inSection => goOn (.findTournamentOf request registration inSection)
  | .findTournamentOf request registration inSection =>
      match s.findById inSection.tournamentId with
      | none => refuse (.notFound "Registration" (some request.registrationId))
      | some _ => goOn (.findOwnPlayer request registration)
  | .findOwnPlayer request registration => findOwnPlayer ports request registration
  | .withdrawRegistration id reason =>
      match s.findRegistrationById id with
      | none => refuse .recordNotFound
      | some r =>
          (some (.withdrawal id reason), .answer (.ok (.registration (r.withdrawn reason))))

end Service

structure Office where
  db : Db
  ports : Ports

inductive OfficeEvent where
  | ports (ports : Ports)
  | confirm (registrationId : Nat)
  | invoice (registrationId invoiceId : Nat)

def Office.write (s : Office) : Option Write → Office
  | none => s
  | some write => { s with db := s.db.apply write }

/-- Requests arrive as the validation of their bodies lets them in. -/
def office : Program Office Call OfficeEvent where
  initial s := s.db.tournaments = [] ∧ s.db.sections = [] ∧ s.db.registrations = []
  arrives _ call :=
    match call with
    | .create input => admittedFee input.entryFeeAmount
    | .update _ _ input => admittedFee input.entryFeeAmount
    | .changeStatus _ _ => true
    | .createSection _ _ input => input.maxPlayers.all fun most => decide (2 ≤ most)
    | .register _ .findSection none => true
    | .registerMany _ playerIds => decide (1 ≤ playerIds.length ∧ playerIds.length ≤ 200)
    | .withdraw _ => true
    | _ => false
  advance s call :=
    let (write, outcome) := act s.db s.ports call
    (s.write write, outcome.call)
  event s
    | .ports ports => some { s with ports }
    | .confirm id => some (s.write (some (.confirmation id)))
    | .invoice id invoiceId => some (s.write (some (.invoice id invoiceId)))

end Farzin.Registrations
