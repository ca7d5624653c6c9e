import Farzin.FairPlayCases

set_option autoImplicit false

/- The requests that meet at the fair-play cases: signals of the analysis and of reports, the
decisions of the commission, appeals and the decisions on them (`fairplay.service.ts` with the
transactions of `fairplay.repository.ts`), each cut at its awaits. A transaction reads first, and
its writes take effect together. -/
namespace Farzin.FairPlay

open Interleaving Transition
open Rating (isTrimmed)

def minRationaleLength : Nat := 20

def appealWindowMs : Int := 30 * 24 * 3600000

/-- `length` counts UTF-16 units. -/
def utf16Length (text : String) : Nat :=
  (text.toList.map fun c => if c.toNat < 0x10000 then 1 else 2).sum

def trim (text : String) : String :=
  String.ofList ((text.toList.dropWhile isTrimmed).reverse.dropWhile isTrimmed).reverse

/-- A decision as its controller passes it on. A date that cannot be read is `some none`. -/
structure CaseRequest where
  allowed : Bool
  userId : Nat
  caseId : Nat
  decision : CaseDecision
  rationale : Option String
  sanctionUntil : Option (Option Int)
  deriving DecidableEq, Repr

/-- The part of `decideCase` between its lookup and its transaction. -/
def CaseRequest.check (request : CaseRequest) (now : Int) : Except FairPlayError DecideCaseInput :=
  let rationale := trim (request.rationale.getD "")
  let input sanctionUntil : DecideCaseInput :=
    ⟨request.caseId, request.decision, rationale, sanctionUntil, request.userId⟩
  if ¬request.allowed then .error .notFound
  else if utf16Length rationale < minRationaleLength then .error .rationaleRequired
  else if request.decision = .closedSanction then
    match request.sanctionUntil with
    | none => .error .sanctionUntilRequired
    | some none => .error .sanctionUntilInvalid
    | some (some date) =>
        if date ≤ now then .error .sanctionUntilInvalid else .ok (input (some date))
  else if request.sanctionUntil.isSome then .error .sanctionWithoutSanctionDecision
  else .ok (input none)

/-- `me` is the player that the user is. -/
structure AppealRequest where
  mayCreate : Bool
  userId : Nat
  me : Option Nat
  caseId : Nat
  reason : String
  deriving DecidableEq, Repr

/-- The checks of `submitAppeal` on the case that it has read. -/
def AppealRequest.check (request : AppealRequest) (now : Int) (c : Case) :
    Except FairPlayError CreateAppealInput :=
  let deadline := c.reviewedAt.map fun reviewedAt => reviewedAt + appealWindowMs
  if ¬request.mayCreate ∧ request.me ≠ some c.playerId then .error .notFound
  else if c.status ≠ .closedWarning ∧ c.status ≠ .closedSanction then
    .error (.appealNotAvailable c.status)
  else if deadline.any fun deadline => deadline < now then
    .error (.appealWindowClosed (deadline.getD 0))
  else .ok ⟨request.caseId, c.playerId, trim request.reason, request.userId⟩

structure AnswerRequest where
  allowed : Bool
  userId : Nat
  appealId : Nat
  status : AppealDecision
  decision : Option String
  deriving DecidableEq, Repr

/-- The checks of `decideAppeal` that do not look at the case. -/
def AnswerRequest.check (request : AnswerRequest) : Except FairPlayError DecideAppealInput :=
  let decisionText := trim (request.decision.getD "")
  if ¬request.allowed then .error .notFound
  else if utf16Length decisionText < minRationaleLength then .error .appealDecisionTextRequired
  else .ok ⟨request.appealId, request.status, decisionText, request.userId⟩

/-- Where a request is, with what it has read so far. -/
inductive CommissionCall where
  | recordSignals (input : RecordSignalsInput)
  | readSignals (input : RecordSignalsInput) (found : Option Nat)
  | writeSignals (input : RecordSignalsInput) (found : Option Nat) (existing : List NewSignal)
  | decideCase (request : CaseRequest)
  | readCase (input : DecideCaseInput)
  | writeDecision (input : DecideCaseInput) (before : Case)
  | submitAppeal (request : AppealRequest)
  | checkAppeal (request : AppealRequest) (read : Case)
  | findActiveAppeal (input : CreateAppealInput)
  | createAppeal (input : CreateAppealInput)
  | decideAppeal (request : AnswerRequest)
  | checkReviewer (input : DecideAppealInput) (caseId : Nat)
  | readAppeal (input : DecideAppealInput)
  | writeAnswer (input : DecideAppealInput) (appeal : Appeal)
  deriving DecidableEq, Repr

def CommissionCall.isRequest : CommissionCall → Bool
  | .recordSignals _ | .decideCase _ | .submitAppeal _ | .decideAppeal _ => true
  | _ => false

/-- The awaits of `recordSignals`. -/
def CommissionCall.recordsSignals : CommissionCall → Bool
  | .recordSignals _ | .readSignals _ _ | .writeSignals _ _ _ => true
  | _ => false

namespace Commission

variable (s : Commission)

/-- A transaction that fails leaves nothing. -/
def commit (done : Except FairPlayError Commission) : Commission × Option CommissionCall :=
  match done with
  | .error _ => (s, none)
  | .ok after => (after, none)

def advance : CommissionCall → Commission × Option CommissionCall
  | .recordSignals input =>
      (s, some (.readSignals input ((s.findActiveCase input.playerId).map Case.id)))
  | .readSignals input found =>
      let existing := (s.signals.filter fun e => some e.caseId = found).map Signal.signal
      (s, some (.writeSignals input found existing))
  | .writeSignals input found existing => s.commit (s.recordSignals input found existing)
  | .decideCase request =>
      match s.findCaseById request.caseId with
      | none => (s, none)
      | some _ =>
          match request.check s.now with
          | .error _ => (s, none)
          | .ok input => (s, some (.readCase input))
  | .readCase input => (s, (s.findCaseById input.caseId).map (.writeDecision input))
  | .writeDecision input before => s.commit (s.decideCase input before)
  | .submitAppeal request => (s, (s.findCaseById request.caseId).map (.checkAppeal request))
  | .checkAppeal request read =>
      match request.check s.now read with
      | .error _ => (s, none)
      | .ok input => (s, some (.findActiveAppeal input))
  | .findActiveAppeal input =>
      match s.findActiveAppealForCase input.caseId with
      | some _ => (s, none)
      | none => (s, some (.createAppeal input))
  | .createAppeal input => s.commit (s.createAppeal input)
  | .decideAppeal request =>
      match s.findAppealById request.appealId with
      | none => (s, none)
      | some appeal =>
          match request.check with
          | .error _ => (s, none)
          | .ok input =>
              match appeal.fairPlayCaseId with
              | none => (s, some (.readAppeal input))
              | some caseId => (s, some (.checkReviewer input caseId))
  | .checkReviewer input caseId =>
      match s.findCaseById caseId with
      | none => (s, some (.readAppeal input))
      | some c =>
          if c.reviewedBy = some input.actorUserId then (s, none)
          else (s, some (.readAppeal input))
  | .readAppeal input => (s, (s.findAppealById input.appealId).map (.writeAnswer input))
  | .writeAnswer input appeal => s.commit (s.decideAppeal input appeal)

end Commission

/-- A commission without cases. -/
structure Commission.Initial (s : Commission) : Prop where
  cases : s.cases = []
  appeals : s.appeals = []
  audit : s.audit = []

/-- The event is the time that passes, in milliseconds. -/
def commission : Program Commission CommissionCall Nat where
  initial := Commission.Initial
  arrives _ call := call.isRequest
  advance := Commission.advance
  event s ms := some { s with now := s.now + ms }

/-- The cases that the audit log has decisions on, one entry for each decision. -/
def AuditEntry.decidedCase : AuditEntry → Option Nat
  | .decision _ caseId _ _ _ => some caseId
  | _ => none

def AuditEntry.decidedAppeal : AuditEntry → Option Nat
  | .appealDecision _ appealId _ _ _ => some appealId
  | _ => none

def Commission.decidedCases (s : Commission) : List Nat := s.audit.filterMap AuditEntry.decidedCase

def Commission.decidedAppeals (s : Commission) : List Nat :=
  s.audit.filterMap AuditEntry.decidedAppeal

/-- A reviewer, and a rationale that is long enough. -/
def Case.Reviewed (c : Case) : Prop :=
  (∃ userId, c.reviewedBy = some userId) ∧
    ∃ rationale, c.decisionRationale = some rationale ∧
      minRationaleLength ≤ utf16Length rationale

/-- Sanctions are human decisions, and nobody reviews an own decision. -/
structure Commission.HumanDecisions (s : Commission) : Prop where
  sanctions : ∀ c ∈ s.cases, c.sanctionUntil ≠ none → c.status = .closedSanction ∧ c.Reviewed
  caseOnce : s.decidedCases.Nodup
  appealOnce : s.decidedAppeals.Nodup
  independent : ∀ a ∈ s.appeals, ∀ userId, a.reviewedBy = some userId →
    ∀ c ∈ s.cases, a.fairPlayCaseId = some c.id → c.reviewedBy ≠ some userId

/-- What a case says about its decision. -/
structure Verdict where
  id : Nat
  status : CaseStatus
  reviewedBy : Option Nat
  reviewedAt : Option Int
  decisionRationale : Option String
  sanctionUntil : Option Int
  deriving DecidableEq, Repr

def Case.verdict (c : Case) : Verdict :=
  ⟨c.id, c.status, c.reviewedBy, c.reviewedAt, c.decisionRationale, c.sanctionUntil⟩

/-- No case is decided otherwise than before, new cases are open, and appeals stay as they are. -/
structure SameVerdicts (s t : Commission) : Prop where
  appeals : t.appeals = s.appeals
  cases : ∃ opened : List Case, t.cases.map Case.verdict = (s.cases ++ opened).map Case.verdict ∧
    ∀ c ∈ opened, c.verdict = ⟨c.id, .opened, none, none, none, none⟩

theorem SameVerdicts.refl (s : Commission) : SameVerdicts s s where
  appeals := rfl
  cases := ⟨[], by rw [List.append_nil], fun c none => by cases none⟩

/-- A decision on a case is not made again: a case that has been decided keeps its reviewer, its
time and its rationale. -/
def Case.Later (c later : Case) : Prop :=
  later.id = c.id ∧ (c.status.isActive = false → later.status.isActive = false ∧
    later.reviewedBy = c.reviewedBy ∧ later.reviewedAt = c.reviewedAt ∧
      later.decisionRationale = c.decisionRationale)

/-- A decision on an appeal is not made again. -/
def Appeal.Later (a later : Appeal) : Prop :=
  later.id = a.id ∧ later.fairPlayCaseId = a.fairPlayCaseId ∧
    (a.status.isActive = false → later = a)

/-- What has been decided stays. -/
structure Stays (s t : Commission) : Prop where
  cases : ∀ c ∈ s.cases, ∃ later ∈ t.cases, c.Later later
  appeals : ∀ a ∈ s.appeals, ∃ later ∈ t.appeals, a.Later later
  next : s.nextId ≤ t.nextId

end Farzin.FairPlay
