import Farzin.Interleaving
import Farzin.RatingPeriods
import Farzin.Table

set_option autoImplicit false

/- Fair-play cases with their signals and appeals (`modules/fairplay/fairplay.repository.ts`,
`modules/fairplay/fairplay.service.ts`), and the score that orders the queue of the commission
(`core/fairplay/suspicion-aggregation.ts`). Scores are rationals here. -/
namespace Farzin.FairPlay

open Rating (isTrimmed)

inductive SignalType where
  | engineCorrelation
  | timingAnomaly
  | ratingJump
  | browserFocusLoss
  | deviceFingerprint
  | multiAccount
  | manualReport
  deriving DecidableEq, Repr

def signalTypes : List SignalType :=
  [.engineCorrelation, .timingAnomaly, .ratingJump, .browserFocusLoss, .deviceFingerprint,
    .multiAccount, .manualReport]

/-- The weight 0 keeps a rating jump out of the score. -/
def SignalType.weight : SignalType → Rat
  | .engineCorrelation => 35 / 100
  | .timingAnomaly => 30 / 100
  | .manualReport => 15 / 100
  | .browserFocusLoss => 5 / 100
  | .deviceFingerprint => 5 / 100
  | .multiAccount => 10 / 100
  | .ratingJump => 0

def clamp01 (x : Rat) : Rat := max 0 (min 1 x)

/-- The strongest signal of a type. -/
def maxByKind (signals : List (SignalType × Rat)) (type : SignalType) : Option Rat :=
  ((signals.filter fun signal => signal.1 = type).map fun signal => clamp01 signal.2).max?

/-- The weighted mean of the strongest signals; `none` without any signal that has a weight. The
source computes it in doubles, so at a tie its last stored decimal can be another one. -/
def aggregateSuspicion (signals : List (SignalType × Rat)) : Option Rat :=
  let counted := signalTypes.filterMap fun type =>
    if type.weight ≤ 0 then none
    else (maxByKind signals type).map fun strength => (type.weight, strength)
  let weightSum := (counted.map Prod.fst).sum
  if weightSum = 0 then none
  else some (clamp01 ((counted.map fun c => c.1 * c.2).sum / weightSum))

/-- A column of four decimals; it rounds half away from zero. A sum of doubles may lie just beside
the tie that the exact sum hits, and is then rounded the other way. -/
def decimal4 (x : Rat) : Rat :=
  if 0 ≤ x then ⌊x * 10000 + 1 / 2⌋ / 10000 else -(⌊-x * 10000 + 1 / 2⌋ / 10000)

inductive CaseStatus where
  | opened
  | underReview
  | closedNoAction
  | closedWarning
  | closedSanction
  | appealed
  deriving DecidableEq, Repr

/-- The commission has not decided yet. -/
def CaseStatus.isActive : CaseStatus → Bool
  | .opened | .underReview => true
  | _ => false

inductive CaseDecision where
  | closedNoAction
  | closedWarning
  | closedSanction
  deriving DecidableEq, Repr

def CaseDecision.status : CaseDecision → CaseStatus
  | .closedNoAction => .closedNoAction
  | .closedWarning => .closedWarning
  | .closedSanction => .closedSanction

inductive AppealStatus where
  | submitted
  | underReview
  | upheld
  | rejected
  | withdrawn
  deriving DecidableEq, Repr

def AppealStatus.isActive : AppealStatus → Bool
  | .submitted | .underReview => true
  | _ => false

inductive AppealDecision where
  | upheld
  | rejected
  deriving DecidableEq, Repr

def AppealDecision.status : AppealDecision → AppealStatus
  | .upheld => .upheld
  | .rejected => .rejected

structure Case where
  id : Nat
  playerId : Nat
  status : CaseStatus
  aggregateScore : Option Rat
  reviewedBy : Option Nat
  reviewedAt : Option Int
  decisionRationale : Option String
  sanctionUntil : Option Int
  createdAt : Int
  deriving DecidableEq, Repr

/-- The fields of the evidence by which signals are told apart. -/
structure Evidence where
  gameId : Option Nat
  reporterUserId : Option Nat
  deriving DecidableEq, Repr

structure NewSignal where
  type : SignalType
  strength : Rat
  evidence : Evidence
  deriving DecidableEq, Repr

structure Signal where
  caseId : Nat
  signal : NewSignal
  deriving DecidableEq, Repr

structure Appeal where
  id : Nat
  playerId : Nat
  fairPlayCaseId : Option Nat
  status : AppealStatus
  reason : String
  reviewedBy : Option Nat
  reviewedAt : Option Int
  decision : Option String
  createdAt : Int
  deriving DecidableEq, Repr

/-- What the rows of the audit log say. -/
inductive AuditEntry where
  | signals (actorUserId : Option Nat) (caseId : Nat) (gameId : Option Nat)
      (newSignals : List NewSignal) (aggregateScore : Option Rat) (caseCreated : Bool)
  | decision (actorUserId caseId : Nat) (reason : String)
      (before after : CaseStatus × Option Int)
  | appealSubmitted (actorUserId appealId caseId : Nat)
  | appealDecision (actorUserId appealId : Nat) (reason : String) (after : AppealStatus)
      (caseChange : Option (Nat × Bool))
  deriving DecidableEq, Repr

/-- The reason that the audit log asks for. -/
def AuditEntry.reasonMissing : AuditEntry → Bool
  | .decision _ _ reason _ _ | .appealDecision _ _ reason _ _ => reason.toList.all isTrimmed
  | .signals .. | .appealSubmitted .. => false

/-- The outbox event of a new case. -/
structure FairPlayCaseOpened where
  caseId : Nat
  playerId : Nat
  deriving DecidableEq, Repr

structure Commission where
  cases : List Case
  signals : List Signal
  appeals : List Appeal
  audit : List AuditEntry
  outbox : List FairPlayCaseOpened
  now : Int
  nextId : Nat
  deriving DecidableEq, Repr

inductive FairPlayError where
  | notFound
  | rationaleRequired
  | sanctionUntilRequired
  | sanctionUntilInvalid
  | sanctionWithoutSanctionDecision
  | caseAlreadyDecided
  | appealNotAvailable (status : CaseStatus)
  | appealWindowClosed (deadline : Int)
  | activeAppealExists (appealId : Nat)
  | appealDecisionTextRequired
  | appealSameReviewer
  | appealAlreadyDecided
  | auditReasonRequired
  | numericOverflow
  deriving DecidableEq, Repr

structure RecordSignalsInput where
  playerId : Nat
  gameId : Option Nat
  signals : List NewSignal
  /-- `none` for the analysis of the system. -/
  actorUserId : Option Nat
  deriving DecidableEq, Repr

structure DecideCaseInput where
  caseId : Nat
  decision : CaseDecision
  rationale : String
  sanctionUntil : Option Int
  actorUserId : Nat
  deriving DecidableEq, Repr

structure CreateAppealInput where
  caseId : Nat
  playerId : Nat
  reason : String
  actorUserId : Nat
  deriving DecidableEq, Repr

structure DecideAppealInput where
  appealId : Nat
  decision : AppealDecision
  decisionText : String
  actorUserId : Nat
  deriving DecidableEq, Repr

namespace Commission

variable (s : Commission)

def findCaseById (id : Nat) : Option Case := Table.findUnique Case.id s.cases id

def findAppealById (id : Nat) : Option Appeal := Table.findUnique Appeal.id s.appeals id

/-- The latest active case of a player. -/
def findActiveCase (playerId : Nat) : Option Case :=
  let active := s.cases.filter fun c => c.playerId = playerId && c.status.isActive
  active.foldl (fun latest c => match latest with
    | none => some c
    | some best => if best.createdAt < c.createdAt then some c else some best) none

def findActiveAppealForCase (caseId : Nat) : Option Appeal :=
  s.appeals.find? fun a => a.fairPlayCaseId = some caseId && a.status.isActive

/-- A row of the audit log, in the transaction of what it is about. -/
def write (entry : AuditEntry) : Except FairPlayError Commission :=
  if entry.reasonMissing then .error .auditReasonRequired
  else .ok { s with audit := s.audit ++ [entry] }

/-- A new case is open, and nothing is decided in it. -/
def newCase (playerId : Nat) : Case where
  id := s.nextId
  playerId := playerId
  status := .opened
  aggregateScore := none
  reviewedBy := none
  reviewedAt := none
  decisionRationale := none
  sanctionUntil := none
  createdAt := s.now

end Commission

/-- A signal that its game has already given to the case, by the same reporter if it is a report. -/
def RecordSignalsInput.isKnown (input : RecordSignalsInput) (existing : List NewSignal)
    (signal : NewSignal) : Bool :=
  existing.any fun e => e.type = signal.type && e.evidence.gameId = input.gameId &&
    (signal.type ≠ .manualReport || e.evidence.reporterUserId = signal.evidence.reporterUserId)

def RecordSignalsInput.fresh (input : RecordSignalsInput) (existing : List NewSignal) :
    List NewSignal :=
  input.signals.filter fun signal => input.gameId.isNone || !input.isKnown existing signal

namespace Commission

variable (s : Commission)

/-- The case that the signals go to, inserted when there is none yet. -/
def withCase (playerId : Nat) (found : Option Nat) : Commission × Nat :=
  match found with
  | some caseId => (s, caseId)
  | none =>
      ({ s with
        cases := s.cases ++ [s.newCase playerId]
        outbox := s.outbox ++ [⟨s.nextId, playerId⟩]
        nextId := s.nextId + 1 }, s.nextId)

/-- Of a case, signals change the score only. -/
def withSignals (caseId : Nat) (fresh : List NewSignal) (aggregate : Option Rat) : Commission :=
  { s with
    signals := s.signals ++ fresh.map fun e =>
      ⟨caseId, { e with strength := decimal4 e.strength }⟩
    cases := Table.updateWhere (fun c => c.id = caseId)
      (fun c => { c with aggregateScore := aggregate.map decimal4 }) s.cases }

/-- The writes of `recordSignals`, for the case and its signals as they were read. -/
def recordSignals (input : RecordSignalsInput) (found : Option Nat) (existing : List NewSignal) :
    Except FairPlayError Commission :=
  let fresh := input.fresh existing
  let aggregate := aggregateSuspicion ((existing ++ fresh).map fun e => (e.type, e.strength))
  let (opened, caseId) := s.withCase input.playerId found
  if fresh.any fun e => 10 ≤ |decimal4 e.strength| then .error .numericOverflow
  else if (opened.findCaseById caseId).isNone then .error .notFound
  else (opened.withSignals caseId fresh aggregate).write
    (.signals input.actorUserId caseId input.gameId fresh aggregate found.isNone)

/-- The row that the conditional update of a decision looks for. -/
def undecided (caseId : Nat) (c : Case) : Bool := c.id = caseId && c.status.isActive

def decideOn (input : DecideCaseInput) (now : Int) (c : Case) : Case :=
  { c with
    status := input.decision.status
    reviewedBy := some input.actorUserId
    reviewedAt := some now
    decisionRationale := some input.rationale
    sanctionUntil := input.sanctionUntil }

def withDecision (input : DecideCaseInput) : Commission :=
  { s with cases := Table.updateWhere (undecided input.caseId) (decideOn input s.now) s.cases }

/-- The writes of `decideCase`, for the case as its transaction has read it. -/
def decideCase (input : DecideCaseInput) (before : Case) : Except FairPlayError Commission :=
  if s.cases.countP (undecided input.caseId) = 0 then .error .caseAlreadyDecided
  else (s.withDecision input).write
    (.decision input.actorUserId input.caseId input.rationale
      (before.status, before.sanctionUntil) (input.decision.status, input.sanctionUntil))

def newAppeal (input : CreateAppealInput) : Appeal where
  id := s.nextId
  playerId := input.playerId
  fairPlayCaseId := some input.caseId
  status := .submitted
  reason := input.reason
  reviewedBy := none
  reviewedAt := none
  decision := none
  createdAt := s.now

def withAppeal (input : CreateAppealInput) : Commission :=
  { s with appeals := s.appeals ++ [s.newAppeal input], nextId := s.nextId + 1 }

def createAppeal (input : CreateAppealInput) : Except FairPlayError Commission :=
  (s.withAppeal input).write (.appealSubmitted input.actorUserId s.nextId input.caseId)

def pending (appealId : Nat) (a : Appeal) : Bool := a.id = appealId && a.status.isActive

def answer (input : DecideAppealInput) (now : Int) (a : Appeal) : Appeal :=
  { a with
    status := input.decision.status
    decision := some input.decisionText
    reviewedBy := some input.actorUserId
    reviewedAt := some now }

/-- An appeal that is upheld ends the sanction. -/
def liftSanction (c : Case) : Case := { c with status := .appealed, sanctionUntil := none }

/-- The case that the decision on an appeal changes. -/
def caseToLift (input : DecideAppealInput) (appeal : Appeal) : Option Case :=
  match input.decision with
  | .upheld => appeal.fairPlayCaseId.bind s.findCaseById
  | .rejected => none

def withAnswer (input : DecideAppealInput) (lifted : Option Case) : Commission :=
  { s with
    appeals := Table.updateWhere (pending input.appealId) (answer input s.now) s.appeals
    cases := Table.updateWhere (fun c => (lifted.map Case.id) = some c.id) liftSanction s.cases }

/-- The writes of `decideAppeal`, for the appeal as its transaction has read it. -/
def decideAppeal (input : DecideAppealInput) (appeal : Appeal) : Except FairPlayError Commission :=
  if s.appeals.countP (pending input.appealId) = 0 then .error .appealAlreadyDecided
  else
    let lifted := s.caseToLift input appeal
    (s.withAnswer input lifted).write
      (.appealDecision input.actorUserId input.appealId input.decisionText input.decision.status
        (lifted.map fun found => (found.id, found.sanctionUntil.isSome)))

end Commission

end Farzin.FairPlay
