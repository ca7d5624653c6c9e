import Farzin.FairPlayDecisions

set_option autoImplicit false

/- Fair-play sanctions are human decisions, whatever requests meet at a case. -/
namespace Farzin.FairPlay

open Interleaving Transition

/-- Ids are fresh, nothing is decided in an active case, and an appeal is against a decision. -/
structure Commission.Sound (s : Commission) : Prop where
  caseIds : Table.Unique Case.id s.cases
  appealIds : Table.Unique Appeal.id s.appeals
  caseBelow : ∀ c ∈ s.cases, c.id < s.nextId
  appealBelow : ∀ a ∈ s.appeals, a.id < s.nextId
  decidedBelow : ∀ id ∈ s.decidedCases, id < s.nextId
  answeredBelow : ∀ id ∈ s.decidedAppeals, id < s.nextId
  unset : ∀ c ∈ s.cases, c.status.isActive = true →
    c.reviewedBy = none ∧ c.sanctionUntil = none ∧ c.id ∉ s.decidedCases
  reviewed : ∀ c ∈ s.cases, c.status.isActive = false → c.Reviewed
  sanctioned : ∀ c ∈ s.cases, c.sanctionUntil ≠ none → c.status = .closedSanction
  caseOnce : s.decidedCases.Nodup
  waiting : ∀ a ∈ s.appeals, a.status.isActive = true →
    a.reviewedBy = none ∧ a.id ∉ s.decidedAppeals
  appealOnce : s.decidedAppeals.Nodup
  closed : ∀ a ∈ s.appeals, ∃ c ∈ s.cases, a.fairPlayCaseId = some c.id ∧
    c.status.isActive = false
  independent : ∀ a ∈ s.appeals, ∀ userId, a.reviewedBy = some userId →
    ∀ c ∈ s.cases, a.fairPlayCaseId = some c.id → c.reviewedBy ≠ some userId

def Commission.ClosedCase (s : Commission) (caseId : Nat) : Prop :=
  ∃ c ∈ s.cases, c.id = caseId ∧ c.status.isActive = false

/-- The case of an appeal was not decided by the one who decides on the appeal. -/
def Commission.Impartial (s : Commission) (input : DecideAppealInput) : Prop :=
  ∃ a ∈ s.appeals, a.id = input.appealId ∧
    ∀ c ∈ s.cases, a.fairPlayCaseId = some c.id → c.reviewedBy ≠ some input.actorUserId

/-- What the checks of a decision ensure. -/
structure DecideCaseInput.Justified (input : DecideCaseInput) : Prop where
  rationale : minRationaleLength ≤ utf16Length input.rationale
  sanction : input.sanctionUntil ≠ none → input.decision = .closedSanction

def CommissionCall.Sound (s : Commission) : CommissionCall → Prop
  | .readCase input | .writeDecision input _ => input.Justified
  | .checkAppeal request read => read.status.isActive = false → s.ClosedCase request.caseId
  | .findActiveAppeal input | .createAppeal input => s.ClosedCase input.caseId
  | .checkReviewer input caseId =>
      ∃ a ∈ s.appeals, a.id = input.appealId ∧ a.fairPlayCaseId = some caseId
  | .readAppeal input => s.Impartial input
  | .writeAnswer input appeal =>
      s.Impartial input ∧ ∀ caseId, appeal.fairPlayCaseId = some caseId → s.ClosedCase caseId
  | .recordSignals _ | .readSignals _ _ | .writeSignals _ _ _ | .decideCase _ | .submitAppeal _
  | .decideAppeal _ => True

section Stays

variable {s t u : Commission}

theorem Case.Later.refl (c : Case) : c.Later c := ⟨rfl, fun closed => ⟨closed, rfl, rfl, rfl⟩⟩

theorem Case.Later.trans {a b c : Case} (first : a.Later b) (second : b.Later c) : a.Later c := by
  refine ⟨second.1.trans first.1, fun closed => ?_⟩
  obtain ⟨still, reviewer, time, rationale⟩ := first.2 closed
  obtain ⟨last, sameReviewer, sameTime, sameRationale⟩ := second.2 still
  exact ⟨last, sameReviewer.trans reviewer, sameTime.trans time, sameRationale.trans rationale⟩

theorem Appeal.Later.refl (a : Appeal) : a.Later a := ⟨rfl, rfl, fun _ => rfl⟩

theorem Appeal.Later.trans {a b c : Appeal} (first : a.Later b) (second : b.Later c) :
    a.Later c := by
  refine ⟨second.1.trans first.1, second.2.1.trans first.2.1, fun closed => ?_⟩
  have same := first.2.2 closed
  rw [second.2.2 (by rw [same]; exact closed), same]

theorem Stays.refl (s : Commission) : Stays s s where
  cases c listed := ⟨c, listed, .refl c⟩
  appeals a listed := ⟨a, listed, .refl a⟩
  next := Nat.le_refl _

theorem Stays.trans (first : Stays s t) (second : Stays t u) : Stays s u where
  cases c listed := by
    obtain ⟨d, there, later⟩ := first.cases c listed
    obtain ⟨e, last, after⟩ := second.cases d there
    exact ⟨e, last, later.trans after⟩
  appeals a listed := by
    obtain ⟨b, there, later⟩ := first.appeals a listed
    obtain ⟨d, last, after⟩ := second.appeals b there
    exact ⟨d, last, later.trans after⟩
  next := Nat.le_trans first.next second.next

theorem Stays.closedCase (stays : Stays s t) {caseId : Nat} (closed : s.ClosedCase caseId) :
    t.ClosedCase caseId := by
  obtain ⟨c, listed, same, inactive⟩ := closed
  obtain ⟨later, there, id, kept⟩ := stays.cases c listed
  exact ⟨later, there, id.trans same, (kept inactive).1⟩

/-- The reviewer of a case that has been appealed against stays. -/
theorem Stays.fair (stays : Stays s t) (sound : s.Sound) (unique : Table.Unique Case.id t.cases)
    {input : DecideAppealInput} (fair : s.Impartial input) : t.Impartial input := by
  obtain ⟨a, listed, same, other⟩ := fair
  obtain ⟨later, there, id, subject, _⟩ := stays.appeals a listed
  refine ⟨later, there, id.trans same, fun c inside its => ?_⟩
  obtain ⟨d, known, of, inactive⟩ := sound.closed a listed
  obtain ⟨after, here, sameId, kept⟩ := stays.cases d known
  obtain ⟨_, reviewer, _⟩ := kept inactive
  have equal : c = after := by
    apply List.inj_on_of_nodup_map unique inside here
    rw [subject, of] at its
    rw [sameId]
    exact (Option.some.inj its).symm
  rw [equal, reviewer]
  exact other d known of

/-- What a request relies on stays true while others act. -/
theorem Stays.call (stays : Stays s t) (sound : s.Sound) (unique : Table.Unique Case.id t.cases)
    {call : CommissionCall} (own : call.Sound s) : call.Sound t := by
  cases call with
  | readCase | writeDecision => exact own
  | checkAppeal request read => exact fun closed => stays.closedCase (own closed)
  | findActiveAppeal | createAppeal => exact stays.closedCase own
  | checkReviewer input caseId =>
      obtain ⟨a, listed, same, subject⟩ := own
      obtain ⟨later, there, id, its, _⟩ := stays.appeals a listed
      exact ⟨later, there, id.trans same, its.trans subject⟩
  | readAppeal input => exact stays.fair sound unique own
  | writeAnswer input appeal =>
      exact ⟨stays.fair sound unique own.1, fun caseId its => stays.closedCase (own.2 _ its)⟩
  | recordSignals | readSignals | writeSignals | decideCase | submitAppeal | decideAppeal =>
      trivial

end Stays

section Rows

variable {s t : Commission}

theorem write_ok {entry : AuditEntry} (done : s.write entry = .ok t) :
    t = { s with audit := s.audit ++ [entry] } := by
  unfold Commission.write at done
  split at done
  · cases done
  · exact (Except.ok.inj done).symm

theorem noted_cases {entry : AuditEntry} : ({ s with audit := s.audit ++ [entry] } :
    Commission).decidedCases = s.decidedCases ++ entry.decidedCase.toList := by
  rw [Commission.decidedCases, List.filterMap_append]
  cases entry <;> rfl

theorem noted_appeals {entry : AuditEntry} : ({ s with audit := s.audit ++ [entry] } :
    Commission).decidedAppeals = s.decidedAppeals ++ entry.decidedAppeal.toList := by
  rw [Commission.decidedAppeals, List.filterMap_append]
  cases entry <;> rfl

/-- What a verdict tells of its case. -/
theorem same_verdict {c d : Case} (same : d.verdict = c.verdict) :
    (d.id = c.id ∧ d.status = c.status) ∧ d.reviewedBy = c.reviewedBy ∧
      d.reviewedAt = c.reviewedAt ∧ d.decisionRationale = c.decisionRationale ∧
        d.sanctionUntil = c.sanctionUntil := by
  obtain ⟨id, status, reviewer, time, rationale, sanction⟩ := Verdict.mk.inj same
  exact ⟨⟨id, status⟩, reviewer, time, rationale, sanction⟩

/-- What changes no verdict and no appeal keeps the invariant. -/
theorem Commission.Sound.of_same (sound : s.Sound)
    (verdicts : t.cases.map Case.verdict = s.cases.map Case.verdict)
    (appeals : t.appeals = s.appeals) (decided : t.decidedCases = s.decidedCases)
    (answered : t.decidedAppeals = s.decidedAppeals) (next : t.nextId = s.nextId) : t.Sound := by
  have before : ∀ c ∈ t.cases, ∃ d ∈ s.cases, d.verdict = c.verdict := by
    intro c listed
    have member : c.verdict ∈ s.cases.map Case.verdict := verdicts ▸ List.mem_map_of_mem listed
    exact List.mem_map.mp member
  have after : ∀ d ∈ s.cases, ∃ c ∈ t.cases, c.verdict = d.verdict := by
    intro d listed
    have member : d.verdict ∈ t.cases.map Case.verdict := verdicts ▸ List.mem_map_of_mem listed
    exact List.mem_map.mp member
  have ids : t.cases.map Case.id = s.cases.map Case.id := by
    have mapped := congrArg (List.map Verdict.id) verdicts
    rw [List.map_map, List.map_map] at mapped
    exact mapped
  constructor
  case caseIds =>
    rw [Table.Unique, ids]
    exact sound.caseIds
  case appealIds =>
    rw [appeals]
    exact sound.appealIds
  case caseBelow =>
    intro c listed
    obtain ⟨d, known, same⟩ := before c listed
    rw [next, ← (same_verdict same).1.1]
    exact sound.caseBelow d known
  case appealBelow =>
    rw [appeals, next]
    exact sound.appealBelow
  case decidedBelow =>
    rw [decided, next]
    exact sound.decidedBelow
  case answeredBelow =>
    rw [answered, next]
    exact sound.answeredBelow
  case unset =>
    intro c listed
    obtain ⟨d, known, same⟩ := before c listed
    obtain ⟨⟨id, status⟩, reviewer, _, _, sanction⟩ := same_verdict same
    rw [decided, ← id, ← status, ← reviewer, ← sanction]
    exact sound.unset d known
  case reviewed =>
    intro c listed
    obtain ⟨d, known, same⟩ := before c listed
    obtain ⟨⟨_, status⟩, reviewer, _, rationale, _⟩ := same_verdict same
    rw [Case.Reviewed, ← status, ← reviewer, ← rationale]
    exact sound.reviewed d known
  case sanctioned =>
    intro c listed
    obtain ⟨d, known, same⟩ := before c listed
    obtain ⟨⟨_, status⟩, _, _, _, sanction⟩ := same_verdict same
    rw [← status, ← sanction]
    exact sound.sanctioned d known
  case caseOnce =>
    rw [decided]
    exact sound.caseOnce
  case waiting =>
    rw [appeals, answered]
    exact sound.waiting
  case appealOnce =>
    rw [answered]
    exact sound.appealOnce
  case closed =>
    intro a listed
    rw [appeals] at listed
    obtain ⟨d, known, its, inactive⟩ := sound.closed a listed
    obtain ⟨c, there, same⟩ := after d known
    obtain ⟨⟨id, status⟩, _⟩ := same_verdict same
    rw [← id] at its
    rw [← status] at inactive
    exact ⟨c, there, its, inactive⟩
  case independent =>
    intro a listed userId answered c inside its
    rw [appeals] at listed
    obtain ⟨d, known, same⟩ := before c inside
    obtain ⟨⟨id, _⟩, reviewer, _⟩ := same_verdict same
    rw [← id] at its
    rw [← reviewer]
    exact sound.independent a listed userId answered d known its

theorem later_of_verdict {c d : Case} (same : d.verdict = c.verdict) : c.Later d := by
  obtain ⟨⟨id, status⟩, reviewer, time, rationale, _⟩ := same_verdict same
  refine ⟨id, fun closed => ⟨?_, reviewer, time, rationale⟩⟩
  rw [status]
  exact closed

end Rows

section Signals

variable {s : Commission}

theorem withSignals_verdicts (caseId : Nat) (fresh : List NewSignal) (aggregate : Option Rat) :
    (s.withSignals caseId fresh aggregate).cases.map Case.verdict = s.cases.map Case.verdict := by
  change (Table.updateWhere _ _ s.cases).map Case.verdict = _
  rw [Table.updateWhere, List.map_map]
  apply List.map_congr_left
  intro c _
  rw [Function.comp_apply]
  split <;> rfl

theorem newCase_sound (sound : s.Sound) (playerId : Nat) : (s.withCase playerId none).1.Sound where
  caseIds := sound.caseIds.added sound.caseBelow rfl
  appealIds := sound.appealIds
  caseBelow := Table.below_added sound.caseBelow rfl
  appealBelow a listed := Nat.lt_succ_of_lt (sound.appealBelow a listed)
  decidedBelow id listed := Nat.lt_succ_of_lt (sound.decidedBelow id listed)
  answeredBelow id listed := Nat.lt_succ_of_lt (sound.answeredBelow id listed)
  unset c listed active := by
    rcases List.mem_append.mp listed with old | new
    · exact sound.unset c old active
    · rw [List.mem_singleton.mp new]
      exact ⟨rfl, rfl, fun decided => Nat.lt_irrefl _ (sound.decidedBelow _ decided)⟩
  reviewed c listed inactive := by
    rcases List.mem_append.mp listed with old | new
    · exact sound.reviewed c old inactive
    · rw [List.mem_singleton.mp new] at inactive
      cases inactive
  sanctioned c listed sanction := by
    rcases List.mem_append.mp listed with old | new
    · exact sound.sanctioned c old sanction
    · rw [List.mem_singleton.mp new] at sanction
      exact absurd rfl sanction
  caseOnce := sound.caseOnce
  waiting := sound.waiting
  appealOnce := sound.appealOnce
  closed a listed := by
    obtain ⟨c, known, its⟩ := sound.closed a listed
    exact ⟨c, List.mem_append_left _ known, its⟩
  independent a listed userId answered c inside its := by
    rcases List.mem_append.mp inside with old | new
    · exact sound.independent a listed userId answered c old its
    · rw [List.mem_singleton.mp new]
      exact fun none => by cases none

theorem withCase_sound (sound : s.Sound) (playerId : Nat) (found : Option Nat) :
    (s.withCase playerId found).1.Sound := by
  cases found with
  | some caseId => exact sound
  | none => exact newCase_sound sound playerId

theorem withCase_verdicts (playerId : Nat) (found : Option Nat) :
    SameVerdicts s (s.withCase playerId found).1 := by
  cases found with
  | some caseId => exact .refl s
  | none =>
      refine ⟨rfl, [s.newCase playerId], rfl, fun c new => ?_⟩
      rw [List.mem_singleton.mp new]
      rfl

/-- The writes are those of a case, of signals, and of an audit row that decides nothing. -/
theorem recordSignals_ok {input : RecordSignalsInput} {found : Option Nat}
    {existing : List NewSignal} {t : Commission}
    (done : s.recordSignals input found existing = .ok t) :
    ∃ caseId fresh aggregate entry, entry.decidedCase = none ∧ entry.decidedAppeal = none ∧
      ((s.withCase input.playerId found).1.withSignals caseId fresh aggregate).write entry =
        .ok t := by
  unfold Commission.recordSignals at done
  dsimp only at done
  split at done
  · cases done
  · split at done
    · cases done
    · exact ⟨_, _, _, _, rfl, rfl, done⟩

theorem recordSignals_verdicts {input : RecordSignalsInput} {found : Option Nat}
    {existing : List NewSignal} {t : Commission}
    (done : s.recordSignals input found existing = .ok t) : SameVerdicts s t := by
  obtain ⟨caseId, fresh, aggregate, entry, _, _, written⟩ := recordSignals_ok done
  obtain ⟨appeals, opened, same, each⟩ := withCase_verdicts (s := s) input.playerId found
  rw [write_ok written]
  exact ⟨appeals, opened, (withSignals_verdicts caseId fresh aggregate).trans same, each⟩

theorem recordSignals_sound (sound : s.Sound) {input : RecordSignalsInput} {found : Option Nat}
    {existing : List NewSignal} {t : Commission}
    (done : s.recordSignals input found existing = .ok t) : t.Sound := by
  obtain ⟨caseId, fresh, aggregate, entry, noCase, noAppeal, written⟩ := recordSignals_ok done
  rw [write_ok written]
  apply (withCase_sound sound input.playerId found).of_same
  · exact withSignals_verdicts caseId fresh aggregate
  · rfl
  · rw [noted_cases, noCase]
    exact List.append_nil _
  · rw [noted_appeals, noAppeal]
    exact List.append_nil _
  · rfl

theorem recordSignals_stays {input : RecordSignalsInput} {found : Option Nat}
    {existing : List NewSignal} {t : Commission}
    (done : s.recordSignals input found existing = .ok t) : Stays s t := by
  obtain ⟨appeals, opened, same, _⟩ := recordSignals_verdicts done
  obtain ⟨caseId, fresh, aggregate, entry, _, _, written⟩ := recordSignals_ok done
  constructor
  · intro c listed
    have member : c.verdict ∈ t.cases.map Case.verdict := by
      rw [same]
      exact List.mem_map_of_mem (List.mem_append_left _ listed)
    obtain ⟨later, there, verdict⟩ := List.mem_map.mp member
    exact ⟨later, there, later_of_verdict verdict⟩
  · intro a listed
    rw [appeals]
    exact ⟨a, listed, .refl a⟩
  · rw [write_ok written]
    cases found with
    | some caseId => exact Nat.le_refl _
    | none => exact Nat.le_succ _

end Signals

section Decisions

variable {s : Commission} {input : DecideCaseInput}

theorem decideCase_ok {before : Case} {t : Commission} (done : s.decideCase input before = .ok t) :
    (∃ c ∈ s.cases, c.id = input.caseId ∧ c.status.isActive = true) ∧
      ∃ entry, entry.decidedCase = some input.caseId ∧ entry.decidedAppeal = none ∧
        (s.withDecision input).write entry = .ok t := by
  unfold Commission.decideCase at done
  split at done
  · cases done
  · rename_i counted
    refine ⟨?_, _, rfl, rfl, done⟩
    obtain ⟨c, listed, undecided⟩ := List.countP_pos_iff.mp (Nat.pos_of_ne_zero counted)
    have both := (Bool.and_eq_true _ _).mp undecided
    exact ⟨c, listed, of_decide_eq_true both.1, both.2⟩

/-- A case after a decision: either left alone, or the one that was decided. -/
theorem withDecision_mem {c : Case} (listed : c ∈ (s.withDecision input).cases) :
    (c ∈ s.cases ∧ (c.status.isActive = true → c.id ≠ input.caseId)) ∨
      ∃ d ∈ s.cases, d.id = input.caseId ∧ d.status.isActive = true ∧
        c = Commission.decideOn input s.now d := by
  obtain ⟨d, known, same⟩ := Table.mem_updateWhere.mp listed
  split at same
  · rename_i undecided
    have both := (Bool.and_eq_true _ _).mp undecided
    exact .inr ⟨d, known, of_decide_eq_true both.1, both.2, same⟩
  · rename_i goes
    rw [same]
    refine .inl ⟨known, fun active its => goes ?_⟩
    exact (Bool.and_eq_true _ _).mpr ⟨decide_eq_true its, active⟩

theorem decided_inactive (now : Int) (d : Case) :
    (Commission.decideOn input now d).status.isActive = false := by
  change input.decision.status.isActive = false
  cases input.decision <;> rfl

/-- Cases that have been decided before are left alone. -/
theorem withDecision_closed {c : Case} (listed : c ∈ s.cases) (inactive : c.status.isActive = false) :
    c ∈ (s.withDecision input).cases := by
  apply Table.mem_updateWhere.mpr
  refine ⟨c, listed, ?_⟩
  rw [if_neg]
  intro undecided
  have active := ((Bool.and_eq_true _ _).mp undecided).2
  rw [inactive] at active
  cases active

theorem withDecision_stays : Stays s (s.withDecision input) where
  cases c listed := by
    cases active : c.status.isActive with
    | false => exact ⟨c, withDecision_closed listed active, .refl c⟩
    | true =>
        refine ⟨_, Table.mem_updateWhere.mpr ⟨c, listed, rfl⟩, ?_, ?_⟩
        · split <;> rfl
        · intro closed
          rw [active] at closed
          cases closed
  appeals a listed := ⟨a, listed, .refl a⟩
  next := Nat.le_refl _

theorem decideCase_stays {before : Case} {t : Commission}
    (done : s.decideCase input before = .ok t) : Stays s t := by
  obtain ⟨_, entry, _, _, written⟩ := decideCase_ok done
  rw [write_ok written]
  have stays : Stays s (s.withDecision input) := withDecision_stays
  exact ⟨stays.cases, stays.appeals, stays.next⟩

/-- What a recorded decision leaves of the tables. -/
structure CaseDecided (s t : Commission) (input : DecideCaseInput) : Prop where
  cases : t.cases = (s.withDecision input).cases
  appeals : t.appeals = s.appeals
  next : t.nextId = s.nextId
  decidedCases : t.decidedCases = s.decidedCases ++ [input.caseId]
  decidedAppeals : t.decidedAppeals = s.decidedAppeals
  waited : ∃ c ∈ s.cases, c.id = input.caseId ∧ c.status.isActive = true

theorem decideCase_decided {before : Case} {t : Commission}
    (done : s.decideCase input before = .ok t) : CaseDecided s t input := by
  obtain ⟨waited, entry, one, none, written⟩ := decideCase_ok done
  have same := write_ok written
  constructor
  case cases => rw [same]
  case appeals =>
    rw [same]
    rfl
  case next =>
    rw [same]
    rfl
  case decidedCases =>
    rw [same, noted_cases, one]
    rfl
  case decidedAppeals =>
    rw [same, noted_appeals, none]
    exact List.append_nil _
  case waited => exact waited

section Decided

variable {t : Commission}

theorem CaseDecided.caseBelow (done : CaseDecided s t input) (sound : s.Sound)
    {c : Case} (listed : c ∈ t.cases) : c.id < t.nextId := by
  rw [done.cases] at listed
  rw [done.next]
  rcases withDecision_mem listed with ⟨same, _⟩ | ⟨d, same, _, _, rfl⟩
  · exact sound.caseBelow c same
  · exact sound.caseBelow d same

theorem CaseDecided.decidedBelow (done : CaseDecided s t input) (sound : s.Sound)
    {id : Nat} (listed : id ∈ t.decidedCases) : id < t.nextId := by
  rw [done.decidedCases] at listed
  rw [done.next]
  rcases List.mem_append.mp listed with before | last
  · exact sound.decidedBelow id before
  · obtain ⟨decided, known, its, _⟩ := done.waited
    rw [List.mem_singleton.mp last, ← its]
    exact sound.caseBelow decided known

theorem CaseDecided.first (done : CaseDecided s t input) (sound : s.Sound) :
    input.caseId ∉ s.decidedCases := by
  obtain ⟨decided, known, its, active⟩ := done.waited
  rw [← its]
  exact (sound.unset decided known active).2.2

theorem CaseDecided.unset (done : CaseDecided s t input) (sound : s.Sound)
    {c : Case} (listed : c ∈ t.cases) (still : c.status.isActive = true) :
    c.reviewedBy = none ∧ c.sanctionUntil = none ∧ c.id ∉ t.decidedCases := by
  rw [done.cases] at listed
  rcases withDecision_mem listed with ⟨same, other⟩ | ⟨d, _, _, _, rfl⟩
  · obtain ⟨reviewer, sanction, free⟩ := sound.unset c same still
    refine ⟨reviewer, sanction, ?_⟩
    rw [done.decidedCases, List.mem_append, List.mem_singleton]
    exact fun among => among.elim free (other still)
  · rw [decided_inactive] at still
    cases still

theorem CaseDecided.reviewed (done : CaseDecided s t input) (sound : s.Sound)
    (justified : input.Justified) {c : Case} (listed : c ∈ t.cases)
    (closed : c.status.isActive = false) : c.Reviewed := by
  rw [done.cases] at listed
  rcases withDecision_mem listed with ⟨same, _⟩ | ⟨d, _, _, _, rfl⟩
  · exact sound.reviewed c same closed
  · exact ⟨⟨_, rfl⟩, _, rfl, justified.rationale⟩

theorem CaseDecided.sanctioned (done : CaseDecided s t input) (sound : s.Sound)
    (justified : input.Justified) {c : Case} (listed : c ∈ t.cases)
    (sanction : c.sanctionUntil ≠ none) : c.status = .closedSanction := by
  rw [done.cases] at listed
  rcases withDecision_mem listed with ⟨same, _⟩ | ⟨d, _, _, _, rfl⟩
  · exact sound.sanctioned c same sanction
  · change input.decision.status = .closedSanction
    rw [justified.sanction sanction]
    rfl

theorem CaseDecided.closed (done : CaseDecided s t input) (sound : s.Sound)
    {a : Appeal} (listed : a ∈ t.appeals) :
    ∃ c ∈ t.cases, a.fairPlayCaseId = some c.id ∧ c.status.isActive = false := by
  rw [done.appeals] at listed
  obtain ⟨c, known, subject, inactive⟩ := sound.closed a listed
  rw [done.cases]
  exact ⟨c, withDecision_closed known inactive, subject, inactive⟩

/-- The case of an appeal was closed before, so its reviewer stays. -/
theorem CaseDecided.independent (done : CaseDecided s t input) (sound : s.Sound)
    {a : Appeal} (listed : a ∈ t.appeals) {userId : Nat}
    (answered : a.reviewedBy = some userId) {c : Case} (inside : c ∈ t.cases)
    (subject : a.fairPlayCaseId = some c.id) : c.reviewedBy ≠ some userId := by
  rw [done.appeals] at listed
  rw [done.cases] at inside
  rcases withDecision_mem inside with ⟨same, _⟩ | ⟨d, there, _, waiting, rfl⟩
  · exact sound.independent a listed userId answered c same subject
  · obtain ⟨e, stored, of, inactive⟩ := sound.closed a listed
    have equal : d = e := by
      apply List.inj_on_of_nodup_map sound.caseIds there stored
      rw [of] at subject
      exact (Option.some.inj subject).symm
    rw [equal, inactive] at waiting
    cases waiting

end Decided

theorem decideCase_sound (sound : s.Sound) (justified : input.Justified) {before : Case}
    {t : Commission} (written : s.decideCase input before = .ok t) : t.Sound := by
  have done := decideCase_decided written
  constructor
  case caseIds =>
    rw [done.cases]
    apply sound.caseIds.rewrite
    intro c _
    rfl
  case appealIds =>
    rw [done.appeals]
    exact sound.appealIds
  case caseBelow => exact fun c listed => done.caseBelow sound listed
  case appealBelow =>
    rw [done.appeals, done.next]
    exact sound.appealBelow
  case decidedBelow => exact fun id listed => done.decidedBelow sound listed
  case answeredBelow =>
    rw [done.decidedAppeals, done.next]
    exact sound.answeredBelow
  case unset => exact fun c listed still => done.unset sound listed still
  case reviewed => exact fun c listed closed => done.reviewed sound justified listed closed
  case sanctioned => exact fun c listed sanction => done.sanctioned sound justified listed sanction
  case caseOnce =>
    rw [done.decidedCases, ← List.concat_eq_append]
    exact sound.caseOnce.concat (done.first sound)
  case waiting =>
    rw [done.appeals, done.decidedAppeals]
    exact sound.waiting
  case appealOnce =>
    rw [done.decidedAppeals]
    exact sound.appealOnce
  case closed => exact fun a listed => done.closed sound listed
  case independent =>
    intro a listed userId answered c inside subject
    exact done.independent sound listed answered inside subject

end Decisions

section Appeals

variable {s : Commission}

theorem createAppeal_ok {input : CreateAppealInput} {t : Commission}
    (done : s.createAppeal input = .ok t) : ∃ entry, entry.decidedCase = none ∧
      entry.decidedAppeal = none ∧ (s.withAppeal input).write entry = .ok t :=
  ⟨_, rfl, rfl, done⟩

theorem createAppeal_stays {input : CreateAppealInput} {t : Commission}
    (done : s.createAppeal input = .ok t) : Stays s t := by
  obtain ⟨entry, _, _, written⟩ := createAppeal_ok done
  rw [write_ok written]
  constructor
  · intro c listed
    exact ⟨c, listed, .refl c⟩
  · intro a listed
    exact ⟨a, List.mem_append_left _ listed, .refl a⟩
  · exact Nat.le_succ _

theorem createAppeal_sound (sound : s.Sound) {input : CreateAppealInput}
    (subject : s.ClosedCase input.caseId) {t : Commission}
    (done : s.createAppeal input = .ok t) : t.Sound := by
  obtain ⟨entry, noCase, noAppeal, written⟩ := createAppeal_ok done
  have decided : t.decidedCases = s.decidedCases := by
    rw [write_ok written, noted_cases, noCase]
    exact List.append_nil _
  have answered : t.decidedAppeals = s.decidedAppeals := by
    rw [write_ok written, noted_appeals, noAppeal]
    exact List.append_nil _
  have rows : t.cases = s.cases ∧ t.appeals = s.appeals ++ [s.newAppeal input] ∧
      t.nextId = s.nextId + 1 := by
    rw [write_ok written]
    exact ⟨rfl, rfl, rfl⟩
  obtain ⟨cases, appeals, next⟩ := rows
  constructor
  case caseIds =>
    rw [cases]
    exact sound.caseIds
  case appealIds =>
    rw [appeals]
    exact sound.appealIds.added sound.appealBelow rfl
  case caseBelow =>
    rw [cases, next]
    exact fun c listed => Nat.lt_succ_of_lt (sound.caseBelow c listed)
  case appealBelow =>
    rw [appeals, next]
    exact Table.below_added sound.appealBelow rfl
  case decidedBelow =>
    rw [decided, next]
    exact fun id listed => Nat.lt_succ_of_lt (sound.decidedBelow id listed)
  case answeredBelow =>
    rw [answered, next]
    exact fun id listed => Nat.lt_succ_of_lt (sound.answeredBelow id listed)
  case unset =>
    rw [cases, decided]
    exact sound.unset
  case reviewed =>
    rw [cases]
    exact sound.reviewed
  case sanctioned =>
    rw [cases]
    exact sound.sanctioned
  case caseOnce =>
    rw [decided]
    exact sound.caseOnce
  case waiting =>
    intro a listed active
    rw [appeals] at listed
    rw [answered]
    rcases List.mem_append.mp listed with old | new
    · exact sound.waiting a old active
    · rw [List.mem_singleton.mp new]
      exact ⟨rfl, fun among => Nat.lt_irrefl _ (sound.answeredBelow _ among)⟩
  case appealOnce =>
    rw [answered]
    exact sound.appealOnce
  case closed =>
    intro a listed
    rw [appeals] at listed
    rw [cases]
    rcases List.mem_append.mp listed with old | new
    · exact sound.closed a old
    · obtain ⟨c, known, same, inactive⟩ := subject
      rw [List.mem_singleton.mp new]
      exact ⟨c, known, congrArg some same.symm, inactive⟩
  case independent =>
    intro a listed userId answered c inside its
    rw [appeals] at listed
    rw [cases] at inside
    rcases List.mem_append.mp listed with old | new
    · exact sound.independent a old userId answered c inside its
    · rw [List.mem_singleton.mp new] at answered
      cases answered

end Appeals

section Answers

variable {s : Commission} {input : DecideAppealInput}

theorem decideAppeal_ok {appeal : Appeal} {t : Commission}
    (done : s.decideAppeal input appeal = .ok t) :
    (∃ a ∈ s.appeals, a.id = input.appealId ∧ a.status.isActive = true) ∧
      ∃ entry, entry.decidedCase = none ∧ entry.decidedAppeal = some input.appealId ∧
        (s.withAnswer input (s.caseToLift input appeal)).write entry = .ok t := by
  unfold Commission.decideAppeal at done
  split at done
  · cases done
  · rename_i counted
    refine ⟨?_, _, rfl, rfl, done⟩
    obtain ⟨a, listed, pending⟩ := List.countP_pos_iff.mp (Nat.pos_of_ne_zero counted)
    have both := (Bool.and_eq_true _ _).mp pending
    exact ⟨a, listed, of_decide_eq_true both.1, both.2⟩

theorem withAnswer_mem {lifted : Option Case} {a : Appeal}
    (listed : a ∈ (s.withAnswer input lifted).appeals) :
    (a ∈ s.appeals ∧ (a.status.isActive = true → a.id ≠ input.appealId)) ∨
      ∃ b ∈ s.appeals, b.id = input.appealId ∧ a = Commission.answer input s.now b := by
  obtain ⟨b, known, same⟩ := Table.mem_updateWhere.mp listed
  split at same
  · rename_i pending
    have both := (Bool.and_eq_true _ _).mp pending
    exact .inr ⟨b, known, of_decide_eq_true both.1, same⟩
  · rename_i goes
    rw [same]
    refine .inl ⟨known, fun active its => goes ?_⟩
    exact (Bool.and_eq_true _ _).mpr ⟨decide_eq_true its, active⟩

theorem answered_inactive (now : Int) (b : Appeal) :
    (Commission.answer input now b).status.isActive = false := by
  change input.decision.status.isActive = false
  cases input.decision <;> rfl

/-- A case after an answer: as before, or without its sanction. -/
theorem withAnswer_cases (sound : s.Sound) {lifted : Option Case}
    (subject : ∀ found, lifted = some found → s.ClosedCase found.id) {c : Case}
    (listed : c ∈ (s.withAnswer input lifted).cases) :
    ∃ d ∈ s.cases, c = d ∨ (d.status.isActive = false ∧ c = Commission.liftSanction d) := by
  obtain ⟨d, known, same⟩ := Table.mem_updateWhere.mp listed
  refine ⟨d, known, ?_⟩
  split at same
  · rename_i its
    obtain ⟨found, there, id⟩ := Option.map_eq_some_iff.mp (of_decide_eq_true its)
    obtain ⟨e, stored, of, inactive⟩ := subject found there
    have equal : d = e := List.inj_on_of_nodup_map sound.caseIds known stored (by rw [of, id])
    refine .inr ⟨?_, same⟩
    rw [equal]
    exact inactive
  · exact .inl same

theorem caseToLift_subject {appeal : Appeal} {found : Case}
    (lifts : s.caseToLift input appeal = some found) :
    appeal.fairPlayCaseId = some found.id := by
  unfold Commission.caseToLift at lifts
  split at lifts
  · obtain ⟨caseId, its, there⟩ := Option.bind_eq_some_iff.mp lifts
    rw [its, Table.findUnique_key there]
  · cases lifts

theorem withAnswer_stays {lifted : Option Case} :
    Stays s (s.withAnswer input lifted) where
  cases c listed := by
    refine ⟨_, Table.mem_updateWhere.mpr ⟨c, listed, rfl⟩, ?_, fun inactive => ?_⟩
    · split <;> rfl
    · split
      · exact ⟨rfl, rfl, rfl, rfl⟩
      · exact ⟨inactive, rfl, rfl, rfl⟩
  appeals a listed := by
    refine ⟨_, Table.mem_updateWhere.mpr ⟨a, listed, rfl⟩, ?_, ?_, fun inactive => ?_⟩
    · split <;> rfl
    · split <;> rfl
    · rw [if_neg]
      intro pending
      have active := ((Bool.and_eq_true _ _).mp pending).2
      rw [inactive] at active
      cases active
  next := Nat.le_refl _

theorem decideAppeal_stays {appeal : Appeal} {t : Commission}
    (done : s.decideAppeal input appeal = .ok t) : Stays s t := by
  obtain ⟨_, entry, _, _, written⟩ := decideAppeal_ok done
  rw [write_ok written]
  have stays : Stays s (s.withAnswer input (s.caseToLift input appeal)) := withAnswer_stays
  exact ⟨stays.cases, stays.appeals, stays.next⟩

/-- What a recorded answer leaves of the tables, where `lifted` is the case it lifts. -/
structure AppealAnswered (s t : Commission) (input : DecideAppealInput) (lifted : Option Case) :
    Prop where
  cases : t.cases = (s.withAnswer input lifted).cases
  appeals : t.appeals = (s.withAnswer input lifted).appeals
  next : t.nextId = s.nextId
  decidedCases : t.decidedCases = s.decidedCases
  decidedAppeals : t.decidedAppeals = s.decidedAppeals ++ [input.appealId]
  waited : ∃ a ∈ s.appeals, a.id = input.appealId ∧ a.status.isActive = true
  subject : ∀ found, lifted = some found → s.ClosedCase found.id

theorem decideAppeal_answered {appeal : Appeal}
    (subject : ∀ caseId, appeal.fairPlayCaseId = some caseId → s.ClosedCase caseId)
    {t : Commission} (done : s.decideAppeal input appeal = .ok t) :
    AppealAnswered s t input (s.caseToLift input appeal) := by
  obtain ⟨waited, entry, none, one, written⟩ := decideAppeal_ok done
  have same := write_ok written
  constructor
  case cases => rw [same]
  case appeals => rw [same]
  case next =>
    rw [same]
    rfl
  case decidedCases =>
    rw [same, noted_cases, none]
    exact List.append_nil _
  case decidedAppeals =>
    rw [same, noted_appeals, one]
    rfl
  case waited => exact waited
  case subject => exact fun found lifts => subject _ (caseToLift_subject lifts)

section Answered

variable {t : Commission} {lifted : Option Case}

theorem AppealAnswered.before (done : AppealAnswered s t input lifted) (sound : s.Sound)
    {c : Case} (listed : c ∈ t.cases) : ∃ d ∈ s.cases,
      c = d ∨ (d.status.isActive = false ∧ c = Commission.liftSanction d) := by
  rw [done.cases] at listed
  exact withAnswer_cases sound done.subject listed

theorem AppealAnswered.caseBelow (done : AppealAnswered s t input lifted) (sound : s.Sound)
    {c : Case} (listed : c ∈ t.cases) : c.id < t.nextId := by
  rw [done.next]
  obtain ⟨d, same, rfl | ⟨_, rfl⟩⟩ := done.before sound listed
  · exact sound.caseBelow _ same
  · exact sound.caseBelow d same

theorem AppealAnswered.appealBelow (done : AppealAnswered s t input lifted) (sound : s.Sound)
    {a : Appeal} (listed : a ∈ t.appeals) : a.id < t.nextId := by
  rw [done.appeals] at listed
  rw [done.next]
  rcases withAnswer_mem listed with ⟨same, _⟩ | ⟨b, same, _, rfl⟩
  · exact sound.appealBelow a same
  · exact sound.appealBelow b same

theorem AppealAnswered.answeredBelow (done : AppealAnswered s t input lifted) (sound : s.Sound)
    {id : Nat} (listed : id ∈ t.decidedAppeals) : id < t.nextId := by
  rw [done.decidedAppeals] at listed
  rw [done.next]
  rcases List.mem_append.mp listed with earlier | last
  · exact sound.answeredBelow id earlier
  · obtain ⟨answered, known, its, _⟩ := done.waited
    rw [List.mem_singleton.mp last, ← its]
    exact sound.appealBelow answered known

theorem AppealAnswered.unset (done : AppealAnswered s t input lifted) (sound : s.Sound)
    {c : Case} (listed : c ∈ t.cases) (still : c.status.isActive = true) :
    c.reviewedBy = none ∧ c.sanctionUntil = none ∧ c.id ∉ t.decidedCases := by
  rw [done.decidedCases]
  obtain ⟨d, same, rfl | ⟨_, rfl⟩⟩ := done.before sound listed
  · exact sound.unset _ same still
  · cases still

theorem AppealAnswered.reviewed (done : AppealAnswered s t input lifted) (sound : s.Sound)
    {c : Case} (listed : c ∈ t.cases) (closed : c.status.isActive = false) : c.Reviewed := by
  obtain ⟨d, same, rfl | ⟨inactive, rfl⟩⟩ := done.before sound listed
  · exact sound.reviewed _ same closed
  · exact sound.reviewed d same inactive

theorem AppealAnswered.sanctioned (done : AppealAnswered s t input lifted) (sound : s.Sound)
    {c : Case} (listed : c ∈ t.cases) (sanction : c.sanctionUntil ≠ none) :
    c.status = .closedSanction := by
  obtain ⟨d, same, rfl | ⟨_, rfl⟩⟩ := done.before sound listed
  · exact sound.sanctioned _ same sanction
  · exact absurd rfl sanction

theorem AppealAnswered.first (done : AppealAnswered s t input lifted) (sound : s.Sound) :
    input.appealId ∉ s.decidedAppeals := by
  obtain ⟨answered, known, its, active⟩ := done.waited
  rw [← its]
  exact (sound.waiting answered known active).2

theorem AppealAnswered.waiting (done : AppealAnswered s t input lifted) (sound : s.Sound)
    {a : Appeal} (listed : a ∈ t.appeals) (still : a.status.isActive = true) :
    a.reviewedBy = none ∧ a.id ∉ t.decidedAppeals := by
  rw [done.appeals] at listed
  rcases withAnswer_mem listed with ⟨same, other⟩ | ⟨b, _, _, rfl⟩
  · obtain ⟨reviewer, free⟩ := sound.waiting a same still
    refine ⟨reviewer, ?_⟩
    rw [done.decidedAppeals, List.mem_append, List.mem_singleton]
    exact fun among => among.elim free (other still)
  · rw [answered_inactive] at still
    cases still

/-- An answer leaves the subject of every appeal, and closed cases stay closed. -/
theorem AppealAnswered.closed (done : AppealAnswered s t input lifted) (sound : s.Sound)
    {a : Appeal} (listed : a ∈ t.appeals) :
    ∃ c ∈ t.cases, a.fairPlayCaseId = some c.id ∧ c.status.isActive = false := by
  have of : ∃ b ∈ s.appeals, a.fairPlayCaseId = b.fairPlayCaseId := by
    rw [done.appeals] at listed
    rcases withAnswer_mem listed with ⟨same, _⟩ | ⟨b, same, _, rfl⟩
    · exact ⟨a, same, rfl⟩
    · exact ⟨b, same, rfl⟩
  obtain ⟨b, same, of⟩ := of
  obtain ⟨c, stored, about, inactive⟩ := sound.closed b same
  have stays : Stays s (s.withAnswer input lifted) := withAnswer_stays
  obtain ⟨later, there, id, kept⟩ := stays.cases c stored
  rw [done.cases]
  exact ⟨later, there, by rw [of, about, id], (kept inactive).1⟩

theorem AppealAnswered.independent (done : AppealAnswered s t input lifted) (sound : s.Sound)
    (fair : s.Impartial input) {a : Appeal} (listed : a ∈ t.appeals) {userId : Nat}
    (answered : a.reviewedBy = some userId) {c : Case} (inside : c ∈ t.cases)
    (subject : a.fairPlayCaseId = some c.id) : c.reviewedBy ≠ some userId := by
  have same : ∃ d ∈ s.cases, d.id = c.id ∧ d.reviewedBy = c.reviewedBy := by
    obtain ⟨d, same, rfl | ⟨_, rfl⟩⟩ := done.before sound inside
    · exact ⟨_, same, rfl, rfl⟩
    · exact ⟨d, same, rfl, rfl⟩
  obtain ⟨d, stored, id, reviewer⟩ := same
  rw [← id] at subject
  rw [← reviewer]
  rw [done.appeals] at listed
  rcases withAnswer_mem listed with ⟨there, _⟩ | ⟨b, there, bId, rfl⟩
  · exact sound.independent a there userId answered d stored subject
  · obtain ⟨e, appealed, eId, other⟩ := fair
    have equal : b = e := List.inj_on_of_nodup_map sound.appealIds there appealed
      (bId.trans eId.symm)
    rw [← Option.some.inj answered]
    rw [equal] at subject
    exact other d stored subject

end Answered

theorem decideAppeal_sound (sound : s.Sound) {appeal : Appeal} (fair : s.Impartial input)
    (subject : ∀ caseId, appeal.fairPlayCaseId = some caseId → s.ClosedCase caseId)
    {t : Commission} (written : s.decideAppeal input appeal = .ok t) : t.Sound := by
  have done := decideAppeal_answered subject written
  constructor
  case caseIds =>
    rw [done.cases]
    apply sound.caseIds.update
    intro c
    rfl
  case appealIds =>
    rw [done.appeals]
    apply sound.appealIds.update
    intro a
    rfl
  case caseBelow => exact fun c listed => done.caseBelow sound listed
  case appealBelow => exact fun a listed => done.appealBelow sound listed
  case decidedBelow =>
    rw [done.decidedCases, done.next]
    exact sound.decidedBelow
  case answeredBelow => exact fun id listed => done.answeredBelow sound listed
  case unset => exact fun c listed still => done.unset sound listed still
  case reviewed => exact fun c listed closed => done.reviewed sound listed closed
  case sanctioned => exact fun c listed sanction => done.sanctioned sound listed sanction
  case caseOnce =>
    rw [done.decidedCases]
    exact sound.caseOnce
  case waiting => exact fun a listed still => done.waiting sound listed still
  case appealOnce =>
    rw [done.decidedAppeals, ← List.concat_eq_append]
    exact sound.appealOnce.concat (done.first sound)
  case closed => exact fun a listed => done.closed sound listed
  case independent =>
    intro a listed userId answered c inside subject
    exact done.independent sound fair listed answered inside subject

end Answers

section Program

variable {s : Commission}

theorem commit_cases (done : Except FairPlayError Commission) :
    (s.commit done).1 = s ∨ done = .ok (s.commit done).1 := by
  cases done with
  | error error => exact .inl rfl
  | ok after => exact .inr rfl

theorem commit_ends (done : Except FairPlayError Commission) : (s.commit done).2 = none := by
  cases done <;> rfl

theorem advance_kept {call : CommissionCall} (sound : s.Sound) (own : call.Sound s) :
    (s.advance call).1.Sound ∧ Stays s (s.advance call).1 := by
  have idle : s.Sound ∧ Stays s s := ⟨sound, .refl s⟩
  cases call with
  | recordSignals | readSignals | readCase | submitAppeal | readAppeal => exact idle
  | decideCase | checkAppeal | findActiveAppeal | checkReviewer | decideAppeal =>
      rw [Commission.advance]
      repeat' split
      all_goals exact idle
  | writeSignals input found existing =>
      rw [Commission.advance]
      rcases commit_cases (s := s) (s.recordSignals input found existing) with same | done
      · rw [same]
        exact idle
      · exact ⟨recordSignals_sound sound done, recordSignals_stays done⟩
  | writeDecision input before =>
      rw [Commission.advance]
      rcases commit_cases (s := s) (s.decideCase input before) with same | done
      · rw [same]
        exact idle
      · exact ⟨decideCase_sound sound own done, decideCase_stays done⟩
  | createAppeal input =>
      rw [Commission.advance]
      rcases commit_cases (s := s) (s.createAppeal input) with same | done
      · rw [same]
        exact idle
      · exact ⟨createAppeal_sound sound own done, createAppeal_stays done⟩
  | writeAnswer input appeal =>
      rw [Commission.advance]
      rcases commit_cases (s := s) (s.decideAppeal input appeal) with same | done
      · rw [same]
        exact idle
      · exact ⟨decideAppeal_sound sound own.1 own.2 done, decideAppeal_stays done⟩

theorem check_justified {request : CaseRequest} {now : Int} {input : DecideCaseInput}
    (ok : request.check now = .ok input) : input.Justified := by
  unfold CaseRequest.check at ok
  dsimp only at ok
  split at ok
  · cases ok
  · split at ok
    · cases ok
    · rename_i long
      have enough := Nat.le_of_not_lt long
      split at ok
      · rename_i sanction
        split at ok
        · cases ok
        · cases ok
        · split at ok
          · cases ok
          · cases ok
            exact ⟨enough, fun _ => sanction⟩
      · split at ok
        · cases ok
        · cases ok
          exact ⟨enough, fun none => absurd rfl none⟩

theorem check_closed {request : AppealRequest} {now : Int} {c : Case} {input : CreateAppealInput}
    (ok : request.check now c = .ok input) :
    input.caseId = request.caseId ∧ c.status.isActive = false := by
  unfold AppealRequest.check at ok
  dsimp only at ok
  split at ok
  · cases ok
  · split at ok
    · cases ok
    · rename_i decided
      split at ok
      · cases ok
      · cases ok
        refine ⟨rfl, ?_⟩
        cases status : c.status <;> simp_all [CaseStatus.isActive]

theorem check_appealId {request : AnswerRequest} {input : DecideAppealInput}
    (ok : request.check = .ok input) : input.appealId = request.appealId := by
  unfold AnswerRequest.check at ok
  dsimp only at ok
  split at ok
  · cases ok
  · split at ok
    · cases ok
    · cases ok
      rfl

/-- What a request has established when it comes to its next await. -/
theorem advance_sound {call rest : CommissionCall} (sound : s.Sound) (own : call.Sound s)
    (goes : (s.advance call).2 = some rest) : rest.Sound (s.advance call).1 := by
  cases call with
  | recordSignals | readSignals =>
      cases goes
      trivial
  | decideCase request =>
      rw [Commission.advance] at goes ⊢
      split at goes
      · cases goes
      · split at goes
        · cases goes
        · rename_i input ok
          cases goes
          exact check_justified ok
  | readCase input =>
      obtain ⟨c, _, rfl⟩ := Option.map_eq_some_iff.mp goes
      exact own
  | submitAppeal request =>
      obtain ⟨c, found, rfl⟩ := Option.map_eq_some_iff.mp goes
      exact fun closed => ⟨c, Table.findUnique_mem found, Table.findUnique_key found, closed⟩
  | checkAppeal request read =>
      rw [Commission.advance] at goes ⊢
      split at goes
      · cases goes
      · rename_i input ok
        cases goes
        obtain ⟨same, closed⟩ := check_closed ok
        change s.ClosedCase input.caseId
        rw [same]
        exact own closed
  | findActiveAppeal input =>
      rw [Commission.advance] at goes ⊢
      split at goes
      · cases goes
      · cases goes
        exact own
  | decideAppeal request =>
      rw [Commission.advance] at goes ⊢
      split at goes
      · cases goes
      · rename_i a found
        have listed := Table.findUnique_mem found
        have id := Table.findUnique_key found
        split at goes
        · cases goes
        · rename_i input ok
          have its : a.id = input.appealId := id.trans (check_appealId ok).symm
          split at goes
          · rename_i none
            cases goes
            refine ⟨a, listed, its, fun c _ subject => ?_⟩
            rw [none] at subject
            cases subject
          · rename_i caseId subject
            cases goes
            exact ⟨a, listed, its, subject⟩
  | checkReviewer input caseId =>
      obtain ⟨a, listed, its, subject⟩ := own
      rw [Commission.advance] at goes ⊢
      split at goes
      · rename_i none
        cases goes
        refine ⟨a, listed, its, fun c inside of => ?_⟩
        rw [subject] at of
        exact absurd (Option.some.inj of).symm (Table.findUnique_eq_none.mp none c inside)
      · rename_i found there
        split at goes
        · cases goes
        · rename_i other
          cases goes
          rw [if_neg other]
          refine ⟨a, listed, its, fun c inside of => ?_⟩
          rw [subject] at of
          have equal : c = found := by
            apply List.inj_on_of_nodup_map sound.caseIds inside (Table.findUnique_mem there)
            rw [Table.findUnique_key there]
            exact (Option.some.inj of).symm
          rw [equal]
          exact other
  | readAppeal input =>
      obtain ⟨a, found, rfl⟩ := Option.map_eq_some_iff.mp goes
      refine ⟨own, fun caseId its => ?_⟩
      obtain ⟨c, stored, subject, inactive⟩ := sound.closed a (Table.findUnique_mem found)
      rw [its] at subject
      exact ⟨c, stored, (Option.some.inj subject).symm, inactive⟩
  | writeSignals | writeDecision | createAppeal | writeAnswer =>
      rw [Commission.advance, commit_ends] at goes
      cases goes

theorem Commission.Initial.sound (initial : s.Initial) : s.Sound := by
  have decided : s.decidedCases = [] := by rw [Commission.decidedCases, initial.audit]; rfl
  have answered : s.decidedAppeals = [] := by rw [Commission.decidedAppeals, initial.audit]; rfl
  constructor
  all_goals simp [Table.Unique, initial.cases, initial.appeals, decided, answered]

end Program

theorem commission_outline :
    Outline commission (fun _ _ => True) Commission.Sound fun s call => call.Sound s where
  starts _ initial := initial.sound
  enters s call _ arrives := by
    cases call with
    | recordSignals | decideCase | submitAppeal | decideAppeal => trivial
    | readSignals | writeSignals | readCase | writeDecision | checkAppeal | findActiveAppeal
    | createAppeal | checkReviewer | readAppeal | writeAnswer => cases arrives
  acts _ _ sound own _ := (advance_kept sound own).1
  continues _ _ _ sound own _ goes := advance_sound sound own goes
  stable _ _ _ sound own _ other := by
    obtain ⟨after, stays⟩ := advance_kept sound own
    exact stays.call sound after.caseIds other
  events s ms t sound happened := by
    cases happened
    refine ⟨sound.of_same rfl rfl rfl rfl rfl, fun other own => ?_⟩
    have stays : Stays s { s with now := s.now + ms } :=
      ⟨(Stays.refl s).cases, (Stays.refl s).appeals, Nat.le_refl _⟩
    exact stays.call sound sound.caseIds own

theorem Commission.Sound.humanDecisions {s : Commission} (sound : s.Sound) : s.HumanDecisions where
  sanctions c listed sanction := by
    have status := sound.sanctioned c listed sanction
    exact ⟨status, sound.reviewed c listed (by rw [status]; rfl)⟩
  caseOnce := sound.caseOnce
  appealOnce := sound.appealOnce
  independent := sound.independent

/-- Along a run nothing is decided anew. -/
theorem run_stays {pool later : Pool Commission CommissionCall}
    (reached : commission.system.Reachable pool)
    (steps : commission.system.Steps (fun _ _ => True) pool later) :
    Stays pool.shared later.shared := by
  apply commission_outline.along Stays Stays.refl (fun _ _ _ => Stays.trans) _ _ reached steps
  · intro s call sound own
    exact (advance_kept sound own).2
  · intro s ms t _ happened
    cases happened
    exact ⟨(Stays.refl s).cases, (Stays.refl s).appeals, Nat.le_refl _⟩

/-- The signals of any request leave every decision as it is. -/
theorem signals_only (s : Commission) {call : CommissionCall} (records : call.recordsSignals = true) :
    SameVerdicts s (s.advance call).1 := by
  cases call with
  | recordSignals | readSignals => exact .refl s
  | writeSignals input found existing =>
      rw [Commission.advance]
      rcases commit_cases (s := s) (s.recordSignals input found existing) with same | done
      · rw [same]
        exact .refl s
      · exact recordSignals_verdicts done
  | decideCase | readCase | writeDecision | submitAppeal | checkAppeal | findActiveAppeal
  | createAppeal | decideAppeal | checkReviewer | readAppeal | writeAnswer => cases records

/-- In every reachable state a sanction belongs to a case that a reviewer has closed with it and
with a rationale; a case and an appeal are decided at most once, and an appeal never by the
reviewer of its case; what has been decided stays; and signals change no decision. -/
theorem human_decisions (pool later : Pool Commission CommissionCall)
    (reached : commission.system.Reachable pool)
    (steps : commission.system.Steps (fun _ _ => True) pool later) :
    pool.shared.HumanDecisions ∧ Stays pool.shared later.shared ∧
      ∀ call, call.recordsSignals = true →
        SameVerdicts pool.shared (pool.shared.advance call).1 := by
  refine ⟨(commission_outline.always reached).1.humanDecisions, run_stays reached steps, ?_⟩
  intro call records
  exact signals_only pool.shared records

section Runs

def noCases : Commission := ⟨[], [], [], [], [], 0, 1⟩

theorem noCases_initial : commission.system.initial ⟨noCases, []⟩ := ⟨⟨rfl, rfl, rfl⟩, rfl⟩

def served (call : CommissionCall) (awaits : Nat) : List (Label CommissionCall Nat) :=
  .arrive call :: List.replicate awaits (.advance 0)

def reported : RecordSignalsInput :=
  ⟨7, some 3, [⟨.manualReport, 1 / 2, ⟨some 3, some 5⟩⟩], some 5⟩

/-- A player is reported, and two members of the commission decide at the same time. -/
def sanctionedRun : List (Label CommissionCall Nat) :=
  served (.recordSignals reported) 3 ++
    [.arrive (.decideCase
        ⟨true, 9, 1, .closedSanction, some "dvigatel bilan o'ynagan", some (some 100)⟩),
      .arrive (.decideCase ⟨true, 10, 1, .closedNoAction, some "dalillar yetarli emas", none⟩),
      .advance 0, .advance 0, .advance 0, .advance 0, .advance 0, .advance 0]

/-- The player appeals, and the other member upholds the appeal. -/
def upheldRun : List (Label CommissionCall Nat) :=
  served (.submitAppeal ⟨false, 20, some 7, 1, "rozi emasman"⟩) 4 ++
    served (.decideAppeal ⟨true, 10, 2, .upheld, some "dalillar yetarli emas edi"⟩) 4

theorem sanctionedRun_human : ∃ pool later,
    commission.system.run ⟨noCases, []⟩ sanctionedRun = some pool ∧
      commission.system.run pool upheldRun = some later ∧
        pool.shared.cases.map Case.sanctionUntil = [some 100] ∧
          later.shared.cases.map Case.sanctionUntil = [none] ∧
            pool.shared.HumanDecisions ∧ Stays pool.shared later.shared := by
  have ends : ((commission.system.run ⟨noCases, []⟩ sanctionedRun).bind fun pool =>
      (commission.system.run pool upheldRun).map fun later =>
        (pool.shared.cases.map Case.sanctionUntil, later.shared.cases.map Case.sanctionUntil)) =
      some ([some 100], [none]) := by decide +kernel
  obtain ⟨pool, ran, rest⟩ := Option.bind_eq_some_iff.mp ends
  obtain ⟨later, ranOn, same⟩ := Option.map_eq_some_iff.mp rest
  obtain ⟨sanction, lifted⟩ := Prod.mk.inj same
  have decisions := human_decisions pool later
    (System.run_reachable _ _ _ noCases_initial ran)
    (System.run_steps _ _ _ ranOn (System.guarded_always _ _))
  exact ⟨pool, later, ran, ranOn, sanction, lifted, decisions.1, decisions.2.1⟩

end Runs

end Farzin.FairPlay
