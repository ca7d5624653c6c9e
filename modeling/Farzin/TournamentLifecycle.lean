import Farzin.ArbiterEntrants
import Farzin.FairPlayDecisions
import Mathlib.Data.List.Chain
import Mathlib.Data.List.TakeWhile

set_option autoImplicit false

/- Requests that change the status of one tournament (`changeStatus` of
`modules/tournament/tournament.service.ts` and of `tournament.repository.ts`), any number of them
at once. -/
namespace Farzin.Tournament

open Arbiter (Entrants EntrantError TournamentStatus allowedTransitions canTransition)
open FairPlay (trim)
open Interleaving Transition
open Rating (isTrimmed)

/-- A request with what `writableFields` says of its actor. -/
structure StatusRequest where
  allowed : Bool
  status : TournamentStatus
  actorUserId : Nat
  reason : Option String
  deriving DecidableEq, Repr

/-- The audit record `tournament.status_changed`. -/
structure StatusChanged where
  actorUserId : Nat
  before : TournamentStatus
  after : TournamentStatus
  reason : Option String
  deriving DecidableEq, Repr

/-- The row of the tournament, with every status that has been stored in it, the last one last. -/
structure TournamentRow where
  status : TournamentStatus
  audit : List StatusChanged
  stored : List TournamentStatus
  deriving DecidableEq, Repr

/-- The checks of the service for the status it has read, with the reason it passes on. -/
def checkStatusChange (request : StatusRequest) (status : TournamentStatus) :
    Except EntrantError (Option String) :=
  if ¬request.allowed then .error .notFound
  else if ¬canTransition status request.status then
    .error (.invalidStatusTransition status request.status)
  else
    let trimmedReason := request.reason.map trim
    if request.status = .cancelled ∧ (trimmedReason = none ∨ trimmedReason = some "") then
      .error .cancelReasonRequired
    else .ok trimmedReason

/-- A request at its awaits: `findById`, then the two statements of the transaction. It keeps the
status that it has found. -/
inductive StatusCall where
  | find (request : StatusRequest)
  | readBefore (request : StatusRequest) (reason : Option String) (found : TournamentStatus)
  | update (request : StatusRequest) (reason : Option String) (found before : TournamentStatus)
  deriving DecidableEq, Repr

namespace TournamentRow

variable (s : TournamentRow)

def update (request : StatusRequest) (reason : Option String) (before : TournamentStatus) :
    TournamentRow where
  status := request.status
  audit := s.audit ++ [⟨request.actorUserId, before, request.status, reason⟩]
  stored := s.stored ++ [request.status]

def advance : StatusCall → TournamentRow × Option StatusCall
  | .find request =>
      match checkStatusChange request s.status with
      | .error _ => (s, none)
      | .ok reason => (s, some (.readBefore request reason s.status))
  | .readBefore request reason found => (s, some (.update request reason found s.status))
  | .update request reason _ before => (s.update request reason before, none)

/-- A tournament that no request has changed yet. -/
structure Initial : Prop where
  audit : s.audit = []
  stored : s.stored = [s.status]

/-- Each status that was stored came from the one before by an allowed transition, and none came
after a terminal one. -/
structure Lawful : Prop where
  allowed : s.stored.IsChain fun source target => canTransition source target
  terminal : ∀ before status after, s.stored = before ++ status :: after →
    allowedTransitions status = [] → after = []

/-- An update may only store what the machine allows from the status stored now. -/
def Permits : StatusCall → Prop
  | .update request _ _ _ => canTransition s.status request.status
  | _ => True

/-- No other request has changed the status since this one found it. -/
def Unchanged : StatusCall → Prop
  | .update _ _ found _ => s.status = found
  | _ => True

instance : (call : StatusCall) → Decidable (s.Unchanged call)
  | .find _ => .isTrue trivial
  | .readBefore _ _ _ => .isTrue trivial
  | .update _ _ found _ => inferInstanceAs (Decidable (s.status = found))

end TournamentRow

/-- The request has passed the checks for the status that it has found. -/
def StatusCall.Checked : StatusCall → Prop
  | .find _ => True
  | .readBefore request reason found | .update request reason found _ =>
      checkStatusChange request found = .ok reason

def statusRequests : Program TournamentRow StatusCall Empty where
  initial := TournamentRow.Initial
  arrives _ call := match call with
    | .find _ => true
    | _ => false
  advance := TournamentRow.advance
  event _ event := nomatch event

section Machine

theorem trim_eq_empty (text : String) : trim text = "" ↔ text.toList.all isTrimmed := by
  rw [trim, ← String.toList_inj, String.toList_ofList]
  constructor
  · intro empty
    have back : ((text.toList.dropWhile isTrimmed).reverse.dropWhile isTrimmed) = [] := by
      simpa using empty
    rw [List.dropWhile_eq_nil_iff] at back
    cases rest : text.toList.dropWhile isTrimmed with
    | nil => simpa using List.dropWhile_eq_nil_iff.mp rest
    | cons c others =>
        have present : text.toList.dropWhile isTrimmed ≠ [] := by simp [rest]
        have kept := List.head_dropWhile_not isTrimmed present
        have blank := back c (by simp [rest])
        simp only [rest, List.head_cons] at kept
        rw [kept] at blank
        cases blank
  · intro blank
    have front : text.toList.dropWhile isTrimmed = [] := by
      rw [List.dropWhile_eq_nil_iff]
      simpa using blank
    simp [front]

/-- The service lets a request pass exactly when it succeeds with no other request about. -/
theorem checkStatusChange_isOk (entrants : Entrants) (request : StatusRequest) :
    (checkStatusChange request entrants.status).isOk =
      (entrants.changeStatus request.allowed request.status request.reason).isOk := by
  have blank : (request.reason.map trim = none ∨ request.reason.map trim = some "") ↔
      (request.reason.all fun text => text.toList.all isTrimmed) := by
    cases request.reason with
    | none => simp
    | some text => simpa using trim_eq_empty text
  unfold checkStatusChange Entrants.changeStatus
  simp only [blank]
  split
  · rfl
  · split
    · rfl
    · split <;> rfl

theorem checkStatusChange_allowed {request : StatusRequest} {status : TournamentStatus}
    {reason : Option String} (passed : checkStatusChange request status = .ok reason) :
    canTransition status request.status := by
  unfold checkStatusChange at passed
  split at passed
  · cases passed
  · split at passed
    · cases passed
    · rename_i _ permitted
      simpa using permitted

/-- What follows another status by allowed transitions follows no terminal one. -/
theorem chain_terminal {stored before after : List TournamentStatus} {status : TournamentStatus}
    (chain : stored.IsChain fun source target => canTransition source target)
    (split : stored = before ++ status :: after) (terminal : allowedTransitions status = []) :
    after = [] := by
  cases after with
  | nil => rfl
  | cons next rest =>
      rw [split] at chain
      have follows : canTransition status next = true :=
        chain.right_of_append.rel
      rw [canTransition, terminal] at follows
      cases follows

theorem TournamentRow.lawful_iff (s : TournamentRow) :
    s.Lawful ↔ s.stored.IsChain fun source target => canTransition source target :=
  ⟨fun lawful => lawful.allowed, fun chain => ⟨chain, fun _ _ _ split terminal =>
    chain_terminal chain split terminal⟩⟩

end Machine

section Runs

variable {s : TournamentRow}

/-- Only an update changes the row. -/
theorem advance_cases (s : TournamentRow) (call : StatusCall) :
    (s.advance call).1 = s ∧ (s.Permits call ↔ True) ∨
      ∃ request reason found before, call = .update request reason found before ∧
        (s.advance call).1 = s.update request reason before := by
  cases call with
  | find request =>
      rw [TournamentRow.advance]
      cases checkStatusChange request s.status with
      | error _ => exact .inl ⟨rfl, Iff.rfl⟩
      | ok _ => exact .inl ⟨rfl, Iff.rfl⟩
  | readBefore => exact .inl ⟨rfl, Iff.rfl⟩
  | update request reason found before =>
      exact .inr ⟨request, reason, found, before, rfl, rfl⟩

theorem update_lawful_iff (last : s.stored.getLast? = some s.status) (lawful : s.Lawful)
    (request : StatusRequest) (reason : Option String) (before : TournamentStatus) :
    (s.update request reason before).Lawful ↔ canTransition s.status request.status := by
  rw [TournamentRow.lawful_iff, TournamentRow.update, List.isChain_append]
  constructor
  · intro chain
    exact chain.2.2 s.status last request.status rfl
  · intro permitted
    refine ⟨lawful.allowed, List.isChain_singleton _, fun source final target first => ?_⟩
    rw [Option.mem_def, last] at final
    cases final
    cases first
    exact permitted

/-- Whatever a request goes on with, it has been checked. -/
theorem advance_checked {call rest : StatusCall} (checked : call.Checked)
    (left : (s.advance call).2 = some rest) : rest.Checked := by
  cases call with
  | find request =>
      rw [TournamentRow.advance] at left
      split at left
      · cases left
      · rename_i reason passed
        cases left
        exact passed
  | readBefore request reason found =>
      cases left
      exact checked
  | update => cases left

theorem statusRequests_outline :
    Outline statusRequests (fun _ _ => True)
      (fun s => s.stored.getLast? = some s.status) (fun _ call => call.Checked) where
  starts s initial := by rw [initial.stored]; rfl
  enters s call _ arrives := by
    cases call with
    | find request => trivial
    | readBefore | update => cases arrives
  acts s call last _ _ := by
    change (s.advance call).1.stored.getLast? = some (s.advance call).1.status
    rcases advance_cases s call with ⟨same, _⟩ | ⟨request, reason, _, before, _, updated⟩
    · rw [same]
      exact last
    · rw [updated, TournamentRow.update, List.getLast?_append]
      rfl
  continues _ _ _ _ checked _ left := advance_checked checked left
  stable _ _ _ _ _ _ checked := checked
  events _ event := nomatch event

/-- The stored statuses follow the machine, and no terminal one is left, exactly when every
update finds a status from which the machine allows its own. -/
theorem lawful_iff_permits {start after : Pool TournamentRow StatusCall}
    {labels : List (Label StatusCall Empty)}
    (initial : statusRequests.system.initial start)
    (ran : statusRequests.system.run start labels = some after) :
    statusRequests.system.Always (fun pool => pool.shared.Lawful) start labels ↔
      System.Guarded (Advancing TournamentRow.Permits) statusRequests.system start labels := by
  apply statusRequests_outline.always_iff TournamentRow.Lawful _ _ _ initial ran
  · intro s fresh
    rw [TournamentRow.lawful_iff, fresh.stored]
    exact List.isChain_singleton _
  · intro s call last _ lawful
    change (s.advance call).1.Lawful ↔ _
    rcases advance_cases s call with ⟨same, free⟩ | ⟨request, reason, _, before, rfl, updated⟩
    · rw [same, free]
      exact iff_of_true lawful trivial
    · rw [updated]
      exact update_lawful_iff last lawful request reason before
  · intro _ event
    exact nomatch event

/-- What a request has checked still permits its update when the status has stayed. -/
theorem unchanged_permits {call : StatusCall} (checked : call.Checked)
    (unchanged : s.Unchanged call) : s.Permits call := by
  cases call with
  | find | readBefore => trivial
  | update request reason found before =>
      change canTransition s.status request.status
      have same : s.status = found := unchanged
      rw [same]
      exact checkStatusChange_allowed checked

/-- The stored statuses follow the machine, and no terminal one is left, as long as every update
finds stored the status that its request has read. -/
theorem lifecycle_kept {start after : Pool TournamentRow StatusCall}
    {labels : List (Label StatusCall Empty)}
    (initial : statusRequests.system.initial start)
    (ran : statusRequests.system.run start labels = some after)
    (unchanged : System.Guarded (Advancing TournamentRow.Unchanged) statusRequests.system start
      labels) :
    statusRequests.system.Always (fun pool => pool.shared.Lawful) start labels := by
  apply (lawful_iff_permits initial ran).mpr
  apply statusRequests_outline.allows _ initial unchanged
  intro s call _ checked unchanged
  exact unchanged_permits checked unchanged

end Runs

section Examples

def draft : Pool TournamentRow StatusCall := ⟨⟨.draft, [], [.draft]⟩, []⟩

def openRegistration : StatusRequest := ⟨true, .registrationOpen, 1, none⟩

def cancelDraft : StatusRequest := ⟨true, .cancelled, 2, some " venue lost "⟩

/-- One request comes after the other, and the second is refused. -/
def oneByOne : List (Label StatusCall Empty) :=
  [.arrive (.find cancelDraft), .advance 0, .advance 0, .advance 0,
    .arrive (.find openRegistration), .advance 0]

/-- Both requests read the draft before either is stored. -/
def bothRead : List (Label StatusCall Empty) :=
  [.arrive (.find cancelDraft), .arrive (.find openRegistration), .advance 0, .advance 0,
    .advance 0, .advance 0, .advance 0, .advance 0]

theorem draft_initial : statusRequests.system.initial draft := ⟨⟨rfl, rfl⟩, rfl⟩

theorem oneByOne_lawful :
    statusRequests.system.Always (fun pool => pool.shared.Lawful) draft oneByOne := by
  have ran : (statusRequests.system.run draft oneByOne).map (fun pool => pool.shared.stored) =
      some [.draft, .cancelled] := by decide +kernel
  obtain ⟨after, ran, _⟩ := Option.map_eq_some_iff.mp ran
  exact lifecycle_kept draft_initial ran (by decide +kernel)

theorem registration_opened_after_cancel :
    ∃ after, statusRequests.system.run draft bothRead = some after ∧
      after.shared.stored = [.draft, .cancelled, .registrationOpen] ∧ ¬after.shared.Lawful := by
  have ran : (statusRequests.system.run draft bothRead).map (fun pool => pool.shared.stored) =
      some [.draft, .cancelled, .registrationOpen] := by decide +kernel
  obtain ⟨after, ran, stored⟩ := Option.map_eq_some_iff.mp ran
  refine ⟨after, ran, stored, fun lawful => ?_⟩
  have empty := lawful.terminal [.draft] .cancelled [.registrationOpen] stored rfl
  cases empty

end Examples

end Farzin.Tournament
