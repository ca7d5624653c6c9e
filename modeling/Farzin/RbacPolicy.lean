import Farzin.RoleRules

set_option autoImplicit false

/- What each role may do (`identity/rbac/permission.types.ts` and `policy.registry.ts`). -/
namespace Farzin.Rbac

open Identity (Role Action Scope ScopeType)

inductive ResourceType where
  | user
  | session
  | player
  | federation
  | region
  | club
  | clubMembership
  | tournament
  | tournamentSection
  | registration
  | round
  | pairing
  | gameResult
  | ratingPeriod
  | ratingHistory
  | title
  | arbiter
  | appeal
  | onlineGame
  | move
  | puzzle
  | puzzleAttempt
  | coach
  | lesson
  | school
  | schoolClass
  | student
  | subscription
  | invoice
  | payment
  | auditLog
  | fairPlayCase
  deriving DecidableEq, Repr

/-- One cell of the matrix. A grant with a star reads only inside the scope; without `fields` it
writes every column. -/
structure Grant where
  resource : ResourceType
  actions : List Action
  isScoped : Bool
  fields : Option (List String)
  deriving DecidableEq, Repr

namespace Grant

def plain (resource : ResourceType) (actions : List Action) : Grant :=
  ⟨resource, actions, false, none⟩

def starred (resource : ResourceType) (actions : List Action) : Grant :=
  ⟨resource, actions, true, none⟩

end Grant

def crud : List Action := [.create, .read, .update, .delete]
def cru : List Action := [.create, .read, .update]
def crd : List Action := [.create, .read, .delete]
def cr : List Action := [.create, .read]
def ru : List Action := [.read, .update]
def rd : List Action := [.read, .delete]
def r : List Action := [.read]

def policy : Role → List Grant
  | .superAdmin =>
      [.plain .user crud, .plain .session rd, .plain .player crud, .plain .federation crud,
        .plain .region crud, .plain .club crud, .plain .clubMembership crud,
        .plain .tournament crud, .plain .tournamentSection crud, .plain .registration crud,
        .plain .round crud, .plain .pairing crud, .plain .gameResult crud,
        .plain .ratingPeriod crud, .plain .ratingHistory r, .plain .title crud,
        .plain .arbiter crud, .plain .appeal crud, .plain .onlineGame r, .plain .move r,
        .plain .puzzle crud, .plain .puzzleAttempt r, .plain .coach crud, .plain .lesson crud,
        .plain .school crud, .plain .schoolClass crud, .plain .student crud,
        .plain .subscription crud, .plain .invoice crud, .plain .payment crud, .plain .auditLog r,
        .plain .fairPlayCase crud]
  | .federationAdmin =>
      [.plain .user r, .plain .player cru, .plain .federation ru, .plain .region crud,
        .plain .club crud, .plain .clubMembership r, .plain .tournament crud,
        .plain .tournamentSection crud, .plain .registration r, .plain .round r, .plain .pairing r,
        .plain .gameResult ru, .plain .ratingPeriod cru, .plain .ratingHistory r,
        .plain .title crud, .plain .arbiter crud, .plain .appeal r, .plain .puzzle r,
        .plain .coach r, .plain .lesson r, .plain .school crud, .plain .schoolClass r,
        .plain .student r, .starred .subscription r, .starred .invoice r, .starred .payment r,
        .starred .auditLog r, .plain .fairPlayCase r]
  | .regionAdmin =>
      [.starred .user r, .starred .player ru, .plain .federation r, .starred .region ru,
        .starred .club crud, .starred .clubMembership r, .starred .tournament crud,
        .starred .tournamentSection crud, .starred .registration r, .starred .round r,
        .starred .pairing r, .starred .gameResult r, .plain .ratingPeriod r,
        .plain .ratingHistory r, .plain .title r, .starred .arbiter cru, .starred .appeal r,
        .plain .puzzle r, .plain .coach r, .plain .lesson r, .starred .school cru,
        .starred .schoolClass r, .starred .student r, .starred .subscription r, .starred .invoice r,
        .starred .payment r, .starred .auditLog r]
  | .clubAdmin =>
      [.starred .user r, .starred .player ru, .plain .federation r, .plain .region r,
        .starred .club ru, .starred .clubMembership crud, .starred .tournament crud,
        .starred .tournamentSection crud, .starred .registration crud, .starred .round cru,
        .starred .pairing r, .starred .gameResult r, .plain .ratingPeriod r,
        .plain .ratingHistory r, .plain .title r, .plain .arbiter r, .starred .appeal r,
        .plain .puzzle r, .starred .coach ru, .starred .lesson r, .starred .subscription ru,
        .starred .invoice r, .starred .payment r, .starred .auditLog r]
  | .arbiter =>
      [.starred .player r, .plain .federation r, .plain .region r, .plain .club r,
        ⟨.tournament, ru, true, some ["status"]⟩, .starred .tournamentSection ru,
        .starred .registration ru, .starred .round cru, .starred .pairing cru,
        .starred .gameResult cru, .plain .ratingPeriod r, .plain .ratingHistory r, .plain .title r,
        .starred .arbiter r, ⟨.appeal, ru, true, some ["status", "decision"]⟩, .starred .move r,
        .plain .puzzle r, .starred .fairPlayCase r]
  | .coach =>
      [.starred .player r, .plain .federation r, .plain .region r, .plain .club r,
        .starred .clubMembership r, .plain .tournament r, .plain .tournamentSection r,
        .starred .registration r, .plain .round r, .plain .pairing r, .plain .gameResult r,
        .plain .ratingPeriod r, .plain .ratingHistory r, .plain .title r, .starred .appeal r,
        .starred .onlineGame r, .starred .move r, .plain .puzzle cr, .starred .puzzleAttempt r,
        .starred .coach ru, .starred .lesson crud, .starred .student r, .starred .invoice r,
        .starred .payment r]
  | .schoolTeacher =>
      [.starred .player r, .plain .federation r, .plain .region r, .plain .club r,
        .plain .tournament r, .plain .tournamentSection r, .plain .round r, .plain .pairing r,
        .plain .gameResult r, .plain .ratingPeriod r, .plain .ratingHistory r, .plain .title r,
        .plain .puzzle r, .starred .puzzleAttempt r, .starred .lesson cru, .starred .school r,
        .starred .schoolClass crud, .starred .student crud]
  | .player =>
      [.starred .user ru, .starred .session rd, .starred .player ru, .plain .federation r,
        .plain .region r, .plain .club r, .starred .clubMembership r, .plain .tournament r,
        .plain .tournamentSection r, .starred .registration crd, .plain .round r, .plain .pairing r,
        .starred .gameResult cr, .plain .ratingPeriod r, .starred .ratingHistory r, .plain .title r,
        .plain .arbiter r, .starred .appeal cr, .starred .onlineGame cr, .starred .move cr,
        .plain .puzzle r, .starred .puzzleAttempt cr, .plain .coach r, .starred .lesson r,
        .starred .schoolClass r, .starred .student r, .starred .invoice r, .starred .payment cr,
        .starred .fairPlayCase r]
  | .parent =>
      [.starred .user r, .starred .session rd, .starred .player r, .plain .federation r,
        .plain .region r, .plain .club r, .starred .clubMembership r, .plain .tournament r,
        .plain .tournamentSection r, .starred .registration r, .plain .round r, .plain .pairing r,
        .starred .gameResult r, .plain .ratingPeriod r, .starred .ratingHistory r, .plain .title r,
        .starred .appeal r, .starred .onlineGame r, .starred .move r, .plain .puzzle r,
        .starred .puzzleAttempt r, .plain .coach r, .starred .lesson r, .starred .schoolClass r,
        .starred .student r, .starred .invoice r, .starred .payment cr]
  | .spectator =>
      [.starred .player r, .plain .federation r, .plain .region r, .plain .club r,
        .plain .tournament r, .plain .tournamentSection r, .plain .round r, .plain .pairing r,
        .plain .gameResult r, .plain .ratingPeriod r, .plain .ratingHistory r, .plain .title r,
        .plain .arbiter r, .plain .onlineGame r, .plain .move r, .plain .puzzle r, .plain .coach r]

/-- The first grant of a role for a resource. -/
def grantOf (role : Role) (resource : ResourceType) : Option Grant :=
  (policy role).find? fun grant => grant.resource = resource

end Farzin.Rbac
