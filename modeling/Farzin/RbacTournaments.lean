import Farzin.Rbac

set_option autoImplicit false

/- Who may do what with a tournament: the access checks of `modules/tournament/tournament.service.ts`
and `assertManageAccess` of `modules/arbiter/arbiter.service.ts`, read off the matrix. -/
namespace Farzin.Rbac

open Identity (Role Action)

/-- What the checks look at of a tournament. -/
structure TournamentOrg where
  id : Nat
  clubId : Option Nat
  regionId : Option Nat
  federationId : Option Nat
  deriving DecidableEq, Repr

namespace TournamentOrg

variable (t : TournamentOrg)

/-- A resource of a tournament, with its place in the organisation. -/
def ref (type : ResourceType) (ownerUserId : Option Nat) : ResourceRef :=
  ⟨type, ownerUserId, t.clubId, t.regionId, t.federationId, some t.id, none⟩

def toResourceRef : ResourceRef := t.ref .tournament none

end TournamentOrg

variable (actor : Actor) (t : TournamentOrg) (now : Nat)

def mayUpdate : Bool := decide (writableFields actor t.toResourceRef now = .all)

def mayChangeStatus : Bool :=
  match writableFields actor t.toResourceRef now with
  | .all => true
  | .fields names => decide ("status" ∈ names)

def mayCreateSection : Bool := can actor .create (t.ref .tournamentSection none) now

def mayRegister (onBehalfOfOther : Bool) : Bool :=
  can actor .create (t.ref .registration (if onBehalfOfOther then none else some actor.userId)) now

def mayWithdraw (isOwn : Bool) : Bool :=
  let ref := t.ref .registration (if isOwn then some actor.userId else none)
  if isOwn then can actor .delete ref now || can actor .update ref now
  else can actor .update ref now

def mayManage (isArbiterOf : Bool) : Bool := isArbiterOf || can actor .update t.toResourceRef now

def allRoles : List Role :=
  [.superAdmin, .federationAdmin, .regionAdmin, .clubAdmin, .arbiter, .coach, .schoolTeacher,
    .player, .parent, .spectator]

theorem mem_allRoles (role : Role) : role ∈ allRoles := by
  cases role <;> decide

/-- The roles with a grant. -/
def rolesWith (good : Grant → Bool) (type : ResourceType) : List Role :=
  allRoles.filter fun role => (grantOf role type).any good

/-- One of the roles is held now, for a scope that covers the resource. -/
def Holds (resource : ResourceRef) (roles : List Role) : Prop :=
  ∃ a ∈ actor.assignments, a.expired now = false ∧ a.role ∈ roles ∧
    scopeCovers a.scope actor.userId resource = true

section Roles

variable {actor t now} {resource : ResourceRef} {action : Action}

theorem mem_rolesWith {good : Grant → Bool} {type : ResourceType} {role : Role} :
    role ∈ rolesWith good type ↔ ∃ grant, grantOf role type = some grant ∧ good grant = true := by
  unfold rolesWith
  rw [List.mem_filter, Option.any_eq_true]
  exact and_iff_right (mem_allRoles role)

/-- An assignment permits a write by its role and its scope. -/
theorem permits_write {a : RoleAssignment} {good : Grant → Bool} (writes : action ≠ .read)
    (listed : ∀ grant, good grant = true → action ∈ grant.actions) :
    (∃ grant, Permits actor.userId action resource now a grant ∧ good grant = true) ↔
      a.expired now = false ∧ a.role ∈ rolesWith good resource.type ∧
        scopeCovers a.scope actor.userId resource = true := by
  rw [mem_rolesWith]
  constructor
  · rintro ⟨grant, permits, here⟩
    refine ⟨permits.valid, ⟨grant, permits.granted, here⟩, ?_⟩
    exact permits.covered.resolve_left fun both => writes both.1
  · rintro ⟨valid, ⟨grant, granted, here⟩, covers⟩
    exact ⟨grant, ⟨valid, granted, listed grant here, .inr covers⟩, here⟩

theorem can_write_iff (writes : action ≠ .read) : can actor action resource now = true ↔
    Holds actor now resource
      (rolesWith (fun grant => decide (action ∈ grant.actions)) resource.type) := by
  rw [can_iff]
  refine exists_congr fun a => and_congr_right fun _ => ?_
  rw [← permits_write writes fun grant here => of_decide_eq_true here]
  refine exists_congr fun grant => ?_
  exact ⟨fun permits => ⟨permits, decide_eq_true permits.listed⟩, fun both => both.1⟩

theorem writes_iff (good : Grant → Bool)
    (listed : ∀ grant, good grant = true → Action.update ∈ grant.actions) :
    (∃ a ∈ actor.assignments, ∃ grant,
        Permits actor.userId .update resource now a grant ∧ good grant = true) ↔
      Holds actor now resource (rolesWith good resource.type) := by
  refine exists_congr fun a => and_congr_right fun _ => ?_
  exact permits_write (by decide) listed

theorem holds_or {roles more all : List Role}
    (both : ∀ role, role ∈ roles ∨ role ∈ more ↔ role ∈ all) :
    Holds actor now resource roles ∨ Holds actor now resource more ↔
      Holds actor now resource all := by
  unfold Holds
  rw [← exists_or]
  refine exists_congr fun a => ?_
  rw [← both]
  tauto

theorem mayUpdate_iff : mayUpdate actor t now = true ↔ Holds actor now t.toResourceRef
    [.superAdmin, .federationAdmin, .regionAdmin, .clubAdmin] := by
  have roles : rolesWith (fun grant => decide (.update ∈ grant.actions ∧ grant.fields.getD [] = []))
      .tournament = [.superAdmin, .federationAdmin, .regionAdmin, .clubAdmin] := by
    decide +kernel
  have whole := (writableFields_exact actor t.toResourceRef now).1
  rw [mayUpdate, decide_eq_true_iff, whole, ← roles]
  refine Iff.trans ?_ (writes_iff _ fun grant here => (of_decide_eq_true here).1)
  refine exists_congr fun a => and_congr_right fun _ => exists_congr fun grant => ?_
  refine and_congr_right fun permits => ?_
  rw [decide_eq_true_iff]
  exact (and_iff_right permits.listed).symm

theorem mayChangeStatus_iff : mayChangeStatus actor t now = true ↔ Holds actor now t.toResourceRef
    [.superAdmin, .federationAdmin, .regionAdmin, .clubAdmin, .arbiter] := by
  have roles : rolesWith (fun grant => decide (.update ∈ grant.actions ∧
      (grant.fields.getD [] = [] ∨ "status" ∈ grant.fields.getD []))) .tournament =
        [.superAdmin, .federationAdmin, .regionAdmin, .clubAdmin, .arbiter] := by
    decide +kernel
  rw [← roles]
  refine Iff.trans ?_ (writes_iff _ fun grant here => (of_decide_eq_true here).1)
  have both : ∀ a ∈ actor.assignments, ∀ grant,
      Permits actor.userId .update t.toResourceRef now a grant →
        (decide (.update ∈ grant.actions ∧
          (grant.fields.getD [] = [] ∨ "status" ∈ grant.fields.getD [])) = true ↔
            grant.fields.getD [] = [] ∨ "status" ∈ grant.fields.getD []) := by
    intro a _ grant permits
    rw [decide_eq_true_iff]
    exact and_iff_right permits.listed
  obtain ⟨all, fields, -⟩ := writableFields_exact actor t.toResourceRef now
  unfold mayChangeStatus
  cases result : writableFields actor t.toResourceRef now with
  | all =>
      obtain ⟨a, inside, grant, permits, free⟩ := all.mp result
      exact ⟨fun _ => ⟨a, inside, grant, permits, (both a inside grant permits).mpr (.inl free)⟩,
        fun _ => rfl⟩
  | fields names =>
      dsimp only
      rw [decide_eq_true_iff, (fields names result).2]
      constructor
      · rintro ⟨a, inside, grant, permits, named⟩
        exact ⟨a, inside, grant, permits, (both a inside grant permits).mpr (.inr named)⟩
      · rintro ⟨a, inside, grant, permits, here⟩
        rcases (both a inside grant permits).mp here with free | named
        · rw [all.mpr ⟨a, inside, grant, permits, free⟩] at result
          cases result
        · exact ⟨a, inside, grant, permits, named⟩

end Roles

/-- Whatever roles an actor holds, a tournament is edited and given sections by its administrators
only; its status is also changed, and its rounds are run, by its arbiters. Players are entered by
club administrators, and by themselves; they are withdrawn by arbiters too. -/
theorem tournament_permissions :
    (mayUpdate actor t now = true ↔ Holds actor now t.toResourceRef
      [.superAdmin, .federationAdmin, .regionAdmin, .clubAdmin]) ∧
    (mayChangeStatus actor t now = true ↔ Holds actor now t.toResourceRef
      [.superAdmin, .federationAdmin, .regionAdmin, .clubAdmin, .arbiter]) ∧
    (mayCreateSection actor t now = true ↔ Holds actor now (t.ref .tournamentSection none)
      [.superAdmin, .federationAdmin, .regionAdmin, .clubAdmin]) ∧
    (mayRegister actor t now true = true ↔ Holds actor now (t.ref .registration none)
      [.superAdmin, .clubAdmin, .player]) ∧
    (mayRegister actor t now false = true ↔
      Holds actor now (t.ref .registration (some actor.userId))
        [.superAdmin, .clubAdmin, .player]) ∧
    (mayWithdraw actor t now false = true ↔ Holds actor now (t.ref .registration none)
      [.superAdmin, .clubAdmin, .arbiter]) ∧
    (mayWithdraw actor t now true = true ↔
      Holds actor now (t.ref .registration (some actor.userId))
        [.superAdmin, .clubAdmin, .arbiter, .player]) ∧
    ∀ isArbiterOf : Bool, mayManage actor t now isArbiterOf = true ↔ isArbiterOf = true ∨
      Holds actor now t.toResourceRef
        [.superAdmin, .federationAdmin, .regionAdmin, .clubAdmin, .arbiter] := by
  have granted : ∀ {action : Action} {type : ResourceType} {roles : List Role}
      (ownerUserId : Option Nat), action ≠ .read →
      rolesWith (fun grant => decide (action ∈ grant.actions)) type = roles →
        (can actor action (t.ref type ownerUserId) now = true ↔
          Holds actor now (t.ref type ownerUserId) roles) :=
    fun ownerUserId writes same => same ▸ can_write_iff writes
  refine ⟨mayUpdate_iff, mayChangeStatus_iff, granted _ (by decide) (by decide +kernel),
    granted _ (by decide) (by decide +kernel), granted _ (by decide) (by decide +kernel),
    granted _ (by decide) (by decide +kernel), ?_, fun isArbiterOf => ?_⟩
  · have deletes : can actor .delete (t.ref .registration (some actor.userId)) now = true ↔
        Holds actor now (t.ref .registration (some actor.userId))
          [.superAdmin, .clubAdmin, .player] := granted _ (by decide) (by decide +kernel)
    have updates : can actor .update (t.ref .registration (some actor.userId)) now = true ↔
        Holds actor now (t.ref .registration (some actor.userId))
          [.superAdmin, .clubAdmin, .arbiter] := granted _ (by decide) (by decide +kernel)
    unfold mayWithdraw
    dsimp only
    rw [if_pos rfl, if_pos rfl, Bool.or_eq_true, deletes, updates]
    refine holds_or fun role => ?_
    cases role <;> decide
  · have updates : can actor .update t.toResourceRef now = true ↔ Holds actor now t.toResourceRef
        [.superAdmin, .federationAdmin, .regionAdmin, .clubAdmin, .arbiter] :=
      granted _ (by decide) (by decide +kernel)
    rw [mayManage, Bool.or_eq_true, updates]

end Farzin.Rbac
