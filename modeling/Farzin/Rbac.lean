import Farzin.RbacPolicy

set_option autoImplicit false

/- Access decisions (`identity/rbac/rbac.service.ts` and the guard of `identity/rbac.port.ts`): what
one role assignment permits, and what the guard, `can` and `writableFields` make of it. -/
namespace Farzin.Rbac

open Identity (Role Action Scope ScopeType RoleAssignmentView toScope)

structure RoleAssignment where
  role : Role
  scope : Scope
  validUntil : Option Nat
  deriving DecidableEq, Repr

structure Actor where
  userId : Nat
  assignments : List RoleAssignment
  deriving DecidableEq, Repr

structure ResourceRef where
  type : ResourceType
  ownerUserId : Option Nat
  clubId : Option Nat
  regionId : Option Nat
  federationId : Option Nat
  tournamentId : Option Nat
  schoolId : Option Nat
  deriving DecidableEq, Repr

def ResourceRef.scopeId (r : ResourceRef) : ScopeType → Option Nat
  | .federation => r.federationId
  | .region => r.regionId
  | .club => r.clubId
  | .tournament => r.tournamentId
  | .school => r.schoolId

/-- A resource known by its type only. -/
def ResourceRef.bare (type : ResourceType) : ResourceRef := ⟨type, none, none, none, none, none, none⟩

def scopeCovers (scope : Scope) (actorUserId : Nat) (r : ResourceRef) : Bool :=
  match scope with
  | .global => true
  | .own => decide (r.ownerUserId = some actorUserId)
  | .resource scopeType scopeId => decide (r.scopeId scopeType = some scopeId)

def RoleAssignment.expired (a : RoleAssignment) (now : Nat) : Bool :=
  a.validUntil.any fun validUntil => validUntil < now

def can (actor : Actor) (action : Action) (resource : ResourceRef) (now : Nat) : Bool :=
  actor.assignments.any fun a =>
    if a.expired now then false
    else match grantOf a.role resource.type with
      | none => false
      | some grant =>
          if action ∉ grant.actions then false
          else if action = .read ∧ grant.isScoped = false then true
          else scopeCovers a.scope actor.userId resource

inductive WritableFields where
  | all
  | fields (names : List String)
  deriving DecidableEq, Repr

/-- `add` of a `Set`. -/
def addField (names : List String) (name : String) : List String :=
  if name ∈ names then names else names ++ [name]

/-- The loop over the assignments, with the fields so far and whether a grant limited them. -/
def collectFields (userId : Nat) (resource : ResourceRef) (now : Nat) (fields : List String)
    (hasRestrictedGrant : Bool) : List RoleAssignment → WritableFields
  | [] => .fields (if hasRestrictedGrant then fields else [])
  | a :: rest =>
      if a.expired now then collectFields userId resource now fields hasRestrictedGrant rest
      else match grantOf a.role resource.type with
        | none => collectFields userId resource now fields hasRestrictedGrant rest
        | some grant =>
            if .update ∉ grant.actions then
              collectFields userId resource now fields hasRestrictedGrant rest
            else if scopeCovers a.scope userId resource = false then
              collectFields userId resource now fields hasRestrictedGrant rest
            else if grant.fields.getD [] = [] then .all
            else collectFields userId resource now ((grant.fields.getD []).foldl addField fields)
              true rest

def writableFields (actor : Actor) (resource : ResourceRef) (now : Nat) : WritableFields :=
  collectFields actor.userId resource now [] false actor.assignments

def toDomainAssignments (rows : List RoleAssignmentView) : List RoleAssignment :=
  rows.map fun row => ⟨row.role, toScope row.role row.scopeType row.scopeId, none⟩

def hasCapability (actor : Actor) (action : Action) (resource : ResourceType) (now : Nat) : Bool :=
  actor.assignments.any fun a =>
    if a.expired now then false
    else match grantOf a.role resource with
      | none => false
      | some grant => decide (action ∈ grant.actions)

structure RequiredPermission where
  resource : ResourceType
  action : Action
  deriving DecidableEq, Repr

/-- The actor that the guard attaches, or the resource that it does not find. -/
def canActivate (required : Option RequiredPermission) (user : Option Nat)
    (getAssignments : Nat → List RoleAssignmentView) (now : Nat) :
    Except ResourceType (Option Actor) :=
  let actor := user.map fun userId => ⟨userId, toDomainAssignments (getAssignments userId)⟩
  match required with
  | none => .ok actor
  | some required =>
      match actor with
      | none => .error required.resource
      | some actor =>
          if hasCapability actor required.action required.resource now then .ok (some actor)
          else .error required.resource

/-- What one assignment permits on its own. -/
structure Permits (userId : Nat) (action : Action) (resource : ResourceRef) (now : Nat)
    (a : RoleAssignment) (grant : Grant) : Prop where
  valid : a.expired now = false
  granted : grantOf a.role resource.type = some grant
  listed : action ∈ grant.actions
  covered : action = .read ∧ grant.isScoped = false ∨ scopeCovers a.scope userId resource = true

section Decisions

variable {actor : Actor} {action : Action} {resource : ResourceRef} {now : Nat}

theorem can_iff : can actor action resource now = true ↔
    ∃ a ∈ actor.assignments, ∃ grant, Permits actor.userId action resource now a grant := by
  unfold can
  rw [List.any_eq_true]
  refine exists_congr fun a => and_congr_right fun _ => ?_
  cases expired : a.expired now with
  | true =>
      refine ⟨fun no => by simp at no, ?_⟩
      rintro ⟨grant, permits⟩
      exact absurd permits.valid (by simp [expired])
  | false =>
      cases granted : grantOf a.role resource.type with
      | none =>
          refine ⟨fun no => by simp at no, ?_⟩
          rintro ⟨grant, permits⟩
          exact absurd permits.granted (by simp [granted])
      | some grant =>
          constructor
          · intro allowed
            by_cases listed : action ∈ grant.actions
            · refine ⟨grant, expired, granted, listed, ?_⟩
              by_cases plain : action = .read ∧ grant.isScoped = false
              · exact .inl plain
              · right
                simpa [listed, plain] using allowed
            · simp [listed] at allowed
          · rintro ⟨grant', permits⟩
            have same : grant' = grant := Option.some.inj (permits.granted.symm.trans granted)
            subst same
            have listed := permits.listed
            rcases permits.covered with ⟨rfl, plain⟩ | covers
            · simp [listed, plain]
            · simp [listed, covers]

theorem hasCapability_iff {type : ResourceType} : hasCapability actor action type now = true ↔
    ∃ a ∈ actor.assignments, a.expired now = false ∧
      ∃ grant, grantOf a.role type = some grant ∧ action ∈ grant.actions := by
  unfold hasCapability
  rw [List.any_eq_true]
  refine exists_congr fun a => and_congr_right fun _ => ?_
  cases a.expired now with
  | true => simp
  | false => cases grantOf a.role type <;> simp

/-- A resource that a scope covers. -/
def ResourceRef.within (type : ResourceType) (userId : Nat) : Scope → ResourceRef
  | .resource _ id => ⟨type, none, some id, some id, some id, some id, some id⟩
  | _ => ⟨type, some userId, none, none, none, none, none⟩

theorem ResourceRef.within_type (type : ResourceType) (userId : Nat) (scope : Scope) :
    (ResourceRef.within type userId scope).type = type := by
  cases scope <;> rfl

theorem scopeCovers_within (type : ResourceType) (userId : Nat) (scope : Scope) :
    scopeCovers scope userId (ResourceRef.within type userId scope) = true := by
  cases scope with
  | global => rfl
  | own => exact decide_eq_true rfl
  | resource scopeType id => cases scopeType <;> exact decide_eq_true rfl

theorem RoleAssignment.expired_earlier {a : RoleAssignment} {later : Nat} (order : now ≤ later)
    (valid : a.expired later = false) : a.expired now = false := by
  unfold RoleAssignment.expired at valid ⊢
  cases until' : a.validUntil with
  | none => rfl
  | some validUntil =>
      rw [until', Option.any_some, decide_eq_false_iff_not] at valid
      rw [Option.any_some, decide_eq_false_iff_not]
      omega

/-- Now a role may act on resources of a type exactly if one of them will be in reach. -/
theorem hasCapability_exact {type : ResourceType} : hasCapability actor action type now = true ↔
    ∃ resource later, resource.type = type ∧ now ≤ later ∧ can actor action resource later = true := by
  rw [hasCapability_iff]
  constructor
  · rintro ⟨a, inside, valid, grant, granted, listed⟩
    refine ⟨ResourceRef.within type actor.userId a.scope, now,
      ResourceRef.within_type type actor.userId a.scope, Nat.le_refl now, can_iff.mpr ?_⟩
    refine ⟨a, inside, grant, valid, ?_, listed, .inr (scopeCovers_within type _ a.scope)⟩
    rw [ResourceRef.within_type]
    exact granted
  · rintro ⟨resource, later, rfl, order, allowed⟩
    obtain ⟨a, inside, grant, permits⟩ := can_iff.mp allowed
    exact ⟨a, inside, RoleAssignment.expired_earlier order permits.valid, grant, permits.granted,
      permits.listed⟩

end Decisions

section Fields

variable {userId : Nat} {resource : ResourceRef} {now : Nat}

theorem addField_mem (names : List String) (name other : String) :
    other ∈ addField names name ↔ other ∈ names ∨ other = name := by
  unfold addField
  split
  · rename_i listed
    refine ⟨.inl, ?_⟩
    rintro (old | rfl)
    · exact old
    · exact listed
  · simp

theorem addField_nodup {names : List String} (nodup : names.Nodup) (name : String) :
    (addField names name).Nodup := by
  unfold addField
  split
  · exact nodup
  · rename_i fresh
    refine List.nodup_append.mpr ⟨nodup, by simp, fun other listed last single same => ?_⟩
    rw [same, List.mem_singleton.mp single] at listed
    exact fresh listed

theorem foldl_addField (more : List String) : ∀ names : List String, names.Nodup →
    (more.foldl addField names).Nodup ∧
      ∀ name, name ∈ more.foldl addField names ↔ name ∈ names ∨ name ∈ more := by
  induction more with
  | nil => exact fun names nodup => ⟨nodup, by simp⟩
  | cons first more ih =>
      intro names nodup
      obtain ⟨distinct, same⟩ := ih (addField names first) (addField_nodup nodup first)
      refine ⟨distinct, fun name => ?_⟩
      rw [List.foldl_cons, same, addField_mem, List.mem_cons, or_assoc]

variable (userId resource now) in
/-- The fields of the grants that permit an update. -/
def Writes (list : List RoleAssignment) (name : String) : Prop :=
  ∃ a ∈ list, ∃ grant, Permits userId .update resource now a grant ∧ name ∈ grant.fields.getD []

variable (userId resource now) in
/-- One of the grants that permit an update does not limit it. -/
def Unlimited (list : List RoleAssignment) : Prop :=
  ∃ a ∈ list, ∃ grant, Permits userId .update resource now a grant ∧ grant.fields.getD [] = []

/-- One turn of the loop: the assignment permits no update, or it permits all of it, or some. -/
theorem collectFields_cons (fields : List String) (restricted : Bool) (a : RoleAssignment)
    (rest : List RoleAssignment) :
    (collectFields userId resource now fields restricted (a :: rest) =
        collectFields userId resource now fields restricted rest ∧
      ∀ grant, ¬ Permits userId .update resource now a grant) ∨
    ∃ grant, Permits userId .update resource now a grant ∧
      collectFields userId resource now fields restricted (a :: rest) =
        if grant.fields.getD [] = [] then .all
        else collectFields userId resource now ((grant.fields.getD []).foldl addField fields) true
          rest := by
  rw [collectFields]
  by_cases expired : a.expired now = true
  · rw [if_pos expired]
    exact .inl ⟨rfl, fun grant permits => by simp [permits.valid] at expired⟩
  · rw [if_neg expired]
    cases granted : grantOf a.role resource.type with
    | none => exact .inl ⟨rfl, fun grant permits => by simp [permits.granted] at granted⟩
    | some grant =>
        dsimp only
        have only : ∀ grant', Permits userId .update resource now a grant' → grant' = grant :=
          fun grant' permits => Option.some.inj (permits.granted.symm.trans granted)
        by_cases listed : Action.update ∈ grant.actions
        · rw [if_neg (not_not.mpr listed)]
          by_cases covered : scopeCovers a.scope userId resource = true
          · rw [covered, if_neg (by decide)]
            exact .inr ⟨grant, ⟨Bool.not_eq_true _ ▸ expired, granted, listed, .inr covered⟩, rfl⟩
          · rw [if_pos (Bool.not_eq_true _ ▸ covered)]
            refine .inl ⟨rfl, fun grant' permits => ?_⟩
            rcases permits.covered with ⟨isRead, -⟩ | covers
            · cases isRead
            · exact covered covers
        · rw [if_pos listed]
          refine .inl ⟨rfl, fun grant' permits => ?_⟩
          exact listed (only grant' permits ▸ permits.listed)

variable (userId resource now) in
/-- What the loop has found in a list after some fields. -/
def Collected (fields : List String) (list : List RoleAssignment) : WritableFields → Prop
  | .all => Unlimited userId resource now list
  | .fields names => ¬ Unlimited userId resource now list ∧ names.Nodup ∧
      ∀ name, name ∈ names ↔ name ∈ fields ∨ Writes userId resource now list name

theorem collectFields_collected (list : List RoleAssignment) :
    ∀ (fields : List String) (restricted : Bool), fields.Nodup →
      (restricted = false → fields = []) →
      Collected userId resource now fields list
        (collectFields userId resource now fields restricted list) := by
  induction list with
  | nil =>
      intro fields restricted nodup start
      have whole : (if restricted = true then fields else []) = fields := by
        cases restricted with
        | true => rfl
        | false => exact (start rfl).symm
      rw [collectFields, whole]
      refine ⟨?_, nodup, fun name => ⟨.inl, ?_⟩⟩
      · rintro ⟨a, inside, -⟩
        cases inside
      · rintro (listed | ⟨a, inside, -⟩)
        · exact listed
        · cases inside
  | cons a rest ih =>
      intro fields restricted nodup start
      rcases collectFields_cons fields restricted a rest with ⟨same, none⟩ | ⟨grant, permits, same⟩
      · have before := ih fields restricted nodup start
        rw [same]
        have unlimited : Unlimited userId resource now (a :: rest) ↔
            Unlimited userId resource now rest := by
          unfold Unlimited
          simp [none]
        have writes : ∀ name, Writes userId resource now (a :: rest) name ↔
            Writes userId resource now rest name := by
          intro name
          unfold Writes
          simp [none]
        cases result : collectFields userId resource now fields restricted rest with
        | all =>
            rw [result] at before
            exact unlimited.mpr before
        | fields names =>
            rw [result] at before
            exact ⟨fun more => before.1 (unlimited.mp more), before.2.1, fun name => by
              rw [before.2.2, writes]⟩
      · rw [same]
        by_cases free : grant.fields.getD [] = []
        · rw [if_pos free]
          exact ⟨a, List.mem_cons_self, grant, permits, free⟩
        · rw [if_neg free]
          obtain ⟨distinct, added⟩ := foldl_addField (grant.fields.getD []) fields nodup
          have after := ih _ true distinct (fun no => by cases no)
          have only : ∀ grant', Permits userId .update resource now a grant' → grant' = grant :=
            fun grant' other => Option.some.inj (other.granted.symm.trans permits.granted)
          have unlimited : Unlimited userId resource now (a :: rest) ↔
              Unlimited userId resource now rest := by
            unfold Unlimited
            simp only [List.exists_mem_cons_iff, or_iff_right_iff_imp]
            rintro ⟨grant', other, none⟩
            exact absurd (only grant' other ▸ none) free
          have writes : ∀ name, Writes userId resource now (a :: rest) name ↔
              name ∈ grant.fields.getD [] ∨ Writes userId resource now rest name := by
            intro name
            unfold Writes
            rw [List.exists_mem_cons_iff]
            refine or_congr_left ⟨?_, fun listed => ⟨grant, permits, listed⟩⟩
            rintro ⟨grant', other, listed⟩
            exact only grant' other ▸ listed
          cases result : collectFields userId resource now
              ((grant.fields.getD []).foldl addField fields) true rest with
          | all =>
              rw [result] at after
              exact unlimited.mpr after
          | fields names =>
              rw [result] at after
              refine ⟨fun more => after.1 (unlimited.mp more), after.2.1, fun name => ?_⟩
              rw [after.2.2, added, writes, or_assoc]

end Fields

section Results

variable (actor : Actor) (resource : ResourceRef) (now : Nat)

theorem writableFields_collected : Collected actor.userId resource now [] actor.assignments
    (writableFields actor resource now) :=
  collectFields_collected actor.assignments [] false List.nodup_nil fun _ => rfl

/-- An actor writes all fields exactly if one grant in reach does not limit them, and else exactly
those that such a grant names, each once; and there is one exactly if an update is allowed. -/
theorem writableFields_exact :
    (writableFields actor resource now = .all ↔
      ∃ a ∈ actor.assignments, ∃ grant, Permits actor.userId .update resource now a grant ∧
        grant.fields.getD [] = []) ∧
    (∀ names, writableFields actor resource now = .fields names → names.Nodup ∧
      ∀ name, name ∈ names ↔ ∃ a ∈ actor.assignments, ∃ grant,
        Permits actor.userId .update resource now a grant ∧ name ∈ grant.fields.getD []) ∧
    (can actor .update resource now = true ↔ writableFields actor resource now ≠ .fields []) := by
  have collected := writableFields_collected actor resource now
  cases result : writableFields actor resource now with
  | all =>
      rw [result] at collected
      obtain ⟨a, inside, grant, permits, -⟩ := id collected
      refine ⟨⟨fun _ => collected, fun _ => rfl⟩, fun names no => ?_, ⟨fun _ no => ?_, fun _ => ?_⟩⟩
      · cases no
      · cases no
      · exact can_iff.mpr ⟨a, inside, grant, permits⟩
  | fields names =>
      rw [result] at collected
      obtain ⟨limited, nodup, listed⟩ := collected
      have writes : ∀ name, name ∈ names ↔
          Writes actor.userId resource now actor.assignments name := by
        intro name
        rw [listed]
        simp
      refine ⟨⟨fun no => ?_, fun more => absurd more limited⟩, fun names' same => ?_, ?_⟩
      · cases no
      · cases same
        exact ⟨nodup, writes⟩
      · rw [can_iff]
        constructor
        · rintro ⟨a, inside, grant, permits⟩ none
          cases none
          obtain ⟨name, here⟩ := List.exists_mem_of_ne_nil (grant.fields.getD []) fun free =>
            limited ⟨a, inside, grant, permits, free⟩
          exact List.not_mem_nil ((writes name).mpr ⟨a, inside, grant, permits, here⟩)
        · intro some
          obtain ⟨name, here⟩ := List.exists_mem_of_ne_nil names fun none => some (none ▸ rfl)
          obtain ⟨a, inside, grant, permits, -⟩ := (writes name).mp here
          exact ⟨a, inside, grant, permits⟩

/-- The actor that a request acts as. -/
def requestActor (getAssignments : Nat → List RoleAssignmentView) (userId : Nat) : Actor :=
  ⟨userId, toDomainAssignments (getAssignments userId)⟩

/-- The guard lets a request through exactly if the services may allow it for some resource of the
type, now or later; else it hides the type. -/
theorem canActivate_exact (getAssignments : Nat → List RoleAssignmentView) (userId : Nat)
    (required : RequiredPermission) :
    (canActivate (some required) (some userId) getAssignments now =
        .ok (some (requestActor getAssignments userId)) ↔
      ∃ resource later, resource.type = required.resource ∧ now ≤ later ∧
        can (requestActor getAssignments userId) required.action resource later = true) ∧
    (canActivate (some required) (some userId) getAssignments now = .error required.resource ↔
      ∀ resource later, resource.type = required.resource → now ≤ later →
        can (requestActor getAssignments userId) required.action resource later = false) := by
  have answer : canActivate (some required) (some userId) getAssignments now =
      if hasCapability (requestActor getAssignments userId) required.action required.resource now
      then .ok (some (requestActor getAssignments userId)) else .error required.resource := rfl
  rw [answer]
  have exact' : hasCapability (requestActor getAssignments userId) required.action
      required.resource now = true ↔ _ := hasCapability_exact
  by_cases capable :
      hasCapability (requestActor getAssignments userId) required.action required.resource now = true
  · rw [if_pos capable]
    obtain ⟨resource, later, same, order, allowed⟩ := exact'.mp capable
    refine ⟨⟨fun _ => ⟨resource, later, same, order, allowed⟩, fun _ => rfl⟩, fun no => ?_, ?_⟩
    · cases no
    · intro denied
      rw [denied resource later same order] at allowed
      cases allowed
  · rw [if_neg capable]
    refine ⟨⟨fun no => ?_, fun found => absurd (exact'.mpr found) capable⟩, fun _ => ?_, fun _ => rfl⟩
    · cases no
    · intro resource later same order
      rw [← Bool.not_eq_true]
      exact fun allowed => capable (exact'.mpr ⟨resource, later, same, order, allowed⟩)

end Results

section Reach

/-- A role row reaches the scope of its two columns; without both it is global for a
super-administrator, and with an unknown type it is that of its owner. -/
theorem toScope_cases (row : RoleAssignmentView) :
    (∃ scopeType scopeId, row.scopeType = some (ScopeType.text scopeType) ∧
      row.scopeId = some scopeId ∧
        toScope row.role row.scopeType row.scopeId = .resource scopeType scopeId) ∨
    ((row.scopeType = none ∨ row.scopeId = none) ∧
      toScope row.role row.scopeType row.scopeId =
        if row.role = .superAdmin then .global else .own) ∨
    ((∀ scopeType, row.scopeType ≠ some (ScopeType.text scopeType)) ∧
      toScope row.role row.scopeType row.scopeId = .own) := by
  obtain ⟨role, scopeType, scopeId⟩ := row
  cases scopeType with
  | none => exact .inr (.inl ⟨.inl rfl, rfl⟩)
  | some text =>
      cases scopeId with
      | none => exact .inr (.inl ⟨.inr rfl, rfl⟩)
      | some scopeId =>
          cases named : ScopeType.ofText text with
          | some scopeType =>
              refine .inl ⟨scopeType, scopeId, ?_, rfl, ?_⟩
              · exact congrArg some (ScopeType.text_of_ofText named)
              · simp only [toScope, named]
          | none =>
              refine .inr (.inr ⟨fun scopeType same => ?_, ?_⟩)
              · cases same
                rw [ScopeType.ofText_text] at named
                cases named
              · simp only [toScope, named]

theorem grantOf_mem {role : Role} {type : ResourceType} {grant : Grant}
    (granted : grantOf role type = some grant) : grant ∈ policy role ∧ grant.resource = type := by
  have found := List.find?_some granted
  exact ⟨List.mem_of_find?_eq_some granted, of_decide_eq_true found⟩

/-- The columns that no role of the matrix may write: the logs. -/
def logs : List ResourceType := [.auditLog, .ratingHistory]

theorem policy_logs (role : Role) :
    ∀ grant ∈ policy role, grant.resource ∈ logs → grant.actions = r := by
  cases role <;> decide +kernel

/-- Nobody writes a log. And whoever is no super-administrator writes only what one of the own role
rows reaches by its scope, or what the user owns if the row has none or one of no known type. -/
theorem write_reach (rows : List RoleAssignmentView) (userId : Nat) (action : Action)
    (resource : ResourceRef) (now : Nat) (writes : action ≠ .read)
    (allowed : can ⟨userId, toDomainAssignments rows⟩ action resource now = true) :
    resource.type ∉ logs ∧ ∃ row ∈ rows,
      (∃ grant ∈ policy row.role, grant.resource = resource.type ∧ action ∈ grant.actions) ∧
      ((∃ scopeType scopeId, row.scopeType = some (ScopeType.text scopeType) ∧
          row.scopeId = some scopeId ∧ resource.scopeId scopeType = some scopeId) ∨
        ((row.scopeType = none ∨ row.scopeId = none) ∧
          (row.role = .superAdmin ∨ resource.ownerUserId = some userId)) ∨
        ((∀ scopeType, row.scopeType ≠ some (ScopeType.text scopeType)) ∧
          resource.ownerUserId = some userId)) := by
  obtain ⟨a, inside, grant, permits⟩ := can_iff.mp allowed
  obtain ⟨row, here, rfl⟩ := List.mem_map.mp inside
  obtain ⟨listed, type⟩ := grantOf_mem permits.granted
  refine ⟨fun log => ?_, row, here, ⟨grant, listed, type, permits.listed⟩, ?_⟩
  · have only := policy_logs row.role grant listed (type ▸ log)
    have isRead := permits.listed
    rw [only, r, List.mem_singleton] at isRead
    exact writes isRead
  · rcases permits.covered with ⟨isRead, -⟩ | covers
    · exact absurd isRead writes
    · rcases toScope_cases row with ⟨scopeType, scopeId, type, id, scope⟩ | ⟨bare, scope⟩ |
        ⟨unknown, scope⟩
      · rw [scope, scopeCovers, decide_eq_true_iff] at covers
        exact .inl ⟨scopeType, scopeId, type, id, covers⟩
      · refine .inr (.inl ⟨bare, ?_⟩)
        by_cases admin : row.role = .superAdmin
        · exact .inl admin
        · rw [scope, if_neg admin, scopeCovers, decide_eq_true_iff] at covers
          exact .inr covers
      · rw [scope, scopeCovers, decide_eq_true_iff] at covers
        exact .inr (.inr ⟨unknown, covers⟩)

theorem write_reach_club : ResourceType.tournament ∉ logs ∧
    ∃ row ∈ [(⟨.clubAdmin, some "CLUB", some 7⟩ : RoleAssignmentView)],
      (∃ grant ∈ policy row.role, grant.resource = .tournament ∧ Action.create ∈ grant.actions) ∧
      ((∃ scopeType scopeId, row.scopeType = some (ScopeType.text scopeType) ∧
          row.scopeId = some scopeId ∧
            (⟨.tournament, none, some 7, some 2, some 1, none, none⟩ : ResourceRef).scopeId
              scopeType = some scopeId) ∨
        ((row.scopeType = none ∨ row.scopeId = none) ∧
          (row.role = .superAdmin ∨ (none : Option Nat) = some 3)) ∨
        ((∀ scopeType, row.scopeType ≠ some (ScopeType.text scopeType)) ∧
          (none : Option Nat) = some 3)) :=
  write_reach [⟨.clubAdmin, some "CLUB", some 7⟩] 3 .create
    ⟨.tournament, none, some 7, some 2, some 1, none, none⟩ 0 (by decide) (by decide +kernel)

end Reach

end Farzin.Rbac
