import Farzin.IdentityEffects
import Farzin.Interleaving
import Mathlib.Algebra.Order.Ring.Int

set_option autoImplicit false

/- Second factors of one user, verified by any number of requests at once (`TotpService.verify`
of `identity/mfa/totp.service.ts`). A request has read the user before it verifies, and what it
has found takes effect at a later await. -/
namespace Farzin.Identity

open Interleaving Transition

/-- What `verify` recognises in a code, before the await that makes use of it. -/
inductive Factor where
  | totp (code : String)
  | backup (codeHash : String)
  deriving DecidableEq, Repr

/-- The part of `verify` before its awaits. -/
def recognise (crypto : Crypto) (now : Int) (user : User) (code : String) : Option Factor :=
  match user.totpEnabled, user.totpSecret with
  | true, some secret =>
      let sixDigits := code.toList.length = 6 ∧ code.toList.all Char.isDigit
      if sixDigits ∧ crypto.checkTotp code secret now then some (.totp code)
      else
        let codeHash := crypto.sha256 (code.map Char.toLower)
        if codeHash ∈ user.totpBackupCodes then some (.backup codeHash) else none
  | _, _ => none

/-- A factor that has been accepted, with the times at which it was checked and took effect. -/
structure Acceptance where
  factor : Factor
  checkedAt : Int
  acceptedAt : Int
  deriving DecidableEq, Repr

inductive VerifyCall where
  | find (code : String)
  | check (user : User) (code : String)
  | accept (user : User) (factor : Factor) (checkedAt : Int)
  deriving DecidableEq, Repr

structure FactorState where
  store : Store
  accepted : List Acceptance

/-- The statement by which a factor takes effect: `SET NX` of the marker of a code, or the backup
codes that were read without the one that was used. -/
def Factor.statement (s : Store) (user : User) : Factor → Option Statement
  | .totp code =>
      if (s.get (.totpUsed user.id code)).isSome then none
      else some (.set (.totpUsed user.id code) .mark totpUsedTtlMs)
  | .backup codeHash =>
      some (.replaceBackupCodes user.id (user.totpBackupCodes.filter fun c => c ≠ codeHash))

section Program

variable (crypto : Crypto) (userId : Nat)

def FactorState.accept (s : FactorState) (user : User) (factor : Factor) (checkedAt : Int) :
    FactorState :=
  match factor.statement s.store user with
  | none => s
  | some statement =>
      match s.store.exec crypto statement with
      | none => s
      | some store => ⟨store, s.accepted ++ [⟨factor, checkedAt, s.store.now⟩]⟩

def FactorState.advance (s : FactorState) : VerifyCall → FactorState × Option VerifyCall
  | .find code => (s, (s.store.findById userId).map fun user => .check user code)
  | .check user code =>
      (s, (recognise crypto s.store.now user code).map fun factor =>
        .accept user factor s.store.now)
  | .accept user factor checkedAt => (s.accept crypto user factor checkedAt, none)

/-- Nothing has been accepted. -/
structure FactorState.Initial (s : FactorState) : Prop where
  accepted : s.accepted = []

def secondFactors : Program FactorState VerifyCall Nat where
  initial := FactorState.Initial
  arrives _ call := match call with
    | .find _ => true
    | _ => false
  advance := FactorState.advance crypto userId
  event s ms := some { s with store := { s.store with now := s.store.now + ms } }

/-- Both awaits taken at once are `verify` as the login requests model it. -/
theorem verifyTotp_eq (s : Store) (user : User) (code : String) :
    verifyTotp crypto s user code =
      (recognise crypto s.now user code).bind fun factor => factor.statement s user := by
  unfold verifyTotp recognise
  cases enabled : user.totpEnabled with
  | false => rfl
  | true =>
      cases secret : user.totpSecret with
      | none => rfl
      | some secret =>
          dsimp only
          split
          · rfl
          · split
            · rfl
            · rfl

end Program

section Steps

/-- The time step that a moment lies in; a step is 30 seconds. -/
def timeStep (time : Int) : Int := time / 30000

/-- A code counts from one step before its own to one step after it. -/
def InWindow (step time : Int) : Prop := timeStep time - 1 ≤ step ∧ step ≤ timeStep time + 1

instance (step time : Int) : Decidable (InWindow step time) := by
  unfold InWindow
  infer_instance

variable (codeAt : Int → String)

/-- The acceptance is one of the code of a time step. -/
def Acceptance.OfStep (step : Int) (acceptance : Acceptance) : Bool :=
  decide (acceptance.factor = .totp (codeAt step) ∧ InWindow step acceptance.checkedAt)

def Acceptance.OfBackup (codeHash : String) (acceptance : Acceptance) : Bool :=
  decide (acceptance.factor = .backup codeHash)

/-- No backup code and no code of a time step has been accepted twice. -/
structure FactorState.OneTime (s : FactorState) : Prop where
  backup : ∀ codeHash, s.accepted.countP (Acceptance.OfBackup codeHash) ≤ 1
  totp : ∀ step, s.accepted.countP (Acceptance.OfStep codeAt step) ≤ 1

/-- The stored backup codes are still those that were read, and the marker of a code is set while
the code still counts. -/
def Undisturbed (userId : Nat) (s : FactorState) : VerifyCall → Prop
  | .accept user (.backup _) _ =>
      ∀ stored ∈ s.store.findById userId, stored.totpBackupCodes = user.totpBackupCodes
  | .accept _ (.totp code) checkedAt =>
      ∀ step, codeAt step = code → InWindow step checkedAt → timeStep s.store.now ≤ step + 1
  | _ => True

end Steps

section Invariant

variable {crypto : Crypto} {userId : Nat} {codeAt : Int → String} {s : FactorState}

/-- What has been accepted is used up: a backup code is no longer stored, and the marker of a code
outlasts the window of its step. -/
structure FactorState.Sound (userId : Nat) (codeAt : Int → String) (s : FactorState) : Prop where
  once : s.OneTime codeAt
  order : ∀ acceptance ∈ s.accepted,
    acceptance.checkedAt ≤ acceptance.acceptedAt ∧ acceptance.acceptedAt ≤ s.store.now
  gone : ∀ acceptance ∈ s.accepted, ∀ codeHash, acceptance.factor = .backup codeHash →
    ∀ stored ∈ s.store.findById userId, codeHash ∉ stored.totpBackupCodes
  marked : ∀ acceptance ∈ s.accepted, ∀ code, acceptance.factor = .totp code →
    ∃ entry ∈ s.store.redis (.totpUsed userId code),
      acceptance.acceptedAt + totpUsedTtlMs ≤ entry.expiresAt

def VerifyCall.Sound (userId : Nat) (s : FactorState) : VerifyCall → Prop
  | .find _ => True
  | .check user _ => user.id = userId
  | .accept user factor checkedAt => user.id = userId ∧ checkedAt ≤ s.store.now ∧
      ∀ codeHash, factor = .backup codeHash → codeHash ∈ user.totpBackupCodes

theorem recognise_backup {now : Int} {user : User} {code codeHash : String}
    (found : recognise crypto now user code = some (.backup codeHash)) :
    codeHash ∈ user.totpBackupCodes := by
  unfold recognise at found
  split at found
  · dsimp only at found
    split at found
    · cases found
    · split at found
      · rename_i listed
        cases found
        exact listed
      · cases found
  · cases found

/-- Two moments at which one step counts are less than 90 seconds apart. -/
theorem window_span {step checkedAt now : Int} (inside : InWindow step checkedAt)
    (still : timeStep now ≤ step + 1) : now < checkedAt + totpUsedTtlMs := by
  unfold InWindow timeStep at inside
  unfold timeStep at still
  unfold totpUsedTtlMs
  omega

/-- While the marker of a code can be set, no code of a step that still counts was accepted. -/
theorem step_free (sound : s.Sound userId codeAt) {step : Int}
    (free : s.store.get (.totpUsed userId (codeAt step)) = none)
    (still : timeStep s.store.now ≤ step + 1) :
    s.accepted.countP (Acceptance.OfStep codeAt step) = 0 := by
  rw [List.countP_eq_zero]
  intro acceptance listed own
  obtain ⟨factor, inside⟩ := of_decide_eq_true own
  obtain ⟨entry, present, lasts⟩ := sound.marked acceptance listed _ factor
  have span := window_span inside still
  have order := sound.order acceptance listed
  have expired : ¬ s.store.now < entry.expiresAt := by
    intro live
    rw [Store.get, Option.mem_def.mp present] at free
    simp [live] at free
  omega

theorem backup_free (sound : s.Sound userId codeAt) {codeHash : String} {stored : User}
    (found : s.store.findById userId = some stored) (listed : codeHash ∈ stored.totpBackupCodes) :
    s.accepted.countP (Acceptance.OfBackup codeHash) = 0 := by
  rw [List.countP_eq_zero]
  intro acceptance inside own
  exact sound.gone acceptance inside codeHash (of_decide_eq_true own) stored found listed

/-- Accepting the code of a step. -/
theorem totp_sound (sound : s.Sound userId codeAt) {code : String} {checkedAt : Int}
    (free : s.store.get (.totpUsed userId code) = none) (order : checkedAt ≤ s.store.now)
    (still : ∀ step, codeAt step = code → InWindow step checkedAt →
      timeStep s.store.now ≤ step + 1) :
    FactorState.Sound userId codeAt
      ⟨{ s.store with
          redis := Function.update s.store.redis (.totpUsed userId code)
            (some ⟨.mark, s.store.now + totpUsedTtlMs⟩) },
        s.accepted ++ [⟨.totp code, checkedAt, s.store.now⟩]⟩ where
  once := by
    refine ⟨fun codeHash => ?_, fun step => ?_⟩
    · show (s.accepted ++ _).countP _ ≤ 1
      have before := sound.once.backup codeHash
      simpa [List.countP_append, Acceptance.OfBackup] using before
    · show (s.accepted ++ _).countP _ ≤ 1
      have before := sound.once.totp step
      rw [List.countP_append, List.countP_singleton]
      by_cases own : Acceptance.OfStep codeAt step ⟨.totp code, checkedAt, s.store.now⟩ = true
      · obtain ⟨factor, inside⟩ := of_decide_eq_true own
        have same : codeAt step = code := (Factor.totp.inj factor).symm
        have none := step_free sound (by rw [same]; exact free) (still step same inside)
        rw [none, if_pos own]
      · rw [if_neg own]
        exact before
  order := by
    intro acceptance listed
    rcases List.mem_append.mp listed with old | new
    · exact sound.order acceptance old
    · rw [List.mem_singleton.mp new]
      exact ⟨order, le_refl _⟩
  gone := by
    intro acceptance listed codeHash factor
    rcases List.mem_append.mp listed with old | new
    · exact sound.gone acceptance old codeHash factor
    · rw [List.mem_singleton.mp new] at factor
      cases factor
  marked := by
    intro acceptance listed other factor
    by_cases same : other = code
    · refine ⟨⟨.mark, s.store.now + totpUsedTtlMs⟩, ?_, ?_⟩
      · rw [same]
        exact Function.update_self _ _ _
      · show acceptance.acceptedAt + totpUsedTtlMs ≤ s.store.now + totpUsedTtlMs
        rcases List.mem_append.mp listed with old | new
        · have order := sound.order acceptance old
          omega
        · rw [List.mem_singleton.mp new]
    · rcases List.mem_append.mp listed with old | new
      · obtain ⟨entry, present, lasts⟩ := sound.marked acceptance old other factor
        refine ⟨entry, ?_, lasts⟩
        show Function.update s.store.redis _ _ _ = some entry
        rw [Function.update_of_ne]
        · exact present
        · intro key
          cases key
          exact same rfl
      · rw [List.mem_singleton.mp new] at factor
        cases factor
        exact absurd rfl same

/-- Accepting a backup code that is stored. -/
theorem backup_sound (sound : s.Sound userId codeAt) {codeHash : String} {checkedAt : Int}
    {stored : User} {store : Store} (order : checkedAt ≤ s.store.now)
    (found : s.store.findById userId = some stored) (listed : codeHash ∈ stored.totpBackupCodes)
    (done : s.store.updateUser userId (fun u => { u with
      totpBackupCodes := stored.totpBackupCodes.filter fun c => c ≠ codeHash }) = some store) :
    FactorState.Sound userId codeAt
      ⟨store, s.accepted ++ [⟨.backup codeHash, checkedAt, s.store.now⟩]⟩ := by
  have after := updateUser_find (by intro u; rfl) done userId
  obtain ⟨-, rfl⟩ := updateUser_some done
  rw [found, Option.map_some, if_pos (findById_id found)] at after
  refine ⟨⟨fun other => ?_, fun step => ?_⟩, ?_, ?_, ?_⟩
  · show (s.accepted ++ _).countP _ ≤ 1
    rw [List.countP_append, List.countP_singleton]
    by_cases same : codeHash = other
    · have none := backup_free sound found listed
      rw [← same, none]
      split <;> omega
    · have before := sound.once.backup other
      simpa [Acceptance.OfBackup, same] using before
  · show (s.accepted ++ _).countP _ ≤ 1
    have before := sound.once.totp step
    simpa [List.countP_append, Acceptance.OfStep] using before
  · intro acceptance inside
    rcases List.mem_append.mp inside with old | new
    · exact sound.order acceptance old
    · rw [List.mem_singleton.mp new]
      exact ⟨order, le_refl _⟩
  · intro acceptance inside other factor user here
    change Store.findById _ userId = some user at here
    rw [after] at here
    cases here
    simp only [List.mem_filter, decide_eq_true_eq, not_and, not_not]
    intro still
    rcases List.mem_append.mp inside with old | new
    · exact absurd still (sound.gone acceptance old other factor stored found)
    · rw [List.mem_singleton.mp new] at factor
      exact (Factor.backup.inj factor).symm
  · intro acceptance inside code factor
    rcases List.mem_append.mp inside with old | new
    · exact sound.marked acceptance old code factor
    · rw [List.mem_singleton.mp new] at factor
      cases factor

theorem accept_sound (sound : s.Sound userId codeAt) {user : User} {factor : Factor}
    {checkedAt : Int} (own : (VerifyCall.accept user factor checkedAt).Sound userId s)
    (undisturbed : Undisturbed codeAt userId s (.accept user factor checkedAt)) :
    (s.accept crypto user factor checkedAt).Sound userId codeAt := by
  obtain ⟨rfl, order, read⟩ := own
  cases factor with
  | totp code =>
      unfold FactorState.accept
      cases free : s.store.get (.totpUsed user.id code) with
      | some marker =>
          have refused : Factor.statement s.store user (.totp code) = none := by
            simp [Factor.statement, free]
          rw [refused]
          exact sound
      | none =>
          have marks : Factor.statement s.store user (.totp code) =
              some (.set (.totpUsed user.id code) .mark totpUsedTtlMs) := by
            simp [Factor.statement, free]
          rw [marks]
          exact totp_sound sound free order undisturbed
  | backup codeHash =>
      simp only [FactorState.accept, Factor.statement]
      split
      · exact sound
      · rename_i store done
        cases found : s.store.findById user.id with
        | none =>
            have known := (updateUser_some done).1
            rw [found] at known
            cases known
        | some stored =>
            have same := undisturbed stored found
            rw [← same] at done
            have listed : codeHash ∈ stored.totpBackupCodes := by
              rw [same]
              exact read codeHash rfl
            exact backup_sound sound order found listed done

theorem accept_now (user : User) (factor : Factor) (checkedAt : Int) :
    (s.accept crypto user factor checkedAt).store.now = s.store.now := by
  unfold FactorState.accept
  split
  · rfl
  · split
    · rfl
    · rename_i done
      exact (exec_effect done).now

theorem advance_now (call : VerifyCall) :
    (s.advance crypto userId call).1.store.now = s.store.now := by
  cases call with
  | find | check => rfl
  | accept user factor checkedAt => exact accept_now user factor checkedAt

theorem VerifyCall.Sound.later {t : FactorState} {call : VerifyCall} (sound : call.Sound userId s)
    (order : s.store.now ≤ t.store.now) : call.Sound userId t := by
  cases call with
  | find => trivial
  | check => exact sound
  | accept => exact ⟨sound.1, sound.2.1.trans order, sound.2.2⟩

theorem secondFactors_outline : Outline (secondFactors crypto userId) (Undisturbed codeAt userId)
    (FactorState.Sound userId codeAt) (fun s call => call.Sound userId s) where
  starts s initial := by
    have none : s.accepted = [] := initial.accepted
    refine ⟨⟨fun codeHash => ?_, fun step => ?_⟩, ?_, ?_, ?_⟩
    · simp [none]
    · simp [none]
    · simp [none]
    · simp [none]
    · simp [none]
  enters s call _ arrives := by
    cases call with
    | find => trivial
    | check | accept => cases arrives
  acts s call sound own undisturbed := by
    cases call with
    | find | check => exact sound
    | accept => exact accept_sound sound own undisturbed
  continues s call rest _ own _ left := by
    cases call with
    | find code =>
        obtain ⟨user, found, rfl⟩ := Option.map_eq_some_iff.mp left
        exact findById_id found
    | check user code =>
        obtain ⟨factor, found, rfl⟩ := Option.map_eq_some_iff.mp left
        refine ⟨own, le_refl _, fun codeHash same => ?_⟩
        rw [same] at found
        exact recognise_backup found
    | accept => cases left
  stable s call other _ _ _ known := known.later (advance_now call).ge
  events s ms t sound happened := by
    cases happened
    have order : s.store.now ≤ s.store.now + ms := by omega
    have once := sound.once
    refine ⟨⟨⟨once.backup, once.totp⟩, fun acceptance listed => ?_, sound.gone, sound.marked⟩,
      fun other known => known.later order⟩
    have before := sound.order acceptance listed
    exact ⟨before.1, before.2.trans order⟩

end Invariant

/-- In a run in which backup codes are replaced only while the stored ones are those that were
read, and markers are set only while their code counts, no backup code and no code of a time step
is accepted twice. `codeAt` gives the codes of the user's secret. -/
theorem second_factors_once (crypto : Crypto) (userId : Nat) (codeAt : Int → String)
    (pool : Pool FactorState VerifyCall)
    (reached : (secondFactors crypto userId).system.ReachableWhile
      (Advancing (Undisturbed codeAt userId)) pool) : pool.shared.OneTime codeAt :=
  (secondFactors_outline.reached reached).1.once

section Runs

/-- Only one backup code is ever tried below, and only one code of a time step. -/
def countingCrypto : Crypto :=
  { plainCrypto with
    sha256 := fun _ => "first digest"
    checkTotp := fun code _ now => decide (code = "000007" ∧ InWindow 7 now) }

def codesOfSteps (step : Int) : String := if step = 7 then "000007" else ""

/-- User 5 has a second factor and two backup codes. -/
def withBackupCodes : FactorState where
  store := { twoUsers.store with
    users := [{ aUser 5 "olim@farzin.uz" "2knight" with
      totpEnabled := true, totpSecret := some "secret",
      totpBackupCodes := ["first digest", "second digest"] }] }
  accepted := []

theorem withBackupCodes_initial (crypto : Crypto) :
    (secondFactors crypto 5).system.initial ⟨withBackupCodes, []⟩ := ⟨⟨rfl⟩, rfl⟩

/-- Two requests read the user before either of them replaces the codes. -/
def sameCodeTwice : List (Interleaving.Label VerifyCall Nat) :=
  [.arrive (.find "0123456789"), .arrive (.find "0123456789"), .advance 0, .advance 0,
    .advance 0, .advance 0, .advance 0, .advance 0]

/-- A marker is set 90 seconds after another of the same code, by a request that has checked the
code in time. -/
def markedTooLate : List (Interleaving.Label VerifyCall Nat) :=
  [.event 180000, .arrive (.find "000007"), .arrive (.find "000007"), .advance 0, .advance 0,
    .advance 0, .advance 0, .advance 0, .event 90000, .advance 0]

theorem second_factors_twice :
    (∃ pool, (secondFactors countingCrypto 5).system.run ⟨withBackupCodes, []⟩ sameCodeTwice =
        some pool ∧ ¬ pool.shared.OneTime codesOfSteps) ∧
      ∃ pool, (secondFactors countingCrypto 5).system.run ⟨withBackupCodes, []⟩ markedTooLate =
        some pool ∧ ¬ pool.shared.OneTime codesOfSteps := by
  refine ⟨⟨_, rfl, fun once => ?_⟩, ⟨_, rfl, fun once => ?_⟩⟩
  · have twice := once.backup "first digest"
    revert twice
    decide
  · have twice := once.totp 7
    revert twice
    decide

/-- The code of a step is accepted, and a backup code after it. -/
def oneAfterTheOther : List (Interleaving.Label VerifyCall Nat) :=
  [.event 180000, .arrive (.find "000007"), .advance 0, .advance 0, .advance 0,
    .arrive (.find "0123456789"), .advance 0, .advance 0, .advance 0]

theorem oneAfterTheOther_undisturbed : System.Guarded (Advancing (Undisturbed codesOfSteps 5))
    (secondFactors countingCrypto 5).system ⟨withBackupCodes, []⟩ oneAfterTheOther := by
  iterate 2
    refine ⟨trivial, fun _ taken => ?_⟩
    cases taken
  iterate 2
    refine ⟨fun _ here => (by cases here; trivial), fun _ taken => ?_⟩
    cases taken
  refine ⟨fun _ here => ?_, fun _ taken => ?_⟩
  · cases here
    intro step _ inside
    have lower := inside.1
    show timeStep 180000 ≤ step + 1
    change timeStep 180000 - 1 ≤ step at lower
    omega
  cases taken
  refine ⟨trivial, fun _ taken => ?_⟩
  cases taken
  iterate 2
    refine ⟨fun _ here => (by cases here; trivial), fun _ taken => ?_⟩
    cases taken
  refine ⟨fun _ here => ?_, fun _ _ => trivial⟩
  cases here
  intro stored found
  cases found
  rfl

theorem oneAfterTheOther_once :
    ∃ pool, (secondFactors countingCrypto 5).system.run ⟨withBackupCodes, []⟩ oneAfterTheOther =
      some pool ∧ pool.shared.accepted.length = 2 ∧ pool.shared.OneTime codesOfSteps :=
  ⟨_, rfl, rfl, second_factors_once countingCrypto 5 codesOfSteps _
    ⟨_, withBackupCodes_initial countingCrypto,
      System.run_steps _ _ oneAfterTheOther rfl oneAfterTheOther_undisturbed⟩⟩

end Runs

end Farzin.Identity
