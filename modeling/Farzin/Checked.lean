import Mathlib.Data.List.Basic

set_option autoImplicit false

/- Computations that may fail, in the manner of code that checks every array access. Arrays
are functions with a size of their own; an access past the size is an error. -/
namespace Farzin.Checked

variable {ε α β : Type}

/-- An array access or a value that may be missing; `fail` is the error of a missing one. -/
def get (fail : ε) (size : Nat) (cells : Nat → α) (index : Nat) : Except ε α :=
  if index < size then .ok (cells index) else .error fail

def update (cells : Nat → α) (index : Nat) (value : α) : Nat → α :=
  fun i => if i = index then value else cells i

def put (fail : ε) (size : Nat) (cells : Nat → α) (index : Nat) (value : α) :
    Except ε (Nat → α) :=
  if index < size then .ok (update cells index value) else .error fail

def need (fail : ε) : Option α → Except ε α
  | some value => .ok value
  | none => .error fail

@[simp] theorem update_same (cells : Nat → α) (index : Nat) (value : α) :
    update cells index value index = value := if_pos rfl

theorem update_apply (cells : Nat → α) (index : Nat) (value : α) (i : Nat) :
    update cells index value i = if i = index then value else cells i := rfl

@[simp] theorem need_some {fail : ε} (value : α) : need fail (some value) = .ok value := rfl

@[simp] theorem ok_bind (a : α) (f : α → Except ε β) : (Except.ok a >>= f) = f a := rfl

@[simp] theorem pure_eq (a : α) : (pure a : Except ε α) = .ok a := rfl

theorem bind_ok {x : Except ε α} {f : α → Except ε β} {b : β} (ran : (x >>= f) = .ok b) :
    ∃ a, x = .ok a ∧ f a = .ok b := by
  cases x with
  | error e => cases ran
  | ok a => exact ⟨a, rfl, ran⟩

theorem get_inv {fail : ε} {size : Nat} {cells : Nat → α} {index : Nat} {a : α}
    (read : get fail size cells index = .ok a) : index < size ∧ a = cells index := by
  unfold get at read
  split at read
  · rename_i inside
    exact ⟨inside, (Except.ok.inj read).symm⟩
  · cases read

theorem put_inv {fail : ε} {size : Nat} {cells after : Nat → α} {index : Nat} {value : α}
    (written : put fail size cells index value = .ok after) :
    index < size ∧ after = update cells index value := by
  unfold put at written
  split at written
  · rename_i inside
    exact ⟨inside, (Except.ok.inj written).symm⟩
  · cases written

theorem need_inv {fail : ε} {o : Option α} {a : α} (given : need fail o = .ok a) : o = some a := by
  cases o with
  | none => cases given
  | some value => exact congrArg some (Except.ok.inj given)

/-- A loop of checks that succeeds has passed every one of them. -/
theorem forM_each {check : α → Except ε Unit} {list : List α}
    (ran : list.forM check = .ok ()) {a : α} (listed : a ∈ list) : check a = .ok () := by
  induction list with
  | nil => cases listed
  | cons b list ih =>
      obtain ⟨_, first, rest⟩ := bind_ok (show (check b >>= fun _ => list.forM check) = _ from ran)
      rcases List.mem_cons.mp listed with here | later
      · rw [here]
        exact first
      · exact ih rest later

theorem forM_ok {check : α → Except ε Unit} {list : List α}
    (passes : ∀ a ∈ list, check a = .ok ()) : list.forM check = .ok () := by
  induction list with
  | nil => rfl
  | cons a list ih =>
      change (check a >>= fun _ => list.forM check) = .ok ()
      rw [passes a List.mem_cons_self, ok_bind]
      exact ih fun a listed => passes a (List.mem_cons_of_mem _ listed)

/-- Every result satisfies `Q` and every failure satisfies `E`. -/
structure Yields (E : ε → Prop) (Q : α → Prop) (x : Except ε α) : Prop where
  result : ∀ a, x = .ok a → Q a
  failure : ∀ e, x = .error e → E e

/-- Only the failures matter. -/
abbrev Fails (E : ε → Prop) (x : Except ε α) : Prop := Yields E (fun _ => True) x

namespace Yields

variable {E F : ε → Prop} {P Q : α → Prop} {R : β → Prop} {x : Except ε α} {f : α → Except ε β}

theorem ok {a : α} (holds : Q a) : Yields E Q (.ok a : Except ε α) where
  result b same := by
    cases same
    exact holds
  failure e absurd := by cases absurd

theorem error {e : ε} (allowed : E e) : Yields E Q (.error e : Except ε α) where
  result a absurd := by cases absurd
  failure e same := by
    cases same
    exact allowed

theorem bind (first : Yields E P x) (next : ∀ a, P a → Yields E R (f a)) :
    Yields E R (x >>= f) where
  result b ran := by
    obtain ⟨a, here, rest⟩ := bind_ok ran
    exact (next a (first.result a here)).result b rest
  failure e failed := by
    cases ran : x with
    | error e' =>
        rw [ran] at failed
        cases failed
        exact first.failure e ran
    | ok a =>
        rw [ran] at failed
        exact (next a (first.result a ran)).failure e failed

/-- The rule of a step whose result does not matter. -/
theorem after (first : Fails E x) (next : ∀ a, Yields E R (f a)) : Yields E R (x >>= f) :=
  first.bind fun a _ => next a

theorem mono (first : Yields E P x) (weaker : ∀ a, P a → Q a) : Yields E Q x where
  result a ran := weaker a (first.result a ran)
  failure := first.failure

theorem excuse (first : Yields E Q x) (weaker : ∀ e, E e → F e) : Yields F Q x where
  result := first.result
  failure e failed := weaker e (first.failure e failed)

/-- What every turn of a loop keeps, the loop keeps. -/
theorem foldlM {step : β → α → Except ε β} (list : List α) (b : β) (start : R b)
    (turn : ∀ b, ∀ a ∈ list, R b → Yields E R (step b a)) : Yields E R (list.foldlM step b) := by
  induction list generalizing b with
  | nil => exact ok start
  | cons a list ih =>
      rw [List.foldlM_cons]
      apply (turn b a List.mem_cons_self start).bind
      intro b here
      exact ih b here fun b a listed => turn b a (List.mem_cons_of_mem _ listed)

/-- The results of a mapped computation, one for each element. -/
theorem mapM {step : α → Except ε β} {good : α → β → Prop} (list : List α)
    (each : ∀ a ∈ list, Yields E (good a) (step a)) :
    Yields E (List.Forall₂ good list) (list.mapM step) := by
  induction list with
  | nil => exact ok .nil
  | cons a list ih =>
      rw [List.mapM_cons]
      apply (each a List.mem_cons_self).bind
      intro b here
      apply (ih fun a listed => each a (List.mem_cons_of_mem _ listed)).bind
      intro bs rest
      exact ok (.cons here rest)

theorem mapM_all {step : α → Except ε β} {good : β → Prop} (list : List α)
    (each : ∀ a ∈ list, Yields E good (step a)) :
    Yields E (fun bs => ∀ b ∈ bs, good b) (list.mapM step) := by
  induction list with
  | nil => exact ok fun b listed => by cases listed
  | cons a list ih =>
      rw [List.mapM_cons]
      apply (each a List.mem_cons_self).bind
      intro b here
      apply (ih fun a listed => each a (List.mem_cons_of_mem _ listed)).bind
      intro bs rest
      apply ok
      intro b' listed
      rcases List.mem_cons.mp listed with same | later
      · rw [same]
        exact here
      · exact rest b' later

theorem forM {check : α → Except ε Unit} (list : List α)
    (each : ∀ a ∈ list, Fails E (check a)) : Fails E (list.forM check) := by
  induction list with
  | nil => exact ok trivial
  | cons a list ih =>
      apply (each a List.mem_cons_self).after
      intro _
      exact ih fun a listed => each a (List.mem_cons_of_mem _ listed)

end Yields

section Fails

variable {E : ε → Prop} {x y : Except ε α} {f : α → Except ε β}

@[simp] theorem ok_fails (a : α) : Fails E (.ok a : Except ε α) := .ok trivial

@[simp] theorem error_fails {e : ε} : Fails E (.error e : Except ε α) ↔ E e :=
  ⟨fun fails => fails.failure e rfl, fun allowed => .error allowed⟩

@[simp] theorem bind_fails :
    Fails E (x >>= f) ↔ Fails E x ∧ ∀ a, x = .ok a → Fails E (f a) := by
  constructor
  · intro fails
    refine ⟨⟨fun _ _ => trivial, fun e failed => fails.failure e ?_⟩,
      fun a ran => ⟨fun _ _ => trivial, fun e failed => fails.failure e ?_⟩⟩
    · rw [failed]
      rfl
    · rw [ran]
      exact failed
  · intro ⟨first, next⟩
    cases ran : x with
    | error e => exact .error (first.failure e ran)
    | ok a => exact next a ran

@[simp] theorem ite_fails {c : Prop} [Decidable c] :
    Fails E (if c then x else y) ↔ (c → Fails E x) ∧ (¬c → Fails E y) := by
  split
  · rename_i holds
    exact ⟨fun one => ⟨fun _ => one, fun fails => absurd holds fails⟩, fun both => both.1 holds⟩
  · rename_i fails
    exact ⟨fun two => ⟨fun holds => absurd holds fails, fun _ => two⟩, fun both => both.2 fails⟩

@[simp] theorem get_fails {fail : ε} (allowed : E fail) (size : Nat) (cells : Nat → α)
    (index : Nat) : Fails E (get fail size cells index) := by simp [get, allowed]

@[simp] theorem put_fails {fail : ε} (allowed : E fail) (size : Nat) (cells : Nat → α)
    (index : Nat) (value : α) : Fails E (put fail size cells index value) := by
  simp [put, allowed]

@[simp] theorem need_fails {fail : ε} (allowed : E fail) (o : Option α) :
    Fails E (need fail o) := by
  cases o with
  | none => exact .error allowed
  | some value => exact .ok trivial

@[simp] theorem foldlM_fails {step : β → α → Except ε β} (each : ∀ b a, Fails E (step b a))
    (list : List α) (b : β) : Fails E (list.foldlM step b) :=
  .foldlM list b trivial fun b a _ _ => each b a

@[simp] theorem mapM_fails {step : α → Except ε β} (each : ∀ a, Fails E (step a))
    (list : List α) : Fails E (list.mapM step) :=
  (Yields.mapM_all list fun a _ => each a).mono fun _ _ => trivial

end Fails

end Farzin.Checked
