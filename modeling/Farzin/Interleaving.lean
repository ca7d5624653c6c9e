import Farzin.Transition

set_option autoImplicit false

/- Calls that run at the same time over a shared state. A call is cut at its awaits: at each of
them it acts once on the shared state and leaves the rest of itself, or nothing when it has
ended. An outline says what holds of the shared state and of every call, and what each call may
rely on while the others act. -/
namespace Farzin.Interleaving

open Transition

structure Pool (Shared Call : Type) where
  shared : Shared
  inFlight : List Call
  deriving DecidableEq, Repr

/-- An event is whatever else changes the shared state, such as the time that passes. -/
structure Program (Shared Call Event : Type) where
  initial : Shared → Prop
  arrives : Shared → Call → Bool
  advance : Shared → Call → Shared × Option Call
  event : Shared → Event → Option Shared

/-- A call that is abandoned ends between two awaits, as when its process stops. -/
inductive Label (Call Event : Type) where
  | arrive (call : Call)
  | advance (index : Nat)
  | abandon (index : Nat)
  | event (event : Event)
  deriving DecidableEq, Repr

variable {Shared Call Event : Type}

namespace Program

variable (program : Program Shared Call Event)

def step (pool : Pool Shared Call) : Label Call Event → Option (Pool Shared Call)
  | .arrive call =>
      if program.arrives pool.shared call then
        some ⟨pool.shared, pool.inFlight ++ [call]⟩
      else none
  | .advance index =>
      pool.inFlight[index]?.map fun call =>
        let (shared, rest) := program.advance pool.shared call
        ⟨shared, pool.inFlight.eraseIdx index ++ rest.toList⟩
  | .abandon index =>
      pool.inFlight[index]?.map fun _ => ⟨pool.shared, pool.inFlight.eraseIdx index⟩
  | .event event => (program.event pool.shared event).map fun shared => ⟨shared, pool.inFlight⟩

def system : System (Pool Shared Call) (Label Call Event) where
  initial pool := program.initial pool.shared ∧ pool.inFlight = []
  step := program.step

end Program

/-- Every call that advances is allowed to, in the state that it finds. -/
def Advancing (allowed : Shared → Call → Prop) (pool : Pool Shared Call) :
    Label Call Event → Prop
  | .advance index => ∀ call ∈ pool.inFlight[index]?, allowed pool.shared call
  | _ => True

instance (allowed : Shared → Call → Prop) [∀ s call, Decidable (allowed s call)]
    (pool : Pool Shared Call) :
    (label : Label Call Event) → Decidable (Advancing allowed pool label)
  | .arrive _ => .isTrue trivial
  | .advance index =>
      inferInstanceAs (Decidable (∀ call ∈ pool.inFlight[index]?, allowed pool.shared call))
  | .abandon _ => .isTrue trivial
  | .event _ => .isTrue trivial

/-- The state has `I`, and every call in flight has `J` in it. -/
def Holds (I : Shared → Prop) (J : Shared → Call → Prop) (pool : Pool Shared Call) : Prop :=
  I pool.shared ∧ ∀ call ∈ pool.inFlight, J pool.shared call

structure Outline (program : Program Shared Call Event) (allowed : Shared → Call → Prop)
    (I : Shared → Prop) (J : Shared → Call → Prop) : Prop where
  starts : ∀ s, program.initial s → I s
  enters : ∀ s call, I s → program.arrives s call = true → J s call
  acts : ∀ s call, I s → J s call → allowed s call → I (program.advance s call).1
  continues : ∀ s call rest, I s → J s call → allowed s call →
    (program.advance s call).2 = some rest → J (program.advance s call).1 rest
  stable : ∀ s call other, I s → J s call → allowed s call → J s other →
    J (program.advance s call).1 other
  events : ∀ s event t, I s → program.event s event = some t →
    I t ∧ ∀ other, J s other → J t other

section Outline

variable {program : Program Shared Call Event} {allowed : Shared → Call → Prop}
  {I : Shared → Prop} {J : Shared → Call → Prop} {pool after : Pool Shared Call}

theorem advance_step {index : Nat} (taken : program.step pool (.advance index) = some after) :
    ∃ call, pool.inFlight[index]? = some call ∧
      after = ⟨(program.advance pool.shared call).1,
        pool.inFlight.eraseIdx index ++ (program.advance pool.shared call).2.toList⟩ := by
  rw [Program.step, Option.map_eq_some_iff] at taken
  obtain ⟨call, here, same⟩ := taken
  exact ⟨call, here, same.symm⟩

/-- A call in flight is the one at an index, or among the others. -/
theorem mem_or_erased {calls : List Call} {index : Nat} {call other : Call}
    (here : calls[index]? = some call) (listed : other ∈ calls) :
    other = call ∨ other ∈ calls.eraseIdx index := by
  obtain ⟨i, there⟩ := List.mem_iff_getElem?.mp listed
  by_cases same : i = index
  · rw [same, here] at there
    exact .inl (Option.some.inj there).symm
  · exact .inr (List.mem_eraseIdx_iff_getElem?.mpr ⟨i, same, there⟩)

theorem Holds.arrived (holds : Holds I J pool) {call : Call} (own : J pool.shared call) :
    Holds I J ⟨pool.shared, pool.inFlight ++ [call]⟩ := by
  refine ⟨holds.1, fun other inside => ?_⟩
  rcases List.mem_append.mp inside with old | new
  · exact holds.2 other old
  · rw [List.mem_singleton.mp new]
    exact own

theorem Holds.abandoned (holds : Holds I J pool) (index : Nat) :
    Holds I J ⟨pool.shared, pool.inFlight.eraseIdx index⟩ :=
  ⟨holds.1, fun other listed => holds.2 other (List.mem_of_mem_eraseIdx listed)⟩

/-- The others keep what they have when the state changes, and the call that advances leaves a
rest that has it. -/
theorem Holds.advanced (holds : Holds I J pool) {index : Nat} {shared : Shared}
    {rest : Option Call} (acts : I shared) (continues : ∀ call, rest = some call → J shared call)
    (stable : ∀ other ∈ pool.inFlight, J pool.shared other → J shared other) :
    Holds I J ⟨shared, pool.inFlight.eraseIdx index ++ rest.toList⟩ := by
  refine ⟨acts, fun other listed => ?_⟩
  rcases List.mem_append.mp listed with old | new
  · have inside := List.mem_of_mem_eraseIdx old
    exact stable other inside (holds.2 other inside)
  · exact continues other (Option.mem_toList.mp new)

/-- A step keeps what the outline says. -/
theorem Outline.kept (outline : Outline program allowed I J) {label : Label Call Event}
    (holds : Holds I J pool) (guarded : Advancing allowed pool label)
    (taken : program.step pool label = some after) : Holds I J after := by
  cases label with
  | arrive call =>
      rw [Program.step] at taken
      split at taken
      · rename_i arrives
        cases taken
        exact holds.arrived (outline.enters _ _ holds.1 arrives)
      · cases taken
  | advance index =>
      obtain ⟨call, here, rfl⟩ := advance_step taken
      have inside : call ∈ pool.inFlight := List.mem_of_getElem? here
      have may : allowed pool.shared call := guarded call here
      have own : J pool.shared call := holds.2 call inside
      apply holds.advanced
      · exact outline.acts _ _ holds.1 own may
      · exact fun rest left => outline.continues _ _ rest holds.1 own may left
      · exact fun other _ before => outline.stable _ _ other holds.1 own may before
  | abandon index =>
      rw [Program.step, Option.map_eq_some_iff] at taken
      obtain ⟨_, _, rfl⟩ := taken
      exact holds.abandoned index
  | event event =>
      rw [Program.step, Option.map_eq_some_iff] at taken
      obtain ⟨shared, happened, rfl⟩ := taken
      obtain ⟨still, others⟩ := outline.events _ _ _ holds.1 happened
      exact ⟨still, fun other listed => others other (holds.2 other listed)⟩

/-- What the outline says holds in the beginning. -/
theorem Outline.start (outline : Outline program allowed I J)
    (initial : program.system.initial pool) : Holds I J pool := by
  refine ⟨outline.starts _ initial.1, fun other listed => ?_⟩
  rw [initial.2] at listed
  cases listed

/-- What the outline says holds in every state that allowed steps reach. -/
theorem Outline.reached (outline : Outline program allowed I J)
    (reached : program.system.ReachableWhile (Advancing allowed) pool) : Holds I J pool := by
  apply reached.invariant (Holds I J)
  · intro s initial
    exact outline.start initial
  · intro s label t holds guarded taken
    exact outline.kept holds guarded taken

/-- Without a condition on the steps, in every reachable state. -/
theorem Outline.always (outline : Outline program (fun _ _ => True) I J)
    (reached : program.system.Reachable pool) : Holds I J pool := by
  apply reached.invariant (Holds I J)
  · intro s initial
    exact outline.start initial
  · intro s label t holds _ taken
    apply outline.kept holds _ taken
    cases label <;> simp [Advancing]

/-- Along a run, awaits that one condition allows are allowed by another one when what the outline
says makes up the difference. -/
theorem Outline.allows (outline : Outline program (fun _ _ => True) I J)
    {allowed allowed' : Shared → Call → Prop}
    (enough : ∀ s call, I s → J s call → allowed s call → allowed' s call)
    {labels : List (Label Call Event)} (initial : program.system.initial pool)
    (guarded : System.Guarded (Advancing allowed) program.system pool labels) :
    System.Guarded (Advancing allowed') program.system pool labels := by
  apply guarded.under (Holds I J)
  · intro s label t holds _ taken
    exact outline.kept holds (by cases label <;> simp [Advancing]) taken
  · intro s label holds allows
    cases label with
    | advance index =>
        intro call here
        have own := holds.2 call (List.mem_of_getElem? here)
        exact enough s.shared call holds.1 own (allows call here)
    | arrive call => trivial
    | abandon index => trivial
    | event event => trivial
  · exact outline.start initial

/-- What every await and every event leaves related, a run leaves related. -/
theorem Outline.along (outline : Outline program (fun _ _ => True) I J)
    (R : Shared → Shared → Prop) (refl : ∀ s, R s s) (trans : ∀ s t u, R s t → R t u → R s u)
    (acts : ∀ s call, I s → J s call → R s (program.advance s call).1)
    (events : ∀ s event t, I s → program.event s event = some t → R s t)
    (reached : program.system.Reachable pool)
    (steps : program.system.Steps (fun _ _ => True) pool after) : R pool.shared after.shared := by
  refine reached.keep (Holds I J) (fun later => R pool.shared later.shared)
    (fun s reached => outline.always reached) ?_ steps (refl _)
  intro s label t holds related _ taken
  apply trans _ _ _ related
  cases label with
  | arrive call =>
      change program.step s (.arrive call) = some t at taken
      rw [Program.step] at taken
      split at taken
      · cases taken
        exact refl _
      · cases taken
  | advance index =>
      change program.step s (.advance index) = some t at taken
      obtain ⟨call, here, rfl⟩ := advance_step taken
      exact acts _ _ holds.1 (holds.2 call (List.mem_of_getElem? here))
  | abandon index =>
      obtain ⟨_, _, rfl⟩ := Option.map_eq_some_iff.mp taken
      exact refl _
  | event event =>
      obtain ⟨_, happened, rfl⟩ := Option.map_eq_some_iff.mp taken
      exact events _ _ _ holds.1 happened

/-- When each await keeps `P` exactly if it is allowed, whole runs do so too. -/
theorem Outline.always_iff (outline : Outline program (fun _ _ => True) I J)
    {allowed : Shared → Call → Prop} (P : Shared → Prop)
    (starts : ∀ s, program.initial s → P s)
    (exactly : ∀ s call, I s → J s call → P s → (P (program.advance s call).1 ↔ allowed s call))
    (events : ∀ s event t, I s → P s → program.event s event = some t → P t)
    {labels : List (Label Call Event)} (initial : program.system.initial pool)
    (ran : program.system.run pool labels = some after) :
    program.system.Always (fun pool => P pool.shared) pool labels ↔
      System.Guarded (Advancing allowed) program.system pool labels := by
  refine System.always_iff_guarded (Holds I J) (fun pool => P pool.shared) ?_ ?_ pool after labels
    ran (outline.start initial) (starts _ initial.1)
  · intro s label t holds taken
    exact outline.kept holds (by cases label <;> simp [Advancing]) taken
  · intro s label t holds good taken
    cases label with
    | arrive call =>
        change program.step s (.arrive call) = some t at taken
        rw [Program.step] at taken
        split at taken
        · cases taken
          exact iff_of_true good trivial
        · cases taken
    | advance index =>
        obtain ⟨call, here, rfl⟩ := advance_step taken
        have own := holds.2 call (List.mem_of_getElem? here)
        have decides := exactly s.shared call holds.1 own good
        constructor
        · intro still other there
          rw [Option.mem_def, here] at there
          cases there
          exact decides.mp still
        · intro guarded
          exact decides.mpr (guarded call here)
    | abandon index =>
        obtain ⟨_, _, rfl⟩ := Option.map_eq_some_iff.mp taken
        exact iff_of_true good trivial
    | event event =>
        obtain ⟨shared, happened, rfl⟩ := Option.map_eq_some_iff.mp taken
        exact iff_of_true (events _ _ _ holds.1 good happened) trivial

end Outline

end Farzin.Interleaving
