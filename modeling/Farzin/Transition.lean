import Mathlib.Logic.Relation

set_option autoImplicit false

/- Systems that take one labelled step at a time, and the rules by which a property of
single steps becomes a property of whole runs. A step that is not enabled is `none`, so
every concrete run can be evaluated. -/
namespace Farzin.Transition

structure System (State Label : Type) where
  initial : State → Prop
  step : State → Label → Option State

namespace System

variable {State Label : Type} (system : System State Label) (guard : State → Label → Prop)

/-- One step whose label satisfies the guard in the state it leaves. -/
def Step (s t : State) : Prop :=
  ∃ label, guard s label ∧ system.step s label = some t

/-- Any number of guarded steps. -/
abbrev Steps : State → State → Prop :=
  Relation.ReflTransGen (system.Step guard)

def ReachableWhile (s : State) : Prop :=
  ∃ start, system.initial start ∧ system.Steps guard start s

/-- Reachable by any steps at all. -/
abbrev Reachable : State → Prop :=
  system.ReachableWhile fun _ _ => True

variable {system guard}

theorem Steps.weaken {s t : State} (steps : system.Steps guard s t) :
    system.Steps (fun _ _ => True) s t := by
  induction steps with
  | refl => exact .refl
  | tail _ last ih =>
      obtain ⟨label, _, taken⟩ := last
      exact ih.tail ⟨label, trivial, taken⟩

theorem ReachableWhile.reachable {s : State} (reached : system.ReachableWhile guard s) :
    system.Reachable s := by
  obtain ⟨start, initial, steps⟩ := reached
  exact ⟨start, initial, steps.weaken⟩

theorem ReachableWhile.extend {s t : State} (reached : system.ReachableWhile guard s)
    (steps : system.Steps guard s t) : system.ReachableWhile guard t := by
  obtain ⟨start, initial, before⟩ := reached
  exact ⟨start, initial, before.trans steps⟩

/-- The induction rule of a run: what every step preserves, the run preserves. -/
theorem Steps.preserve (P : State → Prop)
    (preserved : ∀ s label t, P s → guard s label → system.step s label = some t → P t)
    {s t : State} (steps : system.Steps guard s t) (start : P s) : P t := by
  induction steps with
  | refl => exact start
  | tail _ last ih =>
      obtain ⟨label, allowed, taken⟩ := last
      exact preserved _ label _ ih allowed taken

/-- An invariant of the initial states that every step preserves holds when reached. -/
theorem ReachableWhile.invariant (P : State → Prop)
    (base : ∀ s, system.initial s → P s)
    (preserved : ∀ s label t, P s → guard s label → system.step s label = some t → P t)
    {s : State} (reached : system.ReachableWhile guard s) : P s := by
  obtain ⟨start, initial, steps⟩ := reached
  exact steps.preserve P preserved (base start initial)

/-- What a reachable state has, and steps between reachable states keep, stays. -/
theorem ReachableWhile.keep (P Q : State → Prop)
    (invariant : ∀ s, system.ReachableWhile guard s → P s)
    (kept : ∀ s label t, P s → Q s → guard s label → system.step s label = some t → Q t)
    {s t : State} (reached : system.ReachableWhile guard s) (steps : system.Steps guard s t)
    (start : Q s) : Q t := by
  induction steps with
  | refl => exact start
  | tail before last ih =>
      obtain ⟨label, allowed, taken⟩ := last
      exact kept _ label _ (invariant _ (reached.extend before)) ih allowed taken

/-- A map into another system carries runs along when it carries each step to a run. -/
theorem ReachableWhile.simulate {State' Label' : Type} {abstract : System State' Label'}
    {guard' : State' → Label' → Prop} (project : State → State') (P : State → Prop)
    (invariant : ∀ s, system.ReachableWhile guard s → P s)
    (base : ∀ s, system.initial s → abstract.initial (project s))
    (simulated : ∀ s label t, P s → guard s label → system.step s label = some t →
      abstract.Steps guard' (project s) (project t))
    {s : State} (reached : system.ReachableWhile guard s) :
    abstract.ReachableWhile guard' (project s) := by
  obtain ⟨start, initial, steps⟩ := reached
  refine ⟨project start, base start initial, ?_⟩
  induction steps with
  | refl => exact .refl
  | tail before last ih =>
      obtain ⟨label, allowed, taken⟩ := last
      exact ih.trans (simulated _ label _ (invariant _ ⟨start, initial, before⟩) allowed taken)

variable (system) in
/-- The state after a list of labels, if all of them are enabled. -/
def run (s : State) : List Label → Option State
  | [] => some s
  | label :: labels => (system.step s label).bind fun t => run t labels

variable (guard) in
/-- The guard holds at every step of a concrete run. -/
def Guarded (system : System State Label) (s : State) : List Label → Prop
  | [] => True
  | label :: labels =>
      guard s label ∧ ∀ t ∈ system.step s label, Guarded system t labels

instance decidableGuarded [∀ s label, Decidable (guard s label)] (s : State) :
    (labels : List Label) → Decidable (Guarded guard system s labels)
  | [] => .isTrue trivial
  | label :: labels =>
      have : ∀ t, Decidable (Guarded guard system t labels) := fun t => decidableGuarded t labels
      inferInstanceAs (Decidable
        (guard s label ∧ ∀ t ∈ system.step s label, Guarded guard system t labels))

theorem Guarded.mono {guard' : State → Label → Prop}
    (weaker : ∀ s label, guard s label → guard' s label) {s : State} {labels : List Label}
    (guarded : Guarded guard system s labels) : Guarded guard' system s labels := by
  induction labels generalizing s with
  | nil => trivial
  | cons label labels ih =>
      exact ⟨weaker s label guarded.1, fun t taken => ih (guarded.2 t taken)⟩

theorem Guarded.and {guard' : State → Label → Prop} {s : State} {labels : List Label}
    (guarded : Guarded guard system s labels) (guarded' : Guarded guard' system s labels) :
    Guarded (fun s label => guard s label ∧ guard' s label) system s labels := by
  induction labels generalizing s with
  | nil => trivial
  | cons label labels ih =>
      exact ⟨⟨guarded.1, guarded'.1⟩, fun t taken => ih (guarded.2 t taken) (guarded'.2 t taken)⟩

/-- One guard implies another along a run when it keeps an invariant under which it does. -/
theorem Guarded.under {guard' : State → Label → Prop} (I : State → Prop) {s : State}
    {labels : List Label} (guarded : Guarded guard system s labels)
    (kept : ∀ s label t, I s → guard s label → system.step s label = some t → I t)
    (enough : ∀ s label, I s → guard s label → guard' s label) (start : I s) :
    Guarded guard' system s labels := by
  induction labels generalizing s with
  | nil => trivial
  | cons label labels ih =>
      exact ⟨enough s label start guarded.1,
        fun t taken => ih (guarded.2 t taken) (kept s label t start guarded.1 taken)⟩

theorem run_steps (s t : State) (labels : List Label) (ran : system.run s labels = some t)
    (guarded : Guarded guard system s labels) : system.Steps guard s t := by
  induction labels generalizing s with
  | nil =>
      cases ran
      exact .refl
  | cons label labels ih =>
      rw [run, Option.bind_eq_some_iff] at ran
      obtain ⟨u, taken, rest⟩ := ran
      exact .head ⟨label, guarded.1, taken⟩ (ih u rest (guarded.2 u taken))

theorem guarded_always (s : State) (labels : List Label) :
    Guarded (fun _ _ => True) system s labels := by
  induction labels generalizing s with
  | nil => trivial
  | cons label labels ih => exact ⟨trivial, fun t _ => ih t⟩

theorem run_reachable (s t : State) (labels : List Label) (initial : system.initial s)
    (ran : system.run s labels = some t) : system.Reachable t :=
  ⟨s, initial, run_steps s t labels ran (guarded_always s labels)⟩

/-- The property holds in every state of a concrete run, the first and the last included. -/
def Always (system : System State Label) (P : State → Prop) (s : State) : List Label → Prop
  | [] => P s
  | label :: labels => P s ∧ ∀ t ∈ system.step s label, Always system P t labels

theorem Always.imp {P Q : State → Prop} (weaker : ∀ s, P s → Q s) {s : State}
    {labels : List Label} (always : Always system P s labels) : Always system Q s labels := by
  induction labels generalizing s with
  | nil => exact weaker s always
  | cons label labels ih => exact ⟨weaker s always.1, fun t taken => ih (always.2 t taken)⟩

/-- When each step keeps `P` exactly if it meets the guard, whole runs do so too. -/
theorem always_iff_guarded (I P : State → Prop)
    (kept : ∀ s label t, I s → system.step s label = some t → I t)
    (exactly : ∀ s label t, I s → P s → system.step s label = some t → (P t ↔ guard s label))
    (s t : State) (labels : List Label) (ran : system.run s labels = some t) (start : I s)
    (holds : P s) : Always system P s labels ↔ Guarded guard system s labels := by
  induction labels generalizing s with
  | nil => exact ⟨fun _ => trivial, fun _ => holds⟩
  | cons label labels ih =>
      rw [run, Option.bind_eq_some_iff] at ran
      obtain ⟨u, taken, rest⟩ := ran
      have here := exactly s label u start holds taken
      have after := kept s label u start taken
      have only : ∀ v ∈ system.step s label, v = u := fun v member => by
        rw [taken] at member
        exact (Option.some.inj member).symm
      constructor
      · intro always
        have later := always.2 u taken
        have still : P u := by
          cases labels with
          | nil => exact later
          | cons _ _ => exact later.1
        refine ⟨here.mp still, fun v member => ?_⟩
        rw [only v member]
        exact (ih u rest after still).mp later
      · intro guarded
        have still := here.mpr guarded.1
        refine ⟨holds, fun v member => ?_⟩
        rw [only v member]
        exact (ih u rest after still).mpr (guarded.2 u taken)

/-- Every step of a concrete run is as required. -/
def EveryStep (system : System State Label) (required : State → Label → State → Prop) (s : State) :
    List Label → Prop
  | [] => True
  | label :: labels =>
      ∀ t ∈ system.step s label, required s label t ∧ EveryStep system required t labels

theorem EveryStep.last {required : State → Label → State → Prop} {s t u : State} {label : Label}
    {labels : List Label} (every : EveryStep system required s (labels ++ [label]))
    (ran : system.run s labels = some t) (taken : system.step t label = some u) :
    required t label u := by
  induction labels generalizing s with
  | nil =>
      cases ran
      exact (every u taken).1
  | cons first labels ih =>
      rw [run, Option.bind_eq_some_iff] at ran
      obtain ⟨v, moved, rest⟩ := ran
      exact ih (every v moved).2 rest

section EveryStep

variable {required : State → Label → State → Prop} (I : State → Prop)

/-- Guarded steps that keep an invariant are as required when each of them is. -/
theorem everyStep_of_guarded
    (kept : ∀ s label t, I s → guard s label → system.step s label = some t → I t)
    (enough : ∀ s label t, I s → guard s label → system.step s label = some t →
      required s label t)
    (s : State) (labels : List Label) (start : I s) (guarded : Guarded guard system s labels) :
    EveryStep system required s labels := by
  induction labels generalizing s with
  | nil => trivial
  | cons label labels ih =>
      intro t taken
      exact ⟨enough s label t start guarded.1 taken,
        ih t (kept s label t start guarded.1 taken) (guarded.2 t taken)⟩

/-- When a step is as required exactly if it meets the guard, so is a whole run. -/
theorem everyStep_iff_guarded
    (kept : ∀ s label t, I s → system.step s label = some t → I t)
    (exactly : ∀ s label t, I s → system.step s label = some t →
      (required s label t ↔ guard s label))
    (s t : State) (labels : List Label) (ran : system.run s labels = some t) (start : I s) :
    EveryStep system required s labels ↔ Guarded guard system s labels := by
  constructor
  · intro every
    induction labels generalizing s with
    | nil => trivial
    | cons label labels ih =>
        rw [run, Option.bind_eq_some_iff] at ran
        obtain ⟨u, taken, rest⟩ := ran
        refine ⟨(exactly s label u start taken).mp (every u taken).1, fun v there => ?_⟩
        rw [Option.mem_def, taken] at there
        cases there
        exact ih u rest (kept s label u start taken) (every u taken).2
  · apply everyStep_of_guarded I
    · intro s label t here _ taken
      exact kept s label t here taken
    · intro s label t here allowed taken
      exact (exactly s label t here taken).mpr allowed
    · exact start

end EveryStep

variable (system) in
/-- How many steps of a concrete run are of some kind. -/
def tally (kind : State → Label → State → Bool) (s : State) : List Label → Nat
  | [] => 0
  | label :: labels =>
      match system.step s label with
      | none => 0
      | some t => (if kind s label t then 1 else 0) + tally kind t labels

section Tally

variable {kind : State → Label → State → Bool} (I Q : State → Prop)
  (kept : ∀ s label t, I s → system.step s label = some t → I t)
  (never : ∀ s label t, I s → Q s → system.step s label = some t →
    Q t ∧ kind s label t = false)

include kept never

theorem tally_zero (s : State) (labels : List Label) (start : I s) (done : Q s) :
    system.tally kind s labels = 0 := by
  induction labels generalizing s with
  | nil => rfl
  | cons label labels ih =>
      rw [tally]
      cases taken : system.step s label with
      | none => rfl
      | some t =>
          obtain ⟨still, off⟩ := never s label t start done taken
          have rest := ih t (kept s label t start taken) still
          simp [off, rest]

/-- When a step of some kind brings about what lasts and rules that kind out, a run has at most
one of them. -/
theorem tally_le_one
    (done : ∀ s label t, I s → system.step s label = some t → kind s label t = true → Q t)
    (s : State) (labels : List Label) (start : I s) : system.tally kind s labels ≤ 1 := by
  induction labels generalizing s with
  | nil => exact Nat.zero_le 1
  | cons label labels ih =>
      rw [tally]
      cases taken : system.step s label with
      | none => exact Nat.zero_le 1
      | some t =>
          have after := kept s label t start taken
          dsimp only
          by_cases now : kind s label t = true
          · have rest := tally_zero I Q kept never t labels after (done s label t start taken now)
            simp [now, rest]
          · rw [if_neg now, Nat.zero_add]
            exact ih t after

end Tally

end System

end Farzin.Transition
