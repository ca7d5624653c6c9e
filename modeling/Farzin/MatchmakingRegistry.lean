import Farzin.MatchmakingRuns
import Farzin.Table

set_option autoImplicit false

/- The registry tells the sweep which buckets to visit. It has every bucket with a player in it
as long as a sweep forgets only buckets that are still empty. -/
namespace Farzin.Matchmaking

open Transition (System)

/-- Every bucket with a player in it is registered. -/
def Registered (s : Redis) : Prop := ∀ pool, s.queue pool ≠ [] → pool ∈ s.registry

/-- The bucket that a sweep is about to take off the registry. -/
def Stage.forgets : Stage → Option PoolId
  | .sweepForget pool _ => some pool
  | _ => none

namespace World

variable (w : World)

/-- No request is in flight. -/
def AtRest : Prop := ∀ call, w.calls call = none

/-- A bucket that a sweep takes off the registry is empty at that moment. -/
def ForgetsEmpty : Label → Prop
  | .answer call _ => ∀ pool ∈ (w.calls call).bind Stage.forgets, w.redis.queue pool = []
  | _ => True

instance forgetsEmptyDecidable : (label : Label) → Decidable (w.ForgetsEmpty label)
  | .answer call _ =>
      inferInstanceAs (Decidable (∀ pool ∈ (w.calls call).bind Stage.forgets,
        w.redis.queue pool = []))
  | .join _ _ | .leave _ | .sweep | .fail _ | .expireMarker _ | .expireQueue _ | .expireMeta _ =>
      .isTrue trivial

end World

section Serve

variable {cfg : MatchmakingConfig} {s : Redis} {call : Nat} {reply : Reply} {stage : Stage}
  {served : Served}

/-- Neither more buckets with players nor a smaller registry. -/
structure Redis.Within (s t : Redis) : Prop where
  queues : ∀ pool, t.queue pool ≠ [] → s.queue pool ≠ []
  registry : t.registry = s.registry

theorem Registered.within {t : Redis} (registered : Registered s) (within : s.Within t) :
    Registered t := by
  intro pool waiting
  rw [within.registry]
  exact registered pool (within.queues pool waiting)

theorem dequeue_within (s : Redis) (pool : PoolId) (playerId : Nat) :
    s.Within (s.dequeue pool playerId) where
  queues other waiting := by
    obtain ⟨m, inside⟩ := List.exists_mem_of_ne_nil _ waiting
    exact List.ne_nil_of_mem (mem_dequeue inside).1
  registry := rfl

theorem Redis.Within.trans {t u : Redis} (first : s.Within t) (second : t.Within u) :
    s.Within u where
  queues pool waiting := first.queues pool (second.queues pool waiting)
  registry := second.registry.trans first.registry

theorem Redis.Within.refl (s : Redis) : s.Within s := ⟨fun _ waiting => waiting, rfl⟩

theorem proceedJoin_redis (pool : PoolId) (playerId : Nat) (info : QueueMeta)
    (candidates : List Nat) : (proceedJoin s call pool playerId info candidates).redis = s := by
  unfold proceedJoin
  split <;> rfl

theorem missed_redis (caller : Caller) : (caller.missed cfg s call).redis = s := by
  cases caller with
  | tryMatchFor => exact proceedJoin_redis _ _ _ _
  | sweepBucket =>
      simp only [Caller.missed]
      split <;> rfl

theorem paired_redis (game : MatchedGame) (gameId : Nat) (caller : Caller) :
    (caller.paired cfg s call game gameId).redis = s := by
  cases caller <;> rfl

/-- Only the place in the queue and the sweep of an empty bucket touch the registry. -/
theorem serve_registry (taken : stage.serve cfg s call reply = some served) :
    (stage.forgets = none ∧ s.Within served.redis) ∨
      (∃ pool playerId info, stage = .joinAdd pool playerId info ∧
        served.redis = s.enqueue pool ⟨playerId, info.r, call⟩ info) ∨
      ∃ pool buckets, stage = .sweepForget pool buckets ∧ served.redis = s.srem pool := by
  have same : stage.forgets = none → served.redis = s →
      stage.forgets = none ∧ s.Within served.redis := by
    intro other equal
    rw [equal]
    exact ⟨other, .refl s⟩
  cases stage with
  | joinAdd pool playerId info =>
      cases taken
      exact .inr (.inl ⟨pool, playerId, info, rfl, rfl⟩)
  | sweepForget pool buckets =>
      cases taken
      exact .inr (.inr ⟨pool, buckets, rfl, rfl⟩)
  | joinFind | joinRate | sweepMeta | creating =>
      cases taken
      exact .inl (same rfl rfl)
  | starting game gameId caller =>
      cases taken
      exact .inl (same rfl (paired_redis game gameId caller))
  | leaveRemove playerId pool =>
      cases taken
      exact .inl ⟨rfl, dequeue_within s pool playerId⟩
  | joinRange =>
      cases taken
      exact .inl (same rfl (proceedJoin_redis _ _ _ _))
  | joinMark =>
      simp only [Stage.serve] at taken
      split at taken <;> cases taken <;> exact .inl ⟨rfl, fun _ waiting => waiting, rfl⟩
  | joinMeta =>
      simp only [Stage.serve] at taken
      split at taken
      · cases taken
        exact .inl (same rfl (proceedJoin_redis _ _ _ _))
      · cases taken
        exact .inl (same rfl rfl)
  | leaveFind | leaveGet =>
      simp only [Stage.serve] at taken
      split at taken <;> cases taken <;> exact .inl (same rfl rfl)
  | sweepRegistry =>
      simp only [Stage.serve] at taken
      split at taken <;> cases taken
      exact .inl (same rfl rfl)
  | sweepRange =>
      simp only [Stage.serve] at taken
      split at taken
      · cases taken
        exact .inl (same rfl rfl)
      · split at taken <;> cases taken <;> exact .inl (same rfl rfl)
  | pairing attempt caller =>
      simp only [Stage.serve] at taken
      split at taken
      · cases taken
        exact .inl (same rfl (missed_redis caller))
      case h_2 a b removed claimed =>
        cases taken
        simp only [Redis.pairScript] at claimed
        split at claimed
        · cases claimed
          exact .inl ⟨rfl, (dequeue_within s _ _).trans (dequeue_within _ _ _)⟩
        · cases claimed

theorem enqueue_registered (registered : Registered s) (pool : PoolId) (member : Member)
    (info : QueueMeta) : Registered (s.enqueue pool member info) := by
  intro other waiting
  obtain ⟨m, inside⟩ := List.exists_mem_of_ne_nil _ waiting
  have known : other ∈ s.registry ∨ other = pool := by
    rcases mem_enqueue inside with ⟨same, _⟩ | old
    · exact .inr same
    · exact .inl (registered other (List.ne_nil_of_mem old))
  exact (Table.mem_addOnce s.registry pool other).mpr known

theorem srem_registered (registered : Registered s) (pool : PoolId) :
    Registered (s.srem pool) ↔ s.queue pool = [] := by
  constructor
  · intro still
    by_contra waiting
    have listed := (List.mem_filter.mp (still pool waiting)).2
    simp at listed
  · intro empty other waiting
    have apart : other ≠ pool := by
      rintro rfl
      exact waiting empty
    exact List.mem_filter.mpr ⟨registered other waiting, by simpa using apart⟩

end Serve

/-- A step keeps the registry complete exactly if it forgets no bucket with a player in it. -/
theorem step_registered {cfg : MatchmakingConfig} {w v : World} {label : Label}
    (registered : Registered w.redis) (taken : (matchmaking cfg).step w label = some v) :
    Registered v.redis ↔ w.ForgetsEmpty label := by
  change w.step cfg label = some v at taken
  cases label with
  | join userId pool =>
      simp only [World.step] at taken
      split at taken <;> cases taken
      exact iff_of_true registered trivial
  | leave | sweep =>
      cases taken
      exact iff_of_true registered trivial
  | fail call =>
      obtain ⟨stage, _, rfl⟩ := Option.map_eq_some_iff.mp taken
      exact iff_of_true registered trivial
  | expireMarker | expireMeta =>
      cases taken
      exact iff_of_true registered trivial
  | expireQueue pool =>
      cases taken
      refine iff_of_true (registered.within ⟨fun other waiting => ?_, rfl⟩) trivial
      obtain ⟨m, inside⟩ := List.exists_mem_of_ne_nil _ waiting
      exact List.ne_nil_of_mem (mem_expired inside)
  | answer call reply =>
      simp only [World.step, Option.bind_eq_some_iff, Option.map_eq_some_iff] at taken
      obtain ⟨stage, here, served, ran, rfl⟩ := taken
      change Registered served.redis ↔ ∀ pool ∈ (w.calls call).bind Stage.forgets, _
      rw [here, Option.bind_some]
      rcases serve_registry ran with ⟨other, within⟩ | ⟨pool, playerId, info, rfl, same⟩ |
        ⟨pool, buckets, rfl, same⟩
      · rw [other]
        exact iff_of_true (registered.within within) (fun _ inside => by cases inside)
      · rw [same]
        exact iff_of_true (enqueue_registered registered _ _ _) (fun _ inside => by cases inside)
      · rw [same, srem_registered registered pool]
        simp [Stage.forgets]

/-- The registry is complete in every state of a run exactly if the run takes off it only buckets
that are empty at that moment; then no bucket with a player in it is forgotten at rest. -/
theorem registry_complete (cfg : MatchmakingConfig) (labels : List Label) (w : World)
    (ran : (matchmaking cfg).run .empty labels = some w) :
    ((matchmaking cfg).Always (fun w => Registered w.redis) .empty labels ↔
        System.Guarded World.ForgetsEmpty (matchmaking cfg) .empty labels) ∧
      (System.Guarded World.ForgetsEmpty (matchmaking cfg) .empty labels →
        (matchmaking cfg).Always (fun w => w.AtRest → Registered w.redis) .empty labels) := by
  have exactly : (matchmaking cfg).Always (fun w => Registered w.redis) .empty labels ↔
      System.Guarded World.ForgetsEmpty (matchmaking cfg) .empty labels := by
    apply System.always_iff_guarded (fun _ => True) (fun w => Registered w.redis) _ _ .empty w
      labels ran trivial
    · exact fun pool waiting => absurd rfl waiting
    · exact fun _ _ _ _ _ => trivial
    · exact fun s label t _ registered taken => step_registered registered taken
  refine ⟨exactly, fun guarded => ?_⟩
  apply (exactly.mpr guarded).imp
  intro w registered _
  exact registered

/-- A sweep finds the bucket empty, somebody joins it, and the sweep takes it off the registry. -/
def joinDuringSweep : List Label :=
  [.join 1 blitzPool] ++ answers 0 1 5 ++ [.leave 1] ++ answers 1 1 3 ++
    [.sweep, .answer 2 { replyFor 1 with buckets := [blitzPool] }] ++ answers 2 1 1 ++
    [.join 2 blitzPool] ++ answers 3 2 5 ++ answers 2 1 1

theorem joinDuringSweep_forgotten :
    ((matchmaking defaultMatchmakingConfig).run .empty joinDuringSweep).map
      (fun w => ((w.number, [w.calls 0, w.calls 1, w.calls 2, w.calls 3]),
        w.redis.queue blitzPool, w.redis.registry)) =
      some ((4, [none, none, none, none]), [⟨2, 1500, 3⟩], []) := by
  decide +kernel

theorem bucket_forgotten :
    ∃ w, (matchmaking defaultMatchmakingConfig).run .empty joinDuringSweep = some w ∧ w.AtRest ∧
      ¬ Registered w.redis := by
  obtain ⟨w, ran, seen⟩ := Option.map_eq_some_iff.mp joinDuringSweep_forgotten
  simp only [Prod.mk.injEq, List.cons.injEq] at seen
  obtain ⟨⟨number, zero, one, two, three, _⟩, queue, registry⟩ := seen
  refine ⟨w, ran, ?_, ?_⟩
  · obtain ⟨home, homes⟩ := reachable_homes (System.run_reachable _ _ joinDuringSweep rfl ran)
    intro call
    cases here : w.calls call with
    | none => rfl
    | some stage =>
        have below := homes.numbered call stage here
        rw [number] at below
        interval_cases call <;> simp_all
  · intro registered
    have listed := registered blitzPool (by rw [queue]; exact List.cons_ne_nil _ _)
    rw [registry] at listed
    cases listed

/-- A player joins and a sweep visits the bucket. -/
def joinThenSweep : List Label :=
  [.join 1 blitzPool] ++ answers 0 1 5 ++
    [.sweep, .answer 1 { replyFor 1 with buckets := [blitzPool] }] ++ answers 1 1 1

theorem joinThenSweep_registered :
    ∃ w, (matchmaking defaultMatchmakingConfig).run .empty joinThenSweep = some w ∧
      (matchmaking defaultMatchmakingConfig).Always (fun w => Registered w.redis) .empty
        joinThenSweep := by
  have ran : ((matchmaking defaultMatchmakingConfig).run .empty joinThenSweep).isSome := by
    decide +kernel
  obtain ⟨w, ran⟩ := Option.isSome_iff_exists.mp ran
  have guarded : System.Guarded World.ForgetsEmpty (matchmaking defaultMatchmakingConfig) .empty
      joinThenSweep := by
    decide +kernel
  have complete := registry_complete defaultMatchmakingConfig joinThenSweep w ran
  exact ⟨w, ran, complete.1.mpr guarded⟩

end Farzin.Matchmaking
