import Farzin.RateLimit

set_option autoImplicit false

/- Calls of the limiter one after another: what `consume` decides from the attempts of the window
before it, what a rejected one leaves, and when the next one is allowed. -/
namespace Farzin.RateLimit

open Interleaving Transition

section Alone

variable (limit windowSeconds : Nat)

def LimiterState.wait (s : LimiterState) (ms : Nat) : LimiterState :=
  { s with now := s.now + ms }

/-- A whole call of `consume`, with the times that pass before its second and third step. -/
def LimiterState.consumeAlone (s : LimiterState) (second third : Nat) : LimiterState :=
  match s.advance limit windowSeconds .consume with
  | (after, none) => after
  | (after, some call) =>
      match (after.wait second).advance limit windowSeconds call with
      | (after, none) => after
      | (after, some call) => ((after.wait third).advance limit windowSeconds call).1

inductive SerialLabel where
  | consume (second third : Nat)
  | refund (token : Option Member)
  | wait (ms : Nat)
  deriving DecidableEq, Repr

def serialLimiter : System LimiterState SerialLabel where
  initial := LimiterState.Initial
  step s label :=
    match label with
    | .consume second third => some (s.consumeAlone limit windowSeconds second third)
    | .refund token =>
        if s.arrives (.refund token) then
          some (s.advance limit windowSeconds (.refund token)).1
        else none
    | .wait ms => some (s.wait ms)

end Alone

/-- What a command at a time finds of the window that ends then. -/
def LimiterState.windowAt (windowSeconds : Nat) (s : LimiterState) (time : Nat) : List Entry :=
  LimiterState.trimmed windowSeconds { s with now := time }

/-- No rejected and no refunded attempt is left in the window. -/
structure Settled (limit windowSeconds : Nat) (s : LimiterState) : Prop where
  sound : Sound limit windowSeconds s
  charged : ∀ entry ∈ s.entries, s.now < entry.score + windowSeconds * 1000 →
    entry.member ∈ s.charged

section Window

variable {limit windowSeconds : Nat} {s : LimiterState}

/-- A key lasts as long as its window. -/
theorem Sound.windowAt_eq (sound : Sound limit windowSeconds s) (time : Nat) :
    s.windowAt windowSeconds time =
      s.entries.filter fun entry => time < entry.score + windowSeconds * 1000 := by
  unfold LimiterState.windowAt LimiterState.trimmed LimiterState.stored
  dsimp only
  split
  · next gone =>
      obtain ⟨at', set, passed⟩ := (Option.any_eq_true _ _).mp gone
      refine (List.filter_eq_nil_iff.mpr fun entry inside => ?_).symm
      have lasts := sound.lasting entry inside at' set
      rw [decide_eq_true_iff] at passed ⊢
      omega
  · rfl

theorem Sound.trimmed_eq (sound : Sound limit windowSeconds s) :
    s.trimmed windowSeconds =
      s.entries.filter fun entry => s.now < entry.score + windowSeconds * 1000 :=
  sound.windowAt_eq s.now

/-- What is in the window at a later time is in it now. -/
theorem Sound.windowAt_later (sound : Sound limit windowSeconds s) {time : Nat}
    (later : s.now ≤ time) : s.windowAt windowSeconds time =
      (s.trimmed windowSeconds).filter fun entry => time < entry.score + windowSeconds * 1000 := by
  rw [sound.windowAt_eq, sound.trimmed_eq, List.filter_filter]
  refine List.filter_congr fun entry _ => ?_
  rw [eq_comm, Bool.and_eq_left_iff_imp]
  intro fresh
  rw [decide_eq_true_iff] at fresh ⊢
  omega

theorem Settled.trimmed_length (settled : Settled limit windowSeconds s) :
    (s.trimmed windowSeconds).length = (s.chargedIn windowSeconds s.now).length := by
  have sound := settled.sound
  have once : ((s.trimmed windowSeconds).map Entry.member).Nodup := by
    exact sound.distinct.sublist (trimmed_sublist.map _)
  have perm : ((s.trimmed windowSeconds).map Entry.member).Perm
      (s.chargedIn windowSeconds s.now) := by
    rw [List.perm_ext_iff_of_nodup once (chargedIn_nodup sound s.now)]
    intro member
    constructor
    · intro listed
      obtain ⟨entry, inside, rfl⟩ := List.mem_map.mp listed
      obtain ⟨stored, fresh⟩ := mem_trimmed_entries inside
      refine List.mem_filter.mpr ⟨settled.charged entry stored fresh, decide_eq_true ?_⟩
      rw [sound.scored entry stored] at fresh
      exact ⟨fresh, (sound.recent entry stored).1⟩
    · intro inside
      obtain ⟨charged, within⟩ := List.mem_filter.mp inside
      exact List.mem_map.mpr ⟨_, sound.mem_trimmed charged (of_decide_eq_true within).1, rfl⟩
  rw [← perm.length_eq, List.length_map]

end Window

section Consume

variable {limit windowSeconds : Nat} {s : LimiterState}

/-- After the second step of a rejected attempt. -/
def LimiterState.afterWithdraw (windowSeconds : Nat) (s : LimiterState) (second : Nat) :
    LimiterState :=
  let begun := (s.begun windowSeconds).wait second
  { begun with entries := zrem s.drawnMember begun.stored }

/-- The answer of the third step of a rejected attempt. -/
def LimiterState.rejection (windowSeconds : Nat) (s : LimiterState) (second third : Nat) :
    RateLimitDecision where
  allowed := false
  retryAfterSeconds := retryAfterSeconds windowSeconds
    (((((s.afterWithdraw windowSeconds second).wait third).stored.map Entry.score).min?).getD s.now)
    s.now
  remaining := 0
  token := none

theorem consumeAlone_room (sound : Sound limit windowSeconds s)
    (room : (s.trimmed windowSeconds).length + 1 ≤ limit) (second third : Nat) :
    s.consumeAlone limit windowSeconds second third =
      (s.begun windowSeconds).answer s.drawnMember
        { allowed := true
          retryAfterSeconds := 0
          remaining := limit - ((s.trimmed windowSeconds).length + 1)
          token := some s.drawnMember } := by
  unfold LimiterState.consumeAlone
  rw [sound.consume_eq, if_neg (Nat.not_lt.mpr room)]

theorem consumeAlone_full (sound : Sound limit windowSeconds s)
    (full : (s.trimmed windowSeconds).length + 1 > limit) (second third : Nat) :
    s.consumeAlone limit windowSeconds second third =
      ((s.afterWithdraw windowSeconds second).wait third).answer s.drawnMember
        (s.rejection windowSeconds second third) := by
  unfold LimiterState.consumeAlone
  rw [sound.consume_eq, if_pos full]
  rfl

/-- The sound state that a rejected attempt leaves. -/
theorem Sound.full (sound : Sound limit windowSeconds s) (second third : Nat) :
    Sound limit windowSeconds
      (((s.afterWithdraw windowSeconds second).wait third).answer s.drawnMember
        (s.rejection windowSeconds second third)) := by
  have begun := sound.begun.wait second
  have absent : s.drawnMember ∉ ((s.begun windowSeconds).wait second).allowed := by
    change s.drawnMember ∉ (s.begun windowSeconds).allowed
    rw [begun_allowed]
    exact sound.drawnMember_fresh
  have withdrawn := begun.withdrawn begun.paid (fun _ => id) (Or.inl absent)
  exact (withdrawn.wait third).rejected rfl rfl

theorem afterWithdraw_now (second : Nat) :
    (s.afterWithdraw windowSeconds second).now = s.now + second := by
  change (s.begun windowSeconds).now + second = s.now + second
  rw [begun_now]

/-- What the withdrawal leaves: the trimmed set, unless the key is gone. -/
theorem afterWithdraw_entries (sound : Sound limit windowSeconds s) (wide : windowSeconds ≠ 0)
    (second : Nat) : (s.afterWithdraw windowSeconds second).entries =
      if windowSeconds * 1000 < second then [] else s.trimmed windowSeconds := by
  obtain ⟨entries, expires⟩ := begun_entries (s := s) wide
  have absent : ∀ entry ∈ s.trimmed windowSeconds, entry.member ≠ s.drawnMember :=
    fun entry inside => sound.drawn_absent (mem_trimmed_entries inside).1
  have stored : ((s.begun windowSeconds).wait second).stored =
      if windowSeconds * 1000 < second then []
      else s.trimmed windowSeconds ++ [⟨s.now, s.drawnMember⟩] := by
    unfold LimiterState.stored
    change (if (s.begun windowSeconds).expireAt.any
      (fun at' => at' < (s.begun windowSeconds).now + second) then []
        else (s.begun windowSeconds).entries) = _
    rw [expires, entries, begun_now, Option.any_some]
    simp only [decide_eq_true_iff, Nat.add_lt_add_iff_left]
  change zrem s.drawnMember ((s.begun windowSeconds).wait second).stored = _
  rw [stored]
  split
  · rfl
  · unfold zrem
    rw [List.filter_append, List.filter_cons_of_neg (by simp), List.filter_nil, List.append_nil]
    exact zrem_of_absent absent

/-- No trace of a rejected attempt in the window, at any later time. -/
theorem windowAt_full (sound : Sound limit windowSeconds s) (wide : windowSeconds ≠ 0)
    (second third : Nat) {time : Nat} (later : s.now + second ≤ time) :
    (((s.afterWithdraw windowSeconds second).wait third).answer s.drawnMember
        (s.rejection windowSeconds second third)).windowAt windowSeconds time =
      s.windowAt windowSeconds time := by
  rw [(sound.full second third).windowAt_eq]
  change (s.afterWithdraw windowSeconds second).entries.filter _ = _
  rw [afterWithdraw_entries sound wide]
  split
  · next gone =>
      rw [sound.windowAt_eq]
      refine (List.filter_eq_nil_iff.mpr fun entry inside => ?_).symm
      have score := sound.score_le inside
      rw [decide_eq_true_iff]
      omega
  · exact (sound.windowAt_later (Nat.le_trans (Nat.le_add_right _ _) later)).symm

theorem trimmed_ne_nil (positive : 1 ≤ limit)
    (full : (s.trimmed windowSeconds).length + 1 > limit) : s.trimmed windowSeconds ≠ [] := by
  intro none
  rw [none] at full
  exact absurd positive (Nat.not_le.mpr full)

/-- An attempt is only rejected for a window that is not empty. -/
theorem wide_of_full (positive : 1 ≤ limit)
    (full : (s.trimmed windowSeconds).length + 1 > limit)
    (sound : Sound limit windowSeconds s) : windowSeconds ≠ 0 := by
  rintro rfl
  obtain ⟨entry, inside⟩ := List.exists_mem_of_ne_nil _ (trimmed_ne_nil positive full)
  obtain ⟨listed, fresh⟩ := mem_trimmed_entries inside
  have score := sound.score_le listed
  omega

/-- The wait is rounded up to seconds. -/
theorem retryAfterSeconds_enough (windowSeconds oldestScore now : Nat) :
    oldestScore + windowSeconds * 1000 ≤
      now + retryAfterSeconds windowSeconds oldestScore now * 1000 := by
  unfold retryAfterSeconds ceilSeconds
  omega

theorem stored_third (sound : Sound limit windowSeconds s) (wide : windowSeconds ≠ 0)
    (second third : Nat) :
    ((s.afterWithdraw windowSeconds second).wait third).stored =
      if windowSeconds * 1000 < second + third then [] else s.trimmed windowSeconds := by
  have expires : (s.afterWithdraw windowSeconds second).expireAt =
      some (s.now + windowSeconds * 1000) := (begun_entries wide).2
  unfold LimiterState.stored
  change (if (s.afterWithdraw windowSeconds second).expireAt.any
    (fun at' => at' < (s.afterWithdraw windowSeconds second).now + third) then []
      else (s.afterWithdraw windowSeconds second).entries) = _
  rw [expires, afterWithdraw_now, afterWithdraw_entries sound wide, Option.any_some]
  simp only [decide_eq_true_iff, Nat.add_assoc, Nat.add_lt_add_iff_left]
  split
  · rfl
  · next lasts =>
      rw [if_neg]
      omega

/-- The wait that a rejection names is over when the oldest attempt leaves the window. -/
theorem room_after_retry (settled : Settled limit windowSeconds s) (positive : 1 ≤ limit)
    (full : (s.trimmed windowSeconds).length + 1 > limit) (second third : Nat) {time : Nat}
    (later : s.now + second + third +
      (s.rejection windowSeconds second third).retryAfterSeconds * 1000 ≤ time) :
    (s.windowAt windowSeconds time).length + 1 ≤ limit := by
  have sound := settled.sound
  have wide := wide_of_full positive full sound
  have fits : (s.trimmed windowSeconds).length ≤ limit := by
    rw [settled.trimmed_length]
    exact sound.promise s.now
  have now : s.now ≤ time := by omega
  -- Some attempt of the window is over by then.
  have passed : ∃ entry ∈ s.trimmed windowSeconds,
      ¬ time < entry.score + windowSeconds * 1000 := by
    have present := trimmed_ne_nil positive full
    by_cases gone : windowSeconds * 1000 < second + third
    · obtain ⟨entry, inside⟩ := List.exists_mem_of_ne_nil _ present
      have score := sound.score_le (mem_trimmed_entries inside).1
      exact ⟨entry, inside, by omega⟩
    · obtain ⟨oldest, least⟩ : ∃ oldest,
          ((s.trimmed windowSeconds).map Entry.score).min? = some oldest := by
        rw [← Option.isSome_iff_exists, List.isSome_min?_iff]
        simpa using present
      obtain ⟨entry, inside, rfl⟩ := List.mem_map.mp (List.min?_mem least)
      have retry : (s.rejection windowSeconds second third).retryAfterSeconds =
          retryAfterSeconds windowSeconds entry.score s.now := by
        unfold LimiterState.rejection
        dsimp only
        rw [stored_third sound wide, if_neg gone, least, Option.getD_some]
      have enough := retryAfterSeconds_enough windowSeconds entry.score s.now
      rw [retry] at later
      exact ⟨entry, inside, by omega⟩
  have fewer : (s.windowAt windowSeconds time).length < (s.trimmed windowSeconds).length := by
    rw [sound.windowAt_later now, List.length_filter_lt_length_iff_exists]
    obtain ⟨entry, inside, over'⟩ := passed
    exact ⟨entry, inside, by simpa using over'⟩
  omega

end Consume

section Settled

variable {limit windowSeconds : Nat} {s : LimiterState}

theorem Settled.trimmed_charged (settled : Settled limit windowSeconds s) {entry : Entry}
    (inside : entry ∈ s.trimmed windowSeconds) : entry.member ∈ s.charged :=
  settled.charged entry (mem_trimmed_entries inside).1 (mem_trimmed_entries inside).2

theorem Settled.consume (settled : Settled limit windowSeconds s) (positive : 1 ≤ limit)
    (second third : Nat) :
    Settled limit windowSeconds (s.consumeAlone limit windowSeconds second third) := by
  have sound := settled.sound
  by_cases full : (s.trimmed windowSeconds).length + 1 > limit
  · have wide := wide_of_full positive full sound
    rw [consumeAlone_full sound full]
    refine ⟨sound.full second third, fun entry inside _ => ?_⟩
    have charged : (s.afterWithdraw windowSeconds second).charged = s.charged :=
      begun_charged (s := s)
    rw [rejected_charged rfl]
    change entry.member ∈ (s.afterWithdraw windowSeconds second).charged
    rw [charged]
    change entry ∈ (s.afterWithdraw windowSeconds second).entries at inside
    rw [afterWithdraw_entries sound wide] at inside
    split at inside
    · cases inside
    · exact settled.trimmed_charged inside
  · have room := Nat.le_of_not_gt full
    rw [consumeAlone_room sound room]
    refine ⟨sound.accepted rfl rfl room, fun entry inside _ => ?_⟩
    rw [accepted_charged sound rfl, List.mem_append, List.mem_singleton]
    change entry ∈ (s.begun windowSeconds).entries at inside
    obtain old | rfl := mem_begun inside
    · exact Or.inl (settled.trimmed_charged old)
    · exact Or.inr rfl

theorem Settled.refund (settled : Settled limit windowSeconds s) {token : Option Member}
    (arrives : s.arrives (.refund token) = true) :
    Settled limit windowSeconds (s.advance limit windowSeconds (.refund token)).1 := by
  have pending := (limiter_outline limit windowSeconds).enters s (.refund token)
    settled.sound arrives
  refine ⟨settled.sound.advance pending, fun entry inside fresh => ?_⟩
  cases token with
  | none => exact settled.charged entry inside fresh
  | some token =>
      obtain ⟨stored, other⟩ := List.mem_filter.mp inside
      obtain ⟨allowed, unpaid⟩ :=
        List.mem_filter.mp (settled.charged entry (mem_stored stored) fresh)
      refine List.mem_filter.mpr ⟨allowed, decide_eq_true fun paid => ?_⟩
      obtain before | new := List.mem_append.mp paid
      · exact of_decide_eq_true unpaid before
      · exact of_decide_eq_true other (List.mem_singleton.mp new)

theorem Settled.reached (positive : 1 ≤ limit)
    (reached : (serialLimiter limit windowSeconds).Reachable s) :
    Settled limit windowSeconds s := by
  apply reached.invariant (Settled limit windowSeconds)
  · intro s initial
    refine ⟨Sound.initial initial, fun entry inside => ?_⟩
    rw [initial.entries] at inside
    cases inside
  · intro s label t settled _ taken
    cases label with
    | consume second third =>
        cases taken
        exact settled.consume positive second third
    | refund token =>
        change (if s.arrives (.refund token) then _ else none) = some t at taken
        split at taken
        · next arrives =>
            cases taken
            exact settled.refund arrives
        · cases taken
    | wait ms =>
        cases taken
        exact ⟨settled.sound.wait ms, fun entry inside fresh =>
          settled.charged entry inside (Nat.lt_of_le_of_lt (Nat.le_add_right _ _) fresh)⟩

end Settled

section Runs

variable {limit windowSeconds : Nat} {s : LimiterState}

theorem arrive_alone {call : LimiterCall} (arrives : s.arrives call = true) :
    (limiter limit windowSeconds).system.step ⟨s, []⟩ (.arrive call) = some ⟨s, [call]⟩ :=
  if_pos arrives

theorem advance_alone (limit windowSeconds : Nat) (s : LimiterState) (call : LimiterCall) :
    (limiter limit windowSeconds).system.step ⟨s, [call]⟩ (.advance 0) =
      some ⟨(s.advance limit windowSeconds call).1,
        (s.advance limit windowSeconds call).2.toList⟩ :=
  rfl

theorem wait_alone (calls : List LimiterCall) (ms : Nat) :
    (limiter limit windowSeconds).system.step ⟨s, calls⟩ (.event ms) = some ⟨s.wait ms, calls⟩ :=
  rfl

/-- A call alone is a run of the steps of the interleaved system. -/
theorem consumeAlone_steps (sound : Sound limit windowSeconds s) (second third : Nat) :
    (limiter limit windowSeconds).system.Steps (fun _ _ => True) ⟨s, []⟩
      ⟨s.consumeAlone limit windowSeconds second third, []⟩ := by
  have first := advance_alone limit windowSeconds s .consume
  rw [sound.consume_eq] at first
  refine .head ⟨.arrive .consume, trivial, arrive_alone rfl⟩ ?_
  by_cases full : (s.trimmed windowSeconds).length + 1 > limit
  · rw [consumeAlone_full sound full]
    rw [if_pos full] at first
    refine .head ⟨.advance 0, trivial, first⟩ ?_
    refine .head ⟨.event second, trivial, wait_alone _ _⟩ ?_
    refine .head ⟨.advance 0, trivial, advance_alone _ _ _ _⟩ ?_
    refine .head ⟨.event third, trivial, wait_alone _ _⟩ ?_
    exact .single ⟨.advance 0, trivial, advance_alone _ _ _ (.readOldest s.drawnMember)⟩
  · rw [consumeAlone_room sound (Nat.le_of_not_gt full)]
    rw [if_neg full] at first
    exact .single ⟨.advance 0, trivial, first⟩

/-- Calls one after another are an interleaving of their steps. -/
theorem serial_reachable (positive : 1 ≤ limit)
    (reached : (serialLimiter limit windowSeconds).Reachable s) :
    (limiter limit windowSeconds).system.Reachable ⟨s, []⟩ := by
  refine reached.simulate
    (fun s => (⟨s, []⟩ : Pool LimiterState LimiterCall)) (Settled limit windowSeconds)
    (fun s reached => Settled.reached positive reached) ?_ ?_
  · intro s initial
    exact ⟨initial, rfl⟩
  intro s label t settled _ taken
  cases label with
  | consume second third =>
      cases taken
      exact consumeAlone_steps settled.sound second third
  | refund token =>
      change (if s.arrives (.refund token) then _ else none) = some t at taken
      split at taken
      · next arrives =>
          cases taken
          refine .head ⟨.arrive (.refund token), trivial, arrive_alone arrives⟩ ?_
          have last := advance_alone limit windowSeconds s (.refund token)
          cases token with
          | none => exact .single ⟨.advance 0, trivial, last⟩
          | some token => exact .single ⟨.advance 0, trivial, last⟩
      · cases taken
  | wait ms =>
      cases taken
      exact .single ⟨.event ms, trivial, wait_alone _ _⟩

/-- With room in the window an attempt is answered and allowed. -/
theorem allowed_attempt (sound : Sound limit windowSeconds s)
    (room : (s.trimmed windowSeconds).length + 1 ≤ limit) (second third : Nat) : ∃ decision,
      (s.consumeAlone limit windowSeconds second third).answers =
        s.answers ++ [⟨s.drawnMember, decision⟩] ∧ decision.allowed = true := by
  rw [consumeAlone_room sound room]
  change ∃ decision : RateLimitDecision, (s.begun windowSeconds).answers ++ _ = _ ∧
    decision.allowed = true
  rw [begun_answers]
  exact ⟨_, rfl, rfl⟩

/-- A rejected attempt leaves the window as it was, and after the wait it names an attempt is
allowed when nothing else has come. -/
theorem rejected_attempt (settled : Settled limit windowSeconds s) (positive : 1 ≤ limit)
    (full : (s.trimmed windowSeconds).length + 1 > limit) (second third : Nat) :
    let after := s.consumeAlone limit windowSeconds second third
    (∀ time, after.now ≤ time →
      after.windowAt windowSeconds time = s.windowAt windowSeconds time) ∧
    ∀ ms, (s.rejection windowSeconds second third).retryAfterSeconds * 1000 ≤ ms →
      ∀ second' third', ∃ retry,
        ((after.wait ms).consumeAlone limit windowSeconds second' third').answers =
          after.answers ++ [⟨(after.wait ms).drawnMember, retry⟩] ∧ retry.allowed = true := by
  intro after
  have sound := settled.sound
  have wide := wide_of_full positive full sound
  have left : after = ((s.afterWithdraw windowSeconds second).wait third).answer s.drawnMember
      (s.rejection windowSeconds second third) := consumeAlone_full sound full second third
  have now : after.now = s.now + second + third := by
    rw [left, ← afterWithdraw_now]
    rfl
  have window : ∀ time, after.now ≤ time →
      after.windowAt windowSeconds time = s.windowAt windowSeconds time := by
    intro time later
    rw [now] at later
    rw [left]
    exact windowAt_full sound wide second third (Nat.le_trans (Nat.le_add_right _ _) later)
  refine ⟨window, fun ms waited second' third' => ?_⟩
  have rested : Sound limit windowSeconds (after.wait ms) := by
    rw [left]
    exact (sound.full second third).wait ms
  have room : ((after.wait ms).trimmed windowSeconds).length + 1 ≤ limit := by
    change (after.windowAt windowSeconds (after.now + ms)).length + 1 ≤ limit
    rw [window _ (Nat.le_add_right _ _), now]
    exact room_after_retry settled positive full second third (Nat.add_le_add_left waited _)
  exact allowed_attempt rested room second' third'

end Runs

/-- The promise of the limiter. However the steps of calls interleave, no half-open window has
more than `limit` attempts that were allowed and are not refunded. For calls one after another an
attempt is allowed exactly when fewer than `limit` of these lie in the window before it, and a
rejected one leaves the stored window alone and names a wait after which, without other calls, the
next is allowed. -/
theorem slidingWindow_promise (limit windowSeconds : Nat) (positive : 1 ≤ limit) :
    (∀ pool, (limiter limit windowSeconds).system.Reachable pool → ∀ time,
      (pool.shared.chargedIn windowSeconds time).length ≤ limit) ∧
    ∀ s, (serialLimiter limit windowSeconds).Reachable s → ∀ second third,
      let after := s.consumeAlone limit windowSeconds second third
      ∃ decision, after.answers = s.answers ++ [⟨s.drawnMember, decision⟩] ∧
        (decision.allowed = true ↔ (s.chargedIn windowSeconds s.now).length < limit) ∧
        (decision.allowed = false →
          (∀ time, after.now ≤ time →
            after.windowAt windowSeconds time = s.windowAt windowSeconds time) ∧
          ∀ ms, decision.retryAfterSeconds * 1000 ≤ ms → ∀ second' third', ∃ retry,
            ((after.wait ms).consumeAlone limit windowSeconds second' third').answers =
              after.answers ++ [⟨(after.wait ms).drawnMember, retry⟩] ∧
            retry.allowed = true) := by
  refine ⟨fun pool reached time => ?_, fun s reached second third => ?_⟩
  · exact ((limiter_outline limit windowSeconds).always reached).1.promise time
  · have settled := Settled.reached positive reached
    by_cases full : (s.trimmed windowSeconds).length + 1 > limit
    · refine ⟨s.rejection windowSeconds second third, ?_, ?_,
        fun _ => rejected_attempt settled positive full second third⟩
      · rw [consumeAlone_full settled.sound full]
        change (s.begun windowSeconds).answers ++ _ = _
        rw [begun_answers]
      · rw [settled.trimmed_length] at full
        exact iff_of_false Bool.false_ne_true (Nat.not_lt.mpr (Nat.le_of_lt_succ full))
    · have room := Nat.le_of_not_gt full
      obtain ⟨decision, answered, allowed⟩ :=
        allowed_attempt settled.sound room second third
      refine ⟨decision, answered, iff_of_true allowed ?_, fun off => ?_⟩
      · rw [← settled.trimmed_length]
        exact room
      · rw [allowed] at off
        cases off

/-- Two attempts at once where one is allowed, and the rest of a run. -/
theorem slidingWindow_promise_two :
    (∀ time, (((⟨0, [], none, 0, [], []⟩ : LimiterState).consumeAlone 1 60 5 5).chargedIn 60
      time).length ≤ 1) ∧
    ∃ decision, (((⟨0, [], none, 0, [], []⟩ : LimiterState).consumeAlone 1 60 5 5).consumeAlone 1 60
        5 5).answers = [⟨⟨0, 0⟩, ⟨true, 0, 0, some ⟨0, 0⟩⟩⟩, ⟨⟨0, 1⟩, decision⟩] ∧
      decision.allowed = false ∧ decision.retryAfterSeconds = 60 := by
  let start : LimiterState := ⟨0, [], none, 0, [], []⟩
  have initial : start.Initial := ⟨rfl, rfl, rfl⟩
  have reached : (serialLimiter 1 60).Reachable (start.consumeAlone 1 60 5 5) :=
    ⟨start, initial, .single ⟨.consume 5 5, trivial, rfl⟩⟩
  have promise := slidingWindow_promise 1 60 (Nat.le_refl 1)
  refine ⟨fun time => ?_, ?_⟩
  · exact promise.1 _ (serial_reachable (Nat.le_refl 1) reached) time
  · obtain ⟨decision, answered, allowed, -⟩ := promise.2 _ reached 5 5
    refine ⟨decision, ?_, ?_, ?_⟩
    · rw [answered]
      rfl
    · rw [← Bool.not_eq_true, allowed]
      decide
    · have last : (((start.consumeAlone 1 60 5 5).consumeAlone 1 60 5 5).answers.getLast?).map
          (fun answer => answer.decision.retryAfterSeconds) = some 60 := by decide
      rw [answered, List.getLast?_concat] at last
      exact Option.some.inj last

end Farzin.RateLimit
