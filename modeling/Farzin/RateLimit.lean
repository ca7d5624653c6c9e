import Farzin.Interleaving
import Mathlib.Data.List.Perm.Subperm
import Mathlib.Data.List.Nodup

set_option autoImplicit false

/- The sliding window of one key (`shared/rate-limit/sliding-window.limiter.ts`): a sorted set in
Redis, on which `consume` acts once or three times and `refund` once. Times are in milliseconds,
and each Redis step happens at the time that its caller reads. -/
namespace Farzin.RateLimit

open Interleaving Transition

/-- The text of a member is that of its time and of a random UUID, which is drawn once. -/
structure Member where
  now : Nat
  uuid : Nat
  deriving DecidableEq, Repr

structure Entry where
  score : Nat
  member : Member
  deriving DecidableEq, Repr

structure RateLimitDecision where
  allowed : Bool
  retryAfterSeconds : Nat
  remaining : Nat
  token : Option Member
  deriving DecidableEq, Repr

/-- What `consume` returned for the attempt with this member. -/
structure Answer where
  member : Member
  decision : RateLimitDecision
  deriving DecidableEq, Repr

/-- The last two fields are bookkeeping: what has been returned, and the tokens of the refunds that
have been carried out. -/
structure LimiterState where
  now : Nat
  entries : List Entry
  expireAt : Option Nat
  drawn : Nat
  answers : List Answer
  refunded : List Member
  deriving DecidableEq, Repr

/-- Each constructor is the wait before an await: three of `consume`, one of `refund`. -/
inductive LimiterCall where
  | consume
  | withdraw (member : Member)
  | readOldest (member : Member)
  | refund (token : Option Member)
  deriving DecidableEq, Repr

section Redis

/-- The sorted set as a command finds it: a key whose time is over is gone. -/
def LimiterState.stored (s : LimiterState) : List Entry :=
  if s.expireAt.any fun at' => at' < s.now then [] else s.entries

def zremrangebyscore (low high : Int) (entries : List Entry) : List Entry :=
  entries.filter fun entry => ¬ (low ≤ entry.score ∧ (entry.score : Int) ≤ high)

def zrem (member : Member) (entries : List Entry) : List Entry :=
  entries.filter fun entry => entry.member ≠ member

/-- The list is not kept in the order of the scores; only the least score is ever asked for. -/
def zadd (score : Nat) (member : Member) (entries : List Entry) : List Entry :=
  zrem member entries ++ [⟨score, member⟩]

/-- A time to live that is over at once deletes the key. -/
def LimiterState.expire (s : LimiterState) (entries : List Entry) (seconds : Nat) : LimiterState :=
  if seconds = 0 then { s with entries := [], expireAt := none }
  else { s with entries, expireAt := some (s.now + seconds * 1000) }

end Redis

section Program

variable (limit windowSeconds : Nat)

def LimiterState.answer (s : LimiterState) (member : Member) (decision : RateLimitDecision) :
    LimiterState :=
  { s with answers := s.answers ++ [⟨member, decision⟩] }

/-- `Math.ceil(ms / 1000)`. -/
def ceilSeconds (ms : Int) : Int := -(-ms / 1000)

def retryAfterSeconds (oldestScore now : Nat) : Nat :=
  (max 1 (ceilSeconds (oldestScore + windowSeconds * 1000 - now))).toNat

def LimiterState.advance (s : LimiterState) : LimiterCall → LimiterState × Option LimiterCall
  | .consume =>
      let now := s.now
      let windowStart : Int := now - windowSeconds * 1000
      let member : Member := ⟨now, s.drawn⟩
      let entries := zadd now member (zremrangebyscore 0 windowStart s.stored)
      let count := entries.length
      let after := { s with drawn := s.drawn + 1 }.expire entries windowSeconds
      if count > limit then (after, some (.withdraw member))
      else (after.answer member
        { allowed := true
          retryAfterSeconds := 0
          remaining := limit - count
          token := some member }, none)
  | .withdraw member =>
      ({ s with entries := zrem member s.stored }, some (.readOldest member))
  | .readOldest member =>
      let oldestScore := (s.stored.map Entry.score).min?.getD member.now
      (s.answer member
        { allowed := false
          retryAfterSeconds := retryAfterSeconds windowSeconds oldestScore member.now
          remaining := 0
          token := none }, none)
  | .refund none => (s, none)
  | .refund (some token) =>
      ({ s with entries := zrem token s.stored, refunded := s.refunded ++ [token] }, none)

/-- A refund gives back what a call of `consume` has returned. -/
def LimiterState.arrives (s : LimiterState) : LimiterCall → Bool
  | .consume => true
  | .refund token => decide (∃ answer ∈ s.answers, answer.decision.token = token)
  | _ => false

/-- No attempt yet. -/
structure LimiterState.Initial (s : LimiterState) : Prop where
  entries : s.entries = []
  answers : s.answers = []
  refunded : s.refunded = []

def limiter : Program LimiterState LimiterCall Nat where
  initial := LimiterState.Initial
  arrives := LimiterState.arrives
  advance := LimiterState.advance limit windowSeconds
  event s ms := some { s with now := s.now + ms }

end Program

/-- The members of the attempts that were allowed. -/
def LimiterState.allowed (s : LimiterState) : List Member :=
  (s.answers.filter fun answer => answer.decision.allowed).map Answer.member

/-- Those of them that have not been refunded. -/
def LimiterState.charged (s : LimiterState) : List Member :=
  s.allowed.filter fun member => member ∉ s.refunded

/-- The attempt lies in the half-open window that ends at a time. -/
def Member.InWindow (windowSeconds : Nat) (member : Member) (time : Nat) : Prop :=
  time < member.now + windowSeconds * 1000 ∧ member.now ≤ time

instance (windowSeconds : Nat) (member : Member) (time : Nat) :
    Decidable (member.InWindow windowSeconds time) :=
  inferInstanceAs (Decidable (_ ∧ _))

def LimiterState.chargedIn (s : LimiterState) (windowSeconds time : Nat) : List Member :=
  s.charged.filter fun member => member.InWindow windowSeconds time

section Steps

variable {limit windowSeconds : Nat} {s : LimiterState}

/-- What `consume` keeps of the stored set. -/
def LimiterState.trimmed (windowSeconds : Nat) (s : LimiterState) : List Entry :=
  s.stored.filter fun entry => s.now < entry.score + windowSeconds * 1000

def LimiterState.drawnMember (s : LimiterState) : Member := ⟨s.now, s.drawn⟩

/-- The state after the transaction of `consume`. -/
def LimiterState.begun (windowSeconds : Nat) (s : LimiterState) : LimiterState :=
  ({ s with drawn := s.drawn + 1 } : LimiterState).expire
    (s.trimmed windowSeconds ++ [⟨s.now, s.drawnMember⟩]) windowSeconds

theorem zremrangebyscore_window (entries : List Entry) (now windowSeconds : Nat) :
    zremrangebyscore 0 (now - windowSeconds * 1000) entries =
      entries.filter fun entry => now < entry.score + windowSeconds * 1000 := by
  unfold zremrangebyscore
  refine List.filter_congr fun entry _ => ?_
  rw [decide_eq_decide]
  omega

theorem zrem_of_absent {member : Member} {entries : List Entry}
    (absent : ∀ entry ∈ entries, entry.member ≠ member) : zrem member entries = entries := by
  unfold zrem
  rw [List.filter_eq_self]
  intro entry inside
  exact decide_eq_true (absent entry inside)

theorem stored_sublist : s.stored.Sublist s.entries := by
  unfold LimiterState.stored
  split
  · exact List.nil_sublist _
  · exact List.Sublist.refl _

theorem mem_stored {entry : Entry} (inside : entry ∈ s.stored) : entry ∈ s.entries :=
  stored_sublist.subset inside

theorem trimmed_sublist : (s.trimmed windowSeconds).Sublist s.entries :=
  List.filter_sublist.trans stored_sublist

/-- What holds of the set and of the attempts, whatever the order of the steps. -/
structure Sound (limit windowSeconds : Nat) (s : LimiterState) : Prop where
  scored : ∀ entry ∈ s.entries, entry.score = entry.member.now
  recent : ∀ entry ∈ s.entries, entry.member.now ≤ s.now ∧ entry.member.uuid < s.drawn
  lasting : ∀ entry ∈ s.entries, ∀ at' ∈ s.expireAt, entry.score + windowSeconds * 1000 ≤ at'
  distinct : (s.entries.map Entry.member).Nodup
  made : ∀ member ∈ s.allowed, member.now ≤ s.now ∧ member.uuid < s.drawn
  once : s.allowed.Nodup
  tokens : ∀ answer ∈ s.answers, ∀ token ∈ answer.decision.token, token ∈ s.allowed
  paid : ∀ member ∈ s.refunded, member ∈ s.allowed
  kept : ∀ member ∈ s.charged, s.now < member.now + windowSeconds * 1000 →
    (⟨member.now, member⟩ : Entry) ∈ s.entries
  promise : ∀ time, (s.chargedIn windowSeconds time).length ≤ limit

/-- What a call in flight relies on. -/
def Pending (s : LimiterState) : LimiterCall → Prop
  | .consume | .readOldest _ | .refund none => True
  | .withdraw member => member.uuid < s.drawn ∧ member ∉ s.allowed
  | .refund (some token) => token ∈ s.allowed

theorem Sound.not_expired (sound : Sound limit windowSeconds s) {entry : Entry}
    (inside : entry ∈ s.entries) (fresh : s.now < entry.score + windowSeconds * 1000) :
    entry ∈ s.stored := by
  unfold LimiterState.stored
  rw [if_neg]
  · exact inside
  · rw [Option.any_eq_true]
    rintro ⟨at', set, over'⟩
    have lasts := sound.lasting entry inside at' set
    have passed := of_decide_eq_true over'
    omega

theorem Sound.score_le (sound : Sound limit windowSeconds s) {entry : Entry}
    (inside : entry ∈ s.entries) : entry.score ≤ s.now := by
  rw [sound.scored entry inside]
  exact (sound.recent entry inside).1

theorem Sound.mem_trimmed (sound : Sound limit windowSeconds s) {member : Member}
    (inside : member ∈ s.charged) (fresh : s.now < member.now + windowSeconds * 1000) :
    ⟨member.now, member⟩ ∈ s.trimmed windowSeconds :=
  List.mem_filter.mpr ⟨sound.not_expired (sound.kept member inside fresh) fresh,
    decide_eq_true fresh⟩

theorem mem_trimmed_entries {entry : Entry} (inside : entry ∈ s.trimmed windowSeconds) :
    entry ∈ s.entries ∧ s.now < entry.score + windowSeconds * 1000 := by
  obtain ⟨stored, fresh⟩ := List.mem_filter.mp inside
  exact ⟨mem_stored stored, of_decide_eq_true fresh⟩

/-- The next member has not been drawn before. -/
theorem Sound.drawn_absent (sound : Sound limit windowSeconds s) {entry : Entry}
    (inside : entry ∈ s.entries) : entry.member ≠ s.drawnMember := by
  intro same
  have older := (sound.recent entry inside).2
  rw [same] at older
  exact absurd older (Nat.lt_irrefl _)

theorem Sound.consume_eq (sound : Sound limit windowSeconds s) :
    s.advance limit windowSeconds .consume =
      if (s.trimmed windowSeconds).length + 1 > limit then
        (s.begun windowSeconds, some (.withdraw s.drawnMember))
      else
        ((s.begun windowSeconds).answer s.drawnMember
          { allowed := true
            retryAfterSeconds := 0
            remaining := limit - ((s.trimmed windowSeconds).length + 1)
            token := some s.drawnMember }, none) := by
  have absent : ∀ entry ∈ s.trimmed windowSeconds, entry.member ≠ s.drawnMember :=
    fun entry inside => sound.drawn_absent (mem_trimmed_entries inside).1
  have entries : zadd s.now s.drawnMember
      (zremrangebyscore 0 (s.now - windowSeconds * 1000) s.stored) =
        s.trimmed windowSeconds ++ [⟨s.now, s.drawnMember⟩] := by
    rw [zremrangebyscore_window]
    unfold zadd
    rw [show s.stored.filter (fun entry => s.now < entry.score + windowSeconds * 1000) =
      s.trimmed windowSeconds from rfl, zrem_of_absent absent]
  have drawn : (⟨s.now, s.drawn⟩ : Member) = s.drawnMember := rfl
  unfold LimiterState.advance
  dsimp only
  rw [drawn, entries, List.length_append, List.length_singleton]
  rfl

end Steps

section Begun

variable {limit windowSeconds : Nat} {s : LimiterState}

@[simp] theorem begun_now : (s.begun windowSeconds).now = s.now := by
  unfold LimiterState.begun LimiterState.expire
  split <;> rfl

@[simp] theorem begun_drawn : (s.begun windowSeconds).drawn = s.drawn + 1 := by
  unfold LimiterState.begun LimiterState.expire
  split <;> rfl

@[simp] theorem begun_answers : (s.begun windowSeconds).answers = s.answers := by
  unfold LimiterState.begun LimiterState.expire
  split <;> rfl

@[simp] theorem begun_refunded : (s.begun windowSeconds).refunded = s.refunded := by
  unfold LimiterState.begun LimiterState.expire
  split <;> rfl

@[simp] theorem begun_allowed : (s.begun windowSeconds).allowed = s.allowed := by
  unfold LimiterState.allowed
  rw [begun_answers]

@[simp] theorem begun_charged : (s.begun windowSeconds).charged = s.charged := by
  unfold LimiterState.charged
  rw [begun_allowed, begun_refunded]

@[simp] theorem begun_chargedIn (time : Nat) :
    (s.begun windowSeconds).chargedIn windowSeconds time = s.chargedIn windowSeconds time := by
  unfold LimiterState.chargedIn
  rw [begun_charged]

theorem begun_entries (wide : windowSeconds ≠ 0) :
    (s.begun windowSeconds).entries = s.trimmed windowSeconds ++ [⟨s.now, s.drawnMember⟩] ∧
      (s.begun windowSeconds).expireAt = some (s.now + windowSeconds * 1000) := by
  unfold LimiterState.begun LimiterState.expire
  rw [if_neg wide]
  exact ⟨rfl, rfl⟩

theorem begun_entries_zero (zero : windowSeconds = 0) :
    (s.begun windowSeconds).entries = [] := by
  unfold LimiterState.begun LimiterState.expire
  rw [if_pos zero]

theorem mem_begun {entry : Entry} (inside : entry ∈ (s.begun windowSeconds).entries) :
    entry ∈ s.trimmed windowSeconds ∨ entry = ⟨s.now, s.drawnMember⟩ := by
  by_cases zero : windowSeconds = 0
  · rw [begun_entries_zero zero] at inside
    cases inside
  · rw [(begun_entries zero).1, List.mem_append, List.mem_singleton] at inside
    exact inside

theorem Sound.begun (sound : Sound limit windowSeconds s) :
    Sound limit windowSeconds (s.begun windowSeconds) where
  scored := by
    intro entry inside
    obtain old | rfl := mem_begun inside
    · exact sound.scored entry (mem_trimmed_entries old).1
    · rfl
  recent := by
    intro entry inside
    rw [begun_now, begun_drawn]
    obtain old | rfl := mem_begun inside
    · have before := sound.recent entry (mem_trimmed_entries old).1
      exact ⟨before.1, Nat.lt_succ_of_lt before.2⟩
    · exact ⟨Nat.le_refl _, Nat.lt_succ_self _⟩
  lasting := by
    intro entry inside at' set
    by_cases zero : windowSeconds = 0
    · rw [begun_entries_zero zero] at inside
      cases inside
    · rw [(begun_entries zero).2, Option.mem_some_iff] at set
      subst set
      refine Nat.add_le_add_right ?_ _
      obtain old | rfl := mem_begun inside
      · exact sound.score_le (mem_trimmed_entries old).1
      · exact Nat.le_refl _
  distinct := by
    by_cases zero : windowSeconds = 0
    · rw [begun_entries_zero zero]
      exact List.nodup_nil
    · rw [(begun_entries zero).1, List.map_append, List.map_singleton, List.nodup_append]
      refine ⟨?_, List.nodup_singleton _, fun member listed new same => ?_⟩
      · exact sound.distinct.sublist (trimmed_sublist.map _)
      · obtain ⟨entry, inside, rfl⟩ := List.mem_map.mp listed
        rw [List.mem_singleton.mp same]
        exact sound.drawn_absent (mem_trimmed_entries inside).1
  made := by
    intro member inside
    rw [begun_allowed] at inside
    rw [begun_now, begun_drawn]
    have before := sound.made member inside
    exact ⟨before.1, Nat.lt_succ_of_lt before.2⟩
  once := by
    rw [begun_allowed]
    exact sound.once
  tokens := by
    rw [begun_answers, begun_allowed]
    exact sound.tokens
  paid := by
    rw [begun_refunded, begun_allowed]
    exact sound.paid
  kept := by
    intro member inside fresh
    rw [begun_charged] at inside
    rw [begun_now] at fresh
    have older : member.now ≤ s.now := (sound.made member (List.mem_filter.mp inside).1).1
    have wide : windowSeconds ≠ 0 := by
      rintro rfl
      omega
    rw [(begun_entries wide).1]
    exact List.mem_append_left _ (sound.mem_trimmed inside fresh)
  promise := by
    intro time
    rw [begun_chargedIn]
    exact sound.promise time

end Begun

section Answers

variable {limit windowSeconds : Nat} {s : LimiterState}

theorem answer_allowed (member : Member) (decision : RateLimitDecision) :
    (s.answer member decision).allowed =
      s.allowed ++ if decision.allowed then [member] else [] := by
  unfold LimiterState.allowed LimiterState.answer
  dsimp only
  rw [List.filter_append, List.map_append]
  congr 1
  cases allowed : decision.allowed with
  | true => simp [allowed]
  | false => simp [allowed]

theorem rejected_allowed {member : Member} {decision : RateLimitDecision}
    (off : decision.allowed = false) : (s.answer member decision).allowed = s.allowed := by
  rw [answer_allowed, off, if_neg Bool.false_ne_true, List.append_nil]

theorem rejected_charged {member : Member} {decision : RateLimitDecision}
    (off : decision.allowed = false) : (s.answer member decision).charged = s.charged := by
  unfold LimiterState.charged
  rw [rejected_allowed off]
  rfl

/-- A rejection changes nothing but the answers. -/
theorem Sound.rejected (sound : Sound limit windowSeconds s) {member : Member}
    {decision : RateLimitDecision} (off : decision.allowed = false)
    (tokenless : decision.token = none) :
    Sound limit windowSeconds (s.answer member decision) := by
  have allowed : (s.answer member decision).allowed = s.allowed := rejected_allowed off
  have charged : (s.answer member decision).charged = s.charged := rejected_charged off
  exact
    { scored := sound.scored
      recent := sound.recent
      lasting := sound.lasting
      distinct := sound.distinct
      made := allowed ▸ sound.made
      once := allowed ▸ sound.once
      tokens := by
        intro answer inside token returned
        rw [allowed]
        rcases List.mem_append.mp inside with old | new
        · exact sound.tokens answer old token returned
        · rw [List.mem_singleton.mp new] at returned
          rw [tokenless] at returned
          cases returned
      paid := allowed ▸ sound.paid
      kept := charged ▸ sound.kept
      promise := by
        intro time
        unfold LimiterState.chargedIn
        rw [charged]
        exact sound.promise time }

theorem chargedIn_nodup (sound : Sound limit windowSeconds s) (time : Nat) :
    (s.chargedIn windowSeconds time).Nodup :=
  (sound.once.filter _).filter _

/-- All charged attempts of a window that has not begun yet are stored. -/
theorem Sound.chargedIn_le (sound : Sound limit windowSeconds s) {time : Nat}
    (later : s.now ≤ time) :
    (s.chargedIn windowSeconds time).length ≤ (s.trimmed windowSeconds).length := by
  have among : s.chargedIn windowSeconds time ⊆ (s.trimmed windowSeconds).map Entry.member := by
    intro member inside
    obtain ⟨charged, within⟩ := List.mem_filter.mp inside
    have fresh : s.now < member.now + windowSeconds * 1000 :=
      Nat.lt_of_le_of_lt later (of_decide_eq_true within).1
    exact List.mem_map.mpr ⟨_, sound.mem_trimmed charged fresh, rfl⟩
  have fits := ((chargedIn_nodup sound time).subperm among).length_le
  rwa [List.length_map] at fits

theorem Sound.drawnMember_fresh (sound : Sound limit windowSeconds s) :
    s.drawnMember ∉ s.allowed := fun inside =>
  absurd (sound.made _ inside).2 (Nat.lt_irrefl _)

section Accepted

variable {decision : RateLimitDecision}

theorem accepted_allowed (on : decision.allowed = true) :
    ((s.begun windowSeconds).answer s.drawnMember decision).allowed =
      s.allowed ++ [s.drawnMember] := by
  rw [answer_allowed, begun_allowed, on, if_pos rfl]

theorem accepted_charged (sound : Sound limit windowSeconds s) (on : decision.allowed = true) :
    ((s.begun windowSeconds).answer s.drawnMember decision).charged =
      s.charged ++ [s.drawnMember] := by
  have fresh : s.drawnMember ∉ s.refunded := fun refunded =>
    sound.drawnMember_fresh (sound.paid _ refunded)
  have same : ((s.begun windowSeconds).answer s.drawnMember decision).refunded = s.refunded :=
    begun_refunded
  unfold LimiterState.charged
  rw [accepted_allowed on, same, List.filter_append, List.filter_cons_of_pos (by simp [fresh]),
    List.filter_nil]

/-- The room that `consume` found is enough for every window. -/
theorem accepted_promise (sound : Sound limit windowSeconds s) (on : decision.allowed = true)
    (room : (s.trimmed windowSeconds).length + 1 ≤ limit) (time : Nat) :
    (((s.begun windowSeconds).answer s.drawnMember decision).chargedIn windowSeconds
      time).length ≤ limit := by
  unfold LimiterState.chargedIn
  rw [accepted_charged sound on, List.filter_append, List.length_append]
  by_cases within : s.drawnMember.InWindow windowSeconds time
  · have fits := sound.chargedIn_le within.2
    rw [List.filter_cons_of_pos (by simp [within]), List.filter_nil, List.length_singleton]
    exact Nat.le_trans (Nat.add_le_add_right fits 1) room
  · rw [List.filter_cons_of_neg (by simp [within]), List.filter_nil]
    exact sound.promise time

theorem Sound.accepted (sound : Sound limit windowSeconds s) (on : decision.allowed = true)
    (token : decision.token = some s.drawnMember)
    (room : (s.trimmed windowSeconds).length + 1 ≤ limit) :
    Sound limit windowSeconds ((s.begun windowSeconds).answer s.drawnMember decision) where
  scored := sound.begun.scored
  recent := sound.begun.recent
  lasting := sound.begun.lasting
  distinct := sound.begun.distinct
  made := by
    intro member inside
    have now : ((s.begun windowSeconds).answer s.drawnMember decision).now = s.now := begun_now
    have drawn : ((s.begun windowSeconds).answer s.drawnMember decision).drawn = s.drawn + 1 :=
      begun_drawn
    rw [accepted_allowed on, List.mem_append, List.mem_singleton] at inside
    rw [now, drawn]
    obtain old | rfl := inside
    · have before := sound.made member old
      exact ⟨before.1, Nat.lt_succ_of_lt before.2⟩
    · exact ⟨Nat.le_refl _, Nat.lt_succ_self _⟩
  once := by
    rw [accepted_allowed on]
    rw [← List.concat_eq_append]
    exact sound.once.concat sound.drawnMember_fresh
  tokens := by
    intro answer inside given returned
    rw [accepted_allowed on]
    rcases List.mem_append.mp inside with old | new
    · rw [begun_answers] at old
      exact List.mem_append_left _ (sound.tokens answer old given returned)
    · rw [List.mem_singleton.mp new] at returned
      rw [token, Option.mem_some_iff] at returned
      exact List.mem_append_right _ (List.mem_singleton.mpr returned.symm)
  paid := by
    intro member refunded
    have same : (s.begun windowSeconds).refunded = s.refunded := begun_refunded
    have before : member ∈ s.refunded := same ▸ refunded
    rw [accepted_allowed on]
    exact List.mem_append_left _ (sound.paid member before)
  kept := by
    intro member inside fresh
    have now : ((s.begun windowSeconds).answer s.drawnMember decision).now = s.now := begun_now
    rw [accepted_charged sound on, List.mem_append, List.mem_singleton] at inside
    rw [now] at fresh
    obtain old | rfl := inside
    · have charged : (s.begun windowSeconds).charged = s.charged := begun_charged
      refine sound.begun.kept member (charged ▸ old) ?_
      rw [begun_now]
      exact fresh
    · have wide : windowSeconds ≠ 0 := by
        rintro rfl
        exact absurd fresh (Nat.lt_irrefl _)
      have entries := (begun_entries (s := s) wide).1
      change (⟨s.now, s.drawnMember⟩ : Entry) ∈ (s.begun windowSeconds).entries
      rw [entries]
      exact List.mem_append_right _ (List.mem_singleton_self _)
  promise := accepted_promise sound on room

end Accepted

/-- Withdrawing what is not charged, or is refunded now. -/
theorem Sound.withdrawn (sound : Sound limit windowSeconds s) {member : Member}
    {refunded : List Member} (paid : ∀ token ∈ refunded, token ∈ s.allowed)
    (more : ∀ token ∈ s.refunded, token ∈ refunded)
    (free : member ∉ s.allowed ∨ member ∈ refunded) :
    Sound limit windowSeconds
      { s with entries := zrem member s.stored, refunded := refunded } where
  scored := fun entry inside => sound.scored entry (mem_stored (List.mem_filter.mp inside).1)
  recent := fun entry inside => sound.recent entry (mem_stored (List.mem_filter.mp inside).1)
  lasting := fun entry inside => sound.lasting entry (mem_stored (List.mem_filter.mp inside).1)
  distinct := sound.distinct.sublist ((List.filter_sublist.trans stored_sublist).map _)
  made := sound.made
  once := sound.once
  tokens := sound.tokens
  paid := paid
  kept := by
    intro other inside fresh
    obtain ⟨allowed, unpaid⟩ := List.mem_filter.mp inside
    rw [decide_eq_true_iff] at unpaid
    have charged : other ∈ s.charged :=
      List.mem_filter.mpr ⟨allowed, decide_eq_true fun paid => unpaid (more other paid)⟩
    refine List.mem_filter.mpr ⟨sound.not_expired (sound.kept other charged fresh) fresh,
      decide_eq_true ?_⟩
    rintro rfl
    obtain unknown | refunds := free
    · exact unknown allowed
    · exact unpaid refunds
  promise := by
    intro time
    refine Nat.le_trans (List.Sublist.length_le ?_) (sound.promise time)
    refine List.Sublist.filter _ (List.monotone_filter_right s.allowed fun other unpaid => ?_)
    rw [decide_eq_true_iff] at unpaid ⊢
    exact fun paid => unpaid (more other paid)

end Answers

section Runs

variable {limit windowSeconds : Nat} {s : LimiterState}

theorem Sound.initial (initial : s.Initial) : Sound limit windowSeconds s := by
  have allowed : s.allowed = [] := by
    unfold LimiterState.allowed
    rw [initial.answers]
    rfl
  have charged : s.charged = [] := by
    unfold LimiterState.charged
    rw [allowed]
    rfl
  constructor
  case scored =>
    rw [initial.entries]
    simp
  case recent =>
    rw [initial.entries]
    simp
  case lasting =>
    rw [initial.entries]
    simp
  case distinct =>
    rw [initial.entries]
    exact List.nodup_nil
  case made =>
    rw [allowed]
    simp
  case once =>
    rw [allowed]
    exact List.nodup_nil
  case tokens =>
    rw [initial.answers]
    simp
  case paid =>
    rw [initial.refunded]
    simp
  case kept =>
    rw [charged]
    simp
  case promise =>
    intro time
    unfold LimiterState.chargedIn
    rw [charged]
    exact Nat.zero_le limit

theorem Sound.wait (sound : Sound limit windowSeconds s) (ms : Nat) :
    Sound limit windowSeconds { s with now := s.now + ms } where
  scored := sound.scored
  recent := fun entry inside =>
    ⟨Nat.le_add_right_of_le (sound.recent entry inside).1, (sound.recent entry inside).2⟩
  lasting := sound.lasting
  distinct := sound.distinct
  made := fun member inside =>
    ⟨Nat.le_add_right_of_le (sound.made member inside).1, (sound.made member inside).2⟩
  once := sound.once
  tokens := sound.tokens
  paid := sound.paid
  kept := fun member inside fresh =>
    sound.kept member inside (Nat.lt_of_le_of_lt (Nat.le_add_right _ _) fresh)
  promise := sound.promise

/-- What each await does to the bookkeeping. -/
theorem advance_grows (sound : Sound limit windowSeconds s) (call : LimiterCall) :
    (∀ member ∈ s.allowed, member ∈ (s.advance limit windowSeconds call).1.allowed) ∧
      (∀ member ∈ (s.advance limit windowSeconds call).1.allowed,
        member ∈ s.allowed ∨ member = s.drawnMember ∧ call = .consume) ∧
      s.drawn ≤ (s.advance limit windowSeconds call).1.drawn := by
  cases call with
  | consume =>
      rw [sound.consume_eq]
      split
      · rw [begun_allowed, begun_drawn]
        exact ⟨fun _ => id, fun _ => Or.inl, Nat.le_succ _⟩
      · refine ⟨fun member inside => ?_, fun member inside => ?_, ?_⟩
        · rw [accepted_allowed rfl]
          exact List.mem_append_left _ inside
        · rw [accepted_allowed rfl, List.mem_append, List.mem_singleton] at inside
          exact inside.imp id fun same => ⟨same, rfl⟩
        · exact Nat.le_of_lt (begun_drawn ▸ Nat.lt_succ_self s.drawn)
  | withdraw member => exact ⟨fun _ => id, fun _ => Or.inl, Nat.le_refl _⟩
  | readOldest member =>
      refine ⟨fun other inside => ?_, fun other inside => ?_, Nat.le_refl _⟩
      · unfold LimiterState.advance
        rw [answer_allowed]
        exact List.mem_append_left _ inside
      · unfold LimiterState.advance at inside
        rw [rejected_allowed rfl] at inside
        exact Or.inl inside
  | refund token =>
      cases token with
      | none => exact ⟨fun _ => id, fun _ => Or.inl, Nat.le_refl _⟩
      | some token => exact ⟨fun _ => id, fun _ => Or.inl, Nat.le_refl _⟩

theorem Sound.advance (sound : Sound limit windowSeconds s) {call : LimiterCall}
    (pending : Pending s call) :
    Sound limit windowSeconds (s.advance limit windowSeconds call).1 := by
  cases call with
  | consume =>
      rw [sound.consume_eq]
      split
      · exact sound.begun
      · next room => exact sound.accepted rfl rfl (Nat.le_of_not_gt room)
  | withdraw member =>
      exact sound.withdrawn sound.paid (fun _ => id) (Or.inl pending.2)
  | readOldest member => exact sound.rejected rfl rfl
  | refund token =>
      cases token with
      | none => exact sound
      | some token =>
          refine sound.withdrawn (fun other inside => ?_)
            (fun other inside => List.mem_append_left _ inside)
            (Or.inr (List.mem_append_right _ (List.mem_singleton_self _)))
          obtain old | new := List.mem_append.mp inside
          · exact sound.paid other old
          · rw [List.mem_singleton.mp new]
            exact pending

variable (limit windowSeconds)

/-- What holds of the set and of the calls in flight, at each of their awaits. -/
theorem limiter_outline :
    Outline (limiter limit windowSeconds) (fun _ _ => True) (Sound limit windowSeconds)
      Pending where
  starts := fun s initial => Sound.initial initial
  enters := by
    intro s call sound arrives
    cases call with
    | consume => trivial
    | withdraw member => cases arrives
    | readOldest member => trivial
    | refund token =>
        cases token with
        | none => trivial
        | some token =>
            obtain ⟨answer, inside, returned⟩ := of_decide_eq_true arrives
            exact sound.tokens answer inside token returned
  acts := fun s call sound pending _ => sound.advance pending
  continues := by
    intro s call rest sound pending _ left
    cases call with
    | consume =>
        change (s.advance limit windowSeconds .consume).2 = some rest at left
        change Pending (s.advance limit windowSeconds .consume).1 rest
        rw [sound.consume_eq] at left ⊢
        split at left
        · next full =>
            cases left
            rw [if_pos full]
            refine ⟨?_, ?_⟩
            · rw [begun_drawn]
              exact Nat.lt_succ_self _
            · rw [begun_allowed]
              exact sound.drawnMember_fresh
        · cases left
    | withdraw member =>
        cases left
        trivial
    | readOldest member => cases left
    | refund token =>
        cases token with
        | none => cases left
        | some token => cases left
  stable := by
    intro s call other sound pending _ relies
    obtain ⟨grows, only, draws⟩ := advance_grows sound call
    cases other with
    | consume => trivial
    | withdraw member =>
        refine ⟨Nat.lt_of_lt_of_le relies.1 draws, fun inside => ?_⟩
        obtain before | ⟨rfl, -⟩ := only member inside
        · exact relies.2 before
        · exact absurd relies.1 (Nat.lt_irrefl _)
    | readOldest member => trivial
    | refund token =>
        cases token with
        | none => trivial
        | some token => exact grows token relies
  events := by
    intro s ms t sound happened
    cases happened
    refine ⟨sound.wait ms, fun other relies => ?_⟩
    cases other with
    | consume => trivial
    | withdraw member => exact relies
    | readOldest member => trivial
    | refund token =>
        cases token with
        | none => trivial
        | some token => exact relies

end Runs

end Farzin.RateLimit
