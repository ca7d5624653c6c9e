import Farzin.FairPlaySanctions

set_option autoImplicit false

/- What the requests that meet at the fair-play cases do to the signals, and when the open case of
a player stays the only one and keeps the score of its signals. -/
namespace Farzin.FairPlay

open Interleaving Transition

/-- A case that no signal has been added to; it may have been closed. -/
structure Case.Keeps (c d : Case) : Prop where
  id : d.id = c.id
  playerId : d.playerId = c.playerId
  aggregateScore : d.aggregateScore = c.aggregateScore
  active : d.status.isActive = true → c.status.isActive = true

/-- No signal has been recorded. -/
structure Quiet (s t : Commission) : Prop where
  signals : t.signals = s.signals
  next : s.nextId ≤ t.nextId
  cases : ∃ change : Case → Case, t.cases = s.cases.map change ∧ ∀ c : Case, c.Keeps (change c)

def Signal.stored (caseId : Nat) (e : NewSignal) : Signal :=
  ⟨caseId, { e with strength := decimal4 e.strength }⟩

/-- The transaction of a recording has been committed. -/
structure Recorded (s : Commission) (input : RecordSignalsInput) (found : Option Nat)
    (existing : List NewSignal) (t : Commission) : Prop where
  signals : t.signals =
    s.signals ++ (input.fresh existing).map (Signal.stored (found.getD s.nextId))
  cases : t.cases = Table.updateWhere (fun c => c.id = found.getD s.nextId)
    (fun c => { c with
      aggregateScore := (aggregateSuspicion ((existing ++ input.fresh existing).map
        fun e => (e.type, e.strength))).map decimal4 })
    (s.cases ++ if found.isNone then [s.newCase input.playerId] else [])
  next : t.nextId = if found.isNone then s.nextId + 1 else s.nextId

section Effects

variable {s t : Commission}

theorem Case.Keeps.refl (c : Case) : c.Keeps c := ⟨rfl, rfl, rfl, fun still => still⟩

theorem Quiet.refl (s : Commission) : Quiet s s where
  signals := rfl
  next := Nat.le_refl _
  cases := ⟨id, (List.map_id _).symm, Case.Keeps.refl⟩

theorem Quiet.rewrite (signals : t.signals = s.signals) (next : s.nextId ≤ t.nextId)
    (condition : Case → Bool) (change : Case → Case)
    (cases : t.cases = Table.updateWhere condition change s.cases)
    (keeps : ∀ c : Case, c.Keeps (change c)) : Quiet s t where
  signals := signals
  next := next
  cases := by
    refine ⟨fun c => if condition c then change c else c, cases, fun c => ?_⟩
    dsimp only
    split
    · exact keeps c
    · exact .refl c

theorem decideOn_keeps (input : DecideCaseInput) (now : Int) (c : Case) :
    c.Keeps (Commission.decideOn input now c) where
  id := rfl
  playerId := rfl
  aggregateScore := rfl
  active still := by
    rw [decided_inactive] at still
    cases still

theorem liftSanction_keeps (c : Case) : c.Keeps (Commission.liftSanction c) where
  id := rfl
  playerId := rfl
  aggregateScore := rfl
  active still := by cases still

theorem recordSignals_recorded {input : RecordSignalsInput} {found : Option Nat}
    {existing : List NewSignal} (done : s.recordSignals input found existing = .ok t) :
    Recorded s input found existing t := by
  unfold Commission.recordSignals at done
  dsimp only at done
  split at done
  · cases done
  · split at done
    · cases done
    · rw [write_ok done]
      cases found with
      | some caseId =>
          refine ⟨rfl, ?_, rfl⟩
          rw [if_neg (by simp), List.append_nil]
          rfl
      | none => exact ⟨rfl, rfl, rfl⟩

/-- Only the transaction of a recording adds signals. -/
theorem advance_effect (s : Commission) (call : CommissionCall) :
    Quiet s (s.advance call).1 ∨ ∃ input found existing,
      call = .writeSignals input found existing ∧
        Recorded s input found existing (s.advance call).1 := by
  cases call with
  | recordSignals | readSignals | readCase | submitAppeal | readAppeal => exact .inl (.refl s)
  | decideCase | checkAppeal | findActiveAppeal | checkReviewer | decideAppeal =>
      rw [Commission.advance]
      repeat' split
      all_goals exact .inl (.refl s)
  | writeSignals input found existing =>
      rw [Commission.advance]
      rcases commit_cases (s := s) (s.recordSignals input found existing) with same | done
      · rw [same]
        exact .inl (.refl s)
      · exact .inr ⟨input, found, existing, rfl, recordSignals_recorded done⟩
  | writeDecision input before =>
      rw [Commission.advance]
      rcases commit_cases (s := s) (s.decideCase input before) with same | done
      · rw [same]
        exact .inl (.refl s)
      · obtain ⟨_, entry, _, _, written⟩ := decideCase_ok done
        rw [write_ok written]
        exact .inl (.rewrite rfl (Nat.le_refl _) _ _ rfl (decideOn_keeps input s.now))
  | createAppeal input =>
      rw [Commission.advance]
      rcases commit_cases (s := s) (s.createAppeal input) with same | done
      · rw [same]
        exact .inl (.refl s)
      · rw [write_ok done]
        exact .inl ⟨rfl, Nat.le_succ _, id, (List.map_id _).symm, Case.Keeps.refl⟩
  | writeAnswer input appeal =>
      rw [Commission.advance]
      rcases commit_cases (s := s) (s.decideAppeal input appeal) with same | done
      · rw [same]
        exact .inl (.refl s)
      · obtain ⟨_, entry, _, _, written⟩ := decideAppeal_ok done
        rw [write_ok written]
        exact .inl (.rewrite rfl (Nat.le_refl _) _ _ rfl liftSanction_keeps)

/-- A call that is no recording goes on without becoming one. -/
theorem advance_apart {call rest : CommissionCall} (apart : call.recordsSignals = false)
    (goes : (s.advance call).2 = some rest) : rest.recordsSignals = false := by
  cases call with
  | recordSignals | readSignals | writeSignals => cases apart
  | writeDecision | createAppeal | writeAnswer =>
      rw [Commission.advance, commit_ends] at goes
      cases goes
  | decideCase | checkAppeal | findActiveAppeal | checkReviewer | decideAppeal =>
      rw [Commission.advance] at goes
      repeat' split at goes
      all_goals cases goes
      all_goals rfl
  | readCase | submitAppeal | readAppeal =>
      obtain ⟨_, _, rfl⟩ := Option.map_eq_some_iff.mp goes
      rfl

end Effects

/-- Every case and every signal has been given its id. -/
structure Commission.Numbered (s : Commission) : Prop where
  caseIds : Table.Unique Case.id s.cases
  caseBelow : ∀ c ∈ s.cases, c.id < s.nextId
  signalBelow : ∀ e ∈ s.signals, e.caseId < s.nextId

section Numbered

variable {s t : Commission}

theorem Quiet.ids (quiet : Quiet s t) : t.cases.map Case.id = s.cases.map Case.id := by
  obtain ⟨change, cases, keeps⟩ := quiet.cases
  rw [cases, List.map_map]
  apply List.map_congr_left
  intro c _
  exact (keeps c).id

theorem Quiet.mem (quiet : Quiet s t) {d : Case} (listed : d ∈ t.cases) :
    ∃ c ∈ s.cases, c.Keeps d := by
  obtain ⟨change, cases, keeps⟩ := quiet.cases
  rw [cases] at listed
  obtain ⟨c, known, rfl⟩ := List.mem_map.mp listed
  exact ⟨c, known, keeps c⟩

theorem Quiet.numbered (quiet : Quiet s t) (numbered : s.Numbered) : t.Numbered where
  caseIds := by
    rw [Table.Unique, quiet.ids]
    exact numbered.caseIds
  caseBelow d listed := by
    obtain ⟨c, known, keeps⟩ := quiet.mem listed
    rw [keeps.id]
    exact Nat.lt_of_lt_of_le (numbered.caseBelow c known) quiet.next
  signalBelow e listed := by
    rw [quiet.signals] at listed
    exact Nat.lt_of_lt_of_le (numbered.signalBelow e listed) quiet.next

variable {input : RecordSignalsInput} {found : Option Nat} {existing : List NewSignal}

/-- A case after a recording has its id and its player from before, or is the new one. -/
theorem Recorded.mem (recorded : Recorded s input found existing t) {d : Case}
    (listed : d ∈ t.cases) :
    ∃ c, (c ∈ s.cases ∨ found = none ∧ c = s.newCase input.playerId) ∧ d.id = c.id ∧
      d.playerId = c.playerId ∧ d.status = c.status ∧
        d.aggregateScore = if c.id = found.getD s.nextId then
          (aggregateSuspicion ((existing ++ input.fresh existing).map
            fun e => (e.type, e.strength))).map decimal4
        else c.aggregateScore := by
  rw [recorded.cases] at listed
  obtain ⟨c, known, same⟩ := Table.mem_updateWhere.mp listed
  have origin : c ∈ s.cases ∨ found = none ∧ c = s.newCase input.playerId := by
    rcases List.mem_append.mp known with old | new
    · exact .inl old
    · cases found with
      | none => exact .inr ⟨rfl, List.mem_singleton.mp new⟩
      | some caseId => cases new
  refine ⟨c, origin, ?_⟩
  by_cases its : c.id = found.getD s.nextId
  · rw [if_pos (decide_eq_true its)] at same
    rw [if_pos its, same]
    exact ⟨rfl, rfl, rfl, rfl⟩
  · rw [if_neg (by simpa using its)] at same
    rw [if_neg its, same]
    exact ⟨rfl, rfl, rfl, rfl⟩

theorem Recorded.ids (recorded : Recorded s input found existing t) :
    t.cases.map Case.id = s.cases.map Case.id ++ if found.isNone then [s.nextId] else [] := by
  rw [recorded.cases]
  refine (Table.rewrite_keys _ _ _ ?_).trans ?_
  · intro _ _
    rfl
  · rw [List.map_append]
    cases found <;> rfl

theorem Recorded.numbered (recorded : Recorded s input found existing t) (numbered : s.Numbered)
    (known : ∀ caseId ∈ found, caseId < s.nextId) : t.Numbered where
  caseIds := by
    rw [Table.Unique, recorded.ids]
    cases found with
    | some caseId =>
        rw [if_neg (by simp), List.append_nil]
        exact numbered.caseIds
    | none =>
        refine List.nodup_append.mpr ⟨numbered.caseIds, List.nodup_singleton _, ?_⟩
        intro id old next new same
        obtain ⟨c, listed, rfl⟩ := List.mem_map.mp old
        have below := numbered.caseBelow c listed
        change next ∈ [s.nextId] at new
        rw [List.mem_singleton] at new
        omega
  caseBelow d listed := by
    obtain ⟨c, origin, id, _⟩ := recorded.mem listed
    rw [id, recorded.next]
    rcases origin with old | ⟨none, new⟩
    · have below := numbered.caseBelow c old
      split <;> omega
    · rw [new, none]
      exact Nat.lt_succ_self _
  signalBelow e listed := by
    rw [recorded.signals] at listed
    rw [recorded.next]
    rcases List.mem_append.mp listed with old | new
    · have below := numbered.signalBelow e old
      split <;> omega
    · obtain ⟨signal, _, rfl⟩ := List.mem_map.mp new
      change found.getD s.nextId < _
      cases found with
      | none => exact Nat.lt_succ_self _
      | some caseId => exact known caseId rfl

end Numbered

/-- The column keeps the strength as it is. -/
def RecordSignalsInput.isRounded (input : RecordSignalsInput) : Bool :=
  input.signals.all fun e => decimal4 e.strength = e.strength

/-- The callers of `recordSignals` round to the four decimals of the column. -/
def CommissionCall.isRounded : CommissionCall → Bool
  | .recordSignals input => input.isRounded
  | _ => true

/-- The requests of the commission, which begins without cases and signals. -/
def recordings : Program Commission CommissionCall Nat where
  initial s := s.Initial ∧ s.signals = []
  arrives _ call := call.isRequest && call.isRounded
  advance := Commission.advance
  event := commission.event

def Commission.signalsOf (s : Commission) (caseId : Nat) : List NewSignal :=
  (s.signals.filter fun e => e.caseId = caseId).map Signal.signal

/-- The score of the signals, as its column keeps it. -/
def scoreOf (signals : List NewSignal) : Option Rat :=
  (aggregateSuspicion (signals.map fun e => (e.type, e.strength))).map decimal4

/-- A player has at most one active case, and its score is that of its signals. -/
structure Commission.OneRightCase (s : Commission) : Prop where
  one : ∀ playerId, s.cases.countP (fun c => c.playerId = playerId && c.status.isActive) ≤ 1
  score : ∀ c ∈ s.cases, c.status.isActive = true → c.aggregateScore = scoreOf (s.signalsOf c.id)

/-- What a recording has read is still so when it writes. -/
def Commission.StillSo (s : Commission) : CommissionCall → Prop
  | .writeSignals input none _ =>
      ∀ c ∈ s.cases, c.playerId = input.playerId → c.status.isActive = false
  | .writeSignals _ (some caseId) existing =>
      (∃ c ∈ s.cases, c.id = caseId ∧ c.status.isActive = true) → existing = s.signalsOf caseId
  | _ => True

instance decidableStillSo (s : Commission) : (call : CommissionCall) → Decidable (s.StillSo call)
  | .writeSignals input none _ => inferInstanceAs (Decidable
      (∀ c ∈ s.cases, c.playerId = input.playerId → c.status.isActive = false))
  | .writeSignals _ (some caseId) existing => inferInstanceAs (Decidable
      ((∃ c ∈ s.cases, c.id = caseId ∧ c.status.isActive = true) →
        existing = s.signalsOf caseId))
  | .recordSignals _ | .readSignals _ _ | .decideCase _ | .readCase _ | .writeDecision _ _
  | .submitAppeal _ | .checkAppeal _ _ | .findActiveAppeal _ | .createAppeal _ | .decideAppeal _
  | .checkReviewer _ _ | .readAppeal _ | .writeAnswer _ _ => .isTrue trivial

structure Commission.Scored (s : Commission) : Prop where
  numbered : s.Numbered
  alone : ∀ c ∈ s.cases, ∀ d ∈ s.cases, c.playerId = d.playerId → c.status.isActive = true →
    d.status.isActive = true → c.id = d.id
  score : ∀ c ∈ s.cases, c.status.isActive = true → c.aggregateScore = scoreOf (s.signalsOf c.id)

/-- Where a recording stands. -/
def CommissionCall.Recording (s : Commission) : CommissionCall → Prop
  | .recordSignals input => input.isRounded
  | .readSignals input found => input.isRounded ∧ ∀ caseId ∈ found, caseId < s.nextId
  | .writeSignals input found existing => input.isRounded ∧
      (∀ caseId ∈ found, caseId < s.nextId) ∧ (found = none → existing = [])
  | _ => True

section Scores

variable {s t : Commission} {input : RecordSignalsInput} {found : Option Nat}
  {existing : List NewSignal}

/-- Rounded signals are stored as they are. -/
theorem stored_signal (rounded : input.isRounded = true) (caseId : Nat) :
    ((input.fresh existing).map (Signal.stored caseId)).map Signal.signal =
      input.fresh existing := by
  rw [List.map_map]
  conv => rhs; rw [← List.map_id (input.fresh existing)]
  apply List.map_congr_left
  intro e listed
  have inside := (List.mem_filter.mp listed).1
  have same := of_decide_eq_true (List.all_eq_true.mp rounded e inside)
  rw [Function.comp_apply, Signal.stored, same, id]

theorem Recorded.signalsOf_other (recorded : Recorded s input found existing t) {caseId : Nat}
    (other : caseId ≠ found.getD s.nextId) : t.signalsOf caseId = s.signalsOf caseId := by
  have none : ((input.fresh existing).map (Signal.stored (found.getD s.nextId))).filter
      (fun e => e.caseId = caseId) = [] := by
    rw [List.filter_eq_nil_iff]
    intro e listed
    obtain ⟨signal, _, rfl⟩ := List.mem_map.mp listed
    rw [decide_eq_true_eq]
    exact other.symm
  rw [Commission.signalsOf, Commission.signalsOf, recorded.signals, List.filter_append, none,
    List.append_nil]

theorem Recorded.signalsOf_own (recorded : Recorded s input found existing t)
    (rounded : input.isRounded = true) :
    t.signalsOf (found.getD s.nextId) =
      s.signalsOf (found.getD s.nextId) ++ input.fresh existing := by
  have all : ((input.fresh existing).map (Signal.stored (found.getD s.nextId))).filter
      (fun e => e.caseId = found.getD s.nextId) =
      (input.fresh existing).map (Signal.stored (found.getD s.nextId)) := by
    rw [List.filter_eq_self]
    intro e listed
    obtain ⟨signal, _, rfl⟩ := List.mem_map.mp listed
    exact decide_eq_true rfl
  rw [Commission.signalsOf, Commission.signalsOf, recorded.signals, List.filter_append, all,
    List.map_append, stored_signal rounded]

theorem Quiet.scored (quiet : Quiet s t) (scored : s.Scored) : t.Scored where
  numbered := quiet.numbered scored.numbered
  alone c listed d there same active also := by
    obtain ⟨a, known, keeps⟩ := quiet.mem listed
    obtain ⟨b, stored, kept⟩ := quiet.mem there
    rw [keeps.id, kept.id]
    rw [keeps.playerId, kept.playerId] at same
    exact scored.alone a known b stored same (keeps.active active) (kept.active also)
  score c listed active := by
    obtain ⟨a, known, keeps⟩ := quiet.mem listed
    rw [Commission.signalsOf, quiet.signals, keeps.aggregateScore, keeps.id]
    exact scored.score a known (keeps.active active)

/-- A recording whose reading is still true leaves one case with the right score. -/
theorem Recorded.scored (recorded : Recorded s input found existing t) (scored : s.Scored)
    (own : (CommissionCall.writeSignals input found existing).Recording s)
    (still : s.StillSo (.writeSignals input found existing)) : t.Scored where
  numbered := recorded.numbered scored.numbered own.2.1
  alone c listed d there same active also := by
    obtain ⟨a, first, id, player, status, _⟩ := recorded.mem listed
    obtain ⟨b, second, id', player', status', _⟩ := recorded.mem there
    rw [status] at active
    rw [status'] at also
    rw [player, player'] at same
    rw [id, id']
    rcases first with old | ⟨none, new⟩
    · rcases second with old' | ⟨none, new'⟩
      · exact scored.alone a old b old' same active also
      · -- The case that was there is active, so that none is opened.
        subst none
        rw [new'] at same
        have closed := still a old same
        rw [active] at closed
        cases closed
    · rcases second with old' | ⟨_, new'⟩
      · subst none
        rw [new] at same
        have closed := still b old' same.symm
        rw [also] at closed
        cases closed
      · rw [new, new']
  score c listed active := by
    obtain ⟨a, origin, id, _, status, score⟩ := recorded.mem listed
    rw [status] at active
    rw [score, id]
    by_cases its : a.id = found.getD s.nextId
    · rw [if_pos its, its, recorded.signalsOf_own own.1]
      have read : existing = s.signalsOf (found.getD s.nextId) := by
        cases found with
        | none =>
            rw [own.2.2 rfl]
            symm
            rw [Commission.signalsOf, List.map_eq_nil_iff, List.filter_eq_nil_iff]
            intro e stored
            have below := scored.numbered.signalBelow e stored
            rw [decide_eq_true_eq]
            exact Nat.ne_of_lt below
        | some caseId =>
            rcases origin with old | ⟨none, _⟩
            · exact still ⟨a, old, its, active⟩
            · cases none
      rw [← read]
      rfl
    · rw [if_neg its, recorded.signalsOf_other its]
      rcases origin with old | ⟨none, new⟩
      · exact scored.score a old active
      · rw [new, none] at its
        exact absurd rfl its

/-- A fold that takes over or leaves each element ends with one of them. -/
theorem foldl_mem {choose : Option Case → Case → Option Case}
    (each : ∀ latest c, choose latest c = latest ∨ choose latest c = some c) (cases : List Case)
    (latest : Option Case) {c : Case} (chosen : cases.foldl choose latest = some c) :
    latest = some c ∨ c ∈ cases := by
  induction cases generalizing latest with
  | nil => exact .inl chosen
  | cons d cases ih =>
      rcases ih (choose latest d) chosen with now | later
      · rcases each latest d with left | took
        · exact .inl (left.symm.trans now)
        · rw [took] at now
          exact .inr (List.mem_cons.mpr (.inl (Option.some.inj now).symm))
      · exact .inr (List.mem_cons_of_mem d later)

theorem findActiveCase_mem {playerId : Nat} {c : Case}
    (found : s.findActiveCase playerId = some c) :
    c ∈ s.cases ∧ c.playerId = playerId ∧ c.status.isActive = true := by
  have chosen := foldl_mem (fun latest d => ?_) _ none found
  · rcases chosen with nothing | listed
    · cases nothing
    · obtain ⟨inside, its⟩ := List.mem_filter.mp listed
      rw [Bool.and_eq_true, decide_eq_true_eq] at its
      exact ⟨inside, its⟩
  · cases latest with
    | none => exact .inr rfl
    | some best =>
        dsimp only
        split
        · exact .inr rfl
        · exact .inl rfl

theorem CommissionCall.Recording.apart {call : CommissionCall}
    (apart : call.recordsSignals = false) : call.Recording s := by
  cases call with
  | recordSignals | readSignals | writeSignals => cases apart
  | decideCase | readCase | writeDecision | submitAppeal | checkAppeal | findActiveAppeal
  | createAppeal | decideAppeal | checkReviewer | readAppeal | writeAnswer => trivial

/-- What a recording has read when it comes to its next await. -/
theorem advance_recording {call rest : CommissionCall} (numbered : s.Numbered)
    (own : call.Recording s) (goes : (s.advance call).2 = some rest) :
    rest.Recording (s.advance call).1 := by
  cases call with
  | recordSignals input =>
      cases goes
      refine ⟨own, fun caseId found => ?_⟩
      obtain ⟨c, latest, rfl⟩ := Option.map_eq_some_iff.mp found
      exact numbered.caseBelow c (findActiveCase_mem latest).1
  | readSignals input found =>
      cases goes
      refine ⟨own.1, own.2, fun none => ?_⟩
      rw [none, List.map_eq_nil_iff, List.filter_eq_nil_iff]
      intro e _ same
      cases of_decide_eq_true same
  | writeSignals =>
      rw [Commission.advance, commit_ends] at goes
      cases goes
  | decideCase | readCase | writeDecision | submitAppeal | checkAppeal | findActiveAppeal
  | createAppeal | decideAppeal | checkReviewer | readAppeal | writeAnswer =>
      exact .apart (advance_apart rfl goes)

/-- Ids that have been given stay below the next one. -/
theorem CommissionCall.Recording.later {call : CommissionCall} (own : call.Recording s)
    (next : s.nextId ≤ t.nextId) : call.Recording t := by
  cases call with
  | recordSignals => exact own
  | readSignals input found =>
      exact ⟨own.1, fun caseId its => Nat.lt_of_lt_of_le (own.2 caseId its) next⟩
  | writeSignals input found existing =>
      exact ⟨own.1, fun caseId its => Nat.lt_of_lt_of_le (own.2.1 caseId its) next, own.2.2⟩
  | decideCase | readCase | writeDecision | submitAppeal | checkAppeal | findActiveAppeal
  | createAppeal | decideAppeal | checkReviewer | readAppeal | writeAnswer => trivial

theorem advance_next (s : Commission) (call : CommissionCall) :
    s.nextId ≤ (s.advance call).1.nextId := by
  rcases advance_effect s call with quiet | ⟨_, _, _, _, recorded⟩
  · exact quiet.next
  · rw [recorded.next]
    split <;> omega

theorem recordings_outline :
    Outline recordings Commission.StillSo Commission.Scored fun s call => call.Recording s where
  starts s initial := by
    obtain ⟨initial, signals⟩ := initial
    constructor
    · constructor <;> simp [Table.Unique, initial.cases, signals]
    · simp [initial.cases]
    · simp [initial.cases]
  enters s call _ arrives := by
    obtain ⟨request, rounded⟩ := (Bool.and_eq_true _ _).mp arrives
    cases call with
    | recordSignals => exact rounded
    | decideCase | submitAppeal | decideAppeal => trivial
    | readSignals | writeSignals | readCase | writeDecision | checkAppeal | findActiveAppeal
    | createAppeal | checkReviewer | readAppeal | writeAnswer => cases request
  acts s call scored own still := by
    change (s.advance call).1.Scored
    rcases advance_effect s call with quiet | ⟨input, found, existing, rfl, recorded⟩
    · exact quiet.scored scored
    · exact recorded.scored scored own still
  continues s call rest scored own _ goes := advance_recording scored.numbered own goes
  stable s call other _ _ _ its := its.later (advance_next s call)
  events s ms t scored happened := by
    cases happened
    exact ⟨⟨⟨scored.numbered.caseIds, scored.numbered.caseBelow, scored.numbered.signalBelow⟩,
      scored.alone, scored.score⟩, fun other its => its.later (Nat.le_refl _)⟩

/-- While every recording writes what it has read truly, a player has at most one active case, and
its score is that of all its signals. -/
theorem one_right_case (pool : Pool Commission CommissionCall)
    (reached : recordings.system.ReachableWhile (Advancing Commission.StillSo) pool) :
    pool.shared.OneRightCase := by
  have scored := (recordings_outline.reached reached).1
  refine ⟨fun playerId => ?_, scored.score⟩
  apply scored.numbered.caseIds.countP_le_one
  intro c listed d there first second
  rw [Bool.and_eq_true, decide_eq_true_eq] at first second
  exact scored.alone c listed d there (first.1.trans second.1.symm) first.2 second.2

end Scores

section Runs

def emptyRecordings : Pool Commission CommissionCall := ⟨noCases, []⟩

theorem emptyRecordings_initial : recordings.system.initial emptyRecordings :=
  ⟨⟨⟨rfl, rfl, rfl⟩, rfl⟩, rfl⟩

/-- Another player reports the same one. -/
def reportedAgain : RecordSignalsInput :=
  ⟨7, some 4, [⟨.manualReport, 1 / 2, ⟨some 4, some 6⟩⟩], some 6⟩

def analysed : RecordSignalsInput :=
  ⟨7, some 3, [⟨.timingAnomaly, 9 / 10, ⟨some 3, none⟩⟩], none⟩

def oneAfterTheOther : List (Label CommissionCall Nat) :=
  served (.recordSignals reported) 3 ++ served (.recordSignals analysed) 3

/-- Both reports look for an open case before either writes. -/
def bothReported : List (Label CommissionCall Nat) :=
  [.arrive (.recordSignals reported), .arrive (.recordSignals reportedAgain)] ++
    List.replicate 6 (.advance 0)

/-- The analysis and the second report read the signals of the case before either writes. -/
def bothAdded : List (Label CommissionCall Nat) :=
  served (.recordSignals reported) 3 ++
    [.arrive (.recordSignals analysed), .arrive (.recordSignals reportedAgain)] ++
      List.replicate 6 (.advance 0)

theorem oneAfterTheOther_right : ∃ pool,
    recordings.system.run emptyRecordings oneAfterTheOther = some pool ∧
      pool.shared.signals.length = 2 ∧ pool.shared.OneRightCase := by
  have ran : (recordings.system.run emptyRecordings oneAfterTheOther).map
      (fun pool => pool.shared.signals.length) = some 2 := by decide +kernel
  obtain ⟨pool, ran, signals⟩ := Option.map_eq_some_iff.mp ran
  refine ⟨pool, ran, signals, one_right_case pool ⟨emptyRecordings, emptyRecordings_initial, ?_⟩⟩
  exact System.run_steps _ _ _ ran (by decide +kernel)

/-- Two open cases of one player, and a score without one of the signals of its case. -/
theorem open_cases_wrong :
    (∃ pool, recordings.system.run emptyRecordings bothReported = some pool ∧
      pool.inFlight = [] ∧ ¬pool.shared.OneRightCase) ∧
    ∃ pool, recordings.system.run emptyRecordings bothAdded = some pool ∧
      pool.inFlight = [] ∧ ¬pool.shared.OneRightCase := by
  have two : (recordings.system.run emptyRecordings bothReported).map (fun pool =>
      (pool.inFlight, pool.shared.cases.countP fun c => c.playerId = 7 && c.status.isActive)) =
      some ([], 2) := by decide +kernel
  have stale : (recordings.system.run emptyRecordings bothAdded).map (fun pool =>
      (pool.inFlight, decide (∀ c ∈ pool.shared.cases, c.status.isActive = true →
        c.aggregateScore = scoreOf (pool.shared.signalsOf c.id)))) = some ([], false) := by
    decide +kernel
  constructor
  · obtain ⟨pool, ran, found⟩ := Option.map_eq_some_iff.mp two
    obtain ⟨idle, many⟩ := Prod.mk.inj found
    refine ⟨pool, ran, idle, fun right => ?_⟩
    have most := right.one 7
    omega
  · obtain ⟨pool, ran, found⟩ := Option.map_eq_some_iff.mp stale
    obtain ⟨idle, wrong⟩ := Prod.mk.inj found
    exact ⟨pool, ran, idle, fun right => of_decide_eq_false wrong right.score⟩

end Runs

end Farzin.FairPlay
