import Farzin.FairPlaySignals

set_option autoImplicit false

/- Analyses of games, which their queue may deliver again (`analyzePlayer` of
`modules/fairplay/analysis.processor.ts`), and reports about games (`submitReport` of
`modules/fairplay/fairplay.service.ts`), beside the requests of the commission. -/
namespace Farzin.FairPlay

open Interleaving Transition

/-- `Math.round` to four decimals. -/
def round4 (x : Rat) : Rat := ⌊x * 10000 + 1 / 2⌋ / 10000

/-- What has been measured of a player in a game: the evenness of the timing where the time
category allows for it, and the correlation with the engine where there is one. -/
structure Analysis where
  playerId : Nat
  gameId : Nat
  timing : Option Rat
  correlation : Option Rat
  deriving DecidableEq, Repr

namespace Analysis

variable (a : Analysis)

def suspicionInputs : List (SignalType × Rat) :=
  (a.timing.map fun strength => (SignalType.timingAnomaly, clamp01 strength)).toList ++
    (a.correlation.map fun strength => (SignalType.engineCorrelation, clamp01 strength)).toList

def caseSignals : List NewSignal :=
  a.suspicionInputs.map fun e => ⟨e.1, round4 e.2, ⟨some a.gameId, none⟩⟩

/-- What an analysis records, when the suspicion has come to the threshold. -/
def input (threshold : Rat) : Option RecordSignalsInput :=
  match aggregateSuspicion a.suspicionInputs with
  | none => none
  | some suspicion =>
      if threshold ≤ suspicion then some ⟨a.playerId, some a.gameId, a.caseSignals, none⟩
      else none

end Analysis

def manualReportStrength : Rat := 1 / 2

structure Report where
  playerId : Nat
  gameId : Nat
  reporterUserId : Nat
  deriving DecidableEq, Repr

def Report.input (r : Report) : RecordSignalsInput :=
  ⟨r.playerId, some r.gameId,
    [⟨.manualReport, manualReportStrength, ⟨some r.gameId, some r.reporterUserId⟩⟩],
    some r.reporterUserId⟩

/-- A delivery of an analysis or a report before it records, or a request at its awaits. -/
inductive SignalCall where
  | analyze (analysis : Analysis)
  | report (report : Report)
  | record (call : CommissionCall)
  deriving DecidableEq, Repr

def Commission.advanceSignal (threshold : Rat) (s : Commission) :
    SignalCall → Commission × Option SignalCall
  | .analyze a =>
      (s, (a.input threshold).map fun input => .record (.recordSignals input))
  | .report r => (s, some (.record (.recordSignals r.input)))
  | .record call => ((s.advance call).1, (s.advance call).2.map .record)

/-- Deliveries arrive any number of times. -/
def signalDesk (threshold : Rat) : Program Commission SignalCall Nat where
  initial s := s.Initial ∧ s.signals = []
  arrives _ call := match call with
    | .analyze _ | .report _ => true
    | .record call => call.isRequest && !call.recordsSignals
  advance := Commission.advanceSignal threshold
  event := commission.event

/-- Who a signal is from; `none` is the analysis. -/
def NewSignal.reporter (e : NewSignal) : Option Nat :=
  if e.type = .manualReport then e.evidence.reporterUserId else none

structure SignalKey where
  playerId : Option Nat
  type : SignalType
  gameId : Option Nat
  reporter : Option Nat
  deriving DecidableEq, Repr

def NewSignal.key (playerId : Option Nat) (e : NewSignal) : SignalKey :=
  ⟨playerId, e.type, e.evidence.gameId, e.reporter⟩

namespace Commission

variable (s : Commission)

def playerOf (caseId : Nat) : Option Nat := (s.findCaseById caseId).map Case.playerId

def keyOf (e : Signal) : SignalKey := e.signal.key (s.playerOf e.caseId)

/-- No signal of a game is stored twice. -/
def StoredOnce : Prop :=
  s.signals.Pairwise fun a b => a.signal.evidence.gameId.isSome → s.keyOf a ≠ s.keyOf b

instance decidableStoredOnce : Decidable s.StoredOnce :=
  inferInstanceAs (Decidable (List.Pairwise _ _))

/-- The same source has stored a signal of the player in the game. -/
def FromSource (input : RecordSignalsInput) (e : Signal) : Prop :=
  s.playerOf e.caseId = some input.playerId ∧ e.signal.evidence.gameId = input.gameId ∧
    e.signal.reporter = input.actorUserId

instance decidableFromSource (input : RecordSignalsInput) (e : Signal) :
    Decidable (s.FromSource input e) :=
  inferInstanceAs (Decidable (_ ∧ _))

/-- Whatever the same source has stored lies in the open case that the recording has found, and it
has read it there. -/
def Remembers : SignalCall → Prop
  | .record (.writeSignals input found existing) =>
      ∀ e ∈ s.signals, s.FromSource input e → found = some e.caseId ∧ e.signal ∈ existing
  | _ => True

instance decidableRemembers : (call : SignalCall) → Decidable (s.Remembers call)
  | .record (.writeSignals input found existing) => inferInstanceAs (Decidable
      (∀ e ∈ s.signals, s.FromSource input e → found = some e.caseId ∧ e.signal ∈ existing))
  | .record (.recordSignals _) | .record (.readSignals _ _) | .record (.decideCase _)
  | .record (.readCase _) | .record (.writeDecision _ _) | .record (.submitAppeal _)
  | .record (.checkAppeal _ _) | .record (.findActiveAppeal _) | .record (.createAppeal _)
  | .record (.decideAppeal _) | .record (.checkReviewer _ _) | .record (.readAppeal _)
  | .record (.writeAnswer _ _) | .analyze _ | .report _ => .isTrue trivial

end Commission

/-- A recording of what the same source has stored before opens no case. -/
def OpensNoCaseAgain (pool : Pool Commission SignalCall) (label : Label SignalCall Nat)
    (after : Pool Commission SignalCall) : Prop :=
  ∀ index input found existing, label = .advance index →
    pool.inFlight[index]? = some (.record (.writeSignals input found existing)) →
      (∃ e ∈ pool.shared.signals, pool.shared.FromSource input e) →
        after.shared.cases.map Case.id = pool.shared.cases.map Case.id

/-- What a source records of a game. -/
structure RecordSignalsInput.Sourced (input : RecordSignalsInput) : Prop where
  game : input.gameId.isSome
  evidence : ∀ e ∈ input.signals, e.evidence.gameId = input.gameId
  reporter : ∀ e ∈ input.signals, e.reporter = input.actorUserId
  distinct : input.signals.Pairwise fun a b => a.type ≠ b.type

/-- A recording comes from a source, and the case that it has found is of its player. -/
def SignalCall.Recording (s : Commission) : SignalCall → Prop
  | .record (.recordSignals input) => input.Sourced
  | .record (.readSignals input found) | .record (.writeSignals input found _) =>
      input.Sourced ∧ ∀ caseId ∈ found, s.playerOf caseId = some input.playerId
  | _ => True

section Players

variable {s t : Commission}

theorem Quiet.playerOf (quiet : Quiet s t) (caseId : Nat) :
    t.playerOf caseId = s.playerOf caseId := by
  obtain ⟨change, cases, keeps⟩ := quiet.cases
  have same : (fun c : Case => decide ((change c).id = caseId)) = fun c => decide (c.id = caseId) := by
    funext c
    rw [(keeps c).id]
  have player : Case.playerId ∘ change = Case.playerId := by
    funext c
    exact (keeps c).playerId
  rw [Commission.playerOf, Commission.findCaseById, Table.findUnique, cases, List.find?_map,
    Function.comp_def, same, Option.map_map, player]
  rfl

variable {input : RecordSignalsInput} {found : Option Nat} {existing : List NewSignal}

theorem Recorded.playerOf (recorded : Recorded s input found existing t) (numbered : s.Numbered)
    (caseId : Nat) : t.playerOf caseId =
      if found = none ∧ caseId = s.nextId then some input.playerId else s.playerOf caseId := by
  have kept : t.playerOf caseId =
      (Table.findUnique Case.id (s.cases ++ if found.isNone then [s.newCase input.playerId] else [])
        caseId).map Case.playerId := by
    rw [Commission.playerOf, Commission.findCaseById, recorded.cases]
    rw [Table.findUnique_updateWhere _ _ _ (by intro _; rfl), Option.map_map]
    congr 1
    funext c
    rw [Function.comp_apply]
    split <;> rfl
  rw [kept]
  cases found with
  | some other =>
      rw [if_neg (by simp), if_neg (by simp), List.append_nil]
      rfl
  | none =>
      have fresh : Table.findUnique Case.id s.cases (s.newCase input.playerId).id = none := by
        apply Table.findUnique_eq_none.mpr
        intro c listed
        exact Nat.ne_of_lt (numbered.caseBelow c listed)
      change (Table.findUnique Case.id (s.cases ++ [s.newCase input.playerId]) caseId).map _ = _
      rw [Table.findUnique_insert _ _ _ fresh]
      change (if s.nextId = caseId then _ else _ : Option Case).map Case.playerId = _
      by_cases its : caseId = s.nextId
      · rw [if_pos its.symm, if_pos ⟨rfl, its⟩]
        rfl
      · rw [if_neg (Ne.symm its), if_neg fun both => its both.2]
        rfl

theorem playerOf_below (numbered : s.Numbered) {caseId playerId : Nat}
    (its : s.playerOf caseId = some playerId) : caseId < s.nextId := by
  obtain ⟨c, found, _⟩ := Option.map_eq_some_iff.mp its
  rw [← Table.findUnique_key found]
  exact numbered.caseBelow c (Table.findUnique_mem found)

/-- A case stays with its player. -/
theorem playerOf_kept (numbered : s.Numbered) (call : CommissionCall) {caseId playerId : Nat}
    (its : s.playerOf caseId = some playerId) : (s.advance call).1.playerOf caseId =
      some playerId := by
  rcases advance_effect s call with quiet | ⟨_, _, _, _, recorded⟩
  · rw [quiet.playerOf, its]
  · have below := playerOf_below numbered its
    rw [recorded.playerOf numbered, if_neg (by omega), its]

end Players

section Sources

/-- Both producers of signals are sources. -/
theorem Analysis.sourced {a : Analysis} {threshold : Rat} {input : RecordSignalsInput}
    (made : a.input threshold = some input) : input.Sourced := by
  unfold Analysis.input at made
  split at made
  · cases made
  · split at made
    · cases made
      have types (e : SignalType × Rat) (listed : e ∈ a.suspicionInputs) :
          e.1 ≠ .manualReport := by
        rcases List.mem_append.mp listed with timing | correlation
        · obtain ⟨_, _, rfl⟩ := Option.map_eq_some_iff.mp (Option.mem_toList.mp timing)
          intro same
          cases same
        · obtain ⟨_, _, rfl⟩ := Option.map_eq_some_iff.mp (Option.mem_toList.mp correlation)
          intro same
          cases same
      constructor
      · rfl
      · intro e listed
        obtain ⟨_, _, rfl⟩ := List.mem_map.mp listed
        rfl
      · intro e listed
        obtain ⟨origin, inside, rfl⟩ := List.mem_map.mp listed
        exact if_neg (types origin inside)
      · change (a.suspicionInputs.map _).Pairwise _
        rw [List.pairwise_map, Analysis.suspicionInputs]
        cases a.timing <;> cases a.correlation <;> simp
    · cases made

theorem Report.sourced (r : Report) : r.input.Sourced where
  game := rfl
  evidence e listed := by
    rw [List.mem_singleton.mp listed]
    rfl
  reporter e listed := by
    rw [List.mem_singleton.mp listed]
    rfl
  distinct := List.pairwise_singleton _ _

end Sources

section Recordings

variable {s t : Commission} {input : RecordSignalsInput} {found : Option Nat}
  {existing : List NewSignal}

structure Commission.Remembered (s : Commission) : Prop where
  numbered : s.Numbered
  once : s.StoredOnce

theorem Quiet.remembered (quiet : Quiet s t) (remembered : s.Remembered) : t.Remembered where
  numbered := quiet.numbered remembered.numbered
  once := by
    rw [Commission.StoredOnce, quiet.signals]
    apply remembered.once.imp
    intro a b apart game same
    rw [Commission.keyOf, Commission.keyOf, quiet.playerOf, quiet.playerOf] at same
    exact apart game same

/-- A signal that its source has stored before is known when the recording has read it. -/
theorem known_of_key (sourced : input.Sourced) (remembers : s.Remembers
      (.record (.writeSignals input found existing))) {old : Signal} (stored : old ∈ s.signals)
    {e : NewSignal} (listed : e ∈ input.signals)
    (same : s.keyOf old = e.key (some input.playerId)) : input.isKnown existing e = true := by
  obtain ⟨player, type, game, reporter⟩ := SignalKey.mk.inj same
  rw [sourced.evidence e listed] at game
  have read := (remembers old stored
    ⟨player, game, reporter.trans (sourced.reporter e listed)⟩).2
  rw [RecordSignalsInput.isKnown, List.any_eq_true]
  refine ⟨old.signal, read, ?_⟩
  rw [NewSignal.reporter, NewSignal.reporter, type] at reporter
  by_cases manual : e.type = .manualReport
  · rw [if_pos manual, if_pos manual] at reporter
    simp [type, game, reporter]
  · simp [type, game, manual]

theorem Recorded.remembered (recorded : Recorded s input found existing t)
    (remembered : s.Remembered)
    (own : (SignalCall.record (.writeSignals input found existing)).Recording s)
    (remembers : s.Remembers (.record (.writeSignals input found existing))) : t.Remembered := by
  obtain ⟨sourced, player⟩ := own
  have below : ∀ caseId ∈ found, caseId < s.nextId := fun caseId its =>
    playerOf_below remembered.numbered (player caseId its)
  have before (e : Signal) (stored : e ∈ s.signals) : t.keyOf e = s.keyOf e := by
    have given := remembered.numbered.signalBelow e stored
    rw [Commission.keyOf, recorded.playerOf remembered.numbered, if_neg (by omega)]
    rfl
  have new (e : NewSignal) : t.keyOf (Signal.stored (found.getD s.nextId) e) =
      e.key (some input.playerId) := by
    rw [Commission.keyOf, Signal.stored, recorded.playerOf remembered.numbered]
    cases found with
    | none =>
        rw [if_pos ⟨rfl, rfl⟩]
        rfl
    | some caseId =>
        rw [if_neg (by simp), Option.getD_some, player caseId rfl]
        rfl
  refine ⟨recorded.numbered remembered.numbered below, ?_⟩
  rw [Commission.StoredOnce, recorded.signals, List.pairwise_append]
  refine ⟨?_, ?_, ?_⟩
  · apply remembered.once.imp_of_mem
    intro a b first second apart game
    rw [before a first, before b second]
    exact apart game
  · rw [List.pairwise_map]
    apply (sourced.distinct.sublist List.filter_sublist).imp
    intro a b apart _ same
    rw [new, new] at same
    exact apart (congrArg SignalKey.type same)
  · intro old stored fresh listed _ same
    obtain ⟨e, kept, rfl⟩ := List.mem_map.mp listed
    obtain ⟨inside, unknown⟩ := List.mem_filter.mp kept
    rw [before old stored, new] at same
    have known := known_of_key sourced remembers stored inside same
    rw [known, Option.isNone_eq_false_iff.mpr sourced.game] at unknown
    cases unknown

theorem advance_remembered {call : CommissionCall} (remembered : s.Remembered)
    (own : (SignalCall.record call).Recording s) (remembers : s.Remembers (.record call)) :
    (s.advance call).1.Remembered := by
  rcases advance_effect s call with quiet | ⟨input, found, existing, rfl, recorded⟩
  · exact quiet.remembered remembered
  · exact recorded.remembered remembered own remembers

/-- What a source has stored is in the case that was found, so that none is opened. -/
theorem advance_ids (remembers : s.Remembers (.record (.writeSignals input found existing)))
    (again : ∃ e ∈ s.signals, s.FromSource input e) :
    (s.advance (.writeSignals input found existing)).1.cases.map Case.id =
      s.cases.map Case.id := by
  rcases advance_effect s (.writeSignals input found existing) with quiet | ⟨_, _, _, same, recorded⟩
  · exact quiet.ids
  · cases same
    obtain ⟨e, stored, source⟩ := again
    have found := (remembers e stored source).1
    rw [recorded.ids, found]
    exact List.append_nil _

theorem SignalCall.Recording.apart {call : CommissionCall} (apart : call.recordsSignals = false) :
    (SignalCall.record call).Recording s := by
  cases call with
  | recordSignals | readSignals | writeSignals => cases apart
  | decideCase | readCase | writeDecision | submitAppeal | checkAppeal | findActiveAppeal
  | createAppeal | decideAppeal | checkReviewer | readAppeal | writeAnswer => trivial

theorem SignalCall.Recording.kept {call : SignalCall} (own : call.Recording s)
    (players : ∀ caseId playerId, s.playerOf caseId = some playerId →
      t.playerOf caseId = some playerId) : call.Recording t := by
  cases call with
  | analyze | report => trivial
  | record call =>
      cases call with
      | recordSignals => exact own
      | readSignals input found | writeSignals input found existing =>
          exact ⟨own.1, fun caseId its => players caseId _ (own.2 caseId its)⟩
      | decideCase | readCase | writeDecision | submitAppeal | checkAppeal | findActiveAppeal
      | createAppeal | decideAppeal | checkReviewer | readAppeal | writeAnswer => trivial

theorem findActiveCase_player (numbered : s.Numbered) {playerId caseId : Nat}
    (found : caseId ∈ (s.findActiveCase playerId).map Case.id) :
    s.playerOf caseId = some playerId := by
  obtain ⟨c, latest, rfl⟩ := Option.map_eq_some_iff.mp found
  obtain ⟨listed, its, _⟩ := findActiveCase_mem latest
  rw [Commission.playerOf, Commission.findCaseById, numbered.caseIds.find listed, ← its]
  rfl

theorem advance_signalCall {threshold : Rat} {call rest : SignalCall} (numbered : s.Numbered)
    (own : call.Recording s) (goes : (s.advanceSignal threshold call).2 = some rest) :
    rest.Recording s := by
  cases call with
  | analyze a =>
      obtain ⟨input, made, rfl⟩ := Option.map_eq_some_iff.mp goes
      exact Analysis.sourced made
  | report r =>
      cases goes
      exact r.sourced
  | record call =>
      obtain ⟨next, goesOn, rfl⟩ := Option.map_eq_some_iff.mp goes
      cases call with
      | recordSignals input =>
          cases goesOn
          exact ⟨own, fun caseId found => findActiveCase_player numbered found⟩
      | readSignals input found =>
          cases goesOn
          exact own
      | writeSignals =>
          rw [Commission.advance, commit_ends] at goesOn
          cases goesOn
      | decideCase | readCase | writeDecision | submitAppeal | checkAppeal | findActiveAppeal
      | createAppeal | decideAppeal | checkReviewer | readAppeal | writeAnswer =>
          exact .apart (advance_apart rfl goesOn)

end Recordings

section Desk

variable {threshold : Rat}

theorem advanceSignal_playerOf {s : Commission} (numbered : s.Numbered) (call : SignalCall)
    {caseId playerId : Nat} (its : s.playerOf caseId = some playerId) :
    (s.advanceSignal threshold call).1.playerOf caseId = some playerId := by
  cases call with
  | analyze | report => exact its
  | record call => exact playerOf_kept numbered call its

theorem signalDesk_outline :
    Outline (signalDesk threshold) Commission.Remembers Commission.Remembered
      fun s call => call.Recording s where
  starts s initial := by
    obtain ⟨initial, signals⟩ := initial
    constructor
    · constructor <;> simp [Table.Unique, initial.cases, signals]
    · rw [Commission.StoredOnce, signals]
      exact .nil
  enters s call _ arrives := by
    cases call with
    | analyze | report => trivial
    | record call =>
        obtain ⟨_, other⟩ := (Bool.and_eq_true _ _).mp arrives
        exact .apart (by simpa using other)
  acts s call remembered own remembers := by
    cases call with
    | analyze | report => exact remembered
    | record call => exact advance_remembered remembered own remembers
  continues s call rest remembered own remembers goes :=
    (advance_signalCall remembered.numbered own goes).kept fun _ _ its =>
      advanceSignal_playerOf remembered.numbered call its
  stable s call other remembered _ _ its :=
    its.kept fun _ _ player => advanceSignal_playerOf remembered.numbered call player
  events s ms t remembered happened := by
    cases happened
    have numbered := remembered.numbered
    exact ⟨⟨⟨numbered.caseIds, numbered.caseBelow, numbered.signalBelow⟩, remembered.once⟩,
      fun other its => its.kept fun _ _ player => player⟩

/-- While whatever the same source has stored lies in the open case that its recording has found
and read, every signal of a game is stored once, and what is recorded again opens no case. -/
theorem signals_stored_once (threshold : Rat) (start : Pool Commission SignalCall)
    (labels : List (Label SignalCall Nat)) (initial : (signalDesk threshold).system.initial start)
    (guarded : System.Guarded (Advancing Commission.Remembers) (signalDesk threshold).system start
      labels) :
    System.EveryStep (signalDesk threshold).system (fun pool label after =>
      after.shared.StoredOnce ∧ OpensNoCaseAgain pool label after) start labels := by
  apply System.everyStep_of_guarded (Holds Commission.Remembered fun s call => call.Recording s)
    _ _ start labels (signalDesk_outline.start initial) guarded
  · intro pool label after holds allowed taken
    exact signalDesk_outline.kept holds allowed taken
  · intro pool label after holds allowed taken
    refine ⟨(signalDesk_outline.kept holds allowed taken).1.once, ?_⟩
    rintro index input found existing rfl here again
    change (signalDesk threshold).step pool (.advance index) = some after at taken
    obtain ⟨call, there, rfl⟩ := advance_step taken
    rw [here] at there
    cases there
    exact advance_ids (allowed _ here) again

end Desk

section Runs

def emptyDesk : Pool Commission SignalCall := ⟨noCases, []⟩

theorem emptyDesk_initial : (signalDesk (6 / 10)).system.initial emptyDesk :=
  ⟨⟨⟨rfl, rfl, rfl⟩, rfl⟩, rfl⟩

def evenTiming : Analysis := ⟨7, 3, some (9 / 10), none⟩

def delivery : List (Label SignalCall Nat) :=
  .arrive (.analyze evenTiming) :: List.replicate 4 (.advance 0)

def dismissal : List (Label SignalCall Nat) :=
  .arrive (.record (.decideCase
    ⟨true, 9, 1, .closedNoAction, some "dalillar yetarli emas", none⟩)) ::
      List.replicate 3 (.advance 0)

/-- The job comes again while its case is open, and after a report. -/
def deliveredTwice : List (Label SignalCall Nat) :=
  delivery ++ .arrive (.report ⟨7, 3, 5⟩) :: List.replicate 4 (.advance 0) ++ delivery ++ dismissal

/-- The job comes again after its case has been dismissed. -/
def deliveredAfterwards : List (Label SignalCall Nat) := delivery ++ dismissal ++ delivery

theorem deliveredTwice_once :
    System.EveryStep (signalDesk (6 / 10)).system (fun pool label after =>
      after.shared.StoredOnce ∧ OpensNoCaseAgain pool label after) emptyDesk deliveredTwice :=
  signals_stored_once (6 / 10) emptyDesk deliveredTwice emptyDesk_initial (by decide +kernel)

/-- The second delivery opens a second case and stores its signal again. -/
theorem signal_stored_twice :
    ∃ pool, (signalDesk (6 / 10)).system.run emptyDesk deliveredAfterwards = some pool ∧
      pool.shared.cases.map Case.status = [.closedNoAction, .opened] ∧
        pool.shared.signals.map Signal.signal =
          [⟨.timingAnomaly, 9 / 10, ⟨some 3, none⟩⟩, ⟨.timingAnomaly, 9 / 10, ⟨some 3, none⟩⟩] ∧
        ¬pool.shared.StoredOnce := by
  have ran : ((signalDesk (6 / 10)).system.run emptyDesk deliveredAfterwards).map (fun pool =>
      (pool.shared.cases.map Case.status, pool.shared.signals.map Signal.signal,
        decide pool.shared.StoredOnce)) =
      some ([.closedNoAction, .opened],
        [⟨.timingAnomaly, 9 / 10, ⟨some 3, none⟩⟩, ⟨.timingAnomaly, 9 / 10, ⟨some 3, none⟩⟩],
        false) := by
    decide +kernel
  obtain ⟨pool, ran, found⟩ := Option.map_eq_some_iff.mp ran
  simp only [Prod.mk.injEq] at found
  exact ⟨pool, ran, found.1, found.2.1, of_decide_eq_false found.2.2⟩

end Runs

end Farzin.FairPlay
