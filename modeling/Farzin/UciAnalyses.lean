import Farzin.UciAdapter

set_option autoImplicit false

/- What the adapter resolves a call with comes from the output of that call's own process, as
long as no output of an earlier process arrives beside it. -/
namespace Farzin.Uci

open Transition

variable {Num : Type} {js : JsNumber Num}

section Engines

/-- An engine that is saying something, or has said it: what of it is unread. -/
def Engine.Saying (e : Engine Num) (mode : EngineMode Num) (unread : List Printed) : Prop :=
  (e.mode = mode ∧ Lines.Unread Printed.isNewline (fun line => mode.ends line = true) false e.line
      unread) ∨
    (e.mode = .idle ∧ Lines.Unread Printed.isNewline (fun line => mode.ends line = true) true []
      unread)

variable {e : Engine Num} {mode : EngineMode Num} {unread : List Printed}

theorem write_saying (process : Nat) (alone : e.inbox = []) (here : e.mode = mode)
    (saying : Lines.Unread Printed.isNewline (fun line => mode.ends line = true) false e.line
      unread) (c : Char) :
    (e.write process c).inbox = [] ∧
      (e.write process c).pipe = e.pipe ++ [⟨c, process, mode.about⟩] ∧
      (e.write process c).Saying mode (unread ++ [⟨c, process, mode.about⟩]) := by
  unfold Engine.write
  rw [here]
  by_cases ends : c = '\n'
  · have newline : Printed.isNewline ⟨c, process, mode.about⟩ = true := decide_eq_true ends
    rw [if_pos ends]
    by_cases last : mode.ends e.line = true
    · rw [if_pos last]
      simp only [Engine.next, alone]
      exact ⟨trivial, trivial, .inr ⟨rfl, saying.endMessage newline⟩⟩
    · rw [if_neg last]
      exact ⟨alone, rfl, .inl ⟨rfl, saying.endLine newline last⟩⟩
  · have inLine : Printed.isNewline ⟨c, process, mode.about⟩ = false := decide_eq_false ends
    rw [if_neg ends]
    exact ⟨alone, rfl, .inl ⟨rfl, saying.write inLine⟩⟩

/-- Whatever is printed belongs to what the engine is saying. -/
theorem print_saying {buffer : List Printed} {process : Nat} {text : Text}
    (speaks : e.Speaks process text) (alone : e.inbox = [])
    (saying : e.Saying mode (buffer ++ e.pipe)) :
    (e.print process text).inbox = [] ∧
      (e.print process text).Saying mode (buffer ++ (e.print process text).pipe) ∧
      ∀ printed ∈ (e.print process text).pipe,
        printed ∈ e.pipe ∨ (printed.process = process ∧ printed.request = mode.about) := by
  induction text generalizing e with
  | nil => exact ⟨alone, saying, fun _ inside => .inl inside⟩
  | cons c text ih =>
      obtain ⟨busy, speaks⟩ := speaks
      obtain ⟨here, going⟩ := saying.resolve_right fun quiet => busy quiet.1
      obtain ⟨still, pipe, after⟩ := write_saying process alone here going c
      rw [List.append_assoc, ← pipe] at after
      obtain ⟨alone, saying, later⟩ := ih speaks still after
      refine ⟨alone, saying, fun printed inside => ?_⟩
      rcases later printed inside with before | own
      · rw [pipe] at before
        rcases List.mem_append.mp before with old | new
        · exact .inl old
        · rw [List.mem_singleton.mp new]
          exact .inr ⟨rfl, rfl⟩
      · exact .inr own

/-- An idle engine is silent. -/
theorem print_idle {process : Nat} {text : Text} (speaks : e.Speaks process text)
    (idle : e.mode = .idle) : e.print process text = e := by
  cases text with
  | nil => rfl
  | cons c text => exact absurd idle speaks.1

end Engines

section Handlers

/-- The last score was parsed from a line about the request, printed by the process. -/
def Remembers (js : JsNumber Num) (process : Nat) (request : Request Num)
    (lastInfo : Option (ParsedInfoLine Num × List Printed)) : Prop :=
  ∀ info ∈ lastInfo, parseInfoLine js (lineText info.2) = some info.1 ∧
    ∀ printed ∈ info.2, printed.IsOf process request.id

/-- An answer from lines about its own request, printed by the process. -/
structure Answer.IsOf (answer : Answer Num) (js : JsNumber Num) (process : Nat) : Prop where
  quotes : answer.Quotes js
  lines : ∀ line ∈ answer.bestLine :: answer.infoLine.toList, ∀ printed ∈ line,
    printed.IsOf process answer.request.id

theorem answerWith_isOf {process : Nat} {request : Request Num}
    {lastInfo : Option (ParsedInfoLine Num × List Printed)}
    (remembers : Remembers js process request lastInfo) {line : List Printed}
    (own : ∀ printed ∈ line, printed.IsOf process request.id) {best : Text}
    (parsed : parseBestMove (lineText line) = some best) :
    (answerWith request lastInfo best line).IsOf js process := by
  refine ⟨⟨parsed, lastInfo.map Prod.fst, ?_, ?_, rfl, rfl⟩, ?_⟩
  · cases lastInfo with
    | none => rfl
    | some info => exact (remembers info rfl).1
  · cases lastInfo <;> rfl
  · intro other listed printed inside
    rcases List.mem_cons.mp listed with same | there
    · rw [same] at inside
      exact own printed inside
    · cases lastInfo with
      | none => cases there
      | some info =>
          have this : other = info.2 := List.mem_singleton.mp there
          rw [this] at inside
          exact (remembers info rfl).2 printed inside

/-- Without a handler lines are dropped. -/
theorem foldl_unhandled (lines : List (List Printed)) (reading : Reading Num)
    (free : reading.lineHandler = none) : lines.foldl (onLine js) reading = reading := by
  induction lines with
  | nil => rfl
  | cons line lines ih =>
      have same : onLine js reading line = reading := by
        rw [onLine, free]
      rw [List.foldl_cons, same]
      exact ih

/-- The handshake goes on, or it ends at a line that saying so. -/
theorem foldl_handshake (js : JsNumber Num) (lines : List (List Printed)) (reading : Reading Num)
    (here : reading.lineHandler = some .handshake) (pending : reading.settled = none) :
    ((lines.foldl (onLine js) reading).lineHandler = some .handshake ∧
        (lines.foldl (onLine js) reading).settled = none) ∨
      (∃ line ∈ lines, isReadyLine line = true) ∧
        (lines.foldl (onLine js) reading).lineHandler = none ∧
        (lines.foldl (onLine js) reading).settled = some .ready := by
  induction lines generalizing reading with
  | nil => exact .inl ⟨here, pending⟩
  | cons line lines ih =>
      have goesOn : (onLine js reading line).lineHandler = some .handshake →
          (onLine js reading line).settled = none → _ := ih (onLine js reading line)
      rw [List.foldl_cons]
      have step : onLine js reading line = onHandshakeLine reading (lineText line) := by
        rw [onLine, here]
      by_cases ready : trim (lineText line) = ['r', 'e', 'a', 'd', 'y', 'o', 'k'] ∧
          parseIdName (lineText line) = none
      · have ended : onLine js reading line =
            { reading with lineHandler := none, settled := some .ready } := by
          rw [step, onHandshakeLine, ready.2]
          simp [ready.1]
        rw [ended, foldl_unhandled lines _ rfl]
        exact .inr ⟨⟨line, List.mem_cons_self, decide_eq_true ready.1⟩, rfl, rfl⟩
      · have still : (onLine js reading line).lineHandler = some .handshake ∧
            (onLine js reading line).settled = none := by
          rw [step, onHandshakeLine]
          split
          · exact ⟨here, pending⟩
          · rename_i unnamed
            split
            · exact ⟨here, pending⟩
            · rw [if_neg fun said => ready ⟨said, unnamed⟩]
              exact ⟨here, pending⟩
        rcases goesOn still.1 still.2 with going | ⟨⟨other, listed, said⟩, ended⟩
        · exact .inl going
        · exact .inr ⟨⟨other, List.mem_cons_of_mem _ listed, said⟩, ended⟩

/-- The analysis goes on with a score from its own lines, or it ends at a `bestmove`. -/
theorem foldl_analysis {process : Nat} {request : Request Num} (lines : List (List Printed))
    (own : ∀ line ∈ lines, ∀ printed ∈ line, printed.IsOf process request.id)
    (reading : Reading Num) {lastInfo : Option (ParsedInfoLine Num × List Printed)}
    (here : reading.lineHandler = some (.analysis request lastInfo))
    (remembers : Remembers js process request lastInfo) (pending : reading.settled = none) :
    (∃ later, (lines.foldl (onLine js) reading).lineHandler = some (.analysis request later) ∧
        Remembers js process request later ∧
        (lines.foldl (onLine js) reading).settled = none) ∨
      (∃ line ∈ lines, isBestMoveLine line = true) ∧
        (lines.foldl (onLine js) reading).lineHandler = none ∧
        ((lines.foldl (onLine js) reading).settled = some .rejected ∨
          ∃ answer, (lines.foldl (onLine js) reading).settled = some (.resolved answer) ∧
            answer.IsOf js process) := by
  induction lines generalizing reading lastInfo with
  | nil => exact .inl ⟨lastInfo, here, remembers, pending⟩
  | cons line lines ih =>
      have first : ∀ printed ∈ line, printed.IsOf process request.id :=
        own line List.mem_cons_self
      have others : ∀ line ∈ lines, ∀ printed ∈ line, printed.IsOf process request.id :=
        fun other listed => own other (List.mem_cons_of_mem _ listed)
      have later : ∀ rest, (∃ line ∈ lines, isBestMoveLine line = true) ∧ rest →
          (∃ line' ∈ line :: lines, isBestMoveLine line' = true) ∧ rest :=
        fun rest both => ⟨both.1.imp fun _ found => ⟨List.mem_cons_of_mem _ found.1, found.2⟩,
          both.2⟩
      have step : onLine js reading line = onAnalysisLine js reading request lastInfo line := by
        rw [onLine, here]
      rw [List.foldl_cons, step, onAnalysisLine]
      cases parsed : parseInfoLine js (lineText line) with
      | some info =>
          dsimp only
          by_cases deeper : isDeeper js info lastInfo = true
          · rw [if_pos deeper]
            have kept : Remembers js process request (some (info, line)) := by
              intro other same
              cases same
              exact ⟨parsed, first⟩
            have rest := ih others { reading with
              lineHandler := some (.analysis request (some (info, line))) } rfl kept pending
            exact rest.imp_right (later _)
          · rw [if_neg deeper]
            exact (ih others reading here remembers pending).imp_right (later _)
      | none =>
          dsimp only
          by_cases ends : isBestMoveLine line = true
          · rw [if_pos ends]
            cases best : parseBestMove (lineText line) with
            | none =>
                dsimp only
                rw [foldl_unhandled lines _ rfl]
                exact .inr ⟨⟨line, List.mem_cons_self, ends⟩, rfl, .inl rfl⟩
            | some move =>
                dsimp only
                rw [foldl_unhandled lines _ rfl]
                exact .inr ⟨⟨line, List.mem_cons_self, ends⟩, rfl,
                  .inr ⟨_, rfl, answerWith_isOf remembers first best⟩⟩
          · rw [if_neg ends]
            exact (ih others reading here remembers pending).imp_right (later _)

end Handlers

section Reading

variable {e : Engine Num} {mode : EngineMode Num} {front back : List Printed}

theorem Engine.Saying.read (saying : e.Saying mode (front ++ back)) :
    Engine.Saying { e with pipe := back } mode
      ((Lines.split Printed.isNewline front).2 ++ back) := by
  rcases saying with ⟨here, going⟩ | ⟨idle, ended⟩
  · exact .inl ⟨here, going.read⟩
  · exact .inr ⟨idle, ended.read⟩

/-- Where the last line has arrived, nothing is left and the engine is idle. -/
theorem Engine.Saying.readAll (saying : e.Saying mode (front ++ back)) {line : List Printed}
    (listed : line ∈ (Lines.split Printed.isNewline front).1) (last : mode.ends line = true) :
    e.mode = .idle ∧ (Lines.split Printed.isNewline front).2 = [] ∧ back = [] := by
  rcases saying with ⟨_, going⟩ | ⟨idle, ended⟩
  · have stopped := (going.readAll listed last).1
    cases stopped
  · exact ⟨idle, (ended.readAll listed last).2⟩

end Reading

namespace Adapter

/-- The current process during a handshake. -/
structure Handshaking (s : Adapter Num) (process : Nat) (e : Engine Num) : Prop where
  handler : s.lineHandler = some .handshake
  saying : e.Saying .starting (s.stdoutBuffer ++ e.pipe)

/-- The current process while it analyses: all that is unread is about the request. -/
structure Analysing (js : JsNumber Num) (s : Adapter Num) (request : Request Num) (process : Nat)
    (e : Engine Num) : Prop where
  handler : ∃ lastInfo, s.lineHandler = some (.analysis request lastInfo) ∧
    Remembers js process request lastInfo
  saying : e.Saying (.thinking request) (s.stdoutBuffer ++ e.pipe)
  own : ∀ printed ∈ s.stdoutBuffer ++ e.pipe, printed.IsOf process request.id

/-- The current process between two calls. -/
structure Resting (s : Adapter Num) (e : Engine Num) : Prop where
  idle : e.mode = .idle
  pipe : e.pipe = []
  buffer : s.stdoutBuffer = []
  handler : s.lineHandler = none

def Current (js : JsNumber Num) (s : Adapter Num) (process : Nat) (e : Engine Num) : Prop :=
  match s.running with
  | none => s.Resting e
  | some (.handshaking _ other) => other = process ∧ s.Handshaking process e
  | some (.analysing request other) => other = process ∧ s.Analysing js request process e

structure Sound (js : JsNumber Num) (s : Adapter Num) : Prop where
  current : ∀ process, s.child = some process →
    ∃ e, s.engines[process]? = some e ∧ e.inbox = [] ∧ s.Current js process e
  free : s.child = none → s.lineHandler = none
  own : ∀ resolved ∈ s.resolved, resolved.Own js

variable {s t : Adapter Num}

theorem initial_sound (initial : s.Initial) : s.Sound js where
  current := by
    intro process child
    rw [initial.child] at child
    cases child
  free := fun _ => initial.lineHandler
  own := by
    rw [initial.resolved]
    intro resolved inside
    cases inside

/-- Without a current process nothing is at stake. -/
theorem Sound.released (sound : s.Sound js) (t : Adapter Num) (child : t.child = none)
    (handler : t.lineHandler = none) (resolved : t.resolved = s.resolved) : t.Sound js where
  current := by
    intro process current
    rw [child] at current
    cases current
  free := fun _ => handler
  own := by
    rw [resolved]
    exact sound.own

/-- An idle process that has nothing unread takes the next position. -/
theorem analyse_sound (own : ∀ resolved ∈ s.resolved, resolved.Own js) (request : Request Num)
    {process : Nat} (child : s.child = some process) {e : Engine Num}
    (here : s.engines[process]? = some e)
    (alone : e.inbox = []) (idle : e.mode = .idle) (pipe : e.pipe = [])
    (buffer : s.stdoutBuffer = []) : (s.analyse request process).Sound js := by
  have received : e.receive request = { e with mode := .thinking request, line := [] } := by
    rw [Engine.receive, idle]
  have nothing : s.stdoutBuffer ++ e.pipe = [] := by
    rw [buffer, pipe]
    rfl
  refine ⟨?_, ?_, own⟩
  · intro current same
    have this : process = current := Option.some.inj (child.symm.trans same)
    subst this
    refine ⟨e.receive request, ?_, ?_, rfl, ?_⟩
    · show (s.engines.modify process _)[process]? = _
      rw [List.getElem?_modify_eq, here]
      rfl
    · rw [received]
      exact alone
    · rw [received]
      refine ⟨⟨none, rfl, ?_⟩, ?_, ?_⟩
      · intro info same
        cases same
      · show Engine.Saying _ _ (s.stdoutBuffer ++ e.pipe)
        rw [nothing]
        exact .inl ⟨rfl, .start⟩
      · show ∀ printed ∈ s.stdoutBuffer ++ e.pipe, _
        rw [nothing]
        intro printed inside
        cases inside
  · intro free
    have impossible : s.child = none := free
    rw [child] at impossible
    cases impossible

theorem Sound.spawn (sound : s.Sound js) (request : Request Num) : (s.spawn request).Sound js := by
  refine ⟨?_, ?_, sound.own⟩
  · intro process same
    have this : s.engines.length = process := Option.some.inj same
    subst this
    refine ⟨⟨.starting, [], [], []⟩, ?_, rfl, rfl, rfl, .inl ⟨rfl, .start⟩⟩
    show (s.engines ++ [_])[s.engines.length]? = _
    rw [List.getElem?_concat_length]
  · intro free
    cases free

/-- A chunk that no handler waits for. -/
theorem onData_unhandled (chunk : List Printed) (free : s.lineHandler = none) :
    s.onData js chunk = s.afterLines chunk ⟨s.name, none, none⟩ := by
  have nothing : s.readLines js chunk = ⟨s.name, none, none⟩ := by
    rw [readLines, foldl_unhandled _ _ free, free]
  rw [onData, nothing]
  rfl

section Data

variable {process : Nat} {e : Engine Num} {chunk back : List Printed} {request : Request Num}

/-- The state that a chunk of the current process finds. -/
structure Arrived (js : JsNumber Num) (s : Adapter Num) (process : Nat) (e : Engine Num)
    (back : List Printed) : Prop where
  child : s.child = some process
  engine : s.engines[process]? = some { e with pipe := back }
  alone : e.inbox = []
  own : ∀ resolved ∈ s.resolved, resolved.Own js

/-- The current process is the one whose chunk has arrived. -/
theorem Arrived.sound (arrived : s.Arrived js process e back) (t : Adapter Num)
    (child : t.child = s.child) (engines : t.engines = s.engines)
    (own : ∀ resolved ∈ t.resolved, resolved.Own js)
    (current : t.Current js process { e with pipe := back }) : t.Sound js where
  current := by
    intro other same
    rw [child, arrived.child] at same
    cases same
    refine ⟨{ e with pipe := back }, ?_, arrived.alone, current⟩
    rw [engines]
    exact arrived.engine
  free := by
    intro free
    rw [child, arrived.child] at free
    cases free
  own := own

theorem handshake_sound (arrived : s.Arrived js process e back)
    (running : s.running = some (.handshaking request process))
    (handler : s.lineHandler = some .handshake)
    (saying : e.Saying .starting ((s.stdoutBuffer ++ chunk) ++ back)) :
    (s.onData js chunk).Sound js := by
  rw [onData]
  rcases foldl_handshake js _ ⟨s.name, s.lineHandler, none⟩ handler rfl with
    ⟨still, pending⟩ | ⟨⟨line, listed, ready⟩, _, settled⟩
  · have going : (s.readLines js chunk).settled = none := pending
    have waits : (s.afterLines chunk (s.readLines js chunk)).running =
        some (.handshaking request process) := running
    rw [going, settle]
    refine arrived.sound _ ?_ ?_ arrived.own ?_
    · rfl
    · rfl
    · rw [Current, waits]
      exact ⟨rfl, still, saying.read⟩
  · have done : (s.readLines js chunk).settled = some .ready := settled
    have waits : (s.afterLines chunk (s.readLines js chunk)).running =
        some (.handshaking request process) := running
    obtain ⟨idle, rest, all⟩ := saying.readAll listed ready
    rw [done, settle, waits]
    exact analyse_sound (s := s.afterLines chunk (s.readLines js chunk)) arrived.own request
      arrived.child arrived.engine arrived.alone idle all rest

theorem analysis_sound (arrived : s.Arrived js process e back)
    (running : s.running = some (.analysing request process))
    {lastInfo : Option (ParsedInfoLine Num × List Printed)}
    (handler : s.lineHandler = some (.analysis request lastInfo))
    (remembers : Remembers js process request lastInfo)
    (saying : e.Saying (.thinking request) ((s.stdoutBuffer ++ chunk) ++ back))
    (own : ∀ printed ∈ (s.stdoutBuffer ++ chunk) ++ back, printed.IsOf process request.id) :
    (s.onData js chunk).Sound js := by
  have members := Lines.split_members Printed.isNewline (s.stdoutBuffer ++ chunk)
  have lines : ∀ line ∈ (Lines.split Printed.isNewline (s.stdoutBuffer ++ chunk)).1,
      ∀ printed ∈ line, printed.IsOf process request.id :=
    fun line listed printed inside =>
      own printed (List.mem_append_left _ (members.1 line listed printed inside))
  rw [onData]
  rcases foldl_analysis _ lines ⟨s.name, s.lineHandler, none⟩ handler remembers rfl with
    ⟨later, still, keeps, pending⟩ | ⟨⟨line, listed, last⟩, free, settled⟩
  · have going : (s.readLines js chunk).settled = none := pending
    have waits : (s.afterLines chunk (s.readLines js chunk)).running =
        some (.analysing request process) := running
    rw [going, settle]
    refine arrived.sound _ ?_ ?_ arrived.own ?_
    · rfl
    · rfl
    · rw [Current, waits]
      refine ⟨rfl, ⟨later, still, keeps⟩, saying.read, ?_⟩
      intro printed inside
      apply own
      rcases List.mem_append.mp inside with unfinished | coming
      · exact List.mem_append_left _ (members.2 printed unfinished)
      · exact List.mem_append_right _ coming
  · obtain ⟨idle, rest, all⟩ := saying.readAll listed last
    have resting : ∀ t : Adapter Num, t.stdoutBuffer = [] → t.lineHandler = none →
        t.running = none → t.Current js process { e with pipe := back } := by
      intro t buffer handler stopped
      rw [Current, stopped]
      exact ⟨idle, all, buffer, handler⟩
    rcases settled with rejected | ⟨answer, resolved, mine⟩
    · have done : (s.readLines js chunk).settled = some .rejected := rejected
      rw [done]
      refine arrived.sound _ ?_ ?_ arrived.own ?_
      · rfl
      · rfl
      · exact resting _ rest free rfl
    · have done : (s.readLines js chunk).settled = some (.resolved answer) := resolved
      rw [done]
      refine arrived.sound _ ?_ ?_ ?_ ?_
      · rfl
      · rfl
      · intro other listed
        rcases List.mem_append.mp listed with old | new
        · exact arrived.own other old
        · rw [List.mem_singleton.mp new]
          exact ⟨mine.quotes, process, arrived.child, mine.lines⟩
      · exact resting _ rest free rfl

end Data

/-- A chunk of the current process, or any chunk when there is none. -/
theorem data_sound (sound : s.Sound js) {process size : Nat}
    (fromChild : FromChild s (.data process size))
    (taken : s.step js (.data process size) = some t) : t.Sound js := by
  simp only [step] at taken
  split at taken
  · cases taken
  · rename_i e here
    by_cases fits : 0 < size ∧ size ≤ e.pipe.length
    · rw [if_pos fits] at taken
      cases taken
      rcases s.child.eq_none_or_eq_some with child | ⟨current, child⟩
      · have free : (s.drain process size).lineHandler = none := sound.free child
        rw [onData_unhandled _ free]
        refine sound.released _ ?_ ?_ ?_
        · exact child
        · rfl
        · rfl
      · have this : current = process := fromChild current child
        subst this
        obtain ⟨e', there, alone, now⟩ := sound.current current child
        rw [here] at there
        cases there
        have pieces : e.pipe.take size ++ e.pipe.drop size = e.pipe := List.take_append_drop ..
        have arrived : (s.drain current size).Arrived js current e (e.pipe.drop size) := by
          refine ⟨child, ?_, alone, sound.own⟩
          rw [drain, List.getElem?_modify_eq, here]
          rfl
        unfold Current at now
        split at now
        · have empty := now.pipe
          rw [empty, List.length_nil] at fits
          omega
        · rename_i request other running
          obtain ⟨rfl, now⟩ := now
          apply handshake_sound arrived running now.handler
          rw [List.append_assoc, pieces]
          exact now.saying
        · rename_i request other running
          obtain ⟨rfl, now⟩ := now
          obtain ⟨lastInfo, handler, remembers⟩ := now.handler
          apply analysis_sound arrived running handler remembers
          · rw [List.append_assoc, pieces]
            exact now.saying
          · rw [List.append_assoc, pieces]
            exact now.own
    · rw [if_neg fits] at taken
      cases taken

/-- Where the process stands is read off the fields that a call changes. -/
theorem Current.same {process : Nat} {e : Engine Num} (now : s.Current js process e)
    (running : t.running = s.running) (handler : t.lineHandler = s.lineHandler)
    (buffer : t.stdoutBuffer = s.stdoutBuffer) : t.Current js process e := by
  unfold Current at now ⊢
  rw [running]
  split at now
  · exact ⟨now.idle, now.pipe, buffer.trans now.buffer, handler.trans now.handler⟩
  · refine ⟨now.1, handler.trans now.2.handler, ?_⟩
    rw [buffer]
    exact now.2.saying
  · refine ⟨now.1, ?_, ?_, ?_⟩
    · rw [handler]
      exact now.2.handler
    · rw [buffer]
      exact now.2.saying
    · rw [buffer]
      exact now.2.own

/-- What a process prints is about what it was last sent. -/
theorem print_sound (sound : s.Sound js) {process : Nat} {text : Text}
    (keeps : KeepsToUci s (.print process text)) :
    Sound js { s with engines := s.engines.modify process (Engine.print process text) } := by
  refine ⟨?_, sound.free, sound.own⟩
  intro current child
  obtain ⟨e, here, alone, now⟩ := sound.current current child
  by_cases same : process = current
  · subst same
    have speaks : e.Speaks process text := keeps e here
    have printed : (s.engines.modify process (Engine.print process text))[process]? =
        some (e.print process text) := by
      rw [List.getElem?_modify_eq, here]
      rfl
    unfold Current at now
    split at now
    · rename_i running
      refine ⟨e, ?_, alone, ?_⟩
      · rw [print_idle speaks now.idle] at printed
        exact printed
      · rw [Current]
        simp only [running]
        exact ⟨now.idle, now.pipe, now.buffer, now.handler⟩
    · rename_i request other running
      obtain ⟨rfl, now⟩ := now
      obtain ⟨still, saying, _⟩ := print_saying speaks alone now.saying
      refine ⟨_, printed, still, ?_⟩
      rw [Current]
      simp only [running]
      exact ⟨trivial, now.handler, saying⟩
    · rename_i request other running
      obtain ⟨rfl, now⟩ := now
      obtain ⟨still, saying, about⟩ := print_saying speaks alone now.saying
      refine ⟨_, printed, still, ?_⟩
      rw [Current]
      simp only [running]
      refine ⟨trivial, now.handler, saying, ?_⟩
      intro symbol inside
      rcases List.mem_append.mp inside with old | new
      · exact now.own symbol (List.mem_append_left _ old)
      · rcases about symbol new with before | fresh
        · exact now.own symbol (List.mem_append_right _ before)
        · exact fresh
  · refine ⟨e, ?_, alone, now.same rfl rfl rfl⟩
    exact (List.getElem?_modify_ne _ _ same).trans here

/-- The current process ends, or another one that does not matter any more. -/
theorem exit_sound (sound : s.Sound js) (process : Nat) : (s.onExit process).Sound js := by
  rw [onExit]
  split
  · exact sound.released _ rfl rfl rfl
  · exact sound

/-- A handshake is with the current process. -/
theorem handshake_child (sound : s.Sound js) {request : Request Num} {process : Nat}
    (running : s.running = some (.handshaking request process)) :
    s.child = none ∨ s.child = some process := by
  rcases s.child.eq_none_or_eq_some with child | ⟨current, child⟩
  · exact .inl child
  · obtain ⟨_, _, _, now⟩ := sound.current current child
    rw [Current, running] at now
    rw [now.1]
    exact .inr child

theorem error_sound (sound : s.Sound js) (process : Nat) : (s.onError process).Sound js := by
  unfold onError
  split
  · rename_i request other running
    split
    · rename_i same
      subst same
      have gone : (s.onExit other).child = none := by
        rw [onExit]
        split
        · rfl
        · rename_i another
          exact (handshake_child sound running).resolve_right another
      refine sound.released _ gone ((exit_sound sound other).free gone) ?_
      show (s.onExit other).resolved = s.resolved
      rw [onExit]
      split <;> rfl
    · exact exit_sound sound process
  · exact exit_sound sound process

/-- Every step keeps the answers to their own lines, as long as only the current process is
heard. -/
theorem step_sound (label : AdapterLabel Num) (sound : s.Sound js) (keeps : KeepsToUci s label)
    (fromChild : FromChild s label) (taken : s.step js label = some t) : t.Sound js := by
  cases label with
  | analyzePosition fen depth =>
      cases taken
      refine ⟨?_, sound.free, sound.own⟩
      intro current child
      obtain ⟨e, here, alone, now⟩ := sound.current current child
      exact ⟨e, here, alone, now.same rfl rfl rfl⟩
  | analyzeSerialized =>
      simp only [step] at taken
      split at taken
      · rename_i request chain running listed
        have waits : Sound js { s with chain := chain } := by
          refine ⟨?_, sound.free, sound.own⟩
          intro current child
          obtain ⟨e, here, alone, now⟩ := sound.current current child
          exact ⟨e, here, alone, now.same rfl rfl rfl⟩
        split at taken
        · cases taken
          exact waits
        · split at taken
          · rename_i process child
            cases taken
            obtain ⟨e, here, alone, now⟩ := waits.current process child
            unfold Current at now
            simp only [running] at now
            exact analyse_sound waits.own request child here alone now.idle now.pipe now.buffer
          · cases taken
            exact waits.spawn request
      · cases taken
  | print process text =>
      cases taken
      exact print_sound sound keeps
  | data process size => exact data_sound sound fromChild taken
  | exit process =>
      cases taken
      exact exit_sound sound process
  | error process =>
      cases taken
      exact error_sound sound process
  | timeout =>
      simp only [step, Option.map_eq_some_iff] at taken
      obtain ⟨_, _, rfl⟩ := taken
      exact sound.released _ rfl rfl rfl
  | dispose =>
      cases taken
      exact sound.released _ rfl rfl rfl

end Adapter

/-- Whatever engines that keep to UCI print, however it is cut into chunks, and whatever times out,
exits and is spawned again: each call resolves with a score and a best move from lines that the
current process printed for that call's position, in every state that is reached while no output
of another process arrives beside a current one. -/
theorem own_output_only {s : Adapter Num} (js : JsNumber Num)
    (reached : (adapter js).ReachableWhile
      (fun s label => KeepsToUci s label ∧ FromChild s label) s) :
    ∀ resolved ∈ s.resolved, resolved.Own js := by
  have sound : s.Sound js := by
    apply reached.invariant (Adapter.Sound js)
    · intro start initial
      exact Adapter.initial_sound initial
    · intro s label t sound heard taken
      exact Adapter.step_sound label sound heard.1 heard.2 taken
  exact sound.own

/-- Whole numbers, as far as the examples below need them. -/
def wholeNumber (text : Text) : Option Int :=
  let digits := if text.head? = some '-' then text.tail else text
  if digits = [] ∨ digits.any (fun c => !c.isDigit) then none
  else
    let value : Nat := digits.foldl (fun n c => 10 * n + (c.toNat - 48)) 0
    some (if text.head? = some '-' then -value else value)

def wholeNumbers : JsNumber (Option Int) where
  number := wholeNumber
  isInteger := Option.isSome
  isFinite := Option.isSome
  atLeast := fun a b => decide (b.getD 0 ≤ a.getD 0)

def newAdapter : Adapter (Option Int) := ⟨[], none, none, [], [], none, false, 0, [], []⟩

theorem newAdapter_initial : newAdapter.Initial := ⟨rfl, rfl, rfl, rfl⟩

/-- A process answers the handshake. -/
def shakesHands (process : Nat) : List (AdapterLabel (Option Int)) :=
  [.print process "readyok\n".toList, .data process 8]

def wildAnswer : Text := "info depth 1 score cp 900 pv a2a3\nbestmove a2a3\n".toList

/-- Two calls; the first one gets an answer that is still in the pipe when it times out. -/
def lateAnswer : List (AdapterLabel (Option Int)) :=
  [.analyzePosition "a".toList (some 1), .analyzePosition "b".toList (some 1),
    .analyzeSerialized] ++ shakesHands 0 ++ [.print 0 wildAnswer, .timeout]

/-- The late answer arrives before the next process is spawned. -/
def heardInBetween : List (AdapterLabel (Option Int)) :=
  lateAnswer ++ [.data 0 48, .analyzeSerialized] ++ shakesHands 1 ++
    [.print 1 "info depth 1 score cp 30 pv e2e4\nbestmove e2e4\n".toList, .data 1 20, .data 1 27]

theorem heardInBetween_own : ∃ s, (adapter wholeNumbers).run newAdapter heardInBetween = some s ∧
    s.resolved.length = 1 ∧ ∀ resolved ∈ s.resolved, resolved.Own wholeNumbers := by
  have ran : ((adapter wholeNumbers).run newAdapter heardInBetween).map
      (fun s => s.resolved.length) = some 1 := by
    decide +kernel
  obtain ⟨s, ended, one⟩ := Option.map_eq_some_iff.mp ran
  have reached : (adapter wholeNumbers).ReachableWhile
      (fun s label => KeepsToUci s label ∧ FromChild s label) s :=
    ⟨newAdapter, newAdapter_initial,
      System.run_steps _ _ heardInBetween ended (by decide +kernel)⟩
  exact ⟨s, ended, one, own_output_only wholeNumbers reached⟩

/-- The late answer arrives while the next process is at work. -/
def heardTooLate : List (AdapterLabel (Option Int)) :=
  lateAnswer ++ [.analyzeSerialized] ++ shakesHands 1 ++ [.data 0 48]

/-- The second call resolves with the first one's score and move, printed by the process that was
killed. -/
theorem late_answer_resolves :
    ∃ s, (adapter wholeNumbers).ReachableWhile KeepsToUci s ∧ ∃ resolved ∈ s.resolved,
      resolved.process = some 1 ∧ resolved.answer.request.id = 1 ∧
        resolved.answer.analysis.evalCp = some (some 900) ∧ ¬ resolved.Own wholeNumbers := by
  have ran : ((adapter wholeNumbers).run newAdapter heardTooLate).map
      (fun s => s.resolved.map fun resolved => (resolved.process, resolved.answer.request.id,
        resolved.answer.bestLine.head?.map Printed.process,
        decide (resolved.answer.analysis.evalCp = some (some 900)))) =
      some [(some 1, 1, some 0, true)] := by
    decide +kernel
  obtain ⟨s, ended, facts⟩ := Option.map_eq_some_iff.mp ran
  obtain ⟨resolved, only, fields⟩ := List.map_eq_singleton_iff.mp facts
  simp only [Prod.mk.injEq] at fields
  obtain ⟨process, second, first, score⟩ := fields
  obtain ⟨printed, head, stale⟩ := Option.map_eq_some_iff.mp first
  have reached : (adapter wholeNumbers).ReachableWhile KeepsToUci s :=
    ⟨newAdapter, newAdapter_initial, System.run_steps _ _ heardTooLate ended (by decide +kernel)⟩
  refine ⟨s, reached, resolved, ?_, process, second, of_decide_eq_true score, fun own => ?_⟩
  · rw [only]
    exact List.mem_singleton_self _
  · obtain ⟨_, current, known, lines⟩ := own
    have inside : printed ∈ resolved.answer.bestLine := List.mem_of_head? head
    have mine := (lines _ List.mem_cons_self printed inside).1
    rw [process] at known
    cases known
    rw [stale] at mine
    cases mine

end Farzin.Uci
