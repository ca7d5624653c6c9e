import Farzin.Lines
import Farzin.Transition

set_option autoImplicit false

/- The Stockfish adapter (`fairplay/engine/stockfish-uci.adapter.ts`): one engine process at a
time, a queue of positions, and one buffer and one line handler for whatever any process prints.
Every printed character is marked with its process and the request it is about: from a `go` to the
line with its `bestmove` an engine prints for that position. The code does not see the marks. -/
namespace Farzin.Uci

open Transition

abbrev Text := List Char

/-- White space as `trim` and the class of `split` know it. -/
def isSpace (c : Char) : Bool :=
  c.toNat ∈ [9, 10, 11, 12, 13, 32, 160, 5760, 8232, 8233, 8239, 8287, 12288, 65279] ||
    (8192 ≤ c.toNat && c.toNat ≤ 8202)

def trim (text : Text) : Text :=
  ((text.dropWhile isSpace).reverse.dropWhile isSpace).reverse

/-- The tokens of a trimmed line. -/
def words (text : Text) : List Text := (text.splitOnP isSpace).filter (· ≠ [])

/-- The conversion from text to a number, with what the parser asks of a number. -/
structure JsNumber (Num : Type) where
  number : Text → Num
  isInteger : Num → Bool
  isFinite : Num → Bool
  atLeast : Num → Num → Bool

inductive ScoreUnit where
  | cp
  | mate
  deriving DecidableEq, Repr

structure UciScore (Num : Type) where
  unit : ScoreUnit
  value : Num
  deriving DecidableEq, Repr

structure ParsedInfoLine (Num : Type) where
  depth : Option Num
  score : Option (UciScore Num)
  pvFirstMove : Option Text
  deriving DecidableEq, Repr

def scoreUnit (token : Text) : Option ScoreUnit :=
  if token = ['c', 'p'] then some .cp
  else if token = ['m', 'a', 't', 'e'] then some .mate
  else none

section Parsers

variable {Num : Type} (js : JsNumber Num)

/-- A missing token converts to no number. -/
def parseDepth (token : Option Text) : Option Num :=
  token.bind fun text => if js.isInteger (js.number text) then some (js.number text) else none

def parseScore (unit value : Option Text) : Option (UciScore Num) :=
  (unit.bind scoreUnit).bind fun unit => value.bind fun text =>
    if js.isFinite (js.number text) then some ⟨unit, js.number text⟩ else none

/-- The loop over the tokens; `skip` counts those that a keyword before them has consumed. -/
def scanInfo (parsed : ParsedInfoLine Num) (skip : Nat) : List Text → ParsedInfoLine Num
  | [] => parsed
  | token :: tokens =>
      match skip with
      | skip + 1 => scanInfo parsed skip tokens
      | 0 =>
          if token = ['d', 'e', 'p', 't', 'h'] then
            scanInfo { parsed with depth := (parseDepth js tokens.head?).or parsed.depth } 1 tokens
          else if token = ['s', 'c', 'o', 'r', 'e'] then
            scanInfo { parsed with
              score := (parseScore js tokens.head? tokens.tail.head?).or parsed.score } 2 tokens
          else if token = ['p', 'v'] then { parsed with pvFirstMove := tokens.head? }
          else scanInfo parsed 0 tokens

def parseInfoLine (line : Text) : Option (ParsedInfoLine Num) :=
  match words line with
  | [] => none
  | first :: tokens =>
      if first ≠ ['i', 'n', 'f', 'o'] then none
      else
        let parsed := scanInfo js ⟨none, none, none⟩ 0 tokens
        if parsed.score.isNone then none else some parsed

def bestmove : Text := ['b', 'e', 's', 't', 'm', 'o', 'v', 'e']

def parseBestMove (line : Text) : Option Text :=
  match words line with
  | [] => none
  | first :: tokens =>
      if first ≠ bestmove then none
      else tokens.head?.filter (· ≠ ['(', 'n', 'o', 'n', 'e', ')'])

/-- What `\s+` leaves of a text, if it matches at the start. -/
def skipSpaces (text : Text) : Option Text :=
  if (text.head?.map isSpace).getD false then some (text.dropWhile isSpace) else none

def isLineTerminator (c : Char) : Bool := c.toNat ∈ [10, 13, 8232, 8233]

def parseIdName (line : Text) : Option Text := do
  let afterId ← ['i', 'd'].isPrefixOf? (trim line)
  let afterName ← ['n', 'a', 'm', 'e'].isPrefixOf? (← skipSpaces afterId)
  let name ← skipSpaces afterName
  if name = [] ∨ name.any isLineTerminator then none else some (trim name)

end Parsers

/-- A character that an engine has printed, with the request it was printed for. -/
structure Printed where
  char : Char
  process : Nat
  request : Option Nat
  deriving DecidableEq, Repr

def Printed.isNewline (printed : Printed) : Bool := printed.char = '\n'

/-- A line as the handler gets it, without a carriage return at its end. -/
def lineText (line : List Printed) : Text :=
  let text := line.map Printed.char
  if text.getLast? = some '\r' then text.dropLast else text

/-- One call of `analyzePosition`, numbered in the order of the calls. -/
structure Request (Num : Type) where
  id : Nat
  fen : Text
  depth : Num
  deriving DecidableEq, Repr

inductive EngineMode (Num : Type) where
  /-- Until it has printed `readyok`. -/
  | starting
  | idle
  | thinking (request : Request Num)
  deriving DecidableEq, Repr

/-- `inbox` holds the positions it was sent and has not begun, `line` the line it is printing and
`pipe` what it has printed and the adapter has not received. -/
structure Engine (Num : Type) where
  mode : EngineMode Num
  inbox : List (Request Num)
  line : List Printed
  pipe : List Printed
  deriving DecidableEq, Repr

def isReadyLine (line : List Printed) : Bool :=
  trim (lineText line) = ['r', 'e', 'a', 'd', 'y', 'o', 'k']

def isBestMoveLine (line : List Printed) : Bool := bestmove.isPrefixOf (lineText line)

namespace EngineMode

variable {Num : Type}

/-- The line after which the engine has nothing more to say. -/
def ends : EngineMode Num → List Printed → Bool
  | .starting => isReadyLine
  | .idle => fun _ => false
  | .thinking _ => isBestMoveLine

def about : EngineMode Num → Option Nat
  | .thinking request => some request.id
  | _ => none

def isIdle : EngineMode Num → Bool
  | .idle => true
  | _ => false

theorem isIdle_false (mode : EngineMode Num) : mode.isIdle = false ↔ mode ≠ .idle := by
  cases mode <;> simp [isIdle]

end EngineMode

namespace Engine

variable {Num : Type}

/-- The engine has ended its message and turns to the next position. -/
def next (e : Engine Num) : Engine Num :=
  match e.inbox with
  | [] => { e with mode := .idle, line := [] }
  | request :: inbox => { e with mode := .thinking request, inbox := inbox, line := [] }

def write (process : Nat) (e : Engine Num) (c : Char) : Engine Num :=
  let printed : Printed := ⟨c, process, e.mode.about⟩
  let written := { e with pipe := e.pipe ++ [printed] }
  if c = '\n' then
    if e.mode.ends e.line then written.next else { written with line := [] }
  else { written with line := e.line ++ [printed] }

def print (process : Nat) (text : Text) (e : Engine Num) : Engine Num :=
  text.foldl (write process) e

/-- No character of the text comes while the engine has nothing to do. -/
def Speaks (process : Nat) (e : Engine Num) : Text → Prop
  | [] => True
  | c :: text => e.mode ≠ .idle ∧ Speaks process (e.write process c) text

/-- `position fen` and `go depth` arrive. -/
def receive (request : Request Num) (e : Engine Num) : Engine Num :=
  match e.mode with
  | .idle => { e with mode := .thinking request, line := [] }
  | _ => { e with inbox := e.inbox ++ [request] }

end Engine

structure PositionAnalysis (Num : Type) where
  bestMoveUci : Text
  evalCp : Option Num
  mate : Option Num
  depth : Num
  deriving DecidableEq, Repr

/-- What a call resolves with, and the lines it was taken from. -/
structure Answer (Num : Type) where
  request : Request Num
  analysis : PositionAnalysis Num
  infoLine : Option (List Printed)
  bestLine : List Printed
  deriving DecidableEq, Repr

/-- The closures that the adapter installs. `lastInfo` comes with the line it was parsed from. -/
inductive LineHandler (Num : Type) where
  | handshake
  | analysis (request : Request Num) (lastInfo : Option (ParsedInfoLine Num × List Printed))
  deriving DecidableEq, Repr

inductive Settlement (Num : Type) where
  | ready
  | rejected
  | resolved (answer : Answer Num)
  deriving DecidableEq, Repr

/-- What the handlers change while a chunk is read. -/
structure Reading (Num : Type) where
  name : Text
  lineHandler : Option (LineHandler Num)
  settled : Option (Settlement Num)
  deriving DecidableEq, Repr

section Handlers

variable {Num : Type} (js : JsNumber Num)

/-- The last score stays when it is deeper than the one that arrives. -/
def isDeeper (info : ParsedInfoLine Num) (lastInfo : Option (ParsedInfoLine Num × List Printed)) :
    Bool :=
  match lastInfo, info.depth with
  | some (last, _), some depth =>
      match last.depth with
      | some lastDepth => js.atLeast depth lastDepth
      | none => true
  | _, _ => true

def evalOf (unit : ScoreUnit) (info : Option (ParsedInfoLine Num)) : Option Num :=
  (info.bind ParsedInfoLine.score).bind fun score =>
    if score.unit = unit then some score.value else none

def answerWith (request : Request Num) (lastInfo : Option (ParsedInfoLine Num × List Printed))
    (best : Text) (line : List Printed) : Answer Num where
  request := request
  analysis := {
    bestMoveUci := best
    evalCp := evalOf .cp (lastInfo.map Prod.fst)
    mate := evalOf .mate (lastInfo.map Prod.fst)
    depth := (lastInfo.bind fun info => info.1.depth).getD request.depth }
  infoLine := lastInfo.map Prod.snd
  bestLine := line

def onHandshakeLine (reading : Reading Num) (line : Text) : Reading Num :=
  match parseIdName line with
  | some name => { reading with name := name }
  | none =>
      if trim line = ['u', 'c', 'i', 'o', 'k'] then reading
      else if trim line = ['r', 'e', 'a', 'd', 'y', 'o', 'k'] then
        { reading with lineHandler := none, settled := some .ready }
      else reading

def onAnalysisLine (reading : Reading Num) (request : Request Num)
    (lastInfo : Option (ParsedInfoLine Num × List Printed)) (line : List Printed) : Reading Num :=
  match parseInfoLine js (lineText line) with
  | some info =>
      if isDeeper js info lastInfo then
        { reading with lineHandler := some (.analysis request (some (info, line))) }
      else reading
  | none =>
      if isBestMoveLine line then
        match parseBestMove (lineText line) with
        | none => { reading with lineHandler := none, settled := some .rejected }
        | some best =>
            { reading with
              lineHandler := none
              settled := some (.resolved (answerWith request lastInfo best line)) }
      else reading

/-- `this.lineHandler?.(line)`. -/
def onLine (reading : Reading Num) (line : List Printed) : Reading Num :=
  match reading.lineHandler with
  | none => reading
  | some .handshake => onHandshakeLine reading (lineText line)
  | some (.analysis request lastInfo) => onAnalysisLine js reading request lastInfo line

end Handlers

/-- The call at work, at one of the two awaits with a time-out. -/
inductive Running (Num : Type) where
  | handshaking (request : Request Num) (process : Nat)
  | analysing (request : Request Num) (process : Nat)
  deriving DecidableEq, Repr

/-- An answer, with the current process when it was given. -/
structure Resolved (Num : Type) where
  process : Option Nat
  answer : Answer Num
  deriving DecidableEq, Repr

/-- The fields of the adapter, the processes it has spawned by number, and the calls in its
`chain`. -/
structure Adapter (Num : Type) where
  name : Text
  child : Option Nat
  lineHandler : Option (LineHandler Num)
  stdoutBuffer : List Printed
  chain : List (Request Num)
  running : Option (Running Num)
  disposed : Bool
  calls : Nat
  engines : List (Engine Num)
  resolved : List (Resolved Num)
  deriving DecidableEq, Repr

inductive AdapterLabel (Num : Type) where
  | analyzePosition (fen : Text) (depth : Num)
  /-- The first call of the chain begins. -/
  | analyzeSerialized
  | print (process : Nat) (text : Text)
  /-- The first `size` characters in a process's pipe arrive as one chunk. -/
  | data (process size : Nat)
  | exit (process : Nat)
  | error (process : Nat)
  | timeout
  | dispose
  deriving DecidableEq, Repr

namespace Adapter

variable {Num : Type}

def analyse (s : Adapter Num) (request : Request Num) (process : Nat) : Adapter Num :=
  { s with
    lineHandler := some (.analysis request none)
    engines := s.engines.modify process (Engine.receive request)
    running := some (.analysing request process) }

/-- `ensureProcess`, when there is none, up to its await. -/
def spawn (s : Adapter Num) (request : Request Num) : Adapter Num :=
  { s with
    child := some s.engines.length
    stdoutBuffer := []
    engines := s.engines ++ [⟨.starting, [], [], []⟩]
    lineHandler := some .handshake
    running := some (.handshaking request s.engines.length) }

/-- The call goes on once the chunk that settled its promise has been read. -/
def settle (s : Adapter Num) : Option (Settlement Num) → Adapter Num
  | none => s
  | some .ready =>
      match s.running with
      | some (.handshaking request process) => s.analyse request process
      | _ => s
  | some .rejected => { s with running := none }
  | some (.resolved answer) =>
      { s with running := none, resolved := s.resolved ++ [⟨s.child, answer⟩] }

/-- The handlers run over every line that the chunk finishes. -/
def readLines (js : JsNumber Num) (s : Adapter Num) (chunk : List Printed) : Reading Num :=
  (Lines.split Printed.isNewline (s.stdoutBuffer ++ chunk)).1.foldl (onLine js)
    ⟨s.name, s.lineHandler, none⟩

def afterLines (s : Adapter Num) (chunk : List Printed) (reading : Reading Num) : Adapter Num :=
  { s with
    stdoutBuffer := (Lines.split Printed.isNewline (s.stdoutBuffer ++ chunk)).2
    name := reading.name
    lineHandler := reading.lineHandler }

def onData (js : JsNumber Num) (s : Adapter Num) (chunk : List Printed) : Adapter Num :=
  (s.afterLines chunk (s.readLines js chunk)).settle (s.readLines js chunk).settled

/-- A chunk leaves the pipe of a process. -/
def drain (s : Adapter Num) (process size : Nat) : Adapter Num :=
  { s with engines := s.engines.modify process fun e => { e with pipe := e.pipe.drop size } }

/-- The process is no longer the current one. -/
def release (s : Adapter Num) : Adapter Num := { s with child := none, lineHandler := none }

def onExit (s : Adapter Num) (process : Nat) : Adapter Num :=
  if s.child = some process then s.release else s

/-- An `error` rejects the handshake with that process as well. -/
def onError (s : Adapter Num) (process : Nat) : Adapter Num :=
  match s.running with
  | some (.handshaking _ other) =>
      if other = process then { s.onExit process with running := none } else s.onExit process
  | _ => s.onExit process

def step (js : JsNumber Num) (s : Adapter Num) : AdapterLabel Num → Option (Adapter Num)
  | .analyzePosition fen depth =>
      some { s with chain := s.chain ++ [⟨s.calls, fen, depth⟩], calls := s.calls + 1 }
  | .analyzeSerialized =>
      match s.running, s.chain with
      | none, request :: chain =>
          let s := { s with chain := chain }
          if s.disposed then some s
          else match s.child with
            | some process => some (s.analyse request process)
            | none => some (s.spawn request)
      | _, _ => none
  | .print process text =>
      some { s with engines := s.engines.modify process (Engine.print process text) }
  | .data process size =>
      match s.engines[process]? with
      | none => none
      | some e =>
          if 0 < size ∧ size ≤ e.pipe.length then
            some (onData js (s.drain process size) (e.pipe.take size))
          else none
  | .exit process => some (s.onExit process)
  | .error process => some (s.onError process)
  | .timeout => s.running.map fun _ => { s.release with running := none }
  | .dispose => some { s.release with disposed := true }

/-- A new adapter. -/
structure Initial (s : Adapter Num) : Prop where
  child : s.child = none
  lineHandler : s.lineHandler = none
  running : s.running = none
  resolved : s.resolved = []

end Adapter

def adapter {Num : Type} (js : JsNumber Num) : System (Adapter Num) (AdapterLabel Num) :=
  ⟨Adapter.Initial, Adapter.step js⟩

/-- The character was printed by this process, for this request. -/
def Printed.IsOf (process request : Nat) (printed : Printed) : Prop :=
  printed.process = process ∧ printed.request = some request

section Claims

variable {Num : Type} (js : JsNumber Num)

/-- A best move and a score taken from these lines. -/
structure Answer.Quotes (answer : Answer Num) : Prop where
  best : parseBestMove (lineText answer.bestLine) = some answer.analysis.bestMoveUci
  score : ∃ info : Option (ParsedInfoLine Num),
    answer.infoLine.bind (fun line => parseInfoLine js (lineText line)) = info ∧
      info.isSome = answer.infoLine.isSome ∧ answer.analysis.evalCp = evalOf .cp info ∧
        answer.analysis.mate = evalOf .mate info

/-- Score and best move come from lines that the current process printed for the call's own
position. -/
def Resolved.Own (resolved : Resolved Num) : Prop :=
  resolved.answer.Quotes js ∧ ∃ process, resolved.process = some process ∧
    ∀ line ∈ resolved.answer.bestLine :: resolved.answer.infoLine.toList, ∀ printed ∈ line,
      printed.IsOf process resolved.answer.request.id

/-- What is assumed of an engine: by the UCI protocol it is silent once it is ready, and after
each `bestmove`, until the next position. -/
def KeepsToUci (s : Adapter Num) : AdapterLabel Num → Prop
  | .print process text => ∀ e ∈ s.engines[process]?, e.Speaks process text
  | _ => True

/-- While there is a current process, only its output arrives. -/
def FromChild (s : Adapter Num) : AdapterLabel Num → Prop
  | .data process _ => ∀ current ∈ s.child, current = process
  | _ => True

instance decidableFromChild (s : Adapter Num) (label : AdapterLabel Num) :
    Decidable (FromChild s label) := by
  unfold FromChild
  split <;> infer_instance

instance Engine.decidableSpeaks (process : Nat) (text : Text) :
    (e : Engine Num) → Decidable (e.Speaks process text) :=
  match text with
  | [] => fun _ => inferInstanceAs (Decidable True)
  | c :: text => fun e =>
      have := Engine.decidableSpeaks process text (e.write process c)
      decidable_of_iff (e.mode.isIdle = false ∧ (e.write process c).Speaks process text)
        (and_congr_left' e.mode.isIdle_false)

instance decidableKeepsToUci (s : Adapter Num) (label : AdapterLabel Num) :
    Decidable (KeepsToUci s label) := by
  unfold KeepsToUci
  split <;> infer_instance

end Claims

end Farzin.Uci
