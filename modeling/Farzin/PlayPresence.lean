import Farzin.Interleaving

set_option autoImplicit false

/- The sockets of one player in one game, on one instance (`play/play.gateway.ts`, with the marks
of `play/clock.store.ts`). The handlers of `game:join` and of a disconnect are cut at their
awaits; a timer, the sweeper and the end of the game act at once. -/
namespace Farzin.Play

open Transition Interleaving

inductive TimeCategoryValue where
  | bullet
  | blitz
  | rapid
  | classical
  deriving DecidableEq, Repr

def DISCONNECT_GRACE_MS : TimeCategoryValue → Nat
  | .bullet => 10000
  | .blitz => 15000
  | .rapid => 30000
  | .classical => 120000

def graceMsFor (category : TimeCategoryValue) (overrideMs : Option Nat) : Nat :=
  overrideMs.getD (DISCONNECT_GRACE_MS category)

def GRACE_SWEEP_SLACK_MS : Nat := 5000

/-- The entry of the timer map. One that has fired stays until it is cleared. -/
inductive GraceTimer where
  | absent
  | pending (deadline : Nat)
  | fired
  deriving DecidableEq, Repr

/-- `sockets` are the player's sockets that the gateway has registered for the game; the two maps
of the gateway change together and are one list here. `gone` holds the time of leaving. -/
structure Presence where
  now : Nat
  active : Bool
  connected : List Nat
  sockets : List Nat
  present : Bool
  gone : Option Nat
  grace : GraceTimer
  deriving DecidableEq, Repr

/-- A handler, by the await it stands at. -/
inductive SocketHandler where
  /-- `game:join`, before it has seen the game. -/
  | joining (socket : Nat)
  | registering (socket : Nat)
  | settingPresence
  | clearingGone
  | clearingGrace
  /-- `handleDisconnect` of a socket. -/
  | leaving (socket : Nat)
  | checkingGame
  | clearingPresence
  | markingGone
  | schedulingGrace
  deriving DecidableEq, Repr

inductive PresenceEvent where
  | connect (socket : Nat)
  | passed (ms : Nat)
  /-- The grace timer calls `onGraceExpired`. -/
  | graceExpired
  | sweepAbandonedGames
  /-- The game ends over the board, or by a claim. -/
  | announceEnd
  deriving DecidableEq, Repr

namespace Presence

def addSocket (s : Presence) (socket : Nat) : Presence :=
  { s with sockets := if socket ∈ s.sockets then s.sockets else s.sockets ++ [socket] }

/-- `clear` of the clock store. -/
def clearMarks (s : Presence) : Presence := { s with present := false, gone := none }

/-- The end of a game whose handler tells the gateway. -/
def announceEnd (s : Presence) : Presence :=
  { s.clearMarks with active := false, sockets := [], grace := .absent }

/-- The end of a game that the sweeper finds; the gateway keeps its sockets then. -/
def notifyGameSwept (s : Presence) : Presence :=
  { s.clearMarks with active := false, grace := .absent }

def onGraceExpired (s : Presence) : Presence :=
  if s.sockets ≠ [] then { s with grace := .fired }
  else if s.active then s.announceEnd
  else { s with grace := .fired }

def sweepAbandonedGames (graceMs : Nat) (s : Presence) : Presence :=
  match s.gone with
  | none => s
  | some atMs =>
      if ¬ s.active then { s with gone := none }
      else if s.now - atMs < graceMs + GRACE_SWEEP_SLACK_MS then s
      else if s.present then { s with gone := none }
      else s.notifyGameSwept

end Presence

def handleSocket (graceMs : Nat) (s : Presence) : SocketHandler → Presence × Option SocketHandler
  | .joining socket => (s, if s.active then some (.registering socket) else none)
  | .registering socket => (s.addSocket socket, some .settingPresence)
  | .settingPresence => ({ s with present := true }, some .clearingGone)
  | .clearingGone => ({ s with gone := none }, some .clearingGrace)
  | .clearingGrace => ({ s with grace := .absent }, none)
  | .leaving socket =>
      let left := { s with connected := s.connected.erase socket }
      if socket ∉ s.sockets then (left, none)
      else
        let sockets := s.sockets.filter (· ≠ socket)
        -- Another tab of the player may still be there.
        ({ left with sockets := sockets }, if sockets ≠ [] then none else some .checkingGame)
  | .checkingGame => (s, if s.active then some .clearingPresence else none)
  | .clearingPresence => ({ s with present := false }, some .markingGone)
  | .markingGone => ({ s with gone := some s.now }, some .schedulingGrace)
  | .schedulingGrace => ({ s with grace := .pending (s.now + graceMs) }, none)

def presenceEvent (graceMs : Nat) (s : Presence) : PresenceEvent → Option Presence
  | .connect socket =>
      if socket ∈ s.connected then none else some { s with connected := s.connected ++ [socket] }
  | .passed ms => some { s with now := s.now + ms }
  | .graceExpired =>
      match s.grace with
      | .pending deadline => if deadline ≤ s.now then some s.onGraceExpired else none
      | _ => none
  | .sweepAbandonedGames => some (s.sweepAbandonedGames graceMs)
  | .announceEnd => some s.announceEnd

/-- An active game that the player has not entered yet. -/
structure Presence.Initial (s : Presence) : Prop where
  sockets : s.sockets = []

def playerSockets (category : TimeCategoryValue) (overrideMs : Option Nat) :
    Program Presence SocketHandler PresenceEvent where
  initial := Presence.Initial
  arrives s handler :=
    match handler with
    | .joining socket => socket ∈ s.connected
    | .leaving socket => socket ∈ s.connected
    | _ => false
  advance := handleSocket (graceMsFor category overrideMs)
  event := presenceEvent (graceMsFor category overrideMs)

/-- What tells the abandonment path that a player has left. -/
inductive AbsenceSign where
  | noPresence
  | goneMark
  | graceTimer
  deriving DecidableEq, Repr

def Presence.Lacks (s : Presence) : AbsenceSign → Prop
  | .noPresence => s.present = true
  | .goneMark => s.gone = none
  | .graceTimer => ∀ deadline, s.grace ≠ .pending deadline

/-- The sign that the next step of a handler sets. -/
def SocketHandler.sets : SocketHandler → Option AbsenceSign
  | .clearingPresence => some .noPresence
  | .markingGone => some .goneMark
  | .schedulingGrace => some .graceTimer
  | _ => none

/-- A registration that still has to take a sign away. -/
def SocketHandler.willClear : SocketHandler → AbsenceSign → Bool
  | .settingPresence, _ => true
  | .clearingGone, .goneMark => true
  | .clearingGone, .graceTimer => true
  | .clearingGrace, .graceTimer => true
  | _, _ => false

def WillClear (handlers : List SocketHandler) (sign : AbsenceSign) : Prop :=
  ∃ handler ∈ handlers, handler.willClear sign = true

instance decidableWillClear (handlers : List SocketHandler) (sign : AbsenceSign) :
    Decidable (WillClear handlers sign) :=
  inferInstanceAs (Decidable (∃ handler ∈ handlers, handler.willClear sign = true))

/-- A disconnect handler sets a sign only while the player has no registered socket, or while a
registration in flight has yet to take that sign away; and no registration is cut short. -/
def InTurn (pool : Pool Presence SocketHandler) : Label SocketHandler PresenceEvent → Prop
  | .advance i => ∀ handler ∈ pool.inFlight[i]?, ∀ sign ∈ handler.sets,
      pool.shared.sockets = [] ∨ WillClear pool.inFlight sign
  | .abandon i => ∀ handler ∈ pool.inFlight[i]?, handler.willClear .graceTimer = false
  | _ => True

instance decidableInTurn (pool : Pool Presence SocketHandler)
    (label : Label SocketHandler PresenceEvent) : Decidable (InTurn pool label) := by
  unfold InTurn
  split <;> infer_instance

/-- While the player has a registered socket, each sign is absent or about to be cleared. -/
def Attended (pool : Pool Presence SocketHandler) : Prop :=
  pool.shared.sockets ≠ [] → ∀ sign, pool.shared.Lacks sign ∨ WillClear pool.inFlight sign

section Handlers

variable {graceMs : Nat} {s : Presence} {handler : SocketHandler} {sign : AbsenceSign}

/-- A sign appears only by the step that sets it. -/
theorem lacks_handled (lacks : s.Lacks sign) (other : handler.sets ≠ some sign) :
    (handleSocket graceMs s handler).1.Lacks sign := by
  cases handler with
  | joining socket => exact lacks
  | registering socket => cases sign <;> exact lacks
  | settingPresence =>
      cases sign with
      | noPresence => rfl
      | goneMark => exact lacks
      | graceTimer => exact lacks
  | clearingGone =>
      cases sign with
      | noPresence => exact lacks
      | goneMark => rfl
      | graceTimer => exact lacks
  | clearingGrace =>
      cases sign with
      | noPresence => exact lacks
      | goneMark => exact lacks
      | graceTimer =>
          intro deadline pending
          cases pending
  | leaving socket =>
      unfold handleSocket
      dsimp only
      split <;> cases sign <;> exact lacks
  | checkingGame => exact lacks
  | clearingPresence =>
      cases sign with
      | noPresence => exact absurd rfl other
      | goneMark => exact lacks
      | graceTimer => exact lacks
  | markingGone =>
      cases sign with
      | noPresence => exact lacks
      | goneMark => exact absurd rfl other
      | graceTimer => exact lacks
  | schedulingGrace =>
      cases sign with
      | noPresence => exact lacks
      | goneMark => exact lacks
      | graceTimer => exact absurd rfl other

/-- A registration that is to clear a sign does so now or still has to. -/
theorem cleared_or_later (graceMs : Nat) (will : handler.willClear sign = true) :
    (handleSocket graceMs s handler).1.Lacks sign ∨
      ∃ rest, (handleSocket graceMs s handler).2 = some rest ∧ rest.willClear sign = true := by
  cases handler with
  | settingPresence =>
      cases sign with
      | noPresence => exact .inl rfl
      | goneMark => exact .inr ⟨_, rfl, rfl⟩
      | graceTimer => exact .inr ⟨_, rfl, rfl⟩
  | clearingGone =>
      cases sign with
      | noPresence => cases will
      | goneMark => exact .inl rfl
      | graceTimer => exact .inr ⟨_, rfl, rfl⟩
  | clearingGrace =>
      cases sign with
      | noPresence => cases will
      | goneMark => cases will
      | graceTimer =>
          refine .inl ?_
          intro deadline pending
          cases pending
  | _ => cases will

/-- A socket is registered by a handler that goes on to clear every sign. -/
theorem registered_before (now : (handleSocket graceMs s handler).1.sockets ≠ []) :
    s.sockets ≠ [] ∨ (handleSocket graceMs s handler).2 = some .settingPresence := by
  cases handler with
  | registering socket => exact .inr rfl
  | leaving socket =>
      refine .inl fun empty => now ?_
      unfold handleSocket
      dsimp only
      rw [empty]
      simp
  | _ => exact .inl now

/-- The grace timer is the last sign that a registration clears. -/
theorem willClear_last (will : handler.willClear sign = true) :
    handler.willClear .graceTimer = true := by
  cases handler <;> first | rfl | cases will

/-- What else happens sets no sign for a player who has a registered socket. -/
theorem lacks_event {event : PresenceEvent} {t : Presence}
    (happened : presenceEvent graceMs s event = some t) (now : t.sockets ≠ []) :
    s.sockets ≠ [] ∧ ∀ sign, s.Lacks sign → t.Lacks sign := by
  cases event with
  | connect socket =>
      rw [presenceEvent] at happened
      split at happened <;> cases happened
      exact ⟨now, fun sign lacks => by cases sign <;> exact lacks⟩
  | passed ms =>
      cases happened
      exact ⟨now, fun sign lacks => by cases sign <;> exact lacks⟩
  | graceExpired =>
      rw [presenceEvent] at happened
      split at happened
      · split at happened
        · cases happened
          unfold Presence.onGraceExpired at now ⊢
          by_cases there : s.sockets ≠ []
          · rw [if_pos there]
            refine ⟨there, fun sign lacks => ?_⟩
            cases sign with
            | noPresence => exact lacks
            | goneMark => exact lacks
            | graceTimer =>
                intro deadline pending
                cases pending
          · rw [if_neg there] at now
            split at now
            · exact absurd rfl now
            · exact absurd now there
        · cases happened
      · cases happened
  | sweepAbandonedGames =>
      cases happened
      unfold Presence.sweepAbandonedGames at now ⊢
      split
      · rename_i unmarked
        simp only [unmarked] at now
        exact ⟨now, fun _ lacks => lacks⟩
      · rename_i atMs marked
        simp only [marked] at now
        by_cases ended : ¬ s.active
        · rw [if_pos ended] at now ⊢
          refine ⟨now, fun sign lacks => ?_⟩
          cases sign with
          | noPresence => exact lacks
          | goneMark => rfl
          | graceTimer => exact lacks
        · rw [if_neg ended] at now ⊢
          by_cases early : s.now - atMs < graceMs + GRACE_SWEEP_SLACK_MS
          · rw [if_pos early] at now ⊢
            exact ⟨now, fun _ lacks => lacks⟩
          · rw [if_neg early] at now ⊢
            by_cases here : s.present = true
            · rw [if_pos here] at now ⊢
              refine ⟨now, fun sign lacks => ?_⟩
              cases sign with
              | noPresence => exact lacks
              | goneMark => rfl
              | graceTimer => exact lacks
            · rw [if_neg here] at now ⊢
              refine ⟨now, fun sign lacks => ?_⟩
              cases sign with
              | noPresence => exact absurd lacks here
              | goneMark => rfl
              | graceTimer =>
                  intro deadline pending
                  cases pending
  | announceEnd =>
      cases happened
      exact absurd rfl now

end Handlers

section Runs

variable {category : TimeCategoryValue} {overrideMs : Option Nat}
  {pool after : Pool Presence SocketHandler}

theorem WillClear.more {handlers more : List SocketHandler} {sign : AbsenceSign}
    (will : WillClear handlers sign) (kept : ∀ handler ∈ handlers, handler ∈ more) :
    WillClear more sign := by
  obtain ⟨handler, listed, clears⟩ := will
  exact ⟨handler, kept handler listed, clears⟩

theorem advance_attended {i : Nat} (attended : Attended pool) (inTurn : InTurn pool (.advance i))
    (taken : (playerSockets category overrideMs).step pool (.advance i) = some after) :
    Attended after := by
  obtain ⟨handler, here, rfl⟩ := advance_step taken
  intro now sign
  rcases registered_before now with before | registers
  · by_cases will : WillClear pool.inFlight sign
    · obtain ⟨other, listed, clears⟩ := will
      rcases mem_or_erased here listed with rfl | stays
      · have step := cleared_or_later (s := pool.shared) (graceMsFor category overrideMs) clears
        rcases step with cleared | ⟨rest, goes, later⟩
        · exact .inl cleared
        · refine .inr ⟨rest, List.mem_append_right _ ?_, later⟩
          exact Option.mem_toList.mpr goes
      · exact .inr ⟨other, List.mem_append_left _ stays, clears⟩
    · have lacks : pool.shared.Lacks sign := (attended before sign).resolve_right will
      refine .inl (lacks_handled lacks fun sets => ?_)
      rcases inTurn handler here sign sets with away | waits
      · exact before away
      · exact will waits
  · refine .inr ⟨.settingPresence, List.mem_append_right _ ?_, rfl⟩
    exact Option.mem_toList.mpr registers

theorem step_attended (label : Label SocketHandler PresenceEvent) (attended : Attended pool)
    (inTurn : InTurn pool label)
    (taken : (playerSockets category overrideMs).step pool label = some after) :
    Attended after := by
  cases label with
  | arrive handler =>
      rw [Program.step] at taken
      split at taken
      · cases taken
        intro now sign
        rcases attended now sign with lacks | will
        · exact .inl lacks
        · exact .inr (will.more fun _ listed => List.mem_append_left _ listed)
      · cases taken
  | advance i => exact advance_attended attended inTurn taken
  | abandon i =>
      rw [Program.step, Option.map_eq_some_iff] at taken
      obtain ⟨handler, here, rfl⟩ := taken
      intro now sign
      rcases attended now sign with lacks | ⟨other, listed, clears⟩
      · exact .inl lacks
      · rcases mem_or_erased here listed with rfl | stays
        · have kept := inTurn other here
          rw [willClear_last clears] at kept
          cases kept
        · exact .inr ⟨other, stays, clears⟩
  | event event =>
      rw [Program.step, Option.map_eq_some_iff] at taken
      obtain ⟨shared, happened, rfl⟩ := taken
      intro now sign
      obtain ⟨before, keeps⟩ := lacks_event happened now
      rcases attended before sign with lacks | will
      · exact .inl (keeps sign lacks)
      · exact .inr will

/-- The paths by which an absent player loses the game. -/
def PresenceEvent.abandons : PresenceEvent → Bool
  | .graceExpired => true
  | .sweepAbandonedGames => true
  | _ => false

/-- Without a gone mark and a grace timer the abandonment path does not end the game. -/
theorem not_abandoned {graceMs : Nat} {s t : Presence} (unmarked : s.gone = none)
    (idle : ∀ deadline, s.grace ≠ .pending deadline) {event : PresenceEvent}
    (abandons : event.abandons = true) (happened : presenceEvent graceMs s event = some t) :
    t.active = s.active := by
  cases event with
  | graceExpired =>
      rw [presenceEvent] at happened
      split at happened
      · rename_i deadline pending
        exact absurd pending (idle deadline)
      · cases happened
  | sweepAbandonedGames =>
      rw [presenceEvent, Presence.sweepAbandonedGames, unmarked] at happened
      cases happened
      rfl
  | _ => cases abandons

/-- Once every handler has finished, a player with a registered live socket has the presence
mark, no gone mark and no grace timer, so that the abandonment path cannot end the game, in every
state that is reached while no disconnect handler writes out of turn. -/
theorem connected_never_absent
    (reached : (playerSockets category overrideMs).system.ReachableWhile InTurn pool)
    (finished : pool.inFlight = [])
    (registered : ∃ socket ∈ pool.shared.sockets, socket ∈ pool.shared.connected) :
    pool.shared.present = true ∧ pool.shared.gone = none ∧
      (∀ deadline, pool.shared.grace ≠ .pending deadline) ∧
      ∀ event t, event.abandons = true →
        (playerSockets category overrideMs).event pool.shared event = some t →
          t.active = pool.shared.active := by
  have attended : Attended pool := by
    apply reached.invariant Attended
    · intro start initial now
      exact absurd initial.1.sockets now
    · intro s label t attended inTurn taken
      exact step_attended label attended inTurn taken
  obtain ⟨socket, listed, _⟩ := registered
  have lacks : ∀ sign, pool.shared.Lacks sign := by
    intro sign
    rcases attended (List.ne_nil_of_mem listed) sign with lacks | ⟨handler, inside, _⟩
    · exact lacks
    · rw [finished] at inside
      cases inside
  have unmarked : pool.shared.gone = none := lacks .goneMark
  have idle : ∀ deadline, pool.shared.grace ≠ .pending deadline := lacks .graceTimer
  exact ⟨lacks .noPresence, unmarked, idle, fun event t abandons happened =>
    not_abandoned unmarked idle abandons happened⟩

end Runs

/-- A game nobody has entered. -/
def emptyTable : Pool Presence SocketHandler := ⟨⟨0, true, [], [], false, none, .absent⟩, []⟩

theorem emptyTable_initial :
    (playerSockets .blitz none).system.initial emptyTable := ⟨⟨rfl⟩, rfl⟩

/-- A socket connects and `game:join` runs to its end, the other handlers standing before it. -/
def enters (socket others : Nat) : List (Label SocketHandler PresenceEvent) :=
  [.event (.connect socket), .arrive (.joining socket), .advance others, .advance others,
    .advance others, .advance others, .advance others]

/-- The first socket leaves for good before the second one comes. -/
def slowReconnect : List (Label SocketHandler PresenceEvent) :=
  enters 1 0 ++ [.arrive (.leaving 1), .advance 0, .advance 0, .advance 0, .advance 0,
    .advance 0] ++ enters 2 0

theorem slowReconnect_present :
    ∃ pool, (playerSockets .blitz none).system.run emptyTable slowReconnect = some pool ∧
      pool.inFlight = [] ∧ pool.shared.present = true ∧ pool.shared.gone = none := by
  have ran : ((playerSockets .blitz none).system.run emptyTable slowReconnect).map
      (fun pool => (pool.inFlight, pool.shared.sockets, pool.shared.connected)) =
      some ([], [2], [2]) := by
    decide +kernel
  obtain ⟨pool, ended, facts⟩ := Option.map_eq_some_iff.mp ran
  simp only [Prod.mk.injEq] at facts
  obtain ⟨finished, registered, live⟩ := facts
  have reached : (playerSockets .blitz none).system.ReachableWhile InTurn pool :=
    ⟨emptyTable, emptyTable_initial,
      System.run_steps _ _ slowReconnect ended (by decide +kernel)⟩
  have marks := connected_never_absent reached finished
    ⟨2, by rw [registered]; decide, by rw [live]; decide⟩
  exact ⟨pool, ended, finished, marks.1, marks.2.1⟩

/-- The second socket comes while the disconnect of the first one is looking up the game. -/
def quickReconnect : List (Label SocketHandler PresenceEvent) :=
  enters 1 0 ++ [.arrive (.leaving 1), .advance 0] ++ enters 2 1 ++
    [.advance 0, .advance 0, .advance 0, .advance 0]

/-- The player is connected, yet every sign says otherwise, and the sweeper ends the game. -/
theorem connected_player_abandoned :
    ∃ pool after, (playerSockets .blitz none).system.Reachable pool ∧ pool.inFlight = [] ∧
      (∃ socket ∈ pool.shared.sockets, socket ∈ pool.shared.connected) ∧
      pool.shared.present = false ∧ pool.shared.gone = some 0 ∧
      pool.shared.grace = .pending 15000 ∧ pool.shared.active = true ∧
      (playerSockets .blitz none).system.run pool
        [.event (.passed 20000), .event .sweepAbandonedGames] = some after ∧
      after.shared.active = false ∧ after.shared.connected = [2] := by
  have ran : (playerSockets .blitz none).system.run emptyTable quickReconnect =
      some ⟨⟨0, true, [2], [2], false, some 0, .pending 15000⟩, []⟩ := by
    decide +kernel
  exact ⟨_, ⟨⟨20000, false, [2], [2], false, none, .absent⟩, []⟩,
    System.run_reachable _ _ _ emptyTable_initial ran, rfl, ⟨2, by decide, by decide⟩, rfl, rfl,
    rfl, rfl, by decide +kernel, rfl, rfl⟩

end Farzin.Play
