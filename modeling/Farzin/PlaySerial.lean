import Farzin.PlayClockAgreement

set_option autoImplicit false

/- Requests served one at a time: what a request comes to when no other one is in flight. -/
namespace Farzin.Play

/-- The most awaits that are left of a request. -/
def Progress.awaits : Progress → Nat
  | .begun _ _ => 7
  | .loaded _ _ _ => 6
  | .noEntry _ _ _ => 5
  | .counting _ => 4
  | .appending _ _ => 3
  | .timingOut _ => 2
  | .writing _ => 2
  | .clearing => 1

section Service

variable (chess : ChessJs) (players : Nat → Option Nat)

/-- A request goes on for a number of awaits, alone. -/
def proceed : Nat → World → Progress → World
  | 0, w, _ => w
  | awaits + 1, w, p =>
      match (advance chess players w p).2 with
      | none => (advance chess players w p).1
      | some rest => proceed awaits (advance chess players w p).1 rest

def finishAlone (w : World) (p : Progress) : World := proceed chess players p.awaits w p

/-- The game after a request that met no other one. -/
def serve (w : World) (request : Request) (now : Int) : World :=
  finishAlone chess players w (.begun request now)

/-- The clock that a request of this moment goes by. -/
def clockReading (w : World) (now : Int) : ClockReading :=
  match w.clock with
  | none => ⟨reconstructClock w.db.findGame w.db.listMoves now, none, none⟩
  | some stored => ⟨stored.entry.state, some stored.entry.version, some stored.ply⟩

variable {chess players} {w : World}

theorem checkRequest_awaits {request : Request} {now : Int} {game : LoadedGame} {next : Progress}
    (checked : checkRequest chess players request now game = some next) : next.awaits ≤ 6 := by
  rcases checkRequest_cases checked with ⟨uci, -, played⟩ | ⟨intent, rfl, -⟩
  · obtain ⟨move, -, rfl | ⟨finish, -, rfl⟩⟩ := playMove_cases played
    · exact Nat.le_of_ble_eq_true rfl
    · exact Nat.le_of_ble_eq_true rfl
  · exact le_rfl

theorem judge_awaits {intent : Intent} {now : Int} {game : LoadedGame} {reading : ClockReading}
    {next : Progress} (judged : judge chess intent now game reading = some next) :
    next.awaits ≤ 4 := by
  rcases judge_cases judged with ⟨loser, final, rfl, -⟩ | ⟨side, uci, result, -, -, -, played⟩
  · exact Nat.le_of_ble_eq_true rfl
  · obtain ⟨move, -, rfl | ⟨finish, -, rfl⟩⟩ := playMove_cases played
    · exact le_rfl
    · exact Nat.le_of_ble_eq_true rfl

/-- Every await brings a request nearer to its end. -/
theorem advance_awaits {p next : Progress} (goesOn : (advance chess players w p).2 = some next) :
    next.awaits < p.awaits := by
  cases p with
  | begun request now => exact Nat.lt_succ_of_le (checkRequest_awaits goesOn)
  | loaded intent now game =>
      change loadClock chess w intent now game = some next at goesOn
      unfold loadClock at goesOn
      cases entry : w.clock with
      | none =>
          rw [entry] at goesOn
          cases goesOn
          exact Nat.lt_succ_self _
      | some stored =>
          rw [entry] at goesOn
          have nearer := judge_awaits goesOn
          exact Nat.lt_of_le_of_lt nearer (Nat.lt_of_sub_eq_succ rfl)
  | noEntry intent now game => exact Nat.lt_succ_of_le (judge_awaits goesOn)
  | counting pending =>
      cases goesOn
      exact Nat.lt_succ_self _
  | appending pending finish =>
      change (appendPending w pending finish).2 = some next at goesOn
      unfold appendPending at goesOn
      split at goesOn
      · cases goesOn
      · cases goesOn
        exact Nat.lt_succ_self _
  | timingOut decision =>
      change (finishByTimeout chess w decision).2 = some next at goesOn
      unfold finishByTimeout at goesOn
      split at goesOn
      · cases goesOn
      · cases goesOn
        exact Nat.lt_succ_self _
  | writing write =>
      change (writeClock w write).2 = some next at goesOn
      rcases (writeClock_db w write).2 with ended | clearing
      · rw [ended] at goesOn
        cases goesOn
      · rw [clearing] at goesOn
        cases goesOn
        exact Nat.lt_succ_self _
  | clearing => cases goesOn

/-- More awaits than a request can need change nothing. -/
theorem proceed_enough (awaits more : Nat) (w : World) (p : Progress) (enough : p.awaits ≤ awaits)
    (le : awaits ≤ more) : proceed chess players more w p = proceed chess players awaits w p := by
  induction awaits generalizing more w p with
  | zero =>
      have some : 0 < p.awaits := by cases p <;> exact Nat.succ_pos _
      omega
  | succ awaits ih =>
      obtain ⟨more, rfl⟩ : ∃ fewer, more = fewer + 1 := ⟨more - 1, by omega⟩
      unfold proceed
      cases goesOn : (advance chess players w p).2 with
      | none => simp only
      | some rest =>
          have nearer := advance_awaits goesOn
          simp only
          exact ih more _ rest (by omega) (by omega)

/-- A request alone goes through one await, and then through the rest. -/
theorem finishAlone_eq (w : World) (p : Progress) :
    finishAlone chess players w p =
      match (advance chess players w p).2 with
      | none => (advance chess players w p).1
      | some rest => finishAlone chess players (advance chess players w p).1 rest := by
  obtain ⟨awaits, left⟩ : ∃ awaits, p.awaits = awaits + 1 := by
    cases p <;> exact ⟨_, rfl⟩
  unfold finishAlone
  rw [left, proceed]
  cases goesOn : (advance chess players w p).2 with
  | none => simp only
  | some rest =>
      have nearer := advance_awaits goesOn
      simp only
      exact proceed_enough rest.awaits awaits _ rest le_rfl (by omega)

/-- The requests in flight are nothing that an await reads or writes. -/
theorem advance_inFlight (w : World) (p : Progress) (inFlight : List Progress) :
    advance chess players { w with inFlight := inFlight } p =
      ({ (advance chess players w p).1 with inFlight := inFlight },
        (advance chess players w p).2) := by
  cases p with
  | begun | loaded | noEntry | counting | clearing => rfl
  | appending pending finish =>
      change appendPending { w with inFlight := inFlight } pending finish = _
      simp only [advance, appendPending]
      split <;> rfl
  | timingOut decision =>
      simp only [advance, finishByTimeout]
      split <;> rfl
  | writing write =>
      simp only [advance, writeClock]
      repeat' split
      all_goals rfl

theorem advance_quiet (quiet : w.inFlight = []) (p : Progress) :
    (advance chess players w p).1.inFlight = [] := by
  have same := @advance_inFlight chess players w p []
  have here : { w with inFlight := [] } = w := by rw [← quiet]
  rw [here] at same
  rw [same]

/-- What is served alone is a run of the interleaved system. -/
theorem finishAlone_run (quiet : w.inFlight = []) (p : Progress) :
    ∃ awaits, (worlds chess players).run { w with inFlight := [p] }
      (List.replicate awaits (.advance 0)) = some (finishAlone chess players w p) ∧
      (finishAlone chess players w p).inFlight = [] := by
  induction left : p.awaits using Nat.strongRecOn generalizing w p with
  | ind left ih =>
      have taken : (worlds chess players).step { w with inFlight := [p] } (.advance 0) =
          some { (advance chess players w p).1 with
            inFlight := (advance chess players w p).2.toList } := by
        change some { (advance chess players { w with inFlight := [p] } p).1 with
          inFlight := [] ++ (advance chess players { w with inFlight := [p] } p).2.toList } = _
        rw [advance_inFlight, List.nil_append]
      have calm := @advance_quiet chess players w quiet p
      rw [finishAlone_eq]
      cases goesOn : (advance chess players w p).2 with
      | none =>
          refine ⟨1, ?_, calm⟩
          rw [goesOn] at taken
          simp only [List.replicate, Transition.System.run, taken, Option.bind_some]
          rw [Option.toList_none, ← calm]
      | some rest =>
          obtain ⟨awaits, ran, done⟩ := ih rest.awaits (left ▸ advance_awaits goesOn) calm rest rfl
          refine ⟨awaits + 1, ?_, done⟩
          rw [List.replicate_succ, Transition.System.run, taken, goesOn]
          exact ran

/-- A served request arrives and goes through its awaits, one after the other. -/
theorem serve_run (quiet : w.inFlight = []) (request : Request) (now : Int) :
    ∃ awaits, (worlds chess players).run w
      (.arrive request now :: List.replicate awaits (.advance 0)) =
        some (serve chess players w request now) := by
  obtain ⟨awaits, ran, -⟩ := @finishAlone_run chess players w quiet (Progress.begun request now)
  refine ⟨awaits, ?_⟩
  have arrived : (worlds chess players).step w (.arrive request now) =
      some { w with inFlight := [.begun request now] } := by
    change some { w with inFlight := w.inFlight ++ [Progress.begun request now] } = _
    rw [quiet, List.nil_append]
  rw [Transition.System.run, arrived]
  exact ran

theorem serve_quiet (quiet : w.inFlight = []) (request : Request) (now : Int) :
    (serve chess players w request now).inFlight = [] := by
  obtain ⟨awaits, -, done⟩ := @finishAlone_run chess players w quiet (Progress.begun request now)
  exact done

/-- With the game loaded, a request alone judges the clock of this moment. -/
theorem finishAlone_loaded (w : World) (intent : Intent) (now : Int) :
    finishAlone chess players w (.loaded intent now w.db.findGame) =
      match judge chess intent now w.db.findGame (clockReading w now) with
      | none => w
      | some rest => finishAlone chess players w rest := by
  rw [finishAlone_eq]
  simp only [advance, loadClock, clockReading]
  cases entry : w.clock with
  | none => exact finishAlone_eq w (.noEntry intent now w.db.findGame)
  | some stored => rfl

end Service

end Farzin.Play
