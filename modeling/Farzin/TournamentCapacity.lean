import Farzin.TournamentRegistrations

set_option autoImplicit false

/- What every write leaves consistent in the tables of a tournament, and whether its sections stay
within their maximum number of players. -/
namespace Farzin.Registrations

open Interleaving Transition

/-- Ids are unique and used up in their order, and rows refer to rows that are there. -/
structure Db.Consistent (s : Db) : Prop where
  tournamentKey : Table.Unique TournamentRow.id s.tournaments
  sectionKey : Table.Unique SectionRow.id s.sections
  registrationKey : Table.Unique RegistrationRow.id s.registrations
  tournamentIds : ∀ t ∈ s.tournaments, t.id < s.nextId
  sectionIds : ∀ inSection ∈ s.sections, inSection.id < s.nextId
  registrationIds : ∀ r ∈ s.registrations, r.id < s.nextId
  ofTournament : ∀ inSection ∈ s.sections, (s.findById inSection.tournamentId).isSome
  ofSection : ∀ r ∈ s.registrations, (s.findSectionById r.sectionId).isSome

/-- A row to be inserted has the next id and refers to a row that is there. -/
def Write.Sound (s : Db) : Write → Prop
  | .tournament row => row.id = s.nextId
  | .tournamentSection row => row.id = s.nextId ∧ (s.findById row.tournamentId).isSome
  | .registration row =>
      row.id = s.nextId ∧ (s.findSectionById row.sectionId).isSome ∧ row.isWithdrawn = false
  | _ => True

section Writes

variable {s : Db} {ports : Ports}

theorem registerStep_sound {who : Registrant} {stage : RegisterStage} {write : Write}
    {result : Except TournamentError RegistrationRow}
    (done : registerStep s ports who stage = .done (some write) result) : write.Sound s := by
  cases stage with
  | create input counted =>
      unfold registerStep at done
      dsimp only at done
      split at done
      · cases done
      · split at done
        · cases done
        · rename_i present
          cases done
          rw [Option.isNone_iff_eq_none] at present
          exact ⟨rfl, Option.isSome_iff_ne_none.mpr present, rfl⟩
  | findSection | findTournament | findPlayer | findRegistration | countActive =>
      unfold registerStep at done
      dsimp only at done
      repeat' split at done
      all_goals cases done
  | readRating => cases done

/-- All that `register` ever writes is a registration, at its last await. -/
theorem registerStep_write {who : Registrant} {stage : RegisterStage} {write : Write}
    {result : Except TournamentError RegistrationRow}
    (done : registerStep s ports who stage = .done (some write) result) :
    ∃ input counted row, stage = .create input counted ∧ write = .registration row ∧
      row.sectionId = input.sectionId ∧ row.isConfirmed = input.isConfirmed := by
  cases stage with
  | create input counted =>
      unfold registerStep at done
      dsimp only at done
      repeat' split at done
      all_goals cases done
      exact ⟨input, counted, _, rfl, rfl, rfl, rfl⟩
  | findSection | findTournament | findPlayer | findRegistration | countActive =>
      unfold registerStep at done
      dsimp only at done
      repeat' split at done
      all_goals cases done
  | readRating => cases done

/-- Only the last await of `register` inserts a registration. -/
theorem act_registration {call : Call} {row : RegistrationRow}
    (writes : (act s ports call).1 = some (.registration row)) :
    ∃ who input counted bulk, call = .register who (.create input counted) bulk ∧
      row.sectionId = input.sectionId ∧ row.isConfirmed = input.isConfirmed := by
  cases call with
  | register who stage bulk =>
      simp only [act] at writes
      split at writes
      · cases writes
      · rename_i made result done
        dsimp only at writes
        subst writes
        obtain ⟨input, counted, other, rfl, same, place, confirmed⟩ := registerStep_write done
        cases same
        exact ⟨who, input, counted, bulk, rfl, place, confirmed⟩
  | registerMany => cases writes
  | create | findSlug | createTournament | update | updateTournament | changeStatus | storeStatus
  | createSection | listSections | insertSection | withdraw | findSectionOf | findTournamentOf
  | findOwnPlayer | withdrawRegistration =>
      simp only [act, create, createTournament, update, updateTournament, changeStatus,
        storeStatus, createSection, insertSection, findOwnPlayer] at writes
      repeat' split at writes
      all_goals cases writes

theorem act_sound {call : Call} {write : Write} (writes : (act s ports call).1 = some write) :
    write.Sound s := by
  cases call with
  | createTournament input context =>
      change (createTournament s input context).1 = some write at writes
      unfold createTournament at writes
      dsimp only at writes
      repeat' split at writes
      all_goals cases writes
      rfl
  | insertSection tournamentId input =>
      change (insertSection s tournamentId input).1 = some write at writes
      unfold insertSection at writes
      dsimp only at writes
      split at writes
      · cases writes
      · rename_i present
        split at writes
        · cases writes
        · cases writes
          rw [Option.isNone_iff_eq_none] at present
          exact ⟨rfl, Option.isSome_iff_ne_none.mpr present⟩
  | register who stage bulk =>
      simp only [act] at writes
      split at writes
      · cases writes
      · rename_i made result done
        cases made with
        | none => cases writes
        | some write =>
            cases writes
            exact registerStep_sound done
  | updateTournament id input =>
      change (updateTournament s id input).1 = some write at writes
      unfold updateTournament at writes
      repeat' split at writes
      all_goals cases writes
      trivial
  | storeStatus id status =>
      change (storeStatus s id status).1 = some write at writes
      unfold storeStatus at writes
      split at writes
      all_goals cases writes
      trivial
  | withdrawRegistration id reason =>
      simp only [act] at writes
      split at writes
      all_goals cases writes
      trivial
  | registerMany => cases writes
  | create | findSlug | update | changeStatus | createSection | listSections | withdraw
  | findSectionOf | findTournamentOf | findOwnPlayer =>
      -- These only read.
      simp only [act, create, update, changeStatus, createSection, findOwnPlayer] at writes
      repeat' split at writes
      all_goals cases writes

theorem Db.Consistent.rewriteRegistrations (consistent : s.Consistent)
    (condition : RegistrationRow → Bool) (change : RegistrationRow → RegistrationRow)
    (id : ∀ r, (change r).id = r.id) (place : ∀ r, (change r).sectionId = r.sectionId) :
    { s with registrations := Table.updateWhere condition change s.registrations }.Consistent where
  tournamentKey := consistent.tournamentKey
  sectionKey := consistent.sectionKey
  registrationKey := consistent.registrationKey.update condition change id
  tournamentIds := consistent.tournamentIds
  sectionIds := consistent.sectionIds
  registrationIds r inside := by
    obtain ⟨old, here, rfl⟩ := Table.mem_updateWhere.mp inside
    have before := consistent.registrationIds old here
    split
    · rw [id]
      exact before
    · exact before
  ofTournament := consistent.ofTournament
  ofSection r inside := by
    obtain ⟨old, here, rfl⟩ := Table.mem_updateWhere.mp inside
    have before := consistent.ofSection old here
    split
    · rw [place]
      exact before
    · exact before

theorem Db.Consistent.rewriteTournaments (consistent : s.Consistent)
    (condition : TournamentRow → Bool) (change : TournamentRow → TournamentRow)
    (id : ∀ t, (change t).id = t.id) :
    { s with tournaments := Table.updateWhere condition change s.tournaments }.Consistent where
  tournamentKey := consistent.tournamentKey.update condition change id
  sectionKey := consistent.sectionKey
  registrationKey := consistent.registrationKey
  tournamentIds t inside := by
    obtain ⟨old, here, rfl⟩ := Table.mem_updateWhere.mp inside
    have before := consistent.tournamentIds old here
    split
    · rw [id]
      exact before
    · exact before
  sectionIds := consistent.sectionIds
  registrationIds := consistent.registrationIds
  ofTournament inSection inside := by
    unfold Db.findById
    rw [Table.findUnique_updateWhere condition change s.tournaments id, Option.isSome_map]
    exact consistent.ofTournament inSection inside
  ofSection := consistent.ofSection

theorem consistent_apply (consistent : s.Consistent) {write : Write} (sound : write.Sound s) :
    (s.apply write).Consistent := by
  cases write with
  | tournament row =>
      refine ⟨consistent.tournamentKey.added consistent.tournamentIds sound,
        consistent.sectionKey, consistent.registrationKey,
        Table.below_added consistent.tournamentIds sound, ?_, ?_, ?_, consistent.ofSection⟩
      · exact fun inSection inside => Nat.lt_succ_of_lt (consistent.sectionIds inSection inside)
      · exact fun r inside => Nat.lt_succ_of_lt (consistent.registrationIds r inside)
      · intro inSection inside
        obtain ⟨t, found⟩ := Option.isSome_iff_exists.mp (consistent.ofTournament inSection inside)
        exact Option.isSome_iff_exists.mpr
          ⟨t, Table.findUnique_added consistent.tournamentIds sound found⟩
  | tournamentSection row =>
      obtain ⟨new, parent⟩ := sound
      refine ⟨consistent.tournamentKey, consistent.sectionKey.added consistent.sectionIds new,
        consistent.registrationKey, ?_, Table.below_added consistent.sectionIds new, ?_, ?_, ?_⟩
      · exact fun t inside => Nat.lt_succ_of_lt (consistent.tournamentIds t inside)
      · exact fun r inside => Nat.lt_succ_of_lt (consistent.registrationIds r inside)
      · intro inSection inside
        rcases List.mem_append.mp inside with old | added
        · exact consistent.ofTournament inSection old
        · rw [List.mem_singleton.mp added]
          exact parent
      · intro r inside
        obtain ⟨inSection, found⟩ := Option.isSome_iff_exists.mp (consistent.ofSection r inside)
        exact Option.isSome_iff_exists.mpr
          ⟨inSection, Table.findUnique_added consistent.sectionIds new found⟩
  | registration row =>
      obtain ⟨new, place, -⟩ := sound
      refine ⟨consistent.tournamentKey, consistent.sectionKey,
        consistent.registrationKey.added consistent.registrationIds new, ?_, ?_,
        Table.below_added consistent.registrationIds new, consistent.ofTournament, ?_⟩
      · exact fun t inside => Nat.lt_succ_of_lt (consistent.tournamentIds t inside)
      · exact fun inSection inside => Nat.lt_succ_of_lt (consistent.sectionIds inSection inside)
      · intro r inside
        rcases List.mem_append.mp inside with old | added
        · exact consistent.ofSection r old
        · rw [List.mem_singleton.mp added]
          exact place
  | update id input => exact consistent.rewriteTournaments _ _ fun _ => rfl
  | status id status => exact consistent.rewriteTournaments _ _ fun _ => rfl
  | withdrawal id reason => exact consistent.rewriteRegistrations _ _ (fun _ => rfl) fun _ => rfl
  | confirmation id => exact consistent.rewriteRegistrations _ _ (fun _ => rfl) fun _ => rfl
  | invoice id invoiceId => exact consistent.rewriteRegistrations _ _ (fun _ => rfl) fun _ => rfl

theorem office_outline :
    Outline office (fun _ _ => True) (fun s => s.db.Consistent) fun _ _ => True where
  starts s initial := by
    obtain ⟨tournaments, sections, registrations⟩ := initial
    constructor <;> simp [tournaments, sections, registrations, Table.Unique]
  enters _ _ _ _ := trivial
  acts s call consistent _ _ := by
    change (s.write (act s.db s.ports call).1).db.Consistent
    cases writes : (act s.db s.ports call).1 with
    | none => exact consistent
    | some write => exact consistent_apply consistent (act_sound writes)
  continues _ _ _ _ _ _ _ := trivial
  stable _ _ _ _ _ _ _ := trivial
  events s event t consistent happened := by
    refine ⟨?_, fun _ _ => trivial⟩
    cases event with
    | ports ports =>
        cases happened
        exact consistent
    | confirm id =>
        cases happened
        exact @consistent_apply _ consistent (.confirmation id) trivial
    | invoice id invoiceId =>
        cases happened
        exact @consistent_apply _ consistent (.invoice id invoiceId) trivial

end Writes

section Requests

variable {s : Db} {ports : Ports}

/-- How `register` goes on from one await to the next. -/
inductive RegisterNext (s : Db) (who : Registrant) : RegisterStage → RegisterStage → Prop where
  | sectionFound (inSection : SectionRow)
      (found : s.findSectionById who.sectionId = some inSection) :
      RegisterNext s who .findSection (.findTournament inSection)
  | tournamentFound (inSection : SectionRow) (t : TournamentRow)
      (found : s.findById inSection.tournamentId = some t) :
      RegisterNext s who (.findTournament inSection) (.findPlayer inSection t)
  | playerFound (inSection : SectionRow) (t : TournamentRow) (player : PlayerSummary) :
      RegisterNext s who (.findPlayer inSection t) (.findRegistration inSection t player)
  | limited (inSection : SectionRow) (most : Nat) (t : TournamentRow) (player : PlayerSummary)
      (limit : inSection.maxPlayers = some most) :
      RegisterNext s who (.findRegistration inSection t player)
        (.countActive inSection most t player)
  | unlimited (inSection : SectionRow) (t : TournamentRow) (player : PlayerSummary)
      (unbounded : inSection.maxPlayers = none) :
      RegisterNext s who (.findRegistration inSection t player)
        (.readRating inSection t player none)
  | roomLeft (inSection : SectionRow) (most : Nat) (t : TournamentRow) (player : PlayerSummary)
      (room : s.countActiveRegistrations who.sectionId < most) :
      RegisterNext s who (.countActive inSection most t player)
        (.readRating inSection t player (some (s.countActiveRegistrations who.sectionId)))
  | ratingRead (inSection : SectionRow) (t : TournamentRow) (player : PlayerSummary)
      (counted : Option Nat) (input : CreateRegistration) (place : input.sectionId = who.sectionId)
      (confirmed : input.isConfirmed = t.entryFeeAmount.isNone) :
      RegisterNext s who (.readRating inSection t player counted) (.create input counted)

theorem registerStep_next {who : Registrant} {stage next : RegisterStage}
    (goesOn : registerStep s ports who stage = .next next) : RegisterNext s who stage next := by
  cases stage with
  | findSection =>
      unfold registerStep at goesOn
      dsimp only at goesOn
      split at goesOn
      · cases goesOn
      · rename_i inSection found
        cases goesOn
        exact .sectionFound inSection found
  | findTournament inSection =>
      unfold registerStep at goesOn
      dsimp only at goesOn
      split at goesOn
      · cases goesOn
      · rename_i t found
        repeat' split at goesOn
        all_goals cases goesOn
        exact .tournamentFound inSection t found
  | findPlayer inSection t =>
      unfold registerStep at goesOn
      dsimp only at goesOn
      repeat' split at goesOn
      all_goals cases goesOn
      all_goals exact .playerFound inSection t _
  | findRegistration inSection t player =>
      unfold registerStep at goesOn
      dsimp only at goesOn
      split at goesOn
      · cases goesOn
      · split at goesOn
        · rename_i most limit
          cases goesOn
          exact .limited inSection most t player limit
        · rename_i unbounded
          cases goesOn
          exact .unlimited inSection t player unbounded
  | countActive inSection most t player =>
      unfold registerStep at goesOn
      dsimp only at goesOn
      split at goesOn
      · cases goesOn
      · rename_i room
        cases goesOn
        exact .roomLeft inSection most t player (Nat.lt_of_not_le room)
  | readRating inSection t player counted =>
      cases goesOn
      exact .ratingRead inSection t player counted _ rfl rfl
  | create input counted =>
      unfold registerStep at goesOn
      dsimp only at goesOn
      repeat' split at goesOn
      all_goals cases goesOn

/-- The loop of `registerMany` goes on at the beginning of `register`. -/
theorem nextPlayer_call {who : Registrant} {report : BulkReport} {playerIds : List Nat}
    {call : Call} (goesOn : (nextPlayer who report playerIds).call = some call) :
    ∃ who' bulk, call = .register who' .findSection bulk := by
  cases playerIds with
  | nil => cases goesOn
  | cons playerId rest =>
      cases goesOn
      exact ⟨_, _, rfl⟩

theorem settle_call {who : Registrant} {result : Except TournamentError RegistrationRow}
    {turn : Option Bulk} {call : Call} (goesOn : (settle who result turn).call = some call) :
    ∃ who' bulk, call = .register who' .findSection bulk := by
  cases turn with
  | none => cases goesOn
  | some turn =>
      cases result with
      | ok row => exact nextPlayer_call goesOn
      | error reason =>
          unfold settle at goesOn
          dsimp only at goesOn
          split at goesOn
          · cases goesOn
          · split at goesOn
            · cases goesOn
            · exact nextPlayer_call goesOn

/-- Whatever goes on as a `register` begins it, or has been one. -/
theorem act_register {call : Call} {who : Registrant} {stage : RegisterStage} {bulk : Option Bulk}
    (goesOn : (act s ports call).2.call = some (.register who stage bulk)) :
    stage = .findSection ∨
      ∃ before, call = .register who before bulk ∧ RegisterNext s who before stage := by
  cases call with
  | register other before turn =>
      simp only [act] at goesOn
      split at goesOn
      · rename_i next moved
        cases goesOn
        exact .inr ⟨before, rfl, registerStep_next moved⟩
      · obtain ⟨_, _, same⟩ := settle_call goesOn
        cases same
        exact .inl rfl
  | registerMany other playerIds =>
      obtain ⟨_, _, same⟩ := nextPlayer_call goesOn
      cases same
      exact .inl rfl
  | create | findSlug | createTournament | update | updateTournament | changeStatus | storeStatus
  | createSection | listSections | insertSection | withdraw | findSectionOf | findTournamentOf
  | findOwnPlayer | withdrawRegistration =>
      simp only [act, create, createTournament, update, updateTournament, changeStatus,
        storeStatus, createSection, insertSection, findOwnPlayer] at goesOn
      repeat' split at goesOn
      all_goals cases goesOn

end Requests

section Capacity

variable {s : Db}

/-- No section has more active registrations than players at most. -/
def Db.WithinCapacity (s : Db) : Prop :=
  ∀ inSection ∈ s.sections, ∀ most ∈ inSection.maxPlayers,
    s.countActiveRegistrations inSection.id ≤ most

/-- A registration is inserted where there is still a place. -/
def Write.Fits (s : Db) : Write → Prop
  | .registration row =>
      ∀ inSection ∈ s.findSectionById row.sectionId, ∀ most ∈ inSection.maxPlayers,
        s.countActiveRegistrations row.sectionId < most
  | _ => True

theorem withinCapacity_rewrite (within : s.WithinCapacity) (condition : RegistrationRow → Bool)
    (change : RegistrationRow → RegistrationRow)
    (keeps : ∀ r, (change r).sectionId = r.sectionId ∧
      ((change r).isWithdrawn = false → r.isWithdrawn = false)) :
    { s with
      registrations := Table.updateWhere condition change s.registrations }.WithinCapacity := by
  intro inSection inside most limit
  refine (Table.countP_update_le condition change _ s.registrations fun r counts => ?_).trans
    (within inSection inside most limit)
  obtain ⟨place, active⟩ := keeps r
  simp only [Bool.and_eq_true, decide_eq_true_eq, Bool.not_eq_true'] at counts ⊢
  exact ⟨place.symm.trans counts.1, active counts.2⟩

theorem count_registered (row : RegistrationRow) (active : row.isWithdrawn = false)
    (sectionId : Nat) :
    (s.apply (.registration row)).countActiveRegistrations sectionId =
      s.countActiveRegistrations sectionId + if row.sectionId = sectionId then 1 else 0 := by
  change (s.registrations ++ [row]).countP _ = _
  rw [List.countP_append]
  unfold Db.countActiveRegistrations
  simp [List.countP_singleton, active]

theorem withinCapacity_registered (consistent : s.Consistent) (within : s.WithinCapacity)
    (row : RegistrationRow) (active : row.isWithdrawn = false) :
    (s.apply (.registration row)).WithinCapacity ↔ Write.Fits s (.registration row) := by
  constructor
  · intro still inSection found most limit
    have inside := Table.findUnique_mem found
    have here : inSection.id = row.sectionId := Table.findUnique_key found
    have bound := still inSection inside most limit
    rw [count_registered row active, here, if_pos rfl] at bound
    exact bound
  · intro fits inSection inside most limit
    rw [count_registered row active]
    by_cases own : row.sectionId = inSection.id
    · rw [if_pos own]
      have found : s.findSectionById row.sectionId = some inSection := by
        rw [own]
        exact consistent.sectionKey.find inside
      rw [← own]
      exact fits inSection found most limit
    · rw [if_neg own]
      exact within inSection inside most limit

theorem withinCapacity_apply (consistent : s.Consistent) (within : s.WithinCapacity)
    {write : Write} (sound : write.Sound s) :
    (s.apply write).WithinCapacity ↔ write.Fits s := by
  cases write with
  | registration row => exact withinCapacity_registered consistent within row sound.2.2
  | tournamentSection row =>
      refine iff_of_true (fun inSection inside most limit => ?_) trivial
      rcases List.mem_append.mp inside with old | added
      · exact within inSection old most limit
      · -- nobody can have registered for a section that is new
        have none : s.countActiveRegistrations inSection.id = 0 := by
          unfold Db.countActiveRegistrations
          rw [List.countP_eq_zero]
          intro r here
          have place := consistent.ofSection r here
          rw [List.mem_singleton.mp added, sound.1]
          intro counts
          simp only [Bool.and_eq_true, decide_eq_true_eq] at counts
          rw [counts.1, Db.findSectionById, Table.findUnique_next consistent.sectionIds] at place
          cases place
        change s.countActiveRegistrations inSection.id ≤ most
        rw [none]
        exact Nat.zero_le most
  | tournament | update | status => exact iff_of_true within trivial
  | withdrawal id reason =>
      refine iff_of_true (withinCapacity_rewrite within _ _ fun r => ⟨rfl, ?_⟩) trivial
      intro active
      cases active
  | confirmation | invoice =>
      exact iff_of_true (withinCapacity_rewrite within _ _ fun r => ⟨rfl, fun active => active⟩)
        trivial

/-- Every registration that this await inserts finds a place. -/
def FindsPlace (s : Office) (call : Call) : Prop :=
  ∀ write ∈ (act s.db s.ports call).1, write.Fits s.db

/-- The section is stored, and when it has a maximum, fewer registrations have been counted. -/
def Db.HasRoom (s : Db) (sectionId : Nat) (inSection : SectionRow) (counted : Option Nat) : Prop :=
  s.findSectionById sectionId = some inSection ∧
    ∀ most ∈ inSection.maxPlayers, ∃ active ∈ counted, active < most

/-- What a `register` has found out about its section. -/
def Call.Counted (s : Db) : Call → Prop
  | .register who (.findTournament inSection) _ | .register who (.findPlayer inSection _) _
  | .register who (.findRegistration inSection _ _) _ =>
      s.findSectionById who.sectionId = some inSection
  | .register who (.countActive inSection most _ _) _ =>
      s.findSectionById who.sectionId = some inSection ∧ inSection.maxPlayers = some most
  | .register who (.readRating inSection _ _ counted) _ => s.HasRoom who.sectionId inSection counted
  | .register _ (.create input counted) _ =>
      ∃ inSection, s.HasRoom input.sectionId inSection counted
  | _ => True

/-- No more registrations are active than the request has counted. -/
def NoneAdded (s : Office) : Call → Prop
  | .register _ (.create input (some counted)) _ =>
      s.db.countActiveRegistrations input.sectionId ≤ counted
  | _ => True

instance decidableNoneAdded (s : Office) : (call : Call) → Decidable (NoneAdded s call)
  | .register _ (.create input (some counted)) _ =>
      inferInstanceAs (Decidable (s.db.countActiveRegistrations input.sectionId ≤ counted))
  | .register _ (.create _ none) _ => .isTrue trivial
  | .register _ .findSection _ | .register _ (.findTournament _) _
  | .register _ (.findPlayer _ _) _ | .register _ (.findRegistration _ _ _) _
  | .register _ (.countActive _ _ _ _) _ | .register _ (.readRating _ _ _ _) _ => .isTrue trivial
  | .create _ | .findSlug _ _ | .createTournament _ _ | .update _ _ _ | .updateTournament _ _
  | .changeStatus _ _ | .storeStatus _ _ | .createSection _ _ _ | .listSections _ _
  | .insertSection _ _ | .registerMany _ _ | .withdraw _ | .findSectionOf _ _
  | .findTournamentOf _ _ _ | .findOwnPlayer _ _ | .withdrawRegistration _ _ => .isTrue trivial

theorem findSection_apply (consistent : s.Consistent) {write : Write} (sound : write.Sound s)
    {id : Nat} {inSection : SectionRow} (found : s.findSectionById id = some inSection) :
    (s.apply write).findSectionById id = some inSection := by
  cases write with
  | tournamentSection row => exact Table.findUnique_added consistent.sectionIds sound.1 found
  | tournament | update | status | registration | withdrawal | confirmation | invoice => exact found

theorem counted_apply (consistent : s.Consistent) {write : Write} (sound : write.Sound s)
    {call : Call} (counted : call.Counted s) : call.Counted (s.apply write) := by
  have kept {id : Nat} {inSection : SectionRow}
      (found : s.findSectionById id = some inSection) :
      (s.apply write).findSectionById id = some inSection :=
    findSection_apply consistent sound found
  cases call with
  | register who stage bulk =>
      cases stage with
      | findSection => trivial
      | findTournament inSection | findPlayer inSection t | findRegistration inSection t player =>
          exact kept counted
      | countActive inSection most t player => exact ⟨kept counted.1, counted.2⟩
      | readRating inSection t player active => exact ⟨kept counted.1, counted.2⟩
      | create input active =>
          obtain ⟨inSection, found, room⟩ := counted
          exact ⟨inSection, kept found, room⟩
  | create | findSlug | createTournament | update | updateTournament | changeStatus | storeStatus
  | createSection | listSections | insertSection | registerMany | withdraw | findSectionOf
  | findTournamentOf | findOwnPlayer | withdrawRegistration => trivial

/-- What a `register` goes on with, it has found out or just read; the check for a full section
gives the room. -/
theorem counted_next {who : Registrant} {before stage : RegisterStage} {bulk : Option Bulk}
    (counted : Call.Counted s (.register who before bulk))
    (moved : RegisterNext s who before stage) : Call.Counted s (.register who stage bulk) := by
  cases moved with
  | sectionFound inSection found => exact found
  | tournamentFound inSection t found => exact counted
  | playerFound inSection t player => exact counted
  | limited inSection most t player limit => exact ⟨counted, limit⟩
  | unlimited inSection t player unbounded =>
      refine ⟨counted, fun most limit => ?_⟩
      rw [unbounded] at limit
      cases limit
  | roomLeft inSection most t player room =>
      obtain ⟨found, limit⟩ := counted
      refine ⟨found, fun other same => ⟨_, rfl, ?_⟩⟩
      rw [limit, Option.mem_some_iff] at same
      omega
  | ratingRead inSection t player active input place confirmed =>
      refine ⟨inSection, ?_⟩
      rw [place]
      exact counted

/-- Fewer registrations than the maximum are active where none has been added since the count. -/
theorem noneAdded_findsPlace {s : Office} {call : Call} (counted : call.Counted s.db)
    (noneAdded : NoneAdded s call) : FindsPlace s call := by
  intro write writes
  cases write with
  | registration row =>
      obtain ⟨who, input, active, bulk, rfl, place, -⟩ := act_registration writes
      intro inSection found most limit
      obtain ⟨known, there, room⟩ := counted
      rw [place] at found ⊢
      rw [Option.mem_def, there] at found
      cases found
      obtain ⟨number, same, few⟩ := room most limit
      cases same
      exact Nat.lt_of_le_of_lt noneAdded few
  | tournament | update | status | tournamentSection | withdrawal | confirmation | invoice =>
      trivial

end Capacity

/-- In every run of any requests, no section ever has more active registrations than its maximum
exactly when each registration that is inserted finds fewer. -/
theorem withinCapacity_iff_places (start after : Pool Office Call)
    (labels : List (Label Call OfficeEvent)) (initial : office.system.initial start)
    (ran : office.system.run start labels = some after) :
    office.system.Always (fun pool => pool.shared.db.WithinCapacity) start labels ↔
      System.Guarded (Advancing FindsPlace) office.system start labels := by
  apply office_outline.always_iff (fun s => s.db.WithinCapacity) _ _ _ initial ran
  · intro s fresh inSection inside
    rw [fresh.2.1] at inside
    cases inside
  · intro s call consistent _ within
    change (s.write (act s.db s.ports call).1).db.WithinCapacity ↔ _
    unfold FindsPlace
    cases writes : (act s.db s.ports call).1 with
    | none => exact iff_of_true within fun _ none => by cases none
    | some write =>
        simp only [Option.mem_def, Option.some.injEq, forall_eq']
        exact withinCapacity_apply consistent within (act_sound writes)
  · intro s event t _ within happened
    cases event with
    | ports ports =>
        cases happened
        exact within
    | confirm id | invoice id invoiceId =>
        cases happened
        exact withinCapacity_rewrite within _ _ fun r => ⟨rfl, fun active => active⟩

theorem capacity_outline :
    Outline office (fun _ _ => True) (fun s => s.db.Consistent)
      fun s call => call.Counted s.db where
  starts := office_outline.starts
  enters s call _ arrives := by
    cases call with
    | register who stage bulk =>
        cases stage with
        | findSection => trivial
        | findTournament | findPlayer | findRegistration | countActive | readRating | create =>
            cases bulk <;> cases arrives
    | create | findSlug | createTournament | update | updateTournament | changeStatus
    | storeStatus | createSection | listSections | insertSection | registerMany | withdraw
    | findSectionOf | findTournamentOf | findOwnPlayer | withdrawRegistration => trivial
  acts s call consistent _ free := office_outline.acts s call consistent trivial free
  continues s call rest consistent counted _ goesOn := by
    have kept : rest.Counted s.db := by
      cases rest with
      | register who stage bulk =>
          rcases act_register goesOn with rfl | ⟨before, rfl, moved⟩
          · trivial
          · exact counted_next counted moved
      | create | findSlug | createTournament | update | updateTournament | changeStatus
      | storeStatus | createSection | listSections | insertSection | registerMany | withdraw
      | findSectionOf | findTournamentOf | findOwnPlayer | withdrawRegistration => trivial
    change rest.Counted (s.write (act s.db s.ports call).1).db
    cases writes : (act s.db s.ports call).1 with
    | none => exact kept
    | some write => exact counted_apply consistent (act_sound writes) kept
  stable s call other consistent _ _ counted := by
    change other.Counted (s.write (act s.db s.ports call).1).db
    cases writes : (act s.db s.ports call).1 with
    | none => exact counted
    | some write => exact counted_apply consistent (act_sound writes) counted
  events s event t consistent happened := by
    refine ⟨(office_outline.events s event t consistent happened).1, fun other counted => ?_⟩
    cases event with
    | ports ports =>
        cases happened
        exact counted
    | confirm id =>
        cases happened
        exact @counted_apply _ consistent (.confirmation id) trivial other counted
    | invoice id invoiceId =>
        cases happened
        exact @counted_apply _ consistent (.invoice id invoiceId) trivial other counted

/-- In every run of any requests, no section ever has more active registrations than its maximum
as long as none is added between the count of a request and its insert. -/
theorem capacity_kept (start after : Pool Office Call) (labels : List (Label Call OfficeEvent))
    (initial : office.system.initial start) (ran : office.system.run start labels = some after)
    (noneAdded : System.Guarded (Advancing NoneAdded) office.system start labels) :
    office.system.Always (fun pool => pool.shared.db.WithinCapacity) start labels := by
  apply (withinCapacity_iff_places start after labels initial ran).mpr
  apply capacity_outline.allows _ initial noneAdded
  intro s call _ counted noneAdded
  exact noneAdded_findsPlace counted noneAdded

/-- Users are their own players here, and nobody has a rating. -/
def everyone : Ports where
  findClubContext _ := none
  findRegionContext _ := none
  findPlayerById id := some ⟨id, none⟩
  findSummaryByUserId id := some ⟨id, none⟩
  getCurrentRating _ _ _ := none

def nothingYet : Pool Office Call := ⟨⟨⟨[], [], [], 1⟩, everyone⟩, []⟩

/-- A tournament with an entry fee, a section for two players, and the registration opens. -/
def announced (entryFeeAmount : Field) : List (Label Call OfficeEvent) :=
  [.arrive (.create ⟨true, "open", none, none, none, 0, 1, entryFeeAmount⟩), .advance 0, .advance 0,
    .advance 0, .arrive (.createSection true 1 ⟨"A", none, .blitz, 5, 300, some 2⟩), .advance 0,
    .advance 0, .advance 0, .arrive (.changeStatus 1 ⟨true, .registrationOpen, 1, none⟩),
    .advance 0, .advance 0]

def registering (userId : Nat) : Label Call OfficeEvent :=
  .arrive (.register ⟨true, userId, 2, none⟩ .findSection none)

/-- One player is registered; then two count before either is inserted. -/
def lastPlace : List (Label Call OfficeEvent) :=
  announced none ++ registering 1 :: List.replicate 7 (.advance 0) ++
    [registering 2, registering 3] ++ List.replicate 12 (.advance 0) ++ [.advance 0, .advance 0]

theorem lastPlace_end :
    (office.system.run nothingYet lastPlace).map (fun pool => (pool.inFlight,
      pool.shared.db.sections.map fun inSection => (inSection.maxPlayers,
        pool.shared.db.countActiveRegistrations inSection.id))) = some ([], [(some 2, 3)]) := by
  decide +kernel

theorem section_overfull :
    office.system.initial nothingYet ∧
      ∃ pool, office.system.run nothingYet lastPlace = some pool ∧ pool.inFlight = [] ∧
        ¬ pool.shared.db.WithinCapacity := by
  obtain ⟨pool, ran, seen⟩ := Option.map_eq_some_iff.mp lastPlace_end
  obtain ⟨rest, counts⟩ := Prod.mk.inj seen
  refine ⟨⟨⟨rfl, rfl, rfl⟩, rfl⟩, pool, ran, rest, fun within => ?_⟩
  have full : ((some 2, 3) : Option Nat × Nat) ∈ pool.shared.db.sections.map fun inSection =>
      (inSection.maxPlayers, pool.shared.db.countActiveRegistrations inSection.id) := by
    rw [counts]
    exact List.mem_singleton_self _
  obtain ⟨inSection, inside, same⟩ := List.mem_map.mp full
  obtain ⟨limit, count⟩ := Prod.mk.inj same
  have bound := within inSection inside 2 limit
  omega

/-- Here one comes after the other, and the third is refused. -/
def oneByOne : List (Label Call OfficeEvent) :=
  announced none ++ registering 1 :: List.replicate 7 (.advance 0) ++
    registering 2 :: List.replicate 7 (.advance 0) ++ registering 3 :: List.replicate 5 (.advance 0)

theorem oneByOne_within :
    office.system.Always (fun pool => pool.shared.db.WithinCapacity) nothingYet oneByOne := by
  have ran : (office.system.run nothingYet oneByOne).isSome := by decide +kernel
  obtain ⟨after, ran⟩ := Option.isSome_iff_exists.mp ran
  have initial : office.system.initial nothingYet := ⟨⟨rfl, rfl, rfl⟩, rfl⟩
  exact capacity_kept nothingYet after oneByOne initial ran (by decide +kernel)

end Farzin.Registrations
