import Farzin.OutboxMarks

set_option autoImplicit false

/- What an event of the outbox can rely on: it is delivered at least once before it counts as
published, it fails at its tenth failure only, and however often it is delivered, a user is
notified of it once. -/
namespace Farzin.Outbox

open Transition

/-- What notifications are told apart by when an event comes again. -/
def Notification.key (n : Notification) : Nat × Nat × TemplateKey :=
  (n.eventId, n.userId, n.templateKey)

/-- All notifications with one key come from one batch, on different channels. -/
structure Mailbox.Once (box : Mailbox) : Prop where
  channels : (box.rows.map fun n => (n.key, n.channel)).Nodup
  batches : ∀ n ∈ box.rows, ∀ m ∈ box.rows, n.key = m.key → n.batch = m.batch

/-- Nobody to be notified has a notification yet. -/
def Mailbox.Unnotified (box : Mailbox) (eventId : Nat) (request : NotifyRequest)
    (fresh : List NewRow) : Prop :=
  ∀ row ∈ fresh, ∀ n ∈ box.rows, n.key ≠ (eventId, row.1, request.templateKey)

def Handler.Sound (box : Mailbox) (eventId : Nat) : Handler → Prop
  | .recipients request => request.channels.Nodup
  | .existing _ rows => rows.Nodup
  | .insert request fresh => fresh.Nodup ∧ box.Unnotified eventId request fresh
  | .listen | .readContext _ _ _ | .dispatch _ | .done _ => True

/-- A delivery of an event begins when the others of this event have ended. -/
def NotOverlapping (s : Publisher) : PublisherLabel → Prop
  | .emit => ∀ p ∈ s.poll, ∀ e ∈ p.remaining.head?, ∀ d ∈ s.deliveries,
      d.event.id = e.id → d.handler.finished = true
  | _ => True

instance decidableNotOverlapping (s : Publisher) :
    (label : PublisherLabel) → Decidable (NotOverlapping s label)
  | .emit => inferInstanceAs (Decidable (∀ p ∈ s.poll, ∀ e ∈ p.remaining.head?,
      ∀ d ∈ s.deliveries, d.event.id = e.id → d.handler.finished = true))
  | .enqueue _ _ _ _ _ | .beginPoll | .handle _ _ | .deliver _ _ | .settle | .commit | .rollback
  | .abandon _ | .cleanup | .setDirectory _ | .wait _ => .isTrue trivial

section Mailbox

variable {box : Mailbox}

theorem map_mapIdx_const {α β γ : Type} (values : List α) (row : Nat → α → β) (of : β → γ)
    (keys : α → γ) (same : ∀ i a, of (row i a) = keys a) :
    (values.mapIdx row).map of = values.map keys := by
  induction values generalizing row with
  | nil => rfl
  | cons a values ih =>
      rw [List.mapIdx_cons, List.map_cons, List.map_cons, same 0 a,
        ih (fun i => row (i + 1)) fun i => same (i + 1)]

theorem created_keys (eventId : Nat) (request : NotifyRequest) (fresh : List NewRow) (now : Int) :
    (box.created eventId request fresh now).map (fun n => (n.key, n.channel)) =
      fresh.map fun row => ((eventId, row.1, request.templateKey), row.2) :=
  map_mapIdx_const _ _ _ _ fun _ _ => rfl

theorem created_mem {eventId : Nat} {request : NotifyRequest} {fresh : List NewRow} {now : Int}
    {n : Notification} (new : n ∈ box.created eventId request fresh now) :
    n.batch = box.batches ∧ ∃ row ∈ fresh, n.key = (eventId, row.1, request.templateKey) := by
  obtain ⟨index, inside, same⟩ := List.mem_mapIdx.mp new
  rw [← same]
  exact ⟨rfl, _, List.getElem_mem inside, rfl⟩

/-- A batch for users without notifications keeps what is said about the others. -/
theorem insert_once (once : box.Once) {eventId : Nat} {request : NotifyRequest}
    {fresh : List NewRow} (distinct : fresh.Nodup)
    (unnotified : box.Unnotified eventId request fresh) (now : Int) :
    (box.insert eventId request fresh now).Once := by
  constructor
  · change ((box.rows ++ box.created eventId request fresh now).map _).Nodup
    rw [List.map_append, created_keys, List.nodup_append]
    refine ⟨once.channels, ?_, ?_⟩
    · apply distinct.map
      intro a b same
      obtain ⟨keys, channel⟩ := Prod.mk.inj same
      have user : a.1 = b.1 := (Prod.mk.inj (Prod.mk.inj keys).2).1
      exact Prod.ext user channel
    · intro old listed new among same
      obtain ⟨n, stored, rfl⟩ := List.mem_map.mp listed
      obtain ⟨row, known, rfl⟩ := List.mem_map.mp among
      exact unnotified row known n stored (Prod.mk.inj same).1
  · intro n hereN m hereM same
    rcases List.mem_append.mp hereN with oldN | newN
    · rcases List.mem_append.mp hereM with oldM | newM
      · exact once.batches n oldN m oldM same
      · obtain ⟨_, row, known, key⟩ := created_mem newM
        exact absurd (same.trans key) (unnotified row known n oldN)
    · obtain ⟨batch, row, known, key⟩ := created_mem newN
      rcases List.mem_append.mp hereM with oldM | newM
      · exact absurd (same.symm.trans key) (unnotified row known m oldM)
      · rw [batch, (created_mem newM).1]

/-- The delivery of a row changes neither key nor channel nor batch. -/
theorem dispatched_rows (box : Mailbox) (id : Nat) (now : Int) (result : DispatchResult) :
    ∃ change : Notification → Notification, (box.dispatched id now result).rows =
      box.rows.map change ∧ ∀ n, (change n).key = n.key ∧ (change n).channel = n.channel ∧
        (change n).batch = n.batch := by
  cases result with
  | sent =>
      refine ⟨fun n => if n.id = id then n.markSent now else n, ?_, fun n => ?_⟩
      · simp [Mailbox.dispatched, Mailbox.change, Table.updateWhere]
      · dsimp only
        split <;> exact ⟨rfl, rfl, rfl⟩
  | failed reason =>
      refine ⟨fun n => if n.id = id then n.markFailed now reason else n, ?_, fun n => ?_⟩
      · simp [Mailbox.dispatched, Mailbox.change, Table.updateWhere]
      · dsimp only
        split <;> exact ⟨rfl, rfl, rfl⟩
  | logged => exact ⟨fun n => n, (List.map_id _).symm, fun n => ⟨rfl, rfl, rfl⟩⟩

theorem dispatched_once (once : box.Once) (id : Nat) (now : Int) (result : DispatchResult) :
    (box.dispatched id now result).Once := by
  obtain ⟨change, rows, same⟩ := dispatched_rows box id now result
  constructor
  · rw [rows, List.map_map]
    have keys : ((fun n : Notification => (n.key, n.channel)) ∘ change) =
        fun n => (n.key, n.channel) := by
      funext n
      rw [Function.comp_apply, (same n).1, (same n).2.1]
    rw [keys]
    exact once.channels
  · intro n hereN m hereM key
    rw [rows] at hereN hereM
    obtain ⟨before, stored, rfl⟩ := List.mem_map.mp hereN
    obtain ⟨other, known, rfl⟩ := List.mem_map.mp hereM
    rw [(same before).1, (same other).1] at key
    rw [(same before).2.2, (same other).2.2]
    exact once.batches before stored other known key

theorem dispatched_unnotified {eventId : Nat} {request : NotifyRequest} {fresh : List NewRow}
    (unnotified : box.Unnotified eventId request fresh) (id : Nat) (now : Int)
    (result : DispatchResult) :
    (box.dispatched id now result).Unnotified eventId request fresh := by
  obtain ⟨change, rows, same⟩ := dispatched_rows box id now result
  intro row known n stored
  rw [rows] at stored
  obtain ⟨before, there, rfl⟩ := List.mem_map.mp stored
  rw [(same before).1]
  exact unnotified row known before there

/-- A batch of another event leaves nobody notified of this one. -/
theorem insert_unnotified {eventId other : Nat} (apart : other ≠ eventId)
    {request : NotifyRequest} {fresh : List NewRow}
    (unnotified : box.Unnotified eventId request fresh) (its : NotifyRequest)
    (rows : List NewRow) (now : Int) :
    (box.insert other its rows now).Unnotified eventId request fresh := by
  intro row known n stored same
  rcases List.mem_append.mp stored with old | new
  · exact unnotified row known n old same
  · obtain ⟨_, _, _, key⟩ := created_mem new
    rw [key] at same
    exact apart (Prod.mk.inj same).1

end Mailbox

section Handlers

variable {adapters : Adapters} {directory : Directory} {now : Int} {box : Mailbox}
  {e : OutboxEvent}

theorem eligibleChannels_nodup {requested : List Channel} (distinct : requested.Nodup)
    (user : RecipientUser) : (eligibleChannels requested adapters user).Nodup :=
  distinct.filter _

/-- Every user gets each of the channels once. -/
theorem notifyRows_nodup {request : NotifyRequest} (distinct : request.channels.Nodup)
    {users : List RecipientUser} (unique : Table.Unique RecipientUser.id users) :
    (notifyRows request adapters users).Nodup := by
  unfold notifyRows
  rw [List.nodup_flatMap]
  constructor
  · intro user _
    apply (eligibleChannels_nodup distinct user).map
    intro a b same
    exact (Prod.mk.inj same).2
  · apply (List.pairwise_map.mp unique).imp
    intro a b apart row inA inB
    obtain ⟨_, _, rfl⟩ := List.mem_map.mp inA
    obtain ⟨_, _, same⟩ := List.mem_map.mp inB
    exact apart (Prod.mk.inj same).1.symm

theorem recipientsByIds_unique (userIds : List Nat) :
    Table.Unique RecipientUser.id (directory.recipientsByIds userIds) :=
  List.Nodup.sublist (List.filter_sublist.map _) directory.distinct

theorem alreadyNotified_not {eventId userId : Nat} {templateKey : TemplateKey}
    (free : userId ∉ box.alreadyNotified eventId templateKey) {n : Notification}
    (stored : n ∈ box.rows) : n.key ≠ (eventId, userId, templateKey) := by
  intro same
  obtain ⟨event, rest⟩ := Prod.mk.inj same
  obtain ⟨user, template⟩ := Prod.mk.inj rest
  apply free
  refine List.mem_map.mpr ⟨n, List.mem_filter.mpr ⟨stored, ?_⟩, user⟩
  simp [event, template]

/-- What a handler has established when the database has answered it. -/
theorem answered_sound {handler : Handler} (sound : handler.Sound box e.id) :
    (handler.answered adapters directory now box e).2.Sound
      (handler.answered adapters directory now box e).1 e.id := by
  cases handler with
  | listen =>
      rw [Handler.answered]
      split
      · trivial
      · trivial
      · split
        · change [Channel.inApp, .email].Nodup
          decide
        · trivial
      · change [Channel.inApp].Nodup
        decide
  | readContext sectionId roundNumber userIds =>
      change [Channel.inApp, .email].Nodup
      decide
  | recipients request =>
      rw [Handler.answered]
      dsimp only
      split
      · trivial
      · exact notifyRows_nodup sound (recipientsByIds_unique request.userIds)
  | existing request rows =>
      rw [Handler.answered]
      dsimp only
      split
      · trivial
      · refine ⟨List.Nodup.filter _ sound, fun row known n stored => ?_⟩
        have free := (List.mem_filter.mp known).2
        exact alreadyNotified_not (of_decide_eq_true free) stored
  | insert | dispatch | done => trivial

/-- The only rows that a handler writes are those of its batch. -/
theorem answered_box (handler : Handler) :
    (handler.answered adapters directory now box e).1 = box ∨
      ∃ request fresh, handler = .insert request fresh ∧
        (handler.answered adapters directory now box e).1 = box.insert e.id request fresh now := by
  cases handler with
  | insert request fresh => exact .inr ⟨request, fresh, rfl, rfl⟩
  | listen =>
      left
      rw [Handler.answered]
      repeat' split
      all_goals rfl
  | readContext | recipients | existing | dispatch | done => exact .inl rfl

/-- A failed call writes nothing, and one whose answer is lost what it writes otherwise. -/
theorem handle_box (adapters : Adapters) (directory : Directory) (now : Int) (box : Mailbox)
    (e : OutboxEvent) (handler : Handler) (answer : Answer) :
    (handler.handle adapters directory now box e answer).1 = box ∨
      ∃ request fresh, handler = .insert request fresh ∧
        (handler.handle adapters directory now box e answer).1 =
          box.insert e.id request fresh now := by
  unfold Handler.handle
  dsimp only
  split
  · exact .inl rfl
  · exact answered_box handler
  · exact answered_box handler

theorem handle_established {handler : Handler} (sound : handler.Sound box e.id)
    (answer : Answer) :
    (handler.handle adapters directory now box e answer).2.Sound
      (handler.handle adapters directory now box e answer).1 e.id := by
  unfold Handler.handle
  dsimp only
  split
  · trivial
  · trivial
  · exact answered_sound sound

/-- A handler has established the same after a change that notifies nobody of its event. -/
theorem Handler.Sound.moved {handler : Handler} {eventId : Nat} {after : Mailbox}
    (sound : handler.Sound box eventId)
    (unnotified : ∀ request fresh, box.Unnotified eventId request fresh →
      after.Unnotified eventId request fresh) : handler.Sound after eventId := by
  cases handler with
  | insert request fresh => exact ⟨sound.1, unnotified request fresh sound.2⟩
  | recipients | existing => exact sound
  | listen | readContext | dispatch | done => trivial

end Handlers

/-- The notifications are exact, and of the deliveries of an event one runs at most. -/
structure Publisher.Exact (s : Publisher) : Prop where
  once : s.box.Once
  handlers : ∀ d ∈ s.deliveries, d.handler.Sound s.box d.event.id
  alone : ∀ d ∈ s.deliveries, ∀ other ∈ s.deliveries, d.event.id = other.event.id →
    d.handler.finished = false → other.handler.finished = false → d.number = other.number

section Steps

variable {emitter : Emitter} {adapters : Adapters} {s t : Publisher}

/-- What a handler does leaves what the handlers of other events have established. -/
theorem goOn_exact (precise : s.Exact) {d : Delivery} (listed : d ∈ s.deliveries)
    (running : d.handler.finished = false) {box : Mailbox} {handler : Handler}
    {answers : List Answer} (once : box.Once) (established : handler.Sound box d.event.id)
    (others : ∀ other ∈ s.deliveries, other.event.id ≠ d.event.id →
      other.handler.Sound box other.event.id) :
    (s.goOn d box handler answers).Exact where
  once := once
  handlers other known := by
    rcases goOn_mem known with ⟨old, apart⟩ | rfl
    · by_cases same : other.event.id = d.event.id
      · cases stage : other.handler with
        | done outcome => trivial
        | listen | readContext | recipients | existing | insert | dispatch =>
            have number := precise.alone other old d listed same (by rw [stage]; rfl) running
            exact absurd number apart
      · exact others other old same
    · exact established
  alone a knownA b knownB same runsA runsB := by
    rcases goOn_mem knownA with ⟨oldA, _⟩ | rfl
    · rcases goOn_mem knownB with ⟨oldB, _⟩ | rfl
      · exact precise.alone a oldA b oldB same runsA runsB
      · exact precise.alone a oldA d listed same runsA running
    · rcases goOn_mem knownB with ⟨oldB, _⟩ | rfl
      · exact precise.alone d listed b oldB same running runsB
      · rfl

theorem handle_exact (precise : s.Exact) {number : Nat} {answer : Answer}
    (taken : s.handle adapters number answer = some t) : t.Exact := by
  obtain ⟨d, listed, running, rfl⟩ := handle_step taken
  have established := precise.handlers d listed
  have wrote := handle_box adapters s.directory s.now s.box d.event d.handler answer
  apply goOn_exact precise listed running
  · rcases wrote with same | ⟨request, fresh, stage, same⟩
    · rw [same]
      exact precise.once
    · rw [same]
      rw [stage] at established
      exact insert_once precise.once established.1 established.2 s.now
  · exact handle_established established answer
  · intro other known apart
    have before := precise.handlers other known
    rcases wrote with same | ⟨request, fresh, _, same⟩
    · rw [same]
      exact before
    · rw [same]
      exact before.moved fun _ _ unnotified =>
        insert_unnotified (Ne.symm apart) unnotified request fresh s.now

theorem deliver_exact (precise : s.Exact) {number : Nat} {result : DispatchResult}
    (taken : s.deliver number result = some t) : t.Exact := by
  obtain ⟨d, listed, rows, stage, rfl⟩ := deliver_step taken
  have running : d.handler.finished = false := by
    rw [stage]
    rfl
  cases rows with
  | nil =>
      apply goOn_exact precise listed running
      · exact precise.once
      · trivial
      · exact fun other known _ => precise.handlers other known
  | cons row rows =>
      apply goOn_exact precise listed running
      · exact dispatched_once precise.once row.id s.now result
      · trivial
      · intro other known _
        exact (precise.handlers other known).moved fun _ _ unnotified =>
          dispatched_unnotified unnotified row.id s.now result

/-- A delivery that begins alone. -/
theorem emit_exact (precise : s.Exact) (alone : NotOverlapping s .emit)
    (taken : s.emit = some t) : t.Exact := by
  obtain ⟨p, e, rest, held, next, _, rfl⟩ := emit_step taken
  have ended : ∀ d ∈ s.deliveries, d.event.id = e.id → d.handler.finished = true :=
    alone p held e (by rw [next]; rfl)
  constructor
  · exact precise.once
  · intro d known
    rcases List.mem_append.mp known with old | new
    · exact precise.handlers d old
    · rw [List.mem_singleton.mp new]
      trivial
  · intro a knownA b knownB same runsA runsB
    rcases List.mem_append.mp knownA with oldA | newA
    · rcases List.mem_append.mp knownB with oldB | newB
      · exact precise.alone a oldA b oldB same runsA runsB
      · rw [List.mem_singleton.mp newB] at same
        rw [ended a oldA same] at runsA
        cases runsA
    · rcases List.mem_append.mp knownB with oldB | newB
      · rw [List.mem_singleton.mp newA] at same
        rw [ended b oldB same.symm] at runsB
        cases runsB
      · rw [List.mem_singleton.mp newA, List.mem_singleton.mp newB]

/-- The notifications and some of the deliveries stay. -/
theorem Publisher.Exact.less (precise : s.Exact) (box : t.box = s.box)
    (deliveries : t.deliveries ⊆ s.deliveries) : t.Exact where
  once := by
    rw [box]
    exact precise.once
  handlers d known := by
    rw [box]
    exact precise.handlers d (deliveries known)
  alone a knownA b knownB := precise.alone a (deliveries knownA) b (deliveries knownB)

theorem step_exact (precise : s.Exact) {label : PublisherLabel}
    (alone : NotOverlapping s label) (taken : s.step emitter adapters label = some t) :
    t.Exact := by
  cases label with
  | emit => exact emit_exact precise alone taken
  | handle number answer => exact handle_exact precise taken
  | deliver number result => exact deliver_exact precise taken
  | enqueue id eventType aggregateType aggregateId payload =>
      obtain ⟨_, rfl⟩ := enqueue_step taken
      exact precise.less rfl fun _ known => known
  | beginPoll =>
      cases taken
      rcases beginPoll_cases s with same | ⟨_, same⟩
      · rw [same]
        exact precise
      · rw [same]
        exact precise.less rfl fun _ known => known
  | settle =>
      obtain ⟨_, _, _, _, _, _, _, _, _, rfl⟩ := settle_step taken
      exact precise.less rfl fun _ known => (List.mem_filter.mp known).1
  | commit =>
      obtain ⟨_, _, _, rfl⟩ := commit_step taken
      exact precise.less rfl fun _ known => known
  | rollback =>
      obtain ⟨_, _, rfl⟩ := Option.map_eq_some_iff.mp taken
      exact precise.less rfl fun _ known => known
  | abandon number =>
      obtain ⟨_, _, _, _, rfl⟩ := abandon_step taken
      exact precise.less rfl fun _ known => (List.mem_filter.mp known).1
  | cleanup | setDirectory directory | wait ms =>
      cases taken
      exact precise.less rfl fun _ known => known

theorem Publisher.Initial.exact (initial : s.Initial) : s.Exact := by
  constructor
  · constructor
    · rw [initial.rows]
      exact List.nodup_nil
    · simp [initial.rows]
  · simp [initial.deliveries]
  · simp [initial.deliveries]

end Steps

/-- Reachable while the deliveries of an event do not overlap. -/
theorem reachable_exact {emitter : Emitter} {adapters : Adapters} {s : Publisher}
    (reached : (publisher emitter adapters).ReachableWhile NotOverlapping s) : s.Exact := by
  apply reached.invariant Publisher.Exact
  · intro s initial
    exact initial.exact
  · intro s label t precise alone taken
    exact step_exact precise alone taken

/-- The emitter reports success only when every handler has succeeded. -/
def Emitter.Strict (emitter : Emitter) : Prop :=
  ∀ outcomes : List (Except String Unit),
    emitter.emitAsync (outcomes.map emitter.wrap) = .ok () → ∀ outcome ∈ outcomes, outcome = .ok ()

structure OutboxEvent.Guaranteed (s : Publisher) (e : OutboxEvent) : Prop where
  delivered : e.status = .published → ⟨e.id, .ok ()⟩ ∈ s.completed
  counted : e.attempts = s.failures.count e.id ∧ e.attempts ≤ maxAttempts
  failed : e.status = .failed ↔ s.failures.count e.id = maxAttempts
  otherwise : e.status ≠ .published → e.status ≠ .failed →
    e.status = .pending ∧ e.availableAt ≤ s.now + maxBackoffMs

/-- A poll reads the events that are due, as many as it takes, in the order of their ids. With its
commit, each of them is published or has failed once more. -/
structure Publisher.Guaranteed (s : Publisher) : Prop where
  events : ∀ e ∈ s.events, e.Guaranteed s
  read : s.poll = none → ∀ e ∈ s.events, e.due s.now = true →
    (s.events.countP fun other => other.due s.now && decide (other.id < e.id)) < batchSize →
      ∃ p, s.beginPoll.poll = some p ∧ e ∈ p.batch
  marked : ∀ p t, s.poll = some p → s.commit = some t → ∀ e ∈ p.batch, ∃ after ∈ t.events,
    after.id = e.id ∧ (after.status = .published ∨ after.attempts = e.attempts + 1)
  notifications : s.box.Once

section Guarantee

variable {emitter : Emitter} {s t : Publisher}

theorem OutboxEvent.Sound.guaranteed {e : OutboxEvent} (sound : e.Sound emitter s)
    (strict : emitter.Strict) : e.Guaranteed s where
  delivered status := by
    obtain ⟨outcome, completed, passes⟩ := sound.published status
    have succeeded := strict [outcome] passes outcome (List.mem_singleton_self _)
    rw [succeeded] at completed
    exact completed
  counted := ⟨sound.counted, sound.bounded⟩
  failed := by
    rw [← sound.counted]
    exact sound.failed
  otherwise published failed := by
    have known := sound.known
    have pending : e.status = .pending := by
      cases status : e.status with
      | pending => rfl
      | processing => exact absurd status known
      | published => exact absurd status published
      | failed => exact absurd status failed
    exact ⟨pending, sound.soon pending⟩

theorem commit_marks (sound : s.Sound emitter) {p : Poll} (held : s.poll = some p)
    (taken : s.commit = some t) {e : OutboxEvent} (read : e ∈ p.batch) :
    ∃ after ∈ t.events, after.id = e.id ∧
      (after.status = .published ∨ after.attempts = e.attempts + 1) := by
  obtain ⟨q, its, none, rfl⟩ := commit_step taken
  rw [held] at its
  cases its
  have poll := sound.poll p held
  have split := (poll.ended none).1
  refine ⟨writeMarks p.settled e, List.mem_map_of_mem (poll.stored e read).1,
    writeMarks_id p.settled e, ?_⟩
  rcases writeMarks_cases p.settled e with ⟨other, _⟩ | ⟨w, known, id, same⟩
  · rw [← split] at read
    obtain ⟨w, known, rfl⟩ := List.mem_map.mp read
    exact absurd rfl (other w known)
  · obtain ⟨time, _, mark⟩ := (poll.settled w known).marked
    have inside : w.event ∈ p.batch := split ▸ List.mem_map_of_mem known
    have event : w.event = e := List.inj_on_of_nodup_map poll.unique inside read id
    rw [same, mark, event]
    cases emitter.emitAsync [emitter.wrap w.outcome] with
    | ok done => exact .inl rfl
    | error error => exact .inr rfl

/-- Whatever handlers fail, polls are rolled back and events come again: an event is published only
when a delivery of it has succeeded, it fails at its tenth failure and is due again until then, and
a user is notified of it by one batch, once on each channel. -/
theorem outbox_guarantee (emitter : Emitter) (adapters : Adapters) (strict : emitter.Strict)
    (s : Publisher) (reached : (publisher emitter adapters).ReachableWhile NotOverlapping s) :
    s.Guaranteed where
  events e stored := ((reachable_sound reached).events e stored).guaranteed strict
  read none e stored due turn := by
    refine ⟨⟨s.polls, dueEvents s.events s.now, [], dueEvents s.events s.now⟩, ?_, ?_⟩
    · unfold Publisher.beginPoll
      rw [none]
    · exact dueEvents_reads (reachable_sound reached).unique stored due turn
  marked p t held taken e read := commit_marks (reachable_sound reached) held taken read
  notifications := (reachable_exact reached).once

end Guarantee

section Runs

/-- No handler is wrapped, and the first error is reported. -/
def strictEmitter : Emitter where
  wrap outcome := outcome
  emitAsync outcomes := (outcomes.find? fun outcome => outcome ≠ .ok ()).getD (.ok ())

theorem strictEmitter_strict : strictEmitter.Strict := by
  intro outcomes resolved outcome listed
  have same : outcomes.map strictEmitter.wrap = outcomes := List.map_id _
  rw [same] at resolved
  change (outcomes.find? fun outcome => outcome ≠ .ok ()).getD (.ok ()) = .ok () at resolved
  cases found : outcomes.find? fun outcome => outcome ≠ .ok () with
  | none =>
      have passed := List.find?_eq_none.mp found outcome listed
      simpa using passed
  | some first =>
      rw [found] at resolved
      have failed := List.find?_some found
      rw [Option.getD_some] at resolved
      rw [resolved] at failed
      cases failed

def inAppOnly : Adapters
  | .inApp => some ⟨true, fun _ => true⟩
  | _ => none

/-- Two players in the section `a`. -/
def sectionOfTwo : Directory where
  sectionUserIds sectionId := if sectionId = "a" then [1, 2] else []
  sectionContext sectionId := if sectionId = "a" then some ⟨"Ochiq", "Toshkent"⟩ else none
  invoiceRecipient _ := none
  superAdminUserIds := []
  users := [⟨1, none, false, "uz", false⟩, ⟨2, none, false, "uz", false⟩]
  distinct := by decide

def noEvents : Publisher where
  events := []
  issued := []
  poll := none
  polls := 0
  deliveries := []
  nextDelivery := 0
  box := ⟨[], 0, 0⟩
  completed := []
  failures := []
  directory := sectionOfTwo
  now := 0

theorem noEvents_initial : noEvents.Initial := ⟨rfl, rfl, rfl, rfl, rfl⟩

def enqueueRound : PublisherLabel :=
  .enqueue 0 .roundCompleted "section" "a" [("sectionId", .text "a"), ("roundNumber", .number 1)]

/-- A first delivery writes its notifications, but its poll is rolled back; a second one finds
them. -/
def redeliveredRun : List PublisherLabel :=
  [enqueueRound, .beginPoll, .emit, .handle 0 .held, .handle 0 .held, .handle 0 .held,
    .handle 0 .held, .handle 0 .held, .deliver 0 .sent, .rollback, .deliver 0 (.failed "timeout"),
    .deliver 0 .logged, .beginPoll, .emit, .handle 1 .held, .handle 1 .held, .handle 1 .held,
    .handle 1 .held, .settle, .commit]

theorem redeliveredRun_guaranteed : ∃ s,
    (publisher strictEmitter inAppOnly).run noEvents redeliveredRun = some s ∧
      s.events.map OutboxEvent.status = [.published] ∧
        s.box.rows.map Notification.userId = [1, 2] ∧ s.Guaranteed := by
  have ends : ((publisher strictEmitter inAppOnly).run noEvents redeliveredRun).map (fun s =>
      (s.events.map OutboxEvent.status, s.box.rows.map Notification.userId)) =
      some ([.published], [1, 2]) := by decide +kernel
  obtain ⟨s, ran, same⟩ := Option.map_eq_some_iff.mp ends
  obtain ⟨status, users⟩ := Prod.mk.inj same
  have apart : System.Guarded NotOverlapping (publisher strictEmitter inAppOnly) noEvents
      redeliveredRun := by decide +kernel
  exact ⟨s, ran, status, users, outbox_guarantee strictEmitter inAppOnly strictEmitter_strict s
    ⟨noEvents, noEvents_initial, System.run_steps _ _ _ ran apart⟩⟩

end Runs

end Farzin.Outbox
