import Chip8.Keypad

/-! Polling the keyboard. A poll takes every pending event, also those behind the one that
makes it quit, so that each sample tells about the events since the last poll and about
nothing else: a quit if there is one anywhere among them, and otherwise the last key of the
layout that went down. -/

set_option autoImplicit false

namespace Chip8

/-- The window is closed or the escape key goes down. -/
def Event.asksToQuit : Event → Bool
  | .quit => true
  | .keyDown code => code == Keypad.escape
  | .keyUp _ | .other => false

/-- The key of the layout that goes down. -/
def Event.key? : Event → Option Key
  | .keyDown code => Keypad.keyOf? code
  | .keyUp _ | .quit | .other => none

/-- A queue of events, kept by the window system. -/
structure EventQueue (σ : Type) where
  pending : σ → List Event
  post : σ → List Event → σ
  /-- Takes events off the queue. -/
  take : σ → List Event × σ

/-- Events are taken all at once and in the order in which they were posted. -/
structure EventQueue.Drains {σ : Type} (queue : EventQueue σ) : Prop where
  pending_post : ∀ s events, queue.pending (queue.post s events) = queue.pending s ++ events
  taken : ∀ s, (queue.take s).1 = queue.pending s
  pending_take : ∀ s, queue.pending (queue.take s).2 = []

namespace Keypad

/-- The key is that of the last event with a code of the layout. -/
def LastDown (events : List Event) (key : Key) : Prop :=
  ∃ before code after, events = before ++ .keyDown code :: after ∧ (code, key) ∈ layout ∧
    ∀ later, .keyDown later ∈ after → ∀ other, (later, other) ∉ layout

/-- What a sample says about some events. -/
structure Reports (events : List Event) (sample : Sample) : Prop where
  quit_iff : sample.quit = true ↔ .quit ∈ events ∨ .keyDown escape ∈ events
  key_iff : ∀ key, sample.key = some key ↔ sample.quit = false ∧ LastDown events key

/-- The key that the last key-down of the layout stands for. -/
def lastKey? (events : List Event) : Option Key := (events.filterMap Event.key?).getLast?

section
variable {code : Int} {key : Key} {events : List Event}

theorem keyOf?_eq_some_iff : keyOf? code = some key ↔ (code, key) ∈ layout := by
  constructor
  · intro found
    obtain ⟨before, after, split, -⟩ := List.lookup_eq_some_iff.mp found
    rw [split]
    simp
  · intro listed
    have once : ∀ entry ∈ layout, keyOf? entry.1 = some entry.2 := by decide
    exact once _ listed

theorem key?_eq_some_iff {event : Event} :
    event.key? = some key ↔ ∃ code, event = .keyDown code ∧ (code, key) ∈ layout := by
  cases event with
  | keyDown code => simp [Event.key?, keyOf?_eq_some_iff]
  | keyUp code => simp [Event.key?]
  | quit => simp [Event.key?]
  | other => simp [Event.key?]

theorem lastKey?_cons (event : Event) (rest : List Event) :
    lastKey? (event :: rest) = (lastKey? rest).or event.key? := by
  cases pressed : event.key? with
  | none => simp [lastKey?, pressed]
  | some key => simp [lastKey?, pressed, List.getLast?_cons, Option.or_some]

theorem lastKey?_append (first second : List Event) :
    lastKey? (first ++ second) = (lastKey? second).or (lastKey? first) := by
  rw [lastKey?, List.filterMap_append, List.getLast?_append]
  rfl

theorem lastKey?_eq_none_iff : lastKey? events = none ↔ ∀ event ∈ events, event.key? = none := by
  rw [lastKey?, List.getLast?_eq_none_iff, List.filterMap_eq_nil_iff]

theorem lastKey?_eq_some_iff : lastKey? events = some key ↔ LastDown events key := by
  constructor
  · intro last
    -- The events split at the one that the last key came from.
    obtain ⟨keys, collected⟩ := List.getLast?_eq_some_iff.mp last
    obtain ⟨front, back, rfl, -, ends⟩ := List.filterMap_eq_append_iff.mp collected
    obtain ⟨middle, event, after, rfl, -, down, rest⟩ := List.filterMap_eq_cons_iff.mp ends
    obtain ⟨code, rfl, listed⟩ := key?_eq_some_iff.mp down
    refine ⟨front ++ middle, code, after, (List.append_assoc front middle _).symm, listed, ?_⟩
    intro later member other also
    have silent := List.filterMap_eq_nil_iff.mp rest _ member
    rw [key?_eq_some_iff.mpr ⟨later, rfl, also⟩] at silent
    cases silent
  · rintro ⟨before, code, after, rfl, listed, silent⟩
    have down : (Event.keyDown code).key? = some key := key?_eq_some_iff.mpr ⟨code, rfl, listed⟩
    have rest : lastKey? after = none := by
      rw [lastKey?_eq_none_iff]
      intro event member
      apply Option.eq_none_iff_forall_not_mem.mpr
      intro other pressed
      obtain ⟨later, rfl, also⟩ := key?_eq_some_iff.mp pressed
      exact silent later member other also
    rw [lastKey?_append, lastKey?_cons, rest, down]
    rfl

theorem any_asksToQuit_iff :
    events.any Event.asksToQuit = true ↔ .quit ∈ events ∨ .keyDown escape ∈ events := by
  rw [List.any_eq_true]
  constructor
  · rintro ⟨event, member, asks⟩
    cases event with
    | keyDown code =>
      have stop : code = escape := by simpa [Event.asksToQuit] using asks
      exact .inr (stop ▸ member)
    | keyUp code => cases asks
    | quit => exact .inl member
    | other => cases asks
  · rintro (member | member)
    · exact ⟨_, member, rfl⟩
    · exact ⟨_, member, rfl⟩

/-- The sample in terms of all events at once: a quit has the last word wherever it stands,
and nothing but a later key of the layout takes a key's place. -/
theorem pollFrom_eq (latest : Option Key) (events : List Event) :
    pollFrom latest events =
      if events.any Event.asksToQuit then ⟨none, true⟩
      else ⟨(lastKey? events).or latest, false⟩ := by
  -- What came before is known to the rest only as the latest key.
  induction events generalizing latest with
  | nil => rfl
  | cons event rest ih =>
    cases event with
    | keyDown code =>
      by_cases stop : code = escape
      · simp [pollFrom, Event.asksToQuit, stop]
      · simp [pollFrom, Event.asksToQuit, Event.key?, stop, ih, lastKey?_cons, Option.or_assoc]
    | keyUp code => simp [pollFrom, Event.asksToQuit, Event.key?, ih, lastKey?_cons]
    | quit => simp [pollFrom, Event.asksToQuit]
    | other => simp [pollFrom, Event.asksToQuit, Event.key?, ih, lastKey?_cons]

theorem poll_eq (events : List Event) :
    poll events =
      if events.any Event.asksToQuit then ⟨none, true⟩ else ⟨lastKey? events, false⟩ := by
  rw [poll, pollFrom_eq, Option.or_none]

theorem reports_poll (events : List Event) : Reports events (poll events) := by
  rw [poll_eq]
  cases asked : events.any Event.asksToQuit with
  | true =>
    constructor
    · simpa using any_asksToQuit_iff.mp asked
    · simp
  | false =>
    constructor
    · have none := mt any_asksToQuit_iff.mpr (Bool.eq_false_iff.mp asked)
      simpa using none
    · simp [lastKey?_eq_some_iff]

theorem poll_append (first second : List Event) :
    poll (first ++ second) =
      if (poll first).quit || (poll second).quit then ⟨none, true⟩
      else ⟨(poll second).key.or (poll first).key, false⟩ := by
  rw [poll_eq, poll_eq first, poll_eq second, List.any_append, lastKey?_append]
  cases first.any Event.asksToQuit
  · cases second.any Event.asksToQuit
    · rfl
    · rfl
  · rfl

end

section
variable {σ : Type}

/-- One poll of a queue, and the queue after it. -/
def pollQueue (queue : EventQueue σ) (s : σ) : Sample × σ :=
  let (events, rest) := queue.take s
  (poll events, rest)

/-- The samples of some polls, with a batch of events posted before each of them. -/
def pollBatches (queue : EventQueue σ) (s : σ) : List (List Event) → List Sample
  | [] => []
  | batch :: rest =>
      let polled := pollQueue queue (queue.post s batch)
      polled.1 :: pollBatches queue polled.2 rest

/-- One poll answers to what was posted since the queue was empty, and empties it again. -/
theorem pollQueue_post {queue : EventQueue σ} {s : σ} (drains : queue.Drains)
    (empty : queue.pending s = []) (batch : List Event) :
    (pollQueue queue (queue.post s batch)).1 = poll batch ∧
      queue.pending (pollQueue queue (queue.post s batch)).2 = [] := by
  constructor
  · change poll (queue.take (queue.post s batch)).1 = poll batch
    rw [drains.taken, drains.pending_post, empty, List.nil_append]
  · exact drains.pending_take _

theorem pollBatches_eq {queue : EventQueue σ} {s : σ} (drains : queue.Drains)
    (empty : queue.pending s = []) (batches : List (List Event)) :
    pollBatches queue s batches = batches.map poll := by
  -- The queue is empty before every batch, not only before the first.
  induction batches generalizing s with
  | nil => rfl
  | cons batch rest ih =>
    obtain ⟨sample, emptied⟩ := pollQueue_post drains empty batch
    simp only [pollBatches, List.map_cons]
    rw [sample, ih emptied]

/-- Every poll of every sequence of polls reports on its own batch. The last part says that
a batch may be cut anywhere: a quit in either part counts, and so does the later key. -/
theorem polls_report {queue : EventQueue σ} {s : σ} (drains : queue.Drains)
    (empty : queue.pending s = []) :
    (∀ batches, pollBatches queue s batches = batches.map poll) ∧
    (∀ batch, Reports batch (poll batch)) ∧
    ∀ first second,
      poll (first ++ second) =
        if (poll first).quit || (poll second).quit then ⟨none, true⟩
        else ⟨(poll second).key.or (poll first).key, false⟩ :=
  ⟨pollBatches_eq drains empty, reports_poll, poll_append⟩

/-- A queue that is the list of its events. -/
def listQueue : EventQueue (List Event) := ⟨id, (· ++ ·), fun s => (s, [])⟩

/-- A key that an unknown one and a release come after, a quit between two keys of which
neither reaches the next poll, and a window that is closed. -/
theorem polls_report_mixed :
    let batches : List (List Event) :=
      [[.keyDown 113, .keyDown 112, .keyUp 113], [.keyDown 97, .keyDown 27, .keyDown 49],
        [.keyUp 97], [.other, .quit]]
    listQueue.Drains ∧ listQueue.pending [] = [] ∧
    pollBatches listQueue [] batches =
      [⟨some 0x4, false⟩, ⟨none, true⟩, ⟨none, false⟩, ⟨none, true⟩] ∧
    Reports [.keyDown 113, .keyDown 112, .keyUp 113] ⟨some 0x4, false⟩ := by
  intro batches
  have drains : listQueue.Drains := ⟨fun _ _ => rfl, fun _ => rfl, fun _ => rfl⟩
  obtain ⟨samples, reports, -⟩ := polls_report drains (s := []) rfl
  exact ⟨drains, rfl, samples batches, reports _⟩

end

end Keypad

end Chip8
