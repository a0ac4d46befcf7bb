import Chip8.Log.Console

/-! The level of the shared loggers. It is kept twice, with the console for the loggers to
come and with every shared logger, and the two agree at any time: on the level that was
accepted last, whenever the loggers were made and whatever was refused meanwhile. -/

set_option autoImplicit false

namespace Chip8.Log

namespace Level

@[simp] theorem upper_name (level : Level) : Text.upper level.name = level.name := by
  cases level <;> rfl

theorem ofName?_eq_some_iff {name : String} {level : Level} :
    ofName? name = some level ↔ name = level.name := by
  constructor
  · intro found
    have same := List.find?_some found
    exact (beq_iff_eq.mp same).symm
  · rintro rfl
    cases level <;> rfl

@[simp] theorem ofName?_name (level : Level) : ofName? level.name = some level :=
  ofName?_eq_some_iff.mpr rfl

theorem ofName?_eq_none_iff {name : String} :
    ofName? name = none ↔ name ∉ ["DEBUG", "INFO", "WARNING", "ERROR", "CRITICAL"] := by
  have names : ["DEBUG", "INFO", "WARNING", "ERROR", "CRITICAL"] = all.map Level.name := rfl
  rw [names, ofName?, List.find?_eq_none, List.mem_map]
  simp

@[simp] theorem rankOf_name (level : Level) : rankOf level.name = level.rank := by
  simp [rankOf]

theorem parse_eq (text : String) :
    parse text =
      match ofName? (Text.upper text) with
      | some level => .ok level
      | none => .error ⟨Text.upper text⟩ :=
  rfl

@[simp] theorem parse_name (level : Level) : parse level.name = .ok level := by
  simp [parse_eq]

end Level

namespace Console

/-- What is asked of the shared loggers. -/
inductive Request where
  | get (name : String)
  | setLogLevel (level : String)
  | log (index : Nat) (level text : String)
  deriving DecidableEq, Repr

/-- Sets the level of some loggers one after the other. A refusal leaves the loggers before
it with the new level and the others with the old one. -/
def setInTurn (level : String) : List Nat → Console → Console × Except UnknownLevel Unit
  | [], c => (c, .ok ())
  | index :: rest, c =>
      match c.setLevel index level with
      | .error u => (c, .error u)
      | .ok next => setInTurn level rest next

/-- The level of some loggers set without asking. -/
def assignAll (level : Level) (indices : List Nat) (c : Console) : Console :=
  indices.foldl (fun c index => c.assign index level) c

/-- The same change of level as `setLogLevel`, with all its intermediate states: first the
level of the loggers to come, then that of each shared logger. -/
def changeLevel (c : Console) (text : String) : Console × Except UnknownLevel Unit :=
  match Level.parse text with
  | .error u => (c, .error u)
  | .ok level => setInTurn level.name (c.shared.map Prod.snd) { c with defaultLevel := level }

def serve (c : Console) : Request → Console
  | .get name => (c.get name).2
  | .setLogLevel text => (c.changeLevel text).1
  | .log index level text => (c.log index level text).2

/-- The console after some requests. -/
def after (c : Console) (requests : List Request) : Console := requests.foldl serve c

/-- The level that a request puts in force. -/
def Request.level? : Request → Option Level
  | .setLogLevel text => Level.ofName? (Text.upper text)
  | .get _ | .log .. => none

/-- The level accepted last, if one was. -/
def inForce (start : Level) (requests : List Request) : Level :=
  (requests.filterMap Request.level?).getLast?.getD start

/-- Every shared logger is there and has a property, which may depend on the logger's name. -/
def AllShared (c : Console) (p : String → Logger → Prop) : Prop :=
  ∀ name index, (name, index) ∈ c.shared → ∃ logger, c.loggers[index]? = some logger ∧ p name logger

/-- The loggers to come and every shared logger have the level. -/
structure InStep (c : Console) (level : Level) : Prop where
  coming : c.defaultLevel = level
  shared : ∀ name index, (name, index) ∈ c.shared →
    ∃ logger, c.loggers[index]? = some logger ∧ logger.name = name ∧ logger.level = level.name

section
variable {c : Console} {level start : Level} {name : String} {index : Nat}
  {p q : String → Logger → Prop}

theorem inForce_cons (start : Level) (request : Request) (rest : List Request) :
    inForce start (request :: rest) = inForce (request.level?.getD start) rest := by
  cases named : request.level? with
  | none => simp [inForce, named]
  | some level => simp [inForce, named, List.getLast?_cons]

theorem inForce_concat (start : Level) (requests : List Request) (request : Request) :
    inForce start (requests ++ [request]) = request.level?.getD (inForce start requests) := by
  cases named : request.level? with
  | none => simp [inForce, named]
  | some level => simp [inForce, named]

theorem setInTurn_name (level : Level) (indices : List Nat) (c : Console) :
    setInTurn level.name indices c = (assignAll level indices c, .ok ()) := by
  induction indices generalizing c with
  | nil => rfl
  | cons index rest ih =>
    have set : c.setLevel index level.name = .ok (c.assign index level) := by
      rw [setLevel, Level.parse_name]
      rfl
    rw [setInTurn, set]
    exact ih (c.assign index level)

/-- No change of level breaks off. -/
theorem changeLevel_eq (c : Console) (text : String) :
    c.changeLevel text =
      match c.setLogLevel text with
      | .ok changed => (changed, .ok ())
      | .error u => (c, .error u) := by
  unfold changeLevel setLogLevel
  cases Level.parse text with
  | error u => rfl
  | ok level =>
    change setInTurn level.name _ _ = _
    rw [setInTurn_name, assignAll, List.foldl_map]
    rfl

theorem assignAll_eq (level : Level) (indices : List Nat) (c : Console) :
    assignAll level indices c = { c with loggers := (assignAll level indices c).loggers } := by
  induction indices generalizing c with
  | nil => rfl
  | cons index rest ih => exact ih (c.assign index level)

theorem loggers_assignAll (level : Level) (indices : List Nat) (c : Console) (k : Nat) :
    (assignAll level indices c).loggers[k]? =
      c.loggers[k]?.map fun l => if k ∈ indices then { l with level := level.name } else l := by
  induction indices generalizing c with
  | nil => simp [assignAll]
  | cons index rest ih =>
    change (assignAll level rest (c.assign index level)).loggers[k]? = _
    rw [ih, assign, Array.getElem?_modify]
    by_cases same : index = k
    · subst same
      rw [if_pos rfl, Option.map_map]
      congr 1
      funext l
      simp
    · rw [if_neg same]
      congr 1
      funext l
      simp [Ne.symm same]

theorem changeLevel_of_known {text : String} (known : Text.upper text = level.name) :
    c.changeLevel text =
      (assignAll level (c.shared.map Prod.snd) { c with defaultLevel := level }, .ok ()) := by
  rw [changeLevel, Level.parse_eq, known, Level.ofName?_name]
  exact setInTurn_name level _ _

theorem changeLevel_of_unknown {text : String} (unknown : Level.ofName? (Text.upper text) = none) :
    c.changeLevel text = (c, .error ⟨Text.upper text⟩) := by
  rw [changeLevel, Level.parse_eq, unknown]

theorem inStep_fresh (terminal : Bool) (times : List Float) : (fresh terminal times).InStep .info :=
  ⟨rfl, nofun⟩

/-- What becomes of the shared loggers when their level is changed. -/
theorem AllShared.changeLevel {text : String} (all : c.AllShared p)
    (known : Text.upper text = level.name)
    (set : ∀ name l, p name l → q name { l with level := level.name }) :
    (c.changeLevel text).1.AllShared q := by
  rw [changeLevel_of_known known]
  intro name index member
  rw [assignAll_eq] at member
  obtain ⟨logger, found, holds⟩ := all name index member
  have listed : index ∈ c.shared.map Prod.snd := List.mem_map_of_mem member
  refine ⟨{ logger with level := level.name }, ?_, set name logger holds⟩
  rw [loggers_assignAll]
  simp only [found, listed, if_true, Option.map_some]

/-- Whatever level the loggers had before. -/
theorem InStep.changeLevel {text : String} (inStep : c.InStep start)
    (known : Text.upper text = level.name) : (c.changeLevel text).1.InStep level where
  coming := by rw [changeLevel_of_known known, assignAll_eq]
  shared := AllShared.changeLevel inStep.shared known fun _ _ holds => ⟨holds.1, rfl⟩

theorem readTime_snd (c : Console) : ∃ times, c.readTime.2 = { c with times } := by
  unfold readTime
  split
  · exact ⟨c.times, rfl⟩
  · exact ⟨c.times, rfl⟩
  · exact ⟨_, rfl⟩

theorem create_eq (c : Console) (name text : String) (colored timestamped : Bool) :
    ∃ start times, c.create name text colored timestamped =
      (c.loggers.size, { c with
        loggers := c.loggers.push
          ⟨name, Text.upper text, colored && c.terminal, timestamped, start⟩
        times }) := by
  obtain ⟨times, told⟩ := c.readTime_snd
  refine ⟨c.readTime.1, times, ?_⟩
  simp only [create, told]

theorem get_of_lookup (found : c.shared.lookup name = some index) : c.get name = (index, c) := by
  rw [get, found]

/-- A logger that is not there yet gets the level of the loggers to come. -/
theorem get_of_absent (absent : c.shared.lookup name = none) :
    ∃ start times, c.get name = (c.loggers.size, { c with
      loggers := c.loggers.push ⟨name, c.defaultLevel.name, c.terminal, true, start⟩
      shared := c.shared ++ [(name, c.loggers.size)]
      times }) := by
  obtain ⟨start, times, created⟩ := c.create_eq name c.defaultLevel.name true true
  refine ⟨start, times, ?_⟩
  rw [get, absent, created, Level.upper_name, Bool.true_and]

/-- A logger that is made has the level of the loggers to come. -/
theorem AllShared.get (all : c.AllShared p) (name : String)
    (made : ∀ start, p name ⟨name, c.defaultLevel.name, c.terminal, true, start⟩) :
    (c.get name).2.AllShared p := by
  cases found : c.shared.lookup name with
  | some index =>
    rw [get_of_lookup found]
    exact all
  | none =>
    obtain ⟨start, times, created⟩ := get_of_absent found
    rw [created]
    intro other index member
    -- The new logger stands behind the others, which keep their places.
    rcases List.mem_append.mp member with before | new
    · obtain ⟨old, present, holds⟩ := all other index before
      have bound := (Array.getElem?_eq_some_iff.mp present).1
      refine ⟨old, ?_, holds⟩
      rw [Array.getElem?_push_lt bound, ← Array.getElem?_eq_getElem bound, present]
    · obtain ⟨rfl, rfl⟩ := Prod.mk.inj (List.mem_singleton.mp new)
      exact ⟨_, Array.getElem?_push_size, made start⟩

theorem get_keeps (c : Console) (name : String) :
    (c.get name).2.defaultLevel = c.defaultLevel ∧ (c.get name).2.terminal = c.terminal := by
  cases found : c.shared.lookup name with
  | some index =>
    rw [get_of_lookup found]
    exact ⟨rfl, rfl⟩
  | none =>
    obtain ⟨start, times, created⟩ := get_of_absent found
    rw [created]
    exact ⟨rfl, rfl⟩

theorem InStep.get (inStep : c.InStep level) (name : String) : (c.get name).2.InStep level where
  coming := (c.get_keeps name).1.trans inStep.coming
  shared := AllShared.get inStep.shared name fun _ => ⟨rfl, congrArg Level.name inStep.coming⟩

theorem log_snd (c : Console) (index : Nat) (level text : String) :
    ∃ times, (c.log index level text).2 = { c with times } := by
  unfold log
  cases c.loggers[index]? with
  | none => exact ⟨c.times, rfl⟩
  | some logger =>
    by_cases shown : logger.shows level = true
    · by_cases timed : logger.timestamped = true
      · obtain ⟨times, told⟩ := c.readTime_snd
        exact ⟨times, by simp [shown, timed, told]⟩
      · exact ⟨c.times, by simp [shown, timed]⟩
    · exact ⟨c.times, by simp [shown]⟩

theorem log_isSome {logger : Logger} (found : c.loggers[index]? = some logger)
    (level text : String) : (c.log index level text).1.isSome = logger.shows level := by
  rw [log, found]
  cases shown : logger.shows level <;> simp [shown]

theorem lookup_get (c : Console) (name : String) :
    (c.get name).2.shared.lookup name = some (c.get name).1 := by
  cases found : c.shared.lookup name with
  | some index =>
    rw [get_of_lookup found]
    exact found
  | none =>
    obtain ⟨start, times, created⟩ := get_of_absent found
    rw [created]
    simp [List.lookup_append, found]

theorem mem_shared_get (c : Console) (name : String) :
    (name, (c.get name).1) ∈ (c.get name).2.shared := by
  obtain ⟨before, after, split, -⟩ := List.lookup_eq_some_iff.mp (c.lookup_get name)
  rw [split]
  simp

theorem InStep.serve (inStep : c.InStep start) (request : Request) :
    (c.serve request).InStep (request.level?.getD start) := by
  cases request with
  | get name => exact inStep.get name
  | setLogLevel text =>
    change (c.changeLevel text).1.InStep ((Level.ofName? (Text.upper text)).getD start)
    cases named : Level.ofName? (Text.upper text) with
    | none =>
      rw [changeLevel_of_unknown named]
      exact inStep
    | some level => exact inStep.changeLevel (Level.ofName?_eq_some_iff.mp named)
  | log index level text =>
    obtain ⟨times, logged⟩ := c.log_snd index level text
    change (c.log index level text).2.InStep start
    rw [logged]
    exact ⟨inStep.coming, inStep.shared⟩

theorem InStep.after (inStep : c.InStep start) (requests : List Request) :
    (c.after requests).InStep (inForce start requests) := by
  induction requests generalizing c start with
  | nil => exact inStep
  | cons request rest ih =>
    rw [inForce_cons]
    exact ih (inStep.serve request)

/-- A name keeps its logger, since names are only ever added. -/
theorem lookup_serve (found : c.shared.lookup name = some index) (request : Request) :
    (c.serve request).shared.lookup name = some index := by
  cases request with
  | get other =>
    change (c.get other).2.shared.lookup name = some index
    cases known : c.shared.lookup other with
    | some _ =>
      rw [get_of_lookup known]
      exact found
    | none =>
      obtain ⟨start, times, created⟩ := get_of_absent known
      rw [created]
      simp [List.lookup_append, found]
  | setLogLevel text =>
    change (c.changeLevel text).1.shared.lookup name = some index
    cases named : Level.ofName? (Text.upper text) with
    | none =>
      rw [changeLevel_of_unknown named]
      exact found
    | some level =>
      rw [changeLevel_of_known (Level.ofName?_eq_some_iff.mp named), assignAll_eq]
      exact found
  | log index level text =>
    obtain ⟨times, logged⟩ := c.log_snd index level text
    change (c.log index level text).2.shared.lookup name = _
    rw [logged]
    exact found

theorem lookup_after (found : c.shared.lookup name = some index) (requests : List Request) :
    (c.after requests).shared.lookup name = some index := by
  induction requests generalizing c with
  | nil => exact found
  | cons request rest ih => exact ih (lookup_serve found request)

theorem InStep.log_isSome_iff {known : Level} {text written : String} (inStep : c.InStep level)
    (member : (name, index) ∈ c.shared) (named : Text.upper text = known.name) :
    (c.log index text written).1.isSome = true ↔ level.rank ≤ known.rank := by
  obtain ⟨logger, found, -, leveled⟩ := inStep.shared name index member
  rw [log_isSome found, Logger.shows, leveled, named]
  simp

end

/-- The shared loggers from any point on at which they have the level of the loggers to come.
The parts are about the loggers at any later point, about a change of level whole and in
its steps, about a logger that is asked for, about a change that is accepted and one that is
refused, and about what is printed. -/
theorem levels_in_step {c : Console} {start : Level} (begins : c.InStep start)
    (requests : List Request) :
    let reached := c.after requests
    let current := inForce start requests
    reached.InStep current ∧
    (∀ text, reached.changeLevel text =
      match reached.setLogLevel text with
      | .ok changed => (changed, .ok ())
      | .error u => (reached, .error u)) ∧
    (∀ name, ∃ index logger, (reached.get name).1 = index ∧
      (reached.get name).2.loggers[index]? = some logger ∧ logger.name = name ∧
      logger.level = current.name ∧
      ∀ later, let last := (reached.get name).2.after later
        last.get name = (index, last)) ∧
    (∀ text, Text.upper text ∈ ["DEBUG", "INFO", "WARNING", "ERROR", "CRITICAL"] →
      (reached.changeLevel text).2 = .ok () ∧
      (inForce start (requests ++ [.setLogLevel text])).name = Text.upper text) ∧
    (∀ text, Text.upper text ∉ ["DEBUG", "INFO", "WARNING", "ERROR", "CRITICAL"] →
      reached.changeLevel text = (reached, .error ⟨Text.upper text⟩) ∧
      inForce start (requests ++ [.setLogLevel text]) = current) ∧
    ∀ name index, (name, index) ∈ reached.shared →
      ∀ (known : Level) text written, Text.upper text = known.name →
        ((reached.log index text written).1.isSome = true ↔ current.rank ≤ known.rank) := by
  intro reached current
  have inStep : reached.InStep current := begins.after requests
  refine ⟨inStep, reached.changeLevel_eq, ?_, ?_, ?_, ?_⟩
  · intro name
    obtain ⟨logger, present, named, leveled⟩ :=
      (inStep.get name).shared _ _ (reached.mem_shared_get name)
    refine ⟨_, logger, rfl, present, named, leveled, ?_⟩
    intro later
    exact get_of_lookup (lookup_after (reached.lookup_get name) later)
  · intro text accepted
    cases named : Level.ofName? (Text.upper text) with
    | none => exact absurd accepted (Level.ofName?_eq_none_iff.mp named)
    | some level =>
      have known := Level.ofName?_eq_some_iff.mp named
      rw [changeLevel_of_known known, inForce_concat]
      refine ⟨rfl, ?_⟩
      simp only [Request.level?, named, Option.getD_some]
      exact known.symm
  · intro text refused
    have unknown := Level.ofName?_eq_none_iff.mpr refused
    refine ⟨changeLevel_of_unknown unknown, ?_⟩
    rw [inForce_concat]
    simp only [Request.level?, unknown, Option.getD_none]
    rfl
  · intro name index member known text written named
    exact inStep.log_isSome_iff member named

/-- A logger from before a change and one from after it, and a change that is refused. -/
theorem levels_in_step_mixed :
    let begun := fresh false []
    let requests : List Request :=
      [.get "first", .setLogLevel "error", .setLogLevel "loud", .get "second"]
    let reached := begun.after requests
    begun.InStep .info ∧ reached.InStep .error ∧
      reached.changeLevel "loud" = (reached, .error ⟨"LOUD"⟩) ∧
      (((reached.get "third").2.after [.get "fourth", .setLogLevel "debug"]).get "third").1 = 2 ∧
      ("second", 1) ∈ reached.shared ∧ (reached.log 1 "warning" "hidden").1 = none ∧
      (reached.log 0 "error" "shown").1.isSome = true := by
  intro begun requests reached
  have begins : begun.InStep .info := inStep_fresh false []
  obtain ⟨inStep, -, asked, -, refused, printed⟩ := levels_in_step begins requests
  obtain ⟨index, -, third, -, -, -, again⟩ := asked "third"
  have unknown : Text.upper "loud" ∉ ["DEBUG", "INFO", "WARNING", "ERROR", "CRITICAL"] := by
    decide +kernel
  have old : ("first", 0) ∈ reached.shared := by decide +kernel
  have new : ("second", 1) ∈ reached.shared := by decide +kernel
  have hidden := printed "second" 1 new .warning "warning" "hidden" (by rfl)
  have shown := printed "first" 0 old .error "error" "shown" (by rfl)
  refine ⟨begins, inStep, (refused "loud" unknown).1, ?_, new, ?_, shown.mpr (by decide +kernel)⟩
  · have made : (reached.get "third").1 = 2 := by decide +kernel
    rw [again [.get "fourth", .setLogLevel "debug"], ← third, made]
  · exact Option.not_isSome_iff_eq_none.mp (mt hidden.mp (by decide +kernel))

end Console

end Chip8.Log
