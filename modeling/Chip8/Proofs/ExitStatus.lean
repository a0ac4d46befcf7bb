import Chip8.CommandLine.Session
import Chip8.Proofs.Accepted
import Chip8.Proofs.Accounting
import Chip8.Proofs.Frames
import Chip8.Proofs.PrintedLines
import Chip8.Proofs.WellFormed

/-! The status of a headless run. A run fails in four ways: its file cannot be read, the
file is empty or too large, or one of its cycles faults. Whichever it is, the error is
what the last line says, since its level is shown whatever level is in force. -/

set_option autoImplicit false

namespace Chip8

namespace Log

/-- What a line shows of its level, as wide for every level. -/
def Level.mark (level : Level) : List Char := ("[" ++ alignRight 8 level.name).toList

theorem Level.length_mark (level : Level) : level.mark.length = 9 := by
  cases level <;> rfl

theorem Level.mark_injective {a b : Level} (same : a.mark = b.mark) : a = b := by
  revert same
  cases a <;> cases b <;> decide

theorem Level.rank_le_critical (level : Level) : level.rank ≤ critical.rank := by
  cases level <;> decide

theorem Level.rank_le_info_iff (level : Level) :
    level.rank ≤ info.rank ↔ level = .debug ∨ level = .info := by
  cases level <;> decide

namespace Notice

theorem level_of_line {a b : Notice} (same : a.line = b.line) : a.level = b.level := by
  have parts (n : Notice) :
      n.line.toList = n.level.mark ++ ("][" ++ n.source ++ "] " ++ n.text).toList := by
    simp only [line, plainLine, Level.mark, String.toList_append, List.append_assoc]
  -- The sources and texts may differ in length, but the marks do not.
  have texts := congrArg String.toList same
  rw [parts, parts] at texts
  have length := a.level.length_mark.trans b.level.length_mark.symm
  exact Level.mark_injective (List.append_inj_left texts length)

section
variable {threshold : Level} {notices : List Notice} {n : Notice}

/-- A line is never printed below the level in force. -/
theorem rank_le_of_mem_lines (printed : n.line ∈ lines threshold notices) :
    threshold.rank ≤ n.level.rank := by
  obtain ⟨other, member, same⟩ := List.mem_map.mp printed
  rw [← level_of_line same]
  exact of_decide_eq_true (List.mem_filter.mp member).2

theorem getLast?_lines_concat_iff :
    (lines threshold (notices ++ [n])).getLast? = some n.line ↔ threshold.rank ≤ n.level.rank := by
  constructor
  · intro last
    exact rank_le_of_mem_lines (List.mem_of_getLast? last)
  · intro shows
    have kept : [n].filter (shown threshold) = [n] := List.filter_cons_of_pos (decide_eq_true shows)
    rw [lines, List.filter_append, kept, List.map_append]
    exact List.getLast?_concat

end

end Notice

end Log

namespace Machine

/-- A run has the outcome of its first cycle that does not go on. -/
theorem outcome_of_stopped {limit : Nat} {start m : Machine} (reached : m ∈ visited limit start)
    (stops : m.goesOn = false) : (cyclesUpTo limit start).2 = m.cycle.2 := by
  obtain ⟨-, -, all⟩ | ⟨earlier, last, visits, all, -, outcome⟩ := cyclesUpTo_ends limit start
  · rw [all m reached] at stops
    cases stops
  · rw [visits] at reached
    obtain before | only := List.mem_append.mp reached
    · rw [all m before] at stops
      cases stops
    · rw [List.mem_singleton.mp only]
      exact outcome

theorem goesOn_of_error {m : Machine} {e : Error} (fails : m.cycle.2 = .error e) :
    m.goesOn = false := by
  rw [goesOn, fails]
  rfl

/-- A run that raises an error raises that of a cycle. -/
theorem cycle_of_error {limit : Nat} {start : Machine} {e : Error}
    (fails : (cyclesUpTo limit start).2 = .error e) :
    ∃ m ∈ visited limit start, m.cycle.2 = .error e := by
  obtain ⟨running, -⟩ | ⟨earlier, last, visits, -, -, outcome⟩ := cyclesUpTo_ends limit start
  · rw [running] at fails
    cases fails
  · refine ⟨last, ?_, outcome.symm.trans fails⟩
    rw [visits]
    exact List.mem_append_right earlier (List.mem_singleton_self last)

theorem error_run_iff {limit : Int} {start : Machine} {e : Error} :
    (start.run (some limit)).2 = .error e ↔
      ∃ m ∈ visited limit.toNat start, m.cycle.2 = .error e := by
  have outcome : (start.run (some limit)).2 = (cyclesUpTo limit.toNat start).2 :=
    outcome_run start (some limit)
  rw [outcome]
  constructor
  · exact cycle_of_error
  · rintro ⟨m, reached, fails⟩
    rw [outcome_of_stopped reached (goesOn_of_error fails), fails]

end Machine

namespace CommandLine

/-- A run without a window, of a given number of cycles, whose seed and file name are ones
that can be used. -/
structure Headless (rom : String) (settings : Settings) (count : Int) : Prop where
  headless : settings.headless = true
  counted : settings.cycles = some count
  seed : -0x8000000000000000 ≤ settings.seed ∧ settings.seed < 0x8000000000000000
  name : rom.contains '\x00' = false

/-- The machine with which a run of the program begins. Nothing is ever pressed on it. -/
def Boots (settings : Settings) (program : Files.Contents) (start : Machine) : Prop :=
  program ≠ [] ∧ ∃ key loaded, Random.Key.ofSeed? settings.seed = some key ∧
    (State.initial key (if settings.modern then .modern else .classic)).loadProgram program =
      .ok loaded ∧
    Machine.create loaded settings.delay settings.rate [] = .ok start

/-- The class and the text of the error that ends a run of `count` cycles. A fault counts
if it comes in one of the cycles that the run gets to. -/
inductive Fatal (read : String → Except Files.OpenError Files.Contents) (rom : String)
    (settings : Settings) (count : Int) : String → String → Prop where
  | unreadable {e : Files.OpenError} (contents : read rom = .error e) :
      Fatal read rom settings count "RomLoadError"
        ("Could not read ROM '" ++ rom ++ "': " ++ e.message rom)
  | empty (contents : read rom = .ok []) :
      Fatal read rom settings count "RomLoadError" ("ROM '" ++ rom ++ "' is empty")
  | tooLarge {program : Files.Contents} (contents : read rom = .ok program)
      (large : 3584 < program.length) :
      Fatal read rom settings count "ProgramTooLargeError"
        ("Program of " ++ toString program.length ++
          " bytes does not fit in 3584 bytes of program memory")
  | fault {program : Files.Contents} {start m : Machine} {f : Fault}
      (contents : read rom = .ok program) (boots : Boots settings program start)
      (reached : m ∈ Machine.visited count.toNat start) (faults : m.cycle.2 = .error (.fault f)) :
      Fatal read rom settings count f.kind f.message

namespace Session

section
variable {read : String → Except Files.OpenError Files.Contents} {rom : String}
  {settings : Settings} {count : Int}

theorem key_of_headless (headless : Headless rom settings count) :
    ∃ key, Random.Key.ofSeed? settings.seed = some key := by
  have fits : TwosComplement.fitsInWord settings.seed = true := decide_eq_true headless.seed
  exact ⟨_, if_pos fits⟩

/-- Every error of loading is fatal but the one about the name. -/
theorem run_of_load_error (headless : Headless rom settings count) {e : Rom.Error}
    {notices : List Log.Notice} (named : e ≠ .nullInName)
    (fails : ∀ s : State, Rom.load read s rom = (notices, .error e)) :
    run read rom settings = (notices ++ [fatalNotice e.kind e.message], .status 1) := by
  obtain ⟨key, seeded⟩ := key_of_headless headless
  cases e with
  | nullInName => exact absurd rfl named
  | unreadable | empty | fault => simp only [run, seeded, fails]

/-- Before the file has been read there is nothing else to report. -/
theorem run_of_contents_error (headless : Headless rom settings count) {e : Rom.Error}
    (named : e ≠ .nullInName) (fails : Rom.contents read rom = .error e) :
    run read rom settings = ([fatalNotice e.kind e.message], .status 1) := by
  have loads (s : State) : Rom.load read s rom = ([], .error e) := by simp only [Rom.load, fails]
  exact run_of_load_error headless named loads

theorem runMachine_of_error {m : Machine} {limit : Option Int} {f : Fault}
    (fails : (m.run limit).2 = .error (.fault f)) :
    runMachine m limit =
      ((m.run limit).1.notices.toList ++ [fatalNotice f.kind f.message], .status 1) := by
  have ended : m.run limit = ((m.run limit).1, .error (.fault f)) := Prod.ext rfl fails
  unfold runMachine
  rw [ended]

theorem runMachine_of_ok {m : Machine} {limit : Option Int} {outcome : Outcome}
    (ends : (m.run limit).2 = .ok outcome) :
    runMachine m limit = ((m.run limit).1.notices.toList ++ [exitNotice], .status 0) := by
  have ended : m.run limit = ((m.run limit).1, .ok outcome) := Prod.ext rfl ends
  unfold runMachine
  rw [ended]

theorem contents_of_ok (headless : Headless rom settings count) {program : Files.Contents}
    (contents : read rom = .ok program) (nonempty : program ≠ []) :
    Rom.contents read rom = .ok program := by
  cases program with
  | nil => exact absurd rfl nonempty
  | cons first rest => simp [Rom.contents, headless.name, contents]

/-- What a machine that boots reports comes behind what loading it reported. -/
theorem run_of_boots (headless : Headless rom settings count) {program : Files.Contents}
    {start : Machine} (contents : read rom = .ok program) (boots : Boots settings program start) :
    ∃ earlier, ∀ {later ending}, runMachine start (some count) = (later, ending) →
      run read rom settings = (earlier ++ later, ending) := by
  obtain ⟨nonempty, key, loaded, seeded, loads, created⟩ := boots
  refine ⟨Rom.readNotice rom program.length :: State.loadNotices program, ?_⟩
  intro later ending runs
  simp only [run, seeded, Rom.load, contents_of_ok headless contents nonempty, loads, startMachine,
    openWindow, headless.headless, if_true, created, headless.counted, runs]

theorem run_of_fatal (headless : Headless rom settings count) {kind message : String}
    (fatal : Fatal read rom settings count kind message) :
    ∃ earlier, run read rom settings = (earlier ++ [fatalNotice kind message], .status 1) := by
  cases fatal with
  | @unreadable e contents =>
    have fails : Rom.contents read rom = .error (.unreadable rom e) := by
      simp [Rom.contents, headless.name, contents]
    have runs := run_of_contents_error headless (by simp) fails
    exact ⟨[], runs⟩
  | empty contents =>
    have fails : Rom.contents read rom = .error (.empty rom) := by
      simp [Rom.contents, headless.name, contents]
    have runs := run_of_contents_error headless (by simp) fails
    exact ⟨[], runs⟩
  | @tooLarge program contents large =>
    have nonempty : program ≠ [] := List.ne_nil_of_length_pos (by omega)
    have beyond : Memory.programStart + program.length > Memory.size := by
      change 0x200 + program.length > 4096
      omega
    -- That the file was read has been reported by then.
    have fails (s : State) : Rom.load read s rom =
        ([Rom.readNotice rom program.length],
          .error (.fault (.programTooLarge program.length))) := by
      simp only [Rom.load, contents_of_ok headless contents nonempty, State.loadProgram,
        if_pos beyond]
    have runs := run_of_load_error headless (by simp) fails
    exact ⟨_, runs⟩
  | fault contents boots reached faults =>
    obtain ⟨earlier, runs⟩ := run_of_boots headless contents boots
    have ends := runMachine_of_error (Machine.error_run_iff.mpr ⟨_, reached, faults⟩)
    rw [runs ends, ← List.append_assoc]
    exact ⟨_, rfl⟩

/-- A program that fits boots, with a rate and a delay that a clock accepts. -/
theorem boots_of_fits (headless : Headless rom settings count) (drivable : settings.Drivable)
    {program : Files.Contents} (nonempty : program ≠ []) (fits : program.length ≤ 3584) :
    ∃ start, Boots settings program start := by
  obtain ⟨key, seeded⟩ := key_of_headless headless
  let initial := State.initial key (if settings.modern then .modern else .classic)
  obtain ⟨start, created⟩ := drivable.create
    { initial with memory := initial.memory.write Memory.programStart program } []
  exact ⟨start, nonempty, key, _, seeded, initial.loadProgram_of_fits fits, created⟩

theorem run_of_not_fatal (headless : Headless rom settings count) (drivable : settings.Drivable)
    (timed : ∀ program start, read rom = .ok program → Boots settings program start →
      ∀ m ∈ Machine.visited count.toNat start, m.Timed)
    (sound : ¬ ∃ kind message, Fatal read rom settings count kind message) :
    ∃ earlier, run read rom settings = (earlier ++ [exitNotice], .status 0) := by
  cases contents : read rom with
  | error e => exact absurd ⟨_, _, .unreadable contents⟩ sound
  | ok program =>
  have nonempty : program ≠ [] := by
    rintro rfl
    exact sound ⟨_, _, .empty contents⟩
  have fits : program.length ≤ 3584 :=
    Nat.le_of_not_lt fun large => sound ⟨_, _, .tooLarge contents large⟩
  obtain ⟨start, boots⟩ := boots_of_fits headless drivable nonempty fits
  obtain ⟨earlier, runs⟩ := run_of_boots headless contents boots
  -- A run that ends in an error has it from one of its cycles, where it is fatal or the clock's.
  cases outcome : (start.run (some count)).2 with
  | ok ended =>
    rw [runs (runMachine_of_ok outcome), ← List.append_assoc]
    exact ⟨_, rfl⟩
  | error e =>
    obtain ⟨m, reached, fails⟩ := Machine.error_run_iff.mp outcome
    cases e with
    | fault f => exact absurd ⟨_, _, .fault contents boots reached fails⟩ sound
    | arithmetic e => exact absurd fails (timed program start contents boots m reached e)

end

theorem line_fatalNotice (kind message : String) :
    (fatalNotice kind message).line = "[CRITICAL][chip8vm] " ++ kind ++ ": " ++ message := by
  have head : "[" ++ Log.alignRight 8 "CRITICAL" ++ "][" ++ "chip8vm" ++ "] " =
      "[CRITICAL][chip8vm] " := rfl
  calc (fatalNotice kind message).line
      = "[" ++ Log.alignRight 8 "CRITICAL" ++ "][" ++ "chip8vm" ++ "] " ++
          (kind ++ ": " ++ message) := rfl
    _ = "[CRITICAL][chip8vm] " ++ kind ++ ": " ++ message := by
      rw [head]
      simp only [String.append_assoc]

/-- The status is 1 exactly if something is fatal, and then the last line printed names the
error, at every level. Otherwise it is 0, and the last line says so at the levels that show
information. The shared loggers, whatever they were asked for before the level was set, print
these lines behind their times. -/
theorem status_tells_outcome {read : String → Except Files.OpenError Files.Contents}
    {arguments : List String} {rom : String} {settings : Settings} {count : Int}
    (accepted : Request.parse arguments = .ok (.run rom settings))
    (headless : Headless rom settings count)
    (timed : ∀ program start, read rom = .ok program → Boots settings program start →
      ∀ m ∈ Machine.visited count.toNat start, m.Timed) :
    let session := ofArguments read arguments
    (session.ending = .status 1 ↔ ∃ kind message, Fatal read rom settings count kind message) ∧
    (∀ kind message, Fatal read rom settings count kind message →
      session.lines.getLast? = some ("[CRITICAL][chip8vm] " ++ kind ++ ": " ++ message)) ∧
    ((¬ ∃ kind message, Fatal read rom settings count kind message) →
      session.ending = .status 0 ∧
      (session.lines.getLast? = some "[    INFO][chip8vm] Exiting" ↔
        settings.level = .debug ∨ settings.level = .info)) ∧
    ∀ times requests, Log.Console.inForce .info requests = settings.level →
      List.Forall₂ Log.Console.Stamped
        (((Log.Console.fresh false times).after requests).sayAll session.notices)
        session.lines := by
  intro session
  have same : session =
      ⟨settings.level, (run read rom settings).1, (run read rom settings).2⟩ := by
    simp only [session, ofArguments, accepted]
  have sound := run_of_not_fatal headless (Settings.drivable_of_parse accepted) timed
  refine ⟨?_, ?_, ?_, ?_⟩
  · constructor
    · intro status
      refine Classical.byContradiction fun none => ?_
      obtain ⟨earlier, runs⟩ := sound none
      rw [same, runs] at status
      cases status
    · rintro ⟨kind, message, fatal⟩
      obtain ⟨earlier, runs⟩ := run_of_fatal headless fatal
      rw [same, runs]
  · intro kind message fatal
    obtain ⟨earlier, runs⟩ := run_of_fatal headless fatal
    rw [same, runs, ← line_fatalNotice]
    exact Log.Notice.getLast?_lines_concat_iff.mpr settings.level.rank_le_critical
  · intro none
    obtain ⟨earlier, runs⟩ := sound none
    rw [same, runs, ← Log.Level.rank_le_info_iff]
    exact ⟨rfl, Log.Notice.getLast?_lines_concat_iff⟩
  · intro times requests level
    have inStep := (Log.Console.inStep_fresh false times).after requests
    have piped := (Log.Console.piped_fresh times).after requests
    rw [level] at inStep
    rw [same]
    exact Log.Console.sayAll_stamped inStep piped _

/-- A program that returns to nowhere. -/
def returning : Files.Contents := [0x00, 0xEE]

/-- A run that is to take three cycles and shows errors only. It fails in its first cycle. -/
theorem status_tells_outcome_returning :
    let read : String → Except Files.OpenError Files.Contents := fun _ => .ok returning
    let session := ofArguments read
      ["game.ch8", "--headless", "--cycles", "3", "--log-level", "error"]
    let console := (Log.Console.fresh false [0.0, 1.5]).after
      [.get "chip8vm", .setLogLevel "error"]
    session.ending = .status 1 ∧ session.lines.getLast? =
      some "[CRITICAL][chip8vm] StackUnderflowError: Return with empty call stack" ∧
    List.Forall₂ Log.Console.Stamped (console.sayAll session.notices) session.lines := by
  intro read session console
  let settings : Settings :=
    { Settings.default with headless := true, cycles := some 3, level := .error }
  let initial := State.initial ⟨0, 0⟩ .classic
  let start : Machine := Machine.started
    { initial with memory := initial.memory.write Memory.programStart returning } []
  have accepted :
      Request.parse ["game.ch8", "--headless", "--cycles", "3", "--log-level", "error"] =
        .ok (.run "game.ch8" settings) := rfl
  have headless : Headless "game.ch8" settings 3 := ⟨rfl, rfl, by decide, by simp⟩
  have timed : ∀ program machine, read "game.ch8" = .ok program →
      Boots settings program machine → ∀ m ∈ Machine.visited 3 machine, m.Timed := by
    rintro program machine contents ⟨-, key, loaded, seeded, loads, created⟩
    cases contents
    cases seeded
    cases loads
    cases created
    decide +kernel
  have fatal : Fatal read "game.ch8" settings 3 "StackUnderflowError"
      "Return with empty call stack" :=
    .fault (m := start) (f := .stackEmpty) rfl ⟨by decide, _, _, rfl, rfl, rfl⟩ (.head _)
      (by decide +kernel)
  obtain ⟨status, last, -, printed⟩ := status_tells_outcome accepted headless timed
  exact ⟨status.mpr ⟨_, _, fatal⟩, last _ _ fatal, printed _ _ rfl⟩

end Session

end CommandLine

end Chip8
