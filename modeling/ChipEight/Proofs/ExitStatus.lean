import ChipEight.Proofs.Confining
import ChipEight.Proofs.Reachable
import Mathlib.Control.Traversable.Instances
import Mathlib.Data.List.TakeDrop

/-!
The status of the program says what it came to, and whatever was opened for its session has been
closed again.
-/

namespace ChipEight

/-! ### Settings -/

theorem Implementation.ofName?_name (i : Implementation) : ofName? i.name = some i := by
  cases i <;> decide

namespace Proposal

theorem rate_of_nonpos (setting : String) {n : Int} (low : n ≤ 0) :
    rate setting (.whole n) = .error (.rateNotPositive setting (.whole n)) := by
  have below : Number.whole n ≤ .whole 0 := Number.whole_le_whole.mpr low
  simp [rate, Value.toNumber?, below]

theorem rate_of_pos (setting : String) {n : Int} (positive : 0 < n) :
    ∃ frequency, rate setting (.whole n) = .ok frequency := by
  have above : ¬ Number.whole n ≤ .whole 0 := by
    rw [Number.whole_le_whole]
    omega
  simp [rate, Value.toNumber?, above]

end Proposal

namespace Options

variable {o : Options} {cps fps : Int}

theorem settings_of_refused (cycles : o.cyclesPerSecond = some cps)
    (frames : o.frameRate = some fps) (refused : o.implementation = none ∨ cps ≤ 0 ∨ fps ≤ 0) :
    ∃ failure, o.settings = .error (.settings failure) := by
  unfold settings Proposal.paced
  simp only [cycles, frames, numberValue, implementationValue]
  cases named : o.implementation with
  | none => exact ⟨_, rfl⟩
  | some i =>
    simp only [Implementation.ofValue?, Implementation.ofName?_name]
    by_cases slow : cps ≤ 0
    · rw [Proposal.rate_of_nonpos _ slow]
      exact ⟨_, rfl⟩
    · have still : fps ≤ 0 := by simpa [named, slow] using refused
      obtain ⟨cycle, cycling⟩ := Proposal.rate_of_pos "cycles_per_second" (Int.not_le.mp slow)
      rw [cycling, Proposal.rate_of_nonpos _ still]
      exact ⟨_, rfl⟩

theorem settings_of_accepted (cycles : o.cyclesPerSecond = some cps)
    (frames : o.frameRate = some fps) (accepted : ¬ (o.implementation = none ∨ cps ≤ 0 ∨ fps ≤ 0)) :
    ∃ settings, o.settings = .ok settings := by
  rw [not_or, not_or, Int.not_le, Int.not_le] at accepted
  obtain ⟨named, cycling, framing⟩ := accepted
  obtain ⟨i, named⟩ := Option.ne_none_iff_exists'.mp named
  obtain ⟨cycle, cycling⟩ := Proposal.rate_of_pos "cycles_per_second" cycling
  obtain ⟨frame, framing⟩ := Proposal.rate_of_pos "frame_rate" framing
  simp only [settings, Proposal.paced, implementationValue, named, Implementation.ofValue?,
    Implementation.ofName?_name, cycles, frames, numberValue, cycling, framing]
  exact ⟨_, rfl⟩

end Options

/-! ### Program files -/

namespace Rom

/-- The file cannot be read, or it is empty or longer than the memory behind the place where
programs start. -/
def Unavailable (reading : Except FileProblem (List UInt8)) : Prop :=
  (∃ problem, reading = .error problem) ∨
    ∃ content, reading = .ok content ∧ (content = [] ∨ 4096 - 0x200 < content.length)

variable {path : String} {reading : Except FileProblem (List UInt8)} {content : List UInt8}

theorem problem?_eq_none_iff :
    problem? content = none ↔ content ≠ [] ∧ content.length ≤ maxRomSize := by
  unfold problem?
  split
  · simp [*]
  · split <;> simp [*]
    omega

theorem ofFile_of_unavailable (plain : '\x00' ∉ path.toList) (unavailable : Unavailable reading) :
    ∃ problem, ofFile path reading = .error (.romUnavailable path problem) := by
  unfold ofFile
  rw [if_neg plain]
  rcases unavailable with ⟨problem, rfl⟩ | ⟨content, rfl, bad⟩
  · exact ⟨_, rfl⟩
  · cases found : problem? content with
    | some problem => exact ⟨problem, by simp only [found]⟩
    | none =>
      obtain ⟨nonempty, fits⟩ := problem?_eq_none_iff.mp found
      rcases bad with empty | long
      · exact absurd empty nonempty
      · exact absurd long (Nat.not_lt.mpr fits)

theorem ofFile_eq_ok_iff :
    ofFile path reading = .ok content ↔
      '\x00' ∉ path.toList ∧ reading = .ok content ∧ content ≠ [] ∧
        content.length ≤ maxRomSize := by
  rw [← problem?_eq_none_iff]
  unfold ofFile
  split
  · simp [*]
  · rename_i plain
    cases reading with
    | error problem => simp
    | ok found =>
      cases bad : problem? found with
      | some problem =>
        refine ⟨fun same => ?_, fun ⟨_, same, good⟩ => ?_⟩
        · simp only [bad] at same
          cases same
        · cases same
          rw [bad] at good
          cases good
      | none =>
        simp only [bad]
        refine ⟨fun same => ?_, fun ⟨_, same, _⟩ => congrArg Except.ok (Except.ok.inj same)⟩
        cases same
        exact ⟨plain, rfl, bad⟩

theorem available_iff : ¬ Unavailable reading ↔
    ∃ content, reading = .ok content ∧ content ≠ [] ∧ content.length ≤ maxRomSize := by
  cases reading with
  | error problem => simp [Unavailable]
  | ok content => simp [Unavailable, maxRomSize, memorySize, romStart]

theorem ofFile_ne_ok_of_long (path : String) (long : 4096 - 0x200 < content.length)
    {program : List UInt8} : ofFile path (.ok content) ≠ .ok program := by
  intro given
  obtain ⟨_, same, _, fits⟩ := ofFile_eq_ok_iff.mp given
  cases same
  exact absurd long (Nat.not_lt.mpr fits)

end Rom

namespace Machine.Reachable

variable {m : Machine}

theorem loads_from_file (reachable : Reachable m) {path : String}
    {reading : Except FileProblem (List UInt8)} {program : List UInt8}
    (given : Rom.ofFile path reading = .ok program) :
    ∃ loaded, loadRom program m = .ok ⟨⟩ loaded :=
  ⟨_, loadRom_of_fits reachable.inRange.memory (Rom.ofFile_eq_ok_iff.mp given).2.2.2⟩

theorem rejects_long (reachable : Reachable m) {content : List UInt8}
    (long : 4096 - 0x200 < content.length) :
    ∃ failure left, loadRom content m = .error failure left :=
  ⟨_, _, loadRom_of_long reachable.inRange.memory (Nat.not_le.mpr long)⟩

end Machine.Reachable

namespace Program

variable {w : Surroundings} {path : String} {patience limit : Nat}

theorem load_of_unavailable (settings : Settings) (plain : '\x00' ∉ path.toList)
    (bad : Rom.Unavailable (w.read path)) :
    ∃ problem, load w settings path = .error (.romUnavailable path problem) := by
  obtain ⟨problem, refused⟩ := Rom.ofFile_of_unavailable plain bad
  exact ⟨problem, by rw [load, refused]; rfl⟩

theorem load_of_available (settings : Settings) (plain : '\x00' ∉ path.toList)
    (good : ¬ Rom.Unavailable (w.read path)) : ∃ m, load w settings path = .ok m := by
  obtain ⟨content, read, nonempty, fits⟩ := Rom.available_iff.mp good
  have given : Rom.ofFile path (w.read path) = .ok content :=
    Rom.ofFile_eq_ok_iff.mpr ⟨plain, read, nonempty, fits⟩
  have loaded := Machine.loadRom_of_fits (Machine.InRange.new settings w.random).memory fits
  simp only [load, given, bind, Except.bind, loaded]
  exact ⟨_, rfl⟩

/-! ### Preparations -/

section Preparing

variable {arguments : List String} {options : Options} {settings : Settings}

theorem prepare_of_refused (accepted : Options.ofArguments arguments = .ok options)
    {obstacle : Obstacle} (refused : options.settings = .error obstacle) (w : Surroundings) :
    prepare w arguments = (({} : Journal).switch options.log, .error obstacle) := by
  simp only [prepare, accepted, refused]

theorem prepare_of_settings (accepted : Options.ofArguments arguments = .ok options)
    (asked : options.settings = .ok settings) (plain : '\x00' ∉ options.rom.toList) :
    (Rom.Unavailable (w.read options.rom) →
      ∃ journal failure, prepare w arguments = (journal, .error (.rom failure))) ∧
    (¬ Rom.Unavailable (w.read options.rom) →
      ∃ journal m, prepare w arguments = (journal, .ok ⟨options, settings, m⟩)) := by
  refine ⟨fun bad => ?_, fun good => ?_⟩
  · obtain ⟨problem, failed⟩ := load_of_unavailable settings plain bad
    simp only [prepare, accepted, asked, failed]
    exact ⟨_, _, rfl⟩
  · obtain ⟨m, loaded⟩ := load_of_available settings plain good
    simp only [prepare, accepted, asked, loaded]
    exact ⟨_, _, rfl⟩

theorem prepared_follows {journal : Journal} {p : Prepared}
    (accepted : Options.ofArguments arguments = .ok options)
    (prepared : prepare w arguments = (journal, .ok p)) :
    p.options = options ∧ options.settings = .ok p.settings := by
  unfold prepare at prepared
  rw [accepted] at prepared
  dsimp only at prepared
  split at prepared
  · cases prepared
  · rename_i asked
    split at prepared <;> cases prepared
    exact ⟨rfl, asked⟩

end Preparing

/-! ### Runs -/

def ending (w : Surroundings) (patience limit : Nat) (journal : Journal) (p : Prepared) :
    Except Failure RunEnd :=
  if p.options.terminal then
    .ok ((terminalSession w p journal).run TerminalFront.host patience limit).1
  else
    (Window.scaleOf (Options.numberValue p.options.scale)).map fun scale =>
      ((windowSession w p scale journal).run WindowFront.host patience limit).1

end Program

def RunEnd.IsRegular : RunEnd → Prop
  | .cancelled | .interrupted | .fault _ => True
  | _ => False

namespace Outcome

def Untouched (o : Outcome) (w : Surroundings) : Prop :=
  o.calls = [] ∧ o.output = "" ∧ o.input = w.input

/-- The terminal is in the mode that it was in, and a window was opened and closed once if at all. -/
structure Closed (o : Outcome) (w : Surroundings) : Prop where
  terminal : o.input.mode? = w.input.mode?
  window : o.calls = [] ∨ ∃ width height caption middle,
    o.calls = .openWindow width height caption :: middle ++ [.closeWindow] ∧ Inner middle

structure Tells (o : Outcome) (ending : RunEnd) : Prop where
  status : o.status = ending.status
  errors : ∃ log, o.errors = log ++ ending.errors

theorem Untouched.closed {o : Outcome} {w : Surroundings} (untouched : o.Untouched w) :
    o.Closed w :=
  ⟨congrArg Input.mode? untouched.2.2, .inl untouched.1⟩

end Outcome

namespace Program

variable {w : Surroundings} {path : String} {patience limit : Nat} {journal : Journal}
  {p : Prepared} {last : RunEnd}

theorem runTerminal_outcome (regular : last.IsRegular)
    (ends : ((terminalSession w p journal).run TerminalFront.host patience limit).1 = last) :
    ∃ outcome, runTerminal w patience limit p journal = .ok outcome ∧ outcome.Tells last ∧
      outcome.Closed w ∧ ¬ outcome.Untouched w := by
  have lent := Session.run_keeps (TerminalFront.host_confines _ _) patience limit
    (s := terminalSession w p journal)
    (TerminalFront.lent_clear { timeline := w.timeline, input := w.input, typed := w.typed } rfl)
  unfold runTerminal
  generalize (terminalSession w p journal).run TerminalFront.host patience limit = result at *
  obtain ⟨ended, s⟩ := result
  obtain rfl : ended = last := ends
  have closed (o : Outcome) (input : o.input = s.outside.leave.input) (calls : o.calls = []) :
      o.Closed w := ⟨by rw [input, lent.leave], .inl calls⟩
  cases ended with
  | cancelled | interrupted | fault stop =>
    exact ⟨_, rfl, ⟨rfl, _, rfl⟩, closed _ rfl rfl, fun untouched => lent.output_ne untouched.2.1⟩
  | broken failure | unfinished => exact regular.elim

theorem open_clear (w : Surroundings) (p : Prepared) (scale : Nat) (journal : Journal) :
    ∃ width height caption, WindowFront.Open [.openWindow width height caption]
      (WindowFront.host.react .clear (windowSession w p scale journal)).outside := by
  refine ⟨_, _, _, [.makeLabel _ _, .makeLabel _ _, .clear], rfl, ?_⟩
  simp [Inner, DeviceCall.borders]

theorem runWindow_outcome {scale : Nat} (regular : last.IsRegular)
    (scaled : Window.scaleOf (Options.numberValue p.options.scale) = .ok scale)
    (ends : ((windowSession w p scale journal).run WindowFront.host patience limit).1 = last) :
    ∃ outcome, runWindow w patience limit p journal = .ok outcome ∧ outcome.Tells last ∧
      outcome.Closed w ∧ ¬ outcome.Untouched w := by
  obtain ⟨width, height, caption, cleared⟩ := open_clear w p scale journal
  obtain ⟨middle, calls, inner⟩ :=
    Session.run_keeps (WindowFront.host_confines _) patience limit cleared
  unfold runWindow
  simp only [scaled, bind, Except.bind]
  generalize (windowSession w p scale journal).run WindowFront.host patience limit = result at *
  obtain ⟨ended, s⟩ := result
  obtain rfl : ended = last := ends
  have left : s.outside.leave.calls.toList =
      .openWindow width height caption :: middle ++ [.closeWindow] := by
    rw [WindowFront.leave, WindowFront.call, Array.toList_appendList, calls]
    rfl
  have closed (o : Outcome) (input : o.input = w.input)
      (made : o.calls = s.outside.leave.calls.toList) : o.Closed w :=
    ⟨congrArg Input.mode? input, .inr ⟨_, _, _, _, made.trans left, inner⟩⟩
  have opened (o : Outcome) (made : o.calls = s.outside.leave.calls.toList) :
      ¬ o.Untouched w := by
    rintro ⟨none, _⟩
    rw [made, left] at none
    cases none
  cases ended with
  | cancelled | interrupted | fault stop =>
    exact ⟨_, rfl, ⟨rfl, _, rfl⟩, closed _ rfl rfl, opened _ rfl⟩
  | broken failure | unfinished => exact regular.elim

section Arguments

variable {arguments : List String}

theorem run_of_settings (patience limit : Nat) {failure : Failure}
    (prepared : prepare w arguments = (journal, .error (.settings failure))) :
    run w patience limit arguments = .ok {
      status := 2
      errors := journal.text ++ (Obstacle.settings failure).errors
      input := w.input } := by
  simp only [run, prepared]
  rfl

theorem run_of_rom {failure : Failure}
    (prepared : prepare w arguments = (journal, .error (.rom failure))) :
    run w patience limit arguments = .ok {
      status := 1
      errors := journal.text ++ (Obstacle.rom failure).errors
      input := w.input } := by
  simp only [run, prepared]
  rfl

theorem run_of_ending (prepared : prepare w arguments = (journal, .ok p))
    (ended : Program.ending w patience limit journal p = .ok last) (regular : last.IsRegular) :
    ∃ outcome, run w patience limit arguments = .ok outcome ∧ outcome.Tells last ∧
      outcome.Closed w ∧ ¬ outcome.Untouched w := by
  simp only [run, prepared]
  unfold Program.ending at ended
  split at ended
  · rename_i terminal
    rw [if_pos terminal]
    exact runTerminal_outcome regular (Except.ok.inj ended)
  · rename_i window
    rw [if_neg window]
    cases scaled : Window.scaleOf (Options.numberValue p.options.scale) with
    | error failure =>
      rw [scaled] at ended
      cases ended
    | ok scale =>
      rw [scaled] at ended
      exact runWindow_outcome regular scaled (Except.ok.inj ended)

end Arguments

end Program

theorem Outcome.Tells.status_iff {o : Outcome} {last : RunEnd} (tells : o.Tells last)
    (regular : last.IsRegular) :
    o.status ≠ 2 ∧ (o.status = 130 ↔ last = .interrupted) ∧
      (o.status = 1 ↔ ∃ fault, last = .fault fault) ∧ (o.status = 0 ↔ last = .cancelled) := by
  rw [tells.status]
  cases last with
  | broken failure | unfinished => exact regular.elim
  | cancelled | interrupted | fault stop => simp [RunEnd.status]

namespace Program

/-- The status is two exactly if the settings are refused, whatever the program file is. If they are
not, it is one with nothing opened exactly if the file is no program. Otherwise a session was run,
and the status tells how it ended; of a fault the message is printed last. However it came about,
the terminal has its mode back and a window that was opened is closed. The two limits for programs
agree: all that comes from a file can be loaded, and what is too long for the one is for the
other. -/
theorem status_tells_ending {w : Surroundings} {patience limit : Nat} {arguments : List String}
    {options : Options} {cps fps : Int} (accepted : Options.ofArguments arguments = .ok options)
    (cycles : options.cyclesPerSecond = some cps) (frames : options.frameRate = some fps)
    (plain : '\x00' ∉ options.rom.toList)
    (ends : ∀ journal p, prepare w arguments = (journal, .ok p) →
      ∃ last, ending w patience limit journal p = .ok last ∧ last.IsRegular) :
    let refused := options.implementation = none ∨ cps ≤ 0 ∨ fps ≤ 0
    let unavailable := Rom.Unavailable (w.read options.rom)
    (∃ outcome, run w patience limit arguments = .ok outcome ∧ outcome.Closed w ∧
      (outcome.status = 2 ↔ refused) ∧
      (refused → outcome.Untouched w ∧
        ∀ read, run { w with read } patience limit arguments = .ok outcome) ∧
      (¬ refused → (outcome.status = 1 ∧ outcome.Untouched w ↔ unavailable)) ∧
      (¬ refused → ¬ unavailable → ∃ journal p last, prepare w arguments = (journal, .ok p) ∧
        ending w patience limit journal p = .ok last ∧
        (outcome.status = 130 ↔ last = .interrupted) ∧
        (outcome.status = 1 ↔ ∃ fault, last = .fault fault) ∧
        (outcome.status = 0 ↔ last = .cancelled) ∧
        ∀ fault, last = .fault fault → ∃ log,
          outcome.errors = log ++ ("Emulation error: " ++ fault.message ++ "\n"))) ∧
    (∀ path reading program, Rom.ofFile path reading = .ok program →
      ∀ m, Machine.Reachable m → ∃ loaded, Machine.loadRom program m = .ok ⟨⟩ loaded) ∧
    ∀ path content, 4096 - 0x200 < content.length →
      (∀ program, Rom.ofFile path (.ok content) ≠ .ok program) ∧
      ∀ m, Machine.Reachable m →
        ∃ failure left, Machine.loadRom content m = .error failure left := by
  intro refused unavailable
  refine ⟨?_, ?_, ?_⟩
  · by_cases bad : refused
    · obtain ⟨failure, asked⟩ := Options.settings_of_refused cycles frames bad
      -- the program file is not looked at, so the reading of it may be any
      have stops (read) := run_of_settings patience limit
        (prepare_of_refused accepted asked { w with read })
      exact ⟨_, stops w.read, Outcome.Untouched.closed ⟨rfl, rfl, rfl⟩, iff_of_true rfl bad,
        fun _ => ⟨⟨rfl, rfl, rfl⟩, stops⟩, fun good => absurd bad good,
        fun good => absurd bad good⟩
    · obtain ⟨settings, asked⟩ := Options.settings_of_accepted cycles frames bad
      obtain ⟨missing, found⟩ := prepare_of_settings (w := w) accepted asked plain
      by_cases absent : unavailable
      · obtain ⟨journal, failure, prepared⟩ := missing absent
        exact ⟨_, run_of_rom prepared, Outcome.Untouched.closed ⟨rfl, rfl, rfl⟩,
          iff_of_false nofun bad, fun good => absurd good bad,
          fun _ => iff_of_true ⟨rfl, rfl, rfl, rfl⟩ absent, fun _ present => absurd absent present⟩
      · obtain ⟨journal, m, prepared⟩ := found absent
        obtain ⟨last, ended, regular⟩ := ends _ _ prepared
        obtain ⟨outcome, ran, tells, closed, touched⟩ := run_of_ending prepared ended regular
        obtain ⟨notTwo, interrupted, stopped, cancelled⟩ := tells.status_iff regular
        refine ⟨outcome, ran, closed, iff_of_false notTwo bad, fun good => absurd good bad,
          fun _ => iff_of_false (fun both => touched both.2) absent,
          fun _ _ => ⟨journal, _, last, prepared, ended, interrupted, stopped, cancelled, ?_⟩⟩
        rintro fault rfl
        exact tells.errors
  · exact fun _ _ _ given _ reachable => reachable.loads_from_file given
  · exact fun path _ long =>
      ⟨fun _ => Rom.ofFile_ne_ok_of_long path long, fun _ reachable => reachable.rejects_long long⟩

/-- An implementation that is left without a value is refused too, at rates that are positive. -/
theorem status_is_two_without_implementation :
    let w : Surroundings := { read := fun _ => .error .missing }
    ∃ options outcome, Options.ofArguments ["-i--", "g"] = .ok options ∧
      options.cyclesPerSecond = some 700 ∧ options.frameRate = some 60 ∧
      run w 0 0 ["-i--", "g"] = .ok outcome ∧
      ¬ (outcome.status = 2 ↔ (700 : Int) ≤ 0 ∨ (60 : Int) ≤ 0) := by
  intro w
  have accepted : Options.ofArguments ["-i--", "g"] =
      .ok { rom := "g", implementation := none } := by cbv
  have ran := run_of_settings 0 0 (prepare_of_refused accepted rfl w)
  exact ⟨_, _, accepted, rfl, rfl, ran, by simp⟩

/-- A program interrupted in its first sleep, one whose file is missing and one that is to run at no
speed. -/
theorem status_tells_ending_of_interrupted :
    let w : Surroundings := {
      read := fun path => if path = "g" then .ok [0x12, 0x00] else .error .missing
      timeline := { interruptedAt := some (.whole 1) }
      input := .terminal {} }
    (∃ outcome, run w 0 1 ["-t", "g"] = .ok outcome ∧ outcome.status = 130 ∧
      outcome.input.mode? = some {}) ∧
    (∃ outcome, run w 0 1 ["-t", "f"] = .ok outcome ∧ outcome.status = 1 ∧ outcome.Untouched w) ∧
    ∃ outcome, run w 0 1 ["--cps=0", "g"] = .ok outcome ∧ outcome.status = 2 := by
  intro w
  refine ⟨?_, ?_, ?_⟩
  · have accepted : Options.ofArguments ["-t", "g"] = .ok { rom := "g", terminal := true } := by cbv
    have present : ¬ Rom.Unavailable (w.read "g") := Rom.available_iff.mpr
      ⟨_, rfl, by decide, by decide⟩
    have ends (journal p) (prepared : prepare w ["-t", "g"] = (journal, .ok p)) :
        ending w 0 1 journal p = .ok .interrupted := by
      obtain ⟨options, settings, m⟩ := p
      obtain ⟨rfl, asked⟩ := prepared_follows accepted prepared
      cases asked
      rfl
    obtain ⟨⟨outcome, ran, closed, _, _, _, told⟩, _⟩ := status_tells_ending accepted rfl rfl
      (by decide) fun journal p prepared => ⟨_, ends journal p prepared, trivial⟩
    obtain ⟨journal, p, last, prepared, ended, interrupted, _⟩ := told (by decide) present
    have same : last = .interrupted :=
      Except.ok.inj (ended.symm.trans (ends journal p prepared))
    exact ⟨outcome, ran, interrupted.mpr same, closed.terminal⟩
  · have accepted : Options.ofArguments ["-t", "f"] = .ok { rom := "f", terminal := true } := by cbv
    have missing : Rom.Unavailable (w.read "f") := .inl ⟨.missing, rfl⟩
    have nothing (journal p) (prepared : prepare w ["-t", "f"] = (journal, .ok p)) : False := by
      obtain ⟨_, _, failed⟩ := (prepare_of_settings accepted rfl (by decide)).1 missing
      cases prepared.symm.trans failed
    obtain ⟨⟨outcome, ran, _, _, _, unavailable, _⟩, _⟩ := status_tells_ending accepted rfl rfl
      (by decide) fun journal p prepared => (nothing journal p prepared).elim
    exact ⟨outcome, ran, (unavailable (by decide)).mpr missing⟩
  · have accepted : Options.ofArguments ["--cps=0", "g"] =
        .ok { rom := "g", cyclesPerSecond := some 0 } := by cbv
    have nothing (journal p) (prepared : prepare w ["--cps=0", "g"] = (journal, .ok p)) :
        False := by
      obtain ⟨_, asked⟩ := prepared_follows accepted prepared
      cases asked
    obtain ⟨⟨outcome, ran, _, two, _⟩, _⟩ := status_tells_ending accepted rfl rfl (by decide)
      fun journal p prepared => (nothing journal p prepared).elim
    exact ⟨outcome, ran, two.mpr (.inr (.inl (by decide)))⟩

end Program

end ChipEight
