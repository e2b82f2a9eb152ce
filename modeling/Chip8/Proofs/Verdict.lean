import Chip8.Proofs.CommandText
import Chip8.Proofs.Endings
import Chip8.Proofs.Faults
import Chip8.Proofs.Trace

/-!
# What a launch reports

A launch with a program that fits into the memory ends with a status and with no other error, whatever the bytes of
the program are: what can fail is a step of its session, and a step fails with a fault of the machine.

* `errorTexts` — the texts of the error messages among some events. `Unhalted.errorTexts_eq_nil` — there are none
  without a halt.
* `unhalted_tell` — the machine does not tell its halt.
* `obstacle_of_stops` — at the step that fails something stands in the way, and the machine is left as it was.
* `playFor_verdict` — how a session ended, what it told and where it left its machine.
* `launchFor_of_bytes`, `launchFor_of_tooLarge` — a launch in terms of its session, or of its file.
* `launch_verdict` — the status, the output and the error message of a launch.
-/

set_option autoImplicit false

namespace Chip8

/-! ## Error messages -/

/-- The texts of the error messages among some events. -/
def errorTexts (events : List Event) : List String :=
  ((events.filterMap Event.message?).filter fun message => message.1 = .error).map Prod.snd

theorem errorTexts_append (first second : List Event) :
    errorTexts (first ++ second) = errorTexts first ++ errorTexts second := by
  simp only [errorTexts, List.filterMap_append, List.filter_append, List.map_append]

theorem errorTexts_halted (summary : String) (f : Fault) :
    errorTexts [.halted summary f] = ["Emulation halted: " ++ summary] := rfl

namespace Event

variable {least : Level}

/-- The message of a halt shows in every log that shows error messages. -/
theorem text?_halted (hlevel : least.rank ≤ Level.error.rank) (summary : String) (f : Fault) :
    (halted summary f).text? least = some ("Emulation halted: " ++ summary) := by
  simp only [text?, message?, Option.filter, decide_eq_true hlevel, if_true, Option.map_some]

theorem lines_halted (hlevel : least.rank ≤ Level.error.rank) (summary : String) (f : Fault) :
    (halted summary f).lines least = ("ERROR:root:Emulation halted: " ++ summary) :: (halted summary f).trail := by
  have hline : Level.error.name ++ ":root:" ++ ("Emulation halted: " ++ summary) =
      "ERROR:root:Emulation halted: " ++ summary := by
    rw [← String.append_assoc]
    rfl
  simp only [lines, message?, if_pos hlevel, hline]

end Event

/-- Events none of which is a halt. -/
def Unhalted (events : List Event) : Prop := ∀ e ∈ events, ∀ summary f, e ≠ .halted summary f

theorem Unhalted.errorTexts_eq_nil {events : List Event} (h : Unhalted events) : errorTexts events = [] := by
  rw [errorTexts, List.map_eq_nil_iff, List.filter_eq_nil_iff]
  intro message hmessage
  obtain ⟨e, he, hmessage⟩ := List.mem_filterMap.1 hmessage
  cases e with
  | halted summary f => exact absurd rfl (h _ he summary f)
  | calledSys a => cases hmessage
  | _ =>
    cases hmessage
    simp

theorem Unhalted.append {first second : List Event} (hfirst : Unhalted first) (hsecond : Unhalted second) :
    Unhalted (first ++ second) :=
  List.forall_mem_append.2 ⟨hfirst, hsecond⟩

namespace Machine

variable {env : Environment} {m : Machine} {history : List Action}

theorem unhalted_told (i : Instruction) : Unhalted i.told := by
  intro e he summary f
  cases i <;> simp_all [Instruction.told]

theorem unhalted_step (henv : env.sys = none) (m : Machine) : Unhalted (m.step env).events := by
  by_cases h : ∃ i, m.Executes i
  · obtain ⟨i, hi⟩ := h
    rw [events_step_of_executes henv hi]
    refine List.forall_mem_cons.2 ⟨fun summary f => Event.noConfusion, unhalted_told i⟩
  · intro e he summary f
    obtain ⟨k, x, rfl⟩ := events_step_of_idle (fun i hi => h ⟨i, hi⟩) e he
    exact Event.noConfusion

/-- The machine does not tell its halt: this is left to who runs it. -/
theorem unhalted_tell (henv : env.sys = none) (m : Machine) (hhistory : ∀ a ∈ history, a.AroundWait) :
    Unhalted (Machine.tell env m history) := by
  induction history generalizing m with
  | nil => exact List.forall_mem_nil _
  | cons a history ih =>
    refine Unhalted.append ?_ (ih _ fun b hb => hhistory b (List.mem_cons_of_mem _ hb))
    cases hhistory a List.mem_cons_self with
    | step => exact unhalted_step henv m
    | tick => exact List.forall_mem_nil _
    | move key s =>
      rcases m.moveKey_cases key s with ⟨k, -, hmove⟩ | ⟨-, hmove⟩
      · rw [perform, hmove]
        exact List.forall_mem_nil _
      · rw [perform, hmove]
        exact List.forall_mem_nil _

end Machine

/-! ## Sessions -/

namespace Session

open Machine

variable {env : Environment} {settings : Settings} {host : Host} {m : Machine} {journal : List Event} {i n : Nat}
  {e : Error} {ending : Ending} {s : Session}

/-- At the step that fails the machine does not wait for a key and something stands in the way, and the step leaves
the machine as it was. -/
theorem obstacle_of_stops (henv : env.sys = none) (hm : m.WellFormed) (h : Stops env settings host m i e) :
    (run env m (settings.beforeStep host i)).awaiting = none ∧
      run env m (settings.beforeStep host i ++ [.step]) = run env m (settings.beforeStep host i) ∧
      ∃ f, e = .fault f ∧ (run env m (settings.beforeStep host i)).Obstacle f := by
  rw [run_append]
  exact obstacle_of_failure henv (run_wellFormed henv hm _) h.fails

/-- **How a session ended.** Either it failed with a fault at the step that was to fail, and its machine stands before
that step; or no step was to fail, and it was completed or interrupted. -/
theorem playFor_verdict (henv : env.sys = none) (hm : m.WellFormed) (hjournal : Unhalted journal.reverse)
    (hplay : playFor env settings host n (start m journal) = (s, ending)) (hended : ending ≠ .unfinished) :
    Unhalted s.events ∧
    s.output = String.join ((List.range s.frames).map fun f =>
      (run env m (settings.schedule host (f + 1))).screen.picture ++ "\n") ∧
    ((∃ i f, Stops env settings host m i (.fault f) ∧ ending = .failed (.fault f) ∧
        s.machine = run env m (settings.beforeStep host i)) ∨
      (∀ i e, ¬ Stops env settings host m i e) ∧ (ending = .completed ∨ ending = .interrupted)) := by
  obtain ⟨f, history, hpasses, hends, executed, frames, rfl⟩ := playFor_ended hplay hended
  refine ⟨?_, output_planned history executed frames, ?_⟩
  · rw [events_planned]
    exact hjournal.append (unhalted_tell henv m hends.aroundWait)
  · rcases hends.stops_or hpasses with ⟨i, e, hstops, rfl, rfl⟩ | hnone
    · obtain ⟨-, hmachine, f, rfl, -⟩ := obstacle_of_stops henv hm hstops
      exact .inl ⟨i, f, hstops, rfl, hmachine⟩
    · exact .inr hnone

end Session

/-! ## Launches -/

section

variable {env : Environment} {host : Host} {files : String → File} {frames : Settings → Nat} {args : List String}
  {o : Options} {level : Level} {bs : List UInt8}

theorem launchFor_of_tooLarge (hread : Arguments.read args = .play o) (hlevel : o.level = .ok level)
    (hfile : files (fileName o.file) = .bytes bs) (hsize : 3584 < bs.length) :
    launchFor env host files frames args =
      ⟨.error (.fault (.programTooLarge bs.length 3584)), 0, "", level, []⟩ := by
  have hprogram : o.program (.bytes bs) = .error (.error (.fault (.programTooLarge bs.length 3584))) := by
    rw [Options.program, Program.ofBytes, dif_neg (Nat.not_le_of_lt hsize), Program.capacity]
  simp only [launchFor, hread, hlevel, hfile, hprogram]

theorem launchFor_of_bytes (hread : Arguments.read args = .play o) (hlevel : o.level = .ok level)
    (hfile : files (fileName o.file) = .bytes bs) (hsize : bs.length ≤ 3584) {s : Session} {ending : Ending}
    (hplay : Session.playFor env o.settings host (frames o.settings)
      (.start (Machine.start (some ⟨bs, hsize⟩)).machine (Machine.start (some ⟨bs, hsize⟩)).events.reverse) =
        (s, ending)) :
    launchFor env host files frames args =
      ⟨(conclude s.machine ending).1, s.frames, s.output, level, s.events ++ (conclude s.machine ending).2⟩ := by
  have hprogram : o.program (.bytes bs) = .ok ⟨bs, hsize⟩ := by
    rw [Options.program, Program.ofBytes, dif_pos hsize]
  simp only [launchFor, hread, hlevel, hfile, hprogram, hplay]

end

/-- A summary begins with the address of the next instruction. -/
theorem Machine.exists_summary_eq (m : Machine) :
    ∃ rest, m.summary = "PC: (" ++ toString m.pc ++ ", '0x" ++ rest := by
  rw [Machine.summary]
  simp only [String.append_assoc]
  exact ⟨_, rfl⟩

/-- **What a launch reports.** Whatever a session is to be played with can be asked for on a command line: both numbers
of steps as any integers, if their numerals are not too long to be read, the keyboard, and every level of messages, by
its names in small or capital letters. Let a command line ask so to play a file of any bytes, with a level that is
known. A file that is too large is refused with an error before anything is printed or told. With any other file, and
if the session ends, the launch ends with status zero or one. Nothing is printed but the screens of the session, one
after each complete frame. The status is zero exactly if the session was completed or interrupted, and one exactly
if a step failed; and this is so exactly if some step of the session is to fail before its steps are used up and
before the host interrupts. There is then one error message, which shows in the log of every level up to that of
errors; it tells the state of the machine before the step that failed, with the address that the step was at. Else
there is no error message. -/
theorem launch_verdict (random : Nat → Int) (host : Host) (files : String → File) (frames : Settings → Nat) :
    (∀ choices file, Arguments.read (Arguments.commandLine choices file) =
      if choices.all Arguments.Choice.readable then .play (Arguments.chosen choices file) else .refused) ∧
    (∀ o : Options, ∃ choices, Arguments.chosen choices o.file = o ∧ choices.all Arguments.Choice.readable =
      (Text.short o.settings.cyclesPerSecond && o.settings.maxCycles.all Text.short)) ∧
    (∀ (o : Options) (level : Level), ∀ name ∈ level.names, o.logLevel.toList.map Char.toUpper = name.toList →
      o.level = .ok level) ∧
    ∀ {args : List String} {o : Options} {level : Level} {bs : List UInt8}, Arguments.read args = .play o →
      o.level = .ok level → files (fileName o.file) = .bytes bs →
      let env : Environment := ⟨random, none⟩
      let l := launchFor env host files frames args
      (3584 < bs.length → l = ⟨.error (.fault (.programTooLarge bs.length 3584)), 0, "", level, []⟩) ∧
      ∀ hsize : bs.length ≤ 3584,
        let made := Machine.start (some ⟨bs, hsize⟩)
        ∀ s ending,
          Session.playFor env o.settings host (frames o.settings) (.start made.machine made.events.reverse) =
            (s, ending) →
          ending ≠ .unfinished →
          l.level = level ∧ l.frames = s.frames ∧ l.output = s.output ∧
          l.output = String.join ((List.range l.frames).map fun f =>
            (Machine.run env made.machine (o.settings.schedule host (f + 1))).screen.picture ++ "\n") ∧
          (l.exit = .status 0 ∨ l.exit = .status 1) ∧
          (l.exit = .status 0 ↔ ending = .completed ∨ ending = .interrupted) ∧
          (l.exit = .status 1 ↔ ∃ e, ending = .failed e) ∧
          (l.exit = .status 1 ↔ ∃ i e, Session.Stops env o.settings host made.machine i e) ∧
          (l.exit = .status 0 → errorTexts l.events = []) ∧
          ∀ i e, Session.Stops env o.settings host made.machine i e →
            let n := Machine.run env made.machine (o.settings.beforeStep host i)
            errorTexts l.events = ["Emulation halted: " ++ n.summary] ∧
            (level.rank ≤ Level.error.rank →
              "Emulation halted: " ++ n.summary ∈ l.events.filterMap (·.text? level) ∧
              "ERROR:root:Emulation halted: " ++ n.summary ∈ l.events.flatMap (·.lines level)) ∧
            (∃ rest, n.summary = "PC: (" ++ toString n.pc ++ ", '0x" ++ rest) ∧
            n.awaiting = none ∧ ∃ f, e = .fault f ∧ n.Obstacle f := by
  refine ⟨Arguments.read_commandLine, Arguments.exists_chosen_eq, fun o level name => Options.level_of_mem_names, ?_⟩
  intro args o level bs hread hlevel hfile env l
  refine ⟨launchFor_of_tooLarge hread hlevel hfile, ?_⟩
  intro hsize made s ending hplay hended
  have hm : made.machine.WellFormed := Machine.start_wellFormed _
  have hmade : made = _ := Machine.start_eq _
  have hjournal : Unhalted made.events.reverse.reverse := by
    rw [List.reverse_reverse, hmade]
    exact List.forall_mem_singleton.2 fun summary f => Event.noConfusion
  have hl : l = _ := launchFor_of_bytes hread hlevel hfile hsize hplay
  clear_value l
  obtain ⟨hunhalted, houtput, ⟨i, f, hstops, rfl, hmachine⟩ | ⟨hnone, hending⟩⟩ :=
    Session.playFor_verdict rfl hm hjournal hplay hended
  · rw [conclude, hmachine] at hl
    subst hl
    refine ⟨rfl, rfl, rfl, houtput, .inr rfl, by simp, by simp, ?_, by simp, ?_⟩
    · exact ⟨fun _ => ⟨i, _, hstops⟩, fun _ => rfl⟩
    · intro j e hstops' n
      obtain ⟨rfl, rfl⟩ := hstops.unique hstops'
      obtain ⟨hawait, -, hobstacle⟩ := Session.obstacle_of_stops rfl hm hstops
      refine ⟨?_, ?_, Machine.exists_summary_eq _, hawait, hobstacle⟩
      · rw [errorTexts_append, hunhalted.errorTexts_eq_nil, errorTexts_halted, List.nil_append]
      · intro hvisible
        have hlast := List.mem_append_right s.events (List.mem_singleton_self (Event.halted n.summary f))
        refine ⟨List.mem_filterMap.2 ⟨_, hlast, Event.text?_halted hvisible _ f⟩, List.mem_flatMap.2 ⟨_, hlast, ?_⟩⟩
        rw [Event.lines_halted hvisible]
        exact List.mem_cons_self
  · have hconclude : conclude s.machine ending = (.status 0, []) := by
      rcases hending with rfl | rfl <;> rfl
    have hnot : ¬ ∃ e, ending = .failed e := by
      rcases hending with rfl | rfl <;> simp
    rw [hconclude, List.append_nil] at hl
    subst hl
    refine ⟨rfl, rfl, rfl, houtput, .inl rfl, by simp [hending], by simp [hnot], by simp [hnone], ?_, ?_⟩
    · exact fun _ => hunhalted.errorTexts_eq_nil
    · exact fun i e hstops => absurd hstops (hnone i e)

/-- A program that returns without a call fails at its first step, and the launch tells so at the level that the
command line names. -/
theorem launch_verdict_ret :
    let args := Arguments.commandLine [.cyclesPerSecond (-5), .maxCycles 3, .logLevel "error"] "--rom"
    let l := launchFor ⟨fun _ => 0, none⟩ ⟨[], none⟩ (fun _ => .bytes [0x00, 0xEE]) (fun _ => 1) args
    args = ["--cycles-per-second=-5", "--max-cycles=3", "--log-level=error", "--", "--rom"] ∧ l.exit = .status 1 ∧
      ∃ rest, errorTexts l.events = ["Emulation halted: " ++ ("PC: (512, '0x" ++ rest)] ∧
        "Emulation halted: " ++ ("PC: (512, '0x" ++ rest) ∈ l.events.filterMap (·.text? .error) := by
  intro args
  let o : Options := ⟨"--rom", ⟨-5, some 3, false⟩, "error"⟩
  let made := Machine.start (some ⟨[0x00, 0xEE], by decide⟩)
  have hret : made.machine.Executes .ret := Machine.executes_start (p := ⟨[0x00, 0xEE], by decide⟩) rfl rfl
  have hmade : made = _ := Machine.start_eq _
  have hstack : made.machine.stack = [] := by rw [hmade]; rfl
  have hpc : made.machine.pc = 512 := by rw [hmade]; rfl
  have hbefore : o.settings.beforeStep ⟨[], none⟩ 0 = [] := by
    simp [Settings.beforeStep, Settings.upTo, Settings.schedule, Settings.poll, o]
  have hstops : Session.Stops ⟨fun _ => 0, none⟩ o.settings ⟨[], none⟩ made.machine 0 (.fault .stackUnderflow) := by
    refine ⟨by simp [Settings.Grants, o], fun j hj => absurd hj (Nat.not_lt_zero j), ?_, by simp⟩
    rw [Machine.FailsAfter, hbefore]
    have hfault : made.machine.faultOf .ret = some .stackUnderflow := by rw [Machine.faultOf, if_pos hstack]
    exact Machine.failure_of_faultOf hret hfault
  obtain ⟨executed, shown, hplay⟩ :=
    Session.playFor_of_stops made.events.reverse hstops (show 0 / _ < 1 by simp)
  obtain ⟨hread, -, hlevels, hreports⟩ := launch_verdict (fun _ => 0) ⟨[], none⟩ (fun _ => .bytes [0x00, 0xEE])
    (fun _ => 1)
  have hasked : Arguments.read args = .play o := hread [.cyclesPerSecond (-5), .maxCycles 3, .logLevel "error"] "--rom"
  have hcapital : "error".toList.map Char.toUpper = "ERROR".toList := rfl
  have hlevel : o.level = .ok .error := hlevels o .error "ERROR" List.mem_cons_self hcapital
  obtain ⟨-, hreport⟩ := hreports hasked hlevel rfl
  obtain ⟨-, -, -, -, -, -, -, hstatus, -, hfailed⟩ := hreport (by decide) _ _ hplay (by simp)
  obtain ⟨herrors, hvisible, ⟨rest, hsummary⟩, -⟩ := hfailed 0 _ hstops
  obtain ⟨hshown, -⟩ := hvisible (Nat.le_refl _)
  rw [hbefore, Machine.run_nil] at herrors hshown hsummary
  have hplace : made.machine.summary = "PC: (512, '0x" ++ rest := by
    rw [hsummary, hpc]
    rfl
  rw [hplace] at herrors hshown
  exact ⟨rfl, hstatus.2 ⟨0, _, hstops⟩, rest, herrors, hshown⟩

end Chip8
