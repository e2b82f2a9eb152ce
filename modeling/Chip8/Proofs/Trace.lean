import Chip8.Proofs.AssemblyText
import Chip8.Proofs.Schedule
import Mathlib.Data.List.Basic

/-!
# The trace in the log

A log that shows everything has a line for each step that executes an instruction: the address of the instruction as
a marked numeral, and its assembly text. No other message starts like a numeral, so these lines are found in the log,
and each of them tells the address and the instruction.

* `Event.eq_executing_of_startsMarked` — which texts start like a numeral.
* `events_execute`, `events_pollKey` — what is told besides the line of the trace. `events_step_of_executes`,
  `events_step_of_idle` — what a whole step tells.
* `stepTexts_of_executes`, `stepTexts_of_idle` — the texts of a step that executes an instruction, and of another.
* `traceText_eq_iff` — a line of the trace tells the address and the word of the instruction.
* `trace_faithful` — so the log of any number of steps is a trace of them.
-/

set_option autoImplicit false

namespace Chip8

/-- A text starts as a marked numeral does. -/
def StartsMarked (text : String) : Prop := ['0', 'x'] <+: text.toList

instance : DecidablePred StartsMarked := fun text => inferInstanceAs (Decidable (['0', 'x'] <+: text.toList))

theorem startsMarked_marked_append (width : Nat) (v : Int) (rest : String) :
    StartsMarked (Numeral.marked width v ++ rest) := by
  rw [StartsMarked, String.toList_append, Numeral.toList_marked]
  exact ⟨Numeral.padded width v ++ rest.toList, rfl⟩

namespace Event

theorem message?_of_text? {least : Level} {e : Event} {text : String} (h : e.text? least = some text) :
    ∃ level, e.message? = some (level, text) := by
  obtain ⟨⟨level, text'⟩, hmessage, rfl⟩ := Option.map_eq_some_iff.1 h
  exact ⟨level, (Option.filter_eq_some_iff.1 hmessage).1⟩

/-- **Only the text of an executed instruction starts like a numeral.** -/
theorem eq_executing_of_startsMarked {least : Level} {e : Event} {text : String} (h : e.text? least = some text)
    (hmarked : StartsMarked text) : ∃ pc i, e = .executing pc i := by
  obtain ⟨level, hmessage⟩ := message?_of_text? h
  cases e with
  | executing pc i => exact ⟨pc, i, rfl⟩
  | calledSys a => cases hmessage
  | _ =>
    -- All other wordings start with a letter.
    cases hmessage
    simp [StartsMarked, toString] at hmarked

end Event

/-- What is told while an instruction is executed, where no routine of the host machine is. -/
def Instruction.told : Instruction → List Event
  | .sys a => [.ignoredSys a]
  | .awaitKey x => [.awaitingKey x]
  | _ => []

namespace Machine

variable {env : Environment} {m n : Machine} {i j : Instruction}

/-! ## What is told -/

theorem events_setRegister (m : Machine) (x : Register) (v : Int) : (m.setRegister x v).events = [] := by
  unfold setRegister
  split <;> rfl

/-- **An instruction tells the same wherever it is executed**, also if it fails. -/
theorem events_execute (henv : env.sys = none) (m : Machine) (i : Instruction) :
    (m.execute env i).events = i.told := by
  cases i with
  | sys a => simp only [execute, henv, Outcome.done, Instruction.told]
  | ret =>
    rw [execute]
    split <;> rfl
  | call a =>
    rw [execute]
    split <;> rfl
  | setByte x b | addByte x b | random x b | readDelay x => exact events_setRegister _ x _
  | arith op x y =>
    rw [execute, combine_eq]
    rfl
  | draw x y n =>
    rw [execute, drawSprite_eq]
    split <;> rfl
  | skipIfKey x | skipUnlessKey x =>
    rw [execute, skipByKey]
    split <;> rfl
  | storeDecimal x =>
    rw [execute, storeDecimal_eq]
    split <;> rfl
  | storeRegisters x =>
    rw [execute, storeRegisters_eq]
    split <;> rfl
  | loadRegisters x =>
    rw [execute, loadRegisters_eq]
    split <;> rfl
  | _ => rfl

/-- A look for a key tells no more than the key that it found. -/
theorem events_pollKey {x : Register} (hx : m.awaiting = some x) :
    ∀ e ∈ m.pollKey.events, ∃ k, e = .storedKey k x := by
  cases hpresses : m.keypad.presses with
  | nil =>
    rw [pollKey_of_nil hx hpresses]
    exact List.forall_mem_nil _
  | cons k ks =>
    rw [pollKey_of_cons hx hpresses]
    exact List.forall_mem_singleton.2 ⟨k, rfl⟩

theorem events_settle (pc : Nat) (o : Outcome) : (settle pc o).events = o.events := by
  unfold settle
  split <;> rfl

/-- A step that executes an instruction tells so, and then what the instruction tells. -/
theorem events_step_of_executes (henv : env.sys = none) (h : m.Executes i) :
    (m.step env).events = .executing m.pc i :: i.told := by
  rw [step_of_executes h]
  exact congrArg (_ :: ·) ((events_settle _ _).trans (events_execute henv _ i))

/-- A step that executes no instruction tells no more than the key that it found. -/
theorem events_step_of_idle (h : ∀ i, ¬ m.Executes i) :
    ∀ e ∈ (m.step env).events, ∃ k x, e = .storedKey k x := by
  intro e he
  rcases step_cases m with ⟨x, hx⟩ | ⟨hawait, hpc⟩ | ⟨hawait, hpc⟩ | ⟨hawait, hpc, hread⟩ | ⟨i, hi⟩
  · rw [step_of_awaiting hx] at he
    obtain ⟨k, hk⟩ := events_pollKey hx _ he
    exact ⟨k, x, hk⟩
  · rw [step_of_outside hawait hpc] at he
    cases he
  · rw [step_at_end hawait hpc] at he
    cases he
  · rw [step_of_unknown hawait hpc hread] at he
    cases he
  · exact absurd hi (h i)

/-! ## The texts of a step -/

/-- The texts that the next step adds to a log that shows everything from debug messages up. -/
def stepTexts (env : Environment) (m : Machine) : List String :=
  (m.step env).events.filterMap (Event.text? .debug)

/-- The line of an instruction in the trace. -/
def traceText (m : Machine) (i : Instruction) : String := Numeral.marked 3 m.pc ++ " " ++ i.mnemonic

theorem startsMarked_traceText (m : Machine) (i : Instruction) : StartsMarked (m.traceText i) := by
  rw [traceText, String.append_assoc]
  exact startsMarked_marked_append 3 m.pc _

/-- The instruction that the next step executes, if it executes one. -/
def executing? (m : Machine) : Option Instruction :=
  match m.awaiting, m.fetch with
  | none, .ok word => (Instruction.decode word).toOption
  | _, _ => none

theorem executing?_eq_some_iff : m.executing? = some i ↔ m.Executes i := by
  unfold executing? Executes
  cases m.awaiting with
  | some x => simp
  | none =>
    cases m.fetch with
    | error f => simp
    | ok word => cases hi : Instruction.decode word <;> simp [Except.toOption, hi]

/-- **A step that executes an instruction adds the line of the trace, and then no other text that starts like a
numeral**, whether or not the instruction fails. -/
theorem stepTexts_of_executes (henv : env.sys = none) (h : m.Executes i) :
    ∃ rest, m.stepTexts env = m.traceText i :: rest ∧ ∀ text ∈ rest, ¬ StartsMarked text := by
  refine ⟨i.told.filterMap (Event.text? .debug), ?_, ?_⟩
  · rw [stepTexts, events_step_of_executes henv h]
    rfl
  · intro text htext hmarked
    obtain ⟨e, he, hetext⟩ := List.mem_filterMap.1 htext
    obtain ⟨pc, j, rfl⟩ := Event.eq_executing_of_startsMarked hetext hmarked
    cases i <;> simp [Instruction.told] at he

/-- **A step that executes no instruction adds no text that starts like a numeral.** -/
theorem stepTexts_of_idle (h : ∀ i, ¬ m.Executes i) : ∀ text ∈ m.stepTexts env, ¬ StartsMarked text := by
  intro text htext hmarked
  obtain ⟨e, he, hetext⟩ := List.mem_filterMap.1 htext
  obtain ⟨pc, j, rfl⟩ := Event.eq_executing_of_startsMarked hetext hmarked
  obtain ⟨k, x, hk⟩ := events_step_of_idle h _ he
  cases hk

theorem filter_stepTexts (henv : env.sys = none) (m : Machine) :
    (m.stepTexts env).filter (fun text => StartsMarked text) = (m.executing?.map m.traceText).toList := by
  cases hi : m.executing? with
  | some i =>
    obtain ⟨rest, hstep, hrest⟩ := stepTexts_of_executes henv (executing?_eq_some_iff.1 hi)
    have hnone : rest.filter (fun text => StartsMarked text) = [] :=
      List.filter_eq_nil_iff.2 fun text htext => by simpa using hrest text htext
    rw [hstep, List.filter_cons_of_pos (by simpa using startsMarked_traceText m i), hnone]
    rfl
  | none =>
    have hidle : ∀ i, ¬ m.Executes i := fun i hexecutes => by
      rw [executing?_eq_some_iff.2 hexecutes] at hi
      cases hi
    exact List.filter_eq_nil_iff.2 fun text htext => by simpa using stepTexts_of_idle hidle text htext

/-! ## What a line tells -/

theorem words_traceText (m : Machine) (i : Instruction) :
    words (m.traceText i) = (Numeral.marked 3 m.pc).toList :: words i.mnemonic :=
  (isWord_marked 3 m.pc).words_append i.mnemonic

/-- **A line of the trace tells the address and the word of the instruction.** -/
theorem traceText_eq_iff (hi : m.Executes i) (hj : n.Executes j) :
    m.traceText i = n.traceText j ↔ m.pc = n.pc ∧ m.fetch = n.fetch := by
  constructor
  · intro h
    have hwords := congrArg words h
    rw [words_traceText, words_traceText, List.cons.injEq, Numeral.toList_marked, Numeral.toList_marked] at hwords
    obtain ⟨hplace, hmnemonic⟩ := hwords
    -- The address is wider than its three digits if need be, so it is read, and not compared digit by digit.
    have hpc : (m.pc : Int) = n.pc := Numeral.eq_of_padded_eq (List.cons.inj (List.cons.inj hplace).2).2
    have hij : i = j := Instruction.eq_of_words_eq hmnemonic
    -- What was fetched is the word of the instruction, although its text does not show that word.
    refine ⟨Int.ofNat.inj hpc, ?_⟩
    rw [fetch_of_executes hi, fetch_of_executes hj, hij]
  · rintro ⟨hpc, hfetch⟩
    obtain ⟨-, word, hword, hread⟩ := hi
    obtain ⟨-, word', hword', hread'⟩ := hj
    rw [hword, hword'] at hfetch
    cases hfetch
    rw [hread] at hread'
    cases hread'
    rw [traceText, traceText, hpc]

/-! ## The log of many steps -/

/-- The log of some steps is what each of them adds to it, one after the other. -/
theorem texts_replicate_step (m : Machine) (count : Nat) :
    (Machine.tell env m (List.replicate count .step)).filterMap (Event.text? .debug) =
      (List.range count).flatMap fun k => (run env m (List.replicate k .step)).stepTexts env := by
  induction count with
  | zero => rfl
  | succ count ih =>
    rw [List.replicate_succ', tell_append, List.filterMap_append, ih, List.range_succ, List.flatMap_append,
      List.flatMap_singleton, Machine.tell, Machine.tell, List.append_nil]
    rfl

/-- **The log is a faithful trace of the steps.** Any number of steps is made, on after failures, from any state, and
the log shows everything from debug messages up. The log is what the steps add to it, one after the other. The texts
in it that start like a numeral are one for each step that executes an instruction, in the order of the steps; no
step counts that waits for a key, or that fails in fetching or reading its word. The text is the first that its step
adds, and the only one of them that starts like a numeral, also if the instruction fails; the other steps add none.
And any two such texts, of these steps or of others, are the same exactly if they are of the same address and the
same word. -/
theorem trace_faithful (henv : env.sys = none) (m : Machine) (count : Nat) :
    let state := fun k => run env m (List.replicate k .step)
    let log := (Machine.tell env m (List.replicate count .step)).filterMap (Event.text? .debug)
    log = (List.range count).flatMap (fun k => (state k).stepTexts env) ∧
    log.filter (fun text => StartsMarked text) =
      (List.range count).filterMap (fun k => (state k).executing?.map (state k).traceText) ∧
    (∀ k i, (state k).Executes i → StartsMarked ((state k).traceText i) ∧
      ∃ rest, (state k).stepTexts env = (state k).traceText i :: rest ∧ ∀ text ∈ rest, ¬ StartsMarked text) ∧
    (∀ k, (∀ i, ¬ (state k).Executes i) → ∀ text ∈ (state k).stepTexts env, ¬ StartsMarked text) ∧
    ∀ (s t : Machine) (i j : Instruction), s.Executes i → t.Executes j →
      (s.traceText i = t.traceText j ↔ s.pc = t.pc ∧ s.fetch = t.fetch) := by
  intro state log
  have hlog : log = (List.range count).flatMap fun k => (state k).stepTexts env := texts_replicate_step m count
  refine ⟨hlog, ?_, ?_, fun k hidle => stepTexts_of_idle hidle, fun s t i j => traceText_eq_iff⟩
  · simp only [hlog, List.filter_flatMap, filter_stepTexts henv, List.filterMap_eq_flatMap_toList]
  · exact fun k i hi => ⟨startsMarked_traceText _ i, stepTexts_of_executes henv hi⟩

/-- A return without a call fails each time that it is executed, and is in the trace each time. -/
theorem trace_faithful_return :
    let env : Environment := ⟨fun _ => 0, none⟩
    let m := (start (some ⟨[0x00, 0xEE], by decide⟩)).machine
    ((Machine.tell env m [.step, .step]).filterMap (Event.text? .debug)).filter (fun text => StartsMarked text) =
      ["0x200 RET", "0x200 RET"] := by
  intro env m
  have hret : m.Executes .ret := executes_start (p := ⟨[0x00, 0xEE], by decide⟩) rfl rfl
  have hstack : m.stack = [] := by
    show (start _).machine.stack = []
    rw [start, load_eq]
    rfl
  have hfault : m.faultOf .ret = some .stackUnderflow := by rw [faultOf, if_pos hstack]
  have hstays : (m.step env).machine = m := by
    rw [step_of_fault hret hfault]
    rfl
  have hsecond : run env m [.step] = m := by rw [run_cons, perform, hstays, run_nil]
  have hpc : m.pc = 0x200 := by
    show (start _).machine.pc = 0x200
    rw [start, load_eq]
    rfl
  have htext : m.traceText .ret = "0x200 RET" := by
    rw [traceText, hpc]
    rfl
  have hline : m.executing?.map m.traceText = some "0x200 RET" := by
    rw [executing?_eq_some_iff.2 hret, Option.map_some, htext]
  have henv : env.sys = none := rfl
  obtain ⟨-, htrace, -⟩ := trace_faithful henv m 2
  rw [show List.replicate 2 Action.step = [.step, .step] from rfl] at htrace
  rw [htrace, show List.range 2 = [0, 1] from rfl]
  simp only [List.replicate_zero, List.replicate_succ, run_nil, hsecond, List.filterMap_cons, List.filterMap_nil, hline]

end Machine

end Chip8
