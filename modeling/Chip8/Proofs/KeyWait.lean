import Chip8.Machine.Action
import Chip8.Proofs.Step

/-!
# Waiting for a key

A machine that waits for a key makes steps that look for one, while its timers tick and its keys are moved. The
wait belongs to the first key that goes down, whatever is pressed or let go before the next step sees it.

* `Strikes`, `Quiet` — an action that moves a key down, and a history without one.
* `quiet_or_first_strike` — every history is quiet, or has a first strike.
* `Waits` — the machine waits with some presses recorded. `perform_of_quiet`, `perform_of_strike` and
  `perform_later` say what an action makes of them, `run_of_quiet` and `run_later` what a history does.
* `wait_history` — so every step before the first strike does nothing, and the next one after it stores its key.
-/

set_option autoImplicit false

namespace Chip8

/-- What goes on while the machine waits: steps, ticks, and moves of keys. -/
inductive Action.AroundWait : Action → Prop where
  | step : AroundWait .step
  | tick : AroundWait .tick
  /-- A move of a key, or of a number that names none. -/
  | move (key : Int) (s : KeyState) : AroundWait (.move key s)

namespace Machine

variable {env : Environment} {m : Machine}

/-! ## Strikes -/

/-- An action moves a key from up to down. -/
def Strikes (env : Environment) (m : Machine) (a : Action) (k : Key) : Prop :=
  m.keypad.state k = .released ∧ (m.perform env a).machine.keypad.state k = .pressed

/-- No action of a history moves a key from up to down. -/
def Quiet (env : Environment) : Machine → List Action → Prop
  | _, [] => True
  | m, a :: history => (∀ k, ¬ Strikes env m a k) ∧ Quiet env (m.perform env a).machine history

theorem Quiet.left {first second : List Action} (h : Quiet env m (first ++ second)) :
    Quiet env m first := by
  induction first generalizing m with
  | nil => trivial
  | cons a first ih => exact ⟨h.1, ih h.2⟩

/-- Every history is quiet, or has a first strike. -/
theorem quiet_or_first_strike (m : Machine) (history : List Action) :
    Quiet env m history ∨
    ∃ before a k after, history = before ++ a :: after ∧ Quiet env m before ∧
      Strikes env (run env m before) a k := by
  induction history generalizing m with
  | nil => exact .inl trivial
  | cons a history ih =>
    by_cases ha : ∃ k, Strikes env m a k
    · obtain ⟨k, hk⟩ := ha
      exact .inr ⟨[], a, k, history, rfl, trivial, hk⟩
    · have hnone : ∀ k, ¬ Strikes env m a k := fun k hk => ha ⟨k, hk⟩
      rcases ih (m.perform env a).machine with hquiet | ⟨before, b, k, after, rfl, hquiet, hk⟩
      · exact .inl ⟨hnone, hquiet⟩
      · exact .inr ⟨a :: before, b, k, after, rfl, ⟨hnone, hquiet⟩, hk⟩

/-- A move strikes the key of its number, if that was up and goes down. -/
theorem strikes_move {key : Int} {s : KeyState} {k : Key} :
    Strikes env m (.move key s) k ↔
      key = k.val ∧ s = .pressed ∧ m.keypad.state k = .released := by
  unfold Strikes
  rcases m.moveKey_cases key s with ⟨l, rfl, hmove⟩ | ⟨hkey, hmove⟩
  · simp only [perform, hmove, Outcome.done, Keypad.state_set]
    constructor
    · rintro ⟨hup, hdown⟩
      by_cases hl : k = l
      · rw [if_pos hl] at hdown
        exact ⟨by rw [hl], hdown, hup⟩
      · rw [if_neg hl] at hdown
        exact absurd (hup.symm.trans hdown) (by decide)
    · rintro ⟨hl, rfl, hup⟩
      exact ⟨hup, if_pos (Fin.ext (Int.ofNat_inj.1 hl.symm))⟩
  · simp only [perform, hmove, Outcome.fail]
    constructor
    · rintro ⟨hup, hdown⟩
      exact absurd (hup.symm.trans hdown) (by decide)
    · rintro ⟨rfl, -, -⟩
      rw [below_natCast] at hkey
      cases hkey

/-! ## The wait -/

/-- The machine waits for a key to put into a register, and the keypad has recorded these presses. -/
structure Waits (m : Machine) (x : Register) (presses : List Key) : Prop where
  awaiting_eq : m.awaiting = some x
  waiting_eq : m.keypad.waiting = true
  presses_eq : m.keypad.presses = presses

/-- The instruction begins the wait, moves no key and forgets all presses. -/
theorem step_of_awaitKey {x : Register} (h : m.Executes (.awaitKey x)) :
    (m.step env).machine.Waits x [] ∧ (m.step env).machine.keypad.states = m.keypad.states := by
  rw [step_of_executes h]
  exact ⟨⟨rfl, rfl, rfl⟩, rfl⟩

namespace Waits

variable {x : Register} {ks : List Key} {a : Action}

theorem step_of_nil (h : m.Waits x []) : m.step env = .done m := by
  rw [step_of_awaiting h.awaiting_eq, pollKey_of_nil h.awaiting_eq h.presses_eq]

theorem step_of_cons {k : Key} (h : m.Waits x (k :: ks)) :
    m.step env = .done (m.endWait x k) [.storedKey k x] := by
  rw [step_of_awaiting h.awaiting_eq, pollKey_of_cons h.awaiting_eq h.presses_eq]

/-- While the machine waits, a key goes down only when it is pressed while it is up. -/
theorem eq_move_of_strikes {k : Key} (h : m.Waits x []) (ha : a.AroundWait) (hk : Strikes env m a k) :
    a = .move k.val .pressed ∧ m.keypad.state k = .released := by
  cases ha with
  | step =>
    rw [Strikes, perform, h.step_of_nil] at hk
    exact absurd (hk.1.symm.trans hk.2) (by decide)
  | tick => exact absurd (hk.1.symm.trans hk.2) (by decide)
  | move key s =>
    obtain ⟨rfl, rfl, hup⟩ := strikes_move.1 hk
    exact ⟨rfl, hup⟩

/-- A move that strikes a key is recorded. -/
theorem moveKey_of_strike {key : Int} {s : KeyState} {k : Key} (h : m.Waits x ks)
    (hk : Strikes env m (.move key s) k) : (m.moveKey key s).machine.Waits x (ks ++ [k]) := by
  obtain ⟨rfl, rfl, hup⟩ := strikes_move.1 hk
  rw [moveKey, Keypad.move_natCast]
  refine ⟨h.awaiting_eq, h.waiting_eq, ?_⟩
  rw [← h.presses_eq]
  exact Keypad.presses_set_of_press h.waiting_eq hup

/-- Any other move is not. -/
theorem moveKey_of_quiet {key : Int} {s : KeyState} (h : m.Waits x ks)
    (hquiet : ∀ k, ¬ Strikes env m (.move key s) k) : (m.moveKey key s).machine.Waits x ks := by
  rcases m.moveKey_cases key s with ⟨k, hkey, hmove⟩ | ⟨-, hmove⟩
  · rw [hmove]
    refine ⟨h.awaiting_eq, h.waiting_eq, ?_⟩
    rw [← h.presses_eq]
    exact Keypad.presses_set_of_not fun hrec => hquiet k (strikes_move.2 ⟨hkey, hrec.2⟩)
  · rw [hmove]; exact h

/-! ### One action -/

theorem perform_of_quiet (h : m.Waits x []) (ha : a.AroundWait) (hquiet : ∀ k, ¬ Strikes env m a k) :
    (m.perform env a).machine.Waits x [] := by
  cases ha with
  | step => rw [perform, h.step_of_nil]; exact h
  | tick => exact ⟨h.awaiting_eq, h.waiting_eq, h.presses_eq⟩
  | move key s => exact h.moveKey_of_quiet hquiet

theorem perform_of_strike {k : Key} (h : m.Waits x []) (ha : a.AroundWait) (hk : Strikes env m a k) :
    (m.perform env a).machine.Waits x [k] := by
  obtain ⟨rfl, -⟩ := h.eq_move_of_strikes ha hk
  exact h.moveKey_of_strike hk

/-- After the first press, every action but a step keeps it first. -/
theorem perform_later {k : Key} (h : m.Waits x (k :: ks)) (ha : a.AroundWait) (hstep : a ≠ .step) :
    ∃ later, (m.perform env a).machine.Waits x (k :: later) := by
  cases ha with
  | step => exact absurd rfl hstep
  | tick => exact ⟨ks, h.awaiting_eq, h.waiting_eq, h.presses_eq⟩
  | move key s =>
    by_cases hl : ∃ l, Strikes env m (.move key s) l
    · obtain ⟨l, hl⟩ := hl
      exact ⟨ks ++ [l], h.moveKey_of_strike hl⟩
    · exact ⟨ks, h.moveKey_of_quiet fun l hstrike => hl ⟨l, hstrike⟩⟩

/-- A key that is held stays held, unless it is let go. -/
theorem held_perform {k : Key} (h : m.Waits x []) (ha : a.AroundWait) (hrelease : a ≠ .move k.val .released)
    (hk : m.keypad.state k = .pressed) : (m.perform env a).machine.keypad.state k = .pressed := by
  cases ha with
  | step => rw [perform, h.step_of_nil]; exact hk
  | tick => exact hk
  | move key s =>
    rcases m.moveKey_cases key s with ⟨l, rfl, hmove⟩ | ⟨-, hmove⟩
    · rw [perform, hmove]
      show (m.keypad.set l s).state k = .pressed
      rw [Keypad.state_set]
      split
      · rename_i hl
        cases s with
        | pressed => rfl
        | released => exact absurd (by rw [hl]) hrelease
      · exact hk
    · rw [perform, hmove]; exact hk

/-! ### Histories -/

theorem run_of_quiet {history : List Action} (h : m.Waits x [])
    (hhistory : ∀ a ∈ history, a.AroundWait) (hquiet : Quiet env m history) :
    (run env m history).Waits x [] := by
  induction history generalizing m with
  | nil => exact h
  | cons a history ih =>
    have ha := h.perform_of_quiet (hhistory a List.mem_cons_self) hquiet.1
    exact ih ha (fun b hb => hhistory b (List.mem_cons_of_mem _ hb)) hquiet.2

theorem run_later {k : Key} {history : List Action} (h : m.Waits x (k :: ks))
    (hhistory : ∀ a ∈ history, a.AroundWait) (hstep : .step ∉ history) :
    ∃ later, (run env m history).Waits x (k :: later) := by
  induction history generalizing m ks with
  | nil => exact ⟨ks, h⟩
  | cons a history ih =>
    have hne : a ≠ .step := fun ha => hstep (ha ▸ List.mem_cons_self)
    obtain ⟨later, hlater⟩ := h.perform_later (hhistory a List.mem_cons_self) hne
    exact ih hlater (fun b hb => hhistory b (List.mem_cons_of_mem _ hb))
      fun hs => hstep (List.mem_cons_of_mem _ hs)

/-- A key that was held at first and is up after a quiet history was let go in it. -/
theorem released_mem {k : Key} {history : List Action} (h : m.Waits x [])
    (hhistory : ∀ a ∈ history, a.AroundWait) (hquiet : Quiet env m history)
    (hk : m.keypad.state k = .pressed) (hup : (run env m history).keypad.state k = .released) :
    .move k.val .released ∈ history := by
  induction history generalizing m with
  | nil => exact absurd (hk.symm.trans hup) (by decide)
  | cons a history ih =>
    have ha := hhistory a List.mem_cons_self
    by_cases hrelease : a = .move k.val .released
    · rw [hrelease]
      exact List.mem_cons_self
    · refine List.mem_cons_of_mem _ (ih (h.perform_of_quiet ha hquiet.1) ?_ hquiet.2 ?_ hup)
      · exact fun b hb => hhistory b (List.mem_cons_of_mem _ hb)
      · exact h.held_perform ha hrelease hk

/-- The steps of a quiet history change nothing. -/
theorem step_of_quiet {before after : List Action} (h : m.Waits x [])
    (hhistory : ∀ a ∈ before ++ .step :: after, a.AroundWait)
    (hquiet : Quiet env m (before ++ .step :: after)) :
    (run env m before).step env = .done (run env m before) := by
  have hbefore : ∀ a ∈ before, a.AroundWait := fun a ha => hhistory a (List.mem_append_left _ ha)
  exact (h.run_of_quiet hbefore hquiet.left).step_of_nil

end Waits

/-- **A wait for a key over a whole history.** After the instruction, let steps, ticks and moves of keys come in
any order. If no key goes down, no step changes anything. If one does, which is when it is pressed while it is up, no
step before that changes anything, and the next step after it stores that key in the register, changes no other, and
ends the wait, whatever else is moved in between. A key that was held when the wait began must have been let go before.
Moves of numbers that name no key fail and change nothing. -/
theorem wait_history {x : Register} (h : m.Executes (.awaitKey x)) (history : List Action)
    (hhistory : ∀ a ∈ history, a.AroundWait) :
    let w := (m.step env).machine
    (∀ before key s after, history = before ++ .move key s :: after → ¬ (0 ≤ key ∧ key < 16) →
      (run env w before).perform env (.move key s) =
        .fail (run env w before) (.fault (.invalidKey key))) ∧
    (Quiet env w history ∨
      ∃ first a k rest, history = first ++ a :: rest ∧ Quiet env w first ∧ Strikes env (run env w first) a k) ∧
    (Quiet env w history → ∀ before after, history = before ++ .step :: after →
      (run env w before).step env = .done (run env w before)) ∧
    ∀ first a k rest, history = first ++ a :: rest → Quiet env w first → Strikes env (run env w first) a k →
      a = .move k.val .pressed ∧ (run env w first).keypad.state k = .released ∧
      (∀ before after, first = before ++ .step :: after →
        (run env w before).step env = .done (run env w before)) ∧
      (m.keypad.state k = .pressed → .move k.val .released ∈ first) ∧
      ∀ between after, rest = between ++ .step :: after → .step ∉ between →
        let s := run env w (first ++ a :: between)
        s.step env = .done
          { s.setReg x (UInt8.ofNat k.val) with
            keypad := { s.keypad with waiting := false, presses := [] }
            awaiting := none } [.storedKey k x] ∧
        (s.step env).machine.reg x = UInt8.ofNat k.val ∧
        ∀ r, r ≠ x → (s.step env).machine.reg r = s.reg r := by
  intro w
  obtain ⟨hw, hstates⟩ : w.Waits x [] ∧ w.keypad.states = m.keypad.states := step_of_awaitKey h
  refine ⟨?_, w.quiet_or_first_strike history, ?_, ?_⟩
  · intro before key s after _ hkey
    rcases (run env w before).moveKey_cases key s with ⟨k, rfl, -⟩ | ⟨-, hmove⟩
    · exact absurd (below_iff.1 (below_natCast k)) hkey
    · exact hmove
  · rintro hquiet before after rfl
    exact hw.step_of_quiet hhistory hquiet
  · rintro first a k rest rfl hquiet hk
    have hfirst : ∀ b ∈ first, b.AroundWait := fun b hb => hhistory b (List.mem_append_left _ hb)
    have ha : a.AroundWait := hhistory a (by simp)
    have hwaits := hw.run_of_quiet hfirst hquiet
    obtain ⟨hmove, hup⟩ := hwaits.eq_move_of_strikes ha hk
    refine ⟨hmove, hup, ?_, ?_, ?_⟩
    · rintro before after rfl
      exact hw.step_of_quiet hfirst hquiet
    · intro hheld
      have hheld' : w.keypad.state k = .pressed := by
        rw [Keypad.state, hstates]; exact hheld
      exact hw.released_mem hfirst hquiet hheld' hup
    · rintro between after rfl hstep s
      have hbetween : ∀ b ∈ between, b.AroundWait := fun b hb => hhistory b (by simp [hb])
      obtain ⟨later, hlater⟩ := (hwaits.perform_of_strike ha hk).run_later hbetween hstep
      have hs : s.Waits x (k :: later) := by
        show (run env w (first ++ a :: between)).Waits x (k :: later)
        rw [run_append]
        exact hlater
      have hend : s.step env = .done (s.endWait x k) [.storedKey k x] := hs.step_of_cons
      have hreg : ∀ r, (s.step env).machine.reg r = if r = x then UInt8.ofNat k.val else s.reg r := by
        rw [hend]
        exact s.reg_endWait x k
      exact ⟨hend, (hreg x).trans (if_pos rfl), fun r hr => (hreg r).trans (if_neg hr)⟩

/-- Key 5 is held when the wait begins, and 7 goes down before 5 does so again. -/
theorem wait_history_held :
    let m := { (start (some ⟨[0xF3, 0x0A], by decide⟩)).machine with
      keypad := Keypad.fresh.set 5 .pressed }
    let env : Environment := ⟨fun _ => 0, none⟩
    let w := (m.step env).machine
    let history : List Action := [.step, .move 5 .released, .tick, .move 7 .pressed, .move 16 .pressed,
      .move 7 .released, .move 5 .pressed, .step]
    m.Executes (.awaitKey 3) ∧ (run env w history).reg 3 = 7 ∧ (run env w history).awaiting = none ∧
      (run env w history).keypad.waiting = false ∧ (run env w history).keypad.presses = [] := by
  intro m env w history
  have hread : m.Executes (.awaitKey 3) := executes_start (p := ⟨[0xF3, 0x0A], by decide⟩) rfl rfl
  have hhistory : ∀ a ∈ history, a.AroundWait := by
    simp only [history, List.forall_mem_cons, List.not_mem_nil, false_implies, implies_true, and_true]
    exact ⟨.step, .move 5 .released, .tick, .move 7 .pressed, .move 16 .pressed, .move 7 .released,
      .move 5 .pressed, .step⟩
  obtain ⟨hw, hstates⟩ : w.Waits 3 [] ∧ w.keypad.states = m.keypad.states := step_of_awaitKey hread
  have hquiet : Quiet env w [.step, .move 5 .released, .tick] := by
    refine ⟨fun k hk => ?_, fun k hk => ?_, fun k hk => ?_, trivial⟩
    · cases (hw.eq_move_of_strikes .step hk).1
    · cases (strikes_move.1 hk).2.1
    · exact absurd (hk.1.symm.trans hk.2) (by decide)
  have hkeypad : (run env w [.step, .move 5 .released, .tick]).keypad = w.keypad.set 5 .released := by
    rw [run_cons, perform, hw.step_of_nil]
    rfl
  have hseven : (run env w [.step, .move 5 .released, .tick]).keypad.state 7 = .released := by
    rw [hkeypad, Keypad.state_set, if_neg (by decide), Keypad.state, hstates]
    rfl
  obtain ⟨-, -, -, hstruck⟩ := @wait_history env m 3 hread history hhistory
  obtain ⟨-, -, -, -, hends⟩ := hstruck [.step, .move 5 .released, .tick] (.move 7 .pressed) 7 _ rfl hquiet
    (strikes_move.2 ⟨rfl, rfl, hseven⟩)
  obtain ⟨hstep, hreg, -⟩ := hends [.move 16 .pressed, .move 7 .released, .move 5 .pressed] [] rfl (by decide)
  have hlast : run env w history = ((run env w ([.step, .move 5 .released, .tick] ++ .move 7 .pressed ::
      [.move 16 .pressed, .move 7 .released, .move 5 .pressed])).step env).machine := rfl
  rw [hlast]
  refine ⟨hread, hreg, ?_⟩
  rw [hstep]
  exact ⟨rfl, rfl, rfl⟩

end Machine

end Chip8
