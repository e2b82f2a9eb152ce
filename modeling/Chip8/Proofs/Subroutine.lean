import Chip8.Proofs.Footprint

/-!
# Calls and returns

A call leaves the address after it on the stack, and nothing takes it off before the return that belongs to it:
calls made meanwhile open and close above it. Jumps, waits for keys, programs that store over themselves, steps
that fail and whatever else the host does make no difference, as long as the host neither starts the machine
anew nor executes an instruction by hand.

* `step_of_call`, `step_of_ret` — the step of a call and of a return.
* `step_stack` — no other step concerns the stack.
* `perform_stack`, `run_stack` — what an action, and a history, does to the calls that are open.
* `call_returns` — so calls and returns match.
-/

set_option autoImplicit false

namespace Chip8

/-- An action that leaves the open calls to the program: anything but a new start and an instruction that was
built by hand. -/
def Action.LeavesCalls : Action → Prop
  | .reset | .execute _ => False
  | _ => True

namespace Machine

variable {env : Environment} {m : Machine}

/-! ## Steps -/

theorem step_of_call {a : Address} (h : m.Executes (.call a)) (hs : m.stack.length < stackSize) :
    m.step env =
      .done { m with pc := a.val, stack := (m.pc + 2) :: m.stack, cycles := m.cycles + 1 }
        [.executing m.pc (.call a)] := by
  have hpc : word16 (m.pc + 2) = m.pc + 2 := word16_of_lt (by have := (executes_iff.1 h).2.1; omega)
  have hs' : m.advance.stack.length < stackSize := hs
  rw [step_of_executes h, execute, if_pos hs', advance, hpc]
  rfl

theorem step_of_ret {back : Nat} {rest : List Nat} (h : m.Executes .ret) (hs : m.stack = back :: rest) :
    m.step env =
      .done { m with pc := back, stack := rest, cycles := m.cycles + 1 } [.executing m.pc .ret] := by
  have hs' : m.advance.stack = back :: rest := hs
  rw [step_of_executes h, execute, hs']
  rfl

/-- **A step leaves the stack alone, or calls, or returns.** -/
theorem step_stack (henv : env.sys = none) (m : Machine) :
    (m.step env).machine.stack = m.stack ∨
    (m.step env).machine.stack = (m.pc + 2) :: m.stack ∨
    ∃ back rest, m.Executes .ret ∧ m.stack = back :: rest ∧
      (m.step env).machine.stack = rest ∧ (m.step env).machine.pc = back := by
  by_cases h : ∃ i, m.Executes i
  · obtain ⟨i, hi⟩ := h
    cases i with
    | call a =>
      by_cases hs : m.stack.length < stackSize
      · rw [step_of_call hi hs]; exact .inr (.inl rfl)
      · rw [step_of_fault hi (if_neg hs)]; exact .inl rfl
    | ret =>
      cases hs : m.stack with
      | nil => rw [step_of_fault hi (if_pos hs)]; exact .inl hs
      | cons back rest => rw [step_of_ret hi hs]; exact .inr (.inr ⟨back, rest, hi, rfl, rfl, rfl⟩)
    | _ =>
      exact .inl (step_same_of_executes (p := .stack) hi (fun _ _ => henv) (by decide)
        (by simp [Instruction.changes]))
  · exact .inl (step_same_of_idle (p := .stack) (fun i hi => h ⟨i, hi⟩) (.inr (by decide)))

/-- A call that succeeds finds room on the stack. -/
theorem lt_stackSize_of_call {a : Address} (h : m.Executes (.call a))
    (hok : (m.step env).failure = none) : m.stack.length < stackSize := by
  refine Decidable.byContradiction fun hs => ?_
  rw [step_of_fault h (if_neg hs)] at hok
  cases hok

/-! ## Open calls -/

/-- **An action keeps a call open, or is the step that returns from it.** -/
theorem perform_stack {a : Action} {back : Nat} {rest : List Nat} (henv : env.sys = none)
    (ha : a.LeavesCalls) (h : (back :: rest) <:+ m.stack) :
    (back :: rest) <:+ (m.perform env a).machine.stack ∨
    (a = .step ∧ m.Executes .ret ∧ (m.perform env a).machine.pc = back ∧
      (m.perform env a).machine.stack = rest) := by
  cases a with
  | step =>
    rcases m.step_stack henv with hsame | hcall | ⟨top, below, hret, hs, hstack, hpc⟩
    · rw [perform, hsame]; exact .inl h
    · rw [perform, hcall]; exact .inl (h.trans (List.suffix_cons _ _))
    · -- the return takes the entry of this call, or one of a call made since
      rw [hs, List.suffix_cons_iff] at h
      rcases h with heq | hbelow
      · cases heq
        exact .inr ⟨rfl, hret, hpc, hstack⟩
      · rw [perform, hstack]; exact .inl hbelow
  | reset | execute => cases ha
  | _ =>
    rw [perform_same (p := .stack) (fun _ _ _ => henv) (by simp [Action.changes])]
    exact .inl h

/-- A call stays open along a history as long as the stack is deeper than it was before the call. -/
theorem run_stack {history : List Action} {back : Nat} {rest : List Nat} (henv : env.sys = none)
    (hhistory : ∀ a ∈ history, a.LeavesCalls) (h : (back :: rest) <:+ m.stack)
    (hdeep : ∀ before, before <+: history → rest.length < (run env m before).stack.length) :
    (back :: rest) <:+ (run env m history).stack := by
  induction history generalizing m with
  | nil => exact h
  | cons a history ih =>
    rcases perform_stack henv (hhistory a List.mem_cons_self) h with hopen | ⟨-, -, -, hstack⟩
    · refine ih (fun b hb => hhistory b (List.mem_cons_of_mem _ hb)) hopen fun before hbefore => ?_
      exact hdeep (a :: before) (List.cons_prefix_cons.2 ⟨rfl, hbefore⟩)
    · -- a return from this call would leave the stack as it was before
      have hfirst := hdeep [a] (List.cons_prefix_cons.2 ⟨rfl, List.nil_prefix⟩)
      rw [run_cons, run_nil, hstack] at hfirst
      exact absurd hfirst (Nat.lt_irrefl _)

/-- **Calls and returns match.** Let a step make a call, and then let any steps and other actions follow. As
long as the stack is deeper than before the call, it ends with the address after the call on top of what it held
before. The first action that leaves it no deeper is a step that returns: it goes on at the address after the
call, and the stack is what it was before. -/
theorem call_returns {a : Address} (henv : env.sys = none) (h : m.Executes (.call a))
    (hok : (m.step env).failure = none) (history : List Action)
    (hhistory : ∀ b ∈ history, b.LeavesCalls) :
    let s := (m.step env).machine
    s.stack = (m.pc + 2) :: m.stack ∧
    ((∀ before, before <+: history → m.stack.length < (run env s before).stack.length) →
      ((m.pc + 2) :: m.stack) <:+ (run env s history).stack) ∧
    ∀ before b after, history = before ++ b :: after →
      (∀ first, first <+: before → m.stack.length < (run env s first).stack.length) →
      (run env s (before ++ [b])).stack.length ≤ m.stack.length →
      b = .step ∧ (run env s before).Executes .ret ∧
        (run env s (before ++ [b])).pc = m.pc + 2 ∧ (run env s (before ++ [b])).stack = m.stack := by
  intro s
  have hs : s.stack = (m.pc + 2) :: m.stack := by
    show (m.step env).machine.stack = _
    rw [step_of_call h (lt_stackSize_of_call h hok)]
    rfl
  have hopen : ((m.pc + 2) :: m.stack) <:+ s.stack := hs ▸ List.suffix_refl _
  refine ⟨hs, run_stack henv hhistory hopen, ?_⟩
  rintro before b after rfl hdeep hdrop
  have hbefore : ∀ c ∈ before, c.LeavesCalls := fun c hc => hhistory c (List.mem_append_left _ hc)
  have hb : b.LeavesCalls := hhistory b (by simp)
  rw [run_append, run_cons, run_nil] at hdrop ⊢
  -- the call is open up to here, so the action either keeps it open or returns from it
  rcases perform_stack henv hb (run_stack henv hbefore hopen hdeep) with hstill | hreturns
  · have hlength := hstill.length_le
    rw [List.length_cons] at hlength
    omega
  · exact hreturns

/-- A call of the next address, where a return stands; before it the timers tick. -/
theorem call_returns_next :
    let m := (start (some ⟨[0x22, 0x02, 0x00, 0xEE], by decide⟩)).machine
    let env : Environment := ⟨fun _ => 0, none⟩
    let s := (m.step env).machine
    s.stack = [m.pc + 2] ∧ (run env s [.tick, .step]).pc = m.pc + 2 ∧
      (run env s [.tick, .step]).stack = [] := by
  have hstart := executes_start (p := ⟨[0x22, 0x02, 0x00, 0xEE], by decide⟩) (i := .call 0x202) rfl rfl
  rw [start, load_eq] at hstart ⊢
  intro m env s
  have hcall : m.Executes (.call 0x202) := hstart
  have hstep : m.step env = _ := step_of_call hcall (show 0 < stackSize by decide)
  have hs : s = { m with pc := 0x202, stack := [m.pc + 2], cycles := 1 } := congrArg Outcome.machine hstep
  have hstack : s.tick.stack = [m.pc + 2] := by rw [hs]; rfl
  have hret : s.tick.Executes .ret := by
    have hpc : Program.start + 2 < 4095 := by decide
    rw [hs]
    exact executes_of_nextWord rfl hpc (nextWord_load (k := 2) rfl rfl rfl rfl) rfl
  have hdeep : ∀ first, first <+: [Action.tick] → m.stack.length < (run env s first).stack.length := by
    intro first hfirst
    rcases List.prefix_cons_iff.1 hfirst with rfl | ⟨first, rfl, hnil⟩
    · rw [run_nil, hs]
      exact Nat.zero_lt_one
    · rw [List.prefix_nil.1 hnil, run_cons, run_nil, perform, Outcome.done, hstack]
      exact Nat.zero_lt_one
  have hdrop : (run env s ([.tick] ++ [.step])).stack.length ≤ m.stack.length := by
    rw [run_append, run_cons, run_nil, run_cons, run_nil, perform, perform, Outcome.done,
      step_of_ret hret hstack]
    exact Nat.le_refl 0
  obtain ⟨hopen, -, hreturns⟩ := call_returns rfl hcall (congrArg Outcome.failure hstep) [.tick, .step]
    (by simp [Action.LeavesCalls])
  obtain ⟨-, -, hback, hempty⟩ := hreturns [.tick] .step [] rfl hdeep hdrop
  exact ⟨hopen, hback, hempty⟩

end Machine

end Chip8
