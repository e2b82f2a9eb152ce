import Chip8.Proofs.Schedule

/-!
# Sessions on schedule

A session keeps to its schedule until a step fails, the host interrupts it or the steps are used up.

* `stepMany` — a number of steps. `stepWhile_eq_stepMany` — the steps of a frame are a number of steps that can be
  told before. `frame_eq` — and so can what the frame makes of the session.
* `follow` — the session after some actions. `stepMany_of_success` and `stepMany_of_failure`, `frame_of_success`
  and `frame_of_failure` say so of the steps and of the frames that are played.
* `playFor_add` — frames can be counted out in two parts.
* `playFor_onSchedule` — frames that go well leave the session on schedule.
* `Ends` — how a schedule ends, told from the machine and the host alone. `exists_ends` — every schedule does.
* `play_of_ends`, `play_schedule` — every session ends as its schedule does.
-/

set_option autoImplicit false

namespace Chip8

open Machine

namespace Session

variable {env : Environment} {settings : Settings} {host : Host}

/-! ## Sessions after some actions -/

/-- The session after some actions: its machine has gone on, and its journal tells what happened. -/
def follow (env : Environment) (s : Session) (history : List Action) : Session :=
  { s with
    machine := run env s.machine history
    journal := (Machine.tell env s.machine history).reverse ++ s.journal }

theorem follow_append (s : Session) (first second : List Action) :
    s.follow env (first ++ second) = (s.follow env first).follow env second := by
  simp only [follow, run_append, tell_append, List.reverse_append, List.append_assoc]

/-- To follow the keyboard is to move every key. -/
theorem poll_eq_follow (env : Environment) (s : Session) :
    s.poll settings host = s.follow env (settings.poll host s.frames) := by
  unfold follow
  rw [run_poll, tell_poll]
  unfold poll
  split <;> rfl

/-! ### Steps -/

/-- A number of steps, up to the first that fails. -/
def stepMany (env : Environment) : Nat → Session → Session × Option Error
  | 0, s => (s, none)
  | n + 1, s =>
    match s.step env with
    | (s, some e) => (s, some e)
    | (s, none) => stepMany env n s

theorem stepMany_add (env : Environment) (a b : Nat) (s : Session) :
    stepMany env (a + b) s =
      match stepMany env a s with
      | (t, some e) => (t, some e)
      | (t, none) => stepMany env b t := by
  induction a generalizing s with
  | zero => rw [Nat.zero_add]; rfl
  | succ a ih =>
    rw [show a + 1 + b = (a + b) + 1 by omega]
    simp only [stepMany]
    split
    · rfl
    · exact ih _

theorem step_of_success {s : Session} (h : (s.machine.step env).failure = none) :
    s.step env = ({ s.follow env [.step] with executed := s.executed + 1 }, none) := by
  simp only [step, h, follow, run_cons, run_nil, perform, Machine.tell, List.append_nil]

theorem step_of_failure {s : Session} {e : Error} (h : (s.machine.step env).failure = some e) :
    s.step env = (s.follow env [.step], some e) := by
  simp only [step, h, follow, run_cons, run_nil, perform, Machine.tell, List.append_nil]

/-- A step that succeeds counts. -/
theorem executed_step {s t : Session} (h : s.step env = (t, none)) : t.executed = s.executed + 1 := by
  cases hfailure : (s.machine.step env).failure with
  | none => rw [step_of_success hfailure] at h; cases h; rfl
  | some e => rw [step_of_failure hfailure] at h; cases h

/-- **The steps of a frame can be counted before they are made**: as many as there may be, or those that are left. -/
theorem stepWhile_eq_stepMany (n : Nat) (s : Session) :
    stepWhile env settings n s = stepMany env (settings.remaining n s.executed) s := by
  induction n generalizing s with
  | zero => rw [Settings.remaining_zero]; rfl
  | succ n ih =>
    rw [stepWhile]
    cases hused : settings.usedUp s.executed with
    | true => rw [settings.remaining_of_usedUp hused]; rfl
    | false =>
      rw [settings.remaining_succ hused, stepMany, if_neg Bool.false_ne_true]
      cases hstep : s.step env with
      | mk t failure =>
        cases failure with
        | some e => rfl
        | none =>
          dsimp only
          rw [ih, executed_step hstep]

theorem stepMany_succ_of_success {s : Session} (h : (s.machine.step env).failure = none) (n : Nat) :
    stepMany env (n + 1) s =
      stepMany env n { s.follow env [.step] with executed := s.executed + 1 } := by
  rw [stepMany, step_of_success h]

theorem stepMany_succ_of_failure {s : Session} {e : Error} (h : (s.machine.step env).failure = some e)
    (n : Nat) : stepMany env (n + 1) s = (s.follow env [.step], some e) := by
  rw [stepMany, step_of_failure h]

/-- Steps that all succeed are made. -/
theorem stepMany_of_success {s : Session} {n : Nat}
    (h : ∀ j < n, SucceedsAfter env s.machine (List.replicate j .step)) :
    stepMany env n s =
      ({ s.follow env (List.replicate n .step) with executed := s.executed + n }, none) := by
  induction n generalizing s with
  | zero => rfl
  | succ n ih =>
    have hfirst : (s.machine.step env).failure = none := h 0 (Nat.succ_pos n)
    have hcount : s.executed + 1 + n = s.executed + (n + 1) := by omega
    have hsplit : List.replicate (n + 1) Action.step = [.step] ++ List.replicate n .step := rfl
    rw [stepMany_succ_of_success hfirst, ih fun j hj => h (j + 1) (Nat.succ_lt_succ hj), hcount, hsplit,
      follow_append]
    rfl

/-- The first step that fails is the last one that is made. -/
theorem stepMany_of_failure {s : Session} {n i : Nat} {e : Error} (hi : i < n)
    (h : ∀ j < i, SucceedsAfter env s.machine (List.replicate j .step))
    (he : FailsAfter env s.machine (List.replicate i .step) e) :
    stepMany env n s =
      ({ s.follow env (List.replicate i .step ++ [.step]) with executed := s.executed + i }, some e) := by
  obtain ⟨rest, rfl⟩ : ∃ rest, n = i + (rest + 1) := ⟨n - i - 1, by omega⟩
  have hlast := stepMany_succ_of_failure
    (s := { s.follow env (List.replicate i .step) with executed := s.executed + i }) he rest
  rw [stepMany_add, stepMany_of_success h]
  dsimp only
  rw [hlast, follow_append]
  rfl

/-! ### Frames -/

/-- What ends a frame but for the interrupt: the timers tick, the screen is shown, and the host sleeps. -/
def rest (s : Session) : Session :=
  { s with
    machine := s.machine.tick
    frames := s.frames + 1
    shown := s.machine.screen :: s.shown }

theorem executed_poll (s : Session) : (s.poll settings host).executed = s.executed := by
  unfold poll
  split <;> rfl

/-- A frame is a poll, the steps that are left for it, and its rest. -/
theorem frame_eq (s : Session) :
    s.frame env settings host =
      match stepMany env (settings.stepsNow s.executed) (s.poll settings host) with
      | (t, some e) => (t, some (.failed e))
      | (t, none) =>
        (t.rest, if host.interruptAt = some (t.rest.frames : Int) then some .interrupted else none) := by
  rw [frame, stepWhile_eq_stepMany, executed_poll]
  rfl

/-- A frame whose steps all succeed ends with its rest, and the host may interrupt it there. -/
theorem frame_of_success {s : Session} {n : Nat} (hn : settings.stepsNow s.executed = n)
    (h : ∀ j < n,
      SucceedsAfter env s.machine (settings.poll host s.frames ++ List.replicate j .step)) :
    s.frame env settings host =
      (rest { s.follow env (settings.poll host s.frames ++ List.replicate n .step) with
          executed := s.executed + n },
        if host.interruptAt = some ((s.frames + 1 : Nat) : Int) then some .interrupted else none) := by
  have hsteps : stepMany env n (s.poll settings host) =
      ({ s.follow env (settings.poll host s.frames ++ List.replicate n .step) with
          executed := s.executed + n }, none) := by
    rw [poll_eq_follow env, follow_append]
    apply stepMany_of_success
    intro j hj
    exact succeedsAfter_append.1 (h j hj)
  rw [frame_eq, hn, hsteps]
  rfl

/-- A step that fails ends its frame at once. -/
theorem frame_of_failure {s : Session} {i : Nat} {e : Error} (hi : i < settings.stepsNow s.executed)
    (h : ∀ j < i, SucceedsAfter env s.machine (settings.poll host s.frames ++ List.replicate j .step))
    (he : FailsAfter env s.machine (settings.poll host s.frames ++ List.replicate i .step) e) :
    s.frame env settings host =
      ({ s.follow env (settings.poll host s.frames ++ List.replicate i .step ++ [.step]) with
          executed := s.executed + i }, some (.failed e)) := by
  have hsteps : stepMany env (settings.stepsNow s.executed) (s.poll settings host) =
      ({ s.follow env (settings.poll host s.frames ++ List.replicate i .step ++ [.step]) with
          executed := s.executed + i }, some e) := by
    rw [poll_eq_follow env, List.append_assoc, follow_append]
    apply stepMany_of_failure hi
    · intro j hj
      exact succeedsAfter_append.1 (h j hj)
    · exact failsAfter_append.1 he
  rw [frame_eq, hsteps]

/-! ### Sessions on schedule -/

/-- The session after some actions, of which some were steps that succeeded, in a number of complete frames. -/
def planned (env : Environment) (settings : Settings) (host : Host) (m : Machine) (journal : List Event)
    (history : List Action) (executed frames : Nat) : Session :=
  { (start m journal).follow env history with
    executed := executed
    frames := frames
    shown := ((List.range frames).map fun g =>
      (run env m (settings.schedule host (g + 1))).screen).reverse }

/-- The session after its first frames if all of them went well. -/
def onSchedule (env : Environment) (settings : Settings) (host : Host) (m : Machine)
    (journal : List Event) (f : Nat) : Session :=
  planned env settings host m journal (settings.schedule host f)
    ((settings.schedule host f).count .step) f

/-- All steps of a frame succeed. -/
def GoesWell (env : Environment) (settings : Settings) (host : Host) (m : Machine) (f : Nat) : Prop :=
  ∀ j < settings.stepsIn f, SucceedsAfter env m (settings.upTo host f j)

variable {m : Machine} {journal : List Event}

theorem follow_planned (first second : List Action) (executed frames : Nat) :
    (planned env settings host m journal first executed frames).follow env second =
      planned env settings host m journal (first ++ second) executed frames := by
  unfold planned
  rw [follow_append]
  rfl

/-- The next frame of a schedule is a poll, its steps, and the rest. -/
theorem onSchedule_succ (f : Nat) :
    onSchedule env settings host m journal (f + 1) =
      rest (planned env settings host m journal (settings.upTo host f (settings.stepsIn f))
        ((settings.schedule host f).count .step + settings.stepsIn f) f) := by
  have hsplit : settings.schedule host (f + 1) =
      settings.upTo host f (settings.stepsIn f) ++ [.tick] := by
    simp only [Settings.schedule, Settings.upTo, List.append_assoc]
  have hscreen : (run env m (settings.schedule host (f + 1))).screen =
      (run env m (settings.upTo host f (settings.stepsIn f))).screen := by
    rw [hsplit, run_append]
    rfl
  unfold onSchedule planned
  rw [Settings.count_step_schedule_succ, List.range_succ, List.map_append, List.reverse_append,
    List.map_singleton, hscreen, hsplit, follow_append]
  rfl

/-- A frame that goes well keeps the session on schedule. -/
theorem frame_onSchedule {f : Nat} (h : GoesWell env settings host m f) :
    (onSchedule env settings host m journal f).frame env settings host =
      (onSchedule env settings host m journal (f + 1),
        if host.interruptAt = some ((f + 1 : Nat) : Int) then some .interrupted else none) := by
  have hsteps : settings.stepsNow (onSchedule env settings host m journal f).executed =
      settings.stepsIn f := settings.stepsNow_schedule host f
  have hstarts : ∀ j < settings.stepsIn f,
      SucceedsAfter env (onSchedule env settings host m journal f).machine
        (settings.poll host f ++ List.replicate j .step) := by
    intro j hj
    exact succeedsAfter_append.1 (h j hj)
  rw [onSchedule_succ, Settings.upTo, ← follow_planned]
  exact frame_of_success hsteps hstarts

/-- A step that fails ends the session in its frame. -/
theorem frame_onSchedule_of_failure {f i : Nat} {e : Error} (hi : i < settings.stepsIn f)
    (h : ∀ j < i, SucceedsAfter env m (settings.upTo host f j))
    (he : FailsAfter env m (settings.upTo host f i) e) :
    (onSchedule env settings host m journal f).frame env settings host =
      (planned env settings host m journal (settings.upTo host f i ++ [.step])
        ((settings.schedule host f).count .step + i) f, some (.failed e)) := by
  have hsteps : settings.stepsNow (onSchedule env settings host m journal f).executed =
      settings.stepsIn f := settings.stepsNow_schedule host f
  have hframe : (onSchedule env settings host m journal f).frame env settings host =
      ({ (onSchedule env settings host m journal f).follow env
          (settings.poll host f ++ List.replicate i .step ++ [.step]) with
        executed := (settings.schedule host f).count .step + i }, some (.failed e)) := by
    apply frame_of_failure (by rw [hsteps]; exact hi)
    · intro j hj
      exact succeedsAfter_append.1 (h j hj)
    · exact failsAfter_append.1 he
  rw [hframe, Settings.upTo, List.append_assoc (settings.schedule host f), ← follow_planned]
  rfl

/-! ### Plays -/

theorem frame_ne_unfinished (s : Session) : (s.frame env settings host).2 ≠ some .unfinished := by
  rw [frame_eq]
  split
  · simp
  · dsimp only
    split <;> simp

/-- Frames can be counted out in two parts. -/
theorem playFor_add (a b : Nat) (s : Session) :
    playFor env settings host (a + b) s =
      match playFor env settings host a s with
      | (t, .unfinished) => playFor env settings host b t
      | ended => ended := by
  induction a generalizing s with
  | zero => rw [Nat.zero_add]; rfl
  | succ a ih =>
    rw [show a + 1 + b = (a + b) + 1 by omega]
    simp only [playFor]
    split
    · rfl
    · have hne : (s.frame env settings host).2 ≠ some .unfinished := s.frame_ne_unfinished
      cases hframe : s.frame env settings host with
      | mk t ending =>
        rw [hframe] at hne
        cases ending with
        | none => exact ih t
        | some ending =>
          cases ending with
          | unfinished => exact absurd rfl hne
          | _ => rfl

/-- Frames that go well and are not interrupted leave the session on schedule. -/
theorem playFor_onSchedule {n : Nat} (hwell : ∀ f < n, GoesWell env settings host m f)
    (hgoes : ∀ f < n, settings.usedUp ((settings.schedule host f).count .step) = false)
    (hhost : ∀ f < n, host.interruptAt ≠ some ((f + 1 : Nat) : Int)) :
    playFor env settings host n (start m journal) =
      (onSchedule env settings host m journal n, .unfinished) := by
  induction n with
  | zero => rfl
  | succ n ih =>
    have hn := Nat.lt_succ_self n
    have hgoes' : settings.usedUp (onSchedule env settings host m journal n).executed = false :=
      hgoes n hn
    rw [playFor_add, ih (fun f hf => hwell f (Nat.lt_succ_of_lt hf))
      (fun f hf => hgoes f (Nat.lt_succ_of_lt hf)) (fun f hf => hhost f (Nat.lt_succ_of_lt hf))]
    simp only [playFor, hgoes', frame_onSchedule (hwell n hn), if_neg (hhost n hn), Bool.false_eq_true, if_false]

/-! ## How schedules end -/

/-- How a schedule of some steps ends: with an ending, after some actions, of which some are calls for a step, and
after a number of complete frames. -/
inductive Ends (env : Environment) (settings : Settings) (host : Host) (m : Machine) (budget : Nat) :
    Ending → List Action → Nat → Nat → Prop where
  /-- All steps succeed, and the host does not interrupt. -/
  | completed
      (hsteps : ∀ i < budget, SucceedsAfter env m (settings.beforeStep host i))
      (hhost : ∀ k, 1 ≤ k → k ≤ settings.framesFor budget → host.interruptAt ≠ some (k : Int)) :
      Ends env settings host m budget .completed
        (settings.schedule host (settings.framesFor budget)) budget (settings.framesFor budget)
  /-- A step is the first to fail, and the host did not interrupt the frames before its own. -/
  | failed {i : Nat} {e : Error} (hi : i < budget)
      (hsteps : ∀ j < i, SucceedsAfter env m (settings.beforeStep host j))
      (he : FailsAfter env m (settings.beforeStep host i) e)
      (hhost : ∀ k, 1 ≤ k → k ≤ i / settings.stepsPerFrame → host.interruptAt ≠ some (k : Int)) :
      Ends env settings host m budget (.failed e)
        (settings.beforeStep host i ++ [.step]) (i + 1) (i / settings.stepsPerFrame)
  /-- The host interrupts after a frame, and the steps up to then succeed. -/
  | interrupted {k : Nat} (hk : 1 ≤ k) (hframes : k ≤ settings.framesFor budget)
      (hhost : host.interruptAt = some (k : Int))
      (hsteps : ∀ i < min (k * settings.stepsPerFrame) budget,
        SucceedsAfter env m (settings.beforeStep host i)) :
      Ends env settings host m budget .interrupted
        (settings.schedule host k) (min (k * settings.stepsPerFrame) budget) k

/-- A frame goes well if its steps are among the first ones, which succeed. -/
theorem goesWell_of_first {most : Int} {f first : Nat} (hmost : settings.maxCycles = some most)
    (hsteps : ∀ i < first, SucceedsAfter env m (settings.beforeStep host i))
    (hfirst : min ((f + 1) * settings.stepsPerFrame) most.toNat ≤ first) :
    GoesWell env settings host m f := by
  intro j hj
  simp only [Settings.stepsIn, hmost] at hj
  rw [Nat.succ_mul] at hfirst
  rw [← settings.beforeStep_mul_add host (by omega)]
  exact hsteps _ (by omega)

/-- The first frames of a session whose first steps succeed. -/
theorem playFor_of_first {most : Int} {n first : Nat} (hmost : settings.maxCycles = some most)
    (hsteps : ∀ i < first, SucceedsAfter env m (settings.beforeStep host i))
    (hfirst : min (n * settings.stepsPerFrame) most.toNat ≤ first)
    (hn : n ≤ settings.framesFor most.toNat)
    (hhost : ∀ k, 1 ≤ k → k ≤ n → host.interruptAt ≠ some (k : Int)) :
    playFor env settings host n (start m journal) =
      (onSchedule env settings host m journal n, .unfinished) := by
  apply playFor_onSchedule
  · intro f hf
    apply goesWell_of_first hmost hsteps
    have hmul : (f + 1) * settings.stepsPerFrame ≤ n * settings.stepsPerFrame :=
      Nat.mul_le_mul_right _ hf
    omega
  · intro f hf
    rw [← Bool.not_eq_true, settings.usedUp_schedule host hmost]
    omega
  · intro f hf
    exact hhost (f + 1) (Nat.succ_pos f) hf

/-- A session with a number of steps goes on for one frame more than any number of frames that it has. -/
theorem play_eq_playFor (env : Environment) (host : Host) {most : Int} {n : Nat}
    (hmost : settings.maxCycles = some most) (hn : n ≤ settings.framesFor most.toNat) (s : Session) :
    ∃ r, play env settings host s = playFor env settings host (n + (r + 1)) s := by
  have hpace := settings.stepsPerFrame_pos
  have hframes : settings.framesFor most.toNat ≤ most.toNat := by
    rw [Settings.framesFor_le_iff]
    exact Nat.le_mul_of_pos_right _ hpace
  refine ⟨most.toNat - n, ?_⟩
  have hsum : n + (most.toNat - n + 1) = most.toNat + 1 := by omega
  rw [play, Settings.horizon, hmost, hsum]

theorem play_of_completed {most : Int} (hmost : settings.maxCycles = some most)
    (hsteps : ∀ i < most.toNat, SucceedsAfter env m (settings.beforeStep host i))
    (hhost : ∀ k, 1 ≤ k → k ≤ settings.framesFor most.toNat → host.interruptAt ≠ some (k : Int)) :
    play env settings host (start m journal) =
      (onSchedule env settings host m journal (settings.framesFor most.toNat), .completed) := by
  have hlast := Nat.le_refl (settings.framesFor most.toNat)
  have hused : settings.usedUp (onSchedule env settings host m journal
      (settings.framesFor most.toNat)).executed = true :=
    (settings.usedUp_schedule host hmost _).2 hlast
  obtain ⟨r, hr⟩ := play_eq_playFor env host hmost hlast (start m journal)
  rw [hr, playFor_add, playFor_of_first hmost hsteps (Nat.min_le_right _ _) hlast hhost]
  simp only [playFor, hused, if_true]

theorem play_of_failed {most : Int} {i : Nat} {e : Error} (hmost : settings.maxCycles = some most)
    (hi : i < most.toNat) (hsteps : ∀ j < i, SucceedsAfter env m (settings.beforeStep host j))
    (he : FailsAfter env m (settings.beforeStep host i) e)
    (hhost : ∀ k, 1 ≤ k → k ≤ i / settings.stepsPerFrame → host.interruptAt ≠ some (k : Int)) :
    play env settings host (start m journal) =
      (planned env settings host m journal (settings.beforeStep host i ++ [.step])
        ((settings.schedule host (i / settings.stepsPerFrame)).count .step + i % settings.stepsPerFrame)
        (i / settings.stepsPerFrame), .failed e) := by
  have hdivision := Nat.div_add_mod' i settings.stepsPerFrame
  have hmod := Nat.mod_lt i settings.stepsPerFrame_pos
  have hlt : ¬ settings.framesFor most.toNat ≤ i / settings.stepsPerFrame := by
    rw [Settings.framesFor_le_iff]
    omega
  have hused : settings.usedUp (onSchedule env settings host m journal
      (i / settings.stepsPerFrame)).executed = false := by
    rw [← Bool.not_eq_true]
    exact fun h => hlt ((settings.usedUp_schedule host hmost _).1 h)
  have hstep : i % settings.stepsPerFrame < settings.stepsIn (i / settings.stepsPerFrame) := by
    simp only [Settings.stepsIn, hmost]
    omega
  have hearlier : ∀ j < i % settings.stepsPerFrame,
      SucceedsAfter env m (settings.upTo host (i / settings.stepsPerFrame) j) := by
    intro j hj
    rw [← settings.beforeStep_mul_add host (Nat.lt_trans hj hmod)]
    exact hsteps _ (by omega)
  obtain ⟨r, hr⟩ := play_eq_playFor env host hmost (Nat.le_of_not_le hlt)
    (start m journal)
  rw [hr, playFor_add, playFor_of_first hmost hsteps (by omega) (Nat.le_of_not_le hlt) hhost]
  simp only [playFor, hused, frame_onSchedule_of_failure hstep hearlier he, Bool.false_eq_true, if_false]
  rfl

theorem play_of_interrupted {most : Int} {n : Nat} (hmost : settings.maxCycles = some most)
    (hn : n < settings.framesFor most.toNat) (hhost : host.interruptAt = some ((n + 1 : Nat) : Int))
    (hsteps : ∀ i < min ((n + 1) * settings.stepsPerFrame) most.toNat,
      SucceedsAfter env m (settings.beforeStep host i)) :
    play env settings host (start m journal) =
      (onSchedule env settings host m journal (n + 1), .interrupted) := by
  have hused : settings.usedUp (onSchedule env settings host m journal n).executed = false := by
    rw [← Bool.not_eq_true]
    exact fun h => Nat.not_le_of_lt hn ((settings.usedUp_schedule host hmost _).1 h)
  have hfirst : min (n * settings.stepsPerFrame) most.toNat ≤
      min ((n + 1) * settings.stepsPerFrame) most.toNat := by
    rw [Nat.succ_mul]
    omega
  have hother : ∀ k, 1 ≤ k → k ≤ n → host.interruptAt ≠ some (k : Int) := by
    intro k _ hkn hk
    rw [hhost, Option.some.injEq] at hk
    omega
  have hwell := goesWell_of_first hmost hsteps (Nat.le_refl _)
  obtain ⟨r, hr⟩ := play_eq_playFor env host hmost (Nat.le_of_lt hn) (start m journal)
  rw [hr, playFor_add, playFor_of_first hmost hsteps hfirst (Nat.le_of_lt hn) hother]
  simp only [playFor, hused, frame_onSchedule hwell, hhost, Bool.false_eq_true, if_false, if_true]

/-- **A session ends as its schedule does.** -/
theorem play_of_ends (journal : List Event) {most : Int} {ending : Ending} {history : List Action} {calls frames : Nat}
    (hmost : settings.maxCycles = some most)
    (h : Ends env settings host m most.toNat ending history calls frames) :
    ∃ executed, play env settings host (start m journal) =
      (planned env settings host m journal history executed frames, ending) := by
  cases h with
  | completed hsteps hhost => exact ⟨_, play_of_completed hmost hsteps hhost⟩
  | failed hi hsteps he hhost => exact ⟨_, play_of_failed hmost hi hsteps he hhost⟩
  | interrupted hk hframes hhost hsteps =>
    obtain ⟨n, rfl⟩ : ∃ n, frames = n + 1 := ⟨frames - 1, by omega⟩
    exact ⟨_, play_of_interrupted hmost hframes hhost hsteps⟩

/-! ## Every schedule ends -/

/-- Where each number has one of two properties, all numbers below a bound have the first, or one of them is the first
to have the second. -/
theorem all_or_first {P Q : Nat → Prop} (h : ∀ i, P i ∨ Q i) (n : Nat) :
    (∀ i < n, P i) ∨ ∃ i < n, (∀ j < i, P j) ∧ Q i := by
  induction n with
  | zero => exact .inl fun i hi => absurd hi (Nat.not_lt_zero i)
  | succ n ih =>
    rcases ih with hall | ⟨i, hi, hbefore, hfirst⟩
    · rcases h n with hn | hn
      · refine .inl fun i hi => ?_
        rcases Nat.lt_succ_iff_lt_or_eq.1 hi with hi | rfl
        · exact hall i hi
        · exact hn
      · exact .inr ⟨n, Nat.lt_succ_self n, hall, hn⟩
    · exact .inr ⟨i, Nat.lt_succ_of_lt hi, hbefore, hfirst⟩

/-- Of some steps all succeed, or one is the first to fail. -/
theorem all_or_first_failure (env : Environment) (m : Machine) (next : Nat → List Action) (n : Nat) :
    (∀ i < n, SucceedsAfter env m (next i)) ∨
    ∃ i < n, ∃ e, (∀ j < i, SucceedsAfter env m (next j)) ∧ FailsAfter env m (next i) e := by
  have hstep : ∀ i, SucceedsAfter env m (next i) ∨ ∃ e, FailsAfter env m (next i) e := by
    intro i
    cases he : ((run env m (next i)).step env).failure with
    | none => exact .inl he
    | some e => exact .inr ⟨e, he⟩
  rcases all_or_first hstep n with hall | ⟨i, hi, hbefore, e, he⟩
  · exact .inl hall
  · exact .inr ⟨i, hi, e, hbefore, he⟩

/-- Every schedule ends in one of the three ways. -/
theorem exists_ends (env : Environment) (settings : Settings) (host : Host) (m : Machine) (budget : Nat) :
    ∃ ending history calls frames, Ends env settings host m budget ending history calls frames := by
  have hpace := settings.stepsPerFrame_pos
  rcases all_or_first_failure env m (settings.beforeStep host) budget with
    hall | ⟨i, hi, e, hbefore, he⟩
  · by_cases hhost : ∃ k, 1 ≤ k ∧ k ≤ settings.framesFor budget ∧ host.interruptAt = some (k : Int)
    · obtain ⟨k, hk, hframes, hhost⟩ := hhost
      exact ⟨_, _, _, _, .interrupted hk hframes hhost fun i hi => hall i (by omega)⟩
    · exact ⟨_, _, _, _, .completed hall fun k hk hframes h => hhost ⟨k, hk, hframes, h⟩⟩
  · by_cases hhost : ∃ k, 1 ≤ k ∧ k ≤ i / settings.stepsPerFrame ∧ host.interruptAt = some (k : Int)
    · obtain ⟨k, hk, hframes, hhost⟩ := hhost
      -- the interrupt comes before the step that would fail
      have hmul := (Nat.le_div_iff_mul_le hpace).1 hframes
      have hlast : ¬ settings.framesFor budget ≤ k - 1 := by
        rw [Settings.framesFor_le_iff, Nat.sub_mul]
        omega
      exact ⟨_, _, _, _, .interrupted hk (by omega) hhost fun j hj => hbefore j (by omega)⟩
    · exact ⟨_, _, _, _, .failed hi hbefore he fun k hk hframes h => hhost ⟨k, hk, hframes, h⟩⟩

namespace Ends

variable {budget calls frames : Nat} {ending : Ending} {history : List Action}

/-- The calls for a step are as many as the schedule says. -/
theorem count_step {most : Int} (hmost : settings.maxCycles = some most)
    (h : Ends env settings host m most.toNat ending history calls frames) : history.count .step = calls := by
  cases h with
  | completed =>
    have hfull := settings.framesFor_le_iff.1 (Nat.le_refl (settings.framesFor most.toNat))
    rw [settings.count_step_schedule host hmost]
    omega
  | @failed i e hi =>
    have hdivision := Nat.div_add_mod' i settings.stepsPerFrame
    rw [Settings.beforeStep, List.count_append, settings.count_step_upTo,
      settings.count_step_schedule host hmost, List.count_singleton_self]
    omega
  | interrupted => exact settings.count_step_schedule host hmost _

/-- The timers tick once in every complete frame. -/
theorem count_tick (h : Ends env settings host m budget ending history calls frames) :
    history.count .tick = frames := by
  cases h with
  | completed | interrupted => exact settings.count_tick_schedule host _
  | failed =>
    rw [Settings.beforeStep, List.count_append, settings.count_tick_upTo]
    rfl

theorem aroundWait (h : Ends env settings host m budget ending history calls frames) :
    ∀ a ∈ history, a.AroundWait := by
  cases h with
  | completed | interrupted => exact settings.aroundWait_schedule host _
  | failed =>
    intro a ha
    rw [List.mem_append, List.mem_singleton] at ha
    rcases ha with ha | rfl
    · exact settings.aroundWait_upTo host (settings.aroundWait_schedule host _) a ha
    · exact .step

end Ends

/-- **A session keeps to its schedule.** Let a session have a number of steps, which may be zero or negative. Its
schedule ends in exactly one way: all steps are made, or one is the first to fail, or the host interrupts first. The
session then ends so, after the actions of the schedule up to there, with as many calls for a step, and with as
many ticks, screens and sleeps as frames were complete. The screens are those after each frame, what is told is
what these actions tell, and the machine has counted the steps that succeeded without looking for a key. -/
theorem play_schedule (henv : env.sys = none) {most : Int} (hmost : settings.maxCycles = some most)
    (m : Machine) (journal : List Event) :
    (settings.stepsPerFrame : Int) = max 1 (settings.cyclesPerSecond / 60) ∧
    (∃ ending history calls frames, Ends env settings host m most.toNat ending history calls frames) ∧
    ∀ ending history calls frames, Ends env settings host m most.toNat ending history calls frames →
      ∃ s, play env settings host (start m journal) = (s, ending) ∧
        s.machine = run env m history ∧
        history.count .step = calls ∧ history.count .tick = frames ∧ s.frames = frames ∧
        s.shown.reverse =
          (List.range frames).map (fun f => (run env m (settings.schedule host (f + 1))).screen) ∧
        s.output = String.join ((List.range frames).map fun f =>
          (run env m (settings.schedule host (f + 1))).screen.picture ++ "\n") ∧
        s.events = journal.reverse ++ Machine.tell env m history ∧
        s.machine.cycles = m.cycles + counted env m history := by
  refine ⟨?_, exists_ends env settings host m most.toNat, ?_⟩
  · unfold Settings.stepsPerFrame
    omega
  · intro ending history calls frames h
    obtain ⟨executed, hplay⟩ := play_of_ends journal hmost h
    refine ⟨_, hplay, rfl, h.count_step hmost, h.count_tick, rfl, ?_, ?_, ?_, ?_⟩
    · exact List.reverse_reverse _
    · rw [output, planned, List.reverse_reverse, List.map_map]
      rfl
    · simp [planned, events, follow, start]
    · exact run_cycles henv m history h.aroundWait

/-- Two steps, each a frame of its own because the speed is negative: one that does nothing, and a return with no
call open. The host would interrupt the second frame. -/
theorem play_schedule_ret :
    let env : Environment := ⟨fun _ => 0, none⟩
    let settings : Settings := ⟨-5, some 5, true⟩
    let host : Host := ⟨[["a"], ["a", "b"]], some 2⟩
    let m := (Machine.start (some ⟨[0x00, 0x01, 0x00, 0xEE], by decide⟩)).machine
    ∃ s, play env settings host (start m []) = (s, .failed (.fault .stackUnderflow)) ∧
      s.frames = 1 ∧ s.shown.length = 1 := by
  rw [Machine.start, load_eq]
  intro env settings host m
  -- the first step only moves on, whichever keys are held
  have hfirst : ∀ keypad, { m with keypad }.Executes (.sys 1) := by
    intro keypad
    exact executes_loaded (k := 0) rfl rfl rfl rfl rfl rfl
  have hstep : ∀ keypad, { m with keypad }.step env =
      ⟨{ m with keypad, pc := Program.start + 2, cycles := 1 },
        [.executing Program.start (.sys 1), .ignoredSys 1], none⟩ := by
    intro keypad
    rw [step_of_executes (hfirst keypad)]
    rfl
  have hsecond : ∀ before keypad, Executes
      { { m with keypad := before, pc := Program.start + 2, cycles := 1 }.tick with keypad } .ret := by
    intro before keypad
    exact executes_loaded (k := 2) rfl rfl rfl rfl rfl rfl
  have hpace : settings.stepsPerFrame = 1 := by decide
  have hsteps : settings.stepsIn 0 = 1 := by decide
  have hzero : settings.beforeStep host 0 = settings.poll host 0 := by
    simp [Settings.beforeStep, Settings.upTo, Settings.schedule]
  have hone : settings.beforeStep host 1 =
      settings.poll host 0 ++ (.step :: .tick :: settings.poll host 1) := by
    simp [Settings.beforeStep, Settings.upTo, Settings.schedule, hpace, hsteps]
  have hends : Ends env settings host m 5 (.failed (.fault .stackUnderflow))
      (settings.beforeStep host 1 ++ [.step]) 2 (1 / settings.stepsPerFrame) := by
    refine .failed (show 1 < 5 by decide) ?_ ?_ ?_
    · intro j hj
      obtain rfl : j = 0 := by omega
      rw [SucceedsAfter, hzero, run_poll, hstep]
    · rw [FailsAfter, hone, run_append, run_poll, run_cons, perform, hstep, run_cons, run_poll]
      exact congrArg Outcome.failure (step_of_fault (f := .stackUnderflow) (hsecond _ _) rfl)
    · intro k hk hle h
      rw [Option.some.injEq] at h
      rw [hpace] at hle
      omega
  rw [hpace] at hends
  obtain ⟨-, -, hplay⟩ := @play_schedule env settings host rfl 5 rfl m []
  obtain ⟨s, hs, -, -, -, hframes, hshown, -⟩ := hplay _ _ _ _ hends
  refine ⟨s, hs, hframes, ?_⟩
  rw [← List.length_reverse, hshown, List.length_map, List.length_range]

end Session

end Chip8
