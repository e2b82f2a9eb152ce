import Chip8.Proofs.Cells
import Chip8.Proofs.Play

/-!
# Waiting for a key in a session

A session looks at the host's keyboard once in a frame. A key that an instruction waits for is therefore one that
the host holds in a frame and did not hold in the frame before, and of several such keys the smallest.

* `Host.presses` — what the host makes a press.
* `StillWaits` — nothing has happened since the instruction but that the timers ticked and the keypad followed.
  `StillWaits.next` and `StillWaits.strike` — the next frame without and with a press.
* `Enters`, `Reaches` — the frames that a session begins, and the steps that it calls for.
* `stillWaits_of_enters` — the wait goes on from frame to frame while there is no press.
* `wait_over_frames` — so it ends in the first step of the first frame with a press, with the smallest key.
-/

set_option autoImplicit false

namespace Chip8

/-- Whether a key goes down in a frame: the host holds it then, and did not in the frame before. -/
def Host.presses (host : Host) (frame : Nat) (k : Key) : Bool :=
  host.holds frame k && !host.holds (frame - 1) k

/-- The smallest key with a property is the first of them. -/
theorem Key.filter_all_of_least {held : Key → Bool} {k : Key} (hk : held k = true)
    (hleast : ∀ l, held l = true → k ≤ l) : ∃ later, Key.all.filter held = k :: later := by
  have hmem : ∀ l, l ∈ Key.all.filter held ↔ held l = true := by
    intro l
    simp [Key.all]
  have hsorted : (Key.all.filter held).Pairwise (· < ·) :=
    List.Pairwise.filter held (by decide : Key.all.Pairwise (· < ·))
  have hfound := (hmem k).2 hk
  cases hfilter : Key.all.filter held with
  | nil => rw [hfilter] at hfound; cases hfound
  | cons l later =>
    rw [hfilter] at hfound hsorted hmem
    have hle : k ≤ l := hleast l ((hmem l).1 List.mem_cons_self)
    rcases List.mem_cons.1 hfound with rfl | hlater
    · exact ⟨later, rfl⟩
    · exact absurd ((List.pairwise_cons.1 hsorted).1 k hlater) (Fin.not_lt.2 hle)

namespace Machine

variable {env : Environment}

/-! ## From frame to frame -/

/-- The machine after the rest of a frame and the poll of the next one. -/
def intoFrame (host : Host) (frame : Nat) (n : Machine) : Machine :=
  { n.tick with keypad := n.keypad.observe (host.holds frame) }

/-- Since a step in frame `f` left the state `w`, the machine has only waited: up to frame `g` its timers ticked and
its keypad followed the host, and nothing was recorded. -/
structure StillWaits (host : Host) (w : Machine) (x : Register) (f g : Nat) (n : Machine) : Prop where
  waits : n.Waits x []
  follows : ∀ k, n.keypad.isPressed k = host.holds g k
  only : n = { w with keypad := n.keypad, delay := w.delay - (g - f), sound := w.sound - (g - f) }

namespace StillWaits

variable {host : Host} {w n : Machine} {x : Register} {f g : Nat}

theorem refl (hw : w.Waits x []) (hkeys : ∀ k, w.keypad.isPressed k = host.holds f k) :
    StillWaits host w x f f w := by
  refine ⟨hw, hkeys, ?_⟩
  rw [Nat.sub_self]
  rfl

/-- The presses that the next poll records are those of the keys that go down. -/
theorem presses_next (h : StillWaits host w x f g n) :
    (n.intoFrame host (g + 1)).keypad.presses = Key.all.filter (host.presses (g + 1)) := by
  refine (Keypad.presses_observe (host.holds (g + 1)) h.waits.waiting_eq).trans ?_
  rw [h.waits.presses_eq, List.nil_append]
  refine List.filter_congr fun k _ => ?_
  rw [h.follows k]
  rfl

theorem waits_next (h : StillWaits host w x f g n) :
    (n.intoFrame host (g + 1)).Waits x (Key.all.filter (host.presses (g + 1))) := by
  refine ⟨?_, ?_, h.presses_next⟩
  · dsimp only [intoFrame, tick]
    exact h.waits.awaiting_eq
  · dsimp only [intoFrame, tick]
    rw [Keypad.waiting_observe, h.waits.waiting_eq]

theorem only_next (h : StillWaits host w x f g n) (hfg : f ≤ g) :
    n.intoFrame host (g + 1) =
      { w with
        keypad := (n.intoFrame host (g + 1)).keypad
        delay := w.delay - (g + 1 - f)
        sound := w.sound - (g + 1 - f) } := by
  have hcount : g + 1 - f = g - f + 1 := by omega
  have hdelay : n.delay = w.delay - (g - f) := by rw [h.only]
  have hsound : n.sound = w.sound - (g - f) := by rw [h.only]
  unfold intoFrame tick
  rw [hcount, ← Nat.sub_sub, ← Nat.sub_sub, ← hdelay, ← hsound]
  rw [h.only]

/-- Without a press the wait goes on. -/
theorem next (h : StillWaits host w x f g n) (hfg : f ≤ g) (hquiet : ∀ k, host.presses (g + 1) k = false) :
    StillWaits host w x f (g + 1) (n.intoFrame host (g + 1)) := by
  have hnone : Key.all.filter (host.presses (g + 1)) = [] := by
    apply List.filter_eq_nil_iff.2
    intro k _
    simp [hquiet k]
  have hwaits := h.waits_next
  rw [hnone] at hwaits
  exact ⟨hwaits, n.keypad.isPressed_observe (host.holds (g + 1)), h.only_next hfg⟩

/-- Of the keys that go down the smallest is recorded first. -/
theorem strike {k : Key} (h : StillWaits host w x f g n) (hk : host.presses (g + 1) k = true)
    (hleast : ∀ l, host.presses (g + 1) l = true → k ≤ l) :
    ∃ later, (n.intoFrame host (g + 1)).Waits x (k :: later) := by
  obtain ⟨later, hlater⟩ := Key.filter_all_of_least hk hleast
  have hwaits := h.waits_next
  rw [hlater] at hwaits
  exact ⟨later, hwaits⟩

end StillWaits

end Machine

open Machine

namespace Session

variable {env : Environment} {settings : Settings} {host : Host}

/-! ## Frames and steps of a session -/

/-- A frame begins: those before it are over, and there are steps left. -/
def Enters (env : Environment) (settings : Settings) (host : Host) (s : Session) (f : Nat) (t : Session) :
    Prop :=
  playFor env settings host f s = (t, .unfinished) ∧ settings.usedUp t.executed = false

/-- A step of a frame is called for: the frame began and has so many steps, and those before it succeeded. -/
def Reaches (env : Environment) (settings : Settings) (host : Host) (s : Session) (f j : Nat) (u : Session) :
    Prop :=
  ∃ t, Enters env settings host s f t ∧ j < settings.stepsNow t.executed ∧
    stepMany env j (t.poll settings host) = (u, none)

/-- A frame that does not end the session is a poll, its steps, and the rest. -/
theorem frame_eq_none {s t : Session} (h : s.frame env settings host = (t, none)) :
    ∃ r, stepMany env (settings.stepsNow s.executed) (s.poll settings host) = (r, none) ∧ t = r.rest := by
  rw [frame_eq] at h
  split at h
  · cases h
  · rename_i r hr
    exact ⟨r, hr, (congrArg Prod.fst h).symm⟩

/-- The first of some frames that do not end the session. -/
theorem playFor_succ_unfinished {s t : Session} {n : Nat}
    (h : playFor env settings host (n + 1) s = (t, .unfinished)) :
    settings.usedUp s.executed = false ∧
      ∃ r, s.frame env settings host = (r, none) ∧ playFor env settings host n r = (t, .unfinished) := by
  rw [playFor] at h
  split at h
  · cases h
  · rename_i hgoes
    have hne : (s.frame env settings host).2 ≠ some .unfinished := s.frame_ne_unfinished
    refine ⟨by simpa using hgoes, ?_⟩
    cases hframe : s.frame env settings host with
    | mk r ending =>
      rw [hframe] at h hne
      cases ending with
      | none => exact ⟨r, rfl, h⟩
      | some ending => exact absurd (congrArg some (congrArg Prod.snd h)) hne

theorem frames_poll (s : Session) : (s.poll settings host).frames = s.frames := by
  unfold poll
  split <;> rfl

/-- A step leaves the keys and the number of frames as they are. -/
theorem step_keeps (henv : env.sys = none) (s : Session) :
    (s.step env).1.machine.keypad.states = s.machine.keypad.states ∧ (s.step env).1.frames = s.frames := by
  have hstates := step_states henv s.machine
  simp only [step]
  split <;> exact ⟨hstates, rfl⟩

/-- So do many steps. -/
theorem stepMany_keeps (henv : env.sys = none) (n : Nat) (s : Session) :
    (stepMany env n s).1.machine.keypad.states = s.machine.keypad.states ∧
      (stepMany env n s).1.frames = s.frames := by
  induction n generalizing s with
  | zero => exact ⟨rfl, rfl⟩
  | succ n ih =>
    obtain ⟨hkeys, hframes⟩ := step_keeps henv s
    rw [stepMany]
    cases hstep : s.step env with
    | mk t failure =>
      rw [hstep] at hkeys hframes
      cases failure with
      | some e => exact ⟨hkeys, hframes⟩
      | none => exact ⟨(ih t).1.trans hkeys, (ih t).2.trans hframes⟩

theorem frames_playFor (henv : env.sys = none) {n : Nat} {s t : Session}
    (h : playFor env settings host n s = (t, .unfinished)) : t.frames = s.frames + n := by
  induction n generalizing s with
  | zero => cases h; rfl
  | succ n ih =>
    obtain ⟨-, r, hframe, hplay⟩ := playFor_succ_unfinished h
    obtain ⟨r', hsteps, rfl⟩ := frame_eq_none hframe
    have hframes := (stepMany_keeps henv (settings.stepsNow s.executed) (s.poll settings host)).2
    rw [hsteps, frames_poll] at hframes
    rw [ih hplay, rest, ← hframes]
    dsimp only
    omega

/-- After the poll of a frame, the keypad has the keys that the host holds in it. -/
theorem machine_poll_of_enters (henv : env.sys = none) (hkeyboard : settings.keyboard = true)
    {m : Machine} {journal : List Event} {f : Nat} {t : Session}
    (h : Enters env settings host (start m journal) f t) :
    (t.poll settings host).machine =
      { t.machine with keypad := t.machine.keypad.observe (host.holds f) } := by
  have hframes : t.frames = 0 + f := frames_playFor henv h.1
  rw [poll, if_pos hkeyboard, hframes, Nat.zero_add]

/-! ## Waiting from frame to frame -/

/-- Steps of a machine that waits without a press are made and do nothing. -/
theorem stepMany_of_waits {s : Session} {x : Register} (h : s.machine.Waits x []) (n : Nat) :
    stepMany env n s = ({ s with executed := s.executed + n }, none) := by
  induction n generalizing s with
  | zero => rfl
  | succ n ih =>
    have hstep : s.step env = ({ s with executed := s.executed + 1 }, none) := by
      simp only [step, h.step_of_nil, Outcome.done, List.reverse_nil, List.nil_append]
    have hcount : s.executed + 1 + n = s.executed + (n + 1) := by omega
    rw [stepMany, hstep]
    dsimp only
    rw [ih (s := { s with executed := s.executed + 1 }) h, hcount]

/-- The instruction that begins a wait is made, and so are the steps after it, which do nothing. -/
theorem stepMany_of_awaitKey {u : Session} {x : Register} (h : u.machine.Executes (.awaitKey x)) (n : Nat) :
    ∃ v, stepMany env (n + 1) u = (v, none) ∧ v.machine = (u.machine.step env).machine ∧
      v.frames = u.frames := by
  have hsuccess : (u.machine.step env).failure = none := by
    rw [step_of_executes h]
    rfl
  have hwaits : (u.machine.step env).machine.Waits x [] := (step_of_awaitKey h).1
  refine ⟨{ u.follow env [.step] with executed := u.executed + 1 + n }, ?_, rfl, rfl⟩
  rw [stepMany_succ_of_success hsuccess]
  exact stepMany_of_waits hwaits n

/-- A frame in which the machine only waits comes to its rest in the state after its poll. -/
theorem frame_of_waits {t r : Session} {x : Register} (h : (t.poll settings host).machine.Waits x [])
    (hframe : t.frame env settings host = (r, none)) :
    r.machine = (t.poll settings host).machine.tick ∧ r.frames = t.frames + 1 := by
  obtain ⟨r', hsteps, rfl⟩ := frame_eq_none hframe
  rw [stepMany_of_waits h] at hsteps
  cases hsteps
  exact ⟨rfl, congrArg (· + 1) (t.frames_poll)⟩

/-- The frame of the instruction comes to its rest in the state that the instruction left. -/
theorem frame_of_awaitKey (henv : env.sys = none) {t u r : Session} {x : Register} {j : Nat}
    (hj : j < settings.stepsNow t.executed) (hsteps : stepMany env j (t.poll settings host) = (u, none))
    (hu : u.machine.Executes (.awaitKey x)) (hframe : t.frame env settings host = (r, none)) :
    r.machine = (u.machine.step env).machine.tick ∧ r.frames = t.frames + 1 := by
  obtain ⟨n, hn⟩ : ∃ n, settings.stepsNow t.executed = j + (n + 1) :=
    ⟨settings.stepsNow t.executed - j - 1, by omega⟩
  obtain ⟨v, hv, hmachine, hframes⟩ := @stepMany_of_awaitKey env u x hu n
  have hframes' := (stepMany_keeps henv j (t.poll settings host)).2
  obtain ⟨r', hall, rfl⟩ := frame_eq_none hframe
  rw [hsteps, frames_poll] at hframes'
  rw [hn, stepMany_add, hsteps] at hall
  dsimp only at hall
  rw [hv] at hall
  cases hall
  rw [rest, hmachine, hframes, hframes']
  exact ⟨rfl, rfl⟩

theorem machine_poll_of_rest (hkeyboard : settings.keyboard = true) {t : Session} {n : Machine} {g : Nat}
    (hmachine : t.machine = n.tick) (hframes : t.frames = g + 1) :
    (t.poll settings host).machine = n.intoFrame host (g + 1) := by
  rw [poll, if_pos hkeyboard, hframes, hmachine]
  rfl

/-- **Frames without a press.** The session comes to the next frame with a machine that still waits. -/
theorem playFor_of_waits (hkeyboard : settings.keyboard = true) {w n : Machine} {x : Register} {f g d : Nat}
    {t t' : Session} (hmachine : t.machine = n.tick) (hframes : t.frames = g + 1)
    (hwaits : StillWaits host w x f g n) (hfg : f ≤ g)
    (hquiet : ∀ h k, g < h → h ≤ g + d → host.presses h k = false)
    (hplay : playFor env settings host d t = (t', .unfinished)) :
    ∃ n', StillWaits host w x f (g + d) n' ∧ (t'.poll settings host).machine = n'.intoFrame host (g + d + 1) := by
  induction d generalizing t n g with
  | zero =>
    cases hplay
    exact ⟨n, hwaits, machine_poll_of_rest hkeyboard hmachine hframes⟩
  | succ d ih =>
    obtain ⟨-, r, hframe, hplay⟩ := playFor_succ_unfinished hplay
    have hpoll := @machine_poll_of_rest settings host hkeyboard t n g hmachine hframes
    have hnext := hwaits.next hfg fun k => hquiet (g + 1) k (by omega) (by omega)
    obtain ⟨hmachine', hframes'⟩ := frame_of_waits (hpoll ▸ hnext.waits) hframe
    rw [hpoll] at hmachine'
    rw [hframes] at hframes'
    have hcount : g + (d + 1) = g + 1 + d := by omega
    rw [hcount]
    exact ih hmachine' hframes' hnext (by omega) (fun h k hh hle => hquiet h k (by omega) (by omega)) hplay

/-- The instruction leaves a machine that waits and follows the keyboard. -/
theorem stillWaits_of_awaitKey (henv : env.sys = none) (hkeyboard : settings.keyboard = true) {m : Machine}
    {journal : List Event} {f j : Nat} {t u : Session} {x : Register}
    (ht : Enters env settings host (start m journal) f t)
    (hsteps : stepMany env j (t.poll settings host) = (u, none)) (hu : u.machine.Executes (.awaitKey x)) :
    StillWaits host (u.machine.step env).machine x f f (u.machine.step env).machine := by
  obtain ⟨hwaits, hstates⟩ : (u.machine.step env).machine.Waits x [] ∧
    (u.machine.step env).machine.keypad.states = u.machine.keypad.states := step_of_awaitKey hu
  have hkeys := (stepMany_keeps henv j (t.poll settings host)).1
  rw [hsteps, machine_poll_of_enters henv hkeyboard ht] at hkeys
  refine .refl hwaits fun k => ?_
  rw [← t.machine.keypad.isPressed_observe (host.holds f) k]
  exact Keypad.isPressed_congr (hstates.trans hkeys) k

/-- **The wait goes on until a frame with a press.** -/
theorem stillWaits_of_enters (henv : env.sys = none) (hkeyboard : settings.keyboard = true) {m : Machine}
    {journal : List Event} {f j d : Nat} {u t : Session} {x : Register}
    (hreaches : Reaches env settings host (start m journal) f j u) (hu : u.machine.Executes (.awaitKey x))
    (hquiet : ∀ h k, f < h → h ≤ f + d → host.presses h k = false)
    (ht : Enters env settings host (start m journal) (f + d + 1) t) :
    ∃ n, StillWaits host (u.machine.step env).machine x f (f + d) n ∧
      (t.poll settings host).machine = n.intoFrame host (f + d + 1) := by
  obtain ⟨t₀, ht₀, hj, hsteps⟩ := hreaches
  have hplay := ht.1
  rw [Nat.add_assoc, playFor_add, ht₀.1] at hplay
  obtain ⟨-, r, hframe, hplay⟩ := playFor_succ_unfinished hplay
  obtain ⟨hmachine, hframes⟩ := frame_of_awaitKey henv hj hsteps hu hframe
  have hframes₀ : t₀.frames = 0 + f := frames_playFor henv ht₀.1
  rw [hframes₀, Nat.zero_add] at hframes
  have hwaits := stillWaits_of_awaitKey henv hkeyboard ht₀ hsteps hu
  exact playFor_of_waits hkeyboard hmachine hframes hwaits (Nat.le_refl f) hquiet hplay

/-- Every later step that is called for, up to the frame of a press, finds a machine that still waits. -/
theorem stillWaits_of_later (henv : env.sys = none) (hkeyboard : settings.keyboard = true) {m : Machine}
    {journal : List Event} {f j h i : Nat} {u v : Session} {x : Register}
    (hreaches : Reaches env settings host (start m journal) f j u) (hu : u.machine.Executes (.awaitKey x))
    (hlater : Reaches env settings host (start m journal) h i v) (hafter : f < h ∨ (f = h ∧ j < i))
    (hquiet : ∀ g k, f < g → g ≤ h → host.presses g k = false) :
    StillWaits host (u.machine.step env).machine x f h v.machine := by
  obtain ⟨t, ht, -, hsteps⟩ := hlater
  rcases hafter with hframe | ⟨rfl, hj⟩
  · obtain ⟨d, rfl⟩ : ∃ d, h = f + d + 1 := ⟨h - f - 1, by omega⟩
    obtain ⟨n, hwaits, hpoll⟩ := stillWaits_of_enters henv hkeyboard hreaches hu
      (fun g k hg hle => hquiet g k hg (by omega)) ht
    have hnext := hwaits.next (by omega) fun k => hquiet (f + d + 1) k (by omega) (Nat.le_refl _)
    rw [← hpoll] at hnext
    rw [stepMany_of_waits hnext.waits] at hsteps
    cases hsteps
    exact hnext
  · obtain ⟨t₀, ht₀, -, hsteps₀⟩ := hreaches
    obtain rfl : t₀ = t := congrArg Prod.fst (ht₀.1.symm.trans ht.1)
    obtain ⟨n, rfl⟩ : ∃ n, i = j + (n + 1) := ⟨i - j - 1, by omega⟩
    obtain ⟨v', hv', hmachine, -⟩ := @stepMany_of_awaitKey env u x hu n
    rw [stepMany_add, hsteps₀] at hsteps
    dsimp only at hsteps
    rw [hv'] at hsteps
    cases hsteps
    rw [hmachine]
    exact stillWaits_of_awaitKey henv hkeyboard ht₀ hsteps₀ hu

/-- **A wait for a key over the frames of a session.** After the poll of a frame the keypad has down what the host
holds in it. Let a step of frame `f` begin a wait for register `x`. Every later step before a frame with a press
does nothing, and finds the state that the wait began with, but for the keypad and for the timers, which ticked once
in each frame. So without a press the wait never ends. If a frame with a press begins, its first step ends the wait
with the smallest key that goes down in it: the register then holds the key, and the others what they held. -/
theorem wait_over_frames (henv : env.sys = none) (hkeyboard : settings.keyboard = true) (m : Machine)
    (journal : List Event) :
    let s := start m journal
    (∀ f t, Enters env settings host s f t →
      (t.poll settings host).machine.keypad.pressedKeys = Key.all.filter (host.holds f)) ∧
    ∀ f j u x, Reaches env settings host s f j u → u.machine.Executes (.awaitKey x) →
      let w := (u.machine.step env).machine
      (∀ h i v, Reaches env settings host s h i v → f < h ∨ (f = h ∧ j < i) →
        (∀ g k, f < g → g ≤ h → host.presses g k = false) →
        v.machine.awaiting = some x ∧ v.machine.step env = .done v.machine ∧
        v.machine = { w with
          keypad := v.machine.keypad
          delay := w.delay - (h - f)
          sound := w.sound - (h - f) }) ∧
      ∀ g k t, f < g → (∀ h l, f < h → h < g → host.presses h l = false) →
        host.presses g k = true → (∀ l, host.presses g l = true → k ≤ l) → Enters env settings host s g t →
        ∃ v, Reaches env settings host s g 0 v ∧ v.machine.awaiting = some x ∧
          v.machine.step env = .done (v.machine.endWait x k) [.storedKey k x] ∧
          (v.machine.step env).machine.reg x = UInt8.ofNat k.val ∧
          (∀ r, r ≠ x → (v.machine.step env).machine.reg r = w.reg r) ∧
          v.machine = { w with
            keypad := v.machine.keypad
            delay := w.delay - (g - f)
            sound := w.sound - (g - f) } := by
  intro s
  constructor
  · intro f t ht
    rw [machine_poll_of_enters henv hkeyboard ht]
    exact Keypad.pressedKeys_observe (host.holds f) t.machine.keypad
  intro f j u x hreaches hu w
  constructor
  · intro h i v hlater hafter hquiet
    have hwaits := stillWaits_of_later henv hkeyboard hreaches hu hlater hafter hquiet
    exact ⟨hwaits.waits.awaiting_eq, hwaits.waits.step_of_nil, hwaits.only⟩
  · intro g k t hg hquiet hk hleast ht
    obtain ⟨d, rfl⟩ : ∃ d, g = f + d + 1 := ⟨g - f - 1, by omega⟩
    obtain ⟨n, hwaits, hpoll⟩ := stillWaits_of_enters henv hkeyboard hreaches hu
      (fun h l hh hle => hquiet h l hh (by omega)) ht
    obtain ⟨later, hpressed⟩ := hwaits.strike hk hleast
    have honly := hwaits.only_next (by omega)
    rw [← hpoll] at hpressed honly
    have hend : (t.poll settings host).machine.step env = .done ((t.poll settings host).machine.endWait x k)
        [.storedKey k x] := hpressed.step_of_cons
    have hreg : ∀ r, ((t.poll settings host).machine.step env).machine.reg r =
        if r = x then UInt8.ofNat k.val else w.reg r := by
      intro r
      rw [hend, Outcome.done, reg_endWait, honly]
      rfl
    exact ⟨t.poll settings host, ⟨t, ht, settings.stepsNow_pos ht.2, rfl⟩, hpressed.awaiting_eq, hend,
      (hreg x).trans (if_pos rfl), fun r hr => (hreg r).trans (if_neg hr), honly⟩

/-- Key 5 is held all the time, and 7 and A go down together in the third frame. -/
theorem wait_over_frames_held :
    let env : Environment := ⟨fun _ => 0, none⟩
    let settings : Settings := ⟨60, none, true⟩
    let host : Host := ⟨[["5"], ["5"], ["a", "5", "7"]], none⟩
    let s := start (Machine.start (some ⟨[0xF3, 0x0A], by decide⟩)).machine []
    ∃ v, Reaches env settings host s 2 0 v ∧
      v.machine.step env = .done (v.machine.endWait 3 7) [.storedKey 7 3] ∧ (v.machine.step env).machine.reg 3 = 7 := by
  rw [Machine.start, load_eq]
  intro env settings host s
  have hsteps : ∀ executed, settings.stepsNow executed = 0 + 1 := fun _ => rfl
  have hquiet : ∀ k, host.presses 1 k = false := by decide
  have hexecutes : (s.poll settings host).machine.Executes (.awaitKey 3) :=
    executes_loaded (k := 0) rfl rfl rfl rfl rfl rfl
  have henters : Enters env settings host s 0 s := ⟨rfl, rfl⟩
  have hnone : stepMany env 0 (s.poll settings host) = (s.poll settings host, none) := rfl
  have hreaches : Reaches env settings host s 0 0 (s.poll settings host) :=
    ⟨s, henters, by rw [hsteps]; decide, hnone⟩
  -- the first frame comes to its rest in the wait, and so does the second
  obtain ⟨v, hv, hmachine, hframes⟩ := @stepMany_of_awaitKey env _ _ hexecutes 0
  have hfirst : s.frame env settings host = (v.rest, none) := by
    rw [frame_eq, hsteps, hv]
    rfl
  have hwaits := (stillWaits_of_awaitKey rfl rfl henters hnone hexecutes).next (Nat.le_refl 0) hquiet
  have hrest : v.rest.machine = (((s.poll settings host).machine).step env).machine.tick := congrArg Machine.tick hmachine
  have hpoll := @machine_poll_of_rest settings host rfl v.rest _ 0 hrest (congrArg (· + 1) hframes)
  rw [← hpoll] at hwaits
  obtain ⟨t, ht⟩ : ∃ t, v.rest.frame env settings host = (t, none) := by
    rw [frame_eq, stepMany_of_waits hwaits.waits]
    exact ⟨_, rfl⟩
  have henters' : Enters env settings host s 2 t := by
    refine ⟨?_, rfl⟩
    have hgoes : ∀ executed, settings.usedUp executed = false := fun _ => rfl
    simp only [playFor, hgoes, hfirst, ht, Bool.false_eq_true, if_false]
  have hdown : host.presses 2 7 = true := by decide
  have hleast : ∀ l, host.presses 2 l = true → 7 ≤ l := by decide
  have hbetween : ∀ h l, 0 < h → h < 2 → host.presses h l = false := by
    intro h l hh hlt
    obtain rfl : h = 1 := by omega
    exact hquiet l
  obtain ⟨-, hwait⟩ := @wait_over_frames env settings host rfl rfl s.machine []
  obtain ⟨-, hpress⟩ := hwait 0 0 _ 3 hreaches hexecutes
  obtain ⟨v, hlast, -, hstep, hreg, -⟩ := hpress 2 7 t (by decide) hbetween hdown hleast henters'
  exact ⟨v, hlast, hstep, hreg⟩

end Session

end Chip8
