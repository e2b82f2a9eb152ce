import Chip8.Bounded

/-!
# The keypad

Sixteen keys, each held down or not. While the keypad listens it records the keys that go down, earliest
first; a key that is already held does not count until it has been let go and pressed again.

* `state_set` — a change concerns its own key alone.
* `move_cases` — to move the key of a number moves that key, or fails.
* `state_observe`, `presses_observe` — what a keypad makes of the keys that a host holds.
-/

set_option autoImplicit false

namespace Chip8

/-- Whether a key is held down. -/
inductive KeyState where
  | released
  | pressed
  deriving DecidableEq, Repr

/-- The keys, and what was recorded of them. -/
structure Keypad where
  states : Vector KeyState 16
  waiting : Bool
  /-- The recorded presses, earliest first. -/
  presses : List Key
  deriving DecidableEq, Repr

namespace Keypad

/-- A keypad with all keys up that does not listen. -/
def fresh : Keypad := ⟨Vector.replicate 16 .released, false, []⟩

def state (p : Keypad) (k : Key) : KeyState := p.states[k]

def isPressed (p : Keypad) (k : Key) : Bool := decide (p.state k = .pressed)

/-- Move a key. A key that goes down while the keypad listens is recorded. -/
def set (p : Keypad) (k : Key) (s : KeyState) : Keypad where
  states := p.states.set k s
  waiting := p.waiting
  presses :=
    if p.waiting = true ∧ s = .pressed ∧ p.state k = .released then p.presses ++ [k] else p.presses

/-- Move the key of a number, if there is one. -/
def move (p : Keypad) (key : Int) (s : KeyState) : Except Fault Keypad :=
  (Key.checked key).map fun k => p.set k s

/-- Move the keys of some numbers, one after the other; a number that names no key moves none. -/
def moveAll (p : Keypad) (moves : List (Int × KeyState)) : Keypad :=
  moves.foldl (fun q (key, s) => (q.move key s).toOption.getD q) p

/-- Let go of all keys, and stop listening. -/
def releaseAll (p : Keypad) : Keypad :=
  { p with states := Vector.replicate 16 .released, waiting := false, presses := [] }

/-- The state of the key of a number, if there is one. -/
def stateOf (p : Keypad) (key : Int) : Except Fault KeyState := (Key.checked key).map p.state

/-- Start to listen, with nothing recorded. -/
def beginWait (p : Keypad) : Keypad := { p with waiting := true, presses := [] }

/-- Take the earliest recorded press, which ends the listening; without one nothing changes. -/
def takePress (p : Keypad) : Option Key × Keypad :=
  match p.presses with
  | [] => (none, p)
  | k :: _ => (some k, { p with waiting := false, presses := [] })

def pressedKeys (p : Keypad) : List Key := Key.all.filter p.isPressed

/-- Set every key, in order, to whether it is held down. -/
def observe (p : Keypad) (held : Key → Bool) : Keypad :=
  Key.all.foldl (fun q k => q.set k (if held k then .pressed else .released)) p

/-- One character for each key: its digit if it is held down, else a dot. -/
def text (p : Keypad) : String :=
  String.join (Key.all.map fun k => if p.isPressed k then k.digit else ".")

theorem state_set (p : Keypad) (k : Key) (s : KeyState) (l : Key) :
    (p.set k s).state l = if l = k then s else p.state l := by
  simp only [state, set, Fin.getElem_fin, Vector.getElem_set, Fin.ext_iff]
  by_cases h : k.val = l.val
  · simp [h]
  · simp [h, Ne.symm h]

theorem isPressed_congr {p q : Keypad} (h : p.states = q.states) (k : Key) :
    p.isPressed k = q.isPressed k := by
  unfold isPressed state
  rw [h]

/-- Only a press of a key that is up is recorded, and only while the keypad listens. -/
theorem presses_set_of_not {p : Keypad} {k : Key} {s : KeyState}
    (h : ¬ (p.waiting = true ∧ s = .pressed ∧ p.state k = .released)) :
    (p.set k s).presses = p.presses := if_neg h

/-- While the keypad does not listen, a move is all that happens. -/
theorem set_of_deaf {p : Keypad} (h : p.waiting = false) (k : Key) (s : KeyState) :
    p.set k s = { p with states := p.states.set k s } := by
  simp [set, h]

theorem presses_set_of_press {p : Keypad} {k : Key} (hw : p.waiting = true)
    (hk : p.state k = .released) : (p.set k .pressed).presses = p.presses ++ [k] :=
  if_pos ⟨hw, rfl, hk⟩

theorem move_natCast (p : Keypad) (k : Key) (s : KeyState) : p.move k.val s = .ok (p.set k s) := by
  rw [move, Key.checked_natCast]
  rfl

/-- A move is the move of a key, or its number names none. -/
theorem move_cases (p : Keypad) (key : Int) (s : KeyState) :
    (∃ k : Key, key = k.val ∧ p.move key s = .ok (p.set k s)) ∨
    (below 16 key = false ∧ p.move key s = .error (.invalidKey key)) := by
  cases h : below 16 key with
  | true =>
    have hrange := below_iff.1 h
    refine .inl ⟨⟨key.toNat, toNat_lt_of_below h⟩, ?_, ?_⟩
    · exact (Int.toNat_of_nonneg hrange.1).symm
    · rw [move, Key.checked, dif_pos h]
      rfl
  | false =>
    refine .inr ⟨rfl, ?_⟩
    rw [move, Key.checked, dif_neg (by rw [h]; decide)]
    rfl

theorem takePress_of_nil {p : Keypad} (h : p.presses = []) : p.takePress = (none, p) := by
  rw [takePress, h]

theorem takePress_of_cons {p : Keypad} {k : Key} {ks : List Key} (h : p.presses = k :: ks) :
    p.takePress = (some k, { p with waiting := false, presses := [] }) := by
  rw [takePress, h]

/-! ## Following a keyboard -/

section Follow

variable (held : Key → Bool)

theorem state_set_all_of_notMem (p : Keypad) {keys : List Key} {k : Key} (hk : k ∉ keys) :
    (keys.foldl (fun q k => q.set k (if held k then .pressed else .released)) p).state k = p.state k := by
  induction keys generalizing p with
  | nil => rfl
  | cons l keys ih =>
    obtain ⟨hl, hkeys⟩ := not_or.1 (mt List.mem_cons.2 hk)
    rw [List.foldl_cons, ih _ hkeys, state_set, if_neg hl]

theorem state_set_all_of_mem (p : Keypad) {keys : List Key} {k : Key} (hk : k ∈ keys) :
    (keys.foldl (fun q k => q.set k (if held k then .pressed else .released)) p).state k =
      if held k then .pressed else .released := by
  induction keys generalizing p with
  | nil => cases hk
  | cons l keys ih =>
    rw [List.foldl_cons]
    by_cases hkeys : k ∈ keys
    · exact ih _ hkeys
    · obtain rfl : k = l := (List.mem_cons.1 hk).resolve_right hkeys
      rw [state_set_all_of_notMem held _ hkeys, state_set, if_pos rfl]

theorem waiting_set_all (p : Keypad) (keys : List Key) :
    (keys.foldl (fun q k => q.set k (if held k then .pressed else .released)) p).waiting = p.waiting := by
  induction keys generalizing p with
  | nil => rfl
  | cons l keys ih => exact ih (p.set l _)

/-- A keypad that listens records those of the keys that were up and are held down. -/
theorem presses_set_all {p : Keypad} {keys : List Key} (hwaiting : p.waiting = true) (hkeys : keys.Nodup) :
    (keys.foldl (fun q k => q.set k (if held k then .pressed else .released)) p).presses =
      p.presses ++ keys.filter fun k => held k && !p.isPressed k := by
  induction keys generalizing p with
  | nil => simp
  | cons l keys ih =>
    obtain ⟨hl, hkeys⟩ := List.nodup_cons.1 hkeys
    have hlater : ∀ s, keys.filter (fun k => held k && !(p.set l s).isPressed k) =
        keys.filter fun k => held k && !p.isPressed k := by
      intro s
      refine List.filter_congr fun k hk => ?_
      have hne : k ≠ l := fun h => hl (h ▸ hk)
      rw [isPressed, isPressed, state_set, if_neg hne]
    rw [List.foldl_cons, ih (p := p.set l _) hwaiting hkeys, hlater, List.filter_cons]
    cases hheld : held l with
    | false => rw [presses_set_of_not (by simp)]; simp
    | true =>
      cases hstate : p.state l with
      | pressed => rw [presses_set_of_not (by simp [hstate])]; simp [isPressed, hstate]
      | released => simp [presses_set_of_press hwaiting hstate, isPressed, hstate]

/-- **Every key is then as it is held.** -/
theorem state_observe (p : Keypad) (k : Key) :
    (p.observe held).state k = if held k then .pressed else .released := by
  have hk : k ∈ Key.all := List.mem_finRange k
  rw [observe, state_set_all_of_mem held p hk]

theorem isPressed_observe (p : Keypad) (k : Key) : (p.observe held).isPressed k = held k := by
  rw [isPressed, state_observe]
  cases held k <;> rfl

theorem pressedKeys_observe (p : Keypad) : (p.observe held).pressedKeys = Key.all.filter held := by
  unfold pressedKeys
  exact List.filter_congr fun k _ => p.isPressed_observe held k

theorem waiting_observe (p : Keypad) : (p.observe held).waiting = p.waiting := p.waiting_set_all held _

/-- **A keypad that listens records the keys that go down**, in the order of their numbers. -/
theorem presses_observe {p : Keypad} (hwaiting : p.waiting = true) :
    (p.observe held).presses = p.presses ++ Key.all.filter fun k => held k && !p.isPressed k :=
  presses_set_all held hwaiting (by decide)

end Follow

end Keypad

end Chip8
