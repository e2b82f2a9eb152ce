import Chip8.Keypad
import Mathlib.Data.List.Induction

/-!
# Keypads over histories

A keypad keeps no more than the states of its keys, whether it listens, and the presses that it recorded since. All
of it can be told from what was done to the keypad: a key is held down if it was pressed last, and the press that
is there to be taken is the first one that struck a key since the keypad listens.

* `Operation`, `apply`, `after` — what may be done to a keypad, and a keypad after a history.
* `Held` — a key was pressed last. `state_after_iff` — then it is held down.
* `Strikes` — an operation moves a key from up to down. `strikes_iff` — only a press of a key that is up does.
* `GoesOn`, `Along` — an operation leaves the keypad listening, and every operation of a history does.
* `Listens`, `FirstStruck` — since the keypad started to listen no key was struck, and a key was the first.
  `after_cases` — there is no third way to listen. `takePress_after_iff` — so the first key is the one that is taken.
* `shows_state` — a keypad shows the states of its keys whichever way it is asked.
* `keypad_of_history` — so all that a keypad shows and gives is known from its history.
-/

set_option autoImplicit false

namespace Chip8.Keypad

/-- Something that is done to a keypad. -/
inductive Operation where
  /-- Press the key of a number, or let it go. -/
  | move (key : Int) (s : KeyState)
  | releaseAll
  | beginWait
  | takePress
  deriving DecidableEq, Repr

/-- The keypad that an operation leaves. One that is refused leaves it as it was. -/
def apply (p : Keypad) : Operation → Keypad
  | .move key s => (p.move key s).toOption.getD p
  | .releaseAll => p.releaseAll
  | .beginWait => p.beginWait
  | .takePress => p.takePress.2

/-- A fresh keypad after a history of operations. -/
def after (history : List Operation) : Keypad := history.foldl apply fresh

variable {history later : List Operation} {o : Operation} {k : Key}

theorem after_concat (history : List Operation) (o : Operation) :
    after (history ++ [o]) = (after history).apply o := by
  rw [after, List.foldl_append]
  rfl

/-- A move moves a key, or is refused. -/
theorem apply_move_cases (p : Keypad) (key : Int) (s : KeyState) :
    (∃ k : Key, key = k.val ∧ p.apply (.move key s) = p.set k s) ∨
    (below 16 key = false ∧ p.apply (.move key s) = p) := by
  rcases p.move_cases key s with ⟨k, hkey, hmove⟩ | ⟨hkey, hmove⟩
  · exact .inl ⟨k, hkey, by rw [apply, hmove]; rfl⟩
  · exact .inr ⟨hkey, by rw [apply, hmove]; rfl⟩

theorem apply_move (p : Keypad) (k : Key) (s : KeyState) : p.apply (.move k.val s) = p.set k s := by
  rw [apply, move_natCast]
  rfl

theorem states_takePress (p : Keypad) : p.takePress.2.states = p.states := by
  cases h : p.presses with
  | nil => rw [takePress_of_nil h]
  | cons k ks => rw [takePress_of_cons h]

/-! ## Keys that are held down -/

/-- The last change of a key, since all keys were let go, was a press. -/
def Held (history : List Operation) (k : Key) : Prop :=
  ∃ before later, history = before ++ .move k.val .pressed :: later ∧
    ∀ o ∈ later, o ≠ .releaseAll ∧ ∀ s, o ≠ .move k.val s

theorem Held.concat (h : Held history k) (hall : o ≠ .releaseAll) (hmove : ∀ s, o ≠ .move k.val s) :
    Held (history ++ [o]) k := by
  obtain ⟨before, later, rfl, hlater⟩ := h
  refine ⟨before, later ++ [o], by simp, ?_⟩
  rw [List.forall_mem_append, List.forall_mem_singleton]
  exact ⟨hlater, hall, hmove⟩

/-- Other operations leave a key as it is. -/
theorem state_apply (p : Keypad) (hall : o ≠ .releaseAll) (hmove : ∀ s, o ≠ .move k.val s) :
    (p.apply o).state k = p.state k := by
  cases o with
  | move key s =>
    rcases p.apply_move_cases key s with ⟨l, rfl, happly⟩ | ⟨-, happly⟩
    · have hne : k ≠ l := by
        rintro rfl
        exact hmove s rfl
      rw [happly, state_set, if_neg hne]
    · rw [happly]
  | releaseAll => exact absurd rfl hall
  | beginWait => rfl
  | takePress => rw [state, apply, states_takePress]; rfl

/-- A key is moved, or all keys are let go, or it stays as it is. -/
theorem state_apply_cases (p : Keypad) (o : Operation) (k : Key) :
    (∃ s, o = .move k.val s ∧ (p.apply o).state k = s) ∨
    (o = .releaseAll ∧ (p.apply o).state k = .released) ∨
    (o ≠ .releaseAll ∧ (∀ s, o ≠ .move k.val s) ∧ (p.apply o).state k = p.state k) := by
  by_cases hmove : ∃ s, o = .move k.val s
  · obtain ⟨s, rfl⟩ := hmove
    exact .inl ⟨s, rfl, by rw [apply_move, state_set, if_pos rfl]⟩
  · by_cases hall : o = .releaseAll
    · subst hall
      exact .inr (.inl ⟨rfl, by simp [apply, releaseAll, state]⟩)
    · have hother : ∀ s, o ≠ .move k.val s := fun s hs => hmove ⟨s, hs⟩
      exact .inr (.inr ⟨hall, hother, state_apply p hall hother⟩)

theorem state_after_append (history : List Operation)
    (h : ∀ o ∈ later, o ≠ .releaseAll ∧ ∀ s, o ≠ .move k.val s) :
    (after (history ++ later)).state k = (after history).state k := by
  induction later generalizing history with
  | nil => rw [List.append_nil]
  | cons o later ih =>
    obtain ⟨ho, hlater⟩ := List.forall_mem_cons.1 h
    rw [List.append_cons, ih _ hlater, after_concat, state_apply _ ho.1 ho.2]

/-- **A key is held down if it was pressed last.** -/
theorem state_after_iff (history : List Operation) (k : Key) :
    (after history).state k = .pressed ↔ Held history k := by
  constructor
  · intro h
    induction history using List.reverseRecOn with
    | nil => simp [after, fresh, state] at h
    | append_singleton history o ih =>
      rw [after_concat] at h
      rcases (after history).state_apply_cases o k with ⟨s, rfl, hs⟩ | ⟨-, hs⟩ | ⟨hall, hmove, hs⟩
      · rw [hs] at h
        rw [h]
        exact ⟨history, [], rfl, by simp⟩
      · rw [hs] at h
        cases h
      · rw [hs] at h
        exact (ih h).concat hall hmove
  · rintro ⟨before, later, rfl, hlater⟩
    rw [List.append_cons, state_after_append _ hlater, after_concat, apply_move, state_set, if_pos rfl]

/-! ## Presses while the keypad listens -/

/-- An operation moves a key from up to down. -/
def Strikes (history : List Operation) (o : Operation) (k : Key) : Prop :=
  ¬ Held history k ∧ Held (history ++ [o]) k

/-- No key is struck. -/
def Quiet (history : List Operation) (o : Operation) : Prop := ∀ k, ¬ Strikes history o k

/-- An operation leaves a keypad listening if it was: it lets no keys go all at once, does not start to listen anew,
and takes no press. -/
def GoesOn (history : List Operation) (o : Operation) : Prop :=
  o ≠ .releaseAll ∧ o ≠ .beginWait ∧ (o = .takePress → (after history).takePress.1 = none)

/-- Every operation of a history meets a condition, in the history that it finds. -/
def Along (P : List Operation → Operation → Prop) : List Operation → List Operation → Prop
  | _, [] => True
  | history, o :: later => P history o ∧ Along P (history ++ [o]) later

theorem along_append {P : List Operation → Operation → Prop} {first second : List Operation} :
    Along P history (first ++ second) ↔ Along P history first ∧ Along P (history ++ first) second := by
  induction first generalizing history with
  | nil => simp [Along]
  | cons o first ih => simp [Along, ih, and_assoc]

/-- A key was struck since the keypad started to listen last, none was struck before it, and meanwhile the keypad
went on to listen. -/
def FirstStruck (history : List Operation) (k : Key) : Prop :=
  ∃ before quiet o later, history = before ++ [.beginWait] ++ (quiet ++ o :: later) ∧
    Along Quiet (before ++ [.beginWait]) quiet ∧ Strikes (before ++ [.beginWait] ++ quiet) o k ∧
    Along GoesOn (before ++ [.beginWait]) (quiet ++ o :: later)

/-- No key was struck since the keypad started to listen last, and meanwhile it went on to listen. -/
def Listens (history : List Operation) : Prop :=
  ∃ before quiet, history = before ++ [.beginWait] ++ quiet ∧
    Along Quiet (before ++ [.beginWait]) quiet ∧ Along GoesOn (before ++ [.beginWait]) quiet

/-- **A key is struck exactly by a press of it while it is up.** -/
theorem strikes_iff : Strikes history o k ↔ o = .move k.val .pressed ∧ (after history).state k = .released := by
  unfold Strikes
  rw [← state_after_iff, ← state_after_iff, after_concat]
  constructor
  · rintro ⟨hup, hdown⟩
    have hreleased : (after history).state k = .released := by
      cases h : (after history).state k with
      | released => rfl
      | pressed => exact absurd h hup
    refine ⟨?_, hreleased⟩
    rcases (after history).state_apply_cases o k with ⟨s, rfl, hs⟩ | ⟨-, hs⟩ | ⟨-, -, hs⟩
    · rw [← hdown, hs]
    · rw [hs] at hdown
      cases hdown
    · rw [hs] at hdown
      exact absurd hdown hup
  · rintro ⟨rfl, hup⟩
    rw [hup, apply_move, state_set, if_pos rfl]
    exact ⟨by simp, rfl⟩

/-- A keypad that listens records what is struck. -/
theorem apply_of_strikes (hwaiting : (after history).waiting = true) (h : Strikes history o k) :
    (after (history ++ [o])).waiting = true ∧
      (after (history ++ [o])).presses = (after history).presses ++ [k] := by
  obtain ⟨rfl, hup⟩ := strikes_iff.1 h
  rw [after_concat, apply_move]
  exact ⟨hwaiting, presses_set_of_press hwaiting hup⟩

/-- While no key is struck and the keypad goes on to listen, it records nothing. -/
theorem apply_of_quiet (hgoes : GoesOn history o) (hquiet : Quiet history o) :
    (after (history ++ [o])).waiting = (after history).waiting ∧
      (after (history ++ [o])).presses = (after history).presses := by
  obtain ⟨hall, hbegin, htake⟩ := hgoes
  rw [after_concat]
  cases o with
  | move key s =>
    rcases (after history).apply_move_cases key s with ⟨k, rfl, happly⟩ | ⟨-, happly⟩
    · -- a move that is recorded is a strike
      rw [happly]
      refine ⟨rfl, presses_set_of_not ?_⟩
      rintro ⟨-, rfl, hup⟩
      exact hquiet k (strikes_iff.2 ⟨rfl, hup⟩)
    · rw [happly]
      exact ⟨rfl, rfl⟩
  | releaseAll => exact absurd rfl hall
  | beginWait => exact absurd rfl hbegin
  | takePress =>
    cases h : (after history).presses with
    | nil => rw [apply, takePress_of_nil h]; exact ⟨rfl, h⟩
    | cons k ks => rw [takePress_of_cons h] at htake; cases htake rfl

/-- While the keypad goes on to listen, it keeps what it recorded. -/
theorem apply_of_goesOn (hwaiting : (after history).waiting = true) (hgoes : GoesOn history o) :
    (after (history ++ [o])).waiting = true ∧
      (after history).presses <+: (after (history ++ [o])).presses := by
  by_cases hquiet : Quiet history o
  · obtain ⟨hw, hpresses⟩ := apply_of_quiet hgoes hquiet
    rw [hw, hpresses]
    exact ⟨hwaiting, List.prefix_rfl⟩
  · obtain ⟨k, hk⟩ := Classical.not_forall_not.1 hquiet
    obtain ⟨hw, hpresses⟩ := apply_of_strikes hwaiting hk
    rw [hw, hpresses]
    exact ⟨rfl, List.prefix_append _ _⟩

theorem after_of_quiet (hgoes : Along GoesOn history later) (hquiet : Along Quiet history later) :
    (after (history ++ later)).waiting = (after history).waiting ∧
      (after (history ++ later)).presses = (after history).presses := by
  induction later generalizing history with
  | nil => rw [List.append_nil]; exact ⟨rfl, rfl⟩
  | cons o later ih =>
    obtain ⟨hw, hpresses⟩ := apply_of_quiet hgoes.1 hquiet.1
    rw [List.append_cons, ← hw, ← hpresses]
    exact ih hgoes.2 hquiet.2

theorem after_of_goesOn (hwaiting : (after history).waiting = true) (hgoes : Along GoesOn history later) :
    (after (history ++ later)).waiting = true ∧
      (after history).presses <+: (after (history ++ later)).presses := by
  induction later generalizing history with
  | nil => rw [List.append_nil]; exact ⟨hwaiting, List.prefix_rfl⟩
  | cons o later ih =>
    obtain ⟨hw, hpresses⟩ := apply_of_goesOn hwaiting hgoes.1
    obtain ⟨hw', hpresses'⟩ := ih hw hgoes.2
    rw [List.append_cons]
    exact ⟨hw', hpresses.trans hpresses'⟩

theorem after_beginWait (before : List Operation) :
    (after (before ++ [.beginWait])).waiting = true ∧ (after (before ++ [.beginWait])).presses = [] := by
  rw [after_concat]
  exact ⟨rfl, rfl⟩

theorem Listens.after (h : Listens history) :
    (Keypad.after history).waiting = true ∧ (Keypad.after history).presses = [] := by
  obtain ⟨before, quiet, rfl, hquiet, hgoes⟩ := h
  obtain ⟨hw, hpresses⟩ := after_of_quiet hgoes hquiet
  rw [hw, hpresses]
  exact after_beginWait before

theorem Listens.concat (h : Listens history) (hgoes : GoesOn history o) (hquiet : Quiet history o) :
    Listens (history ++ [o]) := by
  obtain ⟨before, quiet, rfl, hqs, hgs⟩ := h
  exact ⟨before, quiet ++ [o], by rw [List.append_assoc], along_append.2 ⟨hqs, hquiet, trivial⟩,
    along_append.2 ⟨hgs, hgoes, trivial⟩⟩

theorem goesOn_of_strikes (h : Strikes history o k) : GoesOn history o := by
  obtain ⟨rfl, -⟩ := strikes_iff.1 h
  exact ⟨by simp, by simp, by simp⟩

/-- The next key that is struck is the first one. -/
theorem Listens.firstStruck (h : Listens history) (hk : Strikes history o k) : FirstStruck (history ++ [o]) k := by
  obtain ⟨before, quiet, rfl, hquiet, hgoes⟩ := h
  exact ⟨before, quiet, o, [], by rw [List.append_assoc], hquiet, hk,
    along_append.2 ⟨hgoes, goesOn_of_strikes hk, trivial⟩⟩

theorem FirstStruck.concat (h : FirstStruck history k) (hgoes : GoesOn history o) :
    FirstStruck (history ++ [o]) k := by
  obtain ⟨before, quiet, first, later, rfl, hquiet, hk, hgs⟩ := h
  refine ⟨before, quiet, first, later ++ [o], by simp, hquiet, hk, ?_⟩
  rw [← List.cons_append, ← List.append_assoc]
  exact along_append.2 ⟨hgs, hgoes, trivial⟩

theorem FirstStruck.after (h : FirstStruck history k) :
    (Keypad.after history).waiting = true ∧ ∃ more, (Keypad.after history).presses = k :: more := by
  obtain ⟨before, quiet, o, later, rfl, hquiet, hk, hgoes⟩ := h
  obtain ⟨hgq, -, hgl⟩ := along_append.1 hgoes
  have hlistens : Listens (before ++ [.beginWait] ++ quiet) := ⟨before, quiet, rfl, hquiet, hgq⟩
  obtain ⟨hw, hpresses⟩ := hlistens.after
  obtain ⟨hw', hpresses'⟩ := apply_of_strikes hw hk
  obtain ⟨hw'', more, hmore⟩ := after_of_goesOn hw' hgl
  rw [hpresses', hpresses] at hmore
  rw [← List.append_assoc, List.append_cons]
  exact ⟨hw'', more, hmore.symm⟩

/-- **The key that was struck first is the one that is taken.** -/
theorem FirstStruck.takePress_eq (h : FirstStruck history k) : (Keypad.after history).takePress.1 = some k := by
  obtain ⟨-, more, hmore⟩ := h.after
  rw [takePress_of_cons hmore]

/-- A keypad that does not listen, and has recorded nothing, stays so until it starts to listen. -/
theorem apply_of_deaf {p : Keypad} (hp : p.waiting = false ∧ p.presses = []) (ho : o ≠ .beginWait) :
    (p.apply o).waiting = false ∧ (p.apply o).presses = [] := by
  cases o with
  | move key s =>
    rcases p.apply_move_cases key s with ⟨k, -, happly⟩ | ⟨-, happly⟩
    · rw [happly, set_of_deaf hp.1]
      exact hp
    · rw [happly]
      exact hp
  | releaseAll => exact ⟨rfl, rfl⟩
  | beginWait => exact absurd rfl ho
  | takePress => rw [apply, takePress_of_nil hp.2]; exact hp

/-- An operation that a keypad does not go on after ends its listening, or starts it anew. -/
theorem apply_of_not_goesOn (h : ¬ GoesOn history o) :
    ((after (history ++ [o])).waiting = false ∧ (after (history ++ [o])).presses = []) ∨
      Listens (history ++ [o]) := by
  cases o with
  | move key s => exact absurd ⟨by simp, by simp, by simp⟩ h
  | releaseAll => rw [after_concat]; exact .inl ⟨rfl, rfl⟩
  | beginWait => exact .inr ⟨history, [], by simp, trivial, trivial⟩
  | takePress =>
    cases hpresses : (after history).presses with
    | nil => exact absurd ⟨by simp, by simp, fun _ => by rw [takePress_of_nil hpresses]⟩ h
    | cons k ks =>
      rw [after_concat, apply, takePress_of_cons hpresses]
      exact .inl ⟨rfl, rfl⟩

/-- A keypad does not listen, or it listens and no key was struck, or it listens and a key was struck first. -/
theorem after_cases (history : List Operation) :
    ((after history).waiting = false ∧ (after history).presses = []) ∨ Listens history ∨
      ∃ k, FirstStruck history k := by
  -- the last operation decides: a history is extended at its end
  induction history using List.reverseRecOn with
  | nil => exact .inl ⟨rfl, rfl⟩
  | append_singleton history o ih =>
    by_cases hgoes : GoesOn history o
    · rcases ih with hdeaf | hlistens | ⟨k, hk⟩
      · rw [after_concat]
        exact .inl (apply_of_deaf hdeaf hgoes.2.1)
      · by_cases hquiet : Quiet history o
        · exact .inr (.inl (hlistens.concat hgoes hquiet))
        · obtain ⟨k, hk⟩ := Classical.not_forall_not.1 hquiet
          exact .inr (.inr ⟨k, hlistens.firstStruck hk⟩)
      · exact .inr (.inr ⟨k, hk.concat hgoes⟩)
    · rcases apply_of_not_goesOn hgoes with hdeaf | hlistens
      · exact .inl hdeaf
      · exact .inr (.inl hlistens)

/-- A keypad that does not listen has recorded nothing. -/
theorem presses_after_of_not_waiting (history : List Operation) (h : (after history).waiting = false) :
    (after history).presses = [] := by
  rcases after_cases history with ⟨-, hnil⟩ | hlistens | ⟨k, hk⟩
  · exact hnil
  · exact hlistens.after.2
  · rw [hk.after.1] at h
    cases h

/-- **The press that is there to be taken is that of the key that was struck first.** -/
theorem takePress_after_iff (history : List Operation) (k : Key) :
    (after history).takePress.1 = some k ↔ FirstStruck history k := by
  constructor
  · intro h
    rcases after_cases history with ⟨-, hnil⟩ | hlistens | ⟨l, hl⟩
    · rw [takePress_of_nil hnil] at h
      cases h
    · rw [takePress_of_nil hlistens.after.2] at h
      cases h
    · rw [hl.takePress_eq, Option.some_inj] at h
      exact h ▸ hl
  · exact FirstStruck.takePress_eq

/-! ## What a keypad shows -/

/-- The character that a keypad shows for a key. -/
def symbol (p : Keypad) (k : Key) : Char := if p.isPressed k then "0123456789ABCDEF".toList[k.val]! else '.'

theorem toList_digit (k : Key) : k.digit.toList = ["0123456789ABCDEF".toList[k.val]!] := by
  revert k
  decide

theorem toList_text (p : Keypad) : p.text.toList = Key.all.map p.symbol := by
  have hkey : ∀ k, (if p.isPressed k then k.digit else ".").toList = [p.symbol k] := by
    intro k
    cases h : p.isPressed k <;> simp [symbol, h, toList_digit]
  rw [text, String.toList_join, List.flatMap_map, List.map_eq_flatMap]
  simp only [hkey]

theorem length_text (p : Keypad) : p.text.toList.length = 16 := by
  rw [toList_text]
  rfl

theorem getElem?_text (p : Keypad) (k : Key) : p.text.toList[k.val]? = some (p.symbol k) := by
  rw [toList_text, List.getElem?_map, Key.all, List.getElem?_eq_getElem (by simp)]
  simp

theorem isPressed_iff (p : Keypad) (k : Key) : p.isPressed k = true ↔ p.state k = .pressed := decide_eq_true_iff

/-- What a keypad shows of a key, in each of the ways in which it can be asked. -/
structure Shows (p : Keypad) (k : Key) (held : Prop) : Prop where
  isPressed : p.isPressed k = true ↔ held
  pressed : p.stateOf k.val = .ok .pressed ↔ held
  released : p.stateOf k.val = .ok .released ↔ ¬ held
  mem : k ∈ p.pressedKeys ↔ held
  digit : held → p.text.toList[k.val]? = "0123456789ABCDEF".toList[k.val]?
  dot : ¬ held → p.text.toList[k.val]? = some '.'

/-- Whichever way a keypad is asked, it shows the state of a key. -/
theorem shows_state (p : Keypad) (k : Key) : p.Shows k (p.state k = .pressed) := by
  have hstateOf : p.stateOf k.val = .ok (p.state k) := by
    rw [stateOf, Key.checked_natCast]
    rfl
  have hdigit : "0123456789ABCDEF".toList[k.val]? = some "0123456789ABCDEF".toList[k.val]! := by
    clear hstateOf
    revert k
    decide
  constructor
  · exact p.isPressed_iff k
  · rw [hstateOf, Except.ok.injEq]
  · rw [hstateOf, Except.ok.injEq]
    cases p.state k <;> simp
  · simp [pressedKeys, Key.all, isPressed_iff]
  · intro h
    rw [getElem?_text, symbol, if_pos ((p.isPressed_iff k).2 h), hdigit]
  · intro h
    rw [getElem?_text, symbol, if_neg (mt (p.isPressed_iff k).1 h)]

/-- A number that names no key is refused, and changes nothing. -/
theorem refused_of_not_key (history : List Operation) {key : Int} (h : key < 0 ∨ 15 < key) (s : KeyState) :
    (after history).move key s = .error (.invalidKey key) ∧
      after (history ++ [.move key s]) = after history ∧
      (after history).stateOf key = .error (.invalidKey key) := by
  have hbelow : ¬ below 16 key = true := by
    rw [below_iff]
    omega
  have hchecked : Key.checked key = .error (.invalidKey key) := dif_neg hbelow
  have hmove : (after history).move key s = .error (.invalidKey key) := by
    rw [move, hchecked]
    rfl
  refine ⟨hmove, ?_, ?_⟩
  · rw [after_concat, apply, hmove]
    rfl
  · rw [stateOf, hchecked]
    rfl

/-- **A keypad is known from its history.** A key is held down if it was pressed last, whichever way the keypad is
asked. The press that can be taken is that of the key that was struck first since the keypad started to listen, if
one was struck and the keypad still listens; otherwise there is none. A number that names no key is refused. -/
theorem keypad_of_history (history : List Operation) :
    (∀ k, (after history).Shows k (Held history k)) ∧
    (after history).text.toList.length = 16 ∧
    (∀ k, (after history).takePress.1 = some k ↔ FirstStruck history k) ∧
    ((after history).takePress.1 = none ↔ ∀ k, ¬ FirstStruck history k) ∧
    ∀ key s, key < 0 ∨ 15 < key →
      (after history).move key s = .error (.invalidKey key) ∧
      after (history ++ [.move key s]) = after history ∧
      (after history).stateOf key = .error (.invalidKey key) := by
  refine ⟨fun k => ?_, length_text _, takePress_after_iff history, ?_, fun key s h => ?_⟩
  · rw [← propext (state_after_iff history k)]
    exact shows_state _ k
  · rw [Option.eq_none_iff_forall_ne_some]
    exact forall_congr' fun k => not_congr (takePress_after_iff history k)
  · exact refused_of_not_key history h s

/-- Key 1 is down when the keypad starts to listen, so a second press of it does not count, and neither does a key
that there is not; key 2 is the first that is struck. -/
theorem keypad_of_history_held :
    FirstStruck [.move 1 .pressed, .beginWait, .move 1 .pressed, .takePress, .move 16 .pressed, .move 2 .pressed,
      .move 3 .pressed] 2 ∧
    Held [.move 1 .pressed, .beginWait, .move 1 .pressed, .takePress, .move 16 .pressed, .move 2 .pressed,
      .move 3 .pressed] 1 ∧
    (after [.move 1 .pressed, .beginWait]).stateOf 16 = .error (.invalidKey 16) := by
  refine ⟨((keypad_of_history _).2.2.1 2).1 (by decide), ((keypad_of_history _).1 1).isPressed.1 (by decide), ?_⟩
  exact ((keypad_of_history _).2.2.2.2 16 .pressed (.inr (by decide))).2.2

end Chip8.Keypad
